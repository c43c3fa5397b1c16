import Liz.Runtime.ThreadManager

/-!
# Turn lifecycle

The six transitions of a turn. Every one of them appends an entry to the thread's turn log under the
next sequence number and writes the thread record; they differ in what they do to the table of
active turns and when.
-/

namespace Liz

/-! ### Sequence numbers -/

section Sequences

variable [Disk]

/-- The sequence number of the last entry, 0 for an empty log. -/
def lastSequence (entries : List TurnLogEntry) : Nat :=
  (entries.getLast?.map TurnLogEntry.sequence).getD 0

def recoverSequence (threadId : ThreadId) : TurnM Nat :=
  lastSequence <$> stored (RuntimeStores.readTurnLog threadId)

/-- The log is read every time, but what it says only counts when no number is remembered. -/
def nextSequenceFor (threadId : ThreadId) : TurnM Nat := do
  let recovered ← recoverSequence threadId
  let sequence := ((← get).turnManager.nextSequence.lookup threadId).getD recovered + 1
  modifyTurns fun turns => { turns with nextSequence := turns.nextSequence.insert threadId sequence }
  pure sequence

/-- The log entry of a transition of `thread`. -/
def appendTransition (threadId : ThreadId) (turnId : TurnId) (recordedAt : Timestamp)
    (event summary : String) : TurnM Unit := do
  let sequence ← nextSequenceFor threadId
  stored (RuntimeStores.appendTurnLog
    { threadId := threadId
      sequence := sequence
      turnId := some turnId
      recordedAt := recordedAt
      event := event
      summary := summary
      artifactIds := [] })

end Sequences

/-! ### The active turns -/

def TurnStatus.isOpen : TurnStatus → Bool
  | .running => true
  | .waitingApproval => true
  | _ => false

def TurnManager.threadHasRunningTurn (turns : TurnManager) (threadId : ThreadId) : Bool :=
  turns.activeTurns.entries.any fun entry =>
    entry.snd.threadId == threadId && entry.snd.status.isOpen

def TurnManager.setTurn (turnId : TurnId) (turn : Turn) (turns : TurnManager) : TurnManager :=
  { turns with activeTurns := turns.activeTurns.insert turnId turn }

def TurnManager.removeTurn (turnId : TurnId) (turns : TurnManager) : TurnManager :=
  { turns with activeTurns := turns.activeTurns.erase turnId }

def requireTurn (turnId : TurnId) : TurnM Turn := do
  orNotFound "turn_not_found" "turn is not running" ((← get).turnManager.activeTurns.lookup turnId)

def mapInputKind : TurnInputKind → TurnKind
  | .userMessage => .user
  | .resumeCommand => .user
  | .steeringNote => .assistant

/-! ### Transitions -/

section Transitions

variable [Disk] [Clock]

/-- The record of a turn that starts on `thread`. -/
def Turn.started (id : TurnId) (now : Timestamp) (thread : Thread) (request : TurnStartRequest) :
    Turn :=
  let goal := Text.trim request.input
  { id := id
    threadId := thread.id
    kind := mapInputKind request.inputKind
    status := .running
    startedAt := now
    endedAt := none
    goal := some goal
    summary := some s!"Started turn for: {goal}"
    checkpointBefore := thread.latestCheckpointId
    checkpointAfter := none }

/-- The thread while the turn works on its goal. -/
def Thread.started (turnId : TurnId) (now : Timestamp) (goal : String) (thread : Thread) : Thread :=
  { thread with
    status := .active
    updatedAt := now
    activeGoal := some goal
    activeSummary := some s!"Currently working on: {goal}"
    lastInterruption := none
    latestTurnId := some turnId
    pendingCommitments := thread.pendingCommitments.filter fun commitment =>
      !Text.contains commitment goal }

/-- Starts a new turn and updates the parent thread projection. -/
def startTurn (thread : Thread) (request : TurnStartRequest) : TurnM Turn := do
  if (← get).turnManager.threadHasRunningTurn thread.id then
    throw (.invalidState "turn_already_running" "thread already has a running turn")
  let now ← drawn IdGenerator.nowTimestamp
  let turn := Turn.started (← drawn IdGenerator.nextTurnId) now thread request
  let thread := thread.started turn.id now (Text.trim request.input)
  appendTransition thread.id turn.id now "turn_started" (turn.summary.getD "")
  updateThreadAfterTurn thread
  modifyTurns (TurnManager.setTurn turn.id turn)
  pure turn

/-- What cancelling, completing and failing share once the thread and the turn have been found: the
turn leaves the table first, then its end is logged and the thread record is written. -/
def closeTurn (thread : Thread) (turnId : TurnId) (turn : Turn) (event : String)
    (finish : Timestamp → Turn → Turn) (project : Timestamp → Turn → Thread → Thread) :
    TurnM Turn := do
  modifyTurns (TurnManager.removeTurn turnId)
  let endedAt ← drawn IdGenerator.nowTimestamp
  let turn := finish endedAt turn
  let thread := project endedAt turn thread
  appendTransition thread.id turn.id endedAt event (turn.summary.getD "")
  stored (RuntimeStores.putThread thread)
  pure turn

/-- Cancels a running turn and records an interruption marker on the thread. -/
def cancelTurn (request : TurnCancelRequest) : TurnM Turn := do
  let thread ← requireThread request.threadId
  let turn ← requireTurn request.turnId
  if turn.threadId ≠ request.threadId then
    throw (.invalidState "turn_thread_mismatch" "turn does not belong to the requested thread")
  let goal := turn.goal.getD "current turn"
  let interruption := s!"Interrupted while working on: {goal}"
  let commitment := s!"Resume interrupted work: {goal}"
  closeTurn thread request.turnId turn "turn_cancelled"
    (fun endedAt turn => { turn with
      status := .cancelled
      endedAt := some endedAt
      summary := some s!"Interrupted before finishing: {goal}" })
    (fun endedAt turn thread => { thread with
      status := .interrupted
      updatedAt := endedAt
      activeSummary := some interruption
      lastInterruption := some interruption
      pendingCommitments := if thread.pendingCommitments.contains commitment
        then thread.pendingCommitments else thread.pendingCommitments ++ [commitment]
      latestTurnId := some turn.id })

/-- Completes a running turn and persists the updated thread projection. -/
def completeTurn (threadId : ThreadId) (turnId : TurnId) (finalMessage : String) : TurnM Turn := do
  let thread ← requireThread threadId
  let turn ← requireTurn turnId
  closeTurn thread turnId turn "turn_completed"
    (fun endedAt turn => { turn with
      status := .completed
      endedAt := some endedAt
      summary := some finalMessage })
    (fun endedAt turn thread => { thread with
      status := .active
      updatedAt := endedAt
      activeSummary := some finalMessage
      lastInterruption := none
      latestTurnId := some turn.id })

/-- Fails a running turn and projects the failure onto the thread. -/
def failTurn (threadId : ThreadId) (turnId : TurnId) (message : String) : TurnM Turn := do
  let thread ← requireThread threadId
  let turn ← requireTurn turnId
  closeTurn thread turnId turn "turn_failed"
    (fun endedAt turn => { turn with
      status := .failed
      endedAt := some endedAt
      summary := some message })
    (fun endedAt turn thread => { thread with
      status := .failed
      updatedAt := endedAt
      activeSummary := some s!"Turn failed: {message}"
      latestTurnId := some turn.id })

/-- What the two status changes of a turn that stays active share. -/
def markTurn (threadId : ThreadId) (turnId : TurnId) (event summary : String)
    (mark : Turn → Turn) (project : Timestamp → Turn → Thread → Thread) : TurnM Turn := do
  let thread ← requireThread threadId
  let recordedAt ← drawn IdGenerator.nowTimestamp
  let turn := mark (← requireTurn turnId)
  modifyTurns (TurnManager.setTurn turnId turn)
  let thread := project recordedAt turn thread
  appendTransition thread.id turn.id recordedAt event summary
  stored (RuntimeStores.putThread thread)
  pure turn

def Turn.waiting (reason : String) (turn : Turn) : Turn :=
  { turn with status := .waitingApproval, summary := some reason }

def Turn.resumed (turn : Turn) : Turn := { turn with status := .running }

/-- Marks a running turn as waiting for approval and updates the thread projection. -/
def markWaitingApproval (threadId : ThreadId) (turnId : TurnId) (reason : String) : TurnM Turn :=
  markTurn threadId turnId "approval_wait" reason
    (Turn.waiting reason)
    (fun recordedAt turn thread => { thread with
      status := .waitingApproval
      updatedAt := recordedAt
      activeSummary := some s!"Waiting approval: {reason}"
      latestTurnId := some turn.id })

/-- Marks a waiting turn as runnable again after approval. -/
def markRunning (threadId : ThreadId) (turnId : TurnId) : TurnM Turn :=
  markTurn threadId turnId "approval_resolved" "Approval granted; resuming turn"
    Turn.resumed
    (fun recordedAt turn thread => { thread with
      status := .active
      updatedAt := recordedAt
      activeSummary := some ((turn.goal.map fun goal => s!"Currently working on: {goal}").getD
        "Currently working on the requested turn")
      latestTurnId := some turn.id })

/-- The six transitions as data. -/
inductive TurnOperation
  | startTurn (thread : Thread) (request : TurnStartRequest)
  | cancelTurn (request : TurnCancelRequest)
  | markWaitingApproval (threadId : ThreadId) (turnId : TurnId) (reason : String)
  | markRunning (threadId : ThreadId) (turnId : TurnId)
  | completeTurn (threadId : ThreadId) (turnId : TurnId) (finalMessage : String)
  | failTurn (threadId : ThreadId) (turnId : TurnId) (message : String)

def TurnOperation.run : TurnOperation → TurnM Turn
  | startTurn thread request => Liz.startTurn thread request
  | cancelTurn request => Liz.cancelTurn request
  | markWaitingApproval threadId turnId reason => Liz.markWaitingApproval threadId turnId reason
  | markRunning threadId turnId => Liz.markRunning threadId turnId
  | completeTurn threadId turnId finalMessage => Liz.completeTurn threadId turnId finalMessage
  | failTurn threadId turnId message => Liz.failTurn threadId turnId message

end Transitions

/-! ### Rules -/

/-- What the next operation reads of a log. -/
def readLog [Disk] (stores : RuntimeStores) (threadId : ThreadId) :
    Except StorageError (List TurnLogEntry) :=
  logOutcome (Disk.fault stores.operations) (stores.turnLog threadId)

namespace TurnRuntime

/-- The number a transition gets when the log reads as `entries`. -/
def allocated (runtime : TurnRuntime) (threadId : ThreadId) (entries : List TurnLogEntry) : Nat :=
  (runtime.turnManager.nextSequence.lookup threadId).getD (lastSequence entries) + 1

/-- The runtime after the log has been read, the number remembered and the entry appended. -/
def logged (runtime : TurnRuntime) (entry : TurnLogEntry) (fault : Option Fault) : TurnRuntime :=
  { runtime with
    stores := (runtime.stores.tick.appended entry fault).tick
    turnManager := { runtime.turnManager with
      nextSequence := runtime.turnManager.nextSequence.insert entry.threadId entry.sequence } }

end TurnRuntime

section Rules

open Program

variable {E : RuntimeError → TurnRuntime → Prop} {runtime : TurnRuntime}

theorem wp_requireTurn {Q : Turn → TurnRuntime → Prop} (turnId : TurnId) :
    wp (requireTurn turnId) Q E runtime ↔
      (∀ turn, runtime.turnManager.activeTurns.lookup turnId = some turn → Q turn runtime) ∧
      (runtime.turnManager.activeTurns.lookup turnId = none →
        E (.notFound "turn_not_found" "turn is not running") runtime) := by
  rw [requireTurn, wp_bind, wp_get, wp_orNotFound]

variable [Disk]

theorem wp_readLog {Q : List TurnLogEntry → RuntimeStores → Prop}
    {E : StorageError → RuntimeStores → Prop} {stores : RuntimeStores} (threadId : ThreadId) :
    wp (RuntimeStores.readTurnLog threadId) Q E stores ↔
      (∀ entries, readLog stores threadId = .ok entries → Q entries stores.tick) ∧
      (∀ e, readLog stores threadId = .error e → E e stores.tick) := by
  rw [RuntimeStores.readTurnLog, wp_operation]
  rfl

theorem wp_appendTransition {Q : Unit → TurnRuntime → Prop} (threadId : ThreadId)
    (turnId : TurnId) (recordedAt : Timestamp) (event summary : String) :
    wp (appendTransition threadId turnId recordedAt event summary) Q E runtime ↔
      (∀ entries, readLog runtime.stores threadId = .ok entries →
        ∀ entry : TurnLogEntry, entry = ⟨threadId, runtime.allocated threadId entries, some turnId,
            recordedAt, event, summary, []⟩ →
          (Disk.fault (runtime.stores.operations + 1) = none → Q () (runtime.logged entry none)) ∧
          (∀ fault, Disk.fault (runtime.stores.operations + 1) = some fault →
            E (.storage (.io fault.message)) (runtime.logged entry (some fault)))) ∧
      (∀ e, readLog runtime.stores threadId = .error e →
        E (.storage e) { runtime with stores := runtime.stores.tick }) := by
  simp only [appendTransition, nextSequenceFor, recoverSequence, wp_bind, wp_map, wp_stored,
    wp_readLog, wp_get, wp_modifyTurns, wp_pure, RuntimeStores.appendTurnLog, wp_effect]
  simp only [forall_eq]
  rfl

/-- A thread without an open turn gets one: its identifier is drawn, its start is logged, and the
record of the thread is written before the turn is kept. -/
theorem wp_startTurn [Clock] {Q : Turn → TurnRuntime → Prop} (thread : Thread)
    (request : TurnStartRequest) :
    wp (startTurn thread request) Q E runtime ↔
      (runtime.turnManager.threadHasRunningTurn thread.id = true →
        E (.invalidState "turn_already_running" "thread already has a running turn") runtime) ∧
      (runtime.turnManager.threadHasRunningTurn thread.id = false →
        ∀ turn, turn = Turn.started runtime.ids.nowTimestamp.2.nextTurnId.1
            runtime.ids.nowTimestamp.1 thread request →
          wp (do
              appendTransition thread.id turn.id runtime.ids.nowTimestamp.1 "turn_started"
                (turn.summary.getD "")
              updateThreadAfterTurn
                (thread.started turn.id runtime.ids.nowTimestamp.1 (Text.trim request.input))
              modifyTurns (TurnManager.setTurn turn.id turn)
              pure turn)
            Q E { runtime with ids := runtime.ids.nowTimestamp.2.nextTurnId.2 }) := by
  unfold startTurn
  rw [wp_bind, wp_get, forall_eq]
  cases hrunning : runtime.turnManager.threadHasRunningTurn thread.id with
  | true =>
      rw [if_pos rfl, wp_bind, wp_throw]
      exact ⟨fun h => ⟨fun _ => h, nofun⟩, fun h => h.1 rfl⟩
  | false =>
      rw [if_neg Bool.false_ne_true]
      dsimp only
      rw [wp_bind, wp_drawn, wp_bind, wp_drawn]
      exact ⟨fun h => ⟨nofun, fun _ => h⟩, fun h => h.2 rfl⟩

end Rules

end Liz
