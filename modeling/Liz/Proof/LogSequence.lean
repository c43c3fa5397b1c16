import Liz.Base.Runs
import Liz.Runtime.Coordinator

/-!
# The sequence numbers of a turn log

The entries of a log are meant to be numbered in increasing order. Two allocators number them: the
turn manager counts on from the number it remembers, a tool execution takes the length of the log.
They agree as long as each is consulted when it is not behind the last entry; this file proves that
every run in which this is so keeps the numbers increasing, whatever the disk does and however often
the runtime restarts, and shows a run of three operations in which it is not.
-/

namespace Liz

open Program

inductive LogOperation
  | turn (operation : TurnOperation)
  | recordToolExecution (threadId : ThreadId) (turnId : Option TurnId) (nodeId : Option NodeId)
      (workspaceMountId : Option WorkspaceMountId) (toolName summary : String)
      (artifacts : List (ArtifactKind × String × String))
  | restart

namespace TurnRuntime

def log (runtime : TurnRuntime) (threadId : ThreadId) : List TurnLogEntry :=
  (runtime.stores.turnLog threadId).entries

/-- What a restart leaves: the files and the clock. -/
def restarted (runtime : TurnRuntime) : TurnRuntime :=
  { runtime with ids := { runtime.ids with sequence := 0 }, turnManager := .default }

end TurnRuntime

/-- The numbers of the entries increase in the order of the appends. -/
def Increasing (entries : List TurnLogEntry) : Prop :=
  entries.Pairwise fun earlier later => earlier.sequence < later.sequence

/-- The remembered number, if there is one, is not behind the last entry. -/
def CounterInStep (runtime : TurnRuntime) (threadId : ThreadId) : Prop :=
  ∀ sequence, runtime.turnManager.nextSequence.lookup threadId = some sequence →
    lastSequence (runtime.log threadId) ≤ sequence

section Steps

variable [Disk] [Clock]

def LogOperation.step (runtime : TurnRuntime) : LogOperation → TurnRuntime
  | turn operation => after operation.run runtime
  | recordToolExecution threadId turnId nodeId workspaceMountId toolName summary artifacts =>
      after (Liz.recordToolExecution threadId turnId nodeId workspaceMountId toolName summary
        artifacts) runtime
  | restart => runtime.restarted

/-- The thread record whose log a transition appends to. -/
def TurnOperation.thread (runtime : TurnRuntime) : TurnOperation → Except RuntimeError Thread
  | startTurn thread _ => .ok thread
  | cancelTurn request => foundThread runtime.stores request.threadId
  | markWaitingApproval threadId _ _ => foundThread runtime.stores threadId
  | markRunning threadId _ => foundThread runtime.stores threadId
  | completeTurn threadId _ _ => foundThread runtime.stores threadId
  | failTurn threadId _ _ => foundThread runtime.stores threadId

/-- The allocator that the operation consults is not behind the last entry of the log. -/
def AllocatorInStep (threadId : ThreadId) (runtime : TurnRuntime) : LogOperation → Prop
  | .turn operation => ∀ thread, operation.thread runtime = .ok thread → thread.id = threadId →
      CounterInStep runtime threadId
  | .recordToolExecution target _ _ _ _ _ _ => target = threadId →
      lastSequence (runtime.log threadId) ≤ (runtime.log threadId).length
  | .restart => True

end Steps

/-! ### One append -/

theorem sequence_le_lastSequence {entries : List TurnLogEntry} (h : Increasing entries)
    {entry : TurnLogEntry} (hentry : entry ∈ entries) : entry.sequence ≤ lastSequence entries := by
  rcases List.eq_nil_or_concat entries with rfl | ⟨init, last, rfl⟩
  · exact absurd hentry List.not_mem_nil
  · rw [List.concat_eq_append] at h hentry ⊢
    have hlast : lastSequence (init ++ [last]) = last.sequence := by
      simp [lastSequence]
    rw [hlast]
    rcases List.mem_append.mp hentry with hinit | hlast
    · exact ((List.pairwise_append.mp h).2.2 entry hinit last (List.mem_singleton_self last)).le
    · rw [List.mem_singleton.mp hlast]

theorem Increasing.append {entries : List TurnLogEntry} (h : Increasing entries)
    {entry : TurnLogEntry} (hentry : lastSequence entries < entry.sequence) :
    Increasing (entries ++ [entry]) := by
  refine List.pairwise_append.mpr ⟨h, List.pairwise_singleton _ _, ?_⟩
  intro earlier hearlier later hlater
  rw [List.mem_singleton.mp hlater]
  exact lt_of_le_of_lt (sequence_le_lastSequence h hearlier) hentry

/-- The log is as it was, or has one more entry with a number behind the last one. -/
def LogGrows (before after : List TurnLogEntry) : Prop :=
  after = before ∨ ∃ entry, after = before ++ [entry] ∧ lastSequence before < entry.sequence

theorem LogGrows.increasing {entries entries' : List TurnLogEntry} (h : LogGrows entries entries')
    (hincreasing : Increasing entries) : Increasing entries' := by
  rcases h with rfl | ⟨entry, rfl, hentry⟩
  · exact hincreasing
  · exact hincreasing.append hentry

/-- Whatever an append comes to, the log of a thread grows by at most the entry. -/
theorem appended_grows {stores : RuntimeStores} {entry : TurnLogEntry} (fault : Option Fault)
    {threadId : ThreadId} (hentry : entry.threadId = threadId →
      lastSequence (stores.turnLog threadId).entries < entry.sequence) :
    LogGrows (stores.turnLog threadId).entries ((stores.appended entry fault).turnLog threadId).entries := by
  rw [turnLog_appended]
  by_cases hid : threadId = entry.threadId
  · rw [if_pos hid]
    have hgrows : LogGrows (stores.turnLog threadId).entries
        ((stores.turnLog threadId).entries ++ [entry]) := Or.inr ⟨entry, rfl, hentry hid.symm⟩
    rcases fault with _ | message | message | message
    · exact hgrows
    · exact Or.inl rfl
    · exact Or.inl rfl
    · exact hgrows
  · rw [if_neg hid]
    exact Or.inl rfl

/-- The log of the thread has grown by at most one well-numbered entry since `base`. -/
def Grows (threadId : ThreadId) (base runtime : TurnRuntime) : Prop :=
  LogGrows (base.log threadId) (runtime.log threadId)

theorem grows_of_sameLogs {threadId : ThreadId} {base runtime : TurnRuntime}
    (h : SameLogs base runtime) : Grows threadId base runtime :=
  Or.inl (congrArg TurnLogFile.entries (h.turnLog threadId))

section Operations

variable [Disk]

theorem entries_of_readLog {stores : RuntimeStores} {threadId : ThreadId}
    {entries : List TurnLogEntry} (h : readLog stores threadId = .ok entries) :
    entries = (stores.turnLog threadId).entries := by
  unfold readLog logOutcome at h
  cases hfault : Disk.fault stores.operations with
  | some fault => simp [hfault] at h
  | none =>
      simp only [hfault, TurnLogFile.read] at h
      split at h
      · exact absurd h (by simp)
      · exact (Except.ok.inj h).symm

/-- A transition that appends with the turn manager's number and leaves the logs alone afterwards. -/
theorem appendTransition_grows {base runtime : TurnRuntime} {threadId target : ThreadId}
    {turnId : TurnId} {recordedAt : Timestamp} {event summary : String} {next : Unit → TurnM Turn}
    (hlogs : SameLogs base runtime)
    (hcounter : target = threadId → CounterInStep runtime threadId)
    (hnext : Guarantees SameLogs (next ())) :
    wp (appendTransition target turnId recordedAt event summary >>= next)
      (fun _ => Grows threadId base) (fun _ => Grows threadId base) runtime := by
  have hbase : base.log threadId = runtime.log threadId :=
    congrArg TurnLogFile.entries (hlogs.turnLog threadId).symm
  unfold Grows
  rw [hbase, wp_bind, wp_appendTransition]
  refine ⟨?_, fun e _ => Or.inl rfl⟩
  rintro entries hread entry rfl
  have hlogged : ∀ fault, LogGrows (runtime.log threadId)
      ((runtime.logged ⟨target, runtime.allocated target entries, some turnId, recordedAt, event,
        summary, []⟩ fault).log threadId) := by
    intro fault
    refine appended_grows fault fun htarget => ?_
    change target = threadId at htarget
    subst htarget
    have hlast := entries_of_readLog hread
    unfold TurnRuntime.allocated
    cases hremembered : runtime.turnManager.nextSequence.lookup target with
    | none =>
        rw [hlast]
        exact Nat.lt_succ_self _
    | some sequence =>
        exact Nat.lt_succ_of_le (hcounter rfl sequence hremembered)
  refine ⟨fun _ => ?_, fun fault _ => hlogged (some fault)⟩
  have hkept : ∀ t u : TurnRuntime, SameLogs t u → u.log threadId = t.log threadId :=
    fun t u h => congrArg TurnLogFile.entries (h.turnLog threadId)
  exact wp_mono (hnext _) (fun _ u h => hkept _ u h ▸ hlogged none)
    (fun _ u h => hkept _ u h ▸ hlogged none)

theorem putThread_pure_sameLogs (thread : Thread) (turn : Turn) :
    Guarantees SameLogs (do
      stored (RuntimeStores.putThread thread)
      pure turn) :=
  Guarantees.bind SameLogs.trans (putThread_sameLogs thread) fun _ =>
    Guarantees.pure SameLogs.refl turn

variable {base runtime : TurnRuntime} {threadId target : ThreadId}

/-- Cancelling, completing and failing a turn. -/
theorem lookups_grows {turnId : TurnId} {next : Thread → Turn → TurnM Turn}
    (hnext : ∀ thread turn t, foundThread runtime.stores target = .ok thread →
      t = { runtime with stores := runtime.stores.tick } →
      wp (next thread turn) (fun _ => Grows threadId runtime) (fun _ => Grows threadId runtime) t) :
    wp (do
        let thread ← requireThread target
        let turn ← requireTurn turnId
        next thread turn) (fun _ => Grows threadId runtime) (fun _ => Grows threadId runtime)
      runtime := by
  rw [wp_bind, wp_requireThread]
  refine ⟨fun thread hthread => ?_, fun e _ => grows_of_sameLogs rfl⟩
  rw [wp_bind, wp_requireTurn]
  exact ⟨fun turn _ => hnext thread turn _ hthread rfl, fun _ => grows_of_sameLogs rfl⟩

variable [Clock]

theorem closeTurn_grows {thread : Thread} {turnId : TurnId} {turn : Turn} {event : String}
    {finish : Timestamp → Turn → Turn} {project : Timestamp → Turn → Thread → Thread}
    (hproject : ∀ endedAt turn thread, (project endedAt turn thread).id = thread.id)
    (hlogs : SameLogs base runtime)
    (hcounter : thread.id = threadId → CounterInStep runtime threadId) :
    wp (closeTurn thread turnId turn event finish project) (fun _ => Grows threadId base)
      (fun _ => Grows threadId base) runtime := by
  unfold closeTurn
  rw [wp_bind, wp_modifyTurns, wp_bind, wp_drawn]
  refine appendTransition_grows hlogs (fun htarget => ?_) (putThread_pure_sameLogs _ _)
  rw [hproject] at htarget
  exact hcounter htarget

theorem markTurn_grows {turnId : TurnId} {event summary : String} {mark : Turn → Turn}
    {project : Timestamp → Turn → Thread → Thread}
    (hproject : ∀ recordedAt turn thread, (project recordedAt turn thread).id = thread.id)
    (hcounter : ∀ thread, foundThread runtime.stores target = .ok thread → thread.id = threadId →
      CounterInStep runtime threadId) :
    wp (markTurn target turnId event summary mark project) (fun _ => Grows threadId runtime)
      (fun _ => Grows threadId runtime) runtime := by
  unfold markTurn
  rw [wp_bind, wp_requireThread]
  refine ⟨fun thread hthread => ?_, fun e _ => grows_of_sameLogs rfl⟩
  rw [wp_bind, wp_drawn, wp_bind, wp_requireTurn]
  refine ⟨fun turn _ => ?_, fun _ => grows_of_sameLogs rfl⟩
  rw [wp_bind, wp_modifyTurns]
  refine appendTransition_grows rfl (fun htarget => ?_) (putThread_pure_sameLogs _ _)
  rw [hproject] at htarget
  exact hcounter thread hthread htarget

theorem startTurn_grows {thread : Thread} {request : TurnStartRequest}
    (hcounter : thread.id = threadId → CounterInStep runtime threadId) :
    wp (startTurn thread request) (fun _ => Grows threadId runtime)
      (fun _ => Grows threadId runtime) runtime := by
  rw [wp_startTurn]
  refine ⟨fun _ => grows_of_sameLogs rfl, fun _ turn _ => ?_⟩
  refine appendTransition_grows rfl (fun htarget => ?_) ?_
  · exact hcounter htarget
  · refine Guarantees.bind SameLogs.trans (updateThreadAfterTurn_sameLogs _) fun _ => ?_
    exact Guarantees.bind SameLogs.trans (Guarantees.modify fun _ => rfl) fun _ =>
      Guarantees.pure SameLogs.refl _

/-- Every transition whose counter is in step adds at most one well-numbered entry. -/
theorem turnOperation_grows (operation : TurnOperation)
    (hstep : AllocatorInStep threadId runtime (.turn operation)) :
    wp operation.run (fun _ => Grows threadId runtime) (fun _ => Grows threadId runtime)
      runtime := by
  cases operation with
  | startTurn thread request =>
      unfold TurnOperation.run
      exact startTurn_grows (hstep thread rfl)
  | cancelTurn request =>
      unfold TurnOperation.run Liz.cancelTurn
      refine lookups_grows fun thread turn t hthread ht => ?_
      subst ht
      by_cases hmismatch : turn.threadId ≠ request.threadId
      · rw [if_pos hmismatch, wp_bind, wp_throw]
        exact grows_of_sameLogs rfl
      · rw [if_neg hmismatch]
        exact closeTurn_grows (by intros; rfl) rfl (hstep thread hthread)
  | markWaitingApproval target turnId reason =>
      unfold TurnOperation.run Liz.markWaitingApproval
      exact markTurn_grows (by intros; rfl) hstep
  | markRunning target turnId =>
      unfold TurnOperation.run Liz.markRunning
      exact markTurn_grows (by intros; rfl) hstep
  | completeTurn target turnId finalMessage =>
      unfold TurnOperation.run Liz.completeTurn
      refine lookups_grows fun thread turn t hthread ht => ?_
      subst ht
      exact closeTurn_grows (by intros; rfl) rfl (hstep thread hthread)
  | failTurn target turnId message =>
      unfold TurnOperation.run Liz.failTurn
      refine lookups_grows fun thread turn t hthread ht => ?_
      subst ht
      exact closeTurn_grows (by intros; rfl) rfl (hstep thread hthread)

theorem storeArtifacts_sameLogs (reference : ArtifactId → ArtifactKind → String → String → ArtifactRef)
    (artifacts : List (ArtifactKind × String × String)) :
    Guarantees SameLogs (storeArtifacts reference artifacts) := by
  induction artifacts with
  | nil => exact Guarantees.pure SameLogs.refl []
  | cons artifact rest ih =>
      obtain ⟨kind, artifactSummary, body⟩ := artifact
      have hput : ∀ artifact : StoredArtifact,
          Guarantees SameLogs (stored (RuntimeStores.putArtifact artifact)) := by
        intro artifact runtime
        rw [wp_stored, RuntimeStores.putArtifact, writeJson, wp_effect]
        refine ⟨fun _ => rfl, fun fault _ => ?_⟩
        cases fault <;> rfl
      refine Guarantees.bind SameLogs.trans (Guarantees.modifyGet fun _ => rfl) fun artifactId => ?_
      refine Guarantees.bind SameLogs.trans (Guarantees.get SameLogs.refl) fun runtime => ?_
      refine Guarantees.bind SameLogs.trans (hput _) fun _ => ?_
      exact Guarantees.bind SameLogs.trans ih fun references => Guarantees.pure SameLogs.refl _

/-- A tool execution numbers its entry by the length of the log. -/
theorem recordToolExecution_grows {turnId : Option TurnId} {nodeId : Option NodeId}
    {workspaceMountId : Option WorkspaceMountId} {toolName summary : String}
    {artifacts : List (ArtifactKind × String × String)}
    (hlength : target = threadId →
      lastSequence (runtime.log threadId) ≤ (runtime.log threadId).length) :
    wp (recordToolExecution target turnId nodeId workspaceMountId toolName summary artifacts)
      (fun _ => Grows threadId runtime) (fun _ => Grows threadId runtime) runtime := by
  have hturn : Guarantees SameLogs (executionTurn turnId) := by
    cases turnId with
    | none => exact Guarantees.modifyGet fun _ => rfl
    | some turnId => exact Guarantees.pure SameLogs.refl turnId
  unfold recordToolExecution
  rw [wp_bind]
  refine wp_mono (hturn runtime) (fun executionTurnId s hs => ?_) (fun _ _ h => grows_of_sameLogs h)
  rw [wp_bind, wp_drawn, wp_bind]
  refine wp_mono (storeArtifacts_sameLogs _ artifacts _) (fun references t ht => ?_)
    (fun _ _ h => grows_of_sameLogs (SameLogs.trans hs h))
  have hbase : SameLogs runtime t := SameLogs.trans hs ht
  have hlog : runtime.log threadId = t.log threadId :=
    congrArg TurnLogFile.entries (hbase.turnLog threadId).symm
  unfold Grows
  rw [hlog] at hlength ⊢
  simp only [nextToolSequence, wp_bind, wp_stored, wp_readLog, wp_pure,
    RuntimeStores.appendTurnLog, wp_effect]
  refine ⟨fun entries hread => ?_, fun _ _ => Or.inl rfl⟩
  have happended : ∀ entry : TurnLogEntry, entry.threadId = target →
      entry.sequence = entries.length + 1 → ∀ fault, LogGrows (t.log threadId)
        ((t.stores.tick.appended entry fault).turnLog threadId).entries := by
    intro entry htarget hsequence fault
    refine appended_grows fault fun hid => ?_
    have hthis : target = threadId := htarget.symm.trans hid
    subst hthis
    rw [hsequence, entries_of_readLog hread]
    exact Nat.lt_succ_of_le (hlength rfl)
  exact ⟨fun _ => happended _ rfl rfl none, fun fault _ => happended _ rfl rfl (some fault)⟩

end Operations

/-! ### Runs -/

section Runs

variable [Disk] [Clock] {threadId : ThreadId}

theorem increasing_step {runtime : TurnRuntime} {operation : LogOperation}
    (h : Increasing (runtime.log threadId)) (hstep : AllocatorInStep threadId runtime operation) :
    Increasing ((operation.step runtime).log threadId) := by
  have hgrows : Grows threadId runtime (operation.step runtime) := by
    cases operation with
    | turn operation => exact wp_after.mp (turnOperation_grows operation hstep)
    | recordToolExecution target turnId nodeId workspaceMountId toolName summary artifacts =>
        exact wp_after.mp (recordToolExecution_grows hstep)
    | restart => exact grows_of_sameLogs rfl
  exact hgrows.increasing h

/-- In every run whose allocators are in step the numbers of the log increase throughout. -/
theorem turnLog_increasing {runtime : TurnRuntime} (operations : List LogOperation)
    (hstart : runtime.log threadId = [])
    (hsteps : Runs.AllSteps (fun runtime operation => LogOperation.step runtime operation)
      (AllocatorInStep threadId) runtime operations) :
    ∀ state ∈ Runs.states (fun runtime operation => LogOperation.step runtime operation) runtime
      operations, Increasing (state.log threadId) := by
  have hpreserved : ∀ (s : TurnRuntime) (operation : LogOperation), Increasing (s.log threadId) →
      AllocatorInStep threadId s operation → Increasing ((operation.step s).log threadId) :=
    fun s operation hs hoperation => increasing_step hs hoperation
  have hempty : Increasing (runtime.log threadId) := by
    rw [hstart]
    exact List.Pairwise.nil
  exact Runs.invariant hpreserved hempty hsteps

end Runs

/-! ### A run that numbers two entries alike

The turn starts under number 1 and the manager remembers it. The tool execution takes the length of
the log plus one, 2, and the completion counts on from 1. -/

def freshRuntime : TurnRuntime :=
  { stores := RuntimeStores.blank, ids := .new, turnManager := .default }

def startListing : LogOperation :=
  .turn (.startTurn (Thread.blank "thread_0_1")
    { threadId := "thread_0_1", input := "list the files", inputKind := .userMessage,
      channel := none, participant := none, interactionContext := none })

def recordListing : LogOperation :=
  .recordToolExecution "thread_0_1" (some "turn_0_1") none none "workspace.list" "Listed 2 entries" []

def completeListing : LogOperation :=
  .turn (.completeTurn "thread_0_1" "turn_0_1" "There are two files.")

theorem turnLog_increasing_of_one_tool :
    freshRuntime.log "thread_0_1" = [] ∧
      ∀ state ∈ Runs.states (fun runtime operation =>
          @LogOperation.step calmDisk stoppedClock runtime operation) freshRuntime
          [startListing, recordListing],
        Increasing (state.log "thread_0_1") := by
  refine ⟨by decide, @turnLog_increasing calmDisk stoppedClock "thread_0_1" freshRuntime
    [startListing, recordListing] (by decide) ⟨?_, ?_, trivial⟩⟩
  · intro thread _ _ sequence hremembered
    exact absurd hremembered (by decide +revert)
  · intro _
    decide

theorem turnLog_numbers_repeat :
    ¬ ∀ (disk : Disk) (clock : Clock) (threadId : ThreadId) (runtime : TurnRuntime)
      (operations : List LogOperation), runtime.log threadId = [] →
      ∀ state ∈ Runs.states (fun runtime operation =>
          @LogOperation.step disk clock runtime operation) runtime operations,
        Increasing (state.log threadId) := by
  intro hclaim
  have hincreasing := hclaim calmDisk stoppedClock "thread_0_1" freshRuntime
    [startListing, recordListing, completeListing] (by decide) _ (Runs.final_mem_states _ _)
  have hnumbers : ((Runs.final (fun runtime operation =>
      @LogOperation.step calmDisk stoppedClock runtime operation) freshRuntime
      [startListing, recordListing, completeListing]).log "thread_0_1").map TurnLogEntry.sequence =
        [1, 2, 2] := by decide
  have hpairwise := List.pairwise_map.mpr hincreasing
  rw [hnumbers] at hpairwise
  exact absurd hpairwise (by decide)

end Liz
