import Liz.Runtime.Basic

/-!
# Thread lifecycle

Starting, resuming and forking threads. Each of them writes the thread record first and then the
list of active threads in the memory file.
-/

namespace Liz

variable [Disk]

def syncActiveThreadIds (threadId : ThreadId) (shouldBePresent : Bool) : TurnM Unit := do
  let snapshot ← stored RuntimeStores.readGlobalMemory
  let others := snapshot.activeThreadIds.filter (· != threadId)
  stored (RuntimeStores.writeGlobalMemory
    { snapshot with
      activeThreadIds := if shouldBePresent then others ++ [threadId] else others })

/-- Persists a thread projection after a turn transition. -/
def updateThreadAfterTurn (thread : Thread) : TurnM Unit := do
  stored (RuntimeStores.putThread thread)
  syncActiveThreadIds thread.id (thread.status != .archived && thread.status != .completed)

def startThread [Clock] (request : ThreadStartRequest) : TurnM Thread := do
  let now ← drawn IdGenerator.nowTimestamp
  let title := ((request.title.filter fun value => !Text.isBlank value).or request.initialGoal).getD
    "Untitled thread"
  let thread : Thread :=
    { id := ← drawn IdGenerator.nextThreadId
      title := title
      status := .active
      createdAt := now
      updatedAt := now
      activeGoal := request.initialGoal
      activeSummary := request.initialGoal.map fun goal => s!"New thread initialized for: {goal}"
      lastInterruption := none
      workspaceRef := request.workspaceRef
      workspaceMountId := request.workspaceMountId
      pendingCommitments := []
      latestTurnId := none
      latestCheckpointId := none
      parentThreadId := none }
  stored (RuntimeStores.putThread thread)
  syncActiveThreadIds thread.id true
  pure thread

def resumeThread (request : ThreadResumeRequest) : TurnM Thread := do
  let found ← requireThread request.threadId
  let thread := { found with status := .active }
  stored (RuntimeStores.putThread thread)
  syncActiveThreadIds thread.id true
  pure thread

/-- Creates a child thread that inherits the active state of its parent. -/
def forkThread [Clock] (request : ThreadForkRequest) : TurnM Thread := do
  let parent ← requireThread request.threadId
  let now ← drawn IdGenerator.nowTimestamp
  let title := (request.title.filter fun value => !Text.isBlank value).getD
    s!"{parent.title} (fork)"
  let commitments := match request.forkReason with
    | some reason => parent.pendingCommitments ++ [s!"Fork created for: {reason}"]
    | none => parent.pendingCommitments
  let thread : Thread :=
    { id := ← drawn IdGenerator.nextThreadId
      title := title
      status := .active
      createdAt := now
      updatedAt := now
      activeGoal := parent.activeGoal
      activeSummary := some (match request.forkReason with
        | some reason => s!"Forked from {parent.title} to explore: {reason}"
        | none => s!"Forked from {parent.title}")
      lastInterruption := parent.lastInterruption
      workspaceRef := parent.workspaceRef
      workspaceMountId := parent.workspaceMountId
      pendingCommitments := commitments
      latestTurnId := none
      latestCheckpointId := parent.latestCheckpointId
      parentThreadId := some parent.id }
  stored (RuntimeStores.putThread thread)
  syncActiveThreadIds thread.id true
  pure thread

/-! ### Rules -/

theorem putThread_sameLogs (thread : Thread) :
    Program.Guarantees SameLogs (stored (RuntimeStores.putThread thread)) := by
  intro runtime
  rw [wp_stored, wp_putThread]
  exact ⟨fun _ => turnLogs_withThread _ _ _, fun _ _ => turnLogs_withThread _ _ _⟩

theorem syncActiveThreadIds_sameLogs (threadId : ThreadId) (shouldBePresent : Bool) :
    Program.Guarantees SameLogs (syncActiveThreadIds threadId shouldBePresent) := by
  intro runtime
  simp only [syncActiveThreadIds, Program.wp_bind, wp_stored, RuntimeStores.readGlobalMemory,
    RuntimeStores.writeGlobalMemory, Program.wp_map, wp_readJson, writeJson, wp_effect]
  refine ⟨fun _ _ => ⟨fun _ => rfl, fun fault _ => ?_⟩, fun _ _ => rfl⟩
  cases fault <;> rfl

theorem updateThreadAfterTurn_sameLogs (thread : Thread) :
    Program.Guarantees SameLogs (updateThreadAfterTurn thread) :=
  Program.Guarantees.bind SameLogs.trans (putThread_sameLogs thread) fun _ =>
    syncActiveThreadIds_sameLogs _ _

end Liz
