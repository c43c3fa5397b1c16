import Liz.Base.Runs
import Liz.Cli.App

/-!
# The active thread of the terminal client

The user makes a thread active by starting, resuming or forking one, or by opening one from the list
of conversations. Nothing else takes the place of an active thread; a list without it is the one
thing that makes it inactive. While no thread is active, the next one that an event is about becomes
active.
-/

namespace Liz

namespace ViewModel

variable (view : ViewModel)

@[simp] theorem activeThreadId_syncVisibleTranscript :
    view.syncVisibleTranscript.activeThreadId = view.activeThreadId := rfl

@[simp] theorem activeThreadId_pushThreadEntry (threadId : ThreadId) (kind : TranscriptEntryKind)
    (body : String) :
    (view.pushThreadEntry threadId kind body).activeThreadId = view.activeThreadId := by
  unfold pushThreadEntry
  dsimp only
  split <;> rfl

@[simp] theorem activeThreadId_pushEntryForSelectedThread (kind : TranscriptEntryKind)
    (body : String) :
    (view.pushEntryForSelectedThread kind body).activeThreadId = view.activeThreadId := by
  unfold pushEntryForSelectedThread
  split
  · exact activeThreadId_pushThreadEntry view _ kind body
  · rfl

@[simp] theorem activeThreadId_upsertThread (thread : Thread) :
    (view.upsertThread thread).activeThreadId = view.activeThreadId.or (some thread.id) := rfl

@[simp] theorem activeThreadId_attachPendingEntriesToThread (threadId : ThreadId) :
    (view.attachPendingEntriesToThread threadId).activeThreadId = view.activeThreadId := by
  unfold attachPendingEntriesToThread
  split <;> rfl

@[simp] theorem activeThreadId_replaceThreadHistory (session : MemorySessionView) :
    (view.replaceThreadHistory session).activeThreadId = view.activeThreadId := by
  unfold replaceThreadHistory
  dsimp only
  split <;> rfl

end ViewModel

/-- The thread an event is a record of. -/
def ServerEventPayload.announced : ServerEventPayload → Option ThreadId
  | .threadStarted thread | .threadResumed thread | .threadUpdated thread
  | .threadInterrupted thread | .threadForked thread => some thread.id
  | _ => none

/-- The thread that a step announces by an event. -/
def TerminalStep.announced : TerminalStep → Option ThreadId
  | .client (.event event) => event.payload.announced
  | _ => none

/-- A list of conversations has the thread; every other step lets it be. -/
def TerminalStep.lists : TerminalStep → ThreadId → Bool
  | .client (.response (.threadList threads)), threadId => threads.any (·.id == threadId)
  | _, _ => true

namespace CliApp

variable {app : CliApp}

def active (app : CliApp) : Option ThreadId := app.viewModel.activeThreadId

/-- The thread that the user makes active by the step. -/
def choice (app : CliApp) : TerminalStep → Option ThreadId
  | .client (.response (.threadStart thread)) | .client (.response (.threadResume thread))
  | .client (.response (.threadFork thread)) => some thread.id
  | .client .openSelected => app.viewModel.selectedThread.map Thread.id
  | _ => none

theorem active_startThreadFromMessage (input : String) :
    (app.startThreadFromMessage input).1.active = app.active := by
  simp only [startThreadFromMessage, setStatus, active, ViewModel.pushPendingThreadStartMessage]

theorem active_startNewThread (argument : String) :
    (app.startNewThread argument).1.active = app.active := by
  unfold startNewThread
  split
  · rfl
  · exact active_startThreadFromMessage argument

theorem active_handleSlashCommand (input : String) :
    (app.handleSlashCommand input).1.active = app.active := by
  simp only [handleSlashCommand]
  split
  · exact active_startNewThread _
  · split
    · exact active_startNewThread _
    · rfl

/-- Whatever is written, the active thread stays. -/
theorem active_submitInput (inputBuffer : String) :
    (app.submitInput inputBuffer).1.active = app.active := by
  simp only [submitInput]
  split
  · rfl
  · split
    · exact active_handleSlashCommand _
    · split
      · exact active_startThreadFromMessage _
      · exact ViewModel.activeThreadId_pushEntryForSelectedThread _ _ _

theorem active_receiveResponse (response : ViewResponse) :
    (app.receiveResponse response).1.active =
      (app.choice (.client (.response response))).or
        (app.active.filter (TerminalStep.client (.response response)).lists) := by
  have hall : app.active.filter (fun _ => true) = app.active := by
    cases app.active <;> rfl
  cases response with
  | threadStart thread =>
      simp [receiveResponse, followUpAfterResponse, active, choice, ViewModel.applyResponse]
  | memoryOpenSession session =>
      exact (ViewModel.activeThreadId_replaceThreadHistory _ session).trans hall.symm
  | error message =>
      exact (ViewModel.activeThreadId_pushEntryForSelectedThread _ _ message).trans hall.symm
  | threadResume thread | threadFork thread | threadList threads => rfl
  | _ => exact hall.symm

theorem active_receiveEvent (event : ServerEvent) :
    (app.receiveEvent event).1.active = app.active.or event.payload.announced := by
  simp only [receiveEvent, active, ViewModel.applyEvent]
  cases event.payload with
  | turnStarted turn =>
      simp only [ServerEventPayload.announced, Option.or_none]
      split
      · exact ViewModel.activeThreadId_pushThreadEntry _ _ _ _
      · rfl
  | _ => simp [ServerEventPayload.announced]

/-- What a step makes of the active thread. -/
theorem active_shell (app : CliApp) (step : TerminalStep) :
    (app.shell step).active =
      (app.choice step).or ((app.active.filter step.lists).or step.announced) := by
  have hall : app.active.filter (fun _ => true) = app.active := by
    cases app.active <;> rfl
  have hquiet : (none : Option ThreadId).or ((app.active.filter fun _ => true).or none) =
      app.active := by
    rw [hall, Option.or_none, Option.none_or]
  cases step with
  | client step =>
      cases step with
      | submit inputBuffer =>
          simp only [shell, CliApp.step]
          exact (active_submitInput inputBuffer).trans hquiet.symm
      | response response =>
          simp only [shell, CliApp.step]
          refine (active_receiveResponse response).trans ?_
          exact congrArg _ (Option.or_none).symm
      | event event =>
          simp only [shell, CliApp.step]
          refine (active_receiveEvent event).trans ?_
          show _ = (none : Option ThreadId).or ((app.active.filter fun _ => true).or _)
          rw [hall, Option.none_or]
          rfl
      | openSelected =>
          simp only [shell, CliApp.step, loadSelectedThreadSurfaces, choice]
          cases app.viewModel.selectedThread with
          | none => exact hquiet.symm
          | some thread => rfl
  | selectPrevious => exact hquiet.symm
  | selectNext => exact hquiet.symm

/-- Requests that begin a turn name the thread. -/
def SendsTo (threadId : Option ThreadId) (requests : List CliRequest) : Prop :=
  ∀ target input, CliRequest.turnStart target input ∈ requests → threadId = some target

theorem sendsTo_startNewThread (threadId : Option ThreadId) (argument : String) :
    SendsTo threadId (app.startNewThread argument).2 := by
  intro target input hmem
  unfold startNewThread at hmem
  split at hmem
  · cases hmem
  · simp [startThreadFromMessage] at hmem

theorem sendsTo_handleSlashCommand (threadId : Option ThreadId) (input : String) :
    SendsTo threadId (app.handleSlashCommand input).2 := by
  simp only [handleSlashCommand]
  split
  · exact sendsTo_startNewThread threadId _
  · split
    · exact sendsTo_startNewThread threadId _
    · intro target text hmem
      cases hmem

/-- What is written goes to the active thread, or begins a new one. -/
theorem sendsTo_submitInput (inputBuffer : String) :
    SendsTo app.active (app.submitInput inputBuffer).2 := by
  intro target input hmem
  simp only [submitInput] at hmem
  split at hmem
  · cases hmem
  · split at hmem
    · exact sendsTo_handleSlashCommand app.active _ target input hmem
    · split at hmem
      · simp [startThreadFromMessage] at hmem
      · rename_i threadId hactive
        simp only [List.mem_singleton, CliRequest.turnStart.injEq] at hmem
        rw [hmem.1]
        exact hactive

/-- The user makes no choice in the step. -/
def NoChoice (app : CliApp) (step : TerminalStep) : Prop := app.choice step = none

end CliApp

def namedThread (id : ThreadId) : Thread :=
  { id := id, title := "", status := .active, createdAt := "t1", updatedAt := "t2",
    activeGoal := none, activeSummary := none, lastInterruption := none, workspaceRef := none,
    workspaceMountId := none, pendingCommitments := [], latestTurnId := none,
    latestCheckpointId := none, parentThreadId := none }

/-- The latest conversations, as many as a list has at most. -/
def latestThreads : List Thread :=
  ["a", "b", "c", "d", "e", "f", "g", "h", "i", "j", "k", "l", "m", "n", "o", "p", "q", "r", "s",
    "t", "u", "v", "w", "x"].map namedThread

def startsOwn : TerminalStep := .client (.response (.threadStart (namedThread "own")))

def listsLatest : TerminalStep := .client (.response (.threadList latestThreads))

/-- Another client starts a thread. -/
def startsOther : TerminalStep :=
  .client (.event
    { threadId := "other", turnId := none, payload := .threadStarted (namedThread "other"),
      createdAt := "t1" })

end Liz
