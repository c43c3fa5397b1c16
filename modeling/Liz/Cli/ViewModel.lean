import Mathlib.Data.List.Sort
import Liz.Base.Text
import Liz.Base.Recent
import Liz.Protocol.Events

/-!
# The view model of the terminal client

What the chat shell shows is projected from the server's responses and events. Every thread has a
transcript, and the transcript on the screen is the one of the active thread. The fields of the
composer, the overlays and the pickers are left out: neither responses nor events of threads and
turns read them.
-/

namespace Liz

inductive TranscriptEntryKind
  | user | assistant | tool | approval | system
  deriving DecidableEq, Repr

structure TranscriptEntry where
  kind : TranscriptEntryKind
  body : String
  deriving DecidableEq, Repr

/-- The responses the view model tells apart, with what it reads of each. -/
inductive ViewResponse
  | threadStart (thread : Thread)
  | threadResume (thread : Thread)
  | threadList (threads : List Thread)
  | threadFork (thread : Thread)
  | memoryReadWakeup (threadId : ThreadId) (wakeup : MemoryWakeup)
  | memoryOpenSession (session : MemorySessionView)
  | memoryCompileNow (compilation : MemoryCompilationSummary)
  | approvalRespond (approval : ApprovalRequest)
  | turnStart
  | turnCancel
  | toolCall (summary : String)
  /-- The answers that fill panels which are not modelled; most of them set the status line. -/
  | other (statusLine : Option String)
  | error (message : String)
  deriving DecidableEq, Repr

structure ViewModel where
  threadStatuses : Table ThreadId ThreadStatus
  threads : List Thread
  selectedThreadIndex : Nat
  activeThreadId : Option ThreadId
  transcriptEntries : List TranscriptEntry
  threadTranscripts : Table ThreadId (List TranscriptEntry)
  pendingApprovals : List ApprovalRequest
  wakeup : Option MemoryWakeup
  diffPreview : Option String
  candidateProcedures : List String
  dreamingSummaries : List String
  statusLine : String
  pendingThreadStartEntries : List TranscriptEntry
  assistantStreaming : Option String
  deriving DecidableEq

def ViewModel.default : ViewModel :=
  { threadStatuses := ∅, threads := [], selectedThreadIndex := 0, activeThreadId := none,
    transcriptEntries := [], threadTranscripts := ∅, pendingApprovals := [], wakeup := none,
    diffPreview := none, candidateProcedures := [], dreamingSummaries := [], statusLine := "",
    pendingThreadStartEntries := [], assistantStreaming := none }

/-- How a decision is printed in a note. -/
def ApprovalDecision.debugText : ApprovalDecision → String
  | .approveOnce => "ApproveOnce"
  | .approveAndPersist => "ApproveAndPersist"
  | .deny => "Deny"

def pushDedupedEntry (entries : List TranscriptEntry) (entry : TranscriptEntry) :
    List TranscriptEntry :=
  if Text.isBlank entry.body then entries
  else if entries.getLast? = some entry then entries
  else if (entries.reverse.take 3).any (· == entry) then entries
  else entries ++ [entry]

/-- What a client prints for a session record; a record without a summary is left out. -/
def entryFromSession (entry : MemorySessionEntry) : Option TranscriptEntry :=
  let body := Text.trim entry.summary
  if body.isEmpty then none
  else
    some <| match entry.event with
      | "turn_started" => ⟨.user, (body.dropPrefix? "Started turn for: ").elim body (·.toString)⟩
      | "turn_completed" => ⟨.assistant, body⟩
      | "tool_completed" => ⟨.tool, body⟩
      | "approval_wait" => ⟨.approval, body⟩
      | "approval_resolved" => ⟨.system, body⟩
      | "turn_cancelled" => ⟨.system, "Interrupted: " ++ body⟩
      | "turn_failed" => ⟨.system, "Turn failed: " ++ body⟩
      | _ => ⟨.system, body⟩

namespace ViewModel

def selectedThread (view : ViewModel) : Option Thread := view.threads[view.selectedThreadIndex]?

/-- Messages and contextual requests go to the active thread. -/
def selectedThreadId (view : ViewModel) : Option ThreadId := view.activeThreadId

/-- Moves up in the list of conversations, from the first one to the last. -/
def selectPreviousThread (view : ViewModel) : ViewModel :=
  { view with
    selectedThreadIndex :=
      if view.threads.isEmpty then 0
      else if view.selectedThreadIndex = 0 then view.threads.length - 1
      else view.selectedThreadIndex - 1 }

def selectNextThread (view : ViewModel) : ViewModel :=
  { view with
    selectedThreadIndex :=
      if view.threads.isEmpty then 0 else (view.selectedThreadIndex + 1) % view.threads.length }

/-- The transcript kept for a thread. -/
def transcriptOf (view : ViewModel) (threadId : ThreadId) : List TranscriptEntry :=
  (view.threadTranscripts.lookup threadId).getD []

def setTranscript (view : ViewModel) (threadId : ThreadId) (entries : List TranscriptEntry) :
    ViewModel :=
  { view with threadTranscripts := view.threadTranscripts.insert threadId entries }

def syncVisibleTranscript (view : ViewModel) : ViewModel :=
  { view with transcriptEntries := (view.selectedThreadId.map view.transcriptOf).getD [] }

def pushThreadEntry (view : ViewModel) (threadId : ThreadId) (kind : TranscriptEntryKind)
    (body : String) : ViewModel :=
  let pushed :=
    view.setTranscript threadId (pushDedupedEntry (view.transcriptOf threadId) ⟨kind, body⟩)
  if pushed.selectedThreadId = some threadId then pushed.syncVisibleTranscript else pushed

def pushEntryForSelectedThread (view : ViewModel) (kind : TranscriptEntryKind) (body : String) :
    ViewModel :=
  match view.selectedThreadId with
  | some threadId => view.pushThreadEntry threadId kind body
  | none =>
      { view with transcriptEntries := pushDedupedEntry view.transcriptEntries ⟨kind, body⟩ }

def pushUserMessage (view : ViewModel) (message : String) : ViewModel :=
  view.pushEntryForSelectedThread .user message

def pushSystemMessage (view : ViewModel) (message : String) : ViewModel :=
  view.pushEntryForSelectedThread .system message

/-- The first message of a thread whose start has been requested. -/
def pushPendingThreadStartMessage (view : ViewModel) (message : String) : ViewModel :=
  let entries := pushDedupedEntry view.pendingThreadStartEntries ⟨.user, message⟩
  { view with pendingThreadStartEntries := entries, transcriptEntries := entries }

def upsertThread (view : ViewModel) (thread : Thread) : ViewModel :=
  let selectedPickerThreadId := view.selectedThread.map Thread.id
  let threads :=
    if view.threads.any (·.id == thread.id) then
      -- the first record with this id is replaced
      view.threads.replaceF fun existing => if existing.id = thread.id then some thread else none
    else view.threads ++ [thread]
  let threads := threads.insertionSort fun left right => right.updatedAt ≤ left.updatedAt
  let selected := selectedPickerThreadId.getD thread.id
  syncVisibleTranscript
    { view with
      activeThreadId := view.activeThreadId.or (some thread.id)
      threads := threads
      threadStatuses := view.threadStatuses.insert thread.id thread.status
      selectedThreadIndex := (threads.findIdx? (·.id == selected)).getD 0 }

def attachPendingEntriesToThread (view : ViewModel) (threadId : ThreadId) : ViewModel :=
  if view.pendingThreadStartEntries.isEmpty then view.syncVisibleTranscript
  else
    let attached := view.setTranscript threadId
      (view.pendingThreadStartEntries.foldl pushDedupedEntry (view.transcriptOf threadId))
    { attached with pendingThreadStartEntries := [] }.syncVisibleTranscript

def replaceThreadHistory (view : ViewModel) (session : MemorySessionView) : ViewModel :=
  let history := session.recentEntries.filterMap entryFromSession
  let history := (view.transcriptOf session.threadId).foldl pushDedupedEntry history
  let replaced := view.setTranscript session.threadId history
  if replaced.selectedThreadId = some session.threadId then replaced.syncVisibleTranscript
  else replaced

/-- One response applied to the projection. -/
def applyResponse (view : ViewModel) : ViewResponse → ViewModel
  | .threadStart thread =>
      let started := ({ view with activeThreadId := some thread.id }.upsertThread thread)
        |>.attachPendingEntriesToThread thread.id
      { started with statusLine := s!"Started {thread.title}" }
  | .threadResume thread =>
      let resumed := { view with activeThreadId := some thread.id }.upsertThread thread
      { resumed.syncVisibleTranscript with statusLine := s!"Resumed {thread.title}" }
  | .threadList threads =>
      let selectedPickerThreadId := view.selectedThread.map Thread.id
      let listed := syncVisibleTranscript
        { view with
          activeThreadId :=
            view.activeThreadId.filter fun threadId => threads.any (·.id == threadId)
          threads := threads
          threadStatuses := threads.foldl
            (fun statuses thread => statuses.insert thread.id thread.status) ∅
          selectedThreadIndex := (selectedPickerThreadId.bind fun selected =>
            threads.findIdx? (·.id == selected)).getD 0 }
      { listed with
        statusLine := match threads.length with
          | 0 => "No conversations yet"
          | 1 => "Loaded 1 conversation"
          | count => s!"Loaded {count} conversations" }
  | .threadFork thread =>
      let forked := { view with activeThreadId := some thread.id }.upsertThread thread
      { forked.syncVisibleTranscript with statusLine := s!"Forked {thread.title}" }
  | .memoryReadWakeup threadId wakeup =>
      { view with wakeup := some wakeup, statusLine := s!"Ready to continue {threadId}" }
  | .memoryOpenSession session =>
      { view.replaceThreadHistory session with statusLine := s!"Opened {session.title}" }
  | .memoryCompileNow compilation =>
      { view with
        candidateProcedures := compilation.candidateProcedures
        statusLine := compilation.deltaSummary }
  | .approvalRespond approval =>
      { view with
        pendingApprovals := view.pendingApprovals.filter (·.id != approval.id)
        statusLine := s!"Resolved approval {approval.id}" }
  | .turnStart => { view with statusLine := "Message sent" }
  | .turnCancel => { view with statusLine := "Turn cancelled" }
  | .toolCall summary => { view with statusLine := summary }
  | .other statusLine => { view with statusLine := statusLine.getD view.statusLine }
  | .error message =>
      { view.pushEntryForSelectedThread .system message with statusLine := message }

/-- One server event applied to the projection. -/
def applyEvent (view : ViewModel) (event : ServerEvent) : ViewModel :=
  match event.payload with
  | .threadStarted thread | .threadResumed thread | .threadUpdated thread
  | .threadInterrupted thread | .threadForked thread => view.upsertThread thread
  | .turnStarted turn =>
      let shown := match turn.goal.filter fun goal => !Text.isBlank goal with
        | some goal => view.pushThreadEntry event.threadId .user goal
        | none => view
      { shown with statusLine := turn.goal.elim "liz is working" fun goal => s!"Working on {goal}" }
  | .turnCompleted turn => { view with statusLine := turn.summary.getD "Turn completed" }
  | .turnFailed _ message =>
      { view.pushThreadEntry event.threadId .system s!"Turn failed: {message}" with
        statusLine := message }
  | .turnCancelled _ =>
      { view.pushThreadEntry event.threadId .system "Turn interrupted" with
        statusLine := "Turn interrupted" }
  | .assistantChunk chunk _ _ =>
      { view with
        assistantStreaming := some (view.assistantStreaming.getD "" ++ chunk)
        statusLine := "liz is replying" }
  | .assistantCompleted message =>
      let completed := { view with assistantStreaming := none }
      { completed.pushThreadEntry event.threadId .assistant message with
        statusLine := "Reply finished" }
  | .toolCallStarted _ toolName summary => { view with statusLine := s!"{toolName}: {summary}" }
  | .toolCallUpdated _ toolName deltaSummary preview =>
      { view with
        statusLine := s!"{toolName}: {deltaSummary}" ++
          (preview.elim "" fun value => s!" ({value})") }
  | .toolCallCommitted _ toolName argumentsSummary _ _ _ =>
      { view with statusLine := s!"{toolName}: {argumentsSummary}" }
  | .toolCompleted toolName summary _ _ _ =>
      { view.pushThreadEntry event.threadId .tool s!"{toolName}: {summary}" with
        statusLine := s!"{toolName} finished" }
  | .toolFailed toolName summary _ _ =>
      { view.pushThreadEntry event.threadId .tool s!"{toolName}: {summary}" with
        statusLine := s!"{toolName} failed" }
  | .approvalRequested approval =>
      let pending := { view with pendingApprovals := view.pendingApprovals ++ [approval] }
      { pending.pushThreadEntry event.threadId .approval
          s!"{approval.id} needs approval: {approval.reason}" with
        statusLine := "Approval needed" }
  | .approvalResolved approval decision =>
      let resolved :=
        { view with pendingApprovals := view.pendingApprovals.filter (·.id != approval.id) }
      { resolved.pushThreadEntry event.threadId .system
          s!"Approval {approval.id} resolved as {decision.debugText}" with
        statusLine := s!"Approval {approval.id} resolved" }
  | .diffAvailable artifact =>
      { view with diffPreview := some artifact.summary, statusLine := "Diff preview ready" }
  | .memoryWakeupLoaded wakeup =>
      { view with wakeup := some wakeup, statusLine := "Wake-up refreshed" }
  | .memoryCompilationApplied compilation =>
      let compiled := { view with candidateProcedures := compilation.candidateProcedures }
      { compiled.pushThreadEntry event.threadId .system
          s!"Memory updated: {compilation.deltaSummary}" with
        statusLine := compilation.deltaSummary }
  | .memoryDreamingCompleted summary =>
      { view with
        dreamingSummaries := view.dreamingSummaries ++ [summary]
        statusLine := "Reflection updated" }
  | .executorOutputChunk .. | .artifactCreated _ | .checkpointCreated _
  | .memoryInvalidationApplied _ => view

end ViewModel

end Liz
