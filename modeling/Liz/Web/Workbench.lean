import Mathlib.Data.List.Sort
import Liz.Base.Text
import Liz.Protocol.Resources
import Liz.Protocol.Events

/-!
# The state of the web client

The workbench keeps one state and changes it by a reducer: actions of the page and events of the
server are folded into transcripts, tool calls, approvals and provider profiles. The panels that only
replace what they show are left out.
-/

/-- How strings are compared when a list is sorted for display. -/
class Collation where
  /-- Whether the left string does not come after the right one. -/
  before : String → String → Bool
  total : ∀ left right, before left right = true ∨ before right left = true
  trans : ∀ left middle right, before left middle = true → before middle right = true →
    before left right = true

namespace Liz

/-- The names under which clients receive a risk level and the status of an approval. -/
def RiskLevel.wireName : RiskLevel → String
  | .low => "low"
  | .medium => "medium"
  | .high => "high"
  | .critical => "critical"

def ApprovalStatus.wireName : ApprovalStatus → String
  | .pending => "pending"
  | .approved => "approved"
  | .denied => "denied"
  | .expired => "expired"

end Liz

namespace Liz.Web

inductive UserStatus
  | sent | pending | failed
  deriving DecidableEq, Repr

inductive AssistantStatus
  | streaming | completed | cancelled | failed
  deriving DecidableEq, Repr

inductive Tone
  | info | error
  deriving DecidableEq, Repr

inductive EntryKind
  | user (status : UserStatus)
  | assistant (status : AssistantStatus)
  | system (tone : Tone)
  deriving DecidableEq, Repr

structure TranscriptEntry where
  id : String
  kind : EntryKind
  threadId : ThreadId
  turnId : Option TurnId
  content : String
  createdAt : Timestamp
  deriving DecidableEq, Repr

namespace TranscriptEntry

def isUser (entry : TranscriptEntry) : Bool :=
  match entry.kind with
  | .user _ => true
  | _ => false

def isAssistant (entry : TranscriptEntry) : Bool :=
  match entry.kind with
  | .assistant _ => true
  | _ => false

end TranscriptEntry

structure ThreadRuntime where
  activeTurnId : Option TurnId
  lastError : Option String
  deriving DecidableEq, Repr

structure ToolOutputChunk where
  executorTaskId : ExecutorTaskId
  stream : ExecutorStream
  chunk : String
  deriving DecidableEq, Repr

inductive ToolCallStatus
  | forming | committed | completed | failed
  deriving DecidableEq, Repr

structure ToolCallProjection where
  callId : String
  threadId : ThreadId
  turnId : Option TurnId
  toolName : String
  summary : String
  status : ToolCallStatus
  argumentsSummary : Option String
  preview : Option String
  riskHint : Option RiskLevel
  artifactIds : List ArtifactId
  output : List ToolOutputChunk
  createdAt : Timestamp
  updatedAt : Timestamp
  deriving DecidableEq, Repr

/-- A credential as it arrives in JSON, by the name of its kind. -/
inductive Credential
  | apiKey (apiKey : String)
  | oauth (accessToken : String) (refreshToken : Option String) (expiresAtMs : Option Nat)
      (accountId email : Option String)
  | token (token : String) (expiresAtMs : Option Nat) (metadata : List (String × String))
  /-- A credential whose kind is none of these names. -/
  | unknown (kind : String) (fields : List (String × Option String))
  deriving DecidableEq, Repr

/-- A profile in the state; its credential may be undefined. -/
structure ProviderProfile where
  profileId : String
  providerId : String
  displayName : Option String
  credential : Option Credential
  deriving DecidableEq, Repr

structure WorkbenchState where
  threads : List Thread
  activeThreadId : Option ThreadId
  transcriptByThread : Table ThreadId (List TranscriptEntry)
  runtimeByThread : Table ThreadId ThreadRuntime
  toolCallsByThread : Table ThreadId (List ToolCallProjection)
  approvalsByThread : Table ThreadId (List ApprovalRequest)
  providerProfiles : List ProviderProfile
  selectedToolCallId : Option String
  deriving DecidableEq

def initialWorkbenchState : WorkbenchState :=
  { threads := [], activeThreadId := none, transcriptByThread := ∅, runtimeByThread := ∅,
    toolCallsByThread := ∅, approvalsByThread := ∅, providerProfiles := [],
    selectedToolCallId := none }

namespace WorkbenchState

def transcriptOf (state : WorkbenchState) (threadId : ThreadId) : List TranscriptEntry :=
  (state.transcriptByThread.lookup threadId).getD []

def toolCallsOf (state : WorkbenchState) (threadId : ThreadId) : List ToolCallProjection :=
  (state.toolCallsByThread.lookup threadId).getD []

def setTranscript (state : WorkbenchState) (threadId : ThreadId) (entries : List TranscriptEntry) :
    WorkbenchState :=
  { state with transcriptByThread := state.transcriptByThread.insert threadId entries }

def setToolCalls (state : WorkbenchState) (threadId : ThreadId) (calls : List ToolCallProjection) :
    WorkbenchState :=
  { state with toolCallsByThread := state.toolCallsByThread.insert threadId calls }

def setRuntime (state : WorkbenchState) (threadId : ThreadId) (runtime : ThreadRuntime) :
    WorkbenchState :=
  { state with runtimeByThread := state.runtimeByThread.insert threadId runtime }

end WorkbenchState

/-! ### Transcripts -/

def appendEntry (state : WorkbenchState) (threadId : ThreadId) (entry : TranscriptEntry) :
    WorkbenchState :=
  state.setTranscript threadId (state.transcriptOf threadId ++ [entry])

/-- The answer of a turn has one entry, which starts empty. -/
def ensureAssistantEntry (entries : List TranscriptEntry) (threadId : ThreadId)
    (turnId : Option TurnId) (createdAt : Timestamp) : List TranscriptEntry :=
  if entries.any fun entry => entry.isAssistant && entry.turnId == turnId then entries
  else
    entries ++
      [{ id := s!"assistant:{turnId.getD createdAt}", kind := .assistant .streaming,
         threadId := threadId, turnId := turnId, content := "", createdAt := createdAt }]

/-- The entries that a function changes are the answers of one turn. -/
def mapAnswers (entries : List TranscriptEntry) (turnId : Option TurnId)
    (update : TranscriptEntry → TranscriptEntry) : List TranscriptEntry :=
  entries.map fun entry =>
    if entry.isAssistant && entry.turnId == turnId then update entry else entry

def userMessageAdded (state : WorkbenchState) (threadId : ThreadId) (content : String)
    (createdAt : Timestamp) : WorkbenchState :=
  appendEntry state threadId
    { id := s!"user:{createdAt}:{(state.transcriptOf threadId).length}", kind := .user .pending,
      threadId := threadId, turnId := none, content := content, createdAt := createdAt }

def turnStarted (state : WorkbenchState) (turn : Turn) : WorkbenchState :=
  let nextEntries := (state.transcriptOf turn.threadId).map fun entry =>
    if entry.kind = .user .pending then
      { entry with turnId := some turn.id, kind := .user .sent }
    else entry
  (state.setTranscript turn.threadId
      (ensureAssistantEntry nextEntries turn.threadId (some turn.id) turn.startedAt)).setRuntime
    turn.threadId { activeTurnId := some turn.id, lastError := none }

def appendAssistantChunk (state : WorkbenchState) (threadId : ThreadId) (turnId : Option TurnId)
    (createdAt : Timestamp) (chunk : String) (isFinal : Bool) : WorkbenchState :=
  let entries := ensureAssistantEntry (state.transcriptOf threadId) threadId turnId createdAt
  state.setTranscript threadId <| mapAnswers entries turnId fun entry =>
    { entry with
      content := entry.content ++ chunk
      kind := if isFinal then .assistant .completed else entry.kind }

def completeAssistantMessage (state : WorkbenchState) (threadId : ThreadId)
    (turnId : Option TurnId) (createdAt : Timestamp) (message : String) : WorkbenchState :=
  let entries := ensureAssistantEntry (state.transcriptOf threadId) threadId turnId createdAt
  state.setTranscript threadId <| mapAnswers entries turnId fun entry =>
    { entry with
      content := if message.isEmpty then entry.content else message
      kind := .assistant .completed }

def finishTurn (state : WorkbenchState) (turn : Turn) (status : AssistantStatus) :
    WorkbenchState :=
  (state.setTranscript turn.threadId <|
      mapAnswers (state.transcriptOf turn.threadId) (some turn.id) fun entry =>
        { entry with kind := .assistant status }).setRuntime
    turn.threadId { activeTurnId := none, lastError := none }

/-- `now` is the time on the page, for a turn without an end. -/
def failTurn (state : WorkbenchState) (turn : Turn) (message : String) (now : Timestamp) :
    WorkbenchState :=
  appendEntry (finishTurn state turn .failed) turn.threadId
    { id := s!"turn-failed:{turn.id}", kind := .system .error, threadId := turn.threadId,
      turnId := some turn.id, content := message, createdAt := turn.endedAt.getD now }

/-! ### Sessions -/

/-- The characters that the page counts as white space. -/
def isWhitespace (c : Char) : Bool :=
  (9 ≤ c.toNat && c.toNat ≤ 13) || (8192 ≤ c.toNat && c.toNat ≤ 8202) ||
    [32, 160, 5760, 8232, 8233, 8239, 8287, 12288, 65279].contains c.toNat

/-- Cuts a prefix off, whatever its ASCII case, and the white space after it. -/
def dropLabel (label text : List Char) : List Char :=
  if (text.take label.length).map Char.toLower = label.map Char.toLower then
    (text.drop label.length).dropWhile isWhitespace
  else text

def normalizeSessionSummary (summary : String) : String :=
  let text := dropLabel "Currently working on:".toList
    (dropLabel "Started turn for:".toList summary.toList)
  String.ofList (((text.dropWhile isWhitespace).reverse.dropWhile isWhitespace).reverse)

example : normalizeSessionSummary "STARTED turn for:  fix it " = "fix it" := by decide +kernel

/-- The kind of entry that shows a session record. -/
def sessionEntryKind (event : String) : EntryKind :=
  match event with
  | "turn_started" => .user .sent
  | "turn_completed" => .assistant .completed
  | "turn_cancelled" => .assistant .cancelled
  | "turn_failed" => .assistant .failed
  | _ => .system .info

def projectSessionEntry (entry : MemorySessionEntry) (threadId : ThreadId) : TranscriptEntry :=
  { id := s!"session:{entry.event}:{entry.turnId.getD entry.recordedAt}:{entry.recordedAt}"
    kind := sessionEntryKind entry.event
    threadId := threadId
    turnId := entry.turnId
    content := normalizeSessionSummary entry.summary
    createdAt := entry.recordedAt }

def mergeSessionTranscript (existing : List TranscriptEntry) (entries : List MemorySessionEntry)
    (threadId : ThreadId) : List TranscriptEntry :=
  let existingIds := existing.map TranscriptEntry.id
  let projected := entries.map fun entry => projectSessionEntry entry threadId
  existing ++ projected.filter fun entry => !existingIds.contains entry.id

def sessionLoaded (state : WorkbenchState) (session : MemorySessionView) : WorkbenchState :=
  state.setTranscript session.threadId
    (mergeSessionTranscript (state.transcriptOf session.threadId) session.recentEntries
      session.threadId)

/-! ### Threads, approvals and provider profiles -/

section Sorted

variable [Collation]

/-- The latest thread stands first. -/
def sortThreads (threads : List Thread) : List Thread :=
  threads.insertionSort fun left right =>
    Collation.before right.updatedAt left.updatedAt = true

def upsertThread (threads : List Thread) (thread : Thread) : List Thread :=
  sortThreads (thread :: threads.filter (·.id != thread.id))

def threadsLoaded (state : WorkbenchState) (threads : List Thread) : WorkbenchState :=
  { state with
    activeThreadId :=
      (state.activeThreadId.filter fun id => !id.isEmpty && threads.any (·.id == id)).or
        (threads.head?.map Thread.id)
    threads := sortThreads threads }

def threadUpserted (state : WorkbenchState) (thread : Thread) (activate : Bool) : WorkbenchState :=
  { state with
    activeThreadId := if activate then some thread.id else state.activeThreadId
    threads := upsertThread state.threads thread }

end Sorted

def upsertApproval (state : WorkbenchState) (threadId : ThreadId) (approval : ApprovalRequest) :
    WorkbenchState :=
  let approvals := (state.approvalsByThread.lookup threadId).getD []
  { state with
    approvalsByThread := state.approvalsByThread.insert threadId
      (approval :: approvals.filter (·.id != approval.id)) }

/-- A credential without its secrets. A kind without a case leaves the result undefined, and reading
the kind of an undefined credential throws, which is the outer `none`. -/
def sanitizeCredential : Option Credential → Option (Option Credential)
  | none => none
  | some (.apiKey _) => some (some (.apiKey "configured"))
  | some (.oauth _ refreshToken expiresAtMs accountId email) =>
      some (some (.oauth "configured"
        (if refreshToken.getD "" = "" then none else some "configured") expiresAtMs accountId email))
  | some (.token _ expiresAtMs metadata) => some (some (.token "configured" expiresAtMs metadata))
  | some (.unknown ..) => some none

def sanitizeProviderProfile (profile : ProviderProfile) : Option ProviderProfile := do
  let credential ← sanitizeCredential profile.credential
  some { profile with credential := credential }

def sanitizeProviderProfiles (profiles : List ProviderProfile) : Option (List ProviderProfile) :=
  profiles.mapM sanitizeProviderProfile

/-- The entries in the order of their keys. -/
def sortedEntries (metadata : Table String String) : List (String × String) :=
  (metadata.entries.map fun entry => (entry.1, entry.2)).insertionSort
    fun left right => left.1 ≤ right.1

/-- A stored credential as it arrives on the page. The server writes the kind of an OAuth credential
as `o_auth`. -/
def Credential.ofStored : ProviderCredential → Credential
  | .apiKey key => .apiKey key
  | .oAuth accessToken refreshToken expiresAtMs accountId email =>
      .unknown "o_auth" [("access_token", some accessToken), ("refresh_token", refreshToken),
        ("expires_at_ms", expiresAtMs.map toString), ("account_id", accountId), ("email", email)]
  | .token value expiresAtMs metadata => .token value expiresAtMs (sortedEntries metadata)

def ProviderProfile.ofStored (profile : ProviderAuthProfile) : ProviderProfile :=
  { profileId := profile.profileId
    providerId := profile.providerId
    displayName := profile.displayName
    credential := some (Credential.ofStored profile.credential) }

/-! ### Tool calls -/

namespace ToolCallProjection

/-- A call that has neither completed nor failed. -/
def pending (call : ToolCallProjection) : Bool :=
  call.status = .forming || call.status = .committed

end ToolCallProjection

/-- Calls are listed by the time at which they started. -/
def listedBefore [Collation] (left right : ToolCallProjection) : Prop :=
  Collation.before left.createdAt right.createdAt = true

instance [Collation] : DecidableRel listedBefore := fun _ _ =>
  inferInstanceAs (Decidable (_ = true))

/-- A call that is already listed is replaced: the new record has every field. -/
def upsertToolCall [Collation] (state : WorkbenchState) (threadId : ThreadId)
    (toolCall : ToolCallProjection) : WorkbenchState :=
  let calls := state.toolCallsOf threadId
  { state.setToolCalls threadId
      ((calls.filter (·.callId != toolCall.callId) ++ [toolCall]).insertionSort listedBefore) with
    selectedToolCallId := state.selectedToolCallId.or (some toolCall.callId) }

/-- An empty identifier counts as none. -/
def updateToolCall (state : WorkbenchState) (threadId : ThreadId) (callId : Option String)
    (update : ToolCallProjection → ToolCallProjection) : WorkbenchState :=
  match callId with
  | none => state
  | some callId =>
      if callId.isEmpty then state
      else
        state.setToolCalls threadId ((state.toolCallsOf threadId).map fun call =>
          if call.callId = callId then update call else call)

/-- The last listed call of the tool that the turn still waits for. -/
def resolveToolCallId (state : WorkbenchState) (threadId : ThreadId) (turnId : Option TurnId)
    (toolName : String) : Option String :=
  ((state.toolCallsOf threadId).reverse.find? fun call =>
    call.toolName == toolName && call.turnId == turnId && call.pending).map
      ToolCallProjection.callId

/-- The last listed call that the turn still waits for. -/
def resolveLatestToolCallId (state : WorkbenchState) (threadId : ThreadId)
    (turnId : Option TurnId) : Option String :=
  ((state.toolCallsOf threadId).reverse.find? fun call =>
    call.turnId == turnId && call.pending).map ToolCallProjection.callId

/-! ### The reducer -/

/-- The time on the page. -/
structure PageTime where
  millis : Nat
  iso : Timestamp
  deriving DecidableEq, Repr

section Reducer

variable [Collation]

def projectServerEvent (now : PageTime) (state : WorkbenchState) (event : ServerEvent) :
    WorkbenchState :=
  match event.payload with
  | .threadStarted thread | .threadResumed thread | .threadForked thread | .threadUpdated thread
  | .threadInterrupted thread => threadUpserted state thread false
  | .turnStarted turn => turnStarted state turn
  | .assistantChunk chunk _ isFinal =>
      appendAssistantChunk state event.threadId event.turnId event.createdAt chunk isFinal
  | .assistantCompleted message =>
      completeAssistantMessage state event.threadId event.turnId event.createdAt message
  | .turnCompleted turn => finishTurn state turn .completed
  | .turnCancelled turn => finishTurn state turn .cancelled
  | .turnFailed turn message => failTurn state turn message now.iso
  | .toolCallStarted callId toolName summary =>
      upsertToolCall state event.threadId
        { callId := callId, threadId := event.threadId, turnId := event.turnId, toolName := toolName,
          summary := summary, status := .forming, argumentsSummary := none, preview := none,
          riskHint := none, artifactIds := [], output := [], createdAt := event.createdAt,
          updatedAt := event.createdAt }
  | .toolCallUpdated callId toolName deltaSummary preview =>
      updateToolCall state event.threadId (some callId) fun call =>
        { call with
          toolName := toolName, summary := deltaSummary, preview := preview,
          updatedAt := event.createdAt }
  | .toolCallCommitted callId toolName argumentsSummary riskHint _ _ =>
      updateToolCall state event.threadId (some callId) fun call =>
        { call with
          toolName := toolName, status := .committed, argumentsSummary := some argumentsSummary,
          riskHint := riskHint, updatedAt := event.createdAt }
  | .toolCompleted toolName summary artifactIds _ _ =>
      updateToolCall state event.threadId
        (resolveToolCallId state event.threadId event.turnId toolName) fun call =>
          { call with
            status := .completed, summary := summary, artifactIds := artifactIds,
            updatedAt := event.createdAt }
  | .toolFailed toolName summary _ _ =>
      updateToolCall state event.threadId
        (resolveToolCallId state event.threadId event.turnId toolName) fun call =>
          { call with status := .failed, summary := summary, updatedAt := event.createdAt }
  | .executorOutputChunk executorTaskId stream chunk _ _ =>
      updateToolCall state event.threadId
        (resolveLatestToolCallId state event.threadId event.turnId) fun call =>
          { call with
            output := call.output ++ [⟨executorTaskId, stream, chunk⟩],
            updatedAt := event.createdAt }
  | .approvalRequested approval =>
      appendEntry (upsertApproval state approval.threadId approval) approval.threadId
        { id := s!"approval:{approval.id}:requested", kind := .system .info,
          threadId := approval.threadId, turnId := some approval.turnId,
          content := s!"Approval required: {approval.actionType} " ++
            s!"({approval.riskLevel.wireName}). {approval.reason}",
          createdAt := event.createdAt }
  | .approvalResolved approval _ =>
      appendEntry (upsertApproval state approval.threadId approval) approval.threadId
        { id := s!"approval:{approval.id}:resolved", kind := .system .info,
          threadId := approval.threadId, turnId := some approval.turnId,
          content := s!"Approval {approval.status.wireName}: {approval.actionType}.",
          createdAt := event.createdAt }
  | .artifactCreated _ | .diffAvailable _ | .checkpointCreated _ | .memoryWakeupLoaded _
  | .memoryCompilationApplied _ | .memoryInvalidationApplied _ | .memoryDreamingCompleted _ =>
      state

inductive WorkbenchAction
  | threadsLoaded (threads : List Thread)
  | threadUpsert (thread : Thread) (activate : Bool)
  | activeThreadSet (threadId : Option ThreadId)
  | userMessageAdded (threadId : ThreadId) (content : String) (createdAt : Timestamp)
  | turnStarted (turn : Turn)
  | serverEvent (event : ServerEvent)
  | sessionLoaded (session : MemorySessionView)
  | threadError (threadId : ThreadId) (message : String)
  | toolSelected (callId : Option String)
  | approvalUpsert (approval : ApprovalRequest)
  | providerProfilesSet (profiles : List ProviderProfile)
  | providerProfileUpsert (profile : ProviderProfile)
  | providerProfileDeleted (profileId : String)

/-- The next state, or nothing when the reducer throws. -/
def workbenchReducer (now : PageTime) (state : WorkbenchState) :
    WorkbenchAction → Option WorkbenchState
  | .threadsLoaded threads => some (threadsLoaded state threads)
  | .threadUpsert thread activate => some (threadUpserted state thread activate)
  | .activeThreadSet threadId => some { state with activeThreadId := threadId }
  | .userMessageAdded threadId content createdAt =>
      some (userMessageAdded state threadId content createdAt)
  | .turnStarted turn => some (turnStarted state turn)
  | .serverEvent event => some (projectServerEvent now state event)
  | .sessionLoaded session => some (sessionLoaded state session)
  | .threadError threadId message =>
      let runtime := state.runtimeByThread.lookup threadId
      some (appendEntry
        (state.setRuntime threadId
          { activeTurnId := runtime.bind ThreadRuntime.activeTurnId, lastError := some message })
        threadId
        { id := s!"error:{now.millis}", kind := .system .error, threadId := threadId, turnId := none,
          content := message, createdAt := now.iso })
  | .toolSelected callId => some { state with selectedToolCallId := callId }
  | .approvalUpsert approval => some (upsertApproval state approval.threadId approval)
  | .providerProfilesSet profiles => do
      let sanitized ← sanitizeProviderProfiles profiles
      some { state with providerProfiles := sanitized }
  | .providerProfileUpsert profile => do
      let sanitized ← sanitizeProviderProfiles
        (profile :: state.providerProfiles.filter (·.profileId != profile.profileId))
      some { state with providerProfiles := sanitized }
  | .providerProfileDeleted profileId =>
      some { state with
        providerProfiles := state.providerProfiles.filter (·.profileId != profileId) }

end Reducer

/-- Text in the order of its characters. -/
@[reducible] def codePointOrder : Collation where
  before left right := decide (left ≤ right)
  total left right := by simpa using String.le_total left right
  trans left middle right hleft hright := by
    simp only [decide_eq_true_eq] at hleft hright ⊢
    exact String.le_trans hleft hright

end Liz.Web
