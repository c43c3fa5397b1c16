import Liz.Protocol.Resources

/-!
# Memory, relationships and interaction contexts

What the memory file holds and what a turn request says about who is talking: the facts and topics
of the global snapshot, the owner's relationship entries with their information boundaries, and the
interaction context with its actor, audience, authority and disclosure policy.
-/

namespace Liz

inductive MemoryFactKind
  | identity | activeState | commitment | decision | topic | procedureCandidate | keyword
  deriving DecidableEq, Repr

structure MemoryCitationRef where
  threadId : ThreadId
  turnId : Option TurnId
  artifactId : Option ArtifactId
  note : String
  deriving DecidableEq, Ord, Repr

structure StoredMemoryFact where
  id : MemoryFactId
  kind : MemoryFactKind
  subject : String
  value : String
  keywords : List String
  relatedThreadIds : List ThreadId
  citations : List MemoryCitationRef
  updatedAt : Timestamp
  invalidatedAt : Option Timestamp
  invalidatedBy : Option MemoryFactId
  deriving DecidableEq, Repr

/-- A fact is live until a compilation or a correction invalidates it. -/
def StoredMemoryFact.live (fact : StoredMemoryFact) : Bool := fact.invalidatedAt.isNone

inductive MemoryTopicStatus
  | active | resolved | stale
  deriving DecidableEq, Repr

structure StoredTopicRecord where
  name : String
  aliases : List String
  summary : String
  status : MemoryTopicStatus
  lastActiveAt : Timestamp
  relatedThreadIds : List ThreadId
  relatedArtifactIds : List ArtifactId
  citationFactIds : List MemoryFactId
  recentKeywords : List String
  citations : List MemoryCitationRef
  deriving DecidableEq, Repr

structure ParticipantRef where
  externalParticipantId : String
  displayName : Option String
  deriving DecidableEq, Repr

inductive TrustLevel
  | owner | trusted | acquaintance | stranger
  deriving DecidableEq, Repr

structure InfoBoundary where
  sharedTopics : List String
  forbiddenTopics : List String
  shareActiveState : Bool
  shareCommitments : Bool
  deriving DecidableEq, Repr

def InfoBoundary.strangerDefault : InfoBoundary :=
  { sharedTopics := [], forbiddenTopics := [], shareActiveState := false, shareCommitments := false }

def InfoBoundary.ownerDefault : InfoBoundary :=
  { sharedTopics := [], forbiddenTopics := [], shareActiveState := true, shareCommitments := true }

structure RelationshipEntry where
  personId : String
  displayName : String
  trustLevel : TrustLevel
  infoBoundary : InfoBoundary
  interactionStance : String
  notes : Option String
  deriving DecidableEq, Repr

structure GlobalMemorySnapshot where
  identitySummary : Option String
  activeStateSummary : Option String
  activeThreadIds : List ThreadId
  recentTopics : List String
  recentKeywords : List String
  facts : List StoredMemoryFact
  topicIndex : List StoredTopicRecord
  relationships : List RelationshipEntry
  defaultStrangerBoundary : InfoBoundary
  deriving DecidableEq, Repr

/-- The snapshot used on first boot. -/
def GlobalMemorySnapshot.empty : GlobalMemorySnapshot :=
  { identitySummary := none, activeStateSummary := none, activeThreadIds := [], recentTopics := [],
    recentKeywords := [], facts := [], topicIndex := [], relationships := [],
    defaultStrangerBoundary := .strangerDefault }

structure MemoryWakeup where
  identitySummary : Option String
  activeState : Option String
  relevantFacts : List String
  openCommitments : List String
  recentTopics : List String
  recentKeywords : List String
  citationFactIds : List MemoryFactId
  citations : List MemoryCitationRef
  deriving DecidableEq, Repr

structure MemoryCompilationSummary where
  deltaSummary : String
  updatedFactIds : List MemoryFactId
  invalidatedFactIds : List MemoryFactId
  recentTopics : List String
  recentKeywords : List String
  candidateProcedures : List String
  deriving DecidableEq, Repr

/-! ### Sessions -/

/-- A turn-log record as a session shows it. -/
structure MemorySessionEntry where
  recordedAt : Timestamp
  event : String
  summary : String
  turnId : Option TurnId
  artifactIds : List ArtifactId
  deriving DecidableEq, Repr

structure MemorySessionView where
  threadId : ThreadId
  title : String
  status : ThreadStatus
  activeSummary : Option String
  pendingCommitments : List String
  recentEntries : List MemorySessionEntry
  artifacts : List ArtifactRef
  deriving DecidableEq, Repr

/-! ### Interaction contexts -/

inductive ChannelKind
  | cli | web | telegram | discord | email | unknown
  deriving DecidableEq, Repr

structure ChannelRef where
  kind : ChannelKind
  externalConversationId : String
  deriving DecidableEq, Repr

structure IngressRef where
  kind : String
  sourceId : String
  conversationId : Option String
  deriving DecidableEq, Repr

inductive ActorKind
  | owner | humanContact | stranger | externalAgent | localNode | remoteNode | systemService
  | webhookSource | automation
  deriving DecidableEq, Repr

structure ActorRef where
  actorId : String
  kind : ActorKind
  displayName : Option String
  proof : Option String
  deriving DecidableEq, Repr

inductive AudienceVisibility
  | priv | direct | group | publicVisible | machine
  deriving DecidableEq, Repr

structure Audience where
  visibility : AudienceVisibility
  participants : List String
  deriving DecidableEq, Repr

inductive InteractionRole
  | privateCompanion | taskExecutor | ownerDelegate | publicRepresentative | groupParticipant
  | agentPeer | agentCoordinator | nodeController | webhookObserver | backgroundAutomation
  deriving DecidableEq, Repr

structure AuthorityScope where
  canSpeakForOwner : Bool
  canStartWork : Bool
  canCallTools : Bool
  canWriteMemory : Bool
  requiresOwnerConfirmation : Bool
  deriving DecidableEq, Repr

def AuthorityScope.ownerDefault : AuthorityScope :=
  { canSpeakForOwner := false, canStartWork := true, canCallTools := true, canWriteMemory := true,
    requiresOwnerConfirmation := false }

def AuthorityScope.restrictedDefault : AuthorityScope :=
  { canSpeakForOwner := false, canStartWork := false, canCallTools := false,
    canWriteMemory := false, requiresOwnerConfirmation := true }

inductive EvidencePolicy
  | summaryOnly | expandable | hidden
  deriving DecidableEq, Repr

structure DisclosurePolicy where
  allowedTopics : List String
  forbiddenTopics : List String
  shareActiveState : Bool
  shareCommitments : Bool
  shareIdentity : Bool
  evidencePolicy : EvidencePolicy
  deriving DecidableEq, Repr

def DisclosurePolicy.ownerDefault : DisclosurePolicy :=
  { allowedTopics := [], forbiddenTopics := [], shareActiveState := true, shareCommitments := true,
    shareIdentity := true, evidencePolicy := .expandable }

def DisclosurePolicy.strangerDefault : DisclosurePolicy :=
  { allowedTopics := [], forbiddenTopics := [], shareActiveState := false,
    shareCommitments := false, shareIdentity := false, evidencePolicy := .hidden }

structure Provenance where
  channel : Option ChannelRef
  receivedAt : Option Timestamp
  authenticatedBy : Option String
  rawEventRef : Option String
  deriving DecidableEq, Repr

structure InteractionContext where
  ingress : IngressRef
  actor : ActorRef
  audience : Audience
  role : InteractionRole
  authority : AuthorityScope
  disclosure : DisclosurePolicy
  taskMandate : Option String
  provenance : Provenance
  deriving DecidableEq, Repr

/-! ### Memory surfaces

What the owner sees and edits of the memory: the items of About You, the knowledge that can be
corrected one fact at a time, and the people with what may be disclosed to them.
-/

structure AboutYouItem where
  key : String
  label : String
  value : String
  confirmed : Bool
  sourceFactId : Option MemoryFactId
  deriving DecidableEq, Repr

structure AboutYouSurface where
  identitySummary : Option String
  items : List AboutYouItem
  deriving DecidableEq, Repr

/-- A replacement of the summary and of the items. -/
structure AboutYouUpdate where
  identitySummary : Option String
  items : List AboutYouItem
  deriving DecidableEq, Repr

structure KnowledgeItem where
  factId : MemoryFactId
  kind : String
  subject : String
  summary : String
  stale : Bool
  updatedAt : Timestamp
  citations : List MemoryCitationRef
  deriving DecidableEq, Repr

structure KnowledgeCorrection where
  factId : MemoryFactId
  correctedValue : String
  deriving DecidableEq, Repr

/-! ### People -/

/-- What may be disclosed to one actor. -/
structure PersonBoundary where
  personId : String
  displayName : String
  actorKind : String
  trustLevel : TrustLevel
  sharedTopics : List String
  forbiddenTopics : List String
  shareActiveState : Bool
  shareCommitments : Bool
  interactionStance : String
  notes : Option String
  requiresOwnerConfirmation : Bool
  deriving DecidableEq, Repr

structure PeopleSurface where
  humans : List PersonBoundary
  externalAgents : List PersonBoundary
  defaultStrangerBoundary : InfoBoundary
  deriving DecidableEq, Repr

/-! ### Requests on threads, turns and approvals

The payloads a client sends to start, resume and fork threads, to start and cancel turns, and to
answer an approval.
-/

structure ThreadStartRequest where
  title : Option String
  initialGoal : Option String
  workspaceRef : Option String
  workspaceMountId : Option WorkspaceMountId
  deriving DecidableEq, Repr

structure ThreadResumeRequest where
  threadId : ThreadId
  deriving DecidableEq, Repr

structure ThreadForkRequest where
  threadId : ThreadId
  title : Option String
  forkReason : Option String
  deriving DecidableEq, Repr

structure TurnStartRequest where
  threadId : ThreadId
  input : String
  inputKind : TurnInputKind
  channel : Option ChannelRef
  participant : Option ParticipantRef
  interactionContext : Option InteractionContext
  deriving DecidableEq, Repr

structure TurnCancelRequest where
  threadId : ThreadId
  turnId : TurnId
  deriving DecidableEq, Repr

structure ApprovalRespondRequest where
  approvalId : ApprovalId
  decision : ApprovalDecision
  deriving DecidableEq, Repr

end Liz
