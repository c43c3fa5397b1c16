import Mathlib.Data.List.AList

/-!
# Threads, turns, approvals and what they refer to

The resources that requests, responses, events and stored files share, field by field. Identifiers
and timestamps are the strings of the protocol; a table keyed by an identifier is an association
list without repeated keys.
-/

namespace Liz

abbrev ThreadId := String
abbrev TurnId := String
abbrev ApprovalId := String
abbrev CheckpointId := String
abbrev ArtifactId := String
abbrev MemoryFactId := String
abbrev ExecutorTaskId := String
abbrev NodeId := String
abbrev WorkspaceMountId := String
abbrev Timestamp := String

/-- A hash map: a finite map from keys to values. -/
abbrev Table (κ ν : Type) := AList fun _ : κ => ν

inductive RiskLevel
  | low | medium | high | critical
  deriving DecidableEq, Repr

inductive ThreadStatus
  | active | waitingApproval | interrupted | completed | failed | archived
  deriving DecidableEq, Repr

structure Thread where
  id : ThreadId
  title : String
  status : ThreadStatus
  createdAt : Timestamp
  updatedAt : Timestamp
  activeGoal : Option String
  activeSummary : Option String
  lastInterruption : Option String
  workspaceRef : Option String
  workspaceMountId : Option WorkspaceMountId
  pendingCommitments : List String
  latestTurnId : Option TurnId
  latestCheckpointId : Option CheckpointId
  parentThreadId : Option ThreadId
  deriving DecidableEq, Repr

/-- A record with nothing in it yet. -/
def Thread.blank (id : ThreadId) : Thread :=
  { id := id, title := "Untitled thread", status := .active, createdAt := "unix:0.000000000",
    updatedAt := "unix:0.000000000", activeGoal := none, activeSummary := none,
    lastInterruption := none, workspaceRef := none, workspaceMountId := none,
    pendingCommitments := [], latestTurnId := none, latestCheckpointId := none,
    parentThreadId := none }

inductive TurnStatus
  | running | waitingApproval | cancelled | completed | failed
  deriving DecidableEq, Repr

inductive TurnKind
  | user | assistant | verification | compilation | rollback
  deriving DecidableEq, Repr

inductive TurnInputKind
  | userMessage | steeringNote | resumeCommand
  deriving DecidableEq, Repr

structure Turn where
  id : TurnId
  threadId : ThreadId
  kind : TurnKind
  status : TurnStatus
  startedAt : Timestamp
  endedAt : Option Timestamp
  goal : Option String
  summary : Option String
  checkpointBefore : Option CheckpointId
  checkpointAfter : Option CheckpointId
  deriving DecidableEq, Repr

inductive CheckpointScope
  | conversationOnly | workspaceOnly | conversationAndWorkspace
  deriving DecidableEq, Repr

structure Checkpoint where
  id : CheckpointId
  threadId : ThreadId
  turnId : TurnId
  scope : CheckpointScope
  reason : String
  createdAt : Timestamp
  deriving DecidableEq, Repr

inductive ApprovalDecision
  | approveOnce | approveAndPersist | deny
  deriving DecidableEq, Repr

inductive ApprovalPolicy
  | onRequest | dangerFullAccess
  deriving DecidableEq, Repr

inductive ApprovalStatus
  | pending | approved | denied | expired
  deriving DecidableEq, Repr

structure ApprovalRequest where
  id : ApprovalId
  threadId : ThreadId
  turnId : TurnId
  actionType : String
  riskLevel : RiskLevel
  reason : String
  sandboxContext : Option String
  nodeId : Option NodeId
  workspaceMountId : Option WorkspaceMountId
  status : ApprovalStatus
  deriving DecidableEq, Repr

inductive ArtifactKind
  | diff | toolTrace | snapshot | commandOutput | approvalRecord | memoryCitation
  deriving DecidableEq, Repr

structure ArtifactRef where
  id : ArtifactId
  threadId : ThreadId
  turnId : TurnId
  kind : ArtifactKind
  nodeId : Option NodeId
  workspaceMountId : Option WorkspaceMountId
  summary : String
  locator : String
  createdAt : Timestamp
  deriving DecidableEq, Repr

/-- A persisted artifact: its reference and its body. -/
structure StoredArtifact where
  reference : ArtifactRef
  body : String
  deriving DecidableEq, Repr

inductive SandboxMode
  | readOnly | workspaceWrite | dangerFullAccess | externalSandbox
  deriving DecidableEq, Repr

def SandboxMode.asStr : SandboxMode → String
  | .readOnly => "read-only"
  | .workspaceWrite => "workspace-write"
  | .dangerFullAccess => "danger-full-access"
  | .externalSandbox => "external-sandbox"

inductive SandboxNetworkAccess
  | disabled | restricted | enabled
  deriving DecidableEq, Repr

def SandboxNetworkAccess.asStr : SandboxNetworkAccess → String
  | .disabled => "disabled"
  | .restricted => "restricted"
  | .enabled => "enabled"

/-- One record of a thread's turn log. -/
structure TurnLogEntry where
  threadId : ThreadId
  sequence : Nat
  turnId : Option TurnId
  recordedAt : Timestamp
  event : String
  summary : String
  artifactIds : List ArtifactId
  deriving DecidableEq, Repr

/-! ### Provider auth profiles

A saved profile holds a credential of one provider. Secrets stand in the fields of the credential,
and the login flows of some providers keep more of them in the metadata of a token.
-/

inductive ProviderCredential
  | apiKey (apiKey : String)
  | oAuth (accessToken : String) (refreshToken : Option String) (expiresAtMs : Option Nat)
      (accountId email : Option String)
  | token (token : String) (expiresAtMs : Option Nat) (metadata : Table String String)
  deriving DecidableEq

structure ProviderAuthProfile where
  profileId : String
  providerId : String
  displayName : Option String
  credential : ProviderCredential
  deriving DecidableEq

/-! ### Nodes and workspace mounts

The devices a turn can execute on and the directories mounted on them, as the registry keeps them
and as its file stores them.
-/

inductive NodeKind
  | desktop | server | laptop | phone | container | browserHost
  deriving DecidableEq, Repr

structure NodeIdentity where
  nodeId : NodeId
  displayName : String
  kind : NodeKind
  ownerDevice : Bool
  deriving DecidableEq, Repr

structure NodeStatus where
  online : Bool
  lastSeenAt : Option Timestamp
  appVersion : Option String
  os : Option String
  hostname : Option String
  deriving DecidableEq, Repr

structure NodeCapabilities where
  workspaceTools : Bool
  shellTools : Bool
  browserTools : Bool
  webUiHost : Bool
  notifications : Bool
  maxConcurrentTasks : Nat
  supportedSandboxModes : List SandboxMode
  deriving DecidableEq, Repr

structure NodePolicy where
  allowedRoots : List String
  protectedPaths : List String
  defaultSandbox : SandboxMode
  networkPolicy : String
  approvalPolicy : ApprovalPolicy
  deriving DecidableEq, Repr

structure NodeRecord where
  identity : NodeIdentity
  status : NodeStatus
  capabilities : NodeCapabilities
  policy : NodePolicy
  deriving DecidableEq, Repr

structure WorkspaceMountPermissions where
  read : Bool
  write : Bool
  shell : Bool
  deriving DecidableEq, Repr

structure WorkspaceMount where
  workspaceId : WorkspaceMountId
  nodeId : NodeId
  rootPath : String
  label : String
  permissions : WorkspaceMountPermissions
  deriving DecidableEq, Repr

/-- The registry file. -/
structure NodeRegistrySnapshot where
  nodes : List NodeRecord
  workspaceMounts : List WorkspaceMount
  deriving DecidableEq, Repr

end Liz
