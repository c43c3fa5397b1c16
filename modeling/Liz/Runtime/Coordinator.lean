import Liz.Runtime.TurnManager
import Liz.Runtime.PolicyEngine
import Liz.Runtime.NodeRegistry
import Liz.Runtime.Interactions

/-!
# The runtime coordinator

What the server calls: threads and turns, approvals, checkpoints, the record of tool executions and
the context of a turn. The coordinator adds the approvals and the node registry to the state of the
turn runtime; a restart loses the approvals with the turns.
-/

namespace Liz

structure RuntimeCoordinator extends TurnRuntime where
  approvals : Table ApprovalId ApprovalRequest
  nodeRegistry : NodeRegistry
  deriving DecidableEq

abbrev RuntimeM := EStateM RuntimeError RuntimeCoordinator

def RuntimeCoordinator.turnPart : Program.Part RuntimeCoordinator TurnRuntime where
  get := RuntimeCoordinator.toTurnRuntime
  set turns coordinator := { coordinator with toTurnRuntime := turns }
  get_set _ _ := rfl
  set_get _ := rfl

/-- An operation on threads and turns. -/
def onTurns {α : Type} (p : TurnM α) : RuntimeM α := Program.zoom RuntimeCoordinator.turnPart p

def liftExcept {α : Type} : Except RuntimeError α → RuntimeM α
  | .ok value => pure value
  | .error e => throw e

@[simp] theorem wp_onTurns {α : Type} {Q : α → RuntimeCoordinator → Prop}
    {E : RuntimeError → RuntimeCoordinator → Prop} {coordinator : RuntimeCoordinator} (p : TurnM α) :
    Program.wp (onTurns p) Q E coordinator ↔
      Program.wp p (fun a turns => Q a { coordinator with toTurnRuntime := turns })
        (fun e turns => E e { coordinator with toTurnRuntime := turns })
        coordinator.toTurnRuntime := by
  rw [onTurns, Program.wp_zoom]
  rfl

/-! ### Tool executions -/

section Turns

variable [Disk] [Clock]

/-- Persists the artifacts of one tool execution. -/
def storeArtifacts (reference : ArtifactId → ArtifactKind → String → String → ArtifactRef) :
    List (ArtifactKind × String × String) → TurnM (List ArtifactRef)
  | [] => pure []
  | (kind, artifactSummary, body) :: rest => do
      let artifactId ← drawn IdGenerator.nextArtifactId
      let locator := (← get).stores.artifactFile artifactId
      let artifact := reference artifactId kind artifactSummary locator
      stored (RuntimeStores.putArtifact { reference := artifact, body := body })
      let references ← storeArtifacts reference rest
      pure (artifact :: references)

/-- The number of entries in the log, plus one. -/
def nextToolSequence (threadId : ThreadId) : TurnM Nat := do
  pure ((← stored (RuntimeStores.readTurnLog threadId)).length + 1)

/-- A tool call outside of a turn gets a turn identifier of its own. -/
def executionTurn : Option TurnId → TurnM TurnId
  | some turnId => pure turnId
  | none => drawn IdGenerator.nextTurnId

/-- Persists tool artifacts and records a minimal tool-completion trace. -/
def recordToolExecution (threadId : ThreadId) (turnId : Option TurnId) (nodeId : Option NodeId)
    (workspaceMountId : Option WorkspaceMountId) (toolName summary : String)
    (artifacts : List (ArtifactKind × String × String)) : TurnM (TurnId × List ArtifactRef) := do
  let executionTurnId ← executionTurn turnId
  let createdAt ← drawn IdGenerator.nowTimestamp
  let references ← storeArtifacts (fun artifactId kind artifactSummary locator =>
    { id := artifactId
      threadId := threadId
      turnId := executionTurnId
      kind := kind
      nodeId := nodeId
      workspaceMountId := workspaceMountId
      summary := artifactSummary
      locator := locator
      createdAt := createdAt }) artifacts
  let sequence ← nextToolSequence threadId
  stored (RuntimeStores.appendTurnLog
    { threadId := threadId
      sequence := sequence
      turnId := some executionTurnId
      recordedAt := createdAt
      event := "tool_completed"
      summary := toolName ++ ": " ++ summary
      artifactIds := references.map ArtifactRef.id })
  pure (executionTurnId, references)

/-! ### Checkpoints -/

def createCheckpoint (threadId : ThreadId) (turnId : TurnId) (scope : CheckpointScope)
    (reason : String) : TurnM Checkpoint := do
  let checkpoint : Checkpoint :=
    { id := ← drawn IdGenerator.nextCheckpointId
      threadId := threadId
      turnId := turnId
      scope := scope
      reason := reason
      createdAt := ← drawn IdGenerator.nowTimestamp }
  stored (RuntimeStores.putCheckpoint checkpoint)
  let thread ← requireThread threadId
  stored (RuntimeStores.putThread { thread with
    latestCheckpointId := some checkpoint.id
    updatedAt := checkpoint.createdAt })
  pure checkpoint

/-! ### Context -/

/-- Assembles context for a resolved interaction context. -/
def assembleContextForInteraction [Unicode] (threadId : ThreadId) (input : String)
    (participant : Option ParticipantRef) (interactionContext : Option InteractionContext) :
    TurnM AssembledContext := do
  let thread ← requireThread threadId
  let snapshot ← stored RuntimeStores.readGlobalMemory
  let recentEntries ← stored (RuntimeStores.readTurnLog threadId)
  pure (assemble snapshot thread recentEntries input participant interactionContext)

/-- Assembles the current context envelope for a thread and input. -/
def assembleContext [Unicode] (threadId : ThreadId) (input : String) : TurnM AssembledContext :=
  assembleContextForInteraction threadId input none none

/-- Returns a persisted thread when it exists. -/
def readThread (threadId : ThreadId) : TurnM (Option Thread) :=
  stored (RuntimeStores.getThread threadId)

end Turns

/-! ### The coordinator's own operations -/

namespace RuntimeCoordinator

variable [Disk] [Clock]

/-- A coordinator over the files it finds; an unreadable registry file counts as none. -/
def new (host : HostInfo) (stores : RuntimeStores) : RuntimeCoordinator :=
  let fresh (registry : NodeRegistry) (stores : RuntimeStores) : RuntimeCoordinator :=
    { stores := stores, ids := .new, turnManager := .default, approvals := ∅, nodeRegistry := registry }
  match RuntimeStores.readNodeRegistry stores with
  | .ok snapshot stores => fresh (.fromSnapshot host snapshot) stores
  | .error _ stores => fresh (.default host) stores

def persistNodeRegistry : RuntimeM Unit := do
  onTurns (stored (RuntimeStores.writeNodeRegistry (← get).nodeRegistry.snapshot))

def resolveThreadWorkspaceMount (request : ThreadStartRequest) : RuntimeM ThreadStartRequest := do
  match request.workspaceMountId, request.workspaceRef with
  | some workspaceMountId, none =>
      let mount ← liftExcept ((← get).nodeRegistry.readWorkspaceMount workspaceMountId)
      pure { request with workspaceRef := some mount.rootPath }
  | none, some workspaceRef =>
      if Text.isBlank workspaceRef then pure request
      else
        let (mount, registry) ← liftExcept
          ((← get).nodeRegistry.resolveOrAttachLocalWorkspace workspaceRef)
        modify fun coordinator => { coordinator with nodeRegistry := registry }
        persistNodeRegistry
        pure { request with workspaceMountId := some mount.workspaceId }
  | _, _ => pure request

/-- Changes the registry in memory and then writes it out. -/
def changeNodeRegistry {α : Type}
    (change : NodeRegistry → Except RuntimeError (α × NodeRegistry)) : RuntimeM α := do
  let (value, registry) ← liftExcept (change (← get).nodeRegistry)
  modify fun coordinator => { coordinator with nodeRegistry := registry }
  persistNodeRegistry
  pure value

/-- Updates node policy. -/
def updateNodePolicy (nodeId : NodeId) (policy : NodePolicy) : RuntimeM NodeRecord :=
  changeNodeRegistry fun registry => registry.updateNodePolicy nodeId policy

/-- A heartbeat as an event of the node that sent it. -/
def heartbeatEvent (nodeId : NodeId) (node : NodeRecord) (status : NodeStatus) : InboundEvent :=
  { interactionContext :=
      { ingress := { kind := "node", sourceId := nodeId, conversationId := none }
        actor :=
          { actorId := nodeId
            kind := if node.identity.ownerDevice then .localNode else .remoteNode
            displayName := some node.identity.displayName
            proof := some "registered_node" }
        audience := { visibility := .machine, participants := [nodeId] }
        role := .nodeController
        authority :=
          { canSpeakForOwner := false, canStartWork := false, canCallTools := false,
            canWriteMemory := false, requiresOwnerConfirmation := false }
        disclosure := .strangerDefault
        taskMandate := some "node heartbeat"
        provenance :=
          { channel := none
            receivedAt := status.lastSeenAt
            authenticatedBy := some "node_registry"
            rawEventRef := none } }
    text := none
    eventKind := "node.heartbeat" }

/-- Records a node heartbeat after classifying it as an inbound event. -/
def heartbeatNode (nodeId : NodeId) (status : NodeStatus) :
    RuntimeM (NodeRecord × InboundEventAction) := do
  let node ← liftExcept ((← get).nodeRegistry.readNode nodeId)
  let action := InboundEventRouter.classify (heartbeatEvent nodeId node status)
  let node ← changeNodeRegistry fun registry => registry.updateNodeStatus nodeId status
  pure (node, action)

/-- Attaches a workspace mount. -/
def attachWorkspaceMount (nodeId : NodeId) (rootPath : String) (label : Option String)
    (permissions : WorkspaceMountPermissions) : RuntimeM WorkspaceMount :=
  changeNodeRegistry fun registry =>
    registry.attachWorkspaceMount nodeId rootPath label permissions

/-- Detaches a workspace mount. -/
def detachWorkspaceMount (workspaceId : WorkspaceMountId) : RuntimeM WorkspaceMountId :=
  changeNodeRegistry fun registry => registry.detachWorkspaceMount workspaceId

/-- Starts a new thread and persists the initial thread projection. -/
def startThread (request : ThreadStartRequest) : RuntimeM Thread := do
  let request ← resolveThreadWorkspaceMount request
  onTurns (Liz.startThread request)

/-- Starts a turn on an existing thread. -/
def startTurn (request : TurnStartRequest) : RuntimeM Turn :=
  onTurns (do
    let thread ← requireThread request.threadId
    Liz.startTurn thread request)

def ApprovalDecision.status : ApprovalDecision → ApprovalStatus
  | .deny => .denied
  | .approveOnce => .approved
  | .approveAndPersist => .approved

/-- The approval with the status that the decision gives it. -/
def answered (decision : ApprovalDecision) (approval : ApprovalRequest) : ApprovalRequest :=
  { approval with status := ApprovalDecision.status decision }

def withApproval (approvalId : ApprovalId) (approval : ApprovalRequest)
    (coordinator : RuntimeCoordinator) : RuntimeCoordinator :=
  { coordinator with approvals := coordinator.approvals.insert approvalId approval }

/-- Responds to a previously generated approval request. -/
def respondApproval (request : ApprovalRespondRequest) : RuntimeM ApprovalRequest := do
  match (← get).approvals.lookup request.approvalId with
  | none => throw (.notFound "approval_not_found" "approval does not exist")
  | some approval =>
      let approval := answered request.decision approval
      modify fun coordinator => coordinator.withApproval request.approvalId approval
      pure approval

/-- The request for the owner's approval of a risky turn. -/
def approvalFor (id : ApprovalId) (threadId : ThreadId) (turnId : TurnId)
    (decision : PolicyDecision) : ApprovalRequest :=
  { id := id
    threadId := threadId
    turnId := turnId
    actionType := "turn/start"
    riskLevel := decision.riskLevel
    reason := decision.reason
    sandboxContext := some
      ("node=local mode=" ++ decision.sandboxContext.filesystemMode.asStr ++ " writable_roots=" ++
        Text.join decision.sandboxContext.writableRoots "," ++ " network=" ++
        decision.sandboxContext.networkAccess.asStr)
    nodeId := some "local"
    workspaceMountId := none
    status := .pending }

/-- Creates a checkpoint and approval request for a risky turn and marks it waiting. -/
def requireApprovalForTurn (threadId : ThreadId) (turnId : TurnId) (decision : PolicyDecision) :
    RuntimeM (Option Checkpoint × ApprovalRequest) := do
  let checkpoint ← onTurns (
    if decision.requiresCheckpoint then
      some <$> createCheckpoint threadId turnId .conversationOnly
        ("Before risky turn: " ++ decision.reason)
    else pure none)
  let approval := approvalFor (← onTurns (drawn IdGenerator.nextApprovalId)) threadId turnId decision
  let _ ← onTurns (markWaitingApproval threadId turnId decision.reason)
  modify fun coordinator => coordinator.withApproval approval.id approval
  pure (checkpoint, approval)

/-- Marks a previously approved turn as runnable again. -/
def resumeApprovedTurn (threadId : ThreadId) (turnId : TurnId) : RuntimeM Turn :=
  onTurns (markRunning threadId turnId)

/-- Returns the node and workspace mount that should scope thread execution. -/
def threadExecutionScope (threadId : ThreadId) :
    RuntimeM (NodeId × Option WorkspaceMountId) := do
  let thread ← onTurns (requireThread threadId)
  match thread.workspaceMountId with
  | some workspaceMountId =>
      let mount ← liftExcept ((← get).nodeRegistry.readWorkspaceMount workspaceMountId)
      pure (mount.nodeId, some workspaceMountId)
  | none => pure ("local", none)

end RuntimeCoordinator

end Liz
