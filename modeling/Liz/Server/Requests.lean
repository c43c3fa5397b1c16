import Liz.Server.TurnLoop
import Liz.Runtime.ThreadManager

/-!
# Handling requests

A request is dispatched to the runtime, its events are published, and then the server goes on by
itself: a started turn is run or put up for approval, an answered approval is carried out, a
cancelled turn has its memory compiled.
-/

namespace Liz

/-- What a request outside of threads, turns and approvals does: it may rewrite the memory file and
the node registry, draw identifiers, and publish events of a thread that belong to no turn. -/
structure OtherOutcome where
  memoryFile : Option (JsonFile GlobalMemorySnapshot)
  nodeRegistryFile : Option (JsonFile NodeRegistrySnapshot)
  nodeRegistry : Option NodeRegistry
  operations : Nat
  identifiers : Nat
  readings : Nat
  events : List (ThreadId × ServerEventPayload)
  error : Option RuntimeError

inductive ClientRequest
  | runtimeConfigGet
  | runtimeConfigUpdate (sandbox : Option ShellSandboxRequest)
      (approvalPolicy : Option ApprovalPolicy)
  | threadStart (request : ThreadStartRequest)
  | threadResume (request : ThreadResumeRequest)
  | threadFork (request : ThreadForkRequest)
  | turnStart (request : TurnStartRequest)
  | turnCancel (request : TurnCancelRequest)
  | approvalRespond (request : ApprovalRespondRequest)
  | toolCall (request : ToolCallRequest)
  | threadRollback
  | other (method : String) (outcome : OtherOutcome)

def errorEnvelope (error : RuntimeError) : ServerResponse :=
  .error error.code error.display error.retryable

/-- The server after a request outside of threads, turns and approvals. -/
def AppServer.afterOther (server : AppServer) (outcome : OtherOutcome) : AppServer :=
  let stores := server.runtime.stores
  let ids := server.runtime.ids
  { server with
    runtime := { server.runtime with
      stores := { stores with
        operations := stores.operations + outcome.operations
        globalMemory := outcome.memoryFile.or stores.globalMemory
        nodeRegistry := outcome.nodeRegistryFile.or stores.nodeRegistry }
      ids :=
        { sequence := ids.sequence + outcome.identifiers
          readings := ids.readings + outcome.readings }
      nodeRegistry := outcome.nodeRegistry.getD server.runtime.nodeRegistry } }

section Handlers

variable [World]

/-- The response to a call of the runtime, with the events of its success. -/
def respond {α : Type} (p : RuntimeM α)
    (success : α → ServerM (ResponsePayload × List PendingEvent)) :
    ServerM (ServerResponse × List PendingEvent) := do
  match ← onRuntime p with
  | .ok value => do
      let (payload, events) ← success value
      pure (.success payload, events)
  | .error error => pure (errorEnvelope error, [])

/-- The event that carries the thread as it is stored now, when it can be read. -/
def threadEvent (threadId : ThreadId) (turnId : TurnId) (payload : Thread → ServerEventPayload) :
    ServerM (List PendingEvent) := do
  match ← onRuntime (onTurns (readThread threadId)) with
  | .ok (some thread) => pure [⟨thread.id, some turnId, payload thread⟩]
  | _ => pure []

def normalizeToolCallNode (request : ToolCallRequest) : RuntimeM ToolCallRequest := do
  match request.nodeId, request.workspaceMountId with
  | some _, _ => pure request
  | none, some workspaceMountId => do
      let mount ← liftExcept ((← get).nodeRegistry.readWorkspaceMount workspaceMountId)
      pure { request with nodeId := some mount.nodeId }
  | none, none => pure { request with nodeId := some "local" }

/-- Records a tool call of a client. -/
def recordClientToolCall (request : ToolCallRequest) (nodeId : NodeId) (executed : ExecutedTool) :
    ServerM (ServerResponse × List PendingEvent) :=
  respond (onTurns (recordToolExecution request.threadId request.turnId (some nodeId)
      request.workspaceMountId executed.toolName.asStr executed.summary executed.artifactParts))
    fun (executionTurnId, artifactRefs) =>
      pure (.toolCall executionTurnId executed.summary executed.result artifactRefs,
        toolExecutionEvents request.threadId executionTurnId nodeId request.workspaceMountId executed
          artifactRefs)

def handleToolCall (request : ToolCallRequest) : ServerM (ServerResponse × List PendingEvent) := do
  match ← onRuntime (normalizeToolCallNode request) with
  | .error error => pure (errorEnvelope error, [])
  | .ok request => do
      match ← executeTool .client request with
      | .error error => pure (errorEnvelope error, [])
      | .ok (nodeId, executed) => recordClientToolCall request nodeId executed

/-- Dispatches a request to the runtime. -/
def dispatch : ClientRequest → ServerM (ServerResponse × List PendingEvent)
  | .runtimeConfigGet => do
      let server ← get
      pure (.success (.runtimeConfig server.defaultShellSandbox server.approvalPolicy), [])
  | .runtimeConfigUpdate sandbox approvalPolicy => do
      modify fun server =>
        { server with
          defaultShellSandbox := sandbox.getD server.defaultShellSandbox
          approvalPolicy := approvalPolicy.getD server.approvalPolicy }
      let server ← get
      pure (.success (.runtimeConfig server.defaultShellSandbox server.approvalPolicy), [])
  | .threadStart request =>
      respond (RuntimeCoordinator.startThread request) fun thread =>
        pure (.threadStart thread, [⟨thread.id, none, .threadStarted thread⟩])
  | .threadResume request =>
      respond (onTurns (resumeThread request)) fun thread => do
        let server ← get
        let wakeup := World.readMemoryWakeup server.runtime.stores thread.id
        pure (.threadResume thread,
          ⟨thread.id, none, .threadResumed thread⟩ ::
            wakeup.toList.map fun wakeup => ⟨thread.id, none, .memoryWakeupLoaded wakeup⟩)
  | .threadFork request =>
      respond (onTurns (forkThread request)) fun thread =>
        pure (.threadFork thread, [⟨thread.id, none, .threadForked thread⟩])
  | .turnStart request =>
      respond (RuntimeCoordinator.startTurn request) fun turn => do
        let updated ← threadEvent turn.threadId turn.id .threadUpdated
        pure (.turnStart turn, ⟨turn.threadId, some turn.id, .turnStarted turn⟩ :: updated)
  | .turnCancel request =>
      respond (onTurns (cancelTurn request)) fun turn => do
        let interrupted ← threadEvent turn.threadId turn.id .threadInterrupted
        pure (.turnCancel turn, ⟨turn.threadId, some turn.id, .turnCancelled turn⟩ :: interrupted)
  | .approvalRespond request =>
      respond (RuntimeCoordinator.respondApproval request) fun approval =>
        pure (.approvalRespond approval,
          [⟨approval.threadId, some approval.turnId, .approvalResolved approval request.decision⟩])
  | .toolCall request => handleToolCall request
  | .threadRollback =>
      pure (errorEnvelope (.unsupported "rollback_not_ready"
        "rollback handling is implemented in a later phase"), [])
  | .other method outcome => do
      modify fun server => server.afterOther outcome
      pure ((outcome.error.map errorEnvelope).getD (.success (.other method)),
        outcome.events.map fun event => ⟨event.1, none, event.2⟩)

/-! ### After the response -/

/-- Puts a risky turn up for approval. -/
def requestApproval (threadId : ThreadId) (turnId : TurnId) (decision : PolicyDecision) :
    ServerM Unit := do
  match ← onRuntime (RuntimeCoordinator.requireApprovalForTurn threadId turnId decision) with
  | .ok (checkpoint, approval) =>
      publishAll
        ((checkpoint.toList.map fun checkpoint =>
            ⟨threadId, some turnId, .checkpointCreated checkpoint⟩) ++
          [⟨threadId, some turnId, .approvalRequested approval⟩])
  | .error _ => pure ()

/-- Runs a started turn at the model, or puts it up for approval. -/
def decideTurn (request : TurnStartRequest) (answers : List GatewayAnswer) (turn : Turn)
    (thread : Thread) (context : AssembledContext) : ServerM Unit := do
  let decision := evaluatePolicy request.input context
  if (← get).approvalPolicy = .onRequest ∧ decision.requiresApproval then
    requestApproval thread.id turn.id decision
  else
    streamModelTurn thread turn context.systemPrompt context.developerPrompt context.userPrompt
      request.interactionContext answers

/-- What follows a started turn. Each of the two reads ends it silently when it fails. -/
def continueTurnAfterPolicy (request : TurnStartRequest) (answers : List GatewayAnswer)
    (turn : Turn) : ServerM Unit := do
  match ← onRuntime (onTurns (readThread turn.threadId)) with
  | .ok (some thread) => do
      match ← onRuntime (onTurns (assembleContextForInteraction thread.id request.input
          request.participant request.interactionContext)) with
      | .ok context => decideTurn request answers turn thread context
      | .error _ => pure ()
  | _ => pure ()

/-- Runs a resumed turn with what it remembers. -/
def runResumedTurn (approval : ApprovalRequest) (answers : List GatewayAnswer) (turn : Turn) :
    ServerM Unit := do
  match ← onRuntime (onTurns (readThread approval.threadId)) with
  | .ok (some thread) => do
      match ← onRuntime (onTurns (assembleContext thread.id (turn.goal.getD ""))) with
      | .ok context =>
          streamModelTurn thread turn context.systemPrompt context.developerPrompt
            context.userPrompt none answers
      | .error _ => pure ()
  | _ => pure ()

/-- Resumes the turn of an approved request. -/
def resumeAfterApproval (approval : ApprovalRequest) (answers : List GatewayAnswer) :
    ServerM Unit := do
  match ← onRuntime (RuntimeCoordinator.resumeApprovedTurn approval.threadId approval.turnId) with
  | .ok turn => runResumedTurn approval answers turn
  | .error _ => pure ()

/-- Cancels the turn of a denied request. -/
def cancelAfterDenial (approval : ApprovalRequest) : ServerM Unit := do
  match ← onRuntime (onTurns (cancelTurn
      { threadId := approval.threadId, turnId := approval.turnId })) with
  | .ok turn => do
      publish approval.threadId (some turn.id) (.turnCancelled turn)
      publishAll (← threadEvent approval.threadId turn.id .threadInterrupted)
      compileMemoryForThread approval.threadId (some turn.id)
  | .error _ => pure ()

def continueAfterApproval (decision : ApprovalDecision) (answers : List GatewayAnswer)
    (approval : ApprovalRequest) : ServerM Unit :=
  match decision with
  | .approveOnce => resumeAfterApproval approval answers
  | .approveAndPersist => resumeAfterApproval approval answers
  | .deny => cancelAfterDenial approval

/-- What the server does by itself after a response. -/
def continueAfter (answers : List GatewayAnswer) : ClientRequest → ServerResponse → ServerM Unit
  | .turnStart request, .success (.turnStart turn) => continueTurnAfterPolicy request answers turn
  | .turnCancel request, .success _ => compileMemoryForThread request.threadId none
  | .approvalRespond request, .success (.approvalRespond approval) =>
      continueAfterApproval request.decision answers approval
  | _, _ => pure ()

/-- Handles one request; the gateway answers from the list. -/
def handleRequest (request : ClientRequest) (answers : List GatewayAnswer) :
    ServerM ServerResponse := do
  let (response, events) ← dispatch request
  publishAll events
  continueAfter answers request response
  pure response

/-! ### Runs -/

/-- A request together with the answers the gateway gives while it is handled. -/
structure ServerInput where
  request : ClientRequest
  answers : List GatewayAnswer

/-- The server after one request. -/
def AppServer.step (server : AppServer) (input : ServerInput) : AppServer :=
  Program.after (handleRequest input.request input.answers) server

/-- The response to one request, when it comes. -/
def AppServer.response (server : AppServer) (input : ServerInput) : Option ServerResponse :=
  Program.result (handleRequest input.request input.answers) server

/-- The events that are published while a request is handled. -/
def AppServer.newEvents (server : AppServer) (input : ServerInput) : List PendingEvent :=
  (server.step input).publishedEvents.drop server.publishedEvents.length

end Handlers

end Liz
