import Liz.Protocol.Events
import Liz.Runtime.Coordinator
import Liz.Server.Gateway
import Liz.Protocol.ToolDecoding

/-!
# The state of the app server

The server owns the runtime coordinator, the default shell sandbox and the approval policy, and
publishes events while it works. What can be seen of it from outside is kept as a trace: events,
calls of the model gateway, and tool executions. A request is handled by a program that stops in
the middle when it waits for an answer the gateway has not given.
-/

namespace Liz

/-- What one pass of memory compilation leaves behind: its summary when it succeeds, the memory file
when it writes it, the storage operations, identifiers and clock readings it spends, and the
reflection that is read afterwards. -/
structure MemoryPass where
  compilation : Option MemoryCompilationSummary
  memoryFile : Option (JsonFile GlobalMemorySnapshot)
  operations : Nat
  identifiers : Nat
  readings : Nat
  dreaming : Option String

/-- Everything around the server that answers it: characters, disk and clock, the executor of the
local node, and the memory engine. -/
class World extends Unicode, Disk, Clock where
  /-- What the n-th tool execution returns. -/
  executeTool : Nat → ToolCallRequest → Except RuntimeError ExecutedTool
  compileMemory : RuntimeStores → IdGenerator → ThreadId → MemoryPass
  readMemoryWakeup : RuntimeStores → ThreadId → Option MemoryWakeup

/-- A world that works and adds nothing: every operation succeeds, the clock stands still, no tool
does anything and memory compilation leaves memory alone. -/
@[reducible] def plainWorld : World :=
  { asciiTable, calmDisk, stoppedClock with
    executeTool := fun _ _ => .error (.unsupported "no_tools" "there are no tools")
    compileMemory := fun _ _ _ =>
      { compilation := none, memoryFile := none, operations := 0, identifiers := 0, readings := 0,
        dreaming := none }
    readMemoryWakeup := fun _ _ => none }

inductive ToolCaller
  | client | model
  deriving DecidableEq, Repr

inductive Observation
  | published (event : PendingEvent)
  | modelCalled (request : ModelTurnRequest) (outputContext : Option InteractionContext)
  | toolExecuted (caller : ToolCaller) (request : ToolCallRequest)

/-- The event that is published, if one is. -/
def Observation.event : Observation → Option PendingEvent
  | .published event => some event
  | _ => none

structure AppServer where
  runtime : RuntimeCoordinator
  defaultShellSandbox : ShellSandboxRequest
  approvalPolicy : ApprovalPolicy
  /-- How many tools have been executed. -/
  executions : Nat
  trace : List Observation

/-- Why a request has not been answered. -/
inductive Unanswered
  | gateway
  deriving DecidableEq, Repr

abbrev ServerM := EStateM Unanswered AppServer

namespace AppServer

/-- A server over the files it finds. -/
def new [Disk] (host : HostInfo) (sandbox : ShellSandboxRequest) (stores : RuntimeStores) :
    AppServer :=
  { runtime := .new host stores
    defaultShellSandbox := sandbox
    approvalPolicy := .onRequest
    executions := 0
    trace := [] }

def runtimePart : Program.Part AppServer RuntimeCoordinator where
  get := AppServer.runtime
  set runtime server := { server with runtime := runtime }
  get_set _ _ := rfl
  set_get _ := rfl

def observed (server : AppServer) (observation : Observation) : AppServer :=
  { server with trace := server.trace ++ [observation] }

/-- The events a server has published. -/
def publishedEvents (server : AppServer) : List PendingEvent :=
  server.trace.filterMap Observation.event

/-- The server after a pass of memory compilation. -/
def afterMemoryPass (server : AppServer) (pass : MemoryPass) : AppServer :=
  let stores := server.runtime.stores
  let ids := server.runtime.ids
  { server with
    runtime := { server.runtime with
      stores := { stores with
        operations := stores.operations + pass.operations
        globalMemory := pass.memoryFile.or stores.globalMemory }
      ids :=
        { sequence := ids.sequence + pass.identifiers
          readings := ids.readings + pass.readings } } }

end AppServer

/-- A call of the runtime; the server decides what becomes of its error. -/
def onRuntime {α : Type} (p : RuntimeM α) : ServerM (Except RuntimeError α) :=
  Program.zoom AppServer.runtimePart (Program.attempt p)

def observe (observation : Observation) : ServerM Unit :=
  modify fun server => server.observed observation

def publish (threadId : ThreadId) (turnId : Option TurnId) (payload : ServerEventPayload) :
    ServerM Unit :=
  observe (.published { threadId := threadId, turnId := turnId, payload := payload })

def publishAll : List PendingEvent → ServerM Unit
  | [] => pure ()
  | event :: rest => do
      observe (.published event)
      publishAll rest

section Programs

variable [World]

/-- Executes a tool request through the node dispatch boundary. -/
def executeTool (caller : ToolCaller) (request : ToolCallRequest) :
    ServerM (Except RuntimeError (NodeId × ExecutedTool)) := do
  let nodeId := request.nodeId.getD "local"
  if nodeId ≠ "local" then
    pure (.error (.unsupported "remote_node_not_ready"
      "remote node execution is not available yet"))
  else
    let executions := (← get).executions
    modify fun server => { server with executions := executions + 1 }
    observe (.toolExecuted caller request)
    pure ((World.executeTool executions request).map fun executed => (nodeId, executed))

/-- The events of a recorded tool execution. -/
def toolExecutionEvents (threadId : ThreadId) (executionTurnId : TurnId) (nodeId : NodeId)
    (workspaceMountId : Option WorkspaceMountId) (executed : ExecutedTool)
    (artifactRefs : List ArtifactRef) : List PendingEvent :=
  let taskId := executorTaskIdForResult threadId executed.result
  (artifactRefs.flatMap fun artifact =>
    ⟨artifact.threadId, some artifact.turnId, .artifactCreated artifact⟩ ::
      if artifact.kind = .diff then
        [⟨artifact.threadId, some artifact.turnId, .diffAvailable artifact⟩]
      else []) ++
  (executed.outputChunks.map fun output =>
    ⟨threadId, some executionTurnId,
      .executorOutputChunk taskId output.stream output.chunk (some nodeId) workspaceMountId⟩) ++
  [⟨threadId, some executionTurnId,
    .toolCompleted executed.toolName.asStr executed.summary (artifactRefs.map ArtifactRef.id)
      (some nodeId) workspaceMountId⟩]

/-- Artifacts as the runtime records them. -/
def ExecutedTool.artifactParts (executed : ExecutedTool) :
    List (ArtifactKind × String × String) :=
  executed.artifacts.map fun artifact => (artifact.kind, artifact.summary, artifact.body)

/-! ### Memory after a turn -/

def publishMemoryCompilationEvents (threadId : ThreadId) (turnId : Option TurnId)
    (compilation : MemoryCompilationSummary) (dreaming : Option String) : ServerM Unit :=
  publishAll
    ([⟨threadId, turnId, .memoryCompilationApplied compilation⟩] ++
      (if compilation.invalidatedFactIds.isEmpty then []
        else [⟨threadId, turnId, .memoryInvalidationApplied compilation⟩]) ++
      (dreaming.toList.map fun summary => ⟨threadId, turnId, .memoryDreamingCompleted summary⟩))

def compileMemoryForThread (threadId : ThreadId) (turnId : Option TurnId) : ServerM Unit := do
  let server ← get
  let pass := World.compileMemory server.runtime.stores server.runtime.ids threadId
  modify fun server => server.afterMemoryPass pass
  match pass.compilation with
  | none => pure ()
  | some compilation =>
      publishMemoryCompilationEvents threadId turnId compilation pass.dreaming

end Programs

/-! ### Rules -/

section Rules

open Program

variable {α : Type} {E : Unanswered → AppServer → Prop} {server : AppServer}

@[simp] theorem wp_onRuntime {Q : Except RuntimeError α → AppServer → Prop} (p : RuntimeM α) :
    wp (onRuntime p) Q E server ↔
      wp p (fun a runtime => Q (.ok a) { server with runtime := runtime })
        (fun e runtime => Q (.error e) { server with runtime := runtime }) server.runtime := by
  rw [onRuntime, wp_zoom, wp_attempt]
  rfl

@[simp] theorem wp_observe {Q : Unit → AppServer → Prop} (observation : Observation) :
    wp (observe observation) Q E server ↔ Q () (server.observed observation) := Iff.rfl

@[simp] theorem wp_publish {Q : Unit → AppServer → Prop} (threadId : ThreadId)
    (turnId : Option TurnId) (payload : ServerEventPayload) :
    wp (publish threadId turnId payload) Q E server ↔
      Q () (server.observed (.published ⟨threadId, turnId, payload⟩)) := Iff.rfl

@[simp] theorem wp_publishAll {Q : Unit → AppServer → Prop} (events : List PendingEvent) :
    wp (publishAll events) Q E server ↔
      Q () { server with trace := server.trace ++ events.map .published } := by
  induction events generalizing server with
  | nil => simp [publishAll]
  | cons event rest ih => simp [publishAll, ih, AppServer.observed]

end Rules

end Liz
