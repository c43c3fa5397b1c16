import Liz.Executor.LocalNode
import Liz.Server.Requests

/-!
# Tool calls of clients on the local node

A tool call of a client goes through the runtime twice: its node is looked up before the executor
runs, and the execution is recorded after it. Here the executor of the local node stands beside the
runtime, so that what a call does to the workspace can be seen.
-/

namespace Liz

open Program

/-- The runtime and the executor of the local node. -/
structure ToolCallNode where
  runtime : RuntimeCoordinator
  executor : LocalShellExecutor

abbrev ToolCallM := EStateM RuntimeError ToolCallNode

namespace ToolCallNode

def runtimePart : Part ToolCallNode RuntimeCoordinator where
  get := ToolCallNode.runtime
  set runtime node := { node with runtime := runtime }
  get_set _ _ := rfl
  set_get _ := rfl

def executorPart : Part ToolCallNode LocalShellExecutor where
  get := ToolCallNode.executor
  set executor node := { node with executor := executor }
  get_set _ _ := rfl
  set_get _ := rfl

end ToolCallNode

section Handler

variable [Disk] [Clock] [ToolText] [ShellHost]

def recordExecutedTool (request : ToolCallRequest) (nodeId : NodeId) (executed : ExecutedTool) :
    ToolCallM ResponsePayload := do
  let (executionTurnId, artifactRefs) ← zoom ToolCallNode.runtimePart
    (onTurns (recordToolExecution request.threadId request.turnId (some nodeId)
      request.workspaceMountId executed.toolName.asStr executed.summary executed.artifactParts))
  pure (.toolCall executionTurnId executed.summary executed.result artifactRefs)

def handleClientToolCall (request : ToolCallRequest) : ToolCallM ResponsePayload := do
  let request ← zoom ToolCallNode.runtimePart (normalizeToolCallNode request)
  let (nodeId, executed) ← zoom ToolCallNode.executorPart (NodeExecutorRouter.executeTool request)
  recordExecutedTool request nodeId executed

end Handler

end Liz
