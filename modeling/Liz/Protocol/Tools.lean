import Liz.Protocol.Json
import Liz.Protocol.Resources

/-!
# Tools

The typed invocations of the ten tools and the requests that carry them to a node. A result is kept
as its serialized payload, with the task it names when it belongs to a background shell.
-/

namespace Liz

inductive ToolName
  | workspaceList | workspaceSearch | workspaceRead | workspaceWriteText | workspaceApplyPatch
  | shellExec | shellSpawn | shellWait | shellReadOutput | shellTerminate
  deriving DecidableEq, Repr

def ToolName.asStr : ToolName → String
  | .workspaceList => "workspace.list"
  | .workspaceSearch => "workspace.search"
  | .workspaceRead => "workspace.read"
  | .workspaceWriteText => "workspace.write_text"
  | .workspaceApplyPatch => "workspace.apply_patch"
  | .shellExec => "shell.exec"
  | .shellSpawn => "shell.spawn"
  | .shellWait => "shell.wait"
  | .shellReadOutput => "shell.read_output"
  | .shellTerminate => "shell.terminate"

structure ShellSandboxRequest where
  mode : SandboxMode
  networkAccess : SandboxNetworkAccess
  deriving DecidableEq, Repr

inductive ToolInvocation
  | workspaceList (root : String) (recursive includeHidden : Bool) (maxEntries : Option Nat)
  | workspaceSearch (root pattern : String) (caseSensitive includeHidden : Bool)
      (maxResults : Option Nat)
  | workspaceRead (path : String) (startLine endLine : Option Nat)
  | workspaceWriteText (path content : String)
  | workspaceApplyPatch (path search replace : String) (replaceAll : Bool)
  | shellExec (command : String) (workingDir : Option String) (sandbox : Option ShellSandboxRequest)
  | shellSpawn (command : String) (workingDir : Option String) (sandbox : Option ShellSandboxRequest)
  | shellWait (taskId : ExecutorTaskId)
  | shellReadOutput (taskId : ExecutorTaskId)
  | shellTerminate (taskId : ExecutorTaskId)
  deriving DecidableEq, Repr

structure ToolCallRequest where
  threadId : ThreadId
  turnId : Option TurnId
  nodeId : Option NodeId
  workspaceMountId : Option WorkspaceMountId
  invocation : ToolInvocation
  deriving DecidableEq, Repr

structure ToolResult where
  toolName : ToolName
  /-- The task of a background shell command. -/
  taskId : Option ExecutorTaskId
  value : Json

/-- The background task of a result, or a name made from the thread and the tool. -/
def executorTaskIdForResult (threadId : ThreadId) (result : ToolResult) : ExecutorTaskId :=
  result.taskId.getD
    ("executor_" ++ threadId ++ "_" ++ Text.replace result.toolName.asStr "." "_")

inductive ExecutorStream
  | stdout | stderr
  deriving DecidableEq, Repr

structure ExecutorOutput where
  stream : ExecutorStream
  chunk : String
  deriving DecidableEq, Repr

structure PendingArtifact where
  kind : ArtifactKind
  summary : String
  body : String
  deriving DecidableEq, Repr

/-- The normalized outcome of executing one tool. -/
structure ExecutedTool where
  toolName : ToolName
  summary : String
  result : ToolResult
  artifacts : List PendingArtifact
  outputChunks : List ExecutorOutput

end Liz
