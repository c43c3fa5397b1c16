import Liz.Protocol.Tools

/-!
# Outputs of tools

The typed results of the ten tools. What the JSON library writes of them is a parameter, and the
payload that the server passes on is made from it.
-/

namespace Liz

inductive SandboxBackendKind
  | none | macosSeatbelt | linuxHelper | windowsRestrictedToken | windowsSandboxUser
  deriving DecidableEq, Repr

def SandboxBackendKind.asStr : SandboxBackendKind → String
  | .none => "none"
  | .macosSeatbelt => "macos-seatbelt"
  | .linuxHelper => "linux-helper"
  | .windowsRestrictedToken => "windows-restricted-token"
  | .windowsSandboxUser => "windows-sandbox-user"

structure ShellSandboxSummary where
  mode : SandboxMode
  networkAccess : SandboxNetworkAccess
  backend : SandboxBackendKind
  deriving DecidableEq, Repr

structure WorkspaceListEntry where
  path : String
  isDir : Bool
  deriving DecidableEq, Repr

structure WorkspaceListResult where
  root : String
  entries : List WorkspaceListEntry
  truncated : Bool
  deriving DecidableEq, Repr

structure WorkspaceSearchMatch where
  path : String
  lineNumber : Nat
  line : String
  deriving DecidableEq, Repr

structure WorkspaceSearchResult where
  root : String
  pattern : String
  hits : List WorkspaceSearchMatch
  truncated : Bool
  deriving DecidableEq, Repr

structure WorkspaceReadResult where
  path : String
  content : String
  startLine : Nat
  endLine : Nat
  totalLines : Nat
  deriving DecidableEq, Repr

structure WorkspaceWriteTextResult where
  path : String
  changed : Bool
  byteLength : Nat
  deriving DecidableEq, Repr

structure WorkspaceApplyPatchResult where
  path : String
  replacements : Nat
  changed : Bool
  deriving DecidableEq, Repr

structure ShellExecResult where
  command : String
  workingDir : Option String
  sandbox : ShellSandboxSummary
  exitCode : Int
  stdout : String
  stderr : String
  deriving DecidableEq, Repr

structure ShellSpawnResult where
  taskId : ExecutorTaskId
  command : String
  workingDir : Option String
  sandbox : ShellSandboxSummary
  deriving DecidableEq, Repr

structure ShellWaitResult where
  taskId : ExecutorTaskId
  sandbox : ShellSandboxSummary
  running : Bool
  exitCode : Option Int
  stdout : String
  stderr : String
  deriving DecidableEq, Repr

structure ShellReadOutputResult where
  taskId : ExecutorTaskId
  sandbox : ShellSandboxSummary
  running : Bool
  exitCode : Option Int
  stdoutDelta : String
  stderrDelta : String
  deriving DecidableEq, Repr

structure ShellTerminateResult where
  taskId : ExecutorTaskId
  sandbox : ShellSandboxSummary
  terminated : Bool
  exitCode : Option Int
  deriving DecidableEq, Repr

inductive ToolOutput
  | workspaceList (output : WorkspaceListResult)
  | workspaceSearch (output : WorkspaceSearchResult)
  | workspaceRead (output : WorkspaceReadResult)
  | workspaceWriteText (output : WorkspaceWriteTextResult)
  | workspaceApplyPatch (output : WorkspaceApplyPatchResult)
  | shellExec (output : ShellExecResult)
  | shellSpawn (output : ShellSpawnResult)
  | shellWait (output : ShellWaitResult)
  | shellReadOutput (output : ShellReadOutputResult)
  | shellTerminate (output : ShellTerminateResult)
  deriving DecidableEq, Repr

namespace ToolOutput

def toolName : ToolOutput → ToolName
  | workspaceList _ => .workspaceList
  | workspaceSearch _ => .workspaceSearch
  | workspaceRead _ => .workspaceRead
  | workspaceWriteText _ => .workspaceWriteText
  | workspaceApplyPatch _ => .workspaceApplyPatch
  | shellExec _ => .shellExec
  | shellSpawn _ => .shellSpawn
  | shellWait _ => .shellWait
  | shellReadOutput _ => .shellReadOutput
  | shellTerminate _ => .shellTerminate

/-- The background task a result names. -/
def taskId : ToolOutput → Option ExecutorTaskId
  | shellSpawn output => some output.taskId
  | shellWait output => some output.taskId
  | shellReadOutput output => some output.taskId
  | shellTerminate output => some output.taskId
  | _ => none

/-- The sandbox a result tells about. -/
def sandboxSummary : ToolOutput → Option ShellSandboxSummary
  | shellExec output => some output.sandbox
  | shellSpawn output => some output.sandbox
  | shellWait output => some output.sandbox
  | shellReadOutput output => some output.sandbox
  | shellTerminate output => some output.sandbox
  | _ => none

end ToolOutput

/-- What the JSON library writes of a result, alone and in the trace of its call. -/
class ToolText where
  value : ToolOutput → Json
  snapshot : ToolOutput → String
  trace : ToolName → Option ShellSandboxSummary → ToolInvocation → String → ToolOutput → String

/-- A result as it is passed on. -/
def ToolOutput.toResult [ToolText] (output : ToolOutput) : ToolResult :=
  { toolName := output.toolName
    taskId := output.taskId
    value := ToolText.value output }

end Liz
