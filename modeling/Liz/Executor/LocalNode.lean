import Liz.Executor.Shell
import Liz.Executor.Workspace

/-!
# The executor of the local node

Every tool of a request is executed by its invocation alone. The router lets through what is meant
for the local node and looks at nothing else of the request.
-/

namespace Liz

open FileTree Program

variable [ToolText]

/-- An outcome with its trace and its snapshot as artifacts. -/
def executedTool (summary : String) (output : ToolOutput) (invocation : ToolInvocation)
    (extraArtifact : Option PendingArtifact) (outputChunks : List ExecutorOutput) : ExecutedTool :=
  { toolName := output.toolName
    summary := summary
    result := output.toResult
    artifacts :=
      [{ kind := .toolTrace
         summary := "Tool trace for " ++ output.toolName.asStr
         body := ToolText.trace output.toolName output.sandboxSummary invocation summary output },
       { kind := .snapshot
         summary := summary
         body := ToolText.snapshot output }] ++ extraArtifact.toList
    outputChunks := outputChunks }

omit [ToolText] in
def renderDiff (path before after : String) : String :=
  "--- " ++ path ++ "\n+++ " ++ path ++ "\n@@\n" ++
    String.join ((Text.lines before).map fun line => "-" ++ line ++ "\n") ++
    String.join ((Text.lines after).map fun line => "+" ++ line ++ "\n")

omit [ToolText] in
def diffArtifact (path before after : String) : PendingArtifact :=
  { kind := .diff
    summary := "Diff for " ++ path
    body := renderDiff path before after }

omit [ToolText] in
/-- The sandbox as summaries name it. -/
def underSandbox (sandbox : ShellSandboxSummary) : String :=
  " under " ++ sandbox.mode.asStr ++ " via " ++ sandbox.backend.asStr

def commandOutputArtifact (subject : String) (sandbox : ShellSandboxSummary) (output : ToolOutput) :
    PendingArtifact :=
  { kind := .commandOutput
    summary := "Command output for " ++ subject ++ underSandbox sandbox
    body := ToolText.snapshot output }

namespace LocalNodeExecutor

omit [ToolText] in
def onFiles {α : Type} (p : Workspace.WorkspaceM α) : ShellM α :=
  zoom LocalShellExecutor.sessionPart p

variable [ShellHost]

/-- Executes one typed tool invocation against the local workspace runtime. -/
def executeTool (request : ToolCallRequest) : ShellM ExecutedTool :=
  match request.invocation with
  | .workspaceList root recursive includeHidden maxEntries => do
      let result ← onFiles (Workspace.list root recursive includeHidden maxEntries)
      pure (executedTool
        ("Listed " ++ Nat.repr result.entries.length ++ " workspace entries under " ++ result.root)
        (.workspaceList result) request.invocation none [])
  | .workspaceSearch root pattern caseSensitive includeHidden maxResults => do
      let result ← onFiles (Workspace.search root pattern caseSensitive includeHidden maxResults)
      pure (executedTool
        ("Found " ++ Nat.repr result.hits.length ++ " matches for " ++ pattern ++ " under " ++
          result.root)
        (.workspaceSearch result) request.invocation none [])
  | .workspaceRead path startLine endLine => do
      let result ← onFiles (Workspace.read path startLine endLine)
      pure (executedTool
        ("Read lines " ++ Nat.repr result.startLine ++ "-" ++ Nat.repr result.endLine ++ " from " ++
          result.path)
        (.workspaceRead result) request.invocation none [])
  | .workspaceWriteText path content => do
      let written ← onFiles (Workspace.writeText path content)
      let summary :=
        if written.result.changed then
          "Wrote " ++ Nat.repr written.result.byteLength ++ " bytes to " ++ written.result.path
        else "Confirmed " ++ written.result.path ++ " already matched the requested contents"
      pure (executedTool summary (.workspaceWriteText written.result) request.invocation
        (some (diffArtifact path written.before written.after)) [])
  | .workspaceApplyPatch path search into replaceAll => do
      let patched ← onFiles (Workspace.applyPatch path search into replaceAll)
      pure (executedTool
        ("Patched " ++ Nat.repr patched.result.replacements ++ " replacement(s) in " ++
          patched.result.path)
        (.workspaceApplyPatch patched.result) request.invocation
        (some (diffArtifact path patched.before patched.after)) [])
  | .shellExec command workingDir sandbox => do
      let (result, chunks) ← LocalShellExecutor.exec command workingDir sandbox
      pure (executedTool
        ("Command exited with code " ++ toString result.exitCode ++ underSandbox result.sandbox ++
          ": " ++ result.command)
        (.shellExec result) request.invocation
        (some (commandOutputArtifact result.command result.sandbox (.shellExec result))) chunks)
  | .shellSpawn command workingDir sandbox => do
      let result ← LocalShellExecutor.spawn command workingDir sandbox
      pure (executedTool
        ("Spawned background shell task " ++ result.taskId ++ underSandbox result.sandbox)
        (.shellSpawn result) request.invocation none [])
  | .shellReadOutput taskId => do
      let (result, chunks) ← LocalShellExecutor.readOutput taskId
      pure (executedTool
        ("Read background shell output for " ++ result.taskId ++ underSandbox result.sandbox)
        (.shellReadOutput result) request.invocation none chunks)
  | .shellWait taskId => do
      let (result, chunks) ← LocalShellExecutor.wait taskId
      pure (executedTool
        ("Waited for background shell task " ++ result.taskId ++ underSandbox result.sandbox)
        (.shellWait result) request.invocation
        (some (commandOutputArtifact result.taskId result.sandbox (.shellWait result))) chunks)
  | .shellTerminate taskId => do
      let result ← LocalShellExecutor.terminate taskId
      pure (executedTool
        ("Terminated background shell task " ++ result.taskId ++ underSandbox result.sandbox)
        (.shellTerminate result) request.invocation none [])

end LocalNodeExecutor

namespace NodeExecutorRouter

variable [ShellHost]

/-- Executes a tool request through a node dispatch boundary. -/
def executeTool (request : ToolCallRequest) : ShellM (NodeId × ExecutedTool) := do
  let nodeId := request.nodeId.getD "local"
  if nodeId ≠ "local" then
    throw (.unsupported "remote_node_not_ready" "remote node execution is not available yet")
  else
    let executed ← LocalNodeExecutor.executeTool request
    pure (nodeId, executed)

end NodeExecutorRouter

end Liz
