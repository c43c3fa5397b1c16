import Liz.Protocol.Tools

/-!
# Decoding tool invocations

The decoder the protocol derives for its tool invocations: a tag `tool_name`, the request of that
tool under `input`, and of a request every field that is not an `Option`. What it does not know it
ignores.
-/

namespace Liz

namespace Json

/-- A field without a default. -/
def required {α : Type} (decode : Json → Option α) : Option Json → Option α
  | none => none
  | some value => decode value

mutual

/-- A value as a map holds it: the fields of its objects have different names. -/
def Keyed : Json → Prop
  | array items => KeyedItems items
  | object fields => (fields.map Prod.fst).Nodup ∧ KeyedFields fields
  | _ => True

def KeyedItems : List Json → Prop
  | [] => True
  | item :: rest => Keyed item ∧ KeyedItems rest

def KeyedFields : List (String × Json) → Prop
  | [] => True
  | (_, value) :: rest => Keyed value ∧ KeyedFields rest

end

end Json

def sandboxModeOf (value : Json) : Option SandboxMode := do
  let name ← value.unitVariant
  [SandboxMode.readOnly, .workspaceWrite, .dangerFullAccess, .externalSandbox].find?
    (·.asStr == name)

def sandboxNetworkAccessOf (value : Json) : Option SandboxNetworkAccess := do
  let name ← value.unitVariant
  [SandboxNetworkAccess.disabled, .restricted, .enabled].find? (·.asStr == name)

def decodeShellSandboxRequest (value : Json) : Option ShellSandboxRequest := do
  match ← value.structFields ["mode", "network_access"] with
  | [mode, networkAccess] =>
      some
        { mode := ← Json.required sandboxModeOf mode
          networkAccess := ← Json.required sandboxNetworkAccessOf networkAccess }
  | _ => none

def decodeWorkspaceListRequest (value : Json) : Option ToolInvocation := do
  match ← value.structFields ["root", "recursive", "include_hidden", "max_entries"] with
  | [root, recursive, includeHidden, maxEntries] =>
      some (.workspaceList (← Json.required Json.asStr root)
        (← Json.required Json.asBool recursive)
        (← Json.required Json.asBool includeHidden)
        (← Json.orDefault none (Json.optionally Json.asU64) maxEntries))
  | _ => none

def decodeWorkspaceSearchRequest (value : Json) : Option ToolInvocation := do
  match ← value.structFields ["root", "pattern", "case_sensitive", "include_hidden",
    "max_results"] with
  | [root, pattern, caseSensitive, includeHidden, maxResults] =>
      some (.workspaceSearch (← Json.required Json.asStr root)
        (← Json.required Json.asStr pattern)
        (← Json.required Json.asBool caseSensitive)
        (← Json.required Json.asBool includeHidden)
        (← Json.orDefault none (Json.optionally Json.asU64) maxResults))
  | _ => none

def decodeWorkspaceReadRequest (value : Json) : Option ToolInvocation := do
  match ← value.structFields ["path", "start_line", "end_line"] with
  | [path, startLine, endLine] =>
      some (.workspaceRead (← Json.required Json.asStr path)
        (← Json.orDefault none (Json.optionally Json.asU64) startLine)
        (← Json.orDefault none (Json.optionally Json.asU64) endLine))
  | _ => none

def decodeWorkspaceWriteTextRequest (value : Json) : Option ToolInvocation := do
  match ← value.structFields ["path", "content"] with
  | [path, content] =>
      some (.workspaceWriteText (← Json.required Json.asStr path)
        (← Json.required Json.asStr content))
  | _ => none

def decodeWorkspaceApplyPatchRequest (value : Json) : Option ToolInvocation := do
  match ← value.structFields ["path", "search", "replace", "replace_all"] with
  | [path, search, replace, replaceAll] =>
      some (.workspaceApplyPatch (← Json.required Json.asStr path)
        (← Json.required Json.asStr search)
        (← Json.required Json.asStr replace)
        (← Json.required Json.asBool replaceAll))
  | _ => none

/-- The requests of the two shell tools that start a command. -/
def decodeShellCommandRequest
    (invocation : String → Option String → Option ShellSandboxRequest → ToolInvocation)
    (value : Json) : Option ToolInvocation := do
  match ← value.structFields ["command", "working_dir", "sandbox"] with
  | [command, workingDir, sandbox] =>
      some (invocation (← Json.required Json.asStr command)
        (← Json.orDefault none (Json.optionally Json.asStr) workingDir)
        (← Json.orDefault none (Json.optionally decodeShellSandboxRequest) sandbox))
  | _ => none

/-- The requests of the three shell tools that name a task. -/
def decodeShellTaskRequest (invocation : ExecutorTaskId → ToolInvocation) (value : Json) :
    Option ToolInvocation := do
  match ← value.structFields ["task_id"] with
  | [taskId] => some (invocation (← Json.required Json.asStr taskId))
  | _ => none

def ToolName.decodeRequest : ToolName → Json → Option ToolInvocation
  | .workspaceList => decodeWorkspaceListRequest
  | .workspaceSearch => decodeWorkspaceSearchRequest
  | .workspaceRead => decodeWorkspaceReadRequest
  | .workspaceWriteText => decodeWorkspaceWriteTextRequest
  | .workspaceApplyPatch => decodeWorkspaceApplyPatchRequest
  | .shellExec => decodeShellCommandRequest .shellExec
  | .shellSpawn => decodeShellCommandRequest .shellSpawn
  | .shellWait => decodeShellTaskRequest .shellWait
  | .shellReadOutput => decodeShellTaskRequest .shellReadOutput
  | .shellTerminate => decodeShellTaskRequest .shellTerminate

def ToolName.ofStr? (name : String) : Option ToolName :=
  [ToolName.workspaceList, .workspaceSearch, .workspaceRead, .workspaceWriteText,
    .workspaceApplyPatch, .shellExec, .shellSpawn, .shellWait, .shellReadOutput,
    .shellTerminate].find? (·.asStr == name)

def decodeToolInvocation (value : Json) : Option ToolInvocation := do
  match ← value.structFields ["tool_name", "input"] with
  | [tag, input] =>
      let tool ← Json.required (fun tag => tag.unitVariant.bind ToolName.ofStr?) tag
      Json.required tool.decodeRequest input
  | _ => none

/-! ### Reading a model's tool call

The arguments of a tool call are whatever JSON the model wrote. A missing required field or an
unknown tool is an error with a text; a missing or ill-typed optional field counts as absent.
-/

def requiredStringField (value : Json) (field : String) : Except String String :=
  match (value.get? field).bind Json.asStr with
  | some text => .ok text
  | none => .error ("missing required string field `" ++ field ++ "`")

def optionalStringField (value : Json) (field : String) : Option String :=
  (value.get? field).bind Json.asStr

def optionalBoolField (value : Json) (field : String) : Option Bool :=
  (value.get? field).bind Json.asBool

/-- A `usize` holds every `u64`. -/
def optionalUsizeField (value : Json) (field : String) : Option Nat :=
  (value.get? field).bind Json.asU64

/-- A sandbox that does not parse counts as none. -/
def parseShellSandboxRequest (value : Option Json) : Option ShellSandboxRequest := do
  let value ← value
  let mode ← sandboxModeOf (← value.get? "mode")
  let networkAccess ← sandboxNetworkAccessOf (← value.get? "network_access")
  some { mode := mode, networkAccess := networkAccess }

def parseToolInvocation (toolName : String) (value : Json) : Except String ToolInvocation :=
  match toolName with
  | "workspace.list" => do
      pure (.workspaceList (← requiredStringField value "root")
        ((optionalBoolField value "recursive").getD false)
        ((optionalBoolField value "include_hidden").getD false)
        (optionalUsizeField value "max_entries"))
  | "workspace.search" => do
      pure (.workspaceSearch (← requiredStringField value "root")
        (← requiredStringField value "pattern")
        ((optionalBoolField value "case_sensitive").getD false)
        ((optionalBoolField value "include_hidden").getD false)
        (optionalUsizeField value "max_results"))
  | "workspace.read" => do
      pure (.workspaceRead (← requiredStringField value "path")
        (optionalUsizeField value "start_line")
        (optionalUsizeField value "end_line"))
  | "workspace.write_text" => do
      pure (.workspaceWriteText (← requiredStringField value "path")
        (← requiredStringField value "content"))
  | "workspace.apply_patch" => do
      pure (.workspaceApplyPatch (← requiredStringField value "path")
        (← requiredStringField value "search")
        (← requiredStringField value "replace")
        ((optionalBoolField value "replace_all").getD false))
  | "shell.exec" => do
      pure (.shellExec (← requiredStringField value "command")
        (optionalStringField value "working_dir")
        (parseShellSandboxRequest (value.get? "sandbox")))
  | "shell.spawn" => do
      pure (.shellSpawn (← requiredStringField value "command")
        (optionalStringField value "working_dir")
        (parseShellSandboxRequest (value.get? "sandbox")))
  | "shell.wait" => do pure (.shellWait (← requiredStringField value "task_id"))
  | "shell.read_output" => do pure (.shellReadOutput (← requiredStringField value "task_id"))
  | "shell.terminate" => do pure (.shellTerminate (← requiredStringField value "task_id"))
  | _ => .error ("unknown tool name: " ++ toolName)

example : parseToolInvocation "shell.exec" (.object [("command", .string "ls")]) =
    .ok (.shellExec "ls" none none) := rfl

end Liz
