import Liz.Base.Decoding
import Liz.Base.FileAccess
import Liz.Protocol.ToolOutputs
import Liz.Runtime.Basic
import Liz.Runtime.Ids

/-!
# Shell tools

Commands in the foreground and in the background, with the sandbox that is planned for them. The
processes themselves are outside: what a command prints and changes, and how a background task gets
on, is what the host says. A command starts in the working directory of its request, or in that of
the server.
-/

namespace Liz

open Paths FileTree Program

/-! ### Sandboxes -/

inductive PlatformSandboxBackend
  | none | macosSeatbelt | linuxHelper | windowsRestrictedToken | windowsSandboxUser
  deriving DecidableEq, Repr

namespace PlatformSandboxBackend

def toProtocol : PlatformSandboxBackend → SandboxBackendKind
  | none => .none
  | macosSeatbelt => .macosSeatbelt
  | linuxHelper => .linuxHelper
  | windowsRestrictedToken => .windowsRestrictedToken
  | windowsSandboxUser => .windowsSandboxUser

def asStr (backend : PlatformSandboxBackend) : String := backend.toProtocol.asStr

end PlatformSandboxBackend

inductive WindowsSandboxBackend
  | restrictedToken | sandboxUser
  deriving DecidableEq, Repr

inductive LinuxSandboxVariant
  | helper | legacyLandlock
  deriving DecidableEq, Repr

inductive Platform
  | macos | linux | windows | other
  deriving DecidableEq, Repr

structure SandboxConfig where
  defaultMode : SandboxMode
  defaultNetworkAccess : SandboxNetworkAccess
  windowsBackend : WindowsSandboxBackend
  linuxVariant : LinuxSandboxVariant
  deriving DecidableEq, Repr

structure EffectiveSandboxRequest where
  mode : SandboxMode
  networkAccess : SandboxNetworkAccess
  backend : PlatformSandboxBackend
  request : Option ShellSandboxRequest
  deriving DecidableEq, Repr

def SandboxMode.isUnrestricted (mode : SandboxMode) : Bool :=
  mode == .dangerFullAccess || mode == .externalSandbox

/-- What a command is started with. -/
structure ShellCommand where
  program : String
  arguments : List String
  currentDir : Location
  deriving DecidableEq, Repr

structure ProcessOutput where
  exitCode : Option Int
  stdout : Bytes
  stderr : Bytes
  /-- The files as the command leaves them. -/
  tree : Tree

/-- What one read of a pipe brings: at least a byte, and no more than the buffer holds. -/
structure ReadChunk where
  bytes : Bytes
  ne_nil : bytes ≠ []
  length_le : bytes.length ≤ 4096
  deriving DecidableEq

/-- What has come from a background task since it was last asked. -/
structure TaskProgress where
  stdout : List ReadChunk
  stderr : List ReadChunk
  /-- The exit status, with its code. -/
  exited : Option (Option Int)

/-- Everything outside that a shell command meets. Whatever is asked carries the number of questions
before it. -/
class ShellHost where
  platform : Platform
  now : Nat → Nat
  /-- The helper of a backend, from the environment or the search path. -/
  helperPath : PlatformSandboxBackend → Option String
  output : Nat → ShellCommand → Tree → Except String ProcessOutput
  spawn : Nat → ShellCommand → Tree → Except String Unit
  progress : Nat → ExecutorTaskId → TaskProgress
  wait : Nat → ExecutorTaskId → Except String (Option Int)

namespace SandboxConfig

variable [ShellHost]

def selectBackend (config : SandboxConfig) (mode : SandboxMode) : PlatformSandboxBackend :=
  if mode.isUnrestricted then .none
  else
    match ShellHost.platform with
    | .macos => .macosSeatbelt
    | .linux => .linuxHelper
    | .windows =>
        match config.windowsBackend with
        | .restrictedToken => .windowsRestrictedToken
        | .sandboxUser => .windowsSandboxUser
    | .other => .none

/-- The sandbox of a command: that of its request, or the default. -/
def resolveRequest (config : SandboxConfig) (request : Option ShellSandboxRequest) :
    EffectiveSandboxRequest :=
  let mode := (request.map ShellSandboxRequest.mode).getD config.defaultMode
  { mode := mode
    networkAccess := (request.map ShellSandboxRequest.networkAccess).getD config.defaultNetworkAccess
    backend := config.selectBackend mode
    request := request }

end SandboxConfig

namespace EffectiveSandboxRequest

def ensureSupported (sandbox : EffectiveSandboxRequest) : Except RuntimeError Unit :=
  if !sandbox.mode.isUnrestricted && sandbox.backend == .none then
    .error (.invalidState "sandbox_backend_unavailable" ("sandbox mode " ++ sandbox.mode.asStr ++
      " is enabled but no platform backend is available"))
  else .ok ()

def toSummary (sandbox : EffectiveSandboxRequest) : ShellSandboxSummary :=
  { mode := sandbox.mode
    networkAccess := sandbox.networkAccess
    backend := sandbox.backend.toProtocol }

def banner (sandbox : EffectiveSandboxRequest) : String :=
  "[sandbox mode=" ++ sandbox.mode.asStr ++ " backend=" ++ sandbox.backend.asStr ++ " network=" ++
    sandbox.networkAccess.asStr ++ "]\n"

end EffectiveSandboxRequest

/-! ### Commands -/

section Commands

variable [ShellHost]

def directShellCommand (command : String) : String × List String :=
  if ShellHost.platform = .windows then ("powershell", ["-NoProfile", "-Command", command])
  else ("sh", ["-lc", command])

def helperPathForBackend (backend : PlatformSandboxBackend) : Except RuntimeError String :=
  let required := fun variableName code description =>
    match ShellHost.helperPath backend with
    | some path => .ok path
    | none => .error (.invalidState code (description ++ " is required in " ++ variableName ++
        " or on the default helper search path"))
  match backend with
  | .linuxHelper =>
      required "LIZ_LINUX_SANDBOX_HELPER" "linux_sandbox_helper_missing" "Linux sandbox helper"
  | .windowsRestrictedToken =>
      required "LIZ_WINDOWS_RESTRICTED_TOKEN_HELPER" "windows_restricted_token_helper_missing"
        "Windows restricted-token sandbox helper"
  | .windowsSandboxUser =>
      required "LIZ_WINDOWS_SANDBOX_USER_HELPER" "windows_sandbox_user_helper_missing"
        "Windows sandbox-user helper"
  | .macosSeatbelt | .none => .error (.invalidState "sandbox_backend_helper_not_applicable"
      "helper path lookup is not applicable to this backend")

def helperArguments (workingDir : Option String) (sandbox : EffectiveSandboxRequest) :
    List String :=
  ["--sandbox-mode", sandbox.mode.asStr, "--network-access", sandbox.networkAccess.asStr] ++
    match workingDir with
    | some workingDir => ["--working-dir", workingDir]
    | none => []

def buildMacosPolicy (workingDir : Option String) (mode : SandboxMode)
    (networkAccess : SandboxNetworkAccess) : String :=
  let workspaceRoot := workingDir.getD "."
  let fileWritePolicy :=
    if mode = .workspaceWrite then "(allow file-write* (subpath \"" ++ workspaceRoot ++ "\"))\n"
    else ""
  let networkPolicy := match networkAccess with
    | .disabled => ""
    | .restricted => "(allow network-outbound (remote ip \"localhost:*\"))\n"
    | .enabled => "(allow network-outbound)\n(allow network-inbound)\n"
  "(version 1)\n(deny default)\n(allow process*)\n(allow signal (target self))\n" ++
    "(allow file-read*)\n" ++ fileWritePolicy ++ networkPolicy

def sandboxedShellCommand (command : String) (workingDir : Option String)
    (sandbox : EffectiveSandboxRequest) (config : SandboxConfig) :
    Except RuntimeError (String × List String) :=
  match sandbox.backend with
  | .macosSeatbelt => .ok ("/usr/bin/sandbox-exec",
      ["-p", buildMacosPolicy workingDir sandbox.mode sandbox.networkAccess, "--", "sh", "-lc",
        command])
  | .linuxHelper => do
      let helper ← helperPathForBackend .linuxHelper
      pure (helper, helperArguments workingDir sandbox ++
        (if config.linuxVariant = .legacyLandlock then ["--use-legacy-landlock"] else []) ++
        ["--", "sh", "-lc", command])
  | .none => .error (.invalidState "sandbox_backend_unavailable"
      "sandbox mode requires a platform backend")
  | backend => do
      let helper ← helperPathForBackend backend
      pure (helper, helperArguments workingDir sandbox ++
        ["--", "powershell", "-NoProfile", "-Command", command])

def buildShellCommand (command : String) (workingDir : Option String)
    (sandbox : EffectiveSandboxRequest) (config : SandboxConfig) :
    Except RuntimeError (String × List String) :=
  if sandbox.mode.isUnrestricted then .ok (directShellCommand command)
  else sandboxedShellCommand command workingDir sandbox config

end Commands

/-! ### The executor -/

structure BackgroundShellState where
  stdout : String
  stderr : String
  /-- How many bytes have been delivered. -/
  deliveredStdoutLen : Nat
  deliveredStderrLen : Nat
  exitCode : Option Int
  sandbox : EffectiveSandboxRequest
  deriving DecidableEq, Repr

def BackgroundShellState.new (sandbox : EffectiveSandboxRequest) : BackgroundShellState :=
  { stdout := ""
    stderr := ""
    deliveredStdoutLen := 0
    deliveredStderrLen := 0
    exitCode := none
    sandbox := sandbox }

/-- What the reader of a stream does with a chunk: the banner goes before the first one on the
standard output. -/
def BackgroundShellState.push (state : BackgroundShellState) :
    ExecutorStream → String → BackgroundShellState
  | .stdout, chunk =>
      let banner :=
        if state.stdout.isEmpty && !state.sandbox.mode.isUnrestricted then state.sandbox.banner
        else ""
      { state with stdout := state.stdout ++ banner ++ chunk }
  | .stderr, chunk => { state with stderr := state.stderr ++ chunk }

/-- The state after the reads of a stream. -/
def startReader (stream : ExecutorStream) (reads : List ReadChunk) (state : BackgroundShellState) :
    BackgroundShellState :=
  reads.foldl (fun state read => state.push stream (Bytes.fromUtf8Lossy read.bytes)) state

/-- The state with the output that has come in the meantime. -/
def BackgroundShellState.absorb (state : BackgroundShellState) (progress : TaskProgress) :
    BackgroundShellState :=
  startReader .stderr progress.stderr (startReader .stdout progress.stdout state)

structure LocalShellExecutor where
  session : Session
  tasks : Table ExecutorTaskId BackgroundShellState
  sequence : Nat
  sandbox : SandboxConfig
  /-- How often the host has been asked. -/
  questions : Nat

def outputChunks (stdout stderr : String) : List ExecutorOutput :=
  (if stdout.isEmpty then [] else [⟨.stdout, stdout⟩]) ++
    (if stderr.isEmpty then [] else [⟨.stderr, stderr⟩])

def decorateStdout (sandbox : EffectiveSandboxRequest) (stdout : String) : String :=
  if sandbox.mode.isUnrestricted then stdout else sandbox.banner ++ stdout

abbrev ShellM := EStateM RuntimeError LocalShellExecutor

namespace LocalShellExecutor

def sessionPart : Part LocalShellExecutor Session where
  get := LocalShellExecutor.session
  set session shell := { shell with session := session }
  get_set _ _ := rfl
  set_get _ := rfl

/-- The number of the next question to the host. -/
def nextQuestion : ShellM Nat := fun shell =>
  .ok shell.questions { shell with questions := shell.questions + 1 }

def ofExcept {α : Type} : Except RuntimeError α → ShellM α
  | .ok value => pure value
  | .error error => throw error

section

variable [ShellHost]

/-- The effective sandbox and what the command is started with. -/
def prepareShellCommand (code doing command : String) (workingDir : Option String)
    (sandbox : Option ShellSandboxRequest) : ShellM (EffectiveSandboxRequest × ShellCommand) := do
  let config := (← get).sandbox
  let sandbox := config.resolveRequest sandbox
  ofExcept sandbox.ensureSupported
  let (program, arguments) ← ofExcept (buildShellCommand command workingDir sandbox config)
  -- the process changes to its working directory when it is started
  let currentDir ← zoom sessionPart (EStateM.adaptExcept
    (fun fault => RuntimeError.invalidState code (doing ++ fault.text)) (enterDir workingDir))
  pure (sandbox, { program := program, arguments := arguments, currentDir := currentDir })

/-- Executes one shell command and waits for it to finish. -/
def exec (command : String) (workingDir : Option String) (sandbox : Option ShellSandboxRequest) :
    ShellM (ShellExecResult × List ExecutorOutput) := do
  let (sandbox, prepared) ← prepareShellCommand "shell_exec_failed"
    "failed to execute shell command: " command workingDir sandbox
  let question ← nextQuestion
  match ShellHost.output question prepared (← get).session.tree with
  | .error error =>
      throw (.invalidState "shell_exec_failed" ("failed to execute shell command: " ++ error))
  | .ok output => do
      modify fun shell => { shell with session := { shell.session with tree := output.tree } }
      let stdout := decorateStdout sandbox (Bytes.fromUtf8Lossy output.stdout)
      let stderr := Bytes.fromUtf8Lossy output.stderr
      pure
        ({ command := command
           workingDir := workingDir
           sandbox := sandbox.toSummary
           exitCode := output.exitCode.getD (-1)
           stdout := stdout
           stderr := stderr }, outputChunks stdout stderr)

/-- Starts a shell command in the background. -/
def spawn (command : String) (workingDir : Option String) (sandbox : Option ShellSandboxRequest) :
    ShellM ShellSpawnResult := do
  let (sandbox, prepared) ← prepareShellCommand "shell_spawn_failed"
    "failed to spawn shell command: " command workingDir sandbox
  let question ← nextQuestion
  match ShellHost.spawn question prepared (← get).session.tree with
  | .error error =>
      throw (.invalidState "shell_spawn_failed" ("failed to spawn shell command: " ++ error))
  | .ok () => do
      let shell ← get
      let taskId := IdGenerator.format "executor" (ShellHost.now question) (shell.sequence + 1)
      set { shell with
        sequence := shell.sequence + 1
        tasks := shell.tasks.insert taskId (.new sandbox) }
      pure
        { taskId := taskId
          command := command
          workingDir := workingDir
          sandbox := sandbox.toSummary }

def findTask (taskId : ExecutorTaskId) : ShellM BackgroundShellState := do
  match (← get).tasks.lookup taskId with
  | none =>
      throw (.notFound "shell_task_not_found" "background shell task does not exist")
  | some state => pure state

def keepTask (taskId : ExecutorTaskId) (state : BackgroundShellState) : ShellM Unit :=
  modify fun shell => { shell with tasks := shell.tasks.insert taskId state }

/-- Reads newly captured output from a background shell task. -/
def readOutput (taskId : ExecutorTaskId) :
    ShellM (ShellReadOutputResult × List ExecutorOutput) := do
  let state ← findTask taskId
  let progress := ShellHost.progress (← nextQuestion) taskId
  let state := state.absorb progress
  let exitCode := match progress.exited with
    | some code => some (code.getD (-1))
    | none => state.exitCode
  -- a slice that starts within a character panics
  let stdoutDelta := (Bytes.sliceFrom state.stdout state.deliveredStdoutLen).getD ""
  let stderrDelta := (Bytes.sliceFrom state.stderr state.deliveredStderrLen).getD ""
  keepTask taskId { state with
    deliveredStdoutLen := state.stdout.utf8ByteSize
    deliveredStderrLen := state.stderr.utf8ByteSize
    exitCode := exitCode }
  pure
    ({ taskId := taskId
       sandbox := state.sandbox.toSummary
       running := exitCode.isNone
       exitCode := exitCode
       stdoutDelta := stdoutDelta
       stderrDelta := stderrDelta }, outputChunks stdoutDelta stderrDelta)

def waitForExitCode (taskId : ExecutorTaskId) : ShellM (Option Int) := do
  match ShellHost.wait (← nextQuestion) taskId with
  | .error error =>
      throw (.invalidState "shell_wait_failed"
        ("failed while waiting for shell command: " ++ error))
  | .ok code => pure (some (code.getD (-1)))

/-- Waits for a background shell task to finish. -/
def wait (taskId : ExecutorTaskId) : ShellM (ShellWaitResult × List ExecutorOutput) := do
  let state ← findTask taskId
  let exitCode ← waitForExitCode taskId
  let state := state.absorb (ShellHost.progress (← nextQuestion) taskId)
  let exitCode := exitCode.or state.exitCode
  keepTask taskId { state with exitCode := exitCode }
  pure
    ({ taskId := taskId
       sandbox := state.sandbox.toSummary
       running := exitCode.isNone
       exitCode := exitCode
       stdout := state.stdout
       stderr := state.stderr }, outputChunks state.stdout state.stderr)

/-- Terminates a background shell task. -/
def terminate (taskId : ExecutorTaskId) : ShellM ShellTerminateResult := do
  let state ← findTask taskId
  let exitCode ← waitForExitCode taskId
  let exitCode := exitCode.or state.exitCode
  keepTask taskId { state with exitCode := exitCode }
  pure
    { taskId := taskId
      sandbox := state.sandbox.toSummary
      terminated := true
      exitCode := exitCode }

end

end LocalShellExecutor

end Liz
