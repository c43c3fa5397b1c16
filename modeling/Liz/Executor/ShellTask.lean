import Liz.Executor.Shell
import Mathlib.Logic.Function.Basic

/-!
# A background task and its threads

The command of a background task, the two threads that read what it prints, and the thread that asks
about it take their steps in any order. A reader takes the lock of the state after it has read, and
a caller takes it twice: to note that the command has exited, and for its answer.
-/

namespace Liz

/-- The pipe between the command and the reader of one of its streams. -/
structure OutputPipe where
  /-- Everything the command has written. -/
  written : Bytes
  unread : Bytes
  /-- What the reader has read and not stored yet. -/
  inHand : Option ReadChunk
  /-- What the reader has stored, read by read. -/
  stored : List ReadChunk

namespace OutputPipe

def empty : OutputPipe := ⟨[], [], none, []⟩

def write (pipe : OutputPipe) (bytes : Bytes) : OutputPipe :=
  { pipe with written := pipe.written ++ bytes, unread := pipe.unread ++ bytes }

/-- A read of up to so many bytes. It waits while the pipe is empty. -/
def read (pipe : OutputPipe) (count : Nat) : OutputPipe :=
  if h : pipe.inHand = none ∧ pipe.unread ≠ [] ∧ 0 < count ∧ count ≤ 4096 then
    { pipe with
      unread := pipe.unread.drop count
      inHand := some
        { bytes := pipe.unread.take count
          ne_nil := fun hnil => (List.take_eq_nil_iff.mp hnil).elim h.2.2.1.ne' h.2.1
          length_le := (List.length_take_le ..).trans h.2.2.2 } }
  else pipe

def store (pipe : OutputPipe) (chunk : ReadChunk) : OutputPipe :=
  { pipe with inHand := none, stored := pipe.stored ++ [chunk] }

end OutputPipe

/-- Where the thread is that asks about the task. The calls follow each other, since each of them
holds the lock of the tasks. -/
inductive ShellCaller
  | idle
  /-- Until the command exits, or to see whether it has. -/
  | waiting | polling | terminating
  /-- Before the lock of the state is taken for the answer. -/
  | waited | polled
  deriving DecidableEq, Repr

inductive ShellCall
  | wait | readOutput | terminate
  deriving DecidableEq, Repr

def ShellCall.begin : ShellCall → ShellCaller
  | wait => .waiting
  | readOutput => .polling
  | terminate => .terminating

structure BackgroundShellTask where
  taskId : ExecutorTaskId
  /-- The exit status of the command, with its code. -/
  exited : Option (Option Int)
  pipes : ExecutorStream → OutputPipe
  state : BackgroundShellState
  caller : ShellCaller

/-- One step of one of the threads. -/
inductive ShellStep
  | write (stream : ExecutorStream) (bytes : Bytes)
  | exit (code : Option Int)
  | read (stream : ExecutorStream) (count : Nat)
  | store (stream : ExecutorStream)
  | call (call : ShellCall)
  /-- The caller looks at the command, or has waited for it. -/
  | lookAtChild
  /-- The wait for the command fails, and with it the call. -/
  | waitFails
  | answer

namespace BackgroundShellTask

def new (taskId : ExecutorTaskId) (sandbox : EffectiveSandboxRequest) : BackgroundShellTask :=
  { taskId := taskId
    exited := none
    pipes := fun _ => .empty
    state := .new sandbox
    caller := .idle }

def setPipe (task : BackgroundShellTask) (stream : ExecutorStream) (pipe : OutputPipe) :
    BackgroundShellTask :=
  { task with pipes := Function.update task.pipes stream pipe }

/-- The state once the exit status is seen. -/
def noteExit (task : BackgroundShellTask) : BackgroundShellState :=
  match task.exited with
  | some code => { task.state with exitCode := some (code.getD (-1)) }
  | none => task.state

def step (task : BackgroundShellTask) : ShellStep → BackgroundShellTask
  | .write stream bytes =>
      if task.exited.isSome then task else task.setPipe stream ((task.pipes stream).write bytes)
  | .exit code => if task.exited.isSome then task else { task with exited := some code }
  | .read stream count => task.setPipe stream ((task.pipes stream).read count)
  | .store stream =>
      match (task.pipes stream).inHand with
      | none => task
      | some chunk =>
          { task.setPipe stream ((task.pipes stream).store chunk) with
            state := task.state.push stream (Bytes.fromUtf8Lossy chunk.bytes) }
  | .call call => if task.caller = .idle then { task with caller := call.begin } else task
  | .lookAtChild =>
      match task.caller with
      | .polling => { task with state := task.noteExit, caller := .polled }
      -- the other two calls wait for the command
      | .waiting =>
          if task.exited.isSome then { task with state := task.noteExit, caller := .waited } else task
      | .terminating =>
          if task.exited.isSome then { task with state := task.noteExit, caller := .idle } else task
      | _ => task
  | .waitFails =>
      if task.caller = .waiting ∨ task.caller = .terminating then { task with caller := .idle }
      else task
  | .answer =>
      match task.caller with
      | .waited => { task with caller := .idle }
      | .polled =>
          { task with
            caller := .idle
            state := { task.state with
              deliveredStdoutLen := task.state.stdout.utf8ByteSize
              deliveredStderrLen := task.state.stderr.utf8ByteSize } }
      | _ => task

/-- What `shell.wait` answers. -/
def waitResult (task : BackgroundShellTask) : ShellWaitResult :=
  { taskId := task.taskId
    sandbox := task.state.sandbox.toSummary
    running := task.state.exitCode.isNone
    exitCode := task.state.exitCode
    stdout := task.state.stdout
    stderr := task.state.stderr }

/-- What `shell.read_output` answers. -/
def readOutputResult (task : BackgroundShellTask) : ShellReadOutputResult :=
  { taskId := task.taskId
    sandbox := task.state.sandbox.toSummary
    running := task.state.exitCode.isNone
    exitCode := task.state.exitCode
    stdoutDelta := (Bytes.sliceFrom task.state.stdout task.state.deliveredStdoutLen).getD ""
    stderrDelta := (Bytes.sliceFrom task.state.stderr task.state.deliveredStderrLen).getD "" }

end BackgroundShellTask

end Liz
