import Liz.Proof.ShellThreads

/-!
# Output that is asked for piece by piece

Every `shell.read_output` returns what has been captured since the one before. Whatever the threads
of the task do in between, what has been returned is all that had been captured when it was: the
output grows at its end only, and the bytes counted as delivered are those of the pieces returned.
So the next piece starts where the last one ends, on the boundary of a character.
-/

namespace Liz

open Runs

def ShellReadOutputResult.delta (result : ShellReadOutputResult) : ExecutorStream → String
  | .stdout => result.stdoutDelta
  | .stderr => result.stderrDelta

namespace BackgroundShellState

def deliveredLen (state : BackgroundShellState) : ExecutorStream → Nat
  | .stdout => state.deliveredStdoutLen
  | .stderr => state.deliveredStderrLen

/-- The banner stands before the first chunk, where nothing has been delivered yet. -/
theorem text_push (state : BackgroundShellState) (stream : ExecutorStream) (chunk : String) :
    ∃ more, (state.push stream chunk).text stream = state.text stream ++ more := by
  cases stream with
  | stdout =>
      let banner :=
        if state.stdout.isEmpty && !state.sandbox.mode.isUnrestricted then state.sandbox.banner
        else ""
      refine ⟨banner ++ chunk, ?_⟩
      show state.stdout ++ banner ++ chunk = state.stdout ++ (banner ++ chunk)
      rw [String.append_assoc]
  | stderr => exact ⟨chunk, rfl⟩

@[simp] theorem deliveredLen_push (state : BackgroundShellState) (stream other : ExecutorStream)
    (chunk : String) : (state.push stream chunk).deliveredLen other = state.deliveredLen other := by
  cases stream <;> rfl

/-- The output of the later state goes on where that of the earlier one ends, and no more of it has
been delivered. -/
def GrownTo (state later : BackgroundShellState) : Prop :=
  ∀ stream, later.deliveredLen stream = state.deliveredLen stream ∧
    ∃ more, later.text stream = state.text stream ++ more

namespace GrownTo

theorem refl (state : BackgroundShellState) : state.GrownTo state :=
  fun _ => ⟨rfl, "", String.append_empty.symm⟩

theorem push (state : BackgroundShellState) (stream : ExecutorStream) (chunk : String) :
    state.GrownTo (state.push stream chunk) := by
  intro other
  refine ⟨deliveredLen_push .., ?_⟩
  by_cases heq : other = stream
  · subst heq
    exact text_push state other chunk
  · exact ⟨"", by rw [text_push_of_ne heq, String.append_empty]⟩

end GrownTo

end BackgroundShellState

namespace BackgroundShellTask

/-- What a step answers to a `shell.read_output`. -/
def answered (task : BackgroundShellTask) : ShellStep → Option ShellReadOutputResult
  | .answer => if task.caller = .polled then some task.readOutputResult else none
  | _ => none

theorem grownTo_noteExit (task : BackgroundShellTask) : task.state.GrownTo task.noteExit := by
  unfold noteExit
  split
  next =>
    intro stream
    cases stream <;> exact ⟨rfl, "", String.append_empty.symm⟩
  next => exact .refl _

/-- Only an answer to a `shell.read_output` delivers anything. -/
theorem grownTo_step {task : BackgroundShellTask} {action : ShellStep}
    (h : task.answered action = none) : task.state.GrownTo (task.step action).state := by
  have hsame : task.state.GrownTo task.state := .refl _
  cases action with
  | write stream bytes =>
      rw [step]
      split <;> exact hsame
  | exit code =>
      rw [step]
      split <;> exact hsame
  | read stream count => exact hsame
  | store stream =>
      rw [step]
      split
      next => exact hsame
      next chunk _ => exact .push task.state stream (Bytes.fromUtf8Lossy chunk.bytes)
  | call call =>
      rw [step]
      split <;> exact hsame
  | lookAtChild =>
      have hnoted := task.grownTo_noteExit
      rw [step]
      split
      next => exact hnoted
      next => split <;> first | exact hnoted | exact hsame
      next => split <;> first | exact hnoted | exact hsame
      next => exact hsame
  | waitFails =>
      rw [step]
      split <;> exact hsame
  | answer =>
      have hcaller : task.caller ≠ .polled := by
        intro hpolled
        rw [answered, if_pos hpolled] at h
        exact Option.some_ne_none _ h
      rw [step]
      split
      next => exact hsame
      next hpolled => exact absurd hpolled hcaller
      next => exact hsame

theorem answered_eq_some_iff {task : BackgroundShellTask} {action : ShellStep}
    {result : ShellReadOutputResult} :
    task.answered action = some result ↔
      action = .answer ∧ task.caller = .polled ∧ result = task.readOutputResult := by
  cases action <;> simp [answered, eq_comm]

theorem step_answer_of_polled {task : BackgroundShellTask} (h : task.caller = .polled)
    (stream : ExecutorStream) :
    (task.step .answer).state.text stream = task.state.text stream ∧
      (task.step .answer).state.deliveredLen stream = (task.state.text stream).utf8ByteSize := by
  rw [step, h]
  cases stream <;> exact ⟨rfl, rfl⟩

theorem delta_readOutputResult (task : BackgroundShellTask) (stream : ExecutorStream) :
    task.readOutputResult.delta stream =
      (Bytes.sliceFrom (task.state.text stream) (task.state.deliveredLen stream)).getD "" := by
  cases stream <;> rfl

/-- Where the host brings the executor's state of a task to that of the threads, the executor answers
what they answer and keeps what they keep. -/
theorem readOutput_eq [ShellHost] {task : BackgroundShellTask} (hpolled : task.caller = .polled)
    {shell : LocalShellExecutor} {prior state : BackgroundShellState} {progress : TaskProgress}
    (hprior : shell.tasks.lookup task.taskId = some prior)
    (hprogress : ShellHost.progress shell.questions task.taskId = progress)
    (habsorb : prior.absorb progress = state)
    (hstate : task.state = { state with
      exitCode := progress.exited.elim state.exitCode fun code => some (code.getD (-1)) }) :
    Program.wp (LocalShellExecutor.readOutput task.taskId)
      (fun answer later => answer.1 = task.readOutputResult ∧
        later.tasks.lookup task.taskId = some (task.step .answer).state)
      (fun _ _ => False) shell := by
  have hanswer : (task.step .answer).state = { task.state with
      deliveredStdoutLen := task.state.stdout.utf8ByteSize
      deliveredStderrLen := task.state.stderr.utf8ByteSize } := by
    rw [step, hpolled]
  have hquestion : ∀ {Q : Nat → LocalShellExecutor → Prop}
      {E : RuntimeError → LocalShellExecutor → Prop},
      Program.wp LocalShellExecutor.nextQuestion Q E shell ↔
        Q shell.questions { shell with questions := shell.questions + 1 } := Iff.rfl
  simp only [LocalShellExecutor.readOutput, LocalShellExecutor.findTask,
    LocalShellExecutor.keepTask, Program.wp_bind, Program.wp_get, hprior, Program.wp_pure,
    Program.wp_modify, hquestion, hprogress, habsorb]
  rw [AList.lookup_insert, hanswer, readOutputResult, hstate]
  cases progress.exited <;> exact ⟨rfl, rfl⟩

end BackgroundShellTask

/-! ### A task and what has been returned of it -/

/-- A background task with everything that its `shell.read_output` calls have returned so far. -/
structure FollowedTask where
  task : BackgroundShellTask
  returned : List ShellReadOutputResult

namespace FollowedTask

def new (taskId : ExecutorTaskId) (sandbox : EffectiveSandboxRequest) : FollowedTask :=
  { task := .new taskId sandbox, returned := [] }

def step (followed : FollowedTask) (action : ShellStep) : FollowedTask :=
  { task := followed.task.step action
    returned := followed.returned ++ (followed.task.answered action).toList }

def deltas (followed : FollowedTask) (stream : ExecutorStream) : List String :=
  followed.returned.map fun result => result.delta stream

/-- What the pieces of a stream have to do with its output. -/
def Kept (followed : FollowedTask) : Prop :=
  ∀ stream, Bytes.Delivered (followed.task.state.text stream) (followed.deltas stream)
    (followed.task.state.deliveredLen stream)

/-- The pieces of both streams, with those of this answer, are the output that the readers have
stored, and this answer starts on boundaries of characters. -/
def Lossless (followed : FollowedTask) (action : ShellStep) : Prop :=
  (followed.task.answered action).isSome → ∀ stream,
    (String.Pos.Raw.mk (followed.task.state.deliveredLen stream)).IsValid
      (followed.task.state.text stream) ∧
    String.join ((followed.step action).deltas stream) =
      (followed.step action).task.state.text stream ∧
    (followed.step action).task.state.text stream =
      (startReader stream (followed.task.pipes stream).stored
        (.new followed.task.state.sandbox)).text stream

variable {followed : FollowedTask}

theorem Kept.init (taskId : ExecutorTaskId) (sandbox : EffectiveSandboxRequest) :
    (new taskId sandbox).Kept := by
  intro stream
  cases stream <;> exact .none ""

theorem deltas_step_of_answered {action : ShellStep} {result : ShellReadOutputResult}
    (h : followed.task.answered action = some result) (stream : ExecutorStream) :
    (followed.step action).deltas stream = followed.deltas stream ++ [result.delta stream] := by
  rw [deltas, step, h]
  exact List.map_append

theorem deltas_step_of_not_answered {action : ShellStep} (h : followed.task.answered action = none)
    (stream : ExecutorStream) : (followed.step action).deltas stream = followed.deltas stream := by
  rw [deltas, step, h]
  exact congrArg _ (List.append_nil _)

/-- An answer is the rest of the output. -/
theorem Kept.join_deltas (h : followed.Kept) (hpolled : followed.task.caller = .polled)
    (stream : ExecutorStream) :
    String.join ((followed.step .answer).deltas stream) = followed.task.state.text stream := by
  rw [deltas_step_of_answered (BackgroundShellTask.answered_eq_some_iff.mpr ⟨rfl, hpolled, rfl⟩),
    BackgroundShellTask.delta_readOutputResult]
  exact (h stream).join_concat

theorem Kept.step (h : followed.Kept) (action : ShellStep) : (followed.step action).Kept := by
  intro stream
  cases hanswered : followed.task.answered action with
  | none =>
      obtain ⟨hlen, more, htext⟩ := BackgroundShellTask.grownTo_step hanswered stream
      rw [deltas_step_of_not_answered hanswered]
      show Bytes.Delivered ((followed.task.step action).state.text stream) _
        ((followed.task.step action).state.deliveredLen stream)
      rw [hlen, htext]
      exact (h stream).append more
  | some result =>
      obtain ⟨rfl, hpolled, -⟩ := BackgroundShellTask.answered_eq_some_iff.mp hanswered
      obtain ⟨htext, hlen⟩ := BackgroundShellTask.step_answer_of_polled hpolled stream
      show Bytes.Delivered ((followed.task.step .answer).state.text stream) _
        ((followed.task.step .answer).state.deliveredLen stream)
      rw [hlen, htext]
      exact .of_join_eq (h.join_deltas hpolled stream)

theorem Kept.lossless (h : followed.Kept) {sandbox : EffectiveSandboxRequest}
    (hsound : followed.task.Sound sandbox) (action : ShellStep) : followed.Lossless action := by
  intro hsome stream
  obtain ⟨result, hanswered⟩ := Option.isSome_iff_exists.mp hsome
  obtain ⟨rfl, hpolled, -⟩ := BackgroundShellTask.answered_eq_some_iff.mp hanswered
  have htext : (followed.step .answer).task.state.text stream = followed.task.state.text stream :=
    (BackgroundShellTask.step_answer_of_polled hpolled stream).1
  refine ⟨(h stream).isValid, ?_, ?_⟩
  · rw [htext]
    exact h.join_deltas hpolled stream
  · rw [htext, hsound.sandbox_eq]
    exact hsound.shown stream

/-- **Incremental output is lossless**: in every run of the threads of a background task, after each
`shell.read_output` the pieces returned so far make up, for each stream, the output captured so far,
which is what its reader has stored, and each piece starts on the boundary of a character. -/
theorem read_output_lossless (taskId : ExecutorTaskId) (sandbox : EffectiveSandboxRequest)
    (actions : List ShellStep) :
    AllSteps step Lossless (new taskId sandbox) actions := by
  let Inv : FollowedTask → Prop := fun followed => followed.Kept ∧ followed.task.Sound sandbox
  have hstep : ∀ followed action, Inv followed → True → Inv (followed.step action) :=
    fun _ action h _ => ⟨h.1.step action, h.2.step action⟩
  have hlossless : ∀ followed action, Inv followed → True → followed.Lossless action :=
    fun _ action h _ => h.1.lossless h.2 action
  have hinit : Inv (new taskId sandbox) :=
    ⟨Kept.init taskId sandbox, BackgroundShellTask.Sound.init taskId sandbox⟩
  exact allSteps_of_invariant hstep hlossless hinit (allSteps_true _ actions)

end FollowedTask

end Liz
