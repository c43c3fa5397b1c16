import Liz.Base.Runs
import Liz.Executor.ShellTask
import Liz.Proof.BackgroundOutput

/-!
# What a background task answers

A caller learns that the command has exited without learning that its output has been read. What it
is answered is everything the command has printed exactly when nothing was on its way at that
moment, neither in a pipe nor with a reader.
-/

namespace Liz

open Runs

namespace BackgroundShellState

def text (state : BackgroundShellState) : ExecutorStream → String
  | .stdout => state.stdout
  | .stderr => state.stderr

/-- What is stored on a stream makes its text longer. -/
theorem text_push_ne (state : BackgroundShellState) (stream : ExecutorStream) (chunk : ReadChunk) :
    (state.push stream (Bytes.fromUtf8Lossy chunk.bytes)).text stream ≠ state.text stream := by
  have hchunk := Bytes.decode_ne_nil chunk.ne_nil
  intro heq
  rw [← String.toList_inj] at heq
  cases stream with
  | stdout =>
      have hpush := toList_push state chunk.bytes
      rw [show (state.push .stdout _).stdout.toList = state.stdout.toList from heq] at hpush
      exact hchunk (List.append_eq_nil_iff.mp (List.self_eq_append_right.mp hpush)).2
  | stderr =>
      change (state.stderr ++ Bytes.fromUtf8Lossy chunk.bytes).toList = state.stderr.toList at heq
      rw [String.toList_append, Bytes.fromUtf8Lossy, String.toList_ofList] at heq
      exact hchunk (List.append_right_eq_self.mp heq)

@[simp] theorem text_push_of_ne {stream other : ExecutorStream} (h : other ≠ stream)
    (state : BackgroundShellState) (chunk : String) :
    (state.push stream chunk).text other = state.text other := by
  cases stream <;> cases other <;> first | rfl | exact absurd rfl h

@[simp] theorem sandbox_push (state : BackgroundShellState) (stream : ExecutorStream)
    (chunk : String) : (state.push stream chunk).sandbox = state.sandbox := by
  cases stream <;> rfl

@[simp] theorem exitCode_push (state : BackgroundShellState) (stream : ExecutorStream)
    (chunk : String) : (state.push stream chunk).exitCode = state.exitCode := by
  cases stream <;> rfl

/-- What a chunk makes of a text depends on the text and the sandbox. -/
theorem text_push_congr {state state' : BackgroundShellState} {stream : ExecutorStream}
    (htext : state.text stream = state'.text stream) (hsandbox : state.sandbox = state'.sandbox)
    (chunk : String) : (state.push stream chunk).text stream = (state'.push stream chunk).text stream := by
  cases stream with
  | stdout =>
      change state.stdout = state'.stdout at htext
      show (state.push .stdout chunk).stdout = (state'.push .stdout chunk).stdout
      rw [push, push, htext, hsandbox]
  | stderr => exact congrArg (· ++ chunk) htext

end BackgroundShellState

namespace OutputPipe

/-- Nothing is on its way to the state. -/
def Drained (pipe : OutputPipe) : Prop := pipe.unread = [] ∧ pipe.inHand = none

/-- No byte is lost: what was written is stored, with the reader or in the pipe. -/
def Accounted (pipe : OutputPipe) : Prop :=
  pipe.written = bytesOf pipe.stored ++ bytesOf pipe.inHand.toList ++ pipe.unread

theorem Accounted.write {pipe : OutputPipe} (h : pipe.Accounted) (bytes : Bytes) :
    (pipe.write bytes).Accounted := by
  show pipe.written ++ bytes = _ ++ (pipe.unread ++ bytes)
  rw [h, List.append_assoc]
  rfl

@[simp] theorem stored_read (pipe : OutputPipe) (count : Nat) :
    (pipe.read count).stored = pipe.stored := by
  unfold read
  split <;> rfl

theorem Accounted.read {pipe : OutputPipe} (h : pipe.Accounted) (count : Nat) :
    (pipe.read count).Accounted := by
  unfold OutputPipe.read
  split
  next hread =>
    show pipe.written = bytesOf pipe.stored ++ (pipe.unread.take count ++ []) ++
      pipe.unread.drop count
    rw [h, hread.1, List.append_nil, List.append_assoc, List.append_assoc, List.take_append_drop]
    rfl
  next => exact h

theorem Accounted.store {pipe : OutputPipe} (h : pipe.Accounted) {chunk : ReadChunk}
    (hchunk : pipe.inHand = some chunk) : (pipe.store chunk).Accounted := by
  show pipe.written = bytesOf (pipe.stored ++ [chunk]) ++ [] ++ pipe.unread
  rw [h, hchunk, bytesOf_append, List.append_nil]
  rfl

/-- Everything is stored exactly when nothing is on its way. -/
theorem Accounted.stored_eq_iff {pipe : OutputPipe} (h : pipe.Accounted) :
    bytesOf pipe.stored = pipe.written ↔ pipe.Drained := by
  rw [h, List.append_assoc, List.self_eq_append_right, List.append_eq_nil_iff, bytesOf_eq_nil_iff,
    Option.toList_eq_nil_iff]
  exact and_comm

end OutputPipe

theorem sandbox_startReader (stream : ExecutorStream) (reads : List ReadChunk)
    (state : BackgroundShellState) : (startReader stream reads state).sandbox = state.sandbox := by
  induction reads generalizing state with
  | nil => rfl
  | cons read others ih => exact (ih _).trans (BackgroundShellState.sandbox_push ..)

theorem startReader_concat (stream : ExecutorStream) (reads : List ReadChunk) (chunk : ReadChunk)
    (state : BackgroundShellState) :
    startReader stream (reads ++ [chunk]) state =
      (startReader stream reads state).push stream (Bytes.fromUtf8Lossy chunk.bytes) :=
  List.foldl_append

namespace BackgroundShellTask

/-- Nothing that the command has printed is on its way. -/
def Drained (task : BackgroundShellTask) : Prop := ∀ stream, (task.pipes stream).Drained

/-- What holds of a task whatever its threads do. -/
structure Sound (sandbox : EffectiveSandboxRequest) (task : BackgroundShellTask) : Prop where
  accounted : ∀ stream, (task.pipes stream).Accounted
  shown : ∀ stream, task.state.text stream =
    (startReader stream (task.pipes stream).stored (.new sandbox)).text stream
  sandbox_eq : task.state.sandbox = sandbox
  seen : ∀ number, task.state.exitCode = some number →
    task.exited.map (fun code => code.getD (-1)) = some number
  waited : task.caller = .waited → task.state.exitCode.isSome

variable {sandbox : EffectiveSandboxRequest} {task : BackgroundShellTask}

theorem Sound.init (taskId : ExecutorTaskId) (sandbox : EffectiveSandboxRequest) :
    (new taskId sandbox).Sound sandbox where
  accounted _ := rfl
  shown _ := rfl
  sandbox_eq := rfl
  seen _ h := nomatch h
  waited h := nomatch h

theorem Sound.exited (h : task.Sound sandbox) (hcode : task.state.exitCode.isSome) :
    task.exited.isSome := by
  obtain ⟨number, hnumber⟩ := Option.isSome_iff_exists.mp hcode
  obtain ⟨code, hexited, -⟩ := Option.map_eq_some_iff.mp (h.seen number hnumber)
  exact Option.isSome_iff_exists.mpr ⟨code, hexited⟩

/-- A pipe that has the same in store. -/
theorem Sound.setPipe (h : task.Sound sandbox) {stream : ExecutorStream} {pipe : OutputPipe}
    (haccounted : pipe.Accounted) (hstored : pipe.stored = (task.pipes stream).stored) :
    (task.setPipe stream pipe).Sound sandbox := by
  refine { h with accounted := fun other => ?_, shown := fun other => ?_ }
  all_goals
    by_cases heq : other = stream
    · subst heq
      simp only [BackgroundShellTask.setPipe, Function.update_self]
      first | exact haccounted | exact hstored ▸ h.shown other
    · simp only [BackgroundShellTask.setPipe, Function.update_of_ne heq]
      first | exact h.accounted other | exact h.shown other

theorem Sound.store (h : task.Sound sandbox) {stream : ExecutorStream} {chunk : ReadChunk}
    (hchunk : (task.pipes stream).inHand = some chunk) :
    Sound sandbox { task.setPipe stream ((task.pipes stream).store chunk) with
      state := task.state.push stream (Bytes.fromUtf8Lossy chunk.bytes) } where
  accounted other := by
    by_cases heq : other = stream
    · subst heq
      simpa only [BackgroundShellTask.setPipe, Function.update_self] using
        (h.accounted other).store hchunk
    · simpa only [BackgroundShellTask.setPipe, Function.update_of_ne heq] using h.accounted other
  shown other := by
    by_cases heq : other = stream
    · subst heq
      have hsandbox : task.state.sandbox =
          (startReader other (task.pipes other).stored (.new sandbox)).sandbox := by
        rw [h.sandbox_eq, sandbox_startReader]
        rfl
      simp only [BackgroundShellTask.setPipe, Function.update_self, OutputPipe.store]
      rw [startReader_concat]
      exact BackgroundShellState.text_push_congr (h.shown other) hsandbox _
    · simp only [BackgroundShellTask.setPipe, Function.update_of_ne heq]
      exact (BackgroundShellState.text_push_of_ne heq _ _).trans (h.shown other)
  sandbox_eq := (BackgroundShellState.sandbox_push ..).trans h.sandbox_eq
  seen number hcode := h.seen number (by rwa [BackgroundShellState.exitCode_push] at hcode)
  waited hcaller := by
    show (task.state.push stream _).exitCode.isSome
    rw [BackgroundShellState.exitCode_push]
    exact h.waited hcaller

/-- A caller has seen whether the command has exited. -/
theorem Sound.noteExit (h : task.Sound sandbox) {caller : ShellCaller}
    (hcaller : caller = .waited → task.exited.isSome) :
    Sound sandbox { task with state := task.noteExit, caller := caller } := by
  unfold BackgroundShellTask.noteExit
  split
  next code hexited =>
    refine { h with shown := fun stream => ?_, seen := fun number hnumber => ?_,
                    waited := fun _ => rfl }
    · exact .trans (by cases stream <;> rfl) (h.shown stream)
    · rw [hexited]
      exact hnumber
  next hexited =>
    refine { h with waited := fun hwaited => ?_ }
    exact absurd (hcaller hwaited) (by rw [hexited]; exact Bool.false_ne_true)

theorem Sound.step (h : task.Sound sandbox) (action : ShellStep) :
    (task.step action).Sound sandbox := by
  cases action with
  | write stream bytes =>
      show Sound sandbox (if task.exited.isSome then task else _)
      split
      next => exact h
      next => exact h.setPipe ((h.accounted stream).write bytes) rfl
  | exit code =>
      show Sound sandbox (if task.exited.isSome then task else _)
      split
      next => exact h
      next hrunning =>
        exact { h with seen := fun number hnumber => absurd (h.exited (hnumber ▸ rfl)) hrunning }
  | read stream count =>
      exact h.setPipe ((h.accounted stream).read count) (OutputPipe.stored_read _ count)
  | store stream =>
      rw [BackgroundShellTask.step]
      split
      next => exact h
      next chunk hchunk => exact h.store hchunk
  | call call =>
      show Sound sandbox (if task.caller = .idle then _ else task)
      split
      next => exact { h with waited := fun hcall => by cases call <;> exact nomatch hcall }
      next => exact h
  | lookAtChild =>
      rw [BackgroundShellTask.step]
      split
      next => exact h.noteExit nofun
      next =>
        split
        next hexited => exact h.noteExit fun _ => hexited
        next => exact h
      next =>
        split
        next => exact h.noteExit nofun
        next => exact h
      next => exact h
  | waitFails =>
      show Sound sandbox (if _ then { task with caller := .idle } else task)
      split
      next => exact { h with waited := nofun }
      next => exact h
  | answer =>
      rw [BackgroundShellTask.step]
      split
      next => exact { h with waited := nofun }
      next =>
        exact { h with
          shown := fun stream => .trans (by cases stream <;> rfl) (h.shown stream)
          waited := nofun }
      next => exact h

/-! ### What is on its way -/

/-- Once the command has exited and nothing is on its way, no step adds to the output. -/
theorem drained_step (h : task.Drained) (hexited : task.exited.isSome) (action : ShellStep) :
    (task.step action).Drained ∧ (task.step action).exited.isSome ∧
      ∀ stream, (task.step action).state.text stream = task.state.text stream := by
  have hsame : task.Drained ∧ task.exited.isSome ∧
      ∀ stream, task.state.text stream = task.state.text stream := ⟨h, hexited, fun _ => rfl⟩
  cases action with
  | write stream bytes => rwa [step, if_pos hexited]
  | exit code => rwa [step, if_pos hexited]
  | read stream count =>
      have hread : (task.pipes stream).read count = task.pipes stream :=
        dif_neg fun hread => hread.2.1 (h stream).1
      rw [step, hread, setPipe, Function.update_eq_self]
      exact hsame
  | store stream =>
      have hnone := (h stream).2
      rw [step]
      split
      next => exact hsame
      next chunk hchunk => exact absurd (hnone.symm.trans hchunk) nofun
  | call call =>
      rw [step]
      split
      next => exact ⟨h, hexited, fun _ => rfl⟩
      next => exact hsame
  | lookAtChild =>
      have htext : ∀ stream, task.noteExit.text stream = task.state.text stream := by
        intro stream
        unfold noteExit
        split <;> cases stream <;> rfl
      rw [step]
      split
      next => exact ⟨h, hexited, htext⟩
      next => rw [if_pos hexited]; exact ⟨h, hexited, htext⟩
      next => rw [if_pos hexited]; exact ⟨h, hexited, htext⟩
      next => exact hsame
  | waitFails =>
      rw [step]
      split
      next => exact ⟨h, hexited, fun _ => rfl⟩
      next => exact hsame
  | answer =>
      rw [step]
      split
      next => exact ⟨h, hexited, fun _ => rfl⟩
      next => exact ⟨h, hexited, fun stream => by cases stream <;> rfl⟩
      next => exact hsame

theorem text_final_of_drained (h : task.Drained) (hexited : task.exited.isSome)
    (later : List ShellStep) (stream : ExecutorStream) :
    (final step task later).state.text stream = task.state.text stream := by
  induction later generalizing task with
  | nil => rfl
  | cons action rest ih =>
      obtain ⟨hdrained, hstill, htext⟩ := drained_step h hexited action
      exact (ih hdrained hstill).trans (htext stream)

theorem text_store {stream : ExecutorStream} {chunk : ReadChunk}
    (h : (task.pipes stream).inHand = some chunk) :
    ((task.step (.store stream)).state.text stream) ≠ task.state.text stream := by
  rw [step, h]
  exact BackgroundShellState.text_push_ne task.state stream chunk

/-- What is on its way changes the output when its reader gets on. -/
theorem exists_later_of_not_drained (h : ¬task.Drained) :
    ∃ later stream, (final step task later).state.text stream ≠ task.state.text stream := by
  obtain ⟨stream, hstream⟩ := not_forall.mp h
  cases hchunk : (task.pipes stream).inHand with
  | some chunk => exact ⟨[.store stream], stream, text_store hchunk⟩
  | none =>
      have hunread : (task.pipes stream).unread ≠ [] := fun hnil => hstream ⟨hnil, hchunk⟩
      refine ⟨[.read stream 1, .store stream], stream, ?_⟩
      have hread : ∃ chunk, ((task.step (.read stream 1)).pipes stream).inHand = some chunk := by
        show ∃ chunk, (Function.update task.pipes stream _ stream).inHand = some chunk
        rw [Function.update_self, OutputPipe.read,
          dif_pos ⟨hchunk, hunread, by decide, by decide⟩]
        exact ⟨_, rfl⟩
      obtain ⟨chunk, hchunk⟩ := hread
      exact text_store hchunk

/-! ### Answers -/

/-- The answer of `shell.wait` is made of everything that the command has written. -/
def FullOutput (task : BackgroundShellTask) : Prop :=
  (task.waitResult.stdout =
      (startReader .stdout (task.pipes .stdout).stored (.new task.state.sandbox)).stdout ∧
    bytesOf (task.pipes .stdout).stored = (task.pipes .stdout).written) ∧
  (task.waitResult.stderr =
      (startReader .stderr (task.pipes .stderr).stored (.new task.state.sandbox)).stderr ∧
    bytesOf (task.pipes .stderr).stored = (task.pipes .stderr).written)

/-- No step of any thread adds to the output. -/
def Finished (task : BackgroundShellTask) : Prop :=
  ∀ later stream, (final step task later).state.text stream = task.state.text stream

/-- What an answer that the command no longer runs stands for. -/
def Holds (task : BackgroundShellTask) (action : ShellStep) : Prop :=
  action = .answer →
    (task.caller = .waited → task.waitResult.running = false → task.FullOutput) ∧
      (task.caller = .polled → task.readOutputResult.running = false →
        (task.step action).Finished)

/-- Nothing is on its way when the caller takes the lock of the state for its answer, and the
command has been seen to exit. -/
def Settled (task : BackgroundShellTask) (action : ShellStep) : Prop :=
  action = .answer → task.caller = .waited ∨ task.caller = .polled → task.state.exitCode.isSome →
    task.Drained

theorem Sound.fullOutput_iff (h : task.Sound sandbox) : task.FullOutput ↔ task.Drained := by
  have hstdout := h.shown .stdout
  have hstderr := h.shown .stderr
  rw [← h.sandbox_eq] at hstdout hstderr
  constructor
  · intro ⟨⟨_, hout⟩, _, herr⟩ stream
    cases stream with
    | stdout => exact (h.accounted .stdout).stored_eq_iff.mp hout
    | stderr => exact (h.accounted .stderr).stored_eq_iff.mp herr
  · intro hdrained
    exact ⟨⟨hstdout, (h.accounted .stdout).stored_eq_iff.mpr (hdrained .stdout)⟩, hstderr,
      (h.accounted .stderr).stored_eq_iff.mpr (hdrained .stderr)⟩

theorem finished_iff (hexited : task.exited.isSome) : task.Finished ↔ task.Drained := by
  constructor
  · intro h
    by_contra hdrained
    obtain ⟨later, stream, hne⟩ := exists_later_of_not_drained hdrained
    exact hne (h later stream)
  · intro h later stream
    exact text_final_of_drained h hexited later stream

theorem pipes_answer (task : BackgroundShellTask) :
    (task.step .answer).pipes = task.pipes ∧ (task.step .answer).exited = task.exited := by
  rw [step]
  split <;> exact ⟨rfl, rfl⟩

theorem Sound.holds_iff (h : task.Sound sandbox) (action : ShellStep) :
    task.Holds action ↔ task.Settled action := by
  have hrunning : task.state.exitCode.isNone = false ↔ task.state.exitCode.isSome := by
    cases task.state.exitCode <;> simp
  obtain ⟨hpipes, hexited⟩ := pipes_answer task
  have hfinished : task.state.exitCode.isSome →
      ((task.step .answer).Finished ↔ task.Drained) := by
    intro hcode
    have hstill : (task.step .answer).exited.isSome := hexited ▸ h.exited hcode
    rw [finished_iff hstill, Drained, hpipes]
    rfl
  constructor
  · rintro hholds rfl hcaller hcode
    obtain ⟨hwait, hread⟩ := hholds rfl
    rcases hcaller with hcaller | hcaller
    · exact h.fullOutput_iff.mp (hwait hcaller (hrunning.mpr hcode))
    · exact (hfinished hcode).mp (hread hcaller (hrunning.mpr hcode))
  · rintro hsettled rfl
    constructor
    · intro hcaller hrun
      exact h.fullOutput_iff.mpr (hsettled rfl (.inl hcaller) (hrunning.mp hrun))
    · intro hcaller hrun
      have hcode := hrunning.mp hrun
      exact (hfinished hcode).mpr (hsettled rfl (.inr hcaller) hcode)

/-! ### The executor's answer -/

/-- A host that says what the threads of the task have brought about. -/
@[reducible] def replay (task : BackgroundShellTask) : ShellHost where
  platform := .linux
  now _ := 0
  helperPath _ := none
  output _ _ _ := .error ""
  spawn _ _ _ := .ok ()
  progress _ _ :=
    { stdout := (task.pipes .stdout).stored
      stderr := (task.pipes .stderr).stored
      exited := none }
  wait _ _ := .ok (task.exited.getD none)

theorem text_startReader_of_ne {stream other : ExecutorStream} (h : other ≠ stream)
    (reads : List ReadChunk) (state : BackgroundShellState) :
    (startReader stream reads state).text other = state.text other := by
  induction reads generalizing state with
  | nil => rfl
  | cons read others ih => exact (ih _).trans (BackgroundShellState.text_push_of_ne h _ _)

theorem text_startReader_congr {stream : ExecutorStream} {state state' : BackgroundShellState}
    (htext : state.text stream = state'.text stream) (hsandbox : state.sandbox = state'.sandbox)
    (reads : List ReadChunk) :
    (startReader stream reads state).text stream =
      (startReader stream reads state').text stream := by
  induction reads generalizing state state' with
  | nil => exact htext
  | cons read others ih =>
      apply ih (BackgroundShellState.text_push_congr htext hsandbox _)
      rw [BackgroundShellState.sandbox_push, BackgroundShellState.sandbox_push, hsandbox]

/-- What the threads have stored is what the executor absorbs. -/
theorem Sound.text_absorb (h : task.Sound sandbox) {progress : TaskProgress}
    (hstdout : progress.stdout = (task.pipes .stdout).stored)
    (hstderr : progress.stderr = (task.pipes .stderr).stored) (stream : ExecutorStream) :
    ((BackgroundShellState.new sandbox).absorb progress).text stream = task.state.text stream := by
  rw [h.shown, BackgroundShellState.absorb, hstdout, hstderr]
  cases stream with
  | stdout => exact text_startReader_of_ne (by decide) _ _
  | stderr =>
      apply text_startReader_congr
      · exact text_startReader_of_ne (by decide) _ _
      · exact sandbox_startReader ..

/-- An answer of the threads is an answer of the executor. -/
theorem Sound.wait_eq (h : task.Sound sandbox) (hcaller : task.caller = .waited)
    {shell : LocalShellExecutor} (hnew : shell.tasks.lookup task.taskId = some (.new sandbox)) :
    Program.wp (@LocalShellExecutor.wait task.replay task.taskId)
      (fun answer _ => answer.1 = task.waitResult) (fun _ _ => False) shell := by
  obtain ⟨number, hnumber⟩ := Option.isSome_iff_exists.mp (h.waited hcaller)
  obtain ⟨code, hexited, hcode⟩ := Option.map_eq_some_iff.mp (h.seen number hnumber)
  let progress := task.replay.progress 0 task.taskId
  let state := (BackgroundShellState.new sandbox).absorb progress
  have htext : ∀ stream, state.text stream = task.state.text stream := h.text_absorb rfl rfl
  have hstdout : state.stdout = task.state.stdout := htext .stdout
  have hstderr : state.stderr = task.state.stderr := htext .stderr
  have hsandbox : state.sandbox = task.state.sandbox := by
    rw [h.sandbox_eq]
    exact (sandbox_startReader ..).trans (sandbox_startReader ..)
  have hexit : some ((task.exited.getD none).getD (-1)) = task.state.exitCode := by
    rw [hexited, hnumber, ← hcode]
    rfl
  simp only [LocalShellExecutor.wait, LocalShellExecutor.findTask, Program.wp_bind,
    Program.wp_get, hnew]
  show ShellWaitResult.mk task.taskId state.sandbox.toSummary false
    (some ((task.exited.getD none).getD (-1))) state.stdout state.stderr = task.waitResult
  rw [waitResult, hsandbox, hstdout, hstderr, hexit, hnumber]
  rfl

/-- The command prints a byte and exits, and the caller learns of it before the reader has read. -/
def hastyWait : List ShellStep :=
  [.call .wait, .write .stdout [0x61], .exit (some 0), .lookAtChild, .answer]

/-- The same for a caller that only looks. -/
def hastyRead : List ShellStep :=
  [.call .readOutput, .write .stdout [0x61], .exit (some 0), .lookAtChild, .answer]

end BackgroundShellTask

end Liz
