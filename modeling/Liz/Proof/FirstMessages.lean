import Liz.Base.Runs
import Liz.Base.Slot
import Liz.Cli.App

/-!
# The first message of a conversation

A message written while no thread is active asks for a thread and waits until the thread is there.
There is one place to wait in, and the response that brings a thread takes whatever is in it. So a
message arrives exactly when no other one was sent to wait, and none was given up, while a thread
was still asked for.
-/

namespace Liz

/-- What a step of the client means for the messages of the composer. -/
inductive MessageMove
  /-- A message asks for a thread and waits for it. -/
  | first (input : String)
  /-- A message for the active thread. -/
  | direct (threadId : ThreadId) (input : String)
  /-- The composer is cleared, and with it what waits. -/
  | drop
  /-- The thread is there. -/
  | start (threadId : ThreadId)
  | quiet
  deriving DecidableEq, Repr

/-- A message that begins one TurnStart request. -/
structure MessageStart where
  threadId : ThreadId
  input : String
  /-- The message was submitted while this thread was the active one. -/
  whileActive : Bool
  deriving DecidableEq, Repr

namespace MessageMove

/-- The message that is submitted. -/
def submitted : MessageMove → List String
  | .first input => [input]
  | .direct _ input => [input]
  | _ => []

def direct? : MessageMove → List String
  | .direct _ input => [input]
  | _ => []

/-- What happens to the place where a first message waits. -/
def ops : MessageMove → List (Slot.Op String)
  | .first input => [.put input]
  | .drop => [.clear]
  | .start _ => [.take]
  | _ => []

/-- Something is put into the place or thrown out of it. -/
def disturbs : MessageMove → Bool
  | .first _ | .drop => true
  | _ => false

def starts (waiting : Option String) : MessageMove → List MessageStart
  | .direct threadId input => [⟨threadId, input, true⟩]
  | .start threadId => waiting.toList.map fun input => ⟨threadId, input, false⟩
  | _ => []

def threadStarts : MessageMove → Nat
  | .first _ => 1
  | _ => 0

def startedIds : MessageMove → List ThreadId
  | .start threadId => [threadId]
  | _ => []

end MessageMove

/-- The thread that a response brings. -/
def CliStep.startedIds : CliStep → List ThreadId
  | .response (.threadStart thread) => [thread.id]
  | _ => []

/-- The TurnStart requests among some, with what is known of the threads they name. -/
def messageStarts (whileActive : ThreadId → Bool) (requests : List CliRequest) :
    List MessageStart :=
  requests.filterMap fun request => match request with
    | .turnStart threadId input => some ⟨threadId, input, whileActive threadId⟩
    | _ => none

def CliRequest.isThreadStart : CliRequest → Bool
  | .threadStart _ _ => true
  | _ => false

def threadStarts (requests : List CliRequest) : Nat := requests.countP CliRequest.isThreadStart

namespace CliApp

/-- What the input of a step means, read off the composer's rules. -/
def moveOf (app : CliApp) : CliStep → MessageMove
  | .submit inputBuffer =>
      let input := Text.trim inputBuffer
      if input.isEmpty then .quiet
      else if input.toList.head? = some '/' then
        let (command, argument) := splitCommand input
        if command = "/new" then if argument.isEmpty then .drop else .first argument
        else if command = "/clear" then .drop
        else .quiet
      else
        match app.viewModel.selectedThreadId with
        | none => .first input
        | some threadId => .direct threadId input
  | .response (.threadStart thread) => .start thread.id
  | _ => .quiet

theorem startedIds_moveOf (app : CliApp) (step : CliStep) :
    (app.moveOf step).startedIds = step.startedIds := by
  cases step with
  | submit inputBuffer =>
      simp only [moveOf]
      repeat' split
      all_goals rfl
  | response response => cases response <;> rfl
  | event event => rfl
  | openSelected => rfl

/-- A message is submitted while the thread is active. -/
def submitsWhileActive (app : CliApp) (step : CliStep) (threadId : ThreadId) : Bool :=
  match step with
  | .submit _ => app.viewModel.selectedThreadId == some threadId
  | _ => false

/-- What an operation of the client made of what waited and of its requests is what the move says. -/
structure Moves (waiting : Option String) (whileActive : ThreadId → Bool)
    (result : CliApp × List CliRequest) (move : MessageMove) : Prop where
  waits : result.1.pendingNewThreadInput = Slot.held waiting move.ops
  starts : messageStarts whileActive result.2 = move.starts waiting
  asks : threadStarts result.2 = move.threadStarts

section

variable (app : CliApp) (whileActive : ThreadId → Bool)

theorem moves_startThreadFromMessage (input : String) :
    Moves app.pendingNewThreadInput whileActive (app.startThreadFromMessage input) (.first input) :=
  ⟨rfl, rfl, rfl⟩

theorem moves_startNewThread (argument : String) :
    Moves app.pendingNewThreadInput whileActive (app.startNewThread argument)
      (if argument.isEmpty then .drop else .first argument) := by
  unfold startNewThread
  split
  · exact ⟨rfl, rfl, rfl⟩
  · exact moves_startThreadFromMessage app whileActive argument

theorem moves_handleSlashCommand (input : String) :
    Moves app.pendingNewThreadInput whileActive (app.handleSlashCommand input)
      (if (splitCommand input).1 = "/new" then
        if (splitCommand input).2.isEmpty then .drop else .first (splitCommand input).2
      else if (splitCommand input).1 = "/clear" then .drop
      else .quiet) := by
  simp only [handleSlashCommand]
  split
  · exact moves_startNewThread app whileActive (splitCommand input).2
  · split
    · exact moves_startNewThread app whileActive ""
    · exact ⟨rfl, rfl, rfl⟩

theorem moves_submitInput (inputBuffer : String) :
    Moves app.pendingNewThreadInput (app.submitsWhileActive (.submit inputBuffer))
      (app.submitInput inputBuffer) (app.moveOf (.submit inputBuffer)) := by
  simp only [submitInput, moveOf]
  split
  · exact ⟨rfl, rfl, rfl⟩
  · split
    · exact moves_handleSlashCommand app _ (Text.trim inputBuffer)
    · cases hactive : app.viewModel.selectedThreadId with
      | none => exact moves_startThreadFromMessage app _ (Text.trim inputBuffer)
      | some threadId =>
          have hwhile : app.submitsWhileActive (.submit inputBuffer) threadId = true := by
            simp [submitsWhileActive, hactive]
          refine ⟨rfl, ?_, rfl⟩
          simp [messageStarts, MessageMove.starts, hwhile]

theorem moves_receiveResponse (response : ViewResponse) :
    Moves app.pendingNewThreadInput (app.submitsWhileActive (.response response))
      (app.receiveResponse response) (app.moveOf (.response response)) := by
  cases response with
  | threadStart thread =>
      cases hwaiting : app.pendingNewThreadInput <;>
        constructor <;>
        simp [receiveResponse, followUpAfterResponse, loadThreadSurfaces, hwaiting, moveOf,
          messageStarts, threadStarts, CliRequest.isThreadStart, submitsWhileActive,
          MessageMove.ops, MessageMove.starts, MessageMove.threadStarts, Slot.held, Slot.next]
  | _ => exact ⟨rfl, rfl, rfl⟩

theorem moves_receiveEvent (event : ServerEvent) :
    Moves app.pendingNewThreadInput whileActive (app.receiveEvent event) .quiet := by
  unfold receiveEvent
  split
  · exact ⟨rfl, rfl, rfl⟩
  · exact ⟨rfl, rfl, rfl⟩

theorem moves_loadSelectedThreadSurfaces :
    Moves app.pendingNewThreadInput whileActive app.loadSelectedThreadSurfaces .quiet := by
  unfold loadSelectedThreadSurfaces
  split
  · exact ⟨rfl, rfl, rfl⟩
  · exact ⟨rfl, rfl, rfl⟩

/-- Every step does what its input means. -/
theorem moves_step (step : CliStep) :
    Moves app.pendingNewThreadInput (app.submitsWhileActive step) (app.step step)
      (app.moveOf step) := by
  cases step with
  | submit inputBuffer => exact moves_submitInput app inputBuffer
  | response response => exact moves_receiveResponse app response
  | event event => exact moves_receiveEvent app _ event
  | openSelected => exact moves_loadSelectedThreadSurfaces app _

end

end CliApp

/-- The client, and how many of its ThreadStart requests are not answered yet. -/
structure CliExchange where
  app : CliApp
  unanswered : Nat

namespace CliExchange

def new : CliExchange := { app := CliApp.new, unanswered := 0 }

def move (exchange : CliExchange) (step : CliStep) : MessageMove := exchange.app.moveOf step

def step (exchange : CliExchange) (step : CliStep) : CliExchange :=
  { app := (exchange.app.step step).1
    unanswered := exchange.unanswered - step.startedIds.length +
      threadStarts (exchange.app.step step).2 }

/-- No message is sent to wait, and the composer is not cleared, while a thread is asked for. -/
def Unhurried (exchange : CliExchange) (step : CliStep) : Prop :=
  (exchange.move step).disturbs = true → exchange.unanswered = 0

instance (exchange : CliExchange) (step : CliStep) : Decidable (exchange.Unhurried step) :=
  inferInstanceAs (Decidable ((exchange.move step).disturbs = true → exchange.unanswered = 0))

/-- The messages of a run, in the order they are submitted. -/
def submitted (exchange : CliExchange) (steps : List CliStep) : List String :=
  (Runs.moments CliExchange.step exchange steps).flatMap fun moment =>
    (moment.1.move moment.2).submitted

/-- The TurnStart requests of a run. -/
def starts (exchange : CliExchange) (steps : List CliStep) : List MessageStart :=
  (Runs.moments CliExchange.step exchange steps).flatMap fun moment =>
    messageStarts (moment.1.app.submitsWhileActive moment.2) (moment.1.app.step moment.2).2

/-- Every message begins one turn, and of two messages for one thread at least one was submitted
while that thread was active. -/
structure Delivers (exchange : CliExchange) (steps : List CliStep) : Prop where
  once : ((exchange.starts steps).map MessageStart.input).Perm (exchange.submitted steps)
  apart : (exchange.starts steps).Pairwise fun one other =>
    one.threadId = other.threadId → one.whileActive = true ∨ other.whileActive = true

/-- What waits at the end of a run is what its operations on the place leave there. -/
def ops (exchange : CliExchange) (steps : List CliStep) : List (Slot.Op String) :=
  (Runs.moments CliExchange.step exchange steps).flatMap fun moment =>
    (moment.1.move moment.2).ops

def directs (exchange : CliExchange) (steps : List CliStep) : List String :=
  (Runs.moments CliExchange.step exchange steps).flatMap fun moment =>
    (moment.1.move moment.2).direct?

variable {exchange : CliExchange} {steps : List CliStep}

theorem ops_cons (exchange : CliExchange) (step : CliStep) (rest : List CliStep) :
    exchange.ops (step :: rest) = (exchange.move step).ops ++ (exchange.step step).ops rest := rfl

theorem waits_step (exchange : CliExchange) (step : CliStep) :
    (exchange.step step).app.pendingNewThreadInput =
      Slot.held exchange.app.pendingNewThreadInput (exchange.move step).ops :=
  (exchange.app.moves_step step).waits

theorem unanswered_step (exchange : CliExchange) (step : CliStep) :
    (exchange.step step).unanswered =
      exchange.unanswered - step.startedIds.length +
        (exchange.move step).threadStarts := by
  rw [move, ← (exchange.app.moves_step step).asks]
  rfl

theorem starts_step (exchange : CliExchange) (step : CliStep) :
    messageStarts (exchange.app.submitsWhileActive step) (exchange.app.step step).2 =
      (exchange.move step).starts exchange.app.pendingNewThreadInput :=
  (exchange.app.moves_step step).starts

theorem waits_run (exchange : CliExchange) (steps : List CliStep) :
    (Runs.final CliExchange.step exchange steps).app.pendingNewThreadInput =
      Slot.held exchange.app.pendingNewThreadInput (exchange.ops steps) := by
  induction steps generalizing exchange with
  | nil => rfl
  | cons step rest ih => rw [Runs.final, ih, waits_step, ops_cons, Slot.held_append]

theorem starts_cons (exchange : CliExchange) (step : CliStep) (steps : List CliStep) :
    exchange.starts (step :: steps) =
      (exchange.move step).starts exchange.app.pendingNewThreadInput ++
        (exchange.step step).starts steps := by
  rw [← starts_step]
  rfl

/-- A message is sent at once or put into the place. -/
theorem submitted_perm (exchange : CliExchange) (steps : List CliStep) :
    (exchange.submitted steps).Perm
      (exchange.directs steps ++ (exchange.ops steps).flatMap Slot.put) := by
  have hmove : ∀ move : MessageMove, move.submitted = move.direct? ++ move.ops.flatMap Slot.put := by
    intro move
    cases move <;> rfl
  simp only [submitted, directs, ops, hmove, List.flatMap_assoc]
  exact (List.flatMap_append_perm _ _ _).symm

/-- A turn begins with a message that is sent at once, or with one that is taken out of the place. -/
theorem starts_perm (exchange : CliExchange) (steps : List CliStep) :
    ((exchange.starts steps).map MessageStart.input).Perm
      (exchange.directs steps ++
        Slot.allTaken exchange.app.pendingNewThreadInput (exchange.ops steps)) := by
  have hmove : ∀ (move : MessageMove) (waiting : Option String),
      (move.starts waiting).map MessageStart.input =
        move.direct? ++ Slot.allTaken waiting move.ops := by
    intro move waiting
    cases move <;> cases waiting <;> rfl
  induction steps generalizing exchange with
  | nil => exact .refl []
  | cons step rest ih =>
      have hrest := ih (exchange.step step)
      have hdirects : exchange.directs (step :: rest) =
          (exchange.move step).direct? ++ (exchange.step step).directs rest := rfl
      rw [waits_step] at hrest
      rw [starts_cons, List.map_append, hmove, hdirects, ops_cons, Slot.allTaken_append]
      grind

/-- The threads of the turns that did not find their thread active are those of the responses. -/
theorem waited_threads (exchange : CliExchange) (steps : List CliStep) :
    (((exchange.starts steps).filter fun start => !start.whileActive).map
        MessageStart.threadId).Sublist
      (steps.flatMap CliStep.startedIds) := by
  induction steps generalizing exchange with
  | nil => exact .refl []
  | cons step rest ih =>
      have hstep : ((((exchange.move step).starts exchange.app.pendingNewThreadInput).filter
          fun start => !start.whileActive).map MessageStart.threadId).Sublist
            step.startedIds := by
        rw [move, ← CliApp.startedIds_moveOf exchange.app step]
        cases exchange.app.moveOf step <;> cases exchange.app.pendingNewThreadInput <;>
          simp [MessageMove.starts, MessageMove.startedIds]
      rw [starts_cons, List.filter_append, List.map_append, List.flatMap_cons]
      exact hstep.append (ih (exchange.step step))

/-- The place is used carefully exactly when nothing is done to it in a hurry, for as long as what
waits is what the client has asked a thread for. -/
theorem careful_iff_unhurried {step : CliStep}
    (hwaits : exchange.app.pendingNewThreadInput.toList.length = exchange.unanswered) :
    Slot.AllCareful exchange.app.pendingNewThreadInput (exchange.move step).ops ↔
      exchange.Unhurried step := by
  have hnone : exchange.app.pendingNewThreadInput = none ↔ exchange.unanswered = 0 := by
    rw [← hwaits, List.length_eq_zero_iff, Option.toList_eq_nil_iff]
  unfold Unhurried
  cases exchange.move step <;>
    simp [MessageMove.ops, MessageMove.disturbs, Slot.AllCareful, Slot.Careful, hnone]

/-- Without hurry what waits stays what a thread is asked for. -/
theorem waits_unanswered {step : CliStep}
    (hwaits : exchange.app.pendingNewThreadInput.toList.length = exchange.unanswered)
    (hunhurried : exchange.Unhurried step) :
    (exchange.step step).app.pendingNewThreadInput.toList.length =
      (exchange.step step).unanswered := by
  have hids := CliApp.startedIds_moveOf exchange.app step
  have hle : exchange.app.pendingNewThreadInput.toList.length ≤ 1 := Option.length_toList_le
  rw [waits_step, unanswered_step, ← hids]
  unfold Unhurried at hunhurried
  unfold move at hunhurried ⊢
  cases hmove : exchange.app.moveOf step with
  | first | drop =>
      rw [hmove] at hunhurried
      have hnone := hunhurried rfl
      simp [MessageMove.ops, MessageMove.startedIds, MessageMove.threadStarts, Slot.held, Slot.next,
        hnone]
  | start threadId =>
      have hone : exchange.unanswered - 1 = 0 := by omega
      simp [MessageMove.ops, MessageMove.startedIds, MessageMove.threadStarts, Slot.held, Slot.next,
        hone]
  | direct threadId input => exact hwaits
  | quiet => exact hwaits

theorem allCareful_iff
    (hwaits : exchange.app.pendingNewThreadInput.toList.length = exchange.unanswered) :
    Slot.AllCareful exchange.app.pendingNewThreadInput (exchange.ops steps) ↔
      Runs.AllSteps CliExchange.step Unhurried exchange steps := by
  induction steps generalizing exchange with
  | nil => exact Iff.rfl
  | cons step rest ih =>
      rw [ops_cons, Slot.allCareful_append, careful_iff_unhurried hwaits, ← waits_step]
      constructor
      · intro ⟨hstep, hrest⟩
        exact ⟨hstep, (ih (waits_unanswered hwaits hstep)).mp hrest⟩
      · intro ⟨hstep, hrest⟩
        exact ⟨hstep, (ih (waits_unanswered hwaits hstep)).mpr hrest⟩

theorem waits_unanswered_run
    (hwaits : exchange.app.pendingNewThreadInput.toList.length = exchange.unanswered)
    (hunhurried : Runs.AllSteps CliExchange.step Unhurried exchange steps) :
    (Runs.final CliExchange.step exchange steps).app.pendingNewThreadInput.toList.length =
      (Runs.final CliExchange.step exchange steps).unanswered := by
  induction steps generalizing exchange with
  | nil => exact hwaits
  | cons step rest ih =>
      exact ih (waits_unanswered hwaits hunhurried.1) hunhurried.2

/-- Two turns on one thread are not both begun by responses, which bring different threads. -/
theorem starts_apart (hids : (steps.flatMap CliStep.startedIds).Nodup) :
    (exchange.starts steps).Pairwise fun one other =>
      one.threadId = other.threadId → one.whileActive = true ∨ other.whileActive = true := by
  have hwaited := hids.sublist (waited_threads exchange steps)
  rw [List.Nodup, List.pairwise_map, List.pairwise_filter] at hwaited
  apply hwaited.imp
  intro one other hdiffer hsame
  by_contra hneither
  rw [not_or, Bool.not_eq_true, Bool.not_eq_true] at hneither
  exact hdiffer (by simp [hneither.1]) (by simp [hneither.2]) hsame

end CliExchange

/-- In a run in which every ThreadStart is answered with a thread of its own, every message begins
exactly one turn, and no two share a new thread unless one of them came after it was there, if and
only if no message is sent to wait and none is given up while a thread is asked for. -/
theorem first_messages_delivered_iff {exchange : CliExchange} {steps : List CliStep}
    (hfree : exchange.app.pendingNewThreadInput = none) (hasked : exchange.unanswered = 0)
    (hcomplete : (Runs.final CliExchange.step exchange steps).unanswered = 0)
    (hids : (steps.flatMap CliStep.startedIds).Nodup) :
    exchange.Delivers steps ↔ Runs.AllSteps CliExchange.step CliExchange.Unhurried exchange steps := by
  have hwaits : exchange.app.pendingNewThreadInput.toList.length = exchange.unanswered := by
    rw [hfree, hasked]
    rfl
  have hstarts := exchange.starts_perm steps
  have hsubmitted := exchange.submitted_perm steps
  have hcareful := @CliExchange.allCareful_iff exchange steps hwaits
  have hcount := Slot.length_taken_iff none (exchange.ops steps)
  rw [hfree] at hstarts hcareful
  rw [← hcareful]
  constructor
  · intro hdelivers
    have hlength := ((hstarts.symm.trans hdelivers.once).trans hsubmitted).length_eq
    have hle := Slot.length_taken_le none (exchange.ops steps)
    rw [List.length_append, List.length_append] at hlength
    apply hcount.mp
    simp only [Option.toList_none, List.length_nil] at hle ⊢
    omega
  · intro hused
    have hempty : Slot.held none (exchange.ops steps) = none := by
      have hend := CliExchange.waits_unanswered_run hwaits (hcareful.mp hused)
      rw [hcomplete, CliExchange.waits_run, hfree, List.length_eq_zero_iff,
        Option.toList_eq_nil_iff] at hend
      exact hend
    have htaken := Slot.taken_of_careful hused
    rw [hempty, Option.toList_none, List.nil_append, List.append_nil] at htaken
    rw [← htaken] at hstarts
    exact ⟨hstarts.trans hsubmitted.symm, CliExchange.starts_apart hids⟩

/-- The response to a ThreadStart. -/
def threadBrought (id : ThreadId) : CliStep := .response (.threadStart (Thread.blank id))

theorem first_message_delivered :
    CliExchange.new.Delivers [.submit "fix the build", threadBrought "thread_1"] :=
  (first_messages_delivered_iff rfl rfl (by decide +kernel) (by decide)).mpr
    (by decide +kernel)

/-- A second message before the first response: it begins a turn on the thread that was asked for
the first message, which begins none. -/
theorem first_message_overwritten :
    ¬ CliExchange.new.Delivers
      [.submit "fix the build", .submit "write the notes", threadBrought "thread_1",
        threadBrought "thread_2"] := by
  intro hdelivers
  have hlength := hdelivers.once.length_eq
  exact absurd hlength (by decide +kernel)

end Liz
