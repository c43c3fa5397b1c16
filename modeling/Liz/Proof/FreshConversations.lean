import Liz.Proof.CliActiveThread

/-!
# A new conversation

`/new` and `/clear` empty the screen, but the thread that was active stays the active one. So the
next message begins a thread only where none has been active before, or what arrives in between
takes the active thread away.
-/

namespace Liz

/-- Events, and the responses that no choice of a thread has asked for. -/
def TerminalStep.Unasked : TerminalStep → Prop
  | .client (.event _) => True
  | .client (.response (.threadStart _)) | .client (.response (.threadResume _))
  | .client (.response (.threadFork _)) => False
  | .client (.response _) => True
  | _ => False

/-- Requests that begin a thread or a turn. -/
def CliRequest.converses : CliRequest → Bool
  | .threadStart .. | .turnStart .. => true
  | _ => false

/-- No thread is left active. A list without the active thread takes it away, and while there is
none the next record of a thread brings one. -/
def Unattended : Option ThreadId → List TerminalStep → Prop
  | active, [] => active = none
  | active, step :: rest => Unattended ((active.filter step.lists).or step.announced) rest

namespace CliApp

variable {app : CliApp}

/-- `/new` without an argument, or `/clear`. -/
def ClearsConversation (inputBuffer : String) : Prop :=
  splitCommand inputBuffer = ("/new", "") ∨ (splitCommand inputBuffer).1 = "/clear"

/-- What is written is no command. -/
def IsMessage (inputBuffer : String) : Prop :=
  (Text.trim inputBuffer).isEmpty = false ∧ (Text.trim inputBuffer).toList.head? ≠ some '/'

def requests (app : CliApp) : TerminalStep → List CliRequest
  | .client step => (app.step step).2
  | _ => []

/-- The requests of a run that begin threads and turns, in their order. -/
def exchange (app : CliApp) (steps : List TerminalStep) : List CliRequest :=
  (Runs.moments shell app steps).flatMap fun moment =>
    (moment.1.requests moment.2).filter CliRequest.converses

theorem exchange_cons (step : TerminalStep) (rest : List TerminalStep) :
    app.exchange (step :: rest) =
      (app.requests step).filter CliRequest.converses ++ (app.shell step).exchange rest :=
  List.flatMap_cons

theorem exchange_append (steps more : List TerminalStep) :
    app.exchange (steps ++ more) =
      app.exchange steps ++ (Runs.final shell app steps).exchange more := by
  rw [exchange, Runs.moments_append, List.flatMap_append]
  rfl

/-! ### What arrives by itself -/

/-- What arrives by itself begins nothing, and what waits for a thread keeps waiting. -/
theorem quiet_of_unasked {step : TerminalStep} (h : step.Unasked) :
    (app.requests step).filter CliRequest.converses = [] ∧
      (app.shell step).pendingNewThreadInput = app.pendingNewThreadInput ∧
      app.choice step = none := by
  cases step with
  | client step =>
      cases step with
      | event event =>
          refine ⟨?_, rfl, rfl⟩
          simp only [requests, CliApp.step, receiveEvent]
          split <;> rfl
      | response response =>
          cases response with
          | threadStart _ | threadResume _ | threadFork _ => exact absurd h id
          | _ => exact ⟨rfl, rfl, rfl⟩
      | submit _ | openSelected => exact absurd h id
  | selectPrevious | selectNext => exact absurd h id

theorem quiet_run {arrivals : List TerminalStep} (h : ∀ step ∈ arrivals, step.Unasked) :
    app.exchange arrivals = [] ∧
      (Runs.final shell app arrivals).pendingNewThreadInput = app.pendingNewThreadInput := by
  induction arrivals generalizing app with
  | nil => exact ⟨rfl, rfl⟩
  | cons step rest ih =>
      obtain ⟨hfirst, hrest⟩ := List.forall_mem_cons.mp h
      obtain ⟨hsent, hwaits, -⟩ := quiet_of_unasked hfirst
      rw [exchange_cons, hsent, (ih hrest).1]
      exact ⟨rfl, (ih hrest).2.trans hwaits⟩

/-- The active thread is followed through what arrives. -/
theorem unattended_iff {arrivals : List TerminalStep} (h : ∀ step ∈ arrivals, step.Unasked) :
    Unattended app.active arrivals ↔ (Runs.final shell app arrivals).active = none := by
  induction arrivals generalizing app with
  | nil => rfl
  | cons step rest ih =>
      obtain ⟨hfirst, hrest⟩ := List.forall_mem_cons.mp h
      have hactive := active_shell app step
      rw [(quiet_of_unasked hfirst).2.2, Option.none_or] at hactive
      rw [Unattended, ← hactive]
      exact ih hrest

/-! ### What the user writes -/

theorem head?_of_splitCommand {inputBuffer command : String} {c : Char} {rest : List Char}
    (h : (splitCommand inputBuffer).1 = command) (hcommand : command.toList = c :: rest) :
    (Text.trim inputBuffer).toList.head? = some c := by
  have hword : ((Text.trim inputBuffer).toList.takeWhile fun c => !Text.isWhitespace c) = c :: rest := by
    rw [← hcommand, ← h, splitCommand, String.toList_ofList]
  cases htext : (Text.trim inputBuffer).toList with
  | nil =>
      rw [htext] at hword
      cases hword
  | cons first others =>
      rw [htext, List.takeWhile_cons] at hword
      split at hword
      · rw [(List.cons.inj hword).1]
        rfl
      · cases hword

theorem submitInput_of_clears {inputBuffer : String} (h : ClearsConversation inputBuffer) :
    app.submitInput inputBuffer = app.startNewThread "" := by
  have hhead : (Text.trim inputBuffer).toList.head? = some '/' := by
    rcases h with h | h
    · exact head?_of_splitCommand (congrArg Prod.fst h) rfl
    · exact head?_of_splitCommand h rfl
  have hne : (Text.trim inputBuffer).isEmpty = false := by
    rw [String.isEmpty_eq_false_iff]
    intro hempty
    rw [hempty] at hhead
    cases hhead
  have hsplit : splitCommand (Text.trim inputBuffer) = splitCommand inputBuffer := by
    rw [splitCommand, Text.trim_trim, splitCommand]
  rw [submitInput, hne, if_neg Bool.false_ne_true, if_pos hhead, handleSlashCommand, hsplit]
  rcases h with h | h
  · rw [h]
    rfl
  · have hnew : (splitCommand inputBuffer).1 ≠ "/new" := by
      rw [h]
      decide
    dsimp only
    rw [if_neg hnew, if_pos h]

theorem submitInput_of_isMessage {inputBuffer : String} (h : IsMessage inputBuffer) :
    app.submitInput inputBuffer =
      match app.active with
      | none => app.startThreadFromMessage (Text.trim inputBuffer)
      | some threadId =>
          (setStatus { app with viewModel := app.viewModel.pushUserMessage (Text.trim inputBuffer) }
            "Message sent", [.turnStart threadId (Text.trim inputBuffer)]) := by
  rw [submitInput, h.1, if_neg Bool.false_ne_true, if_neg h.2]
  rfl

/-! ### The next message -/

/-- The message that waits goes to the thread of the response. -/
theorem requests_threadStart (app : CliApp) (thread : Thread) :
    (app.requests (.client (.response (.threadStart thread)))).filter CliRequest.converses =
      (app.pendingNewThreadInput.map (CliRequest.turnStart thread.id)).toList := by
  show List.filter _ (_ :: _ ++ _) = _
  cases happ : app.pendingNewThreadInput <;> rfl

/-- The composer is cleared, a message is written after what arrives, and after what arrives then a
thread is there. -/
def anew (clearing message : String) (arrivals more : List TerminalStep) (thread : Thread) :
    List TerminalStep :=
  .client (.submit clearing) :: (arrivals ++ .client (.submit message) ::
    (more ++ [.client (.response (.threadStart thread))]))

/-- The message asks for a thread, and goes to the thread of the response and to no other. -/
def StartsAnew (app : CliApp) (clearing message : String) (arrivals : List TerminalStep) : Prop :=
  ∀ more, (∀ step ∈ more, step.Unasked) → ∀ thread,
    app.exchange (anew clearing message arrivals more thread) =
      [.threadStart (String.ofList ((Text.trim message).toList.take 48)) (Text.trim message),
        .turnStart thread.id (Text.trim message)]

theorem exchange_clearing {clearing : String} (h : ClearsConversation clearing)
    (rest : List TerminalStep) :
    app.exchange (.client (.submit clearing) :: rest) = (app.startNewThread "").1.exchange rest := by
  have hcleared : app.step (.submit clearing) = app.startNewThread "" := submitInput_of_clears h
  have hsilent : (app.startNewThread "").2 = [] := rfl
  rw [exchange_cons, requests, shell, hcleared, hsilent, List.filter_nil, List.nil_append]

theorem exchange_arrivals {arrivals : List TerminalStep} (h : ∀ step ∈ arrivals, step.Unasked)
    (rest : List TerminalStep) :
    app.exchange (arrivals ++ rest) = (Runs.final shell app arrivals).exchange rest := by
  rw [exchange_append, (quiet_run h).1, List.nil_append]

/-- Without an active thread the message waits for the thread that it asks for. -/
theorem exchange_message_of_none {message : String} (h : IsMessage message) (hnone : app.active = none)
    {more : List TerminalStep} (hmore : ∀ step ∈ more, step.Unasked) (thread : Thread) :
    app.exchange (.client (.submit message) ::
        (more ++ [.client (.response (.threadStart thread))])) =
      [.threadStart (String.ofList ((Text.trim message).toList.take 48)) (Text.trim message),
        .turnStart thread.id (Text.trim message)] := by
  have hstep : app.step (.submit message) = app.startThreadFromMessage (Text.trim message) := by
    rw [CliApp.step, submitInput_of_isMessage h, hnone]
  rw [exchange_cons, exchange_arrivals hmore, exchange_cons, requests_threadStart,
    (quiet_run hmore).2, requests, shell, hstep]
  rfl

/-- An active thread gets the message. -/
theorem exchange_message_of_some {message : String} (h : IsMessage message) {threadId : ThreadId}
    (hactive : app.active = some threadId) (rest : List TerminalStep) :
    (app.exchange (.client (.submit message) :: rest)).head? =
      some (.turnStart threadId (Text.trim message)) := by
  rw [exchange_cons, requests, CliApp.step, submitInput_of_isMessage h, hactive]
  rfl

/-- `/new` and `/clear` start a new conversation exactly when no thread is left active by what arrives
before the message. -/
theorem startsAnew_iff (app : CliApp) {clearing message : String}
    (hclear : ClearsConversation clearing) (hmessage : IsMessage message)
    {arrivals : List TerminalStep} (harrivals : ∀ step ∈ arrivals, step.Unasked) :
    app.StartsAnew clearing message arrivals ↔ Unattended app.active arrivals := by
  rw [← @active_startNewThread app "", unattended_iff harrivals]
  have hexchange : ∀ rest, app.exchange (.client (.submit clearing) :: (arrivals ++ rest)) =
      (Runs.final shell (app.startNewThread "").1 arrivals).exchange rest := fun rest => by
    rw [exchange_clearing hclear, exchange_arrivals harrivals]
  cases hactive : (Runs.final shell (app.startNewThread "").1 arrivals).active with
  | none =>
      refine iff_of_true (fun more hmore thread => ?_) rfl
      rw [anew, hexchange]
      exact exchange_message_of_none hmessage hactive hmore thread
  | some threadId =>
      refine iff_of_false (fun h => ?_) (Option.some_ne_none threadId)
      have hasked := h [] (List.forall_mem_nil _) (namedThread "new")
      have hsent := exchange_message_of_some hmessage hactive
        ([] ++ [.client (.response (.threadStart (namedThread "new")))])
      rw [← hexchange, ← anew, hasked] at hsent
      cases hsent

/-- The list that comes in between is without the thread that was active. -/
theorem startsAnew_after_list :
    (CliApp.new.shell startsOwn).StartsAnew "/new" "hi" [listsLatest] :=
  (startsAnew_iff (CliApp.new.shell startsOwn) (.inl (by decide +kernel))
    ⟨by decide +kernel, by decide +kernel⟩ (fun step hstep => by
      rw [List.mem_singleton.mp hstep]
      exact trivial)).mpr
    (by
      show Option.or _ _ = none
      decide +kernel)

/-- After `/new` the message goes to the thread that was active before. -/
theorem message_after_new_stays :
    ¬ ∀ (app : CliApp) (clearing message : String) (arrivals : List TerminalStep),
      ClearsConversation clearing → IsMessage message → (∀ step ∈ arrivals, step.Unasked) →
        app.StartsAnew clearing message arrivals := by
  intro h
  have hasked := h (CliApp.new.shell startsOwn) "/new" "hi" [] (.inl (by decide +kernel))
    ⟨by decide +kernel, by decide +kernel⟩ (List.forall_mem_nil _) [] (List.forall_mem_nil _)
    (namedThread "new")
  revert hasked
  decide +kernel

end CliApp

end Liz
