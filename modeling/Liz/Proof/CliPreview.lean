import Liz.Proof.CliActiveThread

/-!
# The preview of a reply

The pieces of a reply are collected in one place, whatever turn they belong to, and the place is
emptied when any reply is complete. A turn that ends otherwise leaves its pieces there.
-/

namespace Liz

/-- A piece of a reply as it was received. -/
structure ReplyPiece where
  threadId : ThreadId
  turnId : Option TurnId
  text : String
  deriving DecidableEq, Repr

namespace ReplyPiece

def isOf (threadId : ThreadId) (turnId : Option TurnId) (piece : ReplyPiece) : Bool :=
  piece.threadId == threadId && piece.turnId == turnId

def joined (pieces : List ReplyPiece) : String :=
  pieces.foldl (fun text piece => text ++ piece.text) ""

@[simp] theorem joined_concat (pieces : List ReplyPiece) (piece : ReplyPiece) :
    joined (pieces ++ [piece]) = joined pieces ++ piece.text := by
  simp [joined]

theorem isOf_iff {threadId : ThreadId} {turnId : Option TurnId} {piece : ReplyPiece} :
    piece.isOf threadId turnId = true ↔ piece.threadId = threadId ∧ piece.turnId = turnId := by
  simp [isOf]

end ReplyPiece

/-- What a step means for replies. -/
inductive ReplyNotice
  | started (threadId : ThreadId) (turnId : TurnId)
  | said (piece : ReplyPiece)
  | complete (threadId : ThreadId) (turnId : Option TurnId)
  | ended (threadId : ThreadId) (turnId : TurnId)
  | quiet

def ServerEvent.replyNotice (event : ServerEvent) : ReplyNotice :=
  match event.payload with
  | .turnStarted turn => .started event.threadId turn.id
  | .assistantChunk chunk _ _ => .said ⟨event.threadId, event.turnId, chunk⟩
  | .assistantCompleted _ => .complete event.threadId event.turnId
  | .turnCompleted turn | .turnCancelled turn => .ended event.threadId turn.id
  | .turnFailed turn _ => .ended event.threadId turn.id
  | _ => .quiet

def TerminalStep.replyNotice : TerminalStep → ReplyNotice
  | .client (.event event) => event.replyNotice
  | _ => .quiet

/-- The client with what it has received: the turns that are running, the pieces of every turn since
its last complete reply, and the pieces that the preview is made of. -/
structure PreviewWatch where
  app : CliApp
  running : List (ThreadId × TurnId)
  received : List ReplyPiece
  shown : List ReplyPiece

namespace PreviewWatch

def new : PreviewWatch := { app := CliApp.new, running := [], received := [], shown := [] }

def note (watch : PreviewWatch) : ReplyNotice → PreviewWatch
  | .started threadId turnId => { watch with running := (threadId, turnId) :: watch.running }
  | .said piece =>
      { watch with received := watch.received ++ [piece], shown := watch.shown ++ [piece] }
  | .complete threadId turnId =>
      { watch with
        received := watch.received.filter fun piece => !piece.isOf threadId turnId
        shown := [] }
  | .ended threadId turnId =>
      { watch with running := watch.running.filter (· != (threadId, turnId)) }
  | .quiet => watch

def step (watch : PreviewWatch) (step : TerminalStep) : PreviewWatch :=
  { watch with app := watch.app.shell step }.note step.replyNotice

def preview (watch : PreviewWatch) : Option String := watch.app.viewModel.assistantStreaming

/-- The pieces of the turn since its last complete reply. -/
def receivedOf (watch : PreviewWatch) (threadId : ThreadId) (turnId : TurnId) : List ReplyPiece :=
  watch.received.filter (ReplyPiece.isOf threadId (some turnId))

/-- The preview is empty, or it shows what a running turn of the active thread has said since its
last complete reply, and is made of these pieces. -/
def Faithful (watch : PreviewWatch) : Prop :=
  watch.preview = none ∨ ∃ threadId turnId, watch.app.active = some threadId ∧
    (threadId, turnId) ∈ watch.running ∧ watch.shown = watch.receivedOf threadId turnId ∧
      watch.preview = some (ReplyPiece.joined (watch.receivedOf threadId turnId))

/-- A piece comes from a running turn of the active thread all of whose pieces are in the preview and
no others, a turn does not end while its pieces are there, and the active thread stays while any
are. -/
def Orderly (watch : PreviewWatch) (step : TerminalStep) : Prop :=
  (watch.shown ≠ [] → ∀ threadId, watch.app.active = some threadId →
    (watch.app.choice step).getD threadId = threadId ∧ step.lists threadId) ∧
  match step.replyNotice with
  | .said piece => ∃ threadId turnId, watch.app.active = some threadId ∧
      (threadId, turnId) ∈ watch.running ∧ piece.isOf threadId (some turnId) ∧
        watch.shown = watch.receivedOf threadId turnId
  | .ended threadId turnId => ∀ piece ∈ watch.shown, ¬ piece.isOf threadId (some turnId)
  | _ => True

end PreviewWatch

/-! ### What the client does with replies -/

namespace ViewModel

variable (view : ViewModel)

@[simp] theorem assistantStreaming_pushThreadEntry (threadId : ThreadId)
    (kind : TranscriptEntryKind) (body : String) :
    (view.pushThreadEntry threadId kind body).assistantStreaming = view.assistantStreaming := by
  unfold pushThreadEntry
  dsimp only
  split <;> rfl

@[simp] theorem assistantStreaming_pushEntryForSelectedThread (kind : TranscriptEntryKind)
    (body : String) :
    (view.pushEntryForSelectedThread kind body).assistantStreaming = view.assistantStreaming := by
  unfold pushEntryForSelectedThread
  split
  · exact assistantStreaming_pushThreadEntry view _ kind body
  · rfl

@[simp] theorem assistantStreaming_upsertThread (thread : Thread) :
    (view.upsertThread thread).assistantStreaming = view.assistantStreaming := rfl

@[simp] theorem assistantStreaming_attachPendingEntriesToThread (threadId : ThreadId) :
    (view.attachPendingEntriesToThread threadId).assistantStreaming = view.assistantStreaming := by
  unfold attachPendingEntriesToThread
  split <;> rfl

@[simp] theorem assistantStreaming_replaceThreadHistory (session : MemorySessionView) :
    (view.replaceThreadHistory session).assistantStreaming = view.assistantStreaming := by
  unfold replaceThreadHistory
  dsimp only
  split <;> rfl

theorem assistantStreaming_applyResponse (response : ViewResponse) :
    (view.applyResponse response).assistantStreaming = view.assistantStreaming := by
  cases response with
  | threadStart thread =>
      exact assistantStreaming_attachPendingEntriesToThread _ _
  | memoryOpenSession session => exact assistantStreaming_replaceThreadHistory view session
  | error message => exact assistantStreaming_pushEntryForSelectedThread view _ message
  | _ => rfl

end ViewModel

/-- What a notice makes of the preview. -/
def ReplyNotice.preview (old : Option String) : ReplyNotice → Option String
  | .said piece => some (old.getD "" ++ piece.text)
  | .complete _ _ => none
  | _ => old

namespace CliApp

variable (app : CliApp)

theorem streaming_startNewThread (argument : String) :
    (app.startNewThread argument).1.viewModel.assistantStreaming =
      app.viewModel.assistantStreaming := by
  unfold startNewThread
  split
  · rfl
  · simp only [startThreadFromMessage, setStatus, ViewModel.pushPendingThreadStartMessage]

theorem streaming_submitInput (inputBuffer : String) :
    (app.submitInput inputBuffer).1.viewModel.assistantStreaming =
      app.viewModel.assistantStreaming := by
  simp only [submitInput]
  split
  · rfl
  · split
    · simp only [handleSlashCommand]
      split
      · exact streaming_startNewThread app _
      · split
        · exact streaming_startNewThread app _
        · rfl
    · split
      · simp only [startThreadFromMessage, setStatus, ViewModel.pushPendingThreadStartMessage]
      · exact ViewModel.assistantStreaming_pushEntryForSelectedThread _ _ _

theorem streaming_receiveResponse (response : ViewResponse) :
    (app.receiveResponse response).1.viewModel.assistantStreaming =
      app.viewModel.assistantStreaming := by
  have hview := ViewModel.assistantStreaming_applyResponse app.viewModel response
  cases response <;> exact hview

theorem streaming_receiveEvent (event : ServerEvent) :
    (app.receiveEvent event).1.viewModel.assistantStreaming =
      event.replyNotice.preview app.viewModel.assistantStreaming := by
  simp only [receiveEvent, ViewModel.applyEvent, ServerEvent.replyNotice]
  cases event.payload with
  | turnStarted turn =>
      simp only [ReplyNotice.preview]
      split
      · exact ViewModel.assistantStreaming_pushThreadEntry _ _ _ _
      · rfl
  | _ => simp [ReplyNotice.preview]

theorem streaming_shell (step : TerminalStep) :
    (app.shell step).viewModel.assistantStreaming =
      step.replyNotice.preview app.viewModel.assistantStreaming := by
  cases step with
  | client step =>
      cases step with
      | submit inputBuffer =>
          simp only [shell, CliApp.step, TerminalStep.replyNotice, ReplyNotice.preview]
          exact streaming_submitInput app inputBuffer
      | response response =>
          simp only [shell, CliApp.step, TerminalStep.replyNotice, ReplyNotice.preview]
          exact streaming_receiveResponse app response
      | event event =>
          simp only [shell, CliApp.step, TerminalStep.replyNotice]
          exact streaming_receiveEvent app event
      | openSelected =>
          simp only [shell, CliApp.step, loadSelectedThreadSurfaces]
          cases app.viewModel.selectedThread <;> rfl
  | selectPrevious => rfl
  | selectNext => rfl

end CliApp

namespace PreviewWatch

variable {watch : PreviewWatch}

/-- The preview is made of the pieces that are shown. -/
def Shows (watch : PreviewWatch) : Prop :=
  watch.preview = if watch.shown = [] then none else some (ReplyPiece.joined watch.shown)

theorem Shows.preview_eq_none (h : watch.Shows) : watch.preview = none ↔ watch.shown = [] := by
  rw [Shows] at h
  rw [h]
  split <;> simp_all

theorem app_step (watch : PreviewWatch) (step : TerminalStep) :
    (watch.step step).app = watch.app.shell step := by
  unfold PreviewWatch.step note
  cases step.replyNotice <;> rfl

theorem Shows.step (h : watch.Shows) (step : TerminalStep) : (watch.step step).Shows := by
  have hpreview : (watch.step step).preview = step.replyNotice.preview watch.preview := by
    rw [preview, app_step]
    exact CliApp.streaming_shell watch.app step
  rw [Shows] at h
  rw [Shows, hpreview, h]
  unfold PreviewWatch.step note
  cases step.replyNotice with
  | said piece =>
      by_cases hnone : watch.shown = []
      · simp [ReplyNotice.preview, hnone, ReplyPiece.joined]
      · simp [ReplyNotice.preview, hnone]
  | complete threadId turnId => simp [ReplyNotice.preview]
  | _ => rfl

/-- The pieces shown are those of one running turn of the active thread. -/
def Owned (watch : PreviewWatch) : Prop :=
  watch.shown = [] ∨ ∃ threadId turnId, watch.app.active = some threadId ∧
    (threadId, turnId) ∈ watch.running ∧ watch.shown = watch.receivedOf threadId turnId

theorem faithful_iff_owned (h : watch.Shows) : watch.Faithful ↔ watch.Owned := by
  unfold Faithful Owned
  rw [h.preview_eq_none]
  constructor
  · rintro (hnone | ⟨threadId, turnId, hactive, hrunning, hshown, -⟩)
    · exact .inl hnone
    · exact .inr ⟨threadId, turnId, hactive, hrunning, hshown⟩
  · rintro (hnone | ⟨threadId, turnId, hactive, hrunning, hshown⟩)
    · exact .inl hnone
    · by_cases hnone : watch.shown = []
      · exact .inl hnone
      · refine .inr ⟨threadId, turnId, hactive, hrunning, hshown, ?_⟩
        rw [Shows, if_neg hnone, hshown] at h
        exact h

theorem isOf_of_mem {threadId : ThreadId} {turnId : TurnId} {piece : ReplyPiece}
    (h : piece ∈ watch.receivedOf threadId turnId) : piece.isOf threadId (some turnId) :=
  (List.mem_filter.mp h).2

/-- An active thread stays active exactly when it is chosen again or nothing is chosen, and no list
comes without it. -/
theorem active_stays_iff {app : CliApp} {threadId : ThreadId} (h : app.active = some threadId)
    (step : TerminalStep) :
    (app.shell step).active = some threadId ↔
      (app.choice step).getD threadId = threadId ∧ step.lists threadId := by
  rw [CliApp.active_shell, h]
  cases hchoice : app.choice step with
  | some chosen =>
      have hlists : step.lists threadId = true := by
        cases step with
        | client step =>
            cases step with
            | response response => cases response <;> first | rfl | cases hchoice
            | _ => rfl
        | _ => rfl
      simp [hlists]
  | none =>
      cases hlists : step.lists threadId with
      | true => simp [hlists]
      | false =>
          have hannounced : step.announced = none := by
            cases step with
            | client step => cases step <;> first | rfl | cases hlists
            | _ => rfl
          simp [hlists, hannounced]

/-- A notice that ends no turn and brings no piece leaves the preview right when the active thread
stays. -/
theorem owned_of_stays (h : watch.Owned) {step : TerminalStep}
    (hshown : (watch.step step).shown = watch.shown ∨ (watch.step step).shown = [])
    (hreceived : (watch.step step).received = watch.received)
    (hrunning : ∀ turn ∈ watch.running, turn ∈ (watch.step step).running)
    (hstays : watch.shown ≠ [] → ∀ threadId, watch.app.active = some threadId →
      (watch.app.shell step).active = some threadId) : (watch.step step).Owned := by
  rcases hshown with hshown | hempty
  · by_cases hnone : watch.shown = []
    · exact .inl (hshown.trans hnone)
    · obtain ⟨threadId, turnId, hactive, hin, heq⟩ := h.resolve_left hnone
      refine .inr ⟨threadId, turnId, ?_, hrunning _ hin, ?_⟩
      · rw [app_step]
        exact hstays hnone threadId hactive
      · rw [hshown, receivedOf, hreceived]
        exact heq
  · exact .inl hempty

/-- Pieces that are shown belong to the turn that owns them. -/
theorem owner_eq {threadId other : ThreadId} {turnId otherTurn : TurnId} {piece : ReplyPiece}
    (hpiece : piece.isOf threadId (some turnId)) (hother : piece.isOf other (some otherTurn)) :
    threadId = other ∧ turnId = otherTurn := by
  obtain ⟨hthread, hturn⟩ := ReplyPiece.isOf_iff.mp hpiece
  obtain ⟨hthread', hturn'⟩ := ReplyPiece.isOf_iff.mp hother
  exact ⟨hthread.symm.trans hthread', Option.some.inj (hturn.symm.trans hturn')⟩

/-- While pieces are shown after a step that shows the same pieces, the active thread has stayed. -/
theorem stays_of_owned (h : watch.Owned) {step : TerminalStep} (hafter : (watch.step step).Owned)
    (hnone : watch.shown ≠ []) (hshown : (watch.step step).shown = watch.shown)
    {threadId : ThreadId} (hactive : watch.app.active = some threadId) :
    (watch.app.shell step).active = some threadId := by
  obtain ⟨own, turnId, hown, -, heq⟩ := h.resolve_left hnone
  obtain ⟨piece, rest, hcons⟩ := List.exists_cons_of_ne_nil hnone
  have hpiece : piece ∈ watch.shown := hcons ▸ List.mem_cons_self
  obtain ⟨later, laterTurn, hlater, -, hsame⟩ := hafter.resolve_left (hshown ▸ hnone)
  have hfirst := isOf_of_mem (heq ▸ hpiece)
  have hsecond := isOf_of_mem (hsame ▸ hshown.symm ▸ hpiece)
  rw [app_step] at hlater
  rw [hlater, ← (owner_eq hfirst hsecond).1, ← hown, hactive]

/-- The steps that mean something for replies leave the active thread as it is. -/
theorem active_of_notice (app : CliApp) {step : TerminalStep} (h : step.replyNotice ≠ .quiet) :
    (app.shell step).active = app.active := by
  cases step with
  | client step =>
      cases step with
      | event event =>
          have hannounced : event.payload.announced = none := by
            simp only [TerminalStep.replyNotice, ServerEvent.replyNotice] at h
            cases hpayload : event.payload <;> simp_all [ServerEventPayload.announced]
          refine (CliApp.active_receiveEvent event).trans ?_
          rw [hannounced, Option.or_none]
      | _ => exact absurd rfl h
  | _ => exact absurd rfl h

theorem owned_said_iff {step : TerminalStep} {piece : ReplyPiece}
    (hnotice : step.replyNotice = .said piece) :
    (watch.step step).Owned ↔ ∃ threadId turnId, watch.app.active = some threadId ∧
      (threadId, turnId) ∈ watch.running ∧ piece.isOf threadId (some turnId) ∧
        watch.shown = watch.receivedOf threadId turnId := by
  have hactive : (watch.step step).app.active = watch.app.active := by
    rw [app_step]
    exact active_of_notice watch.app (by simp [hnotice])
  have hstep : (watch.step step).running = watch.running ∧
      (watch.step step).shown = watch.shown ++ [piece] ∧
        (watch.step step).received = watch.received ++ [piece] := by
    simp [PreviewWatch.step, hnotice, note]
  obtain ⟨hrunning, hshown, hreceived⟩ := hstep
  have hfilter : ∀ threadId turnId, piece.isOf threadId (some turnId) = true →
      (watch.step step).receivedOf threadId turnId =
        watch.receivedOf threadId turnId ++ [piece] := by
    intro threadId turnId hpiece
    simp [receivedOf, hreceived, hpiece]
  unfold Owned
  rw [hactive, hrunning, hshown]
  constructor
  · rintro (hempty | ⟨threadId, turnId, hthread, hin, heq⟩)
    · simp at hempty
    · have hpiece := isOf_of_mem (heq ▸ List.mem_append_right _ (List.mem_singleton_self piece))
      rw [hfilter threadId turnId hpiece] at heq
      exact ⟨threadId, turnId, hthread, hin, hpiece, List.append_cancel_right heq⟩
  · rintro ⟨threadId, turnId, hthread, hin, hpiece, heq⟩
    exact .inr ⟨threadId, turnId, hthread, hin, by rw [hfilter threadId turnId hpiece, heq]⟩

theorem owned_ended_iff (h : watch.Owned) {step : TerminalStep} {threadId : ThreadId}
    {turnId : TurnId} (hnotice : step.replyNotice = .ended threadId turnId) :
    (watch.step step).Owned ↔ ∀ piece ∈ watch.shown, ¬ piece.isOf threadId (some turnId) := by
  have hactive : (watch.step step).app.active = watch.app.active := by
    rw [app_step]
    exact active_of_notice watch.app (by simp [hnotice])
  have hstep : (watch.step step).running = watch.running.filter (· != (threadId, turnId)) ∧
      (watch.step step).shown = watch.shown ∧ (watch.step step).received = watch.received := by
    simp [PreviewWatch.step, hnotice, note]
  obtain ⟨hrunning, hshown, hreceived⟩ := hstep
  have hreceivedOf : (watch.step step).receivedOf = watch.receivedOf := by
    funext other otherTurn
    rw [receivedOf, hreceived]
    rfl
  unfold Owned
  rw [hactive, hrunning, hshown, hreceivedOf]
  constructor
  · rintro (hempty | ⟨own, ownTurn, -, hin, heq⟩) piece hpiece hof
    · rw [hempty] at hpiece
      cases hpiece
    · obtain ⟨rfl, rfl⟩ := owner_eq hof (isOf_of_mem (heq ▸ hpiece))
      have hother := (List.mem_filter.mp hin).2
      simp at hother
  · intro hother
    rcases h with hempty | ⟨own, ownTurn, hthread, hin, heq⟩
    · exact .inl hempty
    · by_cases hnone : watch.shown = []
      · exact .inl hnone
      · refine .inr ⟨own, ownTurn, hthread, List.mem_filter.mpr ⟨hin, ?_⟩, heq⟩
        obtain ⟨piece, rest, hcons⟩ := List.exists_cons_of_ne_nil hnone
        have hpiece : piece ∈ watch.shown := hcons ▸ List.mem_cons_self
        have hown := isOf_of_mem (heq ▸ hpiece)
        rw [bne_iff_ne]
        intro hsame
        obtain ⟨rfl, rfl⟩ := Prod.mk.inj hsame
        exact hother piece hpiece hown

theorem owned_step_iff (h : watch.Owned) (step : TerminalStep) :
    (watch.step step).Owned ↔ watch.Orderly step := by
  have hstays : (watch.shown ≠ [] → ∀ threadId, watch.app.active = some threadId →
      (watch.app.choice step).getD threadId = threadId ∧ step.lists threadId) ↔
      (watch.shown ≠ [] → ∀ threadId, watch.app.active = some threadId →
        (watch.app.shell step).active = some threadId) :=
    forall_congr' fun _ => forall₂_congr fun _ hactive => (active_stays_iff hactive step).symm
  have hnoted : step.replyNotice ≠ .quiet → watch.shown ≠ [] → ∀ threadId,
      watch.app.active = some threadId → (watch.app.shell step).active = some threadId :=
    fun hnotice _ _ hactive => (active_of_notice watch.app hnotice).trans hactive
  unfold Orderly
  rw [hstays]
  cases hnotice : step.replyNotice with
  | said piece =>
      rw [owned_said_iff hnotice, and_iff_right (hnoted (by simp [hnotice]))]
  | ended threadId turnId =>
      rw [owned_ended_iff h hnotice, and_iff_right (hnoted (by simp [hnotice]))]
  | complete threadId turnId =>
      refine iff_of_true (.inl ?_) ⟨hnoted (by simp [hnotice]), trivial⟩
      simp [PreviewWatch.step, hnotice, note]
  | started threadId turnId =>
      refine iff_of_true ?_ ⟨hnoted (by simp [hnotice]), trivial⟩
      apply owned_of_stays h
      · exact .inl (by simp [PreviewWatch.step, hnotice, note])
      · simp [PreviewWatch.step, hnotice, note]
      · intro turn hin
        simp [PreviewWatch.step, hnotice, note, hin]
      · exact hnoted (by simp [hnotice])
  | quiet =>
      have hsame : (watch.step step).shown = watch.shown := by
        simp [PreviewWatch.step, hnotice, note]
      constructor
      · intro hafter
        exact ⟨fun hnone _ hactive => stays_of_owned h hafter hnone hsame hactive, trivial⟩
      · intro ⟨hkept, _⟩
        apply owned_of_stays h (.inl hsame) _ _ hkept
        · simp [PreviewWatch.step, hnotice, note]
        · intro turn hin
          simp [PreviewWatch.step, hnotice, note, hin]

end PreviewWatch

/-- The preview is right all the time if and only if the pieces of one reply after the other come
from turns of the active thread, each complete before its turn ends and before another thread
becomes active. -/
theorem preview_faithful_iff (steps : List TerminalStep) :
    (∀ watch ∈ Runs.states PreviewWatch.step PreviewWatch.new steps, watch.Faithful) ↔
      Runs.AllSteps PreviewWatch.step PreviewWatch.Orderly PreviewWatch.new steps := by
  have hshows : PreviewWatch.new.Shows := rfl
  refine Runs.invariant_iff (fun _ step h => h.step step) ?_ hshows (.inl rfl)
    (Runs.allSteps_true PreviewWatch.new steps)
  intro watch step h hfaithful _
  rw [PreviewWatch.faithful_iff_owned (h.step step)]
  exact PreviewWatch.owned_step_iff ((PreviewWatch.faithful_iff_owned h).mp hfaithful) step

/-! ### A reply that is never complete -/

def replyTurn (status : TurnStatus) : Turn :=
  { id := "turn_1", threadId := "thread_1", kind := .user, status := status, startedAt := "t1",
    endedAt := none, goal := none, summary := none, checkpointBefore := none,
    checkpointAfter := none }

def replyEvent (payload : ServerEventPayload) : TerminalStep :=
  .client (.event
    { threadId := "thread_1", turnId := some "turn_1", payload := payload, createdAt := "t1" })

/-- The turn is cancelled in the middle of its reply. -/
def cancelledReply : List TerminalStep :=
  [.client (.response (.threadStart (namedThread "thread_1"))),
    replyEvent (.turnStarted (replyTurn .running)), replyEvent (.assistantChunk "Hel" none false),
    replyEvent (.turnCancelled (replyTurn .cancelled))]

/-- The preview still shows the beginning of the reply when no turn is running. -/
theorem preview_outlives_turn :
    let watch := Runs.final PreviewWatch.step PreviewWatch.new cancelledReply
    (watch.running = [] ∧ watch.preview = some "Hel") ∧
      ¬ ∀ watch ∈ Runs.states PreviewWatch.step PreviewWatch.new cancelledReply,
        watch.Faithful := by
  have hrunning : (Runs.final PreviewWatch.step PreviewWatch.new cancelledReply).running = [] := by
    decide +kernel
  have hpreview : (Runs.final PreviewWatch.step PreviewWatch.new cancelledReply).preview =
      some "Hel" := by
    decide +kernel
  refine ⟨⟨hrunning, hpreview⟩, fun h => ?_⟩
  rcases h _ (Runs.final_mem_states _ _) with hnone | ⟨threadId, turnId, -, hin, -⟩
  · rw [hpreview] at hnone
    cases hnone
  · rw [hrunning] at hin
    cases hin

end Liz
