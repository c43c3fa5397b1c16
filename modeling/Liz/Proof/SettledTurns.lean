import Liz.Proof.Lifecycle

/-!
# Which requests leave no turn behind

Between two requests every active turn should be waiting, with a pending approval that names it. The
server goes on by itself after it has started or resumed a turn, and each of the calls it needs for
that ends the request silently when it fails. Every active turn is settled after every request of a
run exactly when none of these calls fails where the turn is still active.
-/

namespace Liz

open Program

/-- The turn is not active, or it waits and a pending approval names it. -/
def Settled (turnId : TurnId) (s : RuntimeCoordinator) : Prop :=
  ∀ turn, s.turnManager.activeTurns.lookup turnId = some turn →
    turn.status = .waitingApproval ∧
      ∃ id approval, s.approvals.lookup id = some approval ∧ approval.status = .pending ∧
        approval.turnId = turnId

/-- Every active turn waits for an approval that is pending. -/
def NoWedge (s : RuntimeCoordinator) : Prop := ∀ turnId, Settled turnId s

/-- The turn is active and no pending approval names it. -/
structure Unsettled (turnId : TurnId) (s : RuntimeCoordinator) : Prop where
  active : s.turnManager.activeTurns.lookup turnId ≠ none
  unnamed : ∀ id approval, s.approvals.lookup id = some approval → approval.status = .pending →
    approval.turnId ≠ turnId

/-! ### Seeing a turn through -/

/-- The call returns a value, and `next` holds of it. -/
def Yields {α : Type} (next : α → AppServer → Prop) : Except RuntimeError α → AppServer → Prop
  | .ok value, s => next value s
  | .error _, _ => False

/-- A call of the runtime succeeds, and `next` holds of what it returns and leaves. -/
def Succeeds {α : Type} (p : RuntimeM α) (next : α → AppServer → Prop) (s : AppServer) : Prop :=
  wp (onRuntime p) (Yields next) (fun _ _ => False) s

section Conditions

variable [World]

/-- Where the rounds end, the thread of the turn can be read. -/
def RoundsEndInReach (baseRequest : ModelTurnRequest) (outputContext : Option InteractionContext)
    (answers : List GatewayAnswer) (s : AppServer) : Prop :=
  wp (runRounds baseRequest outputContext answers [] "" 0)
    (fun _ t => (foundThread t.runtime.stores baseRequest.thread.id).isOk = true)
    (fun _ _ => True) s

/-- A started turn is put up for approval, or its rounds end where its thread can be read. -/
def DecisionSeenThrough (request : TurnStartRequest) (answers : List GatewayAnswer) (turn : Turn)
    (thread : Thread) (context : AssembledContext) (s : AppServer) : Prop :=
  if s.approvalPolicy = .onRequest ∧ needsApproval request.input = true then
    Succeeds (RuntimeCoordinator.requireApprovalForTurn thread.id turn.id
      (evaluatePolicy request.input context)) (fun _ _ => True) s
  else
    RoundsEndInReach (baseRequestFor thread turn context.systemPrompt context.developerPrompt
      context.userPrompt) request.interactionContext answers s

def StartSeenThrough (request : TurnStartRequest) (answers : List GatewayAnswer) (turn : Turn) :
    AppServer → Prop :=
  Succeeds (onTurns (readThread turn.threadId)) fun read s => ∃ thread ∈ read,
    Succeeds (onTurns (assembleContextForInteraction thread.id request.input request.participant
      request.interactionContext)) (DecisionSeenThrough request answers turn thread) s

/-- A resumed turn is marked as running, and its rounds end where its thread can be read. -/
def ResumptionSeenThrough (approval : ApprovalRequest) (answers : List GatewayAnswer) :
    AppServer → Prop :=
  Succeeds (RuntimeCoordinator.resumeApprovedTurn approval.threadId approval.turnId) fun turn =>
    Succeeds (onTurns (readThread approval.threadId)) fun read s => ∃ thread ∈ read,
      Succeeds (onTurns (assembleContext thread.id (turn.goal.getD ""))) (fun context =>
        RoundsEndInReach (baseRequestFor thread turn context.systemPrompt context.developerPrompt
          context.userPrompt) none answers) s

/-- The turn of a denied approval can be cancelled. -/
def DenialSeenThrough (approval : ApprovalRequest) (turn : Turn) (s : AppServer) : Prop :=
  (foundThread s.runtime.stores approval.threadId).isOk = true ∧ turn.threadId = approval.threadId

def AnswerSeenThrough (decision : ApprovalDecision) (answers : List GatewayAnswer)
    (approval : ApprovalRequest) (s : AppServer) : Prop :=
  ∀ turn ∈ s.runtime.turnManager.activeTurns.lookup approval.turnId,
    match decision with
    | .deny => DenialSeenThrough approval turn s
    | _ => ResumptionSeenThrough approval answers s

/-- What the server does by itself after the response leaves no turn behind. -/
def SeenThrough (answers : List GatewayAnswer) : ClientRequest → ServerResponse → AppServer → Prop
  | .turnStart request, .success (.turnStart turn) => StartSeenThrough request answers turn
  | .approvalRespond request, .success (.approvalRespond approval) =>
      AnswerSeenThrough request.decision answers approval
  | _, _ => fun _ => True

def AppServer.SeesThrough (s : AppServer) (input : ServerInput) : Prop :=
  wp (dispatched input.request) (SeenThrough input.answers input.request) (fun _ _ => True) s

/-- The gateway answers until the request is handled. -/
def AppServer.Returns (s : AppServer) (input : ServerInput) : Prop :=
  (s.response input).isSome = true

/-! ### The conditions can be computed -/

instance {α : Type} (next : α → AppServer → Prop) [∀ value s, Decidable (next value s)] :
    ∀ result s, Decidable (Yields next result s)
  | .ok value, s => inferInstanceAs (Decidable (next value s))
  | .error _, _ => inferInstanceAs (Decidable False)

instance {α : Type} (p : RuntimeM α) (next : α → AppServer → Prop)
    [∀ value s, Decidable (next value s)] (s : AppServer) : Decidable (Succeeds p next s) :=
  inferInstanceAs (Decidable (wp _ _ _ _))

instance (baseRequest : ModelTurnRequest) (outputContext : Option InteractionContext)
    (answers : List GatewayAnswer) (s : AppServer) :
    Decidable (RoundsEndInReach baseRequest outputContext answers s) :=
  inferInstanceAs (Decidable (wp _ _ _ _))

instance (request : TurnStartRequest) (answers : List GatewayAnswer) (turn : Turn)
    (thread : Thread) (context : AssembledContext) (s : AppServer) :
    Decidable (DecisionSeenThrough request answers turn thread context s) :=
  inferInstanceAs (Decidable (ite _ _ _))

instance (request : TurnStartRequest) (answers : List GatewayAnswer) (turn : Turn) (s : AppServer) :
    Decidable (StartSeenThrough request answers turn s) :=
  inferInstanceAs (Decidable (Succeeds _ _ _))

instance (approval : ApprovalRequest) (answers : List GatewayAnswer) (s : AppServer) :
    Decidable (ResumptionSeenThrough approval answers s) :=
  inferInstanceAs (Decidable (Succeeds _ _ _))

instance (approval : ApprovalRequest) (turn : Turn) (s : AppServer) :
    Decidable (DenialSeenThrough approval turn s) :=
  inferInstanceAs (Decidable (_ ∧ _))

instance (decision : ApprovalDecision) (answers : List GatewayAnswer) (approval : ApprovalRequest)
    (s : AppServer) : Decidable (AnswerSeenThrough decision answers approval s) :=
  have (turn : Turn) : Decidable (match decision with
      | .deny => DenialSeenThrough approval turn s
      | _ => ResumptionSeenThrough approval answers s) := by
    cases decision <;> infer_instance
  inferInstanceAs (Decidable (∀ turn ∈ _, _))

instance (answers : List GatewayAnswer) (request : ClientRequest) (response : ServerResponse)
    (s : AppServer) : Decidable (SeenThrough answers request response s) := by
  unfold SeenThrough
  split <;> infer_instance

instance (s : AppServer) (input : ServerInput) : Decidable (s.SeesThrough input) :=
  inferInstanceAs (Decidable (wp _ _ _ _))

instance (s : AppServer) (input : ServerInput) : Decidable (s.Returns input) :=
  inferInstanceAs (Decidable (_ = _))

end Conditions

/-! ### Settled and unsettled turns -/

section Turns

variable {turnId : TurnId} {O : Observation → Prop} {s t : AppServer}

theorem settled_of_inactive {s : RuntimeCoordinator}
    (h : s.turnManager.activeTurns.lookup turnId = none) : Settled turnId s := by
  intro turn hturn
  rw [h] at hturn
  exact absurd hturn (by simp)

theorem Unsettled.not_settled {s : RuntimeCoordinator} (h : Unsettled turnId s) :
    ¬ Settled turnId s := by
  intro hsettled
  obtain ⟨turn, hturn⟩ := Option.ne_none_iff_exists'.mp h.active
  obtain ⟨-, id, approval, hfound, hpending, hnames⟩ := hsettled turn hturn
  exact h.unnamed id approval hfound hpending hnames

theorem Does.lookup (h : Does (fun _ => False) O s t) (turnId : TurnId) :
    t.runtime.turnManager.activeTurns.lookup turnId =
      s.runtime.turnManager.activeTurns.lookup turnId :=
  h.turns.others turnId id

theorem Does.settled_iff (h : Does (fun _ => False) O s t) :
    Settled turnId t.runtime ↔ Settled turnId s.runtime := by
  unfold Settled
  rw [h.lookup, h.approvals]

theorem Does.unsettled (h : Does (fun _ => False) O s t) (hs : Unsettled turnId s.runtime) :
    Unsettled turnId t.runtime :=
  ⟨h.lookup turnId ▸ hs.active, h.approvals ▸ hs.unnamed⟩

theorem Asks.settled {approval : ApprovalRequest} {s t : RuntimeCoordinator}
    (h : Asks turnId approval s t) : Settled turnId t := by
  obtain ⟨waiting, hwaiting, hstatus⟩ := h.waiting
  intro turn hturn
  rw [hwaiting, Option.some.injEq] at hturn
  refine ⟨hturn ▸ hstatus, approval.id, approval, ?_, h.pending, h.names⟩
  rw [h.approvals, AList.lookup_insert]

theorem Abandons.unsettled {s t : RuntimeCoordinator} (h : Abandons turnId s t)
    (hs : Unsettled turnId s) : Unsettled turnId t :=
  ⟨h.active hs.active, h.approvals ▸ hs.unnamed⟩

end Turns

/-! ### What settles a turn

Each of the programs that the server runs by itself ends with the turn settled exactly when the
condition on it holds. -/

section Programs

variable [World] {turnId : TurnId} {s : AppServer}

/-- The program returns with the turn settled exactly when `C` holds. -/
abbrev SettlesIff (turnId : TurnId) (C : Prop) (p : ServerM Unit) (s : AppServer) : Prop :=
  wp p (fun _ t => Settled turnId t.runtime ↔ C) (fun _ _ => True) s

omit [World] in
/-- A call that changes no turn, and what the server does with its result. -/
theorem settles_call {α : Type} {p : RuntimeM α} {next : α → AppServer → Prop}
    {go : Except RuntimeError α → ServerM Unit} (hp : Guarantees Quiet p)
    (hs : Unsettled turnId s.runtime)
    (hok : ∀ value t, Unsettled turnId t.runtime →
      SettlesIff turnId (next value t) (go (.ok value)) t)
    (herror : ∀ e, go (.error e) = pure ()) :
    SettlesIff turnId (Succeeds p next s) (onRuntime p >>= go) s := by
  refine wp_bind_iff (onRuntime_works (P := fun _ => False) (O := fun _ => True) hp s) ?_
    (fun _ _ _ => trivial)
  intro result t hworks
  have ht := hworks.unsettled hs
  cases result with
  | ok value => exact hok value t ht
  | error e =>
      rw [herror, wp_pure]
      exact iff_of_false ht.not_settled id

/-- Closing a turn takes it out of the table exactly when its thread can be read. -/
theorem lookups_closeTurn_settles {threadId : ThreadId} {event : String}
    {finish : Timestamp → Turn → Turn} {project : Timestamp → Turn → Thread → Thread}
    {runtime : TurnRuntime} (hfinish : ∀ endedAt turn, (finish endedAt turn).id = turn.id)
    (hactive : runtime.turnManager.activeTurns.lookup turnId ≠ none) :
    wp (do
        let thread ← requireThread threadId
        let turn ← requireTurn turnId
        closeTurn thread turnId turn event finish project)
      (fun _ t => t.turnManager.activeTurns.lookup turnId = none ∧
        (foundThread runtime.stores threadId).isOk = true)
      (fun _ t => if (foundThread runtime.stores threadId).isOk = true
        then t.turnManager.activeTurns.lookup turnId = none else KeepsTurns runtime t) runtime := by
  rw [wp_lookups]
  refine ⟨fun e he => ?_, fun thread hthread => ⟨fun hnone => absurd hnone hactive,
    fun turn hturn => ?_⟩⟩
  · rw [he]
    exact .of_eq rfl rfl
  · rw [hthread]
    exact wp_mono (closeTurn_erases hfinish) (fun _ t h => ⟨h.1.lookup_self, rfl⟩)
      (fun _ t h => h.lookup_self)

theorem closing_settles {closing : TurnM Turn} {threadId : ThreadId} {found : Bool}
    (payload : Turn → ServerEventPayload)
    (hclosing : wp closing
      (fun _ t => t.turnManager.activeTurns.lookup turnId = none ∧ found = true)
      (fun _ t => if found = true then t.turnManager.activeTurns.lookup turnId = none
        else KeepsTurns s.runtime.toTurnRuntime t) s.runtime.toTurnRuntime)
    (hs : Unsettled turnId s.runtime) :
    SettlesIff turnId (found = true) (do
      match ← onRuntime (onTurns closing) with
      | .ok turn => do
          publish threadId (some turn.id) (payload turn)
          compileMemoryForThread threadId (some turnId)
      | .error _ => pure ()) s := by
  rw [SettlesIff, wp_bind, wp_onRuntime, wp_onTurns]
  refine wp_mono hclosing ?_ ?_
  · rintro turn turns ⟨hnone, hfound⟩
    dsimp only
    rw [wp_bind, wp_publish]
    refine wp_mono (compileMemoryForThread_works (P := fun _ => False) (R := fun _ => False) _ _ _)
      (fun _ t hworks => ?_) (fun _ _ _ => trivial)
    exact iff_of_true (hworks.settled_iff.mpr (settled_of_inactive hnone)) hfound
  · intro _ turns h
    dsimp only
    rw [wp_pure]
    split at h
    · next hfound => exact iff_of_true (settled_of_inactive h) hfound
    · next hmissing =>
        have hkept : Unsettled turnId { s.runtime with toTurnRuntime := turns } :=
          ⟨h.activeTurns ▸ hs.active, hs.unnamed⟩
        exact iff_of_false hkept.not_settled hmissing

theorem finishModelTurn_settles (threadId : ThreadId) (outputContext : Option InteractionContext)
    (ending : Except ModelError (Option String)) (hs : Unsettled turnId s.runtime) :
    SettlesIff turnId ((foundThread s.runtime.stores threadId).isOk = true)
      (finishModelTurn threadId turnId outputContext ending) s := by
  cases ending with
  | error error =>
      exact closing_settles (fun turn => .turnFailed turn error.display)
        (lookups_closeTurn_settles (by intros; rfl) hs.active) hs
  | ok assistantMessage =>
      exact closing_settles .turnCompleted
        (lookups_closeTurn_settles (by intros; rfl) hs.active) hs

theorem streamModelTurn_settles (thread : Thread) (turn : Turn) (context : AssembledContext)
    (outputContext : Option InteractionContext) (answers : List GatewayAnswer)
    (hs : Unsettled turn.id s.runtime) :
    SettlesIff turn.id
      (RoundsEndInReach (baseRequestFor thread turn context.systemPrompt context.developerPrompt
        context.userPrompt) outputContext answers s)
      (streamModelTurn thread turn context.systemPrompt context.developerPrompt context.userPrompt
        outputContext answers) s := by
  refine wp_bind_iff (runRounds_works (P := fun _ => False) (R := fun _ => True) trivial _ _ _ _ _
    s) ?_ (fun _ _ _ => trivial)
  intro ending t hworks
  exact finishModelTurn_settles thread.id outputContext ending (hworks.unsettled hs)

theorem requestApproval_settles (threadId : ThreadId) (decision : PolicyDecision)
    (hs : Unsettled turnId s.runtime) :
    SettlesIff turnId
      (Succeeds (RuntimeCoordinator.requireApprovalForTurn threadId turnId decision)
        (fun _ _ => True) s)
      (requestApproval threadId turnId decision) s := by
  have hasked : wp (onRuntime (RuntimeCoordinator.requireApprovalForTurn threadId turnId decision))
      (fun result t => match result with
        | .ok asked => Asks turnId asked.2 s.runtime t.runtime
        | .error _ => Abandons turnId s.runtime t.runtime) (fun _ _ => True) s := by
    rw [wp_onRuntime]
    exact requireApprovalForTurn_asks threadId turnId decision s.runtime
  refine wp_bind_iff hasked ?_ (fun _ _ _ => trivial)
  rintro (e | ⟨checkpoint, approval⟩) t h
  · exact iff_of_false (h.unsettled hs).not_settled id
  · simp only [wp_publishAll]
    exact iff_of_true h.settled trivial

theorem decideTurn_settles (request : TurnStartRequest) (answers : List GatewayAnswer)
    (turn : Turn) (thread : Thread) (context : AssembledContext)
    (hs : Unsettled turn.id s.runtime) :
    SettlesIff turn.id (DecisionSeenThrough request answers turn thread context s)
      (decideTurn request answers turn thread context) s := by
  unfold decideTurn DecisionSeenThrough
  dsimp only
  rw [SettlesIff, wp_bind, wp_get, requiresApproval_eq]
  generalize evaluatePolicy request.input context = decision
  split
  · exact requestApproval_settles thread.id decision hs
  · exact streamModelTurn_settles thread turn context request.interactionContext answers hs

/-- What the server does with the thread it has read and the context assembled for it. -/
theorem settles_read {threadId : ThreadId} {assembled : Thread → TurnM AssembledContext}
    {next : Thread → AssembledContext → AppServer → Prop}
    {go : Thread → AssembledContext → ServerM Unit} (hs : Unsettled turnId s.runtime)
    (hassembled : ∀ thread, Guarantees KeepsTurns (assembled thread))
    (hgo : ∀ thread context t, Unsettled turnId t.runtime →
      SettlesIff turnId (next thread context t) (go thread context) t) :
    SettlesIff turnId
      (Succeeds (onTurns (readThread threadId)) (fun read t => ∃ thread ∈ read,
        Succeeds (onTurns (assembled thread)) (next thread) t) s)
      (do
        match ← onRuntime (onTurns (readThread threadId)) with
        | .ok (some thread) => do
            match ← onRuntime (onTurns (assembled thread)) with
            | .ok context => go thread context
            | .error _ => pure ()
        | _ => pure ()) s := by
  refine settles_call (onTurns_quiet (readThread_keepsTurns threadId)) hs ?_ (fun _ => rfl)
  intro read t ht
  cases read with
  | none => exact iff_of_false ht.not_settled (by simp)
  | some thread =>
      simp only [Option.mem_some_iff, exists_eq_left']
      exact settles_call (onTurns_quiet (hassembled thread)) ht
        (fun context u hu => hgo thread context u hu) (fun _ => rfl)

theorem continueTurnAfterPolicy_settles (request : TurnStartRequest)
    (answers : List GatewayAnswer) (turn : Turn) (hs : Unsettled turn.id s.runtime) :
    SettlesIff turn.id (StartSeenThrough request answers turn s)
      (continueTurnAfterPolicy request answers turn) s :=
  settles_read hs (fun _ => assembleContextForInteraction_keepsTurns _ _ _ _)
    fun thread context _ ht => decideTurn_settles request answers turn thread context ht

theorem runResumedTurn_settles (approval : ApprovalRequest) (answers : List GatewayAnswer)
    (turn : Turn) (hs : Unsettled turn.id s.runtime) :
    SettlesIff turn.id
      (Succeeds (onTurns (readThread approval.threadId)) (fun read t => ∃ thread ∈ read,
        Succeeds (onTurns (assembleContext thread.id (turn.goal.getD ""))) (fun context =>
          RoundsEndInReach (baseRequestFor thread turn context.systemPrompt context.developerPrompt
            context.userPrompt) none answers) t) s)
      (runResumedTurn approval answers turn) s :=
  settles_read hs (fun _ => assembleContextForInteraction_keepsTurns _ _ _ _)
    fun thread context _ ht => streamModelTurn_settles thread turn context none answers ht

theorem resumeAfterApproval_settles (approval : ApprovalRequest) (answers : List GatewayAnswer)
    (hfiled : Filed s.runtime.toTurnRuntime) (hs : Unsettled approval.turnId s.runtime) :
    SettlesIff approval.turnId (ResumptionSeenThrough approval answers s)
      (resumeAfterApproval approval answers) s := by
  have hmarked : ∀ marked turns, Marks approval.turnId marked s.runtime.toTurnRuntime turns →
      Unsettled approval.turnId { s.runtime with toTurnRuntime := turns } :=
    fun marked turns h => ⟨by simp [h.lookup_self], hs.unnamed⟩
  have hresumed : wp (onRuntime
        (RuntimeCoordinator.resumeApprovedTurn approval.threadId approval.turnId))
      (fun result t => Unsettled approval.turnId t.runtime ∧
        ∀ turn, result = .ok turn → turn.id = approval.turnId) (fun _ _ => True) s := by
    rw [RuntimeCoordinator.resumeApprovedTurn, wp_onRuntime, wp_onTurns]
    refine wp_mono markTurn_marks ?_ ?_
    · rintro _ turns ⟨found, hfound, rfl, hmarks⟩
      refine ⟨hmarked _ turns hmarks, fun turn hturn => ?_⟩
      exact Except.ok.inj hturn ▸ hfiled approval.turnId found hfound
    · rintro e turns (hkept | ⟨found, -, hmarks⟩)
      · exact ⟨⟨hkept.activeTurns ▸ hs.active, hs.unnamed⟩, by simp⟩
      · exact ⟨hmarked _ turns hmarks, by simp⟩
  refine wp_bind_iff hresumed ?_ (fun _ _ _ => trivial)
  rintro (e | turn) t ⟨ht, hid⟩
  · exact iff_of_false ht.not_settled id
  · rw [← hid turn rfl] at ht ⊢
    exact runResumedTurn_settles approval answers turn ht

theorem cancelAfterDenial_settles {approval : ApprovalRequest} {turn : Turn}
    (hturn : s.runtime.turnManager.activeTurns.lookup approval.turnId = some turn)
    (hs : Unsettled approval.turnId s.runtime) :
    SettlesIff approval.turnId (DenialSeenThrough approval turn s) (cancelAfterDenial approval)
      s := by
  unfold cancelAfterDenial
  rw [SettlesIff, wp_bind, wp_onRuntime, wp_onTurns]
  by_cases hseen : DenialSeenThrough approval turn s
  · refine wp_mono (cancelTurn_erases _) ?_ ?_
    · rintro closed turns ⟨herased, -⟩
      have hrest : Guarantees (Works (fun _ => False) (fun _ => False)) (do
          publish approval.threadId (some closed.id) (.turnCancelled closed)
          publishAll (← threadEvent approval.threadId closed.id .threadInterrupted)
          compileMemoryForThread approval.threadId (some closed.id)) := by
        refine Guarantees.bind Does.trans (publish_works _ _ _) fun _ => ?_
        refine Guarantees.bind Does.trans (threadEvent_works _ _ _) fun _ => ?_
        exact Guarantees.bind Does.trans (publishAll_works _) fun _ =>
          compileMemoryForThread_works _ _
      refine wp_mono (hrest _) (fun _ t hworks => ?_) (fun _ _ _ => trivial)
      exact iff_of_true (hworks.settled_iff.mpr (settled_of_inactive herased.lookup_self)) hseen
    · rintro e turns (herased | ⟨-, ⟨e', he⟩ | hmismatch⟩)
      · exact iff_of_true (settled_of_inactive herased.lookup_self) hseen
      · exact absurd hseen.1 (by rw [he]; simp [Except.isOk, Except.toBool])
      · exact absurd hseen.2 (hmismatch turn hturn)
  · have hrefused : CancelRefused s.runtime.toTurnRuntime
        { threadId := approval.threadId, turnId := approval.turnId } := by
      cases hfound : foundThread s.runtime.stores approval.threadId with
      | error e => exact Or.inl ⟨e, hfound⟩
      | ok thread =>
          refine Or.inr fun other hother hsame => hseen ⟨by rw [hfound]; rfl, ?_⟩
          rw [hturn, Option.some.injEq] at hother
          exact hother ▸ hsame
    refine wp_mono (cancelTurn_refused hrefused) (fun _ _ h => h.elim) (fun e turns hkept => ?_)
    have hkept : Unsettled approval.turnId { s.runtime with toTurnRuntime := turns } :=
      ⟨hkept.activeTurns ▸ hs.active, hs.unnamed⟩
    exact iff_of_false hkept.not_settled hseen

/-- The turn of an answered approval is settled when it is not active any more. -/
theorem continueAfterApproval_settles (decision : ApprovalDecision) (answers : List GatewayAnswer)
    (approval : ApprovalRequest) (hfiled : Filed s.runtime.toTurnRuntime)
    (hunnamed : ∀ id other, s.runtime.approvals.lookup id = some other →
      other.status = .pending → other.turnId ≠ approval.turnId) :
    SettlesIff approval.turnId (AnswerSeenThrough decision answers approval s)
      (continueAfterApproval decision answers approval) s := by
  cases hturn : s.runtime.turnManager.activeTurns.lookup approval.turnId with
  | none =>
      refine wp_mono (continueAfterApproval_works ⟨approval.id, decision⟩ answers approval hfiled)
        (fun _ t hworks => ?_) (fun _ _ _ => trivial)
      exact iff_of_true (settled_of_inactive (hworks.turns.inactive hturn))
        (by simp [AnswerSeenThrough, hturn])
  | some turn =>
      have hs : Unsettled approval.turnId s.runtime := ⟨by simp [hturn], hunnamed⟩
      have hcondition : AnswerSeenThrough decision answers approval s ↔ (match decision with
          | .deny => DenialSeenThrough approval turn s
          | _ => ResumptionSeenThrough approval answers s) := by
        simp only [AnswerSeenThrough, hturn, Option.mem_some_iff, forall_eq']
      rw [hcondition]
      cases decision with
      | deny => exact cancelAfterDenial_settles hturn hs
      | approveOnce => exact resumeAfterApproval_settles approval answers hfiled hs
      | approveAndPersist => exact resumeAfterApproval_settles approval answers hfiled hs

end Programs

/-! ### Steps -/

section Steps

/-- A turn stays settled when it and the approvals that name it stay as they are. -/
theorem Settled.of_others {turnId : TurnId} {s t : RuntimeCoordinator} (h : Settled turnId s)
    (hturn : t.turnManager.activeTurns.lookup turnId = s.turnManager.activeTurns.lookup turnId)
    (happrovals : ∀ id approval, s.approvals.lookup id = some approval →
      approval.turnId = turnId → t.approvals.lookup id = some approval) : Settled turnId t := by
  intro turn hactive
  obtain ⟨hwaiting, id, approval, hfound, hpending, hnames⟩ := h turn (hturn ▸ hactive)
  exact ⟨hwaiting, id, approval, happrovals id approval hfound hnames, hpending, hnames⟩

theorem Does.noWedge {O : Observation → Prop} {s t : AppServer} (h : Does (fun _ => False) O s t)
    (hs : NoWedge s.runtime) : NoWedge t.runtime := fun id => h.settled_iff.mpr (hs id)

/-- A started turn leaves the other turns settled. -/
theorem Continues.settled_others {turn : Turn} {R : TurnId → Prop} {s m t : AppServer}
    (hbegins : Begins turn s m) (h : Continues turn.id R m t) (hs : Orderly s.runtime)
    (hsettled : NoWedge s.runtime) {id : TurnId} (hid : id ≠ turn.id) : Settled id t.runtime := by
  have hm : Settled id m.runtime := by
    refine (hsettled id).of_others ?_ (fun _ _ hfound _ => hbegins.approvals ▸ hfound)
    rw [hbegins.starts.activeTurns, AList.lookup_insert_ne hid]
  cases h with
  | worked hworks =>
      exact hm.of_others (hworks.turns.others id hid) (fun _ _ hfound _ => hworks.approvals ▸ hfound)
  | asked approval hasks =>
      refine hm.of_others (hasks.turns.others id hid) fun aid other hfound _ => ?_
      have hne : aid ≠ approval.id := by
        rintro rfl
        exact hasks.fresh ((hbegins.orderly hs).approvalsIssued _ other hfound).1
      rw [hasks.approvals, AList.lookup_insert_ne hne]
      exact hfound

/-- A turn that has just been started is active, and no approval names it. -/
theorem Begins.unsettled {turn : Turn} {s m : AppServer} (h : Begins turn s m)
    (hs : Orderly s.runtime) : Unsettled turn.id m.runtime := by
  refine ⟨?_, fun id other hfound _ => h.unnamed hs id other hfound⟩
  rw [h.starts.activeTurns, AList.lookup_insert]
  simp

/-- Once an approval has been answered no pending approval names its turn. -/
theorem Answers.unnamed {request : ApprovalRespondRequest} {approval : ApprovalRequest}
    {s m : AppServer} (h : Answers request approval s m) (hs : Orderly s.runtime) :
    ∀ id other, m.runtime.approvals.lookup id = some other → other.status = .pending →
      other.turnId ≠ approval.turnId := by
  intro id other hfound hpending hnames
  rw [h.runtime, lookup_withApproval] at hfound
  split at hfound
  · exact answered_ne_pending (Option.some.inj hfound ▸ hpending)
  · next hid => exact hid (hs.oneApproval id request.approvalId other approval hfound h.found hnames)

/-- An answered approval leaves the other turns settled. -/
theorem FollowsUp.settled_others {request : ApprovalRespondRequest} {approval : ApprovalRequest}
    {s m t : AppServer} (hanswers : Answers request approval s m)
    (h : FollowsUp request approval m t) (hsettled : NoWedge s.runtime) {id : TurnId}
    (hid : id ≠ approval.turnId) : Settled id t.runtime := by
  refine (hsettled id).of_others ?_ fun aid other hfound hnames => ?_
  · rw [h.turns.others id hid, hanswers.runtime]
    rfl
  · have hne : aid ≠ request.approvalId := by
      rintro rfl
      rw [hanswers.found, Option.some.injEq] at hfound
      exact hid (hfound ▸ hnames.symm)
    rw [h.approvals, hanswers.runtime, lookup_withApproval, if_neg hne]
    exact hfound

/-- The approvals are as they were, and turns may have left the table. -/
structure Removes (s t : AppServer) : Prop where
  approvals : t.runtime.approvals = s.runtime.approvals
  known : ∀ id turn, t.runtime.turnManager.activeTurns.lookup id = some turn →
    s.runtime.turnManager.activeTurns.lookup id = some turn

theorem Removes.trans ⦃s t u : AppServer⦄ (h : Removes s t) (h' : Removes t u) : Removes s u :=
  ⟨h'.approvals.trans h.approvals, fun id turn hturn => h.known id turn (h'.known id turn hturn)⟩

theorem Removes.noWedge {s t : AppServer} (h : Removes s t) (hs : NoWedge s.runtime) :
    NoWedge t.runtime := by
  intro id turn hturn
  rw [h.approvals]
  exact hs id turn (h.known id turn hturn)

variable [World]

theorem handleRequest_turnCancel_removes (request : TurnCancelRequest)
    (answers : List GatewayAnswer) :
    Guarantees Removes (handleRequest (.turnCancel request) answers) := by
  refine handleRequest_turnCancel_of Removes.trans
    (fun s t h => ⟨h.approvals, fun id turn hturn => h.lookup id ▸ hturn⟩) ?_ answers
  have herased : ∀ (s : AppServer) turns,
      Erases request.turnId s.runtime.toTurnRuntime turns →
      Removes s { s with runtime := { s.runtime with toTurnRuntime := turns } } :=
    fun s turns h => ⟨rfl, fun id turn hturn => h.known hturn⟩
  intro s
  rw [wp_onRuntime, wp_onTurns]
  refine wp_mono (cancelTurn_erases request) (fun _ turns h => herased s turns h.1) ?_
  rintro _ turns (h | ⟨h, -⟩)
  · exact herased s turns h
  · exact ⟨rfl, fun id turn hturn => h.activeTurns ▸ hturn⟩

/-- A started turn is the only one that may be left behind. -/
theorem handleRequest_turnStart_settles (request : TurnStartRequest)
    (answers : List GatewayAnswer) {s : AppServer} (h : Orderly s.runtime)
    (hs : NoWedge s.runtime) :
    wp (handleRequest (.turnStart request) answers)
      (fun _ t => NoWedge t.runtime ↔ s.SeesThrough ⟨.turnStart request, answers⟩)
      (fun _ _ => True) s := by
  rw [handleRequest_eq]
  refine wp_bind_iff (dispatched_turnStart request s) ?_ (fun _ _ _ => trivial)
  rintro response m (⟨turn, rfl, hbegins⟩ | ⟨hnone, hworks⟩)
  · rw [wp_bind]
    refine wp_mono (wp_and
      (continueTurnAfterPolicy_settles request answers turn (hbegins.unsettled h))
      (continueTurnAfterPolicy_continues request answers turn m)) ?_ (fun _ _ _ => trivial)
    rintro _ t ⟨hiff, hcontinues⟩
    refine ⟨fun ht => hiff.mp (ht turn.id), fun hseen id => ?_⟩
    by_cases hid : id = turn.id
    · exact hid ▸ hiff.mpr hseen
    · exact hcontinues.settled_others hbegins h hs hid
  · rw [continueAfter_of_not_started hnone, wp_bind, wp_pure]
    refine iff_of_true (hworks.noWedge hs) ?_
    rcases response with ⟨payload⟩ | _
    · cases payload <;> first | trivial | exact absurd rfl (hnone _)
    · trivial

/-- The turn of an answered approval is the only one that may be left behind. -/
theorem handleRequest_approvalRespond_settles (request : ApprovalRespondRequest)
    (answers : List GatewayAnswer) {s : AppServer} (h : Orderly s.runtime)
    (hs : NoWedge s.runtime) :
    wp (handleRequest (.approvalRespond request) answers)
      (fun _ t => NoWedge t.runtime ↔ s.SeesThrough ⟨.approvalRespond request, answers⟩)
      (fun _ _ => True) s := by
  rw [handleRequest_eq]
  refine wp_bind_iff (dispatched_approvalRespond request s) ?_ (fun _ _ _ => trivial)
  rintro response m (⟨approval, rfl, hanswers⟩ | ⟨⟨code, message, retryable, rfl⟩, hworks⟩)
  · have hfiled : Filed m.runtime.toTurnRuntime := hanswers.runtime ▸ h.filed
    rw [wp_bind]
    refine wp_mono (wp_and
      (continueAfterApproval_settles request.decision answers
        (RuntimeCoordinator.answered request.decision approval) hfiled (hanswers.unnamed h))
      (continueAfterApproval_works request answers
        (RuntimeCoordinator.answered request.decision approval) hfiled)) ?_ (fun _ _ _ => trivial)
    rintro _ t ⟨hiff, hfollows⟩
    refine ⟨fun ht => hiff.mp (ht approval.turnId), fun hseen id => ?_⟩
    by_cases hid : id = approval.turnId
    · exact hid ▸ hiff.mpr hseen
    · exact FollowsUp.settled_others hanswers hfollows hs hid
  · exact iff_of_true (hworks.noWedge hs) trivial

/-- A request leaves every active turn settled exactly when it is seen through. -/
theorem noWedge_step_iff {s : AppServer} (h : Orderly s.runtime) (hs : NoWedge s.runtime)
    {input : ServerInput} (hreturns : s.Returns input) :
    NoWedge (s.step input).runtime ↔ s.SeesThrough input := by
  obtain ⟨response, hresponse⟩ := Option.isSome_iff_exists.mp hreturns
  obtain ⟨request, answers⟩ := input
  suffices hwp : wp (handleRequest request answers)
      (fun _ t => NoWedge t.runtime ↔ s.SeesThrough ⟨request, answers⟩) (fun _ _ => True) s from
    wp_of_result hwp hresponse
  have hidle (hseen : ∀ response m, SeenThrough answers request response m)
      (hkept : Guarantees (fun s t => NoWedge s.runtime → NoWedge t.runtime)
        (handleRequest request answers)) :
      wp (handleRequest request answers)
        (fun _ t => NoWedge t.runtime ↔ s.SeesThrough ⟨request, answers⟩) (fun _ _ => True) s := by
    have htrue : s.SeesThrough ⟨request, answers⟩ := by
      unfold AppServer.SeesThrough wp
      split
      · exact hseen _ _
      · trivial
    exact wp_mono (hkept s) (fun _ t ht => iff_of_true (ht hs) htrue) (fun _ _ _ => trivial)
  by_cases hordinary : request.ordinary = true
  · refine hidle ?_ ?_
    · cases request <;>
        first
        | exact fun _ _ => trivial
        | exact absurd hordinary (by simp [ClientRequest.ordinary])
    · exact Guarantees.mono (handleRequest_ordinary (R := fun _ => True) hordinary answers)
        fun _ _ => Does.noWedge
  · cases request with
    | turnStart request => exact handleRequest_turnStart_settles request answers h hs
    | approvalRespond request => exact handleRequest_approvalRespond_settles request answers h hs
    | turnCancel request =>
        exact hidle (fun _ _ => trivial)
          (Guarantees.mono (handleRequest_turnCancel_removes request answers)
            fun _ _ => Removes.noWedge)
    | _ => exact absurd rfl hordinary

end Steps

/-! ### Runs -/

section Runs

variable [World]

/-- In a run whose requests are all handled, every state has all its active turns settled exactly
when every request is seen through. -/
theorem no_wedged_turn_iff (host : HostInfo) (sandbox : ShellSandboxRequest)
    (stores : RuntimeStores) (inputs : List ServerInput)
    (hreturns : Runs.AllSteps AppServer.step AppServer.Returns (AppServer.new host sandbox stores)
      inputs) :
    (∀ s ∈ Runs.states AppServer.step (AppServer.new host sandbox stores) inputs,
        NoWedge s.runtime) ↔
      Runs.AllSteps AppServer.step AppServer.SeesThrough (AppServer.new host sandbox stores)
        inputs := by
  have hbase : ∀ (s : AppServer) (input : ServerInput), Orderly s.runtime →
      Orderly (s.step input).runtime := fun _ input h => orderly_step h input
  have hstep : ∀ (s : AppServer) (input : ServerInput), Orderly s.runtime → NoWedge s.runtime →
      s.Returns input → (NoWedge (s.step input).runtime ↔ s.SeesThrough input) :=
    fun _ _ h hs hreturn => noWedge_step_iff h hs hreturn
  refine Runs.invariant_iff hbase hstep (orderly_new host sandbox stores) ?_ hreturns
  intro turnId turn hturn
  rw [activeTurns_new, AList.lookup_empty] at hturn
  exact absurd hturn (by simp)

end Runs

/-- A risky turn that is put up for approval, approved and run. -/
theorem no_wedged_turn_of_approval :
    Runs.AllSteps (@AppServer.step plainWorld) (@AppServer.Returns plainWorld) oneThreadServer
        [deletionInput, respondInput .approveOnce [plainAnswer "Done."]] ∧
      ∀ s ∈ Runs.states (@AppServer.step plainWorld) oneThreadServer
        [deletionInput, respondInput .approveOnce [plainAnswer "Done."]], NoWedge s.runtime :=
  ⟨by decide +kernel, (@no_wedged_turn_iff plainWorld { os := "linux", hostname := none }
    { mode := .workspaceWrite, networkAccess := .restricted } oneThreadStores
    [deletionInput, respondInput .approveOnce [plainAnswer "Done."]] (by decide +kernel)).mpr
      (by decide +kernel)⟩

/-! ### A turn that is left running

The disk is full when the checkpoint of a risky turn is written, so that no approval is asked for;
the turn stays in the table as running. -/

/-- The plain world on a disk that refuses the twelfth operation after the start. -/
@[reducible] def fullDiskWorld : World := { plainWorld with toDisk := diskFullAt 12 }

def wedgedServer : AppServer := @AppServer.step fullDiskWorld oneThreadServer deletionInput

theorem full_disk_wedges_turn :
    ¬ ∀ (world : World) (host : HostInfo) (sandbox : ShellSandboxRequest) (stores : RuntimeStores)
      (inputs : List ServerInput),
      Runs.AllSteps (@AppServer.step world) (@AppServer.Returns world)
        (@AppServer.new world.toDisk host sandbox stores) inputs →
      ∀ s ∈ Runs.states (@AppServer.step world) (@AppServer.new world.toDisk host sandbox stores)
        inputs, NoWedge s.runtime := by
  intro hclaim
  have hreturns : @AppServer.Returns fullDiskWorld oneThreadServer deletionInput := by
    decide +kernel
  have hsettled : NoWedge wedgedServer.runtime :=
    hclaim fullDiskWorld { os := "linux", hostname := none }
      { mode := .workspaceWrite, networkAccess := .restricted } oneThreadStores [deletionInput]
      ⟨hreturns, trivial⟩ wedgedServer (List.mem_cons_of_mem _ (List.mem_singleton_self _))
  have hrunning : (wedgedServer.runtime.turnManager.activeTurns.lookup "turn_0_1").map Turn.status =
      some .running := by decide +kernel
  obtain ⟨turn, hturn, hstatus⟩ := Option.map_eq_some_iff.mp hrunning
  have hwaiting := (hsettled "turn_0_1" turn hturn).1
  rw [hstatus] at hwaiting
  exact absurd hwaiting (by decide)

end Liz
