import Liz.Proof.Ledger
import Liz.Proof.LoopPrograms

/-!
# What a request changes

The server's programs taken together: which turns they may change, what becomes of the approvals,
and for which turns they call the model or let it execute a tool. The model loop works on the turn
it was started for and on no other.
-/

namespace Liz

open Program

/-- The turn for which the observation is work of the model. -/
def Observation.runs : Observation → Option TurnId
  | .published _ => none
  | .modelCalled request _ => some request.turn.id
  | .toolExecuted .model request => request.turnId
  | .toolExecuted .client _ => none

/-- What the assistant is heard to say. -/
inductive Delivery
  /-- The model is called once more. -/
  | round
  | chunk (text : String)
  | completed (text : String)
  | ended (summary : Option String)
  deriving DecidableEq, Repr

def ServerEventPayload.delivery : ServerEventPayload → Option Delivery
  | .assistantChunk chunk _ _ => some (.chunk chunk)
  | .assistantCompleted message => some (.completed message)
  | .turnCompleted turn => some (.ended turn.summary)
  | _ => none

theorem delivery_of_other {payload : ServerEventPayload} (h : payload.role = .other) :
    payload.delivery = none := by
  cases payload with
  | assistantChunk | assistantCompleted | turnCompleted => cases h
  | _ => rfl

def Observation.delivery : Observation → Option Delivery
  | .published event => event.payload.delivery
  | .modelCalled _ _ => some .round
  | .toolExecuted _ _ => none

/-- Turns and approvals are as they were. -/
structure Quiet (s t : RuntimeCoordinator) : Prop where
  turns : KeepsTurns s.toTurnRuntime t.toTurnRuntime
  approvals : t.approvals = s.approvals

/-- The trace goes on, and every new observation is in `O`. -/
def Adds (O : Observation → Prop) (s t : AppServer) : Prop :=
  ∃ more, t.trace = s.trace ++ more ∧ ∀ observation ∈ more, O observation

/-- Only turns in `P` may have changed or gone, every new observation is in `O`, and the approvals
are as they were. -/
structure Does (P : TurnId → Prop) (O : Observation → Prop) (s t : AppServer) : Prop where
  turns : ChangesOnly P s.runtime.toTurnRuntime t.runtime.toTurnRuntime
  approvals : t.runtime.approvals = s.runtime.approvals
  trace : Adds O s t

/-- Work of the model only for turns in `R`. -/
def RunsIn (R : TurnId → Prop) (observation : Observation) : Prop :=
  ∀ id, observation.runs = some id → R id

/-- Only turns in `R` have been run. -/
abbrev RunsOnly (R : TurnId → Prop) : AppServer → AppServer → Prop := Adds (RunsIn R)

/-- Only turns in `P` may have changed or gone, only turns in `R` have been run, and the approvals
are as they were. -/
abbrev Works (P R : TurnId → Prop) : AppServer → AppServer → Prop := Does P (RunsIn R)

theorem Quiet.refl (s : RuntimeCoordinator) : Quiet s s := ⟨.refl _, rfl⟩

theorem Quiet.trans ⦃s t u : RuntimeCoordinator⦄ (h : Quiet s t) (h' : Quiet t u) : Quiet s u :=
  ⟨h.turns.trans h'.turns, h'.approvals.trans h.approvals⟩

section Does

variable {P : TurnId → Prop} {O : Observation → Prop} {s t : AppServer}

theorem Adds.refl (s : AppServer) : Adds O s s := ⟨[], by simp, by simp⟩

theorem Adds.trans ⦃s t u : AppServer⦄ (h : Adds O s t) (h' : Adds O t u) : Adds O s u := by
  obtain ⟨more, hmore, hruns⟩ := h
  obtain ⟨more', hmore', hruns'⟩ := h'
  refine ⟨more ++ more', ?_, ?_⟩
  · rw [hmore', hmore, List.append_assoc]
  · intro observation hobservation
    rcases List.mem_append.mp hobservation with hin | hin
    · exact hruns observation hin
    · exact hruns' observation hin

theorem Adds.of_eq (h : t.trace = s.trace) : Adds O s t := ⟨[], by simpa using h, by simp⟩

theorem Adds.mono {O' : Observation → Prop} (h : Adds O s t) (hO : ∀ o, O o → O' o) :
    Adds O' s t := by
  obtain ⟨more, hmore, hin⟩ := h
  exact ⟨more, hmore, fun o ho => hO o (hin o ho)⟩

theorem RunsIn.published {R : TurnId → Prop} (event : PendingEvent) :
    RunsIn R (.published event) := by
  simp [RunsIn, Observation.runs]

theorem RunsOnly.published {R : TurnId → Prop} (events : List PendingEvent)
    (h : t.trace = s.trace ++ events.map .published) : RunsOnly R s t := by
  refine ⟨_, h, fun observation hobservation => ?_⟩
  obtain ⟨event, -, rfl⟩ := List.mem_map.mp hobservation
  exact .published event

theorem Does.of_quiet (h : Quiet s.runtime t.runtime) (htrace : t.trace = s.trace) : Does P O s t :=
  ⟨h.turns.changesOnly, h.approvals, .of_eq htrace⟩

theorem Does.refl (s : AppServer) : Does P O s s := .of_quiet (.refl _) rfl

theorem Does.trans ⦃s t u : AppServer⦄ (h : Does P O s t) (h' : Does P O t u) : Does P O s u :=
  ⟨h.turns.trans h'.turns, h'.approvals.trans h.approvals, h.trace.trans h'.trace⟩

theorem Does.after_quiet {runtime : RuntimeCoordinator}
    (h : Does P O { s with runtime := runtime } t) (hquiet : Quiet s.runtime runtime) :
    Does P O s t :=
  Does.trans (t := { s with runtime := runtime }) (.of_quiet hquiet rfl) h

theorem Does.mono {P' : TurnId → Prop} {O' : Observation → Prop} (h : Does P O s t)
    (hP : ∀ id, P id → P' id) (hO : ∀ o, O o → O' o) : Does P' O' s t :=
  ⟨⟨fun id hid => h.turns.others id fun hin => hid (hP id hin), h.turns.known, h.turns.sequence⟩,
    h.approvals, h.trace.mono hO⟩

theorem Does.observed {observation : Observation} (h : O observation) :
    Does P O s (s.observed observation) := by
  refine ⟨(KeepsTurns.refl _).changesOnly, rfl, [observation], rfl, ?_⟩
  intro other hother
  rwa [List.mem_singleton.mp hother]

variable {α : Type}

theorem onTurns_quiet {p : TurnM α} (h : Guarantees KeepsTurns p) :
    Guarantees Quiet (onTurns p) := by
  intro runtime
  rw [wp_onTurns]
  exact wp_mono (h runtime.toTurnRuntime) (fun _ _ hkeeps => ⟨hkeeps, rfl⟩)
    (fun _ _ hkeeps => ⟨hkeeps, rfl⟩)

theorem onRuntime_does {p : RuntimeM α} (h : Guarantees Quiet p) :
    Always (Does P O) (onRuntime p) := by
  intro server
  rw [wp_onRuntime]
  exact wp_mono (h server.runtime) (fun _ _ hquiet => .of_quiet hquiet rfl)
    (fun _ _ hquiet => .of_quiet hquiet rfl)

theorem onTurns_does {p : TurnM α} (h : Guarantees KeepsTurns p) :
    Always (Does P O) (onRuntime (onTurns p)) := onRuntime_does (onTurns_quiet h)

theorem onRuntime_works {p : RuntimeM α} (h : Guarantees Quiet p) :
    Guarantees (Does P O) (onRuntime p) := (onRuntime_does h).guarantees

theorem onRuntime_onTurns_works {p : TurnM α} (h : Guarantees KeepsTurns p) :
    Guarantees (Does P O) (onRuntime (onTurns p)) := (onTurns_does h).guarantees

theorem observe_does {observation : Observation} (h : O observation) :
    Always (Does P O) (observe observation) := fun _ => .observed h

theorem publishAll_does {events : List PendingEvent} (h : ∀ event ∈ events, O (.published event)) :
    Always (Does P O) (publishAll events) :=
  publishAll_always Does.refl Does.trans fun event hevent => observe_does (h event hevent)

variable {R : TurnId → Prop}

theorem publish_works (threadId : ThreadId) (turnId : Option TurnId)
    (payload : ServerEventPayload) : Guarantees (Works P R) (publish threadId turnId payload) :=
  (observe_does (.published _)).guarantees

theorem publishAll_works (events : List PendingEvent) :
    Guarantees (Works P R) (publishAll events) :=
  (publishAll_does fun event _ => .published event).guarantees

theorem liftExcept_quiet (value : Except RuntimeError α) : Guarantees Quiet (liftExcept value) := by
  cases value with
  | ok value => exact Guarantees.pure Quiet.refl value
  | error e => exact Guarantees.throw Quiet.refl e

end Does

/-! ### The model loop -/

section Loop

variable [World] {P : TurnId → Prop} {O : Observation → Prop}

theorem localThreadExecutionScope_does (threadId : ThreadId) :
    Always (Does P O) (localThreadExecutionScope threadId) :=
  localThreadExecutionScope_always threadId fun _ => .of_quiet ⟨⟨rfl, le_rfl⟩, rfl⟩ rfl

theorem executeTool_does {caller : ToolCaller} {request : ToolCallRequest}
    (h : O (.toolExecuted caller request)) : Always (Does P O) (executeTool caller request) :=
  executeTool_always Does.refl Does.trans (fun _ _ => .of_quiet (.refl _) rfl) (observe_does h)

theorem loopDiagnostics_does (repeatedToolRounds : Nat) :
    Always (Does P O) (loopDiagnostics repeatedToolRounds) := by
  apply loopDiagnostics_always Does.refl Does.trans
  intro toolName message
  exact Always.modifyGet fun s => .of_quiet ⟨⟨rfl, le_rfl⟩, rfl⟩ rfl

/-! What the assistant does without saying anything. -/

section Silent

variable (hsilent : ∀ event : PendingEvent, event.payload.delivery = none → O (.published event))
include hsilent

omit [World] in
theorem toolCallFailed_does (threadId : ThreadId) (turnId : TurnId) (toolCall : ProviderToolCall)
    (toolName message : String) (nodeId : NodeId) (workspaceMountId : Option WorkspaceMountId)
    (summary : String) :
    Always (Does P O) (toolCallFailed threadId turnId toolCall toolName message nodeId
      workspaceMountId summary) :=
  Always.bind Does.trans (observe_does (hsilent _ rfl)) fun _ => Always.pure Does.refl _

theorem recordModelToolCall_does (threadId : ThreadId) (turnId : TurnId)
    (toolCall : ProviderToolCall) (workspaceMountId : Option WorkspaceMountId) (nodeId : NodeId)
    (executed : ExecutedTool) :
    Always (Does P O) (recordModelToolCall threadId turnId toolCall workspaceMountId nodeId
      executed) := by
  apply recordModelToolCall_always Does.trans
  · exact fun _ _ _ => onTurns_does (recordToolExecution_keepsTurns _ _ _ _ _ _ _)
  · exact toolCallFailed_does hsilent _ _ _
  · intro artifactRefs _
    apply publishAll_does
    intro event hevent
    exact hsilent event (delivery_of_other (mem_toolExecutionEvents hevent).1)

theorem executeModelToolCalls_does (threadId : ThreadId) {turnId : TurnId}
    (hexecuted : ∀ request : ToolCallRequest, request.turnId = some turnId →
      O (.toolExecuted .model request)) (toolCalls : List ProviderToolCall) :
    Always (Does P O) (executeModelToolCalls threadId turnId toolCalls) := by
  apply executeModelToolCalls_always Does.refl Does.trans
  intro toolCall _
  exact executeModelToolCall_always Does.trans (localThreadExecutionScope_does _)
    (toolCallFailed_does hsilent _ _ _) (fun request hturn => executeTool_does (hexecuted _ hturn))
    (recordModelToolCall_does hsilent _ _ _)

theorem compileMemoryForThread_does (threadId : ThreadId) (turnId : Option TurnId) :
    Always (Does P O) (compileMemoryForThread threadId turnId) := by
  apply compileMemoryForThread_always Does.refl Does.trans
  · exact fun _ _ => .of_quiet ⟨⟨rfl, Nat.le_add_right _ _⟩, rfl⟩ rfl
  · exact fun _ hother => observe_does (hsilent _ (delivery_of_other hother))

end Silent

/-! What the assistant says. -/

section Spoken

variable (hpublished : ∀ event : PendingEvent, O (.published event))
include hpublished

theorem handleModelEvents_does (threadId : ThreadId) (turnId : TurnId)
    (outputContext : Option InteractionContext) (events : List NormalizedTurnEvent) :
    Always (Does P O) (handleModelEvents threadId turnId outputContext events) :=
  handleModelEvents_always Does.refl Does.trans (localThreadExecutionScope_does _)
    (fun _ _ => observe_does (hpublished _)) outputContext events

/-- The rounds call the model for the request and run tools for its turn, and change no turn. -/
theorem runRounds_does {baseRequest : ModelTurnRequest} {outputContext : Option InteractionContext}
    (hexecuted : ∀ request : ToolCallRequest, request.turnId = some baseRequest.turn.id →
      O (.toolExecuted .model request))
    (hcalled : ∀ results, O (.modelCalled (baseRequest.withToolResultInjections results)
      outputContext))
    (answers : List GatewayAnswer) (results : List ToolResultInjection) (fingerprint : String)
    (repeatedToolRounds : Nat) :
    Guarantees (Does P O)
      (runRounds baseRequest outputContext answers results fingerprint repeatedToolRounds) := by
  apply runRounds_guarantees Does.refl Does.trans
  · exact fun _ => observe_does (hcalled _)
  · exact handleModelEvents_does hpublished _ _ _
  · intro _ _ summary _
    exact executeModelToolCalls_does (fun event _ => hpublished event) _ hexecuted _
  · exact loopDiagnostics_does

omit [World] hpublished in
theorem onRuntime_changes_does {α : Type} {p : TurnM α} (h : Guarantees (ChangesOnly P) p) :
    Always (Does P O) (onRuntime (onTurns p)) := by
  intro server
  rw [wp_onRuntime, wp_onTurns]
  exact wp_mono (h server.runtime.toTurnRuntime) (fun _ _ h => ⟨h, rfl, .of_eq rfl⟩)
    (fun _ _ h => ⟨h, rfl, .of_eq rfl⟩)

/-- Whatever the model answered, the end of a turn changes that turn only. -/
theorem finishModelTurn_does (threadId : ThreadId) {turnId : TurnId} (hturn : P turnId)
    (outputContext : Option InteractionContext) (ending : Except ModelError (Option String)) :
    Always (Does P O) (finishModelTurn threadId turnId outputContext ending) := by
  apply finishModelTurn_always Does.refl Does.trans
  · exact fun _ => onRuntime_changes_does (failTurn_changesOnly _ hturn _)
  · exact fun _ => onRuntime_changes_does (completeTurn_changesOnly _ hturn _)
  · exact fun _ _ _ => observe_does (hpublished _)
  · exact compileMemoryForThread_does (fun event _ => hpublished event) _ _

theorem streamModelTurn_does {thread : Thread} {turn : Turn} (hturn : P turn.id)
    {systemPrompt developerPrompt userPrompt : String} {outputContext : Option InteractionContext}
    (hexecuted : ∀ request : ToolCallRequest, request.turnId = some turn.id →
      O (.toolExecuted .model request))
    (hcalled : ∀ results, O (.modelCalled ((baseRequestFor thread turn systemPrompt developerPrompt
      userPrompt).withToolResultInjections results) outputContext))
    (answers : List GatewayAnswer) :
    Guarantees (Does P O) (streamModelTurn thread turn systemPrompt developerPrompt userPrompt
      outputContext answers) :=
  Guarantees.bind Does.trans (runRounds_does hpublished hexecuted hcalled _ _ _ _) fun ending =>
    (finishModelTurn_does hpublished _ hturn _ ending).guarantees

end Spoken

variable {R : TurnId → Prop}

omit [World] in
theorem RunsIn.executed {turnId : TurnId} (hturn : R turnId) {request : ToolCallRequest}
    (hrequest : request.turnId = some turnId) : RunsIn R (.toolExecuted .model request) := by
  intro id hid
  exact Option.some.inj (hrequest.symm.trans hid) ▸ hturn

/-- The rounds run the turn of the request and no other. -/
theorem runRounds_works {baseRequest : ModelTurnRequest} (hturn : R baseRequest.turn.id)
    (outputContext : Option InteractionContext) (answers : List GatewayAnswer)
    (results : List ToolResultInjection) (fingerprint : String) (repeatedToolRounds : Nat) :
    Guarantees (Works P R)
      (runRounds baseRequest outputContext answers results fingerprint repeatedToolRounds) :=
  runRounds_does .published (fun _ => .executed hturn)
    (fun _ _ hid => Option.some.inj hid ▸ hturn) _ _ _ _

theorem compileMemoryForThread_works (threadId : ThreadId) (turnId : Option TurnId) :
    Guarantees (Works P R) (compileMemoryForThread threadId turnId) :=
  (compileMemoryForThread_does (fun event _ => .published event) threadId turnId).guarantees

omit [World] in
theorem onRuntime_changes_works {α : Type} {p : TurnM α} (h : Guarantees (ChangesOnly P) p) :
    Guarantees (Works P R) (onRuntime (onTurns p)) := (onRuntime_changes_does h).guarantees

/-- A turn at the model changes and runs that turn only. -/
theorem streamModelTurn_works (thread : Thread) {turn : Turn} (hchanged : P turn.id)
    (hrun : R turn.id) (systemPrompt developerPrompt userPrompt : String)
    (outputContext : Option InteractionContext) (answers : List GatewayAnswer) :
    Guarantees (Works P R) (streamModelTurn thread turn systemPrompt developerPrompt userPrompt
      outputContext answers) :=
  streamModelTurn_does .published hchanged (fun _ => .executed hrun)
    (fun _ _ hid => Option.some.inj hid ▸ hrun) answers

end Loop

/-! ### Requests -/

section Requests

variable [World] {P R : TurnId → Prop} {O : Observation → Prop}

/-- Reading the thread for an event changes nothing but the runtime, and that quietly. -/
theorem threadEvent_quiet (threadId : ThreadId) (turnId : TurnId)
    (payload : Thread → ServerEventPayload) (s : AppServer) :
    wp (threadEvent threadId turnId payload)
      (fun _ t => ∃ runtime, Quiet s.runtime runtime ∧ t = { s with runtime := runtime })
      (fun _ _ => False) s := by
  unfold threadEvent
  rw [wp_bind, wp_onRuntime]
  refine wp_mono (onTurns_quiet (readThread_keepsTurns threadId) s.runtime) ?_
    (fun _ runtime hquiet => ⟨runtime, hquiet, rfl⟩)
  rintro (_ | thread) runtime hquiet
  · exact ⟨runtime, hquiet, rfl⟩
  · exact ⟨runtime, hquiet, rfl⟩

theorem threadEvent_works (threadId : ThreadId) (turnId : TurnId)
    (payload : Thread → ServerEventPayload) :
    Guarantees (Works P R) (threadEvent threadId turnId payload) := by
  intro s
  refine wp_mono (threadEvent_quiet threadId turnId payload s) ?_ (fun _ _ h => h.elim)
  rintro _ _ ⟨runtime, hquiet, rfl⟩
  exact .of_quiet hquiet rfl

omit [World] in
/-- A call of the runtime succeeds and is answered, or its error is the response. -/
theorem wp_respond {α : Type} {p : RuntimeM α}
    {success : α → ServerM (ResponsePayload × List PendingEvent)}
    {Q : ServerResponse × List PendingEvent → AppServer → Prop} {E : Unanswered → AppServer → Prop}
    {s : AppServer} :
    wp (respond p success) Q E s ↔
      wp p (fun a runtime => wp (success a) (fun answer => Q (.success answer.1, answer.2)) E
          { s with runtime := runtime })
        (fun e runtime => Q (errorEnvelope e, []) { s with runtime := runtime }) s.runtime := by
  unfold respond
  rw [wp_bind, wp_onRuntime]
  simp only [wp_bind]
  rfl

omit [World] in
theorem respond_does {α : Type} {p : RuntimeM α}
    {success : α → ServerM (ResponsePayload × List PendingEvent)}
    (hp : Guarantees (Does P O) (onRuntime p))
    (hsuccess : ∀ value, Guarantees (Does P O) (success value)) :
    Guarantees (Does P O) (respond p success) := by
  refine Guarantees.bind Does.trans hp fun result => ?_
  cases result with
  | error _ => exact Guarantees.pure Does.refl _
  | ok value =>
      exact Guarantees.bind Does.trans (hsuccess value) fun _ => Guarantees.pure Does.refl _

theorem resolveThreadWorkspaceMount_quiet (request : ThreadStartRequest) :
    Guarantees Quiet (RuntimeCoordinator.resolveThreadWorkspaceMount request) := by
  unfold RuntimeCoordinator.resolveThreadWorkspaceMount
  split
  · refine Guarantees.bind Quiet.trans (Guarantees.get Quiet.refl) fun _ => ?_
    exact Guarantees.bind Quiet.trans (liftExcept_quiet _) fun _ => Guarantees.pure Quiet.refl _
  · split
    · exact Guarantees.pure Quiet.refl _
    · refine Guarantees.bind Quiet.trans (Guarantees.get Quiet.refl) fun _ => ?_
      refine Guarantees.bind Quiet.trans (liftExcept_quiet _) fun _ => ?_
      refine Guarantees.bind Quiet.trans (Guarantees.modify fun _ => ⟨.refl _, rfl⟩) fun _ => ?_
      refine Guarantees.bind Quiet.trans ?_ fun _ => Guarantees.pure Quiet.refl _
      exact Guarantees.bind Quiet.trans (Guarantees.get Quiet.refl) fun _ =>
        onTurns_quiet (stored_keepsTurns _)
  · exact Guarantees.pure Quiet.refl _

theorem handleToolCall_does (hexecuted : ∀ request, O (.toolExecuted .client request))
    (request : ToolCallRequest) : Guarantees (Does P O) (handleToolCall request) := by
  have hnormalize : Guarantees Quiet (normalizeToolCallNode request) := by
    unfold normalizeToolCallNode
    split
    · exact Guarantees.pure Quiet.refl _
    · refine Guarantees.bind Quiet.trans (Guarantees.get Quiet.refl) fun _ => ?_
      exact Guarantees.bind Quiet.trans (liftExcept_quiet _) fun _ => Guarantees.pure Quiet.refl _
    · exact Guarantees.pure Quiet.refl _
  refine Guarantees.bind Does.trans (onRuntime_does hnormalize).guarantees fun normalized => ?_
  cases normalized with
  | error _ => exact Guarantees.pure Does.refl _
  | ok request =>
      refine Guarantees.bind Does.trans (executeTool_does (hexecuted request)).guarantees
        fun execution => ?_
      cases execution with
      | error _ => exact Guarantees.pure Does.refl _
      | ok execution =>
          exact respond_does (onRuntime_onTurns_works (recordToolExecution_keepsTurns _ _ _ _ _ _ _))
            fun _ => Guarantees.pure Does.refl _

/-- Requests that neither start nor cancel a turn nor answer an approval. -/
def ClientRequest.ordinary : ClientRequest → Bool
  | .turnStart _ => false
  | .turnCancel _ => false
  | .approvalRespond _ => false
  | _ => true

/-- The dispatch of an ordinary request changes no turn, and all it may observe is that a client has
a tool executed. -/
theorem dispatch_does {request : ClientRequest} (h : request.ordinary = true)
    (hexecuted : ∀ request, O (.toolExecuted .client request)) :
    Guarantees (Does P O) (dispatch request) := by
  have hget : Guarantees (Does P O) (get : ServerM AppServer) := Guarantees.get Does.refl
  cases request with
  | runtimeConfigGet => exact Guarantees.bind Does.trans hget fun _ => Guarantees.pure Does.refl _
  | runtimeConfigUpdate sandbox approvalPolicy =>
      refine Guarantees.bind Does.trans (Guarantees.modify fun _ => .of_quiet (.refl _) rfl)
        fun _ => ?_
      exact Guarantees.bind Does.trans hget fun _ => Guarantees.pure Does.refl _
  | threadStart request =>
      refine respond_does (onRuntime_works ?_) fun _ => Guarantees.pure Does.refl _
      exact Guarantees.bind Quiet.trans (resolveThreadWorkspaceMount_quiet _) fun _ =>
        onTurns_quiet (startThread_keepsTurns _)
  | threadResume request =>
      refine respond_does (onRuntime_onTurns_works (resumeThread_keepsTurns _)) fun _ => ?_
      exact Guarantees.bind Does.trans hget fun _ => Guarantees.pure Does.refl _
  | threadFork request =>
      exact respond_does (onRuntime_onTurns_works (forkThread_keepsTurns _)) fun _ =>
        Guarantees.pure Does.refl _
  | turnStart _ => exact absurd h (by simp [ClientRequest.ordinary])
  | turnCancel _ => exact absurd h (by simp [ClientRequest.ordinary])
  | approvalRespond _ => exact absurd h (by simp [ClientRequest.ordinary])
  | toolCall request => exact handleToolCall_does hexecuted request
  | threadRollback => exact Guarantees.pure Does.refl _
  | other method outcome =>
      refine Guarantees.bind Does.trans (Guarantees.modify fun _ => ?_) fun _ =>
        Guarantees.pure Does.refl _
      exact .of_quiet ⟨⟨rfl, Nat.le_add_right _ _⟩, rfl⟩ rfl

/-- Nothing follows an ordinary request. -/
theorem continueAfter_ordinary {request : ClientRequest} (h : request.ordinary = true)
    (answers : List GatewayAnswer) (response : ServerResponse) :
    continueAfter answers request response = pure () := by
  cases request <;> first | rfl | exact absurd h (by simp [ClientRequest.ordinary])

/-- An ordinary request changes no turn and runs none. -/
theorem handleRequest_ordinary {request : ClientRequest} (h : request.ordinary = true)
    (answers : List GatewayAnswer) : Guarantees (Works P R) (handleRequest request answers) := by
  have hdispatch : Guarantees (Works P R) (dispatch request) :=
    dispatch_does h fun _ => by simp [RunsIn, Observation.runs]
  refine Guarantees.bind Does.trans hdispatch fun handled => ?_
  refine Guarantees.bind Does.trans (publishAll_works _) fun _ => ?_
  refine Guarantees.bind Does.trans ?_ fun _ => Guarantees.pure Does.refl _
  rw [continueAfter_ordinary h]
  exact Guarantees.pure Does.refl _

/-- A request to cancel does what the cancelling does, and nothing more to turns and approvals. -/
theorem handleRequest_turnCancel_of {C : AppServer → AppServer → Prop}
    (htrans : ∀ ⦃s t u⦄, C s t → C t u → C s u)
    (hquiet : ∀ s t, Works (fun _ => False) (fun _ => False) s t → C s t)
    {request : TurnCancelRequest} (hcancel : Guarantees C (onRuntime (onTurns (cancelTurn request))))
    (answers : List GatewayAnswer) :
    Guarantees C (handleRequest (.turnCancel request) answers) := by
  have hrefl : ∀ s, C s s := fun s => hquiet s s (.refl s)
  have hdispatch : Guarantees C (dispatch (.turnCancel request)) := by
    refine Guarantees.bind htrans hcancel fun result => ?_
    cases result with
    | error _ => exact Guarantees.pure hrefl _
    | ok turn =>
        refine Guarantees.mono (Guarantees.bind Does.trans ?_ fun _ =>
          Guarantees.pure Does.refl _) hquiet
        exact Guarantees.bind Does.trans (threadEvent_works _ _ _) fun _ =>
          Guarantees.pure Does.refl _
  refine Guarantees.bind htrans hdispatch fun handled => ?_
  refine Guarantees.mono (Guarantees.bind Does.trans (publishAll_works _) fun _ => ?_) hquiet
  refine Guarantees.bind Does.trans ?_ fun _ => Guarantees.pure Does.refl _
  obtain ⟨response, events⟩ := handled
  cases response with
  | error code message retryable => exact Guarantees.pure Does.refl _
  | success payload => exact compileMemoryForThread_works _ _

theorem handleRequest_turnCancel {request : TurnCancelRequest} (hturn : P request.turnId)
    (answers : List GatewayAnswer) :
    Guarantees (Works P R) (handleRequest (.turnCancel request) answers) :=
  handleRequest_turnCancel_of Does.trans
    (fun _ _ h => h.mono (fun _ => False.elim) fun _ hruns id hid => (hruns id hid).elim)
    (onRuntime_changes_works (cancelTurn_changesOnly hturn)) answers

theorem handleRequest_turnCancel_refused {request : TurnCancelRequest} {s : AppServer}
    (h : CancelRefused s.runtime.toTurnRuntime request) (answers : List GatewayAnswer) :
    wp (handleRequest (.turnCancel request) answers) (fun _ t => Works P R s t)
      (fun _ t => Works P R s t) s := by
  unfold handleRequest dispatch respond
  rw [wp_bind, wp_bind, wp_onRuntime, wp_onTurns]
  refine wp_mono (cancelTurn_refused h) (fun _ _ hfalse => hfalse.elim) (fun e turns hkeeps => ?_)
  exact .of_quiet ⟨hkeeps, rfl⟩ rfl

/-! ### Approvals -/

/-- A turn has been put up for approval under a new identifier. -/
structure Asks (turnId : TurnId) (approval : ApprovalRequest) (s t : RuntimeCoordinator) : Prop where
  names : approval.turnId = turnId
  pending : approval.status = .pending
  fresh : ¬ s.ids.Issued approval.id
  issued : t.ids.Issued approval.id
  approvals : t.approvals = s.approvals.insert approval.id approval
  waiting : ∃ turn, t.turnManager.activeTurns.lookup turnId = some turn ∧
    turn.status = .waitingApproval
  turns : ChangesOnly (· = turnId) s.toTurnRuntime t.toTurnRuntime

omit [World] in
theorem Quiet.asks {turnId : TurnId} {approval : ApprovalRequest} {s t u : RuntimeCoordinator}
    (h : Quiet s t) (h' : Asks turnId approval t u) : Asks turnId approval s u :=
  { h' with
    fresh := fun hissued => h'.fresh (hissued.mono h.turns.sequence)
    approvals := h.approvals ▸ h'.approvals
    turns := h.turns.changesOnly.trans h'.turns }

/-- The turn is left behind without an approval. -/
structure Abandons (turnId : TurnId) (s t : RuntimeCoordinator) : Prop where
  approvals : t.approvals = s.approvals
  turns : ChangesOnly (· = turnId) s.toTurnRuntime t.toTurnRuntime
  active : s.turnManager.activeTurns.lookup turnId ≠ none →
    t.turnManager.activeTurns.lookup turnId ≠ none

omit [World] in
theorem Quiet.abandons {turnId : TurnId} {s t : RuntimeCoordinator} (h : Quiet s t) :
    Abandons turnId s t :=
  ⟨h.approvals, h.turns.changesOnly, fun hactive => h.turns.activeTurns ▸ hactive⟩

theorem requireApprovalForTurn_asks (threadId : ThreadId) (turnId : TurnId)
    (decision : PolicyDecision) (s : RuntimeCoordinator) :
    wp (RuntimeCoordinator.requireApprovalForTurn threadId turnId decision)
      (fun asked t => Asks turnId asked.2 s t) (fun _ t => Abandons turnId s t) s := by
  have hcheckpoint : Guarantees KeepsTurns (if decision.requiresCheckpoint then
      some <$> createCheckpoint threadId turnId .conversationOnly
        ("Before risky turn: " ++ decision.reason)
      else pure none) := by
    split
    · intro runtime
      rw [wp_map]
      exact createCheckpoint_keepsTurns _ _ _ _ runtime
    · exact Guarantees.pure KeepsTurns.refl none
  unfold RuntimeCoordinator.requireApprovalForTurn
  rw [wp_bind]
  refine wp_mono (onTurns_quiet hcheckpoint s) (fun checkpoint m hm => ?_)
    (fun _ m hm => hm.abandons)
  rw [wp_bind, wp_onTurns, wp_drawn, wp_bind, wp_onTurns]
  generalize hid : (IdGenerator.nextApprovalId m.toTurnRuntime.ids).1 = id
  have hfresh : ¬ m.ids.Issued id := hid ▸ not_issued_nextValue m.ids "approval"
  have hissued : (IdGenerator.nextApprovalId m.toTurnRuntime.ids).2.Issued id :=
    hid ▸ issued_nextValue m.ids "approval"
  have hdrawn : Quiet m { m with ids := (IdGenerator.nextApprovalId m.toTurnRuntime.ids).2 } :=
    ⟨⟨rfl, Nat.le_succ _⟩, rfl⟩
  refine wp_mono markTurn_marks ?_ ?_
  · rintro marked t ⟨turn, hturn, -, hmarks⟩
    have hchanges := hmarks.changesOnly (P := (· = turnId)) hturn rfl rfl rfl
    rw [wp_bind, wp_modify, wp_pure]
    refine hm.asks ⟨rfl, rfl, hfresh, hissued.mono hmarks.sequence, rfl,
      ⟨_, hmarks.lookup_self, rfl⟩, hdrawn.turns.changesOnly.trans hchanges⟩
  · rintro _ t (hkept | ⟨turn, hturn, hmarks⟩)
    · exact Quiet.abandons ⟨hm.turns.trans (hdrawn.turns.trans hkept), hm.approvals⟩
    · have hchanges := hmarks.changesOnly (P := (· = turnId)) hturn rfl rfl rfl
      exact ⟨hm.approvals, hm.turns.changesOnly.trans (hdrawn.turns.changesOnly.trans hchanges),
        fun _ => by simp [hmarks.lookup_self]⟩

/-- What becomes of a turn that was just started: it is worked on, or an approval is asked for. -/
inductive Continues (turnId : TurnId) (R : TurnId → Prop) (s t : AppServer) : Prop
  | worked (h : Works (· = turnId) R s t)
  | asked (approval : ApprovalRequest) (h : Asks turnId approval s.runtime t.runtime)
      (htrace : RunsOnly (fun _ => False) s t)

omit [World] in
theorem Continues.of_quiet {turnId : TurnId} {s t : AppServer} {runtime : RuntimeCoordinator}
    (hquiet : Quiet s.runtime runtime) (h : Continues turnId R { s with runtime := runtime } t) :
    Continues turnId R s t := by
  cases h with
  | worked h => exact .worked (h.after_quiet hquiet)
  | asked approval h htrace =>
      exact .asked approval (hquiet.asks h) (Adds.trans (.of_eq rfl) htrace)

theorem requestApproval_continues (threadId : ThreadId) (turnId : TurnId)
    (decision : PolicyDecision) (s : AppServer) :
    wp (requestApproval threadId turnId decision)
      (fun _ t => Continues turnId R s t) (fun _ _ => False) s := by
  unfold requestApproval
  rw [wp_bind, wp_onRuntime]
  refine wp_mono (requireApprovalForTurn_asks threadId turnId decision s.runtime) ?_ ?_
  · rintro ⟨checkpoint, approval⟩ runtime hasks
    simp only [wp_publishAll]
    exact .asked approval hasks (.published _ rfl)
  · intro _ runtime habandons
    exact .worked ⟨habandons.turns, habandons.approvals, .of_eq rfl⟩

/-- The turn may run at once: the policy asks for no approval. -/
def MayRun (policy : ApprovalPolicy) (input : String) : Prop :=
  ¬ (policy = .onRequest ∧ needsApproval input = true)

theorem decideTurn_continues (request : TurnStartRequest) (answers : List GatewayAnswer)
    (turn : Turn) (thread : Thread) (context : AssembledContext) (s : AppServer) :
    wp (decideTurn request answers turn thread context)
      (fun _ t => Continues turn.id (fun id => id = turn.id ∧ MayRun s.approvalPolicy request.input) s t)
      (fun _ t => Works (· = turn.id) (fun id => id = turn.id ∧ MayRun s.approvalPolicy request.input) s t) s := by
  unfold decideTurn
  dsimp only
  rw [wp_bind, wp_get, requiresApproval_eq]
  generalize evaluatePolicy request.input context = decision
  split
  · exact wp_mono (requestApproval_continues thread.id turn.id decision s) (fun _ _ h => h)
      (fun _ _ h => h.elim)
  · next hmay =>
      have hstream := streamModelTurn_works (P := (· = turn.id))
        (R := fun id => id = turn.id ∧ MayRun s.approvalPolicy request.input) thread rfl
        ⟨rfl, hmay⟩ context.systemPrompt context.developerPrompt context.userPrompt
        request.interactionContext answers s
      exact wp_mono hstream (fun _ _ h => .worked h) (fun _ _ h => h)

theorem continueTurnAfterPolicy_continues (request : TurnStartRequest)
    (answers : List GatewayAnswer) (turn : Turn) (s : AppServer) :
    wp (continueTurnAfterPolicy request answers turn)
      (fun _ t => Continues turn.id (fun id => id = turn.id ∧ MayRun s.approvalPolicy request.input) s t)
      (fun _ t => Works (· = turn.id) (fun id => id = turn.id ∧ MayRun s.approvalPolicy request.input) s t) s := by
  have hidle : ∀ runtime, Quiet s.runtime runtime →
      Continues turn.id (fun id => id = turn.id ∧ MayRun s.approvalPolicy request.input) s
        { s with runtime := runtime } := fun runtime h => .worked (.of_quiet h rfl)
  unfold continueTurnAfterPolicy
  rw [wp_bind, wp_onRuntime]
  refine wp_mono (onTurns_quiet (readThread_keepsTurns _) s.runtime) ?_ (fun _ => hidle)
  rintro (_ | thread) runtime hread
  · exact hidle runtime hread
  · dsimp only
    rw [wp_bind, wp_onRuntime]
    refine wp_mono (onTurns_quiet (assembleContextForInteraction_keepsTurns _ _ _ _) runtime) ?_
      (fun _ after hafter => hidle after (hread.trans hafter))
    intro context after hafter
    have hquiet := hread.trans hafter
    exact wp_mono (decideTurn_continues request answers turn thread context _)
      (fun _ _ h => .of_quiet hquiet h) (fun _ _ h => .after_quiet (s := s) h hquiet)

/-- A turn has been started, and what was published about it runs nothing. -/
structure Begins (turn : Turn) (s t : AppServer) : Prop where
  starts : Starts turn s.runtime.toTurnRuntime t.runtime.toTurnRuntime
  approvals : t.runtime.approvals = s.runtime.approvals
  trace : RunsOnly (fun _ => False) s t
  approvalPolicy : t.approvalPolicy = s.approvalPolicy

/-- The part of handling a request up to the response. -/
def dispatched (request : ClientRequest) : ServerM ServerResponse := do
  let (response, events) ← dispatch request
  publishAll events
  pure response

theorem handleRequest_eq (request : ClientRequest) (answers : List GatewayAnswer) :
    handleRequest request answers = (do
      let response ← dispatched request
      continueAfter answers request response
      pure response) := by
  simp [handleRequest, dispatched]

/-- A turn that is started is new, and otherwise no turn has changed. -/
theorem startTurn_quiet (request : TurnStartRequest) (s : RuntimeCoordinator) :
    wp (RuntimeCoordinator.startTurn request)
      (fun turn t => Starts turn s.toTurnRuntime t.toTurnRuntime ∧ t.approvals = s.approvals)
      (fun _ t => Quiet s t) s := by
  unfold RuntimeCoordinator.startTurn
  rw [wp_onTurns, wp_bind]
  refine wp_mono (requireThread_keepsTurns _ _) (fun thread m hm => ?_)
    (fun _ m hm => ⟨hm, rfl⟩)
  refine wp_mono (startTurn_starts thread request) (fun turn t ht => ⟨?_, rfl⟩)
    (fun _ t ht => ⟨hm.trans ht, rfl⟩)
  exact ⟨fun h => ht.fresh (h.mono hm.sequence), ht.issued, ht.running,
    hm.activeTurns ▸ ht.activeTurns, hm.sequence.trans ht.sequence⟩

theorem dispatched_turnStart (request : TurnStartRequest) (s : AppServer) :
    wp (dispatched (.turnStart request))
      (fun response m => (∃ turn, response = .success (.turnStart turn) ∧ Begins turn s m) ∨
        ((∀ turn, response ≠ .success (.turnStart turn)) ∧
          Works (fun _ => False) (fun _ => False) s m))
      (fun _ _ => False) s := by
  unfold dispatched dispatch respond
  rw [wp_bind, wp_bind, wp_onRuntime]
  refine wp_mono (startTurn_quiet request s.runtime) ?_ ?_
  · rintro turn runtime ⟨hstarts, happrovals⟩
    dsimp only
    rw [wp_bind, wp_bind]
    refine wp_mono (threadEvent_quiet _ _ _ _) ?_ (fun _ _ h => h.elim)
    rintro updated _ ⟨after, hquiet, rfl⟩
    simp only [wp_pure, wp_bind, wp_publishAll]
    exact Or.inl ⟨turn, rfl, hstarts.of_keeps hquiet.turns, hquiet.approvals.trans happrovals,
      .published _ rfl, rfl⟩
  · intro e runtime hquiet
    exact Or.inr ⟨by simp [errorEnvelope], .of_quiet hquiet rfl⟩

theorem continueAfter_of_not_started {request : TurnStartRequest} {response : ServerResponse}
    {answers : List GatewayAnswer} (h : ∀ turn, response ≠ .success (.turnStart turn)) :
    continueAfter answers (.turnStart request) response = pure () := by
  rcases response with ⟨payload⟩ | _
  · cases payload <;> first | rfl | exact absurd rfl (h _)
  · rfl

theorem handleRequest_turnStart (request : TurnStartRequest) (answers : List GatewayAnswer)
    (s : AppServer) :
    wp (handleRequest (.turnStart request) answers)
      (fun response t =>
        (∃ turn m, response = .success (.turnStart turn) ∧ Begins turn s m ∧
          Continues turn.id (fun id => id = turn.id ∧ MayRun s.approvalPolicy request.input) m t) ∨
        ((∀ turn, response ≠ .success (.turnStart turn)) ∧
          Works (fun _ => False) (fun _ => False) s t))
      (fun _ t => ∃ turn m, Begins turn s m ∧
        Works (· = turn.id) (fun id => id = turn.id ∧ MayRun s.approvalPolicy request.input) m t)
      s := by
  rw [handleRequest_eq, wp_bind]
  refine wp_mono (dispatched_turnStart request s) ?_ (fun _ _ h => h.elim)
  rintro response m (⟨turn, rfl, hbegins⟩ | ⟨hnone, hworks⟩)
  · rw [wp_bind, ← hbegins.approvalPolicy]
    exact wp_mono (continueTurnAfterPolicy_continues request answers turn m)
      (fun _ t ht => Or.inl ⟨turn, m, rfl, hbegins, ht⟩) (fun _ t ht => ⟨turn, m, hbegins, ht⟩)
  · rw [continueAfter_of_not_started hnone, wp_bind, wp_pure]
    exact Or.inr ⟨hnone, hworks⟩

/-- Turns are filed under their own identifiers. -/
def Filed (s : TurnRuntime) : Prop :=
  ∀ id turn, s.turnManager.activeTurns.lookup id = some turn → turn.id = id

theorem runResumedTurn_works (approval : ApprovalRequest) (answers : List GatewayAnswer)
    {turn : Turn} (hchanged : P turn.id) (hrun : R turn.id) :
    Guarantees (Works P R) (runResumedTurn approval answers turn) := by
  refine Guarantees.bind Does.trans (onRuntime_onTurns_works (readThread_keepsTurns _))
    fun read => ?_
  rcases read with _ | _ | thread
  · exact Guarantees.pure Does.refl _
  · exact Guarantees.pure Does.refl _
  · refine Guarantees.bind Does.trans
      (onRuntime_onTurns_works (assembleContextForInteraction_keepsTurns _ _ _ _))
      fun assembled => ?_
    cases assembled with
    | error _ => exact Guarantees.pure Does.refl _
    | ok context => exact streamModelTurn_works thread hchanged hrun _ _ _ _ _

/-- An approved turn is the turn the approval names. -/
theorem resumeAfterApproval_works {approval : ApprovalRequest} (hchanged : P approval.turnId)
    (hrun : R approval.turnId) (answers : List GatewayAnswer) {s : AppServer}
    (hfiled : Filed s.runtime.toTurnRuntime) :
    wp (resumeAfterApproval approval answers) (fun _ t => Works P R s t) (fun _ t => Works P R s t)
      s := by
  unfold resumeAfterApproval RuntimeCoordinator.resumeApprovedTurn
  rw [wp_bind, wp_onRuntime, wp_onTurns]
  refine wp_mono markTurn_marks ?_ ?_
  · rintro _ runtime ⟨found, hfound, rfl, hmarks⟩
    have hresumed : Works P R s { s with runtime := { s.runtime with toTurnRuntime := runtime } } :=
      ⟨hmarks.changesOnly hfound rfl rfl hchanged, rfl, .of_eq rfl⟩
    have hid : found.resumed.id = approval.turnId := hfiled approval.turnId found hfound
    exact wp_mono (runResumedTurn_works approval answers (hid ▸ hchanged) (hid ▸ hrun) _)
      (fun _ _ h => hresumed.trans h) (fun _ _ h => hresumed.trans h)
  · rintro _ runtime (hkept | ⟨turn, hturn, hmarks⟩)
    · exact ⟨hkept.changesOnly, rfl, .of_eq rfl⟩
    · exact ⟨hmarks.changesOnly hturn rfl rfl hchanged, rfl, .of_eq rfl⟩

theorem cancelAfterDenial_works {approval : ApprovalRequest} (hturn : P approval.turnId) :
    Guarantees (Works P R) (cancelAfterDenial approval) := by
  have hcancel : Guarantees (ChangesOnly P)
      (cancelTurn { threadId := approval.threadId, turnId := approval.turnId }) :=
    cancelTurn_changesOnly hturn
  refine Guarantees.bind Does.trans (onRuntime_changes_works hcancel) fun cancelled => ?_
  cases cancelled with
  | error _ => exact Guarantees.pure Does.refl _
  | ok turn =>
      refine Guarantees.bind Does.trans (publish_works _ _ _) fun _ => ?_
      refine Guarantees.bind Does.trans (threadEvent_works _ _ _) fun _ => ?_
      exact Guarantees.bind Does.trans (publishAll_works _) fun _ =>
        compileMemoryForThread_works _ _

/-- The approval has its new status, and nothing else has happened yet. -/
structure Answers (request : ApprovalRespondRequest) (approval : ApprovalRequest)
    (s t : AppServer) : Prop where
  found : s.runtime.approvals.lookup request.approvalId = some approval
  runtime : t.runtime = s.runtime.withApproval request.approvalId
    (RuntimeCoordinator.answered request.decision approval)
  trace : RunsOnly (fun _ => False) s t

/-- The turn of an answered approval is worked on, and run only when the answer was not a denial. -/
abbrev FollowsUp (request : ApprovalRespondRequest) (approval : ApprovalRequest) :
    AppServer → AppServer → Prop :=
  Works (· = approval.turnId) fun id => id = approval.turnId ∧ request.decision ≠ .deny

theorem continueAfterApproval_works (request : ApprovalRespondRequest)
    (answers : List GatewayAnswer) (approval : ApprovalRequest) {s : AppServer}
    (hfiled : Filed s.runtime.toTurnRuntime) :
    wp (continueAfterApproval request.decision answers approval)
      (fun _ t => FollowsUp request approval s t) (fun _ t => FollowsUp request approval s t) s := by
  have hresume (h : request.decision ≠ .deny) : wp (resumeAfterApproval approval answers)
      (fun _ t => FollowsUp request approval s t) (fun _ t => FollowsUp request approval s t) s :=
    resumeAfterApproval_works (P := (· = approval.turnId))
      (R := fun id => id = approval.turnId ∧ request.decision ≠ .deny) rfl ⟨rfl, h⟩ answers hfiled
  have hcancel : Guarantees (FollowsUp request approval) (cancelAfterDenial approval) :=
    cancelAfterDenial_works rfl
  unfold continueAfterApproval
  cases hdecision : request.decision with
  | approveOnce => exact hresume (by simp [hdecision])
  | approveAndPersist => exact hresume (by simp [hdecision])
  | deny => exact hcancel s

theorem dispatched_approvalRespond (request : ApprovalRespondRequest) (s : AppServer) :
    wp (dispatched (.approvalRespond request))
      (fun response m =>
        (∃ approval, response = .success (.approvalRespond
            (RuntimeCoordinator.answered request.decision approval)) ∧
          Answers request approval s m) ∨
        (∃ code message retryable, response = .error code message retryable) ∧
          Works (fun _ => False) (fun _ => False) s m)
      (fun _ _ => False) s := by
  unfold dispatched dispatch respond RuntimeCoordinator.respondApproval
  simp only [wp_bind, wp_onRuntime, wp_get]
  cases hfound : s.runtime.approvals.lookup request.approvalId with
  | none => exact Or.inr ⟨⟨_, _, _, rfl⟩, .of_quiet (.refl _) rfl⟩
  | some approval =>
      simp only [wp_bind, wp_modify, wp_pure, wp_publishAll]
      exact Or.inl ⟨approval, rfl, hfound, rfl, .published _ rfl⟩

theorem handleRequest_approvalRespond (request : ApprovalRespondRequest)
    (answers : List GatewayAnswer) {s : AppServer} (hfiled : Filed s.runtime.toTurnRuntime) :
    wp (handleRequest (.approvalRespond request) answers)
      (fun _ t => Works (fun _ => False) (fun _ => False) s t ∨
        ∃ approval m, Answers request approval s m ∧ FollowsUp request approval m t)
      (fun _ t => ∃ approval m, Answers request approval s m ∧ FollowsUp request approval m t)
      s := by
  rw [handleRequest_eq, wp_bind]
  refine wp_mono (dispatched_approvalRespond request s) ?_ (fun _ _ h => h.elim)
  rintro response m (⟨approval, rfl, hanswers⟩ | ⟨⟨code, message, retryable, rfl⟩, hworks⟩)
  · have hm : Filed m.runtime.toTurnRuntime := hanswers.runtime ▸ hfiled
    rw [wp_bind]
    exact wp_mono (continueAfterApproval_works request answers
        (RuntimeCoordinator.answered request.decision approval) hm)
      (fun _ t h => Or.inr ⟨approval, m, hanswers, h⟩) (fun _ t h => ⟨approval, m, hanswers, h⟩)
  · exact Or.inl hworks

end Requests

end Liz
