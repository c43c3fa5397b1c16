import Liz.Base.Moments
import Liz.Proof.Lifecycle

/-!
# Where the tool calls of the model are executed

The scope of a tool call is looked up anew for each call. When the lookup fails, the call is
executed without a mount on the local node, so a thread with a mount has its calls executed there
exactly when its record can be read at that moment and its mount is registered.
-/

namespace Liz

open Program

/-! ### The executions of the model -/

def Observation.modelExecution : Observation → Option ToolCallRequest
  | .toolExecuted .model request => some request
  | _ => none

/-- The tool calls of the model that have been executed. -/
def modelExecutions (s : AppServer) : List ToolCallRequest :=
  s.trace.filterMap Observation.modelExecution

/-- No tool call of the model has been executed. -/
abbrev NoneExecuted : AppServer → AppServer → Prop := Leaves modelExecutions

/-- The mount of a thread, as its record says. -/
def mountOf (stores : RuntimeStores) (threadId : ThreadId) : Option WorkspaceMountId :=
  match stores.threads.lookup threadId with
  | some (.intact thread) => thread.workspaceMountId
  | _ => none

/-- A tool call of the model, and the server before it is executed. -/
structure ToolCallMoment where
  server : AppServer
  threadId : ThreadId
  turnId : TurnId
  toolCall : ProviderToolCall

section Moments

variable [World]

namespace ToolCallMoment

/-- What becomes of the call: the request that is executed, if one is. -/
def executed (moment : ToolCallMoment) : List ToolCallRequest :=
  (modelExecutions (after (executeModelToolCall moment.threadId moment.turnId moment.toolCall)
    moment.server)).drop (modelExecutions moment.server).length

/-- If the thread has a mount, the mount is registered and the call is executed in it, on the node
of the mount. -/
def InScope (moment : ToolCallMoment) : Prop :=
  ∀ request ∈ moment.executed,
    ∀ mountId ∈ mountOf moment.server.runtime.stores request.threadId,
      ∃ mount ∈ moment.server.runtime.nodeRegistry.workspaceMounts.lookup mountId,
        request.workspaceMountId = some mountId ∧ request.nodeId = some mount.nodeId

/-- If the call is well formed and the thread has a mount, the next operation of the disk is not
refused and the mount is registered. -/
def FindsScope (moment : ToolCallMoment) : Prop :=
  (parseToolInvocation moment.toolCall.toolName moment.toolCall.arguments).isOk = true →
    ∀ mountId ∈ mountOf moment.server.runtime.stores moment.threadId,
      Disk.fault moment.server.runtime.stores.operations = none ∧
        (moment.server.runtime.nodeRegistry.workspaceMounts.lookup mountId).isSome = true

instance (moment : ToolCallMoment) : Decidable moment.InScope :=
  inferInstanceAs (Decidable (∀ request ∈ moment.executed,
    ∀ mountId ∈ mountOf moment.server.runtime.stores request.threadId,
      ∃ mount ∈ moment.server.runtime.nodeRegistry.workspaceMounts.lookup mountId,
        request.workspaceMountId = some mountId ∧ request.nodeId = some mount.nodeId))

instance (moment : ToolCallMoment) : Decidable moment.FindsScope :=
  inferInstanceAs (Decidable ((parseToolInvocation _ _).isOk = true →
    ∀ mountId ∈ mountOf moment.server.runtime.stores moment.threadId,
      Disk.fault moment.server.runtime.stores.operations = none ∧
        (moment.server.runtime.nodeRegistry.workspaceMounts.lookup mountId).isSome = true))

end ToolCallMoment

/-! ### The moments of a request -/

omit [World] in
theorem onward_observe {μ : Type} (observation : Observation)
    (later : Unit → AppServer → List μ) (s : AppServer) :
    onward (observe observation) later s = later () (s.observed observation) := rfl

def callMoments (threadId : ThreadId) (turnId : TurnId) :
    List ProviderToolCall → AppServer → List ToolCallMoment
  | [], _ => []
  | toolCall :: rest, s =>
      ⟨s, threadId, turnId, toolCall⟩ ::
        onward (executeModelToolCall threadId turnId toolCall)
          (fun _ => callMoments threadId turnId rest) s

def roundMoments (baseRequest : ModelTurnRequest) (outputContext : Option InteractionContext) :
    List GatewayAnswer → List ToolResultInjection → String → Nat → AppServer → List ToolCallMoment
  | [], _, _, _ => fun _ => []
  | answer :: answers, continuationResults, lastToolFingerprint, repeatedToolRounds =>
      let threadId := baseRequest.thread.id
      let turnId := baseRequest.turn.id
      onward (observe (.modelCalled (baseRequest.withToolResultInjections continuationResults)
        outputContext)) fun _ =>
      onward (handleModelEvents threadId turnId outputContext answer.events) fun _ =>
      match answer.outcome with
      | .error _ => fun _ => []
      | .ok summary =>
          if summary.toolCalls.isEmpty then fun _ => []
          else
            let fingerprint := toolCallFingerprint summary.toolCalls
            let repeatedToolRounds := if fingerprint = lastToolFingerprint
              then min (repeatedToolRounds + 1) (2 ^ 32 - 1) else 0
            fun s => callMoments threadId turnId summary.toolCalls s ++
              onward (executeModelToolCalls threadId turnId summary.toolCalls) (fun roundResults =>
                onward (loopDiagnostics repeatedToolRounds) fun diagnostics =>
                  roundMoments baseRequest outputContext answers
                    (continuationResults ++ roundResults ++ diagnostics) fingerprint
                    repeatedToolRounds) s

def turnMoments (thread : Thread) (turn : Turn) (context : AssembledContext)
    (outputContext : Option InteractionContext) (answers : List GatewayAnswer) :
    AppServer → List ToolCallMoment :=
  roundMoments (baseRequestFor thread turn context.systemPrompt context.developerPrompt
    context.userPrompt) outputContext answers [] "" 0

def decisionMoments (request : TurnStartRequest) (answers : List GatewayAnswer) (turn : Turn)
    (thread : Thread) (context : AssembledContext) (s : AppServer) : List ToolCallMoment :=
  if s.approvalPolicy = .onRequest ∧ (evaluatePolicy request.input context).requiresApproval then []
  else turnMoments thread turn context request.interactionContext answers s

def startMoments (request : TurnStartRequest) (answers : List GatewayAnswer) (turn : Turn) :
    AppServer → List ToolCallMoment :=
  onward (onRuntime (onTurns (readThread turn.threadId))) fun
    | .ok (some thread) =>
        onward (onRuntime (onTurns (assembleContextForInteraction thread.id request.input
          request.participant request.interactionContext))) fun
          | .ok context => decisionMoments request answers turn thread context
          | .error _ => fun _ => []
    | _ => fun _ => []

def resumptionMoments (approval : ApprovalRequest) (answers : List GatewayAnswer) :
    AppServer → List ToolCallMoment :=
  onward (onRuntime (RuntimeCoordinator.resumeApprovedTurn approval.threadId approval.turnId)) fun
    | .ok turn =>
        onward (onRuntime (onTurns (readThread approval.threadId))) fun
          | .ok (some thread) =>
              onward (onRuntime (onTurns (assembleContext thread.id (turn.goal.getD "")))) fun
                | .ok context => turnMoments thread turn context none answers
                | .error _ => fun _ => []
          | _ => fun _ => []
    | .error _ => fun _ => []

def answerMoments (decision : ApprovalDecision) (answers : List GatewayAnswer)
    (approval : ApprovalRequest) : AppServer → List ToolCallMoment :=
  match decision with
  | .deny => fun _ => []
  | _ => resumptionMoments approval answers

def followUpMoments (answers : List GatewayAnswer) :
    ClientRequest → ServerResponse → AppServer → List ToolCallMoment
  | .turnStart request, .success (.turnStart turn) => startMoments request answers turn
  | .approvalRespond request, .success (.approvalRespond approval) =>
      answerMoments request.decision answers approval
  | _, _ => fun _ => []

/-- The tool calls of the model while a request is handled. -/
def AppServer.toolCallMoments (s : AppServer) (input : ServerInput) : List ToolCallMoment :=
  onward (dispatched input.request) (followUpMoments input.answers input.request) s

/-! ### One call -/

/-- The scope that a call of the thread is executed in. -/
def scopeOf (s : AppServer) (threadId : ThreadId) : NodeId × Option WorkspaceMountId :=
  match foundThread s.runtime.stores threadId with
  | .error _ => ("local", none)
  | .ok thread =>
      match thread.workspaceMountId with
      | none => ("local", none)
      | some mountId =>
          match s.runtime.nodeRegistry.workspaceMounts.lookup mountId with
          | some mount => (mount.nodeId, some mountId)
          | none => ("local", none)

/-- The lookup gives the scope of the thread and observes nothing. -/
theorem localThreadExecutionScope_eq (threadId : ThreadId) (s : AppServer) :
    wp (localThreadExecutionScope threadId) (fun scope t => scope = scopeOf s threadId ∧
      t.trace = s.trace) (fun _ _ => False) s := by
  unfold localThreadExecutionScope RuntimeCoordinator.threadExecutionScope scopeOf
  rw [wp_bind, wp_onRuntime, wp_bind, wp_onTurns, wp_requireThread]
  cases hfound : foundThread s.runtime.stores threadId with
  | error e => exact ⟨by simp, fun _ _ => ⟨rfl, rfl⟩⟩
  | ok thread =>
      refine ⟨fun found hok => ?_, by simp⟩
      obtain rfl : thread = found := Except.ok.inj hok
      dsimp only
      cases thread.workspaceMountId with
      | none => exact ⟨rfl, rfl⟩
      | some mountId =>
          simp only [wp_bind, wp_get, NodeRegistry.readWorkspaceMount]
          cases s.runtime.nodeRegistry.workspaceMounts.lookup mountId with
          | none => exact ⟨rfl, rfl⟩
          | some mount => exact ⟨rfl, rfl⟩

/-- An observation that is no execution of a tool call of the model. -/
abbrev Tacit (observation : Observation) : Prop := observation.modelExecution = none

omit [World] in
theorem Adds.noneExecuted {s t : AppServer} (h : Adds Tacit s t) : NoneExecuted s t := by
  obtain ⟨more, hmore, htacit⟩ := h
  have hnone : more.filterMap Observation.modelExecution = [] := List.filterMap_eq_nil_iff.mpr htacit
  rw [NoneExecuted, Leaves, modelExecutions, modelExecutions, hmore, List.filterMap_append, hnone,
    List.append_nil]

omit [World] in
theorem Does.noneExecuted {α : Type} {P : TurnId → Prop} {p : ServerM α}
    (h : Always (Does P Tacit) p) : Always NoneExecuted p := fun s =>
  wp_mono (h s) (fun _ _ hdoes => hdoes.trace.noneExecuted) (fun _ _ hno => hno)

omit [World] in
theorem tacit_published (event : PendingEvent) : Tacit (.published event) := rfl

/-- A request is executed on the local node only. -/
theorem executeTool_executes (request : ToolCallRequest) (s : AppServer) :
    wp (executeTool .model request) (fun _ t => modelExecutions t = modelExecutions s ++
      if request.nodeId.getD "local" = "local" then [request] else []) (fun _ _ => False) s := by
  unfold executeTool
  dsimp only
  by_cases hlocal : request.nodeId.getD "local" = "local"
  · rw [if_neg (not_not.mpr hlocal), if_pos hlocal]
    simp only [wp_bind, wp_get, wp_modify, wp_observe, wp_pure]
    exact List.filterMap_append
  · rw [if_pos hlocal, if_neg hlocal]
    exact (List.append_nil _).symm

/-- The request of a call, in the scope that is looked up for it. -/
def requestOf (s : AppServer) (threadId : ThreadId) (turnId : TurnId)
    (invocation : ToolInvocation) : ToolCallRequest :=
  { threadId := threadId
    turnId := some turnId
    nodeId := some (scopeOf s threadId).1
    workspaceMountId := (scopeOf s threadId).2
    invocation := invocation }

/-- A call is executed when it is well formed and its node is the local one. -/
theorem executeModelToolCall_executes (threadId : ThreadId) (turnId : TurnId)
    (toolCall : ProviderToolCall) (s : AppServer) :
    wp (executeModelToolCall threadId turnId toolCall) (fun _ t => modelExecutions t =
        modelExecutions s ++ match parseToolInvocation toolCall.toolName toolCall.arguments with
          | .error _ => []
          | .ok invocation =>
              if (scopeOf s threadId).1 = "local" then [requestOf s threadId turnId invocation]
              else []) (fun _ _ => False) s := by
  unfold executeModelToolCall
  rw [wp_bind]
  refine wp_mono (localThreadExecutionScope_eq threadId s) ?_ (fun _ _ h => h)
  rintro _ t ⟨rfl, htrace⟩
  have hbefore : modelExecutions t = modelExecutions s :=
    congrArg (List.filterMap Observation.modelExecution) htrace
  have hfailed : ∀ message nodeId workspaceMountId summary, Always NoneExecuted
      (toolCallFailed threadId turnId toolCall toolCall.toolName message nodeId workspaceMountId
        summary) := fun _ _ _ _ =>
    Does.noneExecuted (P := fun _ => True)
      (toolCallFailed_does (fun event _ => tacit_published event) _ _ _ _ _ _ _ _)
  cases parseToolInvocation toolCall.toolName toolCall.arguments with
  | error message =>
      refine wp_mono (hfailed _ _ _ _ t) (fun _ u hu => ?_) (fun _ _ h => h)
      exact (Eq.trans hu hbefore).trans (List.append_nil _).symm
  | ok invocation =>
      rw [wp_bind]
      refine wp_mono (executeTool_executes _ t) (fun execution u hu => ?_) (fun _ _ h => h)
      rw [hbefore] at hu
      cases execution with
      | error error => exact wp_mono (hfailed _ _ _ _ u) (fun _ _ h => Eq.trans h hu) (fun _ _ h => h)
      | ok recorded =>
          have hrecorded := Does.noneExecuted (P := fun _ => True) (recordModelToolCall_does
            (fun event _ => tacit_published event) threadId turnId toolCall
            (scopeOf s threadId).2 recorded.1 recorded.2)
          exact wp_mono (hrecorded u) (fun _ _ h => Eq.trans h hu) (fun _ _ h => h)

/-- The scope of a thread with a mount. -/
theorem scopeOf_of_mount {s : AppServer} {threadId : ThreadId} {mountId : WorkspaceMountId}
    (h : mountOf s.runtime.stores threadId = some mountId) :
    scopeOf s threadId =
      if Disk.fault s.runtime.stores.operations = none then
        match s.runtime.nodeRegistry.workspaceMounts.lookup mountId with
        | some mount => (mount.nodeId, some mountId)
        | none => ("local", none)
      else ("local", none) := by
  unfold mountOf at h
  split at h
  next thread hthread =>
    rw [scopeOf, foundThread, hthread]
    cases Disk.fault s.runtime.stores.operations with
    | some fault => rfl
    | none =>
        simp only [readOutcome, h]
        rfl
  next => exact absurd h (by simp)

namespace ToolCallMoment

/-- The call in the scope that is looked up, when it is well formed and its node is the local one. -/
theorem executed_eq (moment : ToolCallMoment) : moment.executed =
    match parseToolInvocation moment.toolCall.toolName moment.toolCall.arguments with
    | .error _ => []
    | .ok invocation =>
        if (scopeOf moment.server moment.threadId).1 = "local" then
          [requestOf moment.server moment.threadId moment.turnId invocation]
        else [] := by
  have hcall := after_of_always (executeModelToolCall_executes moment.threadId moment.turnId
    moment.toolCall moment.server)
  rw [executed, hcall, List.drop_left]

theorem inScope_of_ok {moment : ToolCallMoment} {invocation : ToolInvocation}
    (h : parseToolInvocation moment.toolCall.toolName moment.toolCall.arguments = .ok invocation) :
    moment.InScope ↔ ((scopeOf moment.server moment.threadId).1 = "local" →
      ∀ mountId ∈ mountOf moment.server.runtime.stores moment.threadId,
        ∃ mount ∈ moment.server.runtime.nodeRegistry.workspaceMounts.lookup mountId,
          scopeOf moment.server moment.threadId = (mount.nodeId, some mountId)) := by
  unfold InScope
  rw [executed_eq, h]
  dsimp only
  by_cases hlocal : (scopeOf moment.server moment.threadId).1 = "local"
  · rw [if_pos hlocal, List.forall_mem_singleton]
    simp only [requestOf, hlocal, forall_const, Prod.ext_iff, Option.some.injEq]
    grind
  · rw [if_neg hlocal]
    exact iff_of_true (by simp) (fun h => absurd h hlocal)

/-- The call gets the scope of its thread exactly when the scope is found. -/
theorem inScope_iff (moment : ToolCallMoment) : moment.InScope ↔ moment.FindsScope := by
  cases hparse : parseToolInvocation moment.toolCall.toolName moment.toolCall.arguments with
  | error message =>
      unfold InScope FindsScope
      rw [executed_eq, hparse]
      exact iff_of_true (by simp) (by simp [Except.isOk, Except.toBool])
  | ok invocation =>
      rw [inScope_of_ok hparse, FindsScope, hparse]
      cases hmount : mountOf moment.server.runtime.stores moment.threadId with
      | none => simp
      | some mountId =>
          rw [scopeOf_of_mount hmount]
          by_cases hfault : Disk.fault moment.server.runtime.stores.operations = none
          · rw [if_pos hfault]
            cases hmounted : moment.server.runtime.nodeRegistry.workspaceMounts.lookup mountId <;>
              simp [hfault, hmounted, Except.isOk, Except.toBool]
          · simp [hfault, Except.isOk, Except.toBool]

end ToolCallMoment

/-! ### Every execution has its moment -/

/-- What is executed while the program runs is what is executed at the moments. -/
abbrev ExecutesAt {α : Type} (p : ServerM α) (moments : AppServer → List ToolCallMoment) : Prop :=
  Accounts modelExecutions ToolCallMoment.executed p moments

theorem executeModelToolCall_executesAt (threadId : ThreadId) (turnId : TurnId)
    (toolCall : ProviderToolCall) :
    ExecutesAt (executeModelToolCall threadId turnId toolCall)
      fun s => [⟨s, threadId, turnId, toolCall⟩] := by
  intro s
  rw [List.flatMap_singleton, ToolCallMoment.executed_eq]
  exact after_of_always (executeModelToolCall_executes threadId turnId toolCall s)

theorem executeModelToolCalls_executesAt (threadId : ThreadId) (turnId : TurnId)
    (toolCalls : List ProviderToolCall) :
    ExecutesAt (executeModelToolCalls threadId turnId toolCalls)
      (callMoments threadId turnId toolCalls) := by
  induction toolCalls with
  | nil => exact Accounts.nothing (Guarantees.pure Leaves.refl _)
  | cons toolCall rest ih =>
      refine Accounts.bind (executeModelToolCall_executesAt threadId turnId toolCall) fun _ => ?_
      exact Accounts.bind_nothing ih fun _ => Guarantees.pure Leaves.refl _

theorem runRounds_executesAt (baseRequest : ModelTurnRequest)
    (outputContext : Option InteractionContext) (answers : List GatewayAnswer)
    (continuationResults : List ToolResultInjection) (lastToolFingerprint : String)
    (repeatedToolRounds : Nat) :
    ExecutesAt (runRounds baseRequest outputContext answers continuationResults lastToolFingerprint
      repeatedToolRounds) (roundMoments baseRequest outputContext answers continuationResults
        lastToolFingerprint repeatedToolRounds) := by
  have hcalled : ∀ results, Guarantees NoneExecuted
      (observe (.modelCalled (baseRequest.withToolResultInjections results) outputContext)) := by
    intro results
    exact (Does.noneExecuted (observe_does (P := fun _ => True) rfl)).guarantees
  induction answers generalizing continuationResults lastToolFingerprint repeatedToolRounds with
  | nil =>
      refine Accounts.nothing (Guarantees.bind Leaves.trans (hcalled _) fun _ => ?_)
      exact Guarantees.throw Leaves.refl _
  | cons answer answers ih =>
      rw [roundMoments]
      refine Accounts.bind_of_nothing (hcalled _) fun _ => ?_
      refine Accounts.bind_of_nothing (Does.noneExecuted (handleModelEvents_does
        (P := fun _ => True) tacit_published _ _ _ _)).guarantees fun _ => ?_
      cases answer.outcome with
      | error _ => exact Accounts.nothing (Guarantees.pure Leaves.refl _)
      | ok summary =>
          dsimp only
          split
          · exact Accounts.nothing (Guarantees.pure Leaves.refl _)
          · refine Accounts.bind (executeModelToolCalls_executesAt _ _ _) fun _ => ?_
            exact Accounts.bind_of_nothing
              (Does.noneExecuted (loopDiagnostics_does (P := fun _ => True) _)).guarantees
              fun _ => ih _ _ _

omit [World] in
theorem onRuntime_noneExecuted {α : Type} (p : RuntimeM α) :
    Guarantees NoneExecuted (onRuntime p) := by
  intro s
  rw [wp_onRuntime]
  unfold wp
  split <;> rfl

omit [World] in
theorem publishAll_noneExecuted (events : List PendingEvent) :
    Guarantees NoneExecuted (publishAll events) :=
  (Does.noneExecuted (publishAll_does (P := fun _ => True) fun event _ =>
    tacit_published event)).guarantees

theorem compileMemoryForThread_noneExecuted (threadId : ThreadId) (turnId : Option TurnId) :
    Guarantees NoneExecuted (compileMemoryForThread threadId turnId) :=
  (Does.noneExecuted (compileMemoryForThread_does (P := fun _ => True)
    (fun event _ => tacit_published event) threadId turnId)).guarantees

theorem threadEvent_noneExecuted (threadId : ThreadId) (turnId : TurnId)
    (payload : Thread → ServerEventPayload) :
    Guarantees NoneExecuted (threadEvent threadId turnId payload) := by
  refine Guarantees.bind Leaves.trans (onRuntime_noneExecuted _) fun read => ?_
  rcases read with _ | _ | thread <;> exact Guarantees.pure Leaves.refl _

/-! ### Handling a request -/

omit [World] in
theorem respond_noneExecuted {α : Type} {p : RuntimeM α}
    {success : α → ServerM (ResponsePayload × List PendingEvent)}
    (h : ∀ value, Guarantees NoneExecuted (success value)) :
    Guarantees NoneExecuted (respond p success) := by
  refine Guarantees.bind Leaves.trans (onRuntime_noneExecuted p) fun outcome => ?_
  cases outcome with
  | ok value =>
      exact Guarantees.bind Leaves.trans (h value) fun _ => Guarantees.pure Leaves.refl _
  | error _ => exact Guarantees.pure Leaves.refl _

theorem handleToolCall_noneExecuted (request : ToolCallRequest) :
    Guarantees NoneExecuted (handleToolCall request) := by
  refine Guarantees.bind Leaves.trans (onRuntime_noneExecuted _) fun normalized => ?_
  cases normalized with
  | error _ => exact Guarantees.pure Leaves.refl _
  | ok request =>
      refine Guarantees.bind Leaves.trans
        (Does.noneExecuted (executeTool_does (P := fun _ => True) rfl)).guarantees fun execution => ?_
      cases execution with
      | error _ => exact Guarantees.pure Leaves.refl _
      | ok executed => exact respond_noneExecuted fun _ => Guarantees.pure Leaves.refl _

theorem dispatch_noneExecuted (request : ClientRequest) :
    Guarantees NoneExecuted (dispatch request) := by
  have hpure : ∀ {α : Type} (a : α), Guarantees NoneExecuted (pure a : ServerM α) := fun a =>
    Guarantees.pure Leaves.refl a
  cases request with
  | runtimeConfigGet =>
      exact Guarantees.bind Leaves.trans (Guarantees.get Leaves.refl) fun _ => hpure _
  | runtimeConfigUpdate sandbox approvalPolicy =>
      refine Guarantees.bind Leaves.trans (Guarantees.modify fun _ => rfl) fun _ => ?_
      exact Guarantees.bind Leaves.trans (Guarantees.get Leaves.refl) fun _ => hpure _
  | threadStart request => exact respond_noneExecuted fun _ => hpure _
  | threadResume request =>
      refine respond_noneExecuted fun _ => ?_
      exact Guarantees.bind Leaves.trans (Guarantees.get Leaves.refl) fun _ => hpure _
  | threadFork request => exact respond_noneExecuted fun _ => hpure _
  | turnStart request =>
      refine respond_noneExecuted fun _ => ?_
      exact Guarantees.bind Leaves.trans (threadEvent_noneExecuted _ _ _) fun _ => hpure _
  | turnCancel request =>
      refine respond_noneExecuted fun _ => ?_
      exact Guarantees.bind Leaves.trans (threadEvent_noneExecuted _ _ _) fun _ => hpure _
  | approvalRespond request => exact respond_noneExecuted fun _ => hpure _
  | toolCall request => exact handleToolCall_noneExecuted request
  | threadRollback => exact hpure _
  | other method outcome =>
      exact Guarantees.bind Leaves.trans (Guarantees.modify fun _ => rfl) fun _ => hpure _

theorem dispatched_noneExecuted (request : ClientRequest) :
    Guarantees NoneExecuted (dispatched request) := by
  refine Guarantees.bind Leaves.trans (dispatch_noneExecuted request) fun response => ?_
  exact Guarantees.bind Leaves.trans (publishAll_noneExecuted _) fun _ =>
    Guarantees.pure Leaves.refl _

theorem streamModelTurn_executesAt (thread : Thread) (turn : Turn) (context : AssembledContext)
    (outputContext : Option InteractionContext) (answers : List GatewayAnswer) :
    ExecutesAt (streamModelTurn thread turn context.systemPrompt context.developerPrompt
      context.userPrompt outputContext answers)
      (turnMoments thread turn context outputContext answers) :=
  Accounts.bind_nothing (runRounds_executesAt _ _ _ _ _ _) fun ending =>
    (Does.noneExecuted (finishModelTurn_does (P := fun _ => True) tacit_published _ trivial _
      ending)).guarantees

theorem requestApproval_noneExecuted (threadId : ThreadId) (turnId : TurnId)
    (decision : PolicyDecision) :
    Guarantees NoneExecuted (requestApproval threadId turnId decision) := by
  apply Guarantees.bind Leaves.trans (onRuntime_noneExecuted _)
  intro asked
  rcases asked with _ | ⟨checkpoint, approval⟩
  · exact Guarantees.pure Leaves.refl _
  · exact publishAll_noneExecuted _

theorem decideTurn_executesAt (request : TurnStartRequest) (answers : List GatewayAnswer)
    (turn : Turn) (thread : Thread) (context : AssembledContext) :
    ExecutesAt (decideTurn request answers turn thread context)
      (decisionMoments request answers turn thread context) := by
  have hmoments : decisionMoments request answers turn thread context =
      onward (get : ServerM AppServer) fun server t =>
        if server.approvalPolicy = .onRequest ∧
            (evaluatePolicy request.input context).requiresApproval then []
        else turnMoments thread turn context request.interactionContext answers t := by
    funext s
    rw [onward_of_ok (rfl : (get : ServerM AppServer) s = .ok s s), decisionMoments]
  rw [hmoments]
  apply Accounts.bind_of_nothing (Guarantees.get Leaves.refl)
  intro server
  split
  · exact Accounts.nothing (requestApproval_noneExecuted _ _ _)
  · exact streamModelTurn_executesAt thread turn context request.interactionContext answers

/-- The moments of what the server does with the thread it has read and the context assembled for
it. -/
theorem executesAt_read {threadId : ThreadId} {assembled : Thread → TurnM AssembledContext}
    {go : Thread → AssembledContext → ServerM Unit}
    {moments : Thread → AssembledContext → AppServer → List ToolCallMoment}
    (hgo : ∀ thread context, ExecutesAt (go thread context) (moments thread context)) :
    ExecutesAt
      (do
        match ← onRuntime (onTurns (readThread threadId)) with
        | .ok (some thread) => do
            match ← onRuntime (onTurns (assembled thread)) with
            | .ok context => go thread context
            | .error _ => pure ()
        | _ => pure ())
      (onward (onRuntime (onTurns (readThread threadId))) fun
        | .ok (some thread) =>
            onward (onRuntime (onTurns (assembled thread))) fun
              | .ok context => moments thread context
              | .error _ => fun _ => []
        | _ => fun _ => []) := by
  refine Accounts.bind_of_nothing (onRuntime_noneExecuted _) fun read => ?_
  rcases read with _ | _ | thread
  · exact Accounts.nothing (Guarantees.pure Leaves.refl _)
  · exact Accounts.nothing (Guarantees.pure Leaves.refl _)
  · refine Accounts.bind_of_nothing (onRuntime_noneExecuted _) fun context => ?_
    cases context with
    | error _ => exact Accounts.nothing (Guarantees.pure Leaves.refl _)
    | ok context => exact hgo thread context

theorem continueTurnAfterPolicy_executesAt (request : TurnStartRequest)
    (answers : List GatewayAnswer) (turn : Turn) :
    ExecutesAt (continueTurnAfterPolicy request answers turn)
      (startMoments request answers turn) :=
  executesAt_read fun thread context => decideTurn_executesAt request answers turn thread context

theorem resumeAfterApproval_executesAt (approval : ApprovalRequest) (answers : List GatewayAnswer) :
    ExecutesAt (resumeAfterApproval approval answers) (resumptionMoments approval answers) := by
  refine Accounts.bind_of_nothing (onRuntime_noneExecuted _) fun resumed => ?_
  cases resumed with
  | error _ => exact Accounts.nothing (Guarantees.pure Leaves.refl _)
  | ok turn =>
      exact executesAt_read fun thread context =>
        streamModelTurn_executesAt thread turn context none answers

theorem cancelAfterDenial_noneExecuted (approval : ApprovalRequest) :
    Guarantees NoneExecuted (cancelAfterDenial approval) := by
  refine Guarantees.bind Leaves.trans (onRuntime_noneExecuted _) fun cancelled => ?_
  cases cancelled with
  | error _ => exact Guarantees.pure Leaves.refl _
  | ok turn =>
      refine Guarantees.bind Leaves.trans (publishAll_noneExecuted [_]) fun _ => ?_
      refine Guarantees.bind Leaves.trans (threadEvent_noneExecuted _ _ _) fun events => ?_
      exact Guarantees.bind Leaves.trans (publishAll_noneExecuted events) fun _ =>
        compileMemoryForThread_noneExecuted _ _

theorem continueAfterApproval_executesAt (decision : ApprovalDecision)
    (answers : List GatewayAnswer) (approval : ApprovalRequest) :
    ExecutesAt (continueAfterApproval decision answers approval)
      (answerMoments decision answers approval) := by
  cases decision with
  | approveOnce => exact resumeAfterApproval_executesAt approval answers
  | approveAndPersist => exact resumeAfterApproval_executesAt approval answers
  | deny => exact Accounts.nothing (cancelAfterDenial_noneExecuted approval)

theorem continueAfter_executesAt (answers : List GatewayAnswer) (request : ClientRequest)
    (response : ServerResponse) :
    ExecutesAt (continueAfter answers request response)
      (followUpMoments answers request response) := by
  have hnothing : ExecutesAt (pure () : ServerM Unit) fun _ => [] :=
    Accounts.nothing (Guarantees.pure Leaves.refl ())
  cases request with
  | turnStart request =>
      cases response with
      | error _ _ _ => exact hnothing
      | success payload =>
          cases payload with
          | turnStart turn => exact continueTurnAfterPolicy_executesAt request answers turn
          | _ => exact hnothing
  | turnCancel request =>
      cases response with
      | error _ _ _ => exact hnothing
      | success payload => exact Accounts.nothing (compileMemoryForThread_noneExecuted _ _)
  | approvalRespond request =>
      cases response with
      | error _ _ _ => exact hnothing
      | success payload =>
          cases payload with
          | approvalRespond approval =>
              exact continueAfterApproval_executesAt request.decision answers approval
          | _ => exact hnothing
  | _ => exact hnothing

/-- While a request is handled, the tool calls of the model are executed at its moments. -/
theorem step_executesAt (s : AppServer) (input : ServerInput) :
    modelExecutions (s.step input) =
      modelExecutions s ++ (s.toolCallMoments input).flatMap ToolCallMoment.executed := by
  have hall : ExecutesAt (handleRequest input.request input.answers)
      (onward (dispatched input.request) (followUpMoments input.answers input.request)) := by
    rw [handleRequest_eq]
    refine Accounts.bind_of_nothing (dispatched_noneExecuted _) fun response => ?_
    exact Accounts.bind_nothing (continueAfter_executesAt _ _ response) fun _ =>
      Guarantees.pure Leaves.refl _
  exact hall s

/-! ### Runs -/

/-- The tool calls of the model are all executed in the scope of their threads. -/
def AppServer.KeepsScope (s : AppServer) (input : ServerInput) : Prop :=
  ∀ moment ∈ s.toolCallMoments input, moment.InScope

/-- The tool calls of the model all find the scope of their threads. -/
def AppServer.FindsScopes (s : AppServer) (input : ServerInput) : Prop :=
  ∀ moment ∈ s.toolCallMoments input, moment.FindsScope

instance (s : AppServer) (input : ServerInput) : Decidable (s.KeepsScope input) :=
  inferInstanceAs (Decidable (∀ moment ∈ s.toolCallMoments input, moment.InScope))

instance (s : AppServer) (input : ServerInput) : Decidable (s.FindsScopes input) :=
  inferInstanceAs (Decidable (∀ moment ∈ s.toolCallMoments input, moment.FindsScope))

/-- In every run the tool calls of the model are executed at the moments of its requests, and all of
them in the scope of their threads exactly when each of them finds it. -/
theorem model_calls_in_scope_iff (host : HostInfo) (sandbox : ShellSandboxRequest)
    (stores : RuntimeStores) (inputs : List ServerInput) :
    Runs.AllSteps AppServer.step
        (fun s input => modelExecutions (s.step input) =
          modelExecutions s ++ (s.toolCallMoments input).flatMap ToolCallMoment.executed)
        (AppServer.new host sandbox stores) inputs ∧
      (Runs.AllSteps AppServer.step AppServer.KeepsScope (AppServer.new host sandbox stores) inputs ↔
        Runs.AllSteps AppServer.step AppServer.FindsScopes (AppServer.new host sandbox stores)
          inputs) := by
  have hstep : ∀ (s : AppServer) (input : ServerInput), s.KeepsScope input ↔ s.FindsScopes input :=
    fun s input => forall₂_congr fun moment _ => moment.inScope_iff
  exact ⟨Runs.allSteps_of_forall step_executesAt _ _, Runs.allSteps_congr hstep _ _⟩

end Moments

/-! ### A thread with a mount that was never attached -/

/-- Both fields of the workspace are given, and the mount does not exist. -/
def strayThreadInput : ServerInput :=
  { request := .threadStart
      { title := none, initialGoal := none, workspaceRef := some "/srv/app"
        workspaceMountId := some "workspace_7" }
    answers := [] }

/-- The model lists a directory before it answers. -/
def listingInput : ServerInput :=
  { request := .turnStart (turnRequest "What is here?")
    answers :=
      [{ events := []
         outcome := .ok
          { assistantMessage := none
            toolCalls :=
              [{ callId := "call_1", toolName := "workspace.list", providerToolName := "list"
                 arguments := .object [("root", .string "/")] }] } },
        plainAnswer "Nothing."] }

/-- The call is executed on the local node, without the mount of the thread. -/
theorem stray_mount_is_left_out :
    ¬ ∀ (world : World) (host : HostInfo) (sandbox : ShellSandboxRequest) (stores : RuntimeStores)
      (inputs : List ServerInput), Runs.AllSteps (@AppServer.step world) (@AppServer.KeepsScope world)
        (@AppServer.new world.toDisk host sandbox stores) inputs := by
  intro h
  have hkept := h plainWorld { os := "linux", hostname := none }
    { mode := .workspaceWrite, networkAccess := .restricted } .blank [strayThreadInput, listingInput]
  exact absurd hkept (by decide +kernel)

end Liz
