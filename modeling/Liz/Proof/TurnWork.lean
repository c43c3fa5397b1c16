import Liz.Proof.ConversationTools
import Liz.Proof.DroppedCalls
import Liz.Proof.MemoryFile

/-!
# What a request comes to

Once a request has been dispatched it comes to one piece of work at most: a turn is run at the model,
or memory is compiled at the end of a turn. Until then the model is not called and the memory file is
left alone; a turn that is run comes to one compilation at most, when it ends.
-/

namespace Liz

open Program

/-- The server before it compiles memory for a thread. -/
structure Boundary where
  server : AppServer
  threadId : ThreadId
  turnId : Option TurnId

/-- The server before it runs a turn at the model. -/
structure ModelTurn where
  server : AppServer
  thread : Thread
  turn : Turn
  context : AssembledContext
  outputContext : Option InteractionContext

inductive Work
  | turn (started : ModelTurn)
  | compilation (boundary : Boundary)

def Work.isTurn : Work → Bool
  | turn _ => true
  | compilation _ => false

def Work.server : Work → AppServer
  | turn started => started.server
  | compilation boundary => boundary.server

/-- What is remembered: the facts, the topics and the summary of the owner's identity. -/
structure Knowledge where
  facts : List StoredMemoryFact
  recentTopics : List String
  topicIndex : List StoredTopicRecord
  identitySummary : Option String
  deriving DecidableEq

def GlobalMemorySnapshot.knowledge (snapshot : GlobalMemorySnapshot) : Knowledge :=
  { facts := snapshot.facts
    recentTopics := snapshot.recentTopics
    topicIndex := snapshot.topicIndex
    identitySummary := snapshot.identitySummary }

/-- What the memory file remembers; none when it does not parse. -/
def knowledge (stores : RuntimeStores) : Option Knowledge :=
  (storedMemory stores).map GlobalMemorySnapshot.knowledge

theorem SameMemory.knowledge_eq {s t : TurnRuntime} (h : SameMemory s t) :
    knowledge t.stores = knowledge s.stores := by
  rw [knowledge, knowledge, storedMemory, storedMemory, h]

/-- The model has not been called, and the memory file is as it was. -/
structure Undisturbed (s t : AppServer) : Prop where
  requests : modelRequests t = modelRequests s
  memory : SameMemory s.runtime.toTurnRuntime t.runtime.toTurnRuntime

theorem Undisturbed.refl (s : AppServer) : Undisturbed s s := ⟨rfl, .refl _⟩

theorem Undisturbed.trans ⦃s t u : AppServer⦄ (h : Undisturbed s t) (h' : Undisturbed t u) :
    Undisturbed s u :=
  ⟨h'.requests.trans h.requests, h.memory.trans h'.memory⟩

/-! ### Programs between two calls of the model -/

section Programs

variable {α : Type}

theorem observe_undisturbed {observation : Observation} (h : observation.modelRequest = none) :
    Always Undisturbed (observe observation) := by
  intro s
  refine ⟨?_, rfl⟩
  show List.filterMap _ (s.trace ++ [_]) = _
  rw [List.filterMap_append, List.filterMap_cons_none h]
  exact List.append_nil _

theorem publishAll_undisturbed (events : List PendingEvent) :
    Always Undisturbed (publishAll events) :=
  publishAll_always Undisturbed.refl Undisturbed.trans fun _ _ => observe_undisturbed rfl

theorem onRuntime_undisturbed {p : RuntimeM α}
    (h : Guarantees (fun s t => SameMemory s.toTurnRuntime t.toTurnRuntime) p) :
    Always Undisturbed (onRuntime p) := by
  intro s
  rw [wp_onRuntime]
  exact wp_mono (h s.runtime) (fun _ _ hsame => ⟨rfl, hsame⟩) (fun _ _ hsame => ⟨rfl, hsame⟩)

theorem onTurns_undisturbed {p : TurnM α} (h : Guarantees SameMemory p) :
    Always Undisturbed (onRuntime (onTurns p)) := by
  apply onRuntime_undisturbed
  intro s
  rw [wp_onTurns]
  exact wp_mono (h s.toTurnRuntime) (fun _ _ hsame => hsame) (fun _ _ hsame => hsame)

variable [World]

theorem localThreadExecutionScope_undisturbed (threadId : ThreadId) :
    Always Undisturbed (localThreadExecutionScope threadId) :=
  localThreadExecutionScope_always threadId fun _ => ⟨rfl, rfl⟩

theorem handleModelEvents_undisturbed (threadId : ThreadId) (turnId : TurnId)
    (outputContext : Option InteractionContext) (events : List NormalizedTurnEvent) :
    Always Undisturbed (handleModelEvents threadId turnId outputContext events) :=
  handleModelEvents_always Undisturbed.refl Undisturbed.trans
    (localThreadExecutionScope_undisturbed _) (fun _ _ => observe_undisturbed rfl) outputContext
    events

theorem executeModelToolCalls_undisturbed (threadId : ThreadId) (turnId : TurnId)
    (toolCalls : List ProviderToolCall) :
    Always Undisturbed (executeModelToolCalls threadId turnId toolCalls) := by
  have hfailed : ∀ toolCall toolName message nodeId mountId summary, Always Undisturbed
      (toolCallFailed threadId turnId toolCall toolName message nodeId mountId summary) :=
    fun _ _ _ _ _ _ => Always.bind Undisturbed.trans (observe_undisturbed rfl) fun _ =>
      Always.pure Undisturbed.refl _
  have hexecuted : ∀ request, Always Undisturbed (executeTool .model request) := fun _ =>
    executeTool_always Undisturbed.refl Undisturbed.trans (fun _ _ => ⟨rfl, rfl⟩)
      (observe_undisturbed rfl)
  have hrecorded : ∀ toolCall mountId nodeId executed, Always Undisturbed
      (recordModelToolCall threadId turnId toolCall mountId nodeId executed) := by
    intro toolCall mountId nodeId executed
    apply recordModelToolCall_always Undisturbed.trans
    · exact fun _ _ _ => onTurns_undisturbed (recordToolExecution_sameMemory _ _ _ _ _ _ _)
    · exact hfailed _
    · exact fun _ _ => publishAll_undisturbed _
  apply executeModelToolCalls_always Undisturbed.refl Undisturbed.trans
  intro toolCall _
  exact executeModelToolCall_always Undisturbed.trans (localThreadExecutionScope_undisturbed _)
    (hfailed _) (fun _ _ => hexecuted _) (hrecorded _)

theorem loopDiagnostics_undisturbed (repeatedToolRounds : Nat) :
    Always Undisturbed (loopDiagnostics repeatedToolRounds) := by
  apply loopDiagnostics_always Undisturbed.refl Undisturbed.trans
  exact fun _ _ => Always.modifyGet fun _ => ⟨rfl, rfl⟩

theorem threadEvent_undisturbed (threadId : ThreadId) (turnId : TurnId)
    (payload : Thread → ServerEventPayload) :
    Always Undisturbed (threadEvent threadId turnId payload) := by
  apply Always.bind Undisturbed.trans (onTurns_undisturbed (readThread_sameMemory threadId))
  intro read
  rcases read with _ | _ | thread <;> exact Always.pure Undisturbed.refl _

theorem requestApproval_undisturbed (threadId : ThreadId) (turnId : TurnId)
    (decision : PolicyDecision) :
    Always Undisturbed (requestApproval threadId turnId decision) := by
  apply Always.bind Undisturbed.trans
    (onRuntime_undisturbed (requireApprovalForTurn_sameMemory threadId turnId decision))
  intro asked
  cases asked with
  | error _ => exact Always.pure Undisturbed.refl _
  | ok asked => exact publishAll_undisturbed _

theorem after_requestApproval_undisturbed (threadId : ThreadId) (turnId : TurnId)
    (decision : PolicyDecision) (s : AppServer) :
    Undisturbed s (after (requestApproval threadId turnId decision) s) :=
  wp_after.mp ((requestApproval_undisturbed threadId turnId decision).guarantees s)

/-! ### The rounds at the model -/

omit [World] in
theorem length_modelRequests_called (s : AppServer) (request : ModelTurnRequest)
    (outputContext : Option InteractionContext) :
    (modelRequests (s.observed (.modelCalled request outputContext))).length =
      (modelRequests s).length + 1 := by
  show (List.filterMap _ (s.trace ++ [_])).length = _
  rw [List.filterMap_append, List.length_append]
  rfl

/-- The rounds call the model and leave the memory file alone. -/
theorem runRounds_requests (baseRequest : ModelTurnRequest)
    (outputContext : Option InteractionContext) (answers : List GatewayAnswer)
    (results : List ToolResultInjection) (fingerprint : String) (repeated : Nat) (s : AppServer) :
    wp (runRounds baseRequest outputContext answers results fingerprint repeated)
      (fun _ t => (modelRequests s).length < (modelRequests t).length ∧
        SameMemory s.runtime.toTurnRuntime t.runtime.toTurnRuntime)
      (fun _ t => (modelRequests s).length < (modelRequests t).length ∧
        SameMemory s.runtime.toTurnRuntime t.runtime.toTurnRuntime) s := by
  induction answers generalizing results fingerprint repeated s with
  | nil =>
      rw [runRounds, wp_bind, wp_observe]
      have hlength := length_modelRequests_called s
        (baseRequest.withToolResultInjections results) outputContext
      refine ⟨?_, rfl⟩
      omega
  | cons answer answers ih =>
      rw [runRounds, wp_bind, wp_observe]
      have hlength := length_modelRequests_called s
        (baseRequest.withToolResultInjections results) outputContext
      have hgrown : ∀ {t : AppServer}, Undisturbed (s.observed (.modelCalled
          (baseRequest.withToolResultInjections results) outputContext)) t →
          (modelRequests s).length < (modelRequests t).length ∧
            SameMemory s.runtime.toTurnRuntime t.runtime.toTurnRuntime := by
        intro t ht
        refine ⟨?_, ht.memory⟩
        rw [ht.requests]
        omega
      rw [wp_bind]
      refine wp_mono (handleModelEvents_undisturbed _ _ _ _ _) (fun _ t ht => ?_)
        (fun _ _ h => h.elim)
      cases answer.outcome with
      | error error => exact hgrown ht
      | ok summary =>
          dsimp only
          split
          · exact hgrown ht
          · rw [wp_bind]
            refine wp_mono (executeModelToolCalls_undisturbed _ _ _ t) (fun _ u hu => ?_)
              (fun _ _ h => h.elim)
            rw [wp_bind]
            refine wp_mono (loopDiagnostics_undisturbed _ u) (fun _ v hv => ?_)
              (fun _ _ h => h.elim)
            have hround := hgrown (ht.trans (hu.trans hv))
            refine wp_mono (ih _ _ _ v) (fun _ w hw => ?_) (fun _ w hw => ?_)
            · exact ⟨hround.1.trans hw.1, hround.2.trans hw.2⟩
            · exact ⟨hround.1.trans hw.1, hround.2.trans hw.2⟩

end Programs

section Work

variable [World]

/-! ### The work of a request -/

/-- The server after the pass of memory compilation. -/
def Boundary.finish (boundary : Boundary) : AppServer :=
  after (compileMemoryForThread boundary.threadId boundary.turnId) boundary.server

/-- The server after the turn has been run with these answers. -/
def ModelTurn.finish (answers : List GatewayAnswer) (started : ModelTurn) : AppServer :=
  after (streamModelTurn started.thread started.turn started.context.systemPrompt
    started.context.developerPrompt started.context.userPrompt started.outputContext answers)
    started.server

def Work.finish (answers : List GatewayAnswer) : Work → AppServer
  | turn started => started.finish answers
  | compilation boundary => boundary.finish

def decisionWork (request : TurnStartRequest) (turn : Turn) (thread : Thread)
    (context : AssembledContext) (s : AppServer) : Option Work :=
  if s.approvalPolicy = .onRequest ∧ (evaluatePolicy request.input context).requiresApproval
  then none
  else some (.turn ⟨s, thread, turn, context, request.interactionContext⟩)

def startWork (request : TurnStartRequest) (turn : Turn) : AppServer → Option Work :=
  leading (onRuntime (onTurns (readThread turn.threadId))) fun
    | .ok (some thread) =>
        leading (onRuntime (onTurns (assembleContextForInteraction thread.id request.input
          request.participant request.interactionContext))) fun
          | .ok context => decisionWork request turn thread context
          | .error _ => fun _ => none
    | _ => fun _ => none

def resumptionWork (approval : ApprovalRequest) : AppServer → Option Work :=
  leading (onRuntime (RuntimeCoordinator.resumeApprovedTurn approval.threadId approval.turnId)) fun
    | .ok turn =>
        leading (onRuntime (onTurns (readThread approval.threadId))) fun
          | .ok (some thread) =>
              leading (onRuntime (onTurns (assembleContext thread.id (turn.goal.getD "")))) fun
                | .ok context => fun s => some (.turn ⟨s, thread, turn, context, none⟩)
                | .error _ => fun _ => none
          | _ => fun _ => none
    | .error _ => fun _ => none

def denialWork (approval : ApprovalRequest) : AppServer → Option Work :=
  leading (onRuntime (onTurns (cancelTurn
      { threadId := approval.threadId, turnId := approval.turnId }))) fun
    | .ok turn =>
        leading (publish approval.threadId (some turn.id) (.turnCancelled turn)) fun _ =>
        leading (threadEvent approval.threadId turn.id .threadInterrupted) fun events =>
        leading (publishAll events) fun _ s =>
          some (.compilation ⟨s, approval.threadId, some turn.id⟩)
    | .error _ => fun _ => none

def answerWork (decision : ApprovalDecision) (approval : ApprovalRequest) :
    AppServer → Option Work :=
  match decision with
  | .deny => denialWork approval
  | _ => resumptionWork approval

def followUpWork : ClientRequest → ServerResponse → AppServer → Option Work
  | .turnStart request, .success (.turnStart turn) => startWork request turn
  | .turnCancel request, .success _ => fun s => some (.compilation ⟨s, request.threadId, none⟩)
  | .approvalRespond request, .success (.approvalRespond approval) =>
      answerWork request.decision approval
  | _, _ => fun _ => none

/-- The work that the request comes to once it has been dispatched. -/
def AppServer.work (s : AppServer) (request : ClientRequest) : Option Work :=
  leading (dispatched request) (followUpWork request) s

/-- The program leads to the work at the place. -/
abbrev ComesTo {α : Type} (answers : List GatewayAnswer) :
    ServerM α → (AppServer → Option Work) → Prop :=
  LeadsTo Undisturbed Work.server (Work.finish answers)

variable (answers : List GatewayAnswer)

/-- Where the server comes to with the thread it has read and the context assembled for it. -/
theorem comesTo_read {threadId : ThreadId} {assembled : Thread → TurnM AssembledContext}
    {go : Thread → AssembledContext → ServerM Unit}
    {place : Thread → AssembledContext → AppServer → Option Work}
    (hassembled : ∀ thread, Guarantees SameMemory (assembled thread))
    (hgo : ∀ thread context, ComesTo answers (go thread context) (place thread context)) :
    ComesTo answers
      (do
        match ← onRuntime (onTurns (readThread threadId)) with
        | .ok (some thread) => do
            match ← onRuntime (onTurns (assembled thread)) with
            | .ok context => go thread context
            | .error _ => pure ()
        | _ => pure ())
      (leading (onRuntime (onTurns (readThread threadId))) fun
        | .ok (some thread) =>
            leading (onRuntime (onTurns (assembled thread))) fun
              | .ok context => place thread context
              | .error _ => fun _ => none
        | _ => fun _ => none) := by
  have hnothing : ComesTo answers (pure () : ServerM Unit) fun _ => none :=
    LeadsTo.nowhere (Guarantees.pure Undisturbed.refl ())
  apply LeadsTo.bind Undisturbed.trans (onTurns_undisturbed (readThread_sameMemory _)).guarantees
  intro read
  rcases read with _ | _ | thread
  · exact hnothing
  · exact hnothing
  · apply LeadsTo.bind Undisturbed.trans (onTurns_undisturbed (hassembled thread)).guarantees
    intro context
    cases context with
    | error _ => exact hnothing
    | ok context => exact hgo thread context

theorem continueTurnAfterPolicy_comesTo (request : TurnStartRequest) (turn : Turn) :
    ComesTo answers (continueTurnAfterPolicy request answers turn) (startWork request turn) := by
  have hdecided : ∀ thread context, ComesTo answers (decideTurn request answers turn thread context)
      (decisionWork request turn thread context) := by
    intro thread context s
    unfold decideTurn decisionWork
    dsimp only
    rw [after_bind]
    show Arrives _ _ _ s (after (if s.approvalPolicy = .onRequest ∧ _ then _ else _) s) _
    split
    · exact after_requestApproval_undisturbed _ _ _ s
    · exact ⟨.refl s, rfl⟩
  exact comesTo_read answers (fun _ => assembleContextForInteraction_sameMemory _ _ _ _) hdecided

theorem resumeAfterApproval_comesTo (approval : ApprovalRequest) :
    ComesTo answers (resumeAfterApproval approval answers) (resumptionWork approval) := by
  apply LeadsTo.bind Undisturbed.trans
    (onTurns_undisturbed (markTurn_sameMemory _ _ _ _ _ _)).guarantees
  intro resumed
  cases resumed with
  | error _ => exact LeadsTo.nowhere (Guarantees.pure Undisturbed.refl ())
  | ok turn =>
      exact comesTo_read answers (fun _ => assembleContextForInteraction_sameMemory _ _ _ _)
        fun _ _ => LeadsTo.here Undisturbed.refl (fun _ => rfl) fun _ => rfl

theorem cancelAfterDenial_comesTo (approval : ApprovalRequest) :
    ComesTo answers (cancelAfterDenial approval) (denialWork approval) := by
  apply LeadsTo.bind Undisturbed.trans (onTurns_undisturbed (cancelTurn_sameMemory _)).guarantees
  intro cancelled
  cases cancelled with
  | error _ => exact LeadsTo.nowhere (Guarantees.pure Undisturbed.refl ())
  | ok turn =>
      apply LeadsTo.bind Undisturbed.trans (observe_undisturbed rfl).guarantees
      intro _
      apply LeadsTo.bind Undisturbed.trans (threadEvent_undisturbed _ _ _).guarantees
      intro events
      apply LeadsTo.bind Undisturbed.trans (publishAll_undisturbed events).guarantees
      intro _
      exact LeadsTo.here Undisturbed.refl (fun _ => rfl) fun _ => rfl

theorem continueAfter_comesTo (request : ClientRequest) (response : ServerResponse) :
    ComesTo answers (continueAfter answers request response) (followUpWork request response) := by
  have hnothing : ComesTo answers (pure () : ServerM Unit) fun _ => none :=
    LeadsTo.nowhere (Guarantees.pure Undisturbed.refl ())
  cases request with
  | turnStart request =>
      cases response with
      | error _ _ _ => exact hnothing
      | success payload =>
          cases payload with
          | turnStart turn => exact continueTurnAfterPolicy_comesTo answers request turn
          | _ => exact hnothing
  | turnCancel request =>
      cases response with
      | error _ _ _ => exact hnothing
      | success payload => exact LeadsTo.here Undisturbed.refl (fun _ => rfl) fun _ => rfl
  | approvalRespond request =>
      cases response with
      | error _ _ _ => exact hnothing
      | success payload =>
          cases payload with
          | approvalRespond approval =>
              change ComesTo answers (continueAfterApproval request.decision answers approval)
                (answerWork request.decision approval)
              cases request.decision with
              | approveOnce => exact resumeAfterApproval_comesTo answers approval
              | approveAndPersist => exact resumeAfterApproval_comesTo answers approval
              | deny => exact cancelAfterDenial_comesTo answers approval
          | _ => exact hnothing
  | _ => exact hnothing

/-! ### The end of a turn -/

/-- Where the end of a turn has been recorded, it is published and memory is compiled. -/
def closedBoundary (threadId : ThreadId) (turnId : TurnId) (payload : Turn → ServerEventPayload) :
    Except RuntimeError Turn → AppServer → Option Boundary
  | .ok turn => leading (publish threadId (some turn.id) (payload turn)) fun _ s =>
      some ⟨s, threadId, some turnId⟩
  | .error _ => fun _ => none

def endingBoundary (threadId : ThreadId) (turnId : TurnId)
    (outputContext : Option InteractionContext) :
    Except ModelError (Option String) → AppServer → Option Boundary
  | .error error =>
      leading (onRuntime (onTurns (failTurn threadId turnId error.display)))
        (closedBoundary threadId turnId fun turn => .turnFailed turn error.display)
  | .ok assistantMessage =>
      leading (onRuntime (onTurns (completeTurn threadId turnId
        (applyOutputPolicy outputContext (assistantMessage.getD "Completed turn")))))
        (closedBoundary threadId turnId .turnCompleted)

/-- The boundary that the turn comes to with these answers. -/
def ModelTurn.boundary (started : ModelTurn) : Option Boundary :=
  leading (runRounds (baseRequestFor started.thread started.turn started.context.systemPrompt
      started.context.developerPrompt started.context.userPrompt) started.outputContext answers [] ""
      0) (endingBoundary started.thread.id started.turn.id started.outputContext) started.server

def Work.boundary : Work → Option Boundary
  | turn started => started.boundary answers
  | compilation boundary => some boundary

/-- The memory file is as it was, for the server. -/
abbrev KeepsFile (s t : AppServer) : Prop :=
  SameMemory s.runtime.toTurnRuntime t.runtime.toTurnRuntime

omit [World] in
theorem KeepsFile.refl (s : AppServer) : KeepsFile s s := SameMemory.refl _

omit [World] in
theorem KeepsFile.trans ⦃s t u : AppServer⦄ (h : KeepsFile s t) (h' : KeepsFile t u) :
    KeepsFile s u := SameMemory.trans h h'

theorem finishModelTurn_leadsTo (threadId : ThreadId) (turnId : TurnId)
    (outputContext : Option InteractionContext) (ending : Except ModelError (Option String)) :
    LeadsTo KeepsFile Boundary.server Boundary.finish
      (finishModelTurn threadId turnId outputContext ending)
      (endingBoundary threadId turnId outputContext ending) := by
  have hkept : ∀ {α : Type} {p : ServerM α}, Always Undisturbed p → Guarantees KeepsFile p :=
    fun h => h.guarantees.mono fun _ _ hundisturbed => hundisturbed.memory
  have hclosed : ∀ (result : Except RuntimeError Turn) (payload : Turn → ServerEventPayload),
      LeadsTo KeepsFile Boundary.server Boundary.finish (match result with
        | .ok turn => do
            publish threadId (some turn.id) (payload turn)
            compileMemoryForThread threadId (some turnId)
        | .error _ => pure ()) (closedBoundary threadId turnId payload result) := by
    intro result payload
    cases result with
    | error _ => exact LeadsTo.nowhere (Guarantees.pure KeepsFile.refl ())
    | ok turn =>
        have hpublished : Always Undisturbed (publish threadId (some turn.id) (payload turn)) :=
          observe_undisturbed rfl
        exact LeadsTo.bind KeepsFile.trans (hkept hpublished) fun _ =>
          LeadsTo.here KeepsFile.refl (fun _ => rfl) fun _ => rfl
  cases ending with
  | error error =>
      exact LeadsTo.bind KeepsFile.trans (hkept (onTurns_undisturbed (failTurn_sameMemory _ _ _)))
        fun result => hclosed result _
  | ok assistantMessage =>
      exact LeadsTo.bind KeepsFile.trans
        (hkept (onTurns_undisturbed (completeTurn_sameMemory _ _ _))) fun result =>
          hclosed result _

/-- A turn leaves the memory file alone up to its boundary. -/
theorem ModelTurn.arrives (started : ModelTurn) :
    Arrives KeepsFile Boundary.server Boundary.finish started.server (started.finish answers)
      (started.boundary answers) := by
  have hrounds : Guarantees KeepsFile (runRounds (baseRequestFor started.thread started.turn
      started.context.systemPrompt started.context.developerPrompt started.context.userPrompt)
      started.outputContext answers [] "" 0) := fun s =>
    wp_mono (runRounds_requests _ _ _ _ _ _ s) (fun _ _ h => h.2) (fun _ _ h => h.2)
  have hturn := LeadsTo.bind KeepsFile.trans hrounds
    (finishModelTurn_leadsTo started.thread.id started.turn.id started.outputContext)
  exact hturn started.server

theorem Work.arrives (work : Work) :
    Arrives KeepsFile Boundary.server Boundary.finish work.server (work.finish answers)
      (work.boundary answers) := by
  cases work with
  | turn started => exact started.arrives answers
  | compilation boundary => exact ⟨KeepsFile.refl _, rfl⟩

/-- A turn calls the model. -/
theorem ModelTurn.requests_ne (started : ModelTurn) :
    modelRequests (started.finish answers) ≠ modelRequests started.server := by
  have hfinished : ∀ ending, Always (Leaves modelRequests)
      (finishModelTurn started.thread.id started.turn.id started.outputContext ending) := by
    intro ending
    cases ending with
    | error error =>
        intro s
        exact wp_mono (failModelTurn_waits _ _ _ s) (fun _ _ h => h.1) (fun _ _ hno => hno)
    | ok message => exact completeModelTurn_requests _ _ _ message
  have hgrown : wp (streamModelTurn started.thread started.turn started.context.systemPrompt
      started.context.developerPrompt started.context.userPrompt started.outputContext answers)
      (fun _ t => (modelRequests started.server).length < (modelRequests t).length)
      (fun _ t => (modelRequests started.server).length < (modelRequests t).length)
      started.server := by
    unfold streamModelTurn
    rw [wp_bind]
    refine wp_mono (runRounds_requests _ _ _ _ _ _ _) (fun ending t ht => ?_) (fun _ _ ht => ht.1)
    refine wp_mono (hfinished ending t) (fun _ u hu => ?_) (fun _ _ hno => hno.elim)
    rw [show modelRequests u = modelRequests t from hu]
    exact ht.1
  intro hsame
  have hlength := wp_after.mp hgrown
  rw [show after _ started.server = started.finish answers from rfl, hsame] at hlength
  exact absurd hlength (Nat.lt_irrefl _)

theorem Boundary.requests_eq (boundary : Boundary) :
    modelRequests boundary.finish = modelRequests boundary.server := by
  have hcompiled := Does.always_waits (compileMemoryForThread_does (P := fun _ => True)
    between_of_silent boundary.threadId boundary.turnId)
  have hafter := after_of_always (hcompiled boundary.server)
  exact hafter.1

/-- What the memory file remembers after the pass. -/
theorem Boundary.knowledge_finish (boundary : Boundary) :
    knowledge boundary.finish.runtime.stores = knowledge (boundary.server.afterMemoryPass
      (World.compileMemory boundary.server.runtime.stores boundary.server.runtime.ids
        boundary.threadId)).runtime.stores := by
  have hcompiled : wp (compileMemoryForThread boundary.threadId boundary.turnId)
      (fun _ t => KeepsFile (boundary.server.afterMemoryPass (World.compileMemory
        boundary.server.runtime.stores boundary.server.runtime.ids boundary.threadId)) t)
      (fun _ _ => False) boundary.server := by
    unfold compileMemoryForThread
    rw [wp_bind, wp_get]
    dsimp only
    generalize World.compileMemory boundary.server.runtime.stores boundary.server.runtime.ids
      boundary.threadId = pass
    rw [wp_bind, wp_modify]
    cases pass.compilation with
    | none => exact SameMemory.refl _
    | some compilation =>
        exact wp_mono (publishAll_undisturbed _ _) (fun _ _ h => h.memory) (fun _ _ hno => hno)
  have hafter := after_of_always hcompiled
  exact SameMemory.knowledge_eq hafter

/-! ### Dispatching -/

/-- The model has not been called, and the memory file remembers the same. -/
structure Unmoved (s t : AppServer) : Prop where
  requests : modelRequests t = modelRequests s
  knowledge : knowledge t.runtime.stores = knowledge s.runtime.stores

omit [World] in
theorem Undisturbed.unmoved {s t : AppServer} (h : Undisturbed s t) : Unmoved s t :=
  ⟨h.requests, h.memory.knowledge_eq⟩

omit [World] in
theorem Unmoved.trans ⦃s t u : AppServer⦄ (h : Unmoved s t) (h' : Unmoved t u) : Unmoved s u :=
  ⟨h'.requests.trans h.requests, h'.knowledge.trans h.knowledge⟩

/-- A turn that has been started has added its thread to the active ones and nothing else. -/
theorem startTurn_knowledge (thread : Thread) (request : TurnStartRequest) (s : TurnRuntime) :
    wp (startTurn thread request) (fun _ t => knowledge t.stores = knowledge s.stores)
      (fun _ _ => True) s := by
  have hsynced : ∀ (threadId : ThreadId) (present : Bool) (u : TurnRuntime),
      wp (syncActiveThreadIds threadId present) (fun _ t => knowledge t.stores = knowledge u.stores)
        (fun _ _ => True) u := by
    intro threadId present u
    unfold syncActiveThreadIds
    rw [wp_bind]
    refine wp_mono (readGlobalMemory_reads u) (fun memory v hv => ?_) (fun _ _ _ => trivial)
    rw [wp_stored, RuntimeStores.writeGlobalMemory, writeJson, wp_effect]
    refine ⟨fun _ => ?_, fun _ _ => trivial⟩
    show some _ = knowledge u.stores
    rw [knowledge, hv.1]
    rfl
  rw [wp_startTurn]
  refine ⟨fun _ => trivial, fun _ turn _ => ?_⟩
  rw [wp_bind]
  refine wp_mono (appendTransition_sameMemory _ _ _ _ _ _) (fun _ u hu => ?_) (fun _ _ _ => trivial)
  unfold updateThreadAfterTurn
  rw [wp_bind, wp_bind]
  refine wp_mono (putThread_sameMemory _ u) (fun _ v hv => ?_) (fun _ _ _ => trivial)
  refine wp_mono (hsynced _ _ v) (fun _ w hw => ?_) (fun _ _ _ => trivial)
  have hsame : SameMemory s v := hu.trans hv
  exact Eq.trans hw hsame.knowledge_eq

omit [World] in
/-- A request that succeeds leaves what its operation leaves. -/
theorem respond_unmoved {α : Type} {p : RuntimeM α}
    {success : α → ServerM (ResponsePayload × List PendingEvent)} {s : AppServer}
    (hp : wp p (fun _ t => knowledge t.stores = knowledge s.runtime.stores) (fun _ _ => True)
      s.runtime) (hsuccess : ∀ value, Always Undisturbed (success value)) :
    wp (respond p success)
      (fun handled t => ∀ payload, handled.1 = .success payload → Unmoved s t)
      (fun _ _ => True) s := by
  unfold respond
  rw [wp_bind, wp_onRuntime]
  refine wp_mono hp (fun value runtime hsame => ?_) (fun error runtime _ => ?_)
  · dsimp only
    rw [wp_bind]
    refine wp_mono (hsuccess value _) (fun handled t ht => ?_) (fun _ _ hno => hno.elim)
    have hrun : Unmoved s { s with runtime := runtime } := ⟨rfl, hsame⟩
    exact fun _ _ => hrun.trans ht.unmoved
  · exact fun _ hno => nomatch hno

/-- Where a request about a turn has succeeded, neither the model nor memory has been moved yet. -/
theorem dispatched_unmoved {request : ClientRequest} (hrequest : request.ordinary = false)
    (s : AppServer) :
    wp (dispatched request) (fun response t => ∀ payload, response = .success payload → Unmoved s t)
      (fun _ _ => True) s := by
  have hevent : ∀ (threadId : ThreadId) (turnId : TurnId) (shown : Thread → ServerEventPayload)
      (finish : List PendingEvent → ResponsePayload × List PendingEvent), Always Undisturbed (do
        let events ← threadEvent threadId turnId shown
        pure (finish events)) := fun threadId turnId shown _ =>
    Always.bind Undisturbed.trans (threadEvent_undisturbed threadId turnId shown) fun _ =>
      Always.pure Undisturbed.refl _
  have hdispatch : wp (dispatch request)
      (fun handled t => ∀ payload, handled.1 = .success payload → Unmoved s t)
      (fun _ _ => True) s := by
    cases request with
    | turnStart request =>
        apply respond_unmoved ?_ fun turn => hevent _ _ _ _
        unfold RuntimeCoordinator.startTurn
        rw [wp_onTurns, wp_bind]
        refine wp_mono (requireThread_sameMemory _ _) (fun thread t ht => ?_) (fun _ _ _ => trivial)
        refine wp_mono (startTurn_knowledge thread request t) (fun _ u hu => ?_)
          (fun _ _ _ => trivial)
        exact Eq.trans hu ht.knowledge_eq
    | turnCancel request =>
        apply respond_unmoved ?_ fun turn => hevent _ _ _ _
        rw [wp_onTurns]
        exact wp_mono (cancelTurn_sameMemory request _) (fun _ _ h => h.knowledge_eq)
          (fun _ _ _ => trivial)
    | approvalRespond request =>
        apply respond_unmoved ?_ fun _ => Always.pure Undisturbed.refl _
        unfold RuntimeCoordinator.respondApproval
        rw [wp_bind, wp_get]
        cases s.runtime.approvals.lookup request.approvalId with
        | none => trivial
        | some approval => rfl
    | _ => exact absurd hrequest (by simp [ClientRequest.ordinary])
  unfold dispatched
  rw [wp_bind]
  refine wp_mono hdispatch (fun handled t ht => ?_) (fun _ _ _ => trivial)
  obtain ⟨response, events⟩ := handled
  dsimp only
  rw [wp_bind]
  refine wp_mono (publishAll_undisturbed events t) (fun _ u hu => ?_) (fun _ _ hno => hno.elim)
  exact fun payload hpayload => (ht payload hpayload).trans hu.unmoved

end Work

end Liz
