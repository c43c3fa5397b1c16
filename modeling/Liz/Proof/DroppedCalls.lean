import Liz.Base.Moments
import Liz.Model.MarkedCalls
import Liz.Proof.GatewayTurns

/-!
# Tool calls that are not read

An adapter leaves out what it cannot read and says nothing about it, so the server takes a response
without a readable call for the end of the turn. Every marked item becomes a call exactly when all of
them are well formed and stand in one list that the adapter looks at; in a turn whose responses are
all of this kind every item has been answered when the turn completes.
-/

namespace Liz

open Program

/-! ### AllAnswered to marked items -/

/-- The item is answered under the identifier that the provider gave it, and under its name. -/
structure MarkedCall.AnsweredUnder (marked : MarkedCall) (key : String × String) : Prop where
  issued : ∀ id ∈ marked.issuedId, key.1 = id
  named : marked.providerToolName = some key.2

/-- Each of the items has an answer of its own among the keys, in their order. -/
def AllAnswered (keys : List (String × String)) (marked : List MarkedCall) : Prop :=
  ∃ kept, kept.Sublist keys ∧ List.Forall₂ MarkedCall.AnsweredUnder marked kept

theorem AllAnswered.nil (keys : List (String × String)) : AllAnswered keys [] :=
  ⟨[], List.nil_sublist keys, .nil⟩

theorem AllAnswered.append {keys keys' : List (String × String)} {marked marked' : List MarkedCall}
    (h : AllAnswered keys marked) (h' : AllAnswered keys' marked') :
    AllAnswered (keys ++ keys') (marked ++ marked') := by
  obtain ⟨kept, hkept, hall⟩ := h
  obtain ⟨kept', hkept', hall'⟩ := h'
  exact ⟨kept ++ kept', hkept.append hkept', List.rel_append hall hall'⟩

theorem AllAnswered.length_le {keys : List (String × String)} {marked : List MarkedCall}
    (h : AllAnswered keys marked) : marked.length ≤ keys.length := by
  obtain ⟨kept, hkept, hall⟩ := h
  rw [hall.length_eq]
  exact hkept.length_le

/-- Well-formed items are answered by their calls. -/
theorem allAnswered_calls {surface : ToolSurfaceSpec} {marked : List MarkedCall}
    (h : ∀ item ∈ marked, item.WellFormed surface) :
    AllAnswered ((marked.filterMap (MarkedCall.call surface)).map ProviderToolCall.key) marked := by
  refine ⟨_, List.Sublist.refl _, ?_⟩
  induction marked with
  | nil => exact .nil
  | cons item rest ih =>
      obtain ⟨hitem, hrest⟩ := List.forall_mem_cons.mp h
      obtain ⟨call, hcall⟩ := Option.isSome_iff_exists.mp (MarkedCall.isSome_call.mpr hitem)
      obtain ⟨hid, hname⟩ := MarkedCall.of_call hcall
      rw [List.filterMap_cons_some hcall, List.map_cons]
      refine .cons ⟨?_, hname⟩ (ih hrest)
      intro id hissued
      show call.callId = id
      rw [hid, MarkedCall.callId, Option.mem_def.mp hissued]
      rfl

/-! ### One response -/

/-- All items stand in one list that the adapter looks at, and all of them are well formed. -/
structure MarkedCalls.InReach (surface : ToolSurfaceSpec) (marked : MarkedCalls) : Prop where
  looked : marked.unread = []
  together : (marked.read.filter (!·.isEmpty)).length ≤ 1
  wellFormed : ∀ list ∈ marked.read, ∀ item ∈ list, item.WellFormed surface

namespace MarkedCalls

variable {surface : ToolSurfaceSpec} {marked : MarkedCalls}

/-- The calls are those of one list. -/
theorem calls_eq_of_list (surface : ToolSurfaceSpec) (marked : MarkedCalls) :
    marked.calls surface = [] ∨
      ∃ list ∈ marked.read, marked.calls surface = list.filterMap (MarkedCall.call surface) := by
  obtain ⟨read, unread⟩ := marked
  induction read with
  | nil => exact .inl rfl
  | cons list rest ih =>
      rw [calls_cons]
      split
      · rcases ih with hnil | ⟨found, hfound, hcalls⟩
        · exact .inl hnil
        · exact .inr ⟨found, List.mem_cons_of_mem _ hfound, hcalls⟩
      · exact .inr ⟨list, List.mem_cons_self, rfl⟩

/-- Where the lists have no more items than one of them, the others are empty. -/
theorem alone_of_length {lists : List (List MarkedCall)} {list : List MarkedCall}
    (hmem : list ∈ lists) (hlength : lists.flatten.length ≤ list.length) :
    (lists.filter (!·.isEmpty)).length ≤ 1 ∧ lists.flatten = list := by
  obtain ⟨before, later, rfl⟩ := List.append_of_mem hmem
  simp only [List.flatten_append, List.flatten_cons, List.length_append] at hlength
  have hbefore : before.flatten = [] := List.eq_nil_of_length_eq_zero (by omega)
  have hlater : later.flatten = [] := List.eq_nil_of_length_eq_zero (by omega)
  have hempty : ∀ others : List (List MarkedCall), others.flatten = [] →
      others.filter (!·.isEmpty) = [] := by
    intro others hothers
    apply List.filter_eq_nil_iff.mpr
    intro other hother
    simp [List.flatten_eq_nil_iff.mp hothers other hother]
  constructor
  · rw [List.filter_append, List.filter_cons, hempty before hbefore, hempty later hlater]
    split <;> simp
  · rw [List.flatten_append, List.flatten_cons, hbefore, hlater, List.nil_append, List.append_nil]

/-- Where all lists but one are empty and that one is well formed, its items are answered. -/
theorem allAnswered_of_inReach (h : marked.InReach surface) :
    AllAnswered ((marked.calls surface).map ProviderToolCall.key) marked.all := by
  obtain ⟨hlooked, htogether, hwellFormed⟩ := h
  obtain ⟨read, unread⟩ := marked
  obtain rfl : unread = [] := hlooked
  show AllAnswered _ (read.flatten ++ [])
  rw [List.append_nil]
  induction read with
  | nil => exact AllAnswered.nil _
  | cons list rest ih =>
      obtain ⟨hlist, hrest⟩ := List.forall_mem_cons.mp hwellFormed
      rw [calls_cons]
      cases list with
      | nil => exact ih htogether hrest
      | cons item items =>
          have hitem := List.forall_mem_cons.mp hlist
          have hrestEmpty : rest.flatten = [] := by
            have hnone : (rest.filter (!·.isEmpty)).length = 0 := by
              simp only [List.filter_cons, List.isEmpty_cons, Bool.not_false, if_true,
                List.length_cons] at htogether
              omega
            apply List.flatten_eq_nil_iff.mpr
            intro other hother
            have hno := List.filter_eq_nil_iff.mp (List.eq_nil_of_length_eq_zero hnone) other hother
            simpa using hno
          have hanswers := allAnswered_calls hlist
          have hne : ((item :: items).filterMap (MarkedCall.call surface)).isEmpty = false := by
            obtain ⟨call, hcall⟩ := Option.isSome_iff_exists.mp (MarkedCall.isSome_call.mpr hitem.1)
            rw [List.filterMap_cons_some hcall]
            rfl
          rw [hne, List.flatten_cons, hrestEmpty, List.append_nil]
          exact hanswers

/-- Only then are there enough calls. -/
theorem inReach_of_allAnswered
    (h : AllAnswered ((marked.calls surface).map ProviderToolCall.key) marked.all) :
    marked.InReach surface := by
  have hlength := h.length_le
  rw [List.length_map, all, List.length_append] at hlength
  rcases calls_eq_of_list surface marked with hnil | ⟨list, hlist, hcalls⟩
  · rw [hnil, List.length_nil] at hlength
    have hempty := List.flatten_eq_nil_iff.mp
      (List.eq_nil_of_length_eq_zero (by omega) : marked.read.flatten = [])
    refine ⟨List.eq_nil_of_length_eq_zero (by omega), ?_, ?_⟩
    · have hnone : marked.read.filter (!·.isEmpty) = [] := by
        apply List.filter_eq_nil_iff.mpr
        intro other hother
        simp [hempty other hother]
      rw [hnone]
      exact Nat.zero_le 1
    · intro other hother item hitem
      rw [hempty other hother] at hitem
      exact absurd hitem List.not_mem_nil
  · -- the calls are no more than the items of one list, and no fewer than all the items
    have hle := List.length_filterMap_le (MarkedCall.call surface) list
    have hflat := (List.sublist_flatten_of_mem hlist).length_le
    rw [hcalls] at hlength
    obtain ⟨htogether, halone⟩ := alone_of_length hlist (by omega)
    refine ⟨List.eq_nil_of_length_eq_zero (by omega), htogether, ?_⟩
    intro other hother item hitem
    have hmem : item ∈ list := by
      rw [← halone]
      exact List.mem_flatten.mpr ⟨other, hother, hitem⟩
    have hall := List.filterMap_length_eq_length.mp
      (by omega : (list.filterMap (MarkedCall.call surface)).length = list.length)
    exact MarkedCall.isSome_call.mp (hall item hmem)

end MarkedCalls

/-! ### What a turn lets be seen -/

def Observation.modelRequest : Observation → Option ModelTurnRequest
  | .modelCalled request _ => some request
  | _ => none

def Observation.completedTurn : Observation → Option Turn
  | .published ⟨_, _, .turnCompleted turn⟩ => some turn
  | _ => none

/-- The requests that the gateway has been called with. -/
def modelRequests (s : AppServer) : List ModelTurnRequest :=
  s.trace.filterMap Observation.modelRequest

/-- The turns that have ended as completed. -/
def completedTurns (s : AppServer) : List Turn := s.trace.filterMap Observation.completedTurn

/-- Neither a call of the gateway nor the end of a turn. -/
def Between (observation : Observation) : Prop :=
  observation.modelRequest = none ∧ observation.completedTurn = none

/-- The gateway has not been called and no turn has completed. -/
def Waits (s t : AppServer) : Prop :=
  modelRequests t = modelRequests s ∧ completedTurns t = completedTurns s

theorem Waits.trans ⦃s t u : AppServer⦄ (h : Waits s t) (h' : Waits t u) : Waits s u :=
  ⟨h'.1.trans h.1, h'.2.trans h.2⟩

theorem Adds.waits {s t : AppServer} (h : Adds Between s t) : Waits s t := by
  obtain ⟨more, hmore, hbetween⟩ := h
  have hrequests : more.filterMap Observation.modelRequest = [] :=
    List.filterMap_eq_nil_iff.mpr fun o ho => (hbetween o ho).1
  have hcompleted : more.filterMap Observation.completedTurn = [] :=
    List.filterMap_eq_nil_iff.mpr fun o ho => (hbetween o ho).2
  constructor
  · rw [modelRequests, modelRequests, hmore, List.filterMap_append, hrequests, List.append_nil]
  · rw [completedTurns, completedTurns, hmore, List.filterMap_append, hcompleted, List.append_nil]

theorem between_of_silent (event : PendingEvent) (h : event.payload.delivery = none) :
    Between (.published event) := by
  obtain ⟨threadId, turnId, payload⟩ := event
  refine ⟨rfl, ?_⟩
  cases payload with
  | turnCompleted turn => exact absurd h (Option.some_ne_none _)
  | _ => rfl

/-- A program that only adds such observations. -/
theorem Does.always_waits {α : Type} {p : ServerM α}
    (h : Always (Does (fun _ => True) Between) p) : Always Waits p := fun s =>
  wp_mono (h s) (fun _ _ hdoes => hdoes.trace.waits) fun _ _ hno => hno

section Turns

variable [World]

theorem handleModelEvents_waits (threadId : ThreadId) (turnId : TurnId)
    (outputContext : Option InteractionContext) (events : List NormalizedTurnEvent) :
    Always Waits (handleModelEvents threadId turnId outputContext events) := by
  apply Does.always_waits
  apply handleModelEvents_always Does.refl Does.trans (localThreadExecutionScope_does _)
  intro payload hpayload
  refine observe_does ⟨rfl, ?_⟩
  cases payload with
  | turnCompleted turn => cases hpayload
  | _ => rfl

theorem executeModelToolCalls_waits (threadId : ThreadId) (turnId : TurnId)
    (toolCalls : List ProviderToolCall) :
    Always Waits (executeModelToolCalls threadId turnId toolCalls) :=
  Does.always_waits (executeModelToolCalls_does between_of_silent threadId
    (fun _ _ => ⟨rfl, rfl⟩) toolCalls)

theorem loopDiagnostics_waits (repeatedToolRounds : Nat) :
    Always Waits (loopDiagnostics repeatedToolRounds) :=
  Does.always_waits (loopDiagnostics_does repeatedToolRounds)

/-- An error does not complete a turn. -/
theorem failModelTurn_waits (threadId : ThreadId) (turnId : TurnId) (error : ModelError) :
    Always Waits (failModelTurn threadId turnId error) := by
  apply Does.always_waits
  apply Always.bind Does.trans
    (onRuntime_changes_does (failTurn_changesOnly threadId trivial error.display))
  intro result
  cases result with
  | error _ => exact Always.pure Does.refl _
  | ok turn =>
      exact Always.bind Does.trans (observe_does ⟨rfl, rfl⟩) fun _ =>
        compileMemoryForThread_does between_of_silent _ _

/-- The end of a turn does not call the gateway. -/
theorem completeModelTurn_requests (threadId : ThreadId) (turnId : TurnId)
    (outputContext : Option InteractionContext) (message : Option String) :
    Always (Leaves modelRequests) (completeModelTurn threadId turnId outputContext message) := by
  have hpublish : ∀ payload turn, Always (Leaves modelRequests)
      (publish threadId (some turn) payload) := by
    intro payload turn s
    show List.filterMap _ (s.trace ++ [_]) = _
    rw [List.filterMap_append]
    exact List.append_nil _
  have hcompleted : Always (Does (fun _ => True) Between) (onRuntime (onTurns
      (completeTurn threadId turnId (applyOutputPolicy outputContext
        (message.getD "Completed turn"))))) :=
    onRuntime_changes_does (completeTurn_changesOnly threadId trivial _)
  have hcompiled := Does.always_waits
    (compileMemoryForThread_does (P := fun _ => True) between_of_silent threadId (some turnId))
  have hwaits : ∀ {α : Type} {p : ServerM α}, Always Waits p → Always (Leaves modelRequests) p :=
    fun h s => wp_mono (h s) (fun _ _ hwaits => hwaits.1) fun _ _ hno => hno
  apply Always.bind Leaves.trans (hwaits (Does.always_waits hcompleted))
  intro result
  cases result with
  | error _ => exact Always.pure Leaves.refl _
  | ok turn => exact Always.bind Leaves.trans (hpublish _ _) fun _ => hwaits hcompiled

theorem finishModelTurn_requests (threadId : ThreadId) (turnId : TurnId)
    (outputContext : Option InteractionContext) (ending : Except ModelError (Option String)) :
    Always (Leaves modelRequests) (finishModelTurn threadId turnId outputContext ending) := by
  cases ending with
  | error error =>
      exact fun s => wp_mono (failModelTurn_waits threadId turnId error s)
        (fun _ _ hwaits => hwaits.1) fun _ _ hno => hno
  | ok message => exact completeModelTurn_requests threadId turnId outputContext message

/-- One call of the gateway: the turn ends with an answer without calls or an error, and otherwise the
calls are executed and answered before it goes on. -/
theorem wp_round {request : ModelTurnRequest} {outputContext : Option InteractionContext}
    {answer : GatewayAnswer} {threadId : ThreadId} {turnId : TurnId}
    {next : ModelRunSummary → List ToolResultInjection →
      ServerM (Except ModelError (Option String))}
    {Q : Except ModelError (Option String) → AppServer → Prop}
    {E : Unanswered → AppServer → Prop} {s : AppServer}
    (hfails : ∀ error t, answer.outcome = .error error →
      Waits (s.observed (.modelCalled request outputContext)) t → Q (.error error) t)
    (hends : ∀ summary t, answer.outcome = .ok summary → summary.toolCalls = [] →
      Waits (s.observed (.modelCalled request outputContext)) t → Q (.ok summary.assistantMessage) t)
    (hnext : ∀ summary results t, answer.outcome = .ok summary → summary.toolCalls ≠ [] →
      Waits (s.observed (.modelCalled request outputContext)) t →
      List.Forall₂ (fun toolCall result => result.AnswersTo toolCall) summary.toolCalls results →
      wp (next summary results) Q E t) :
    wp (do
        observe (.modelCalled request outputContext)
        handleModelEvents threadId turnId outputContext answer.events
        match answer.outcome with
        | .error error => pure (.error error)
        | .ok summary =>
            if summary.toolCalls.isEmpty then pure (.ok summary.assistantMessage)
            else do
              let roundResults ← executeModelToolCalls threadId turnId summary.toolCalls
              next summary roundResults) Q E s := by
  rw [wp_bind, wp_observe, wp_bind]
  refine wp_mono (handleModelEvents_waits _ _ _ _ _) (fun _ t ht => ?_) (fun _ _ h => h.elim)
  cases houtcome : answer.outcome with
  | error error => exact hfails error t houtcome ht
  | ok summary =>
      dsimp only
      by_cases hempty : summary.toolCalls.isEmpty = true
      · rw [if_pos hempty]
        exact hends summary t houtcome (List.isEmpty_iff.mp hempty) ht
      · rw [if_neg hempty, wp_bind]
        refine wp_mono (wp_and (executeModelToolCalls_answer _ _ _ t)
          (executeModelToolCalls_waits _ _ _ t)) (fun results u hu => ?_) (fun _ _ h => h.1.elim)
        have hcalls : summary.toolCalls ≠ [] := fun hnone => hempty (List.isEmpty_iff.mpr hnone)
        exact hnext summary results u houtcome hcalls (ht.trans hu.2) hu.1

variable [JsonText]

/-- The responses that a turn hears: the last of them has no call that can be read. -/
def heardResponses (provider : ResolvedProvider) (surface : ToolSurfaceSpec) :
    List (Except ModelError Json) → List Json
  | [] => []
  | .error _ :: _ => []
  | .ok response :: rest =>
      response :: if (liveTurn provider surface response).toolCalls.isEmpty then []
        else heardResponses provider surface rest

/-- What the responses mark. -/
def markedIn (provider : ResolvedProvider) (surface : ToolSurfaceSpec) (responses : List Json) :
    List MarkedCall :=
  responses.flatMap fun response => (markedCalls provider surface response).all

omit [World] in
theorem allAnswered_liveTurn {provider : ResolvedProvider} {surface : ToolSurfaceSpec}
    {response : Json} (h : (markedCalls provider surface response).InReach surface) :
    AllAnswered ((liveTurn provider surface response).toolCalls.map ProviderToolCall.key)
      (markedCalls provider surface response).all := by
  rw [liveTurn_toolCalls]
  exact MarkedCalls.allAnswered_of_inReach h

/-- The last request of rounds that end without an error carries an answer to each marked item. -/
def LastRequestAnswers (marked : List MarkedCall) (s : AppServer) : Prop :=
  ∃ request, (modelRequests s).getLast? = some request ∧
    AllAnswered (request.toolResultInjections.map ToolResultInjection.key) marked

omit [World] [JsonText] in
/-- Calling the gateway is no end of a turn. -/
theorem completedTurns_called (s : AppServer) (request : ModelTurnRequest)
    (outputContext : Option InteractionContext) :
    completedTurns (s.observed (.modelCalled request outputContext)) = completedTurns s := by
  show List.filterMap _ (s.trace ++ [_]) = _
  rw [List.filterMap_append]
  exact List.append_nil _

omit [World] [JsonText] in
theorem lastRequestAnswers_of_waits {s t : AppServer} {request : ModelTurnRequest}
    {outputContext : Option InteractionContext} {marked : List MarkedCall}
    (h : Waits (s.observed (.modelCalled request outputContext)) t)
    (hanswered : AllAnswered (request.toolResultInjections.map ToolResultInjection.key) marked) :
    LastRequestAnswers marked t := by
  refine ⟨request, ?_, hanswered⟩
  rw [h.1]
  show (List.filterMap _ (s.trace ++ [_])).getLast? = _
  rw [List.filterMap_append]
  exact List.getLast?_concat

omit [World] in
theorem markedIn_cons (provider : ResolvedProvider) (surface : ToolSurfaceSpec) (response : Json)
    (rest : List Json) :
    markedIn provider surface (response :: rest) =
      (markedCalls provider surface response).all ++ markedIn provider surface rest := rfl

theorem gatewayRounds_answers {provider : ResolvedProvider} {baseRequest : ModelTurnRequest}
    {surface : ToolSurfaceSpec} (hsurface : surface =
      .forMode (providerToolProtocol provider) baseRequest.toolSurfaceMode)
    (outputContext : Option InteractionContext) {replies : List (Except ModelError Json)}
    (hreach : ∀ response ∈ heardResponses provider surface replies,
      (markedCalls provider surface response).InReach surface)
    {results : List ToolResultInjection} {asked : List MarkedCall}
    (hasked : AllAnswered (results.map ToolResultInjection.key) asked) (fingerprint : String)
    (repeated : Nat) (s : AppServer) :
    wp (gatewayRounds { simulate := false, provider := .ok provider } baseRequest outputContext
        replies results fingerprint repeated)
      (fun ending t => completedTurns t = completedTurns s ∧ ∀ message, ending = .ok message →
        LastRequestAnswers (asked ++ markedIn provider surface
          (heardResponses provider surface replies)) t)
      (fun _ t => completedTurns t = completedTurns s) s := by
  induction replies generalizing results asked fingerprint repeated s with
  | nil =>
      rw [gatewayRounds, wp_bind, wp_observe]
      exact completedTurns_called _ _ _
  | cons reply rest ih =>
      rw [gatewayRounds]
      cases reply with
      | error error =>
          rw [wp_bind, wp_observe]
          refine ⟨completedTurns_called _ _ _, ?_⟩
          intro message hno
          cases hno
      | ok response =>
          rw [ModelGateway.runTurn_live hsurface]
          have hresponse := allAnswered_liveTurn (hreach response List.mem_cons_self)
          rw [heardResponses] at hreach ⊢
          generalize liveTurn provider surface response = answer at hresponse hreach ⊢
          unfold GatewayAnswer.toolCalls at hresponse hreach ⊢
          refine wp_round ?_ ?_ ?_
          · intro error t houtcome ht
            refine ⟨ht.2.trans (completedTurns_called _ _ _), ?_⟩
            intro message hno
            cases hno
          · intro summary t houtcome hempty ht
            simp only [houtcome, hempty] at hresponse ⊢
            -- nothing is marked where there are no calls
            have hnone : (markedCalls provider surface response).all = [] :=
              List.eq_nil_of_length_eq_zero (Nat.le_zero.mp hresponse.length_le)
            refine ⟨ht.2.trans (completedTurns_called _ _ _), fun _ _ =>
              lastRequestAnswers_of_waits ht ?_⟩
            simp only [List.isEmpty_nil, if_true]
            rw [markedIn_cons, hnone]
            exact (List.append_nil asked).symm ▸ hasked
          · intro summary roundResults u houtcome hcalls hu hanswers
            simp only [houtcome, List.isEmpty_iff, if_neg hcalls] at hresponse hreach ⊢
            rw [wp_bind]
            refine wp_mono (loopDiagnostics_waits _ u) (fun diagnostics v hv => ?_)
              (fun _ _ h => h.elim)
            have hround : AllAnswered ((results ++ roundResults ++ diagnostics).map
                ToolResultInjection.key) (asked ++ (markedCalls provider surface response).all) := by
              rw [List.map_append, List.map_append, ToolResultInjection.keys_of_answers hanswers]
              obtain ⟨kept, hkept, hall⟩ := hasked.append hresponse
              exact ⟨kept, hkept.trans (List.sublist_append_left _ _), hall⟩
            have hnext := ih (fun other hother => hreach other (List.mem_cons_of_mem _ hother))
              hround (toolCallFingerprint summary.toolCalls)
              (if toolCallFingerprint summary.toolCalls = fingerprint then
                min (repeated + 1) (2 ^ 32 - 1) else 0) v
            rw [List.append_assoc asked, ← markedIn_cons] at hnext
            have hsame : completedTurns v = completedTurns s :=
              hv.2.trans (hu.2.trans (completedTurns_called _ _ _))
            exact wp_mono hnext (fun _ _ h => ⟨h.1.trans hsame, h.2⟩)
              (fun _ _ h => Eq.trans h hsame)

/-- Where a turn has completed on the way, its last request carries an answer to each of the items. -/
def CompletesAnswered (marked : List MarkedCall) (s t : AppServer) : Prop :=
  completedTurns t ≠ completedTurns s → LastRequestAnswers marked t

/-- The tools that a turn of the thread offers to the provider. -/
def turnSurface (provider : ResolvedProvider) (thread : Thread) : ToolSurfaceSpec :=
  .forMode (providerToolProtocol provider)
    (if thread.workspaceMountId.isSome || thread.workspaceRef.isSome then .standard
      else .conversationOnly)

omit [World] [JsonText] in
theorem turnSurface_eq (provider : ResolvedProvider) (thread : Thread) (turn : Turn)
    (systemPrompt developerPrompt userPrompt : String) :
    turnSurface provider thread = .forMode (providerToolProtocol provider)
      (baseRequestFor thread turn systemPrompt developerPrompt userPrompt).toolSurfaceMode := rfl

/-- A live turn at the provider. -/
def liveGatewayTurn (provider : ResolvedProvider) (thread : Thread) (turn : Turn)
    (systemPrompt developerPrompt userPrompt : String)
    (outputContext : Option InteractionContext) (replies : List (Except ModelError Json)) :
    ServerM Unit :=
  streamGatewayTurn { simulate := false, provider := .ok provider } thread turn systemPrompt
    developerPrompt userPrompt outputContext replies

theorem liveGatewayTurn_answers {provider : ResolvedProvider} {thread : Thread}
    {replies : List (Except ModelError Json)}
    (hreach : ∀ response ∈ heardResponses provider (turnSurface provider thread) replies,
      (markedCalls provider (turnSurface provider thread) response).InReach
        (turnSurface provider thread))
    (turn : Turn) (systemPrompt developerPrompt userPrompt : String)
    (outputContext : Option InteractionContext) :
    Guarantees (CompletesAnswered (markedIn provider (turnSurface provider thread)
        (heardResponses provider (turnSurface provider thread) replies)))
      (liveGatewayTurn provider thread turn systemPrompt developerPrompt userPrompt outputContext
        replies) := by
  intro s
  have hsurface := turnSurface_eq provider thread turn systemPrompt developerPrompt userPrompt
  have hnone : AllAnswered (([] : List ToolResultInjection).map ToolResultInjection.key) [] :=
    .nil _
  have hrounds := gatewayRounds_answers hsurface outputContext hreach hnone "" 0 s
  unfold liveGatewayTurn streamGatewayTurn
  rw [wp_bind]
  refine wp_mono hrounds (fun ending t h => ?_) (fun _ _ hsame hne => absurd hsame hne)
  obtain ⟨hsame, hanswers⟩ := h
  cases ending with
  | error error =>
      exact wp_mono (failModelTurn_waits _ _ _ t)
        (fun _ u hu hne => absurd (hu.2.trans hsame) hne) (fun _ _ hno => hno.elim)
  | ok message =>
      refine wp_mono (completeModelTurn_requests _ _ _ _ t) (fun _ u hu _ => ?_)
        (fun _ _ hno => hno.elim)
      obtain ⟨request, hlast, hanswered⟩ := hanswers message rfl
      exact ⟨request, (congrArg List.getLast? hu).trans hlast, hanswered⟩

/-- Every marked item of a response becomes a call exactly when all of them are well formed and stand
in one list that the adapter looks at, and a turn that hears only such responses completes with an
answer to every item. -/
theorem no_call_dropped_iff (provider : ResolvedProvider) :
    (∀ (surface : ToolSurfaceSpec) (response : Json),
      AllAnswered ((liveTurn provider surface response).toolCalls.map ProviderToolCall.key)
          (markedCalls provider surface response).all ↔
        (markedCalls provider surface response).InReach surface) ∧
    ∀ (thread : Thread) (turn : Turn) (systemPrompt developerPrompt userPrompt : String)
      (outputContext : Option InteractionContext) (replies : List (Except ModelError Json)),
      (∀ response ∈ heardResponses provider (turnSurface provider thread) replies,
        (markedCalls provider (turnSurface provider thread) response).InReach
          (turnSurface provider thread)) →
      Guarantees (CompletesAnswered (markedIn provider (turnSurface provider thread)
          (heardResponses provider (turnSurface provider thread) replies)))
        (liveGatewayTurn provider thread turn systemPrompt developerPrompt userPrompt outputContext
          replies) := by
  constructor
  · intro surface response
    rw [liveTurn_toolCalls]
    exact ⟨MarkedCalls.inReach_of_allAnswered, MarkedCalls.allAnswered_of_inReach⟩
  · intro thread turn systemPrompt developerPrompt userPrompt outputContext replies hreach
    exact liveGatewayTurn_answers hreach turn systemPrompt developerPrompt userPrompt outputContext

end Turns

/-! ### A tool that nobody knows -/

def webSearchResponse : Json :=
  .object [("content", .array [.object [("type", .string "tool_use"), ("id", .string "toolu_1"),
    ("name", .string "web_search"), ("input", .object [])]])]

/-- The server after a turn that hears the one response. -/
def webSearchTurn : AppServer :=
  after (@liveGatewayTurn plainWorld noJson ModelProviderFamily.anthropicMessages.provider
    (Thread.blank "thread_0_1") firstTurn "" "" "" none [.ok webSearchResponse]) firstTurnServer

/-- The call gets no answer, and the turn completes. -/
theorem unknown_tool_is_dropped :
    (¬ ∀ (json : JsonText) (provider : ResolvedProvider) (surface : ToolSurfaceSpec)
        (response : Json),
      AllAnswered ((@liveTurn json provider surface response).toolCalls.map ProviderToolCall.key)
        (@markedCalls json provider surface response).all) ∧
    ¬ ∀ (world : World) (json : JsonText) (provider : ResolvedProvider) (thread : Thread)
        (turn : Turn) (systemPrompt developerPrompt userPrompt : String)
        (outputContext : Option InteractionContext) (replies : List (Except ModelError Json)),
      Guarantees (CompletesAnswered (@markedIn json provider (turnSurface provider thread)
          (@heardResponses json provider (turnSurface provider thread) replies)))
        (@liveGatewayTurn world json provider thread turn systemPrompt developerPrompt userPrompt
          outputContext replies) := by
  constructor
  · intro h
    have hlength := (h noJson ModelProviderFamily.anthropicMessages.provider (.standard .native)
      webSearchResponse).length_le
    exact absurd hlength (by decide +kernel)
  · intro h
    have hanswers := wp_after.mp (h plainWorld noJson ModelProviderFamily.anthropicMessages.provider
      (Thread.blank "thread_0_1") firstTurn "" "" "" none [.ok webSearchResponse] firstTurnServer)
    have hcompleted : completedTurns webSearchTurn ≠ completedTurns firstTurnServer := by
      intro hsame
      have hlengths := congrArg List.length hsame
      exact absurd hlengths (by decide +kernel)
    obtain ⟨request, hlast, hanswered⟩ := hanswers hcompleted
    have hresults : (modelRequests webSearchTurn).map (·.toolResultInjections.length) = [0] := by
      decide +kernel
    have hnone : request.toolResultInjections.length ∈ [0] := by
      rw [← hresults]
      exact List.mem_map_of_mem (List.mem_of_getLast? hlast)
    have hlength := hanswered.length_le
    rw [List.length_map, List.mem_singleton.mp hnone] at hlength
    exact absurd hlength (by decide +kernel)

end Liz
