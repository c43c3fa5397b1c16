import Liz.Base.Numbering
import Liz.Proof.DroppedCalls
import Liz.Proof.ExecutionScope

/-!
# The identifiers of the calls of a turn

A call is named by the provider, or else by its place in the response, or by a constant. The places
start anew with each response, so the names that are made up differ in a turn exactly when no two
calls without a name stand at the same place of their responses; of those that share a constant there
can be one only.
-/

namespace Liz

open Program

/-! ### The calls of a turn -/

/-- The calls of the answers up to the first that has none. -/
def executedCalls : List GatewayAnswer → List ProviderToolCall
  | [] => []
  | answer :: rest =>
      answer.toolCalls ++ if answer.toolCalls.isEmpty then [] else executedCalls rest

section Moments

variable [World]

theorem toolCalls_callMoments (threadId : ThreadId) (turnId : TurnId)
    (toolCalls : List ProviderToolCall) (s : AppServer) :
    (callMoments threadId turnId toolCalls s).map ToolCallMoment.toolCall = toolCalls := by
  induction toolCalls generalizing s with
  | nil => rfl
  | cons toolCall rest ih =>
      obtain ⟨_, t, hrun, -⟩ := exists_ok_of_wp (executeModelToolCall_gives threadId turnId toolCall s)
      rw [callMoments, List.map_cons, onward_of_ok hrun, ih]

/-- The calls that are executed in the rounds of a turn are those of its answers. -/
theorem toolCalls_roundMoments (baseRequest : ModelTurnRequest)
    (outputContext : Option InteractionContext) (answers : List GatewayAnswer)
    (results : List ToolResultInjection) (fingerprint : String) (repeated : Nat) (s : AppServer) :
    (roundMoments baseRequest outputContext answers results fingerprint repeated s).map
      ToolCallMoment.toolCall = executedCalls answers := by
  induction answers generalizing results fingerprint repeated s with
  | nil => rfl
  | cons answer rest ih =>
      obtain ⟨_, t, hevents, -⟩ := exists_ok_of_wp (handleModelEvents_waits baseRequest.thread.id
        baseRequest.turn.id outputContext answer.events (s.observed (.modelCalled
          (baseRequest.withToolResultInjections results) outputContext)))
      simp only [roundMoments]
      rw [onward_observe, onward_of_ok hevents, executedCalls]
      unfold GatewayAnswer.toolCalls
      cases answer.outcome with
      | error error => rfl
      | ok summary =>
          dsimp only
          by_cases hempty : summary.toolCalls.isEmpty = true
          · rw [if_pos hempty, if_pos hempty, List.isEmpty_iff.mp hempty]
            rfl
          · rw [if_neg hempty, if_neg hempty]
            obtain ⟨_, u, hrun, -⟩ := exists_ok_of_wp (executeModelToolCalls_gives
              baseRequest.thread.id baseRequest.turn.id summary.toolCalls t)
            obtain ⟨_, v, hnotes, -⟩ := exists_ok_of_wp (loopDiagnostics_waits
              (if toolCallFingerprint summary.toolCalls = fingerprint then
                min (repeated + 1) (2 ^ 32 - 1) else 0) u)
            rw [onward_of_ok hrun, onward_of_ok hnotes, List.map_append, toolCalls_callMoments, ih]

end Moments

/-! ### The items behind the calls -/

namespace MarkedCalls

theorem chosen_eq_of_list (surface : ToolSurfaceSpec) (marked : MarkedCalls) :
    marked.chosen surface = [] ∨ ∃ list ∈ marked.read,
      marked.chosen surface = list.filter fun item => (item.call surface).isSome := by
  unfold chosen
  cases hfound : (marked.read.map (List.filter fun item => (item.call surface).isSome)).find?
      (!·.isEmpty) with
  | none => exact .inl rfl
  | some list =>
      obtain ⟨source, hsource, hlist⟩ := List.mem_map.mp (List.mem_of_find?_eq_some hfound)
      exact .inr ⟨source, hsource, hlist.symm⟩

theorem chosen_sublist (surface : ToolSurfaceSpec) (marked : MarkedCalls) :
    (marked.chosen surface).Sublist marked.all := by
  rcases chosen_eq_of_list surface marked with hnil | ⟨list, hlist, hchosen⟩
  · rw [hnil]
    exact List.nil_sublist _
  · rw [hchosen]
    have hfiltered : (list.filter fun item => (item.call surface).isSome).Sublist list :=
      List.filter_sublist
    exact (hfiltered.trans (List.sublist_flatten_of_mem hlist)).trans (List.sublist_append_left _ _)

theorem mem_chosen {surface : ToolSurfaceSpec} {marked : MarkedCalls} {item : MarkedCall}
    (h : item ∈ marked.chosen surface) :
    (∃ list ∈ marked.read, item ∈ list) ∧ (item.call surface).isSome = true := by
  rcases chosen_eq_of_list surface marked with hnil | ⟨list, hlist, hchosen⟩
  · rw [hnil] at h
    exact absurd h List.not_mem_nil
  · rw [hchosen] at h
    obtain ⟨hmem, hsome⟩ := List.mem_filter.mp h
    exact ⟨⟨list, hlist, hmem⟩, hsome⟩

end MarkedCalls

/-- Calls keep the identifiers of their items. -/
theorem callIds_eq {surface : ToolSurfaceSpec} {items : List MarkedCall}
    (h : ∀ item ∈ items, (item.call surface).isSome = true) :
    (items.filterMap (MarkedCall.call surface)).map ProviderToolCall.callId =
      items.map MarkedCall.callId := by
  induction items with
  | nil => rfl
  | cons item rest ih =>
      obtain ⟨hitem, hrest⟩ := List.forall_mem_cons.mp h
      obtain ⟨call, hcall⟩ := Option.isSome_iff_exists.mp hitem
      rw [List.filterMap_cons_some hcall, List.map_cons, List.map_cons, ih hrest,
        (MarkedCall.of_call hcall).1]

theorem format_of_mem_marked {format : ToolCallFormat} {items : List Json} {item : MarkedCall}
    (h : item ∈ format.marked items) : item.format = format := by
  obtain ⟨⟨value, index⟩, _, hitem⟩ := List.mem_filterMap.mp h
  obtain ⟨carrier, _, rfl⟩ := Option.map_eq_some_iff.mp hitem
  rfl

section Responses

variable [JsonText] (provider : ResolvedProvider) (surface : ToolSurfaceSpec)

/-- What an adapter calls an item at this place that has no name. -/
def madeUpIdAt (index : Nat) : String :=
  match provider.family.adapter with
  | .openAiStyle =>
      if surface.protocol = .structuredFallback then "call_structured" else "call_auto"
  | _ => indexedCallId index

/-- An adapter makes up names in one way only. -/
theorem madeUpId_of_mem_read {response : Json} {list : List MarkedCall}
    (hlist : list ∈ (markedCalls provider surface response).read) {item : MarkedCall}
    (hitem : item ∈ list) :
    item.format.madeUpId item.index = madeUpIdAt provider surface item.index := by
  have hformat : ∀ {format : ToolCallFormat} {items : List Json}, list = format.marked items →
      item.format = format := fun h => format_of_mem_marked (h ▸ hitem)
  unfold markedCalls at hlist
  unfold madeUpIdAt
  cases hadapter : provider.family.adapter with
  | anthropic =>
      rw [hadapter] at hlist
      rw [hformat (List.mem_singleton.mp hlist)]
      rfl
  | bedrock =>
      rw [hadapter] at hlist
      rw [hformat (List.mem_singleton.mp hlist)]
      rfl
  | google =>
      rw [hadapter] at hlist
      rcases List.mem_cons.mp hlist with hgoogle | hanthropic
      · rw [hformat hgoogle]
        rfl
      · split at hanthropic
        · rw [hformat (List.mem_singleton.mp hanthropic)]
          rfl
        · exact absurd hanthropic List.not_mem_nil
  | openAiStyle =>
      rw [hadapter] at hlist
      dsimp only [OpenAiStyleAdapter.markedCalls] at hlist ⊢
      by_cases hprotocol : surface.protocol = .structuredFallback
      · rw [if_pos hprotocol] at hlist ⊢
        rw [hformat (List.mem_singleton.mp hlist)]
        rfl
      · rw [if_neg hprotocol] at hlist ⊢
        simp only [OpenAiStyleAdapter.nativeLists, List.mem_append, List.mem_cons, List.not_mem_nil,
          or_false] at hlist
        rcases hlist with (hnative | hchat) | hclaude
        · rw [hformat hnative]
          rfl
        · rw [hformat hchat]
          rfl
        · split at hclaude
          · rw [hformat (List.mem_singleton.mp hclaude)]
            rfl
          · exact absurd hclaude List.not_mem_nil

/-- The items that become calls in the responses. -/
def chosenIn (responses : List Json) : List MarkedCall :=
  responses.flatMap fun response => (markedCalls provider surface response).chosen surface

theorem chosenIn_sublist (responses : List Json) :
    (chosenIn provider surface responses).Sublist (markedIn provider surface responses) := by
  induction responses with
  | nil => exact List.Sublist.refl []
  | cons response rest ih => exact (MarkedCalls.chosen_sublist surface _).append ih

theorem mem_chosenIn {responses : List Json} {item : MarkedCall}
    (h : item ∈ chosenIn provider surface responses) :
    item.format.madeUpId item.index = madeUpIdAt provider surface item.index ∧
      (item.call surface).isSome = true := by
  obtain ⟨response, _, hitem⟩ := List.mem_flatMap.mp h
  obtain ⟨⟨list, hlist, hmem⟩, hsome⟩ := MarkedCalls.mem_chosen hitem
  exact ⟨madeUpId_of_mem_read provider surface hlist hmem, hsome⟩

/-- The calls of a turn are those of the chosen items in the responses that it hears. -/
theorem executedCalls_live (replies : List (Except ModelError Json)) :
    executedCalls (replies.map fun reply => match reply with
        | .error error => { events := [], outcome := .error error }
        | .ok response => liveTurn provider surface response) =
      (chosenIn provider surface (heardResponses provider surface replies)).filterMap
        (MarkedCall.call surface) := by
  induction replies with
  | nil => rfl
  | cons reply rest ih =>
      cases reply with
      | error error => rfl
      | ok response =>
          rw [List.map_cons, executedCalls, heardResponses, ih]
          dsimp only
          have hcalls := liveTurn_toolCalls provider surface response
          unfold MarkedCalls.calls at hcalls
          unfold chosenIn
          split
          · rw [hcalls, List.flatMap_singleton, List.append_nil]
          · rw [hcalls, List.flatMap_cons, List.filterMap_append]

end Responses

/-! ### Simulated turns -/

theorem executedCalls_of_none {answers : List GatewayAnswer}
    (h : ∀ answer ∈ answers, answer.toolCalls = []) : executedCalls answers = [] := by
  cases answers with
  | nil => rfl
  | cons answer rest => rw [executedCalls, h answer List.mem_cons_self, List.isEmpty_nil]; rfl

/-- A simulated answer has one call at most, and none once there are results. -/
theorem simulatedTurn_toolCalls (provider : ResolvedProvider) (request : ModelTurnRequest)
    (surface : ToolSurfaceSpec) :
    ∃ call : Option ProviderToolCall,
      (simulatedTurn provider request surface).toolCalls = call.toList ∧
        (request.toolResultInjections ≠ [] → call = none) := by
  have hquiet : request.toolResultInjections ≠ [] → simulatesToolCall request = false := by
    intro hne
    rw [simulatesToolCall, List.isEmpty_eq_false_iff.mpr hne]
    rfl
  have hpath : request.toolResultInjections ≠ [] → promptAsPath surface request = none := by
    intro hne
    rw [promptAsPath, hquiet hne]
    rfl
  unfold simulatedTurn
  cases provider.family.adapter with
  | anthropic => exact ⟨promptAsPath surface request, rfl, hpath⟩
  | bedrock => exact ⟨promptAsPath surface request, rfl, hpath⟩
  | google => exact ⟨promptAsPath surface request, rfl, hpath⟩
  | openAiStyle =>
      refine ⟨if !surface.tools.isEmpty && simulatesToolCall request then _ else none, rfl, ?_⟩
      intro hne
      rw [hquiet hne, Bool.and_false]
      rfl

section Turns

variable [JsonText]

/-- The calls of a gateway that is not live. -/
theorem executedCalls_length_le_one {gateway : ModelGateway}
    (h : gateway.simulate = true ∨ ∃ error, gateway.provider = .error error)
    (baseRequest : ModelTurnRequest) (replies : List (Except ModelError Json)) :
    (executedCalls (gateway.answers baseRequest replies)).length ≤ 1 := by
  have hanswer : ∀ results reply, ∃ call : Option ProviderToolCall,
      (gateway.runTurn (baseRequest.withToolResultInjections results) reply).toolCalls = call.toList ∧
        (results ≠ [] → call = none) := by
    intro results reply
    unfold ModelGateway.runTurn
    cases hprovider : gateway.provider with
    | error error => exact ⟨none, rfl, fun _ => rfl⟩
    | ok provider =>
        have hsimulate : gateway.simulate = true := by
          rcases h with hsimulate | ⟨error, herror⟩
          · exact hsimulate
          · rw [hprovider] at herror
            cases herror
        simp only [hsimulate, if_true]
        exact simulatedTurn_toolCalls provider (baseRequest.withToolResultInjections results) _
  cases replies with
  | nil => exact Nat.zero_le 1
  | cons reply rest =>
      obtain ⟨call, hcall, -⟩ := hanswer [] reply
      have hrest : executedCalls (rest.map (gateway.runTurn
          (baseRequest.withToolResultInjections [someResult]))) = [] := by
        apply executedCalls_of_none
        intro answer hmem
        obtain ⟨later, _, rfl⟩ := List.mem_map.mp hmem
        obtain ⟨made, hmade, hno⟩ := hanswer [someResult] later
        rw [hmade, hno (List.cons_ne_nil _ _)]
        rfl
      rw [ModelGateway.answers, executedCalls, hcall, hrest, ite_self, List.append_nil]
      cases call with
      | none => exact Nat.zero_le 1
      | some call => exact Nat.le_refl 1

/-! ### Distinct identifiers -/

variable (provider : ResolvedProvider) (surface : ToolSurfaceSpec)

/-- No two of the items stand at the same place, or there is one at most where all of them are called
the same. -/
def PlacesApart (unnamed : List MarkedCall) : Prop :=
  match provider.family.adapter with
  | .openAiStyle => unnamed.length ≤ 1
  | _ => (unnamed.map MarkedCall.index).Nodup

/-- The items that get a made-up identifier get different ones, and none that the provider gave to
another call. -/
structure MadeUpApart (items : List MarkedCall) : Prop where
  places : PlacesApart provider (Naming.unnamed MarkedCall.issuedId items)
  fresh : ∀ item ∈ Naming.unnamed MarkedCall.issuedId items,
    madeUpIdAt provider surface item.index ∉ items.filterMap MarkedCall.issuedId

omit [JsonText] in
theorem indexedCallId_injective : Function.Injective indexedCallId := by
  intro m n h
  have hrepr : Nat.repr (m + 1) = Nat.repr (n + 1) := (String.append_right_inj _).mp h
  have hnext := IdGenerator.repr_injective hrepr
  omega

omit [JsonText] in
/-- Made-up identifiers differ exactly when their places do. -/
theorem placesApart_iff (items : List MarkedCall) :
    (items.map fun item => madeUpIdAt provider surface item.index).Nodup ↔
      PlacesApart provider items := by
  have hplaces : (items.map fun item => indexedCallId item.index).Nodup ↔
      (items.map MarkedCall.index).Nodup := by
    rw [← List.nodup_map_iff indexedCallId_injective, List.map_map]
    rfl
  have hconstant : ∀ id : String, (items.map fun _ => id).Nodup ↔ items.length ≤ 1 := by
    intro id
    rw [List.map_const', List.nodup_replicate]
  unfold madeUpIdAt PlacesApart
  cases provider.family.adapter with
  | anthropic => exact hplaces
  | bedrock => exact hplaces
  | google => exact hplaces
  | openAiStyle => exact hconstant _

omit [JsonText] in
theorem callIds_nodup_iff {items : List MarkedCall}
    (hissued : (items.filterMap MarkedCall.issuedId).Nodup)
    (hmadeUp : ∀ item ∈ items,
      item.format.madeUpId item.index = madeUpIdAt provider surface item.index) :
    (items.map MarkedCall.callId).Nodup ↔ MadeUpApart provider surface items := by
  have hnames : items.map MarkedCall.callId =
      items.map (Naming.name MarkedCall.issuedId fun item =>
        madeUpIdAt provider surface item.index) := by
    apply List.map_congr_left
    intro item hitem
    rw [Naming.name, MarkedCall.callId, hmadeUp item hitem]
  rw [hnames, Naming.names_nodup_iff _ _ hissued, placesApart_iff]
  exact ⟨fun h => ⟨h.1, h.2⟩, fun h => ⟨h.places, h.fresh⟩⟩

variable {thread : Thread} {gateway : ModelGateway} {replies : List (Except ModelError Json)}

/-- The responses that a live turn of the thread hears name no two calls alike. -/
def IssuedApart (gateway : ModelGateway) (thread : Thread)
    (replies : List (Except ModelError Json)) : Prop :=
  ∀ provider, gateway = { simulate := false, provider := .ok provider } →
    ((markedIn provider (turnSurface provider thread)
      (heardResponses provider (turnSurface provider thread) replies)).filterMap
        MarkedCall.issuedId).Nodup

/-- In a live turn of the thread, what is made up for the calls without a name sets them apart. -/
def NamesApart (gateway : ModelGateway) (thread : Thread)
    (replies : List (Except ModelError Json)) : Prop :=
  ∀ provider, gateway = { simulate := false, provider := .ok provider } →
    MadeUpApart provider (turnSurface provider thread)
      (chosenIn provider (turnSurface provider thread)
        (heardResponses provider (turnSurface provider thread) replies))

/-- The identifiers of the calls of a turn. -/
theorem executedCalls_nodup_iff (hissued : IssuedApart gateway thread replies)
    {baseRequest : ModelTurnRequest}
    (hsurface : ∀ provider, turnSurface provider thread =
      .forMode (providerToolProtocol provider) baseRequest.toolSurfaceMode) :
    ((executedCalls (gateway.answers baseRequest replies)).map ProviderToolCall.callId).Nodup ↔
      NamesApart gateway thread replies := by
  by_cases hlive : ∃ provider, gateway = { simulate := false, provider := .ok provider }
  · obtain ⟨provider, rfl⟩ := hlive
    have hanswer : ∀ results, ModelGateway.runTurn { simulate := false, provider := .ok provider }
        (baseRequest.withToolResultInjections results) = fun reply => match reply with
          | .error error => { events := [], outcome := .error error }
          | .ok response => liveTurn provider (turnSurface provider thread) response := by
      intro results
      funext reply
      cases reply with
      | error error => rfl
      | ok response => exact ModelGateway.runTurn_live (hsurface provider) results response
    have hanswers : ModelGateway.answers { simulate := false, provider := .ok provider } baseRequest
        replies = replies.map fun reply => match reply with
          | .error error => { events := [], outcome := .error error }
          | .ok response => liveTurn provider (turnSurface provider thread) response := by
      cases replies with
      | nil => rfl
      | cons reply rest => rw [ModelGateway.answers, hanswer, hanswer, List.map_cons]
    have hchosen : ∀ item ∈ chosenIn provider (turnSurface provider thread)
        (heardResponses provider (turnSurface provider thread) replies),
        item.format.madeUpId item.index = madeUpIdAt provider (turnSurface provider thread)
            item.index ∧ (item.call (turnSurface provider thread)).isSome = true :=
      fun _ hitem => mem_chosenIn provider _ hitem
    have hown := (hissued provider rfl).sublist
      ((chosenIn_sublist provider (turnSurface provider thread) _).filterMap MarkedCall.issuedId)
    rw [hanswers, executedCalls_live, callIds_eq fun item hitem => (hchosen item hitem).2,
      callIds_nodup_iff provider (turnSurface provider thread) hown
        fun item hitem => (hchosen item hitem).1]
    constructor
    · intro h other hother
      cases hother
      exact h
    · intro h
      exact h provider rfl
  · have hquiet : gateway.simulate = true ∨ ∃ error, gateway.provider = .error error := by
      obtain ⟨simulate, provider⟩ := gateway
      cases simulate with
      | true => exact .inl rfl
      | false =>
          cases provider with
          | ok provider => exact absurd ⟨provider, rfl⟩ hlive
          | error error => exact .inr ⟨error, rfl⟩
    have hlength := executedCalls_length_le_one hquiet baseRequest replies
    apply iff_of_true
    · cases hcalls : executedCalls (gateway.answers baseRequest replies) with
      | nil => exact List.nodup_nil
      | cons call rest =>
          rw [hcalls, List.length_cons] at hlength
          rw [List.eq_nil_of_length_eq_zero (by omega : rest.length = 0)]
          exact List.nodup_singleton _
    · intro provider hprovider
      exact absurd ⟨provider, hprovider⟩ hlive

variable [World]

/-- The calls that are executed in a turn at the gateway, and the server before each of them. -/
def gatewayMoments (gateway : ModelGateway) (thread : Thread) (turn : Turn)
    (systemPrompt developerPrompt userPrompt : String) (outputContext : Option InteractionContext)
    (replies : List (Except ModelError Json)) : AppServer → List ToolCallMoment :=
  let baseRequest := baseRequestFor thread turn systemPrompt developerPrompt userPrompt
  roundMoments baseRequest outputContext (gateway.answers baseRequest replies) [] "" 0

/-- What the model executes in a turn is executed at its moments, and the calls have distinct
identifiers exactly when what is made up for those without a name sets them apart. -/
theorem call_ids_distinct_iff (hissued : IssuedApart gateway thread replies) (turn : Turn)
    (systemPrompt developerPrompt userPrompt : String) (outputContext : Option InteractionContext)
    (s : AppServer) :
    let moments := gatewayMoments gateway thread turn systemPrompt developerPrompt userPrompt
      outputContext replies s
    modelExecutions (after (streamGatewayTurn gateway thread turn systemPrompt developerPrompt
        userPrompt outputContext replies) s) =
      modelExecutions s ++ moments.flatMap ToolCallMoment.executed ∧
    ((moments.map fun moment => moment.toolCall.callId).Nodup ↔
      NamesApart gateway thread replies) := by
  dsimp only
  constructor
  · rw [streamGatewayTurn_eq]
    have hfinish : ∀ ending, Guarantees NoneExecuted
        (finishModelTurn thread.id turn.id outputContext ending) := fun ending =>
      (Does.noneExecuted (finishModelTurn_does (P := fun _ => True) tacit_published _ trivial _
        ending)).guarantees
    exact Accounts.bind_nothing (runRounds_executesAt _ outputContext _ [] "" 0) hfinish s
  · have hsurface : ∀ provider, turnSurface provider thread = .forMode
        (providerToolProtocol provider) (baseRequestFor thread turn systemPrompt developerPrompt
          userPrompt).toolSurfaceMode := fun _ => rfl
    have hcalls := toolCalls_roundMoments (baseRequestFor thread turn systemPrompt developerPrompt
      userPrompt) outputContext (gateway.answers (baseRequestFor thread turn systemPrompt
        developerPrompt userPrompt) replies) [] "" 0 s
    rw [← executedCalls_nodup_iff hissued hsurface, ← hcalls, List.map_map]
    rfl

end Turns

/-! ### Two rounds with one call each -/

def workspaceThread : Thread := { Thread.blank "thread_0_1" with workspaceRef := some "." }

/-- A response of the first family with the call, under its own name. -/
def toolUseResponse (id : String) : Json :=
  .object [("content", .array [.object [("type", .string "tool_use"), ("id", .string id),
    ("name", .string "workspace_list"), ("input", .object [("root", .string ".")])]])]

/-- A response of the other family with the same call. -/
def functionCallResponse : Json :=
  .object [("candidates", .array [.object [("content", .object [("parts", .array [.object
    [("functionCall", .object [("name", .string "workspace_list"),
      ("args", .object [("root", .string ".")])])]])])]])]

/-- The identifiers of the calls of a live turn of the thread. -/
def workspaceCallIds (provider : ResolvedProvider) (responses : List Json) : List String :=
  (@gatewayMoments noJson plainWorld { simulate := false, provider := .ok provider } workspaceThread
    firstTurn "" "" "" none (responses.map .ok) firstTurnServer).map fun moment =>
      moment.toolCall.callId

theorem call_ids_distinct_of_names :
    (workspaceCallIds ModelProviderFamily.anthropicMessages.provider
      [toolUseResponse "toolu_1", toolUseResponse "toolu_2", .null]).Nodup := by
  refine (@call_ids_distinct_iff noJson workspaceThread _ _ plainWorld ?_ firstTurn "" "" "" none
    firstTurnServer).2.mpr ?_
  · intro provider hprovider
    cases hprovider
    decide +kernel
  · intro provider hprovider
    cases hprovider
    refine ⟨?_, ?_⟩
    · show List.Nodup _
      decide +kernel
    · decide +kernel

theorem google_repeats_call_id :
    ¬ ∀ (world : World) (json : JsonText) (gateway : ModelGateway) (thread : Thread)
      (replies : List (Except ModelError Json)) (turn : Turn)
      (systemPrompt developerPrompt userPrompt : String)
      (outputContext : Option InteractionContext) (s : AppServer),
      @IssuedApart json gateway thread replies →
      ((@gatewayMoments json world gateway thread turn systemPrompt developerPrompt userPrompt
        outputContext replies s).map fun moment => moment.toolCall.callId).Nodup := by
  intro h
  have hnodup : (workspaceCallIds ModelProviderFamily.googleGenerativeAi.provider
      [functionCallResponse, functionCallResponse, .null]).Nodup := by
    apply h
    intro provider hprovider
    cases hprovider
    decide +kernel
  have hids : workspaceCallIds ModelProviderFamily.googleGenerativeAi.provider
      [functionCallResponse, functionCallResponse, .null] = ["call_1", "call_1"] := by
    decide +kernel
  rw [hids] at hnodup
  exact absurd hnodup (by decide)

end Liz
