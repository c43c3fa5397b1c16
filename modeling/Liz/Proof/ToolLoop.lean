import Liz.Proof.ContinuationRequests
import Liz.Proof.ConversationTools
import Liz.Proof.RenderedJson

/-!
# The bookkeeping of the tool loop

The loop knows of the rounds before only the fingerprint of the last one and how often it came in a
row. A fingerprint tells the names and the arguments of its calls, since no name of a tool has a
colon in it and the text of a value ends by itself. So the note about a loop follows the results of
a round exactly if the two rounds before it asked for the same.
-/

namespace Liz

open Program Codes

/-! ### Rounds in a row -/

/-- How often the first element is repeated right behind itself. -/
def repeats {α : Type*} [DecidableEq α] : List α → Nat
  | first :: second :: rest => if first = second then repeats (second :: rest) + 1 else 0
  | _ => 0

section Repeats

variable {α : Type*} [DecidableEq α]

theorem repeats_cons (first : α) (rest : List α) :
    repeats (first :: rest) = if rest.head? = some first then repeats rest + 1 else 0 := by
  cases rest with
  | nil => simp [repeats]
  | cons second rest => simp [repeats, eq_comm]

/-- Two repetitions are three equal elements at the front. -/
theorem two_le_repeats_iff {first : α} {rest : List α} :
    2 ≤ repeats (first :: rest) ↔ ∃ more, rest = first :: first :: more := by
  match rest with
  | [] => simp [repeats]
  | [second] =>
      rw [repeats_cons, repeats_cons]
      split <;> simp
  | second :: third :: more =>
      rw [repeats_cons, repeats_cons]
      by_cases hsecond : second = first
      · by_cases hthird : third = second
        · simp [hsecond, hthird]
        · simp [hsecond, hsecond ▸ hthird]
      · simp [hsecond]

end Repeats

/-- What a call asks for. -/
def ProviderToolCall.asked (call : ProviderToolCall) : String × Json := (call.toolName, call.arguments)

/-- The same tools with the same arguments, in the same order. -/
def SameCalls (calls others : List ProviderToolCall) : Prop :=
  calls.map ProviderToolCall.asked = others.map ProviderToolCall.asked

/-- The calls of the rounds that have some, up to the first answer without. -/
def toolRounds : List GatewayAnswer → List (List ProviderToolCall)
  | [] => []
  | answer :: rest =>
      if answer.toolCalls.isEmpty then [] else answer.toolCalls :: toolRounds rest

/-- The round, counted from one, asks for the same as the two before it. -/
def AsksAThirdTime (rounds : List (List ProviderToolCall)) (round : Nat) : Prop :=
  3 ≤ round ∧ ∃ first second third, rounds[round - 3]? = some first ∧
    rounds[round - 2]? = some second ∧ rounds[round - 1]? = some third ∧
    SameCalls first second ∧ SameCalls second third

/-! ### What is injected -/

inductive Injection
  | result (call : ProviderToolCall)
  | loopDiagnostic

/-- The result of a call has its identifier and its names, the note about a loop those of the
runtime. -/
def Injection.Is : Injection → ToolResultInjection → Prop
  | result call, injected => injected.AnswersTo call
  | loopDiagnostic, injected =>
      injected.toolName = "runtime.loop_diagnostic" ∧
        injected.providerToolName = "runtime.loop_diagnostic" ∧ injected.isError = true ∧
        injected.summary = "Runtime diagnostic" ∧
        injected.result = .object [("diagnostic", .string
          "Detected repeated tool-call pattern. Explain the blocker or choose a different action.")]

open Classical in
/-- What is injected after a round, counted from one. -/
noncomputable def injectedAfter (rounds : List (List ProviderToolCall)) (round : Nat) :
    List Injection :=
  (rounds.getD (round - 1) []).map .result ++
    if AsksAThirdTime rounds round then [.loopDiagnostic] else []

/-- What is injected in the request behind the first rounds. -/
noncomputable def injectedUpTo (rounds : List (List ProviderToolCall)) : Nat → List Injection
  | 0 => []
  | round + 1 => injectedUpTo rounds round ++ injectedAfter rounds (round + 1)

/-- The rounds before, the latest first. -/
theorem asksAThirdTime_iff (past : List (List ProviderToolCall)) (calls : List ProviderToolCall)
    (rest : List (List ProviderToolCall)) :
    AsksAThirdTime (past.reverse ++ calls :: rest) (past.length + 1) ↔
      ∃ second first more, past = second :: first :: more ∧ SameCalls first second ∧
        SameCalls second calls := by
  match past with
  | [] => simp [AsksAThirdTime]
  | [_] => simp [AsksAThirdTime]
  | second :: first :: more =>
      have hrounds : (second :: first :: more).reverse ++ calls :: rest =
          more.reverse ++ first :: second :: calls :: rest := by simp
      have hfirst : (more.reverse ++ first :: second :: calls :: rest)[more.length]? =
          some first := by simp
      have hsecond : (more.reverse ++ first :: second :: calls :: rest)[more.length + 1]? =
          some second := by simp
      have hthird : (more.reverse ++ first :: second :: calls :: rest)[more.length + 2]? =
          some calls := by simp
      rw [hrounds, AsksAThirdTime]
      simp only [List.length_cons, Nat.add_sub_cancel, Nat.reduceSubDiff, hfirst, hsecond, hthird]
      constructor
      · rintro ⟨-, a, b, c, ha, hb, hc, hab, hbc⟩
        obtain rfl := Option.some.inj ha
        obtain rfl := Option.some.inj hb
        obtain rfl := Option.some.inj hc
        exact ⟨_, _, _, rfl, hab, hbc⟩
      · rintro ⟨_, _, _, heq, hab, hbc⟩
        simp only [List.cons.injEq] at heq
        obtain ⟨rfl, rfl, rfl⟩ := heq
        exact ⟨by omega, _, _, _, rfl, rfl, rfl, hab, hbc⟩

/-! ### Fingerprints -/

/-- The tools of the standard surface. -/
def KnownTool (name : String) : Prop := name ∈ toolNamePairs.map Prod.fst

theorem separators_not_mem_knownTool {name : String} (h : KnownTool name) :
    ':' ∉ name.toList ∧ '|' ∉ name.toList := by
  have hnames : ∀ name ∈ toolNamePairs.map Prod.fst, ':' ∉ name.toList ∧ '|' ∉ name.toList := by
    decide
  exact hnames name h

/-- The text of what a call asks for. -/
def writtenCall (asked : String × Json) : List Char := asked.1.toList ++ ':' :: asked.2.written

theorem toList_toolCallFingerprint (calls : List ProviderToolCall) :
    (toolCallFingerprint calls).toList =
      ['|'].intercalate ((calls.map ProviderToolCall.asked).map writtenCall) := by
  have hcall : ∀ call : ProviderToolCall,
      (call.toolName ++ ":" ++ call.arguments.render).toList = writtenCall call.asked := by
    intro call
    rw [String.toList_append, String.toList_append, Json.toList_render, List.append_assoc]
    rfl
  rw [toolCallFingerprint, Text.join, String.toList_intercalate, List.map_map, List.map_map]
  congr 1
  exact List.map_congr_left fun call _ => hcall call

/-- What can be told from a fingerprint: a tool without the separators, and a printed value. -/
def Legible (asked : String × Json) : Prop := KnownTool asked.1 ∧ asked.2.Printed

theorem writtenCall_readsOff {asked : String × Json} (h : Legible asked) :
    ReadsOff writtenCall Json.EndsNumber Legible asked := by
  rintro ⟨name, value⟩ hother rest rest' hrest hrest' heq
  simp only [writtenCall, List.append_assoc, List.cons_append] at heq
  rw [Text.append_sep_inj (separators_not_mem_knownTool h.1).1
    (separators_not_mem_knownTool hother.1).1] at heq
  obtain ⟨hname, hmore⟩ := heq
  obtain ⟨hvalue, hend⟩ := Json.written_readsOff asked.2 h.2 value hother.2 rest rest' hrest hrest'
    hmore
  exact ⟨Prod.ext (String.toList_inj.mp hname) hvalue, hend⟩

/-- Calls with the same fingerprint ask for the same. -/
theorem toolCallFingerprint_eq_iff {calls others : List ProviderToolCall}
    (hcalls : ∀ call ∈ calls, Legible call.asked) (hothers : ∀ call ∈ others, Legible call.asked) :
    toolCallFingerprint calls = toolCallFingerprint others ↔ SameCalls calls others := by
  constructor
  · intro h
    have htext := congrArg String.toList h
    rw [toList_toolCallFingerprint, toList_toolCallFingerprint] at htext
    have hclosed : Closes writtenCall Json.EndsNumber Legible [] :=
      ⟨fun c hc => by simp at hc, fun asked _ more => by simp [writtenCall]⟩
    refine (@intercalate_unique _ _ writtenCall Json.EndsNumber Legible _ _ _ [] [] ?_ ?_ ?_
      (fun _ => Json.endsNumber_cons (c := '|') (by decide) _) hclosed hclosed (by simp) (by simp)
      (by simpa using htext)).1
    · rw [List.forall_mem_map]
      exact fun call hcall => writtenCall_readsOff (hcalls call hcall)
    · exact List.forall_mem_map.mpr hcalls
    · exact List.forall_mem_map.mpr hothers
  · intro h
    rw [← String.toList_inj, toList_toolCallFingerprint, toList_toolCallFingerprint, h]

theorem toolCallFingerprint_ne_empty {calls : List ProviderToolCall} (h : calls ≠ []) :
    toolCallFingerprint calls ≠ "" := by
  obtain ⟨call, rest, rfl⟩ := List.exists_cons_of_ne_nil h
  rw [Ne, ← String.toList_inj, toList_toolCallFingerprint, List.map_cons, List.map_cons,
    intercalate_cons, writtenCall]
  simp

/-! ### One round -/

section Rounds

variable [World]

/-- What a round adds to the results. -/
theorem loopDiagnostics_injects (repeated : Nat) :
    Gives (List.Forall₂ Injection.Is (if 2 ≤ repeated then [.loopDiagnostic] else []))
      (loopDiagnostics repeated) := by
  intro s
  unfold loopDiagnostics
  by_cases hrepeated : 2 ≤ repeated
  · rw [if_pos hrepeated, if_pos hrepeated]
    exact .cons ⟨rfl, rfl, rfl, rfl, rfl⟩ .nil
  · rw [if_neg hrepeated, if_neg hrepeated]
    exact .nil

/-- The fingerprints of the rounds before, the latest first. -/
def fingerprints (past : List (List ProviderToolCall)) : List String := past.map toolCallFingerprint

/-- What the loop keeps of the rounds before. -/
structure KeepsCount (past : List (List ProviderToolCall)) (fingerprint : String) (repeated : Nat) :
    Prop where
  last : fingerprint = (fingerprints past).headD ""
  count : repeated = min (repeats (fingerprints past)) (2 ^ 32 - 1)

omit [World] in
theorem KeepsCount.start : KeepsCount [] "" 0 := ⟨rfl, rfl⟩

omit [World] in
/-- A round with calls is remembered. -/
theorem KeepsCount.round {past : List (List ProviderToolCall)} {fingerprint : String} {repeated : Nat}
    (h : KeepsCount past fingerprint repeated) {calls : List ProviderToolCall} (hne : calls ≠ []) :
    KeepsCount (calls :: past) (toolCallFingerprint calls)
      (if toolCallFingerprint calls = fingerprint then min (repeated + 1) (2 ^ 32 - 1) else 0) := by
  refine ⟨rfl, ?_⟩
  have hhead : toolCallFingerprint calls = fingerprint ↔
      (fingerprints past).head? = some (toolCallFingerprint calls) := by
    rw [h.last]
    cases fingerprints past with
    | nil => simp [toolCallFingerprint_ne_empty hne]
    | cons latest rest => simp [eq_comm]
  have hcons : fingerprints (calls :: past) = toolCallFingerprint calls :: fingerprints past := rfl
  rw [hcons, repeats_cons]
  simp only [hhead]
  split
  · rw [h.count]
    omega
  · rfl

omit [World] in
/-- The count tells whether the latest three rounds ask for the same. -/
theorem KeepsCount.two_le_iff {past : List (List ProviderToolCall)} {fingerprint : String}
    {repeated : Nat} {calls : List ProviderToolCall}
    (h : KeepsCount (calls :: past) fingerprint repeated)
    (hlegible : ∀ round ∈ calls :: past, ∀ call ∈ round, Legible call.asked)
    (rest : List (List ProviderToolCall)) :
    2 ≤ repeated ↔ AsksAThirdTime (past.reverse ++ calls :: rest) (past.length + 1) := by
  have hcount : 2 ≤ repeated ↔ 2 ≤ repeats (fingerprints (calls :: past)) := by
    rw [h.count]
    omega
  rw [hcount, fingerprints, List.map_cons, two_le_repeats_iff, asksAThirdTime_iff]
  rw [List.forall_mem_cons] at hlegible
  constructor
  · rintro ⟨more, hmore⟩
    obtain ⟨second, past, rfl, hsecond, hmore⟩ := List.map_eq_cons_iff.mp hmore
    obtain ⟨first, others, rfl, hfirst, -⟩ := List.map_eq_cons_iff.mp hmore
    simp only [List.forall_mem_cons] at hlegible
    obtain ⟨hcalls, hlater, hearlier, -⟩ := hlegible
    refine ⟨second, first, others, rfl, ?_, ?_⟩
    · exact (toolCallFingerprint_eq_iff hearlier hlater).mp (hfirst.trans hsecond.symm)
    · exact (toolCallFingerprint_eq_iff hlater hcalls).mp hsecond
  · rintro ⟨second, first, others, rfl, hfirst, hsecond⟩
    simp only [List.forall_mem_cons] at hlegible
    obtain ⟨hcalls, hlater, hearlier, -⟩ := hlegible
    have hlast := (toolCallFingerprint_eq_iff hlater hcalls).mpr hsecond
    refine ⟨others.map toolCallFingerprint, ?_⟩
    rw [List.map_cons, List.map_cons, (toolCallFingerprint_eq_iff hearlier hlater).mpr hfirst, hlast]

omit [World] in
/-- The results after a round: those before, its own and the note. -/
theorem injectedUpTo_round {past rest : List (List ProviderToolCall)}
    {calls : List ProviderToolCall} {fingerprint : String} {repeated : Nat}
    (h : KeepsCount (calls :: past) fingerprint repeated)
    (hlegible : ∀ round ∈ calls :: past, ∀ call ∈ round, Legible call.asked) :
    injectedUpTo (past.reverse ++ calls :: rest) (past.length + 1) =
      injectedUpTo (past.reverse ++ calls :: rest) past.length ++ calls.map .result ++
        if 2 ≤ repeated then [.loopDiagnostic] else [] := by
  have hcalls : (past.reverse ++ calls :: rest).getD (past.length + 1 - 1) [] = calls := by
    simp [List.getD_eq_getElem?_getD]
  rw [injectedUpTo, injectedAfter, hcalls, List.append_assoc]
  congr 2
  by_cases hrepeated : 2 ≤ repeated
  · rw [if_pos hrepeated, if_pos ((h.two_le_iff hlegible rest).mp hrepeated)]
  · rw [if_neg hrepeated, if_neg fun hthird => hrepeated ((h.two_le_iff hlegible rest).mpr hthird)]

/-! ### The rounds of a turn -/

/-- From a state on, one request is sent for each of the rounds and one behind them, and each injects
what the rounds before it have left. -/
def InjectsFrom (past later : List (List ProviderToolCall)) (s t : AppServer) : Prop :=
  ∃ requests, modelRequests t = modelRequests s ++ requests ∧
    requests.length = later.length + 1 ∧
    ∀ round request, requests[round]? = some request →
      List.Forall₂ Injection.Is (injectedUpTo (past.reverse ++ later) (past.length + round))
        request.toolResultInjections

omit [World] in
/-- The last request of a turn. -/
theorem InjectsFrom.last {past : List (List ProviderToolCall)} {s t : AppServer}
    {request : ModelTurnRequest} {outputContext : Option InteractionContext}
    (hresults : List.Forall₂ Injection.Is (injectedUpTo past.reverse past.length)
      request.toolResultInjections)
    (h : Waits (s.observed (.modelCalled request outputContext)) t) : InjectsFrom past [] s t := by
  refine ⟨[request], by rw [h.1, modelRequests_called], rfl, fun round sent hsent => ?_⟩
  cases round with
  | zero =>
      obtain rfl := Option.some.inj hsent
      rw [List.append_nil]
      exact hresults
  | succ round => cases hsent

theorem runRounds_injects (baseRequest : ModelTurnRequest)
    (outputContext : Option InteractionContext) (answers : List GatewayAnswer)
    (past : List (List ProviderToolCall)) (results : List ToolResultInjection)
    (fingerprint : String) (repeated : Nat) (hcounted : KeepsCount past fingerprint repeated)
    (hlegible : ∀ round ∈ past.reverse ++ toolRounds answers, ∀ call ∈ round, Legible call.asked)
    (hresults : List.Forall₂ Injection.Is
      (injectedUpTo (past.reverse ++ toolRounds answers) past.length) results) :
    Guarantees (InjectsFrom past (toolRounds answers))
      (runRounds baseRequest outputContext answers results fingerprint repeated) := by
  induction answers generalizing past results fingerprint repeated with
  | nil =>
      intro s
      rw [toolRounds, List.append_nil] at hresults
      rw [runRounds, wp_bind, wp_observe]
      exact .last hresults ⟨rfl, rfl⟩
  | cons answer rest ih =>
      intro s
      rw [runRounds]
      rw [toolRounds] at hresults hlegible ⊢
      have hlast : answer.toolCalls.isEmpty = true → ∀ t, Waits (s.observed (.modelCalled
          (baseRequest.withToolResultInjections results) outputContext)) t →
          InjectsFrom past (if answer.toolCalls.isEmpty = true then []
            else answer.toolCalls :: toolRounds rest) s t := by
        intro hcalls t ht
        rw [if_pos hcalls, List.append_nil] at hresults
        rw [if_pos hcalls]
        exact .last hresults ht
      refine wp_round ?_ ?_ ?_
      · intro error t houtcome ht
        exact hlast (by simp [GatewayAnswer.toolCalls, houtcome]) t ht
      · intro summary t houtcome hempty ht
        exact hlast (by simp [GatewayAnswer.toolCalls, houtcome, hempty]) t ht
      · intro summary roundResults u houtcome hne hu hanswers
        have hcalls : answer.toolCalls = summary.toolCalls := by rw [GatewayAnswer.toolCalls, houtcome]
        have hempty : ¬ summary.toolCalls.isEmpty = true := fun h => hne (List.isEmpty_iff.mp h)
        rw [hcalls, if_neg hempty] at hresults hlegible ⊢
        have hround := hcounted.round hne
        have hknown : ∀ round ∈ summary.toolCalls :: past, ∀ call ∈ round,
            Legible call.asked := by
          intro round hmem
          refine hlegible round ?_
          rcases List.mem_cons.mp hmem with rfl | hmem
          · exact List.mem_append_right _ List.mem_cons_self
          · exact List.mem_append_left _ (List.mem_reverse.mpr hmem)
        have hsplit : past.reverse ++ summary.toolCalls :: toolRounds rest =
            (summary.toolCalls :: past).reverse ++ toolRounds rest := by simp
        rw [wp_bind]
        refine wp_mono (wp_and (loopDiagnostics_injects _ u) (loopDiagnostics_waits _ u))
          (fun diagnostics v hv => ?_) (fun _ _ h => h.1.elim)
        obtain ⟨hnotes, hv⟩ := hv
        have hsame : modelRequests v = modelRequests s ++
            [baseRequest.withToolResultInjections results] := by
          rw [hv.1, hu.1, modelRequests_called]
        have hnext : List.Forall₂ Injection.Is
            (injectedUpTo ((summary.toolCalls :: past).reverse ++ toolRounds rest)
              (summary.toolCalls :: past).length) (results ++ roundResults ++ diagnostics) := by
          rw [← hsplit, List.length_cons, injectedUpTo_round hround hknown]
          have hcalls : List.Forall₂ Injection.Is (summary.toolCalls.map .result)
              roundResults := List.forall₂_map_left_iff.mpr hanswers
          exact List.rel_append (List.rel_append hresults hcalls) hnotes
        have hmore : ∀ w, InjectsFrom (summary.toolCalls :: past) (toolRounds rest) v w →
            InjectsFrom past (summary.toolCalls :: toolRounds rest) s w := by
          rintro w ⟨requests, hrequests, hlength, hinjects⟩
          refine ⟨baseRequest.withToolResultInjections results :: requests, ?_, ?_, ?_⟩
          · rw [hrequests, hsame, List.append_assoc]
            rfl
          · rw [List.length_cons, List.length_cons, hlength]
          · intro round request hrequest
            cases round with
            | zero =>
                obtain rfl := Option.some.inj hrequest
                exact hresults
            | succ round =>
                have hlater := hinjects round request hrequest
                rw [← hsplit, List.length_cons, Nat.add_assoc, Nat.add_comm 1] at hlater
                exact hlater
        exact wp_mono (ih _ _ _ _ hround (hsplit ▸ hlegible) hnext v)
          (fun _ w hw => hmore w hw) (fun _ w hw => hmore w hw)

end Rounds

/-! ### The calls of the gateway -/

section Gateway

variable [JsonText]

omit [JsonText] in
theorem toolName_of_promptAsPath {surface : ToolSurfaceSpec} {request : ModelTurnRequest}
    {call : ProviderToolCall} (h : call ∈ (promptAsPath surface request).toList) :
    call.toolName = inferToolName request.userPrompt := by
  rw [Option.mem_toList, promptAsPath] at h
  split at h
  · obtain rfl := Option.some.inj h
    rfl
  · cases h

omit [JsonText] in
/-- A simulated adapter makes up calls of the tool that the prompt sounds like. -/
theorem toolName_of_simulatedTurn {provider : ResolvedProvider} {request : ModelTurnRequest}
    {surface : ToolSurfaceSpec} {call : ProviderToolCall}
    (h : call ∈ (simulatedTurn provider request surface).toolCalls) :
    call.toolName = inferToolName request.userPrompt := by
  unfold simulatedTurn at h
  cases hadapter : provider.family.adapter with
  | anthropic => rw [hadapter] at h; exact toolName_of_promptAsPath h
  | bedrock => rw [hadapter] at h; exact toolName_of_promptAsPath h
  | google => rw [hadapter] at h; exact toolName_of_promptAsPath h
  | openAiStyle =>
      rw [hadapter] at h
      replace h := Option.mem_toList.mp h
      split at h
      · obtain rfl := Option.some.inj h
        dsimp only [simulatedToolCall]
      · cases h

/-- Every call of the gateway is of a tool of the standard surface. -/
theorem ModelGateway.runTurn_knownTool (gateway : ModelGateway) (request : ModelTurnRequest)
    (reply : Except ModelError Json) :
    ∀ call ∈ (gateway.runTurn request reply).toolCalls, KnownTool call.toolName := by
  intro call hcall
  unfold ModelGateway.runTurn at hcall
  cases hprovider : gateway.provider with
  | error error =>
      rw [hprovider] at hcall
      cases hcall
  | ok provider =>
      rw [hprovider] at hcall
      dsimp only at hcall
      by_cases hsimulate : gateway.simulate = true
      · rw [if_pos hsimulate] at hcall
        rw [KnownTool, toolName_of_simulatedTurn hcall]
        rcases inferToolName_cases request.userPrompt with h | h | h <;> rw [h] <;> decide
      · rw [if_neg hsimulate] at hcall
        cases reply with
        | error error => cases hcall
        | ok response =>
            have hname := liveTurn_toolNames provider hcall
            cases hmode : request.toolSurfaceMode with
            | standard =>
                rw [hmode] at hname
                exact hname
            | conversationOnly =>
                rw [hmode] at hname
                cases hname

omit [JsonText] in
/-- The calls of the rounds are calls of the answers. -/
theorem exists_answer_of_toolRounds {answers : List GatewayAnswer} {round : List ProviderToolCall}
    (h : round ∈ toolRounds answers) : ∃ answer ∈ answers, round = answer.toolCalls := by
  induction answers with
  | nil => cases h
  | cons answer rest ih =>
      rw [toolRounds] at h
      split at h
      · cases h
      · rcases List.mem_cons.mp h with rfl | h
        · exact ⟨answer, List.mem_cons_self, rfl⟩
        · obtain ⟨other, hother, hround⟩ := ih h
          exact ⟨other, List.mem_cons_of_mem _ hother, hround⟩

theorem ModelGateway.answers_knownTool (gateway : ModelGateway) (baseRequest : ModelTurnRequest)
    (replies : List (Except ModelError Json)) :
    ∀ round ∈ toolRounds (gateway.answers baseRequest replies), ∀ call ∈ round,
      KnownTool call.toolName := by
  intro round hround
  obtain ⟨answer, hanswer, rfl⟩ := exists_answer_of_toolRounds hround
  cases replies with
  | nil => cases hanswer
  | cons reply rest =>
      rw [ModelGateway.answers] at hanswer
      rcases List.mem_cons.mp hanswer with rfl | hanswer
      · exact gateway.runTurn_knownTool _ _
      · obtain ⟨later, -, rfl⟩ := List.mem_map.mp hanswer
        exact gateway.runTurn_knownTool _ _

end Gateway

/-! ### A whole turn -/

section Turn

variable [World] [JsonText]

/-- In every turn one request is sent for each round with calls and one behind them. The request
behind the first rounds injects the results of their calls, in the order of the calls, with a note
behind the results of each round that asks for the same as the two before it, and nothing else. -/
theorem toolResults_injected (gateway : ModelGateway) (thread : Thread) (turn : Turn)
    (systemPrompt developerPrompt userPrompt : String)
    (outputContext : Option InteractionContext) (replies : List (Except ModelError Json))
    (s : AppServer)
    (hprinted : ∀ round ∈ toolRounds (gateway.answers
        (baseRequestFor thread turn systemPrompt developerPrompt userPrompt) replies),
      ∀ call ∈ round, call.arguments.Printed) :
    let rounds := toolRounds (gateway.answers
      (baseRequestFor thread turn systemPrompt developerPrompt userPrompt) replies)
    let sent := requestsSent s (after (streamGatewayTurn gateway thread turn systemPrompt
      developerPrompt userPrompt outputContext replies) s)
    sent.length = rounds.length + 1 ∧ ∀ n ≤ rounds.length, ∃ request, sent[n]? = some request ∧
      List.Forall₂ Injection.Is (injectedUpTo rounds n) request.toolResultInjections := by
  intro rounds sent
  have hlegible : ∀ round ∈ ([] : List (List ProviderToolCall)).reverse ++ rounds,
      ∀ call ∈ round, Legible call.asked := by
    intro round hround call hcall
    exact ⟨gateway.answers_knownTool _ _ round hround call hcall, hprinted round hround call hcall⟩
  have hrounds := runRounds_injects (baseRequestFor thread turn systemPrompt developerPrompt
    userPrompt) outputContext (gateway.answers (baseRequestFor thread turn systemPrompt
      developerPrompt userPrompt) replies) [] [] "" 0 .start hlegible .nil s
  have hturn : wp (streamGatewayTurn gateway thread turn systemPrompt developerPrompt userPrompt
      outputContext replies) (fun _ t => InjectsFrom [] rounds s t)
      (fun _ t => InjectsFrom [] rounds s t) s := by
    have hkept : ∀ {t u : AppServer}, modelRequests u = modelRequests t →
        InjectsFrom [] rounds s t → InjectsFrom [] rounds s u := by
      rintro t u hsame ⟨requests, hrequests, hrest⟩
      exact ⟨requests, hsame.trans hrequests, hrest⟩
    rw [streamGatewayTurn_eq, streamModelTurn, wp_bind]
    refine wp_mono hrounds (fun ending t ht => ?_) (fun _ _ ht => ht)
    exact wp_mono (finishModelTurn_requests _ _ _ ending t) (fun _ u hu => hkept hu ht)
      (fun _ _ hno => hno.elim)
  obtain ⟨requests, hrequests, hlength, hinjects⟩ := wp_after.mp hturn
  have hsent : sent = requests := by
    show (modelRequests _).drop _ = requests
    rw [hrequests, List.drop_left]
  rw [hsent]
  refine ⟨hlength, fun n hn => ?_⟩
  have hbound : n < requests.length := by omega
  refine ⟨requests[n], List.getElem?_eq_getElem hbound, ?_⟩
  have hresults := hinjects n _ (List.getElem?_eq_getElem hbound)
  rw [List.reverse_nil, List.nil_append, List.length_nil, Nat.zero_add] at hresults
  exact hresults

end Turn

/-- The same listing is asked for three times. -/
def threeListings : List (Except ModelError Json) :=
  [.ok (toolUseResponse "toolu_1"), .ok (toolUseResponse "toolu_2"), .ok (toolUseResponse "toolu_3"),
    .ok .null]

def listingGateway : ModelGateway :=
  { simulate := false, provider := .ok ModelProviderFamily.anthropicMessages.provider }

/-- The rounds of the three listings. -/
def listingRounds : List (List ProviderToolCall) :=
  toolRounds (@ModelGateway.answers noJson listingGateway
    (baseRequestFor workspaceThread firstTurn "" "" "") threeListings)

/-- The third listing is followed by the note. -/
theorem third_listing_noted :
    AsksAThirdTime listingRounds 3 ∧
      ∃ request, (requestsSent firstTurnServer (after (@streamGatewayTurn plainWorld noJson
          listingGateway workspaceThread firstTurn "" "" "" none threeListings)
          firstTurnServer))[3]? = some request ∧
        List.Forall₂ Injection.Is (injectedUpTo listingRounds 3) request.toolResultInjections := by
  refine ⟨⟨by decide, _, _, _, rfl, rfl, rfl, rfl, rfl⟩, ?_⟩
  have hprinted : ∀ round ∈ listingRounds, ∀ call ∈ round, call.arguments.Printed := by
    decide +kernel
  have hlength : listingRounds.length = 3 := by decide +kernel
  exact (@toolResults_injected plainWorld noJson listingGateway workspaceThread firstTurn "" "" ""
    none threeListings firstTurnServer hprinted).2 3 hlength.ge

end Liz
