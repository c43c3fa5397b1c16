import Liz.Base.Excerpts
import Liz.Proof.ContinuationRequests

/-!
# The text of a response

What the model says in a response stands in its text parts, in any number and at any place. Without
a tool call the adapter passes on a message, and it should say all of them in their order; next to
tool calls there is no message, and the next request should quote them.
-/

namespace Liz

open Text (InOrder)

/-! ### Text parts -/

namespace OpenAiStyleAdapter

/-- The texts in the items of a list of outputs. -/
def outputTexts (response : Json) : List String :=
  (response.itemsAt "output").flatMap fun item =>
    (item.itemsAt "content").filterMap (·.textAt "text")

def contentTexts (response : Json) : List String :=
  (response.itemsAt "content").filterMap (·.textAt "text")

/-- The content of a message, one text or several parts. -/
def choiceTexts (choice : Json) : List String :=
  (choice.get? "message").elim [] fun message =>
    (message.textAt "content").toList ++ (message.itemsAt "content").filterMap (·.textAt "text")

def texts (response : Json) : List String :=
  outputTexts response ++ contentTexts response ++
    (response.itemsAt "choices").flatMap choiceTexts ++ response.asStr.toList

/-- The texts at the places that the adapter looks at, one place after the other. -/
def reachedTexts (response : Json) : List String :=
  outputTexts response ++
    ((response.itemsAt "content").head?.bind (·.textAt "text")).toList ++
    ((response.itemsAt "choices").head?.bind fun choice =>
      (choice.get? "message").bind (·.textAt "content")).toList ++
    response.asStr.toList

/-- The adapter takes the first of them. -/
theorem extractOpenAiStyleText_eq (response : Json) :
    extractOpenAiStyleText response = (reachedTexts response).head? := by
  have houtput : ((response.itemsAt "output").findSome? fun item =>
      (item.itemsAt "content").findSome? (·.textAt "text")) = (outputTexts response).head? := by
    unfold outputTexts
    induction response.itemsAt "output" with
    | nil => rfl
    | cons item rest ih =>
        rw [List.findSome?_cons, List.flatMap_cons, List.head?_append, ← ih,
          ← List.head?_filterMap]
        cases (List.filterMap (·.textAt "text") (item.itemsAt "content")).head? <;> rfl
  unfold extractOpenAiStyleText reachedTexts
  rw [houtput, List.head?_append, List.head?_append, List.head?_append, Option.head?_toList,
    Option.head?_toList, Option.head?_toList]
  cases (outputTexts response).head? <;>
    cases (response.itemsAt "content").head?.bind (·.textAt "text") <;>
    cases (response.itemsAt "choices").head?.bind fun choice =>
      (choice.get? "message").bind (·.textAt "content") <;> rfl

/-- What the adapter looks at is among the texts of the response. -/
theorem mem_texts_of_reached {response : Json} {text : String}
    (h : text ∈ reachedTexts response) : text ∈ texts response := by
  simp only [reachedTexts, List.mem_append] at h
  simp only [texts, List.mem_append]
  rcases h with ((houtput | hcontent) | hchoice) | hstring
  · exact .inl (.inl (.inl houtput))
  · obtain ⟨item, hitem, htext⟩ := Option.bind_eq_some_iff.mp (Option.mem_toList.mp hcontent)
    exact .inl (.inl (.inr (List.mem_filterMap.mpr ⟨item, List.mem_of_head? hitem, htext⟩)))
  · obtain ⟨choice, hchoice, htext⟩ := Option.bind_eq_some_iff.mp (Option.mem_toList.mp hchoice)
    obtain ⟨message, hmessage, htext⟩ := Option.bind_eq_some_iff.mp htext
    refine .inl (.inr (List.mem_flatMap.mpr ⟨choice, List.mem_of_head? hchoice, ?_⟩))
    rw [choiceTexts, hmessage]
    exact List.mem_append_left _ (Option.mem_toList.mpr htext)
  · exact .inr hstring

theorem length_withoutBlocks_le (text : List Char) : (withoutBlocks text).length ≤ text.length := by
  fun_induction withoutBlocks text with
  | case1 text hopening => exact Nat.le_refl _
  | case2 text before inside hopening hclosing => exact Nat.le_refl _
  | case3 text before inside hopening block rest hclosing hlt ih => exact ih.trans hlt.le

/-- Cleaning does not make a text longer. -/
theorem length_clean_le (text : String) :
    (cleanStructuredFallbackText text).length ≤ text.length := by
  have htrim := Text.length_trim_le (String.ofList (withoutBlocks text.toList))
  have hblocks := length_withoutBlocks_le text.toList
  rw [String.length_ofList] at htrim
  rw [String.length_toList] at hblocks
  exact htrim.trans hblocks

end OpenAiStyleAdapter

namespace GoogleAdapter

/-- The parts of all candidates. -/
def items (provider : ResolvedProvider) (response : Json) : List Json :=
  if provider.family = .googleVertexAnthropic then anthropicItems response
  else (response.itemsAt "candidates").flatMap googleCandidateItems

/-- The text of the first part. -/
def firstText (provider : ResolvedProvider) (response : Json) : Option String :=
  (if provider.family = .googleVertexAnthropic then anthropicItems response
    else googleItems response).head?.bind (·.textAt "text")

end GoogleAdapter

/-- The texts of a response, empty ones included. -/
def responseTexts (provider : ResolvedProvider) (response : Json) : List String :=
  match provider.family.adapter with
  | .anthropic => (anthropicItems response).filterMap AnthropicAdapter.textOf
  | .bedrock => (bedrockItems response).filterMap (·.textAt "text")
  | .google => (GoogleAdapter.items provider response).filterMap (·.textAt "text")
  | .openAiStyle => OpenAiStyleAdapter.texts response

/-- The texts of a response that say something. -/
def textParts (provider : ResolvedProvider) (response : Json) : List String :=
  (responseTexts provider response).filter (· ≠ "")

/-! ### What becomes of them -/

def GatewayAnswer.assistantMessage (answer : GatewayAnswer) : Option String :=
  match answer.outcome with
  | .ok summary => summary.assistantMessage
  | .error _ => none

/-- Without a tool call, the event and the summary say all parts in their order. -/
def SaysAll (parts : List String) (answer : GatewayAnswer) : Prop :=
  parts = [] ∨
    (∃ message, .assistantMessage message ∈ answer.events ∧ InOrder parts message.toList) ∧
      ∃ message, answer.assistantMessage = some message ∧ InOrder parts message.toList

/-- A text is passed on, or the next request quotes it. -/
def Delivered (answer : GatewayAnswer) (next : List WireEntry) (text : String) : Prop :=
  (∃ message, .assistantMessage message ∈ answer.events ∧ Text.contains message text = true) ∨
    ∃ quoted, .quoted quoted ∈ next ∧ Text.contains quoted text = true

/-- Where the adapter reads the parts of a response without tool calls. -/
def ReadsText (provider : ResolvedProvider) (response : Json) : Prop :=
  match provider.family.adapter with
  | .anthropic | .bedrock => True
  | .google =>
      match GoogleAdapter.firstText provider response with
      | some text => textParts provider response = [] ∨ textParts provider response = [text]
      | none => InOrder (textParts provider response) (responseReceived provider.displayName).toList
  | .openAiStyle =>
      textParts provider response = [] ∨
        ∃ text, textParts provider response = [text] ∧
          (OpenAiStyleAdapter.reachedTexts response).head? = some text ∧
          OpenAiStyleAdapter.cleanStructuredFallbackText text = text

theorem mem_liveAnswer_assistantMessage {displayName : String} {toolCalls : List ProviderToolCall}
    {message said : String} :
    .assistantMessage said ∈ (liveAnswer displayName toolCalls message).events ↔
      toolCalls = [] ∧ said = message := by
  cases toolCalls with
  | nil => simp [liveAnswer, toolCallEvents]
  | cons call rest => simp [liveAnswer, toolCallEvents]

/-- An answer without calls says what its message says. -/
theorem saysAll_liveAnswer {displayName message : String} {toolCalls : List ProviderToolCall}
    (hcalls : (liveAnswer displayName toolCalls message).toolCalls = []) (parts : List String) :
    SaysAll parts (liveAnswer displayName toolCalls message) ↔ InOrder parts message.toList := by
  have hnone : toolCalls = [] := hcalls
  subst hnone
  have hsummary : (liveAnswer displayName [] message).assistantMessage = some message := rfl
  constructor
  · rintro (rfl | ⟨⟨said, hsaid, hparts⟩, -⟩)
    · trivial
    · rwa [(mem_liveAnswer_assistantMessage.mp hsaid).2] at hparts
  · intro hparts
    exact .inr ⟨⟨message, mem_liveAnswer_assistantMessage.mpr ⟨rfl, rfl⟩, hparts⟩,
      message, hsummary, hparts⟩

theorem inOrder_joinedParts (displayName : String) (texts : List String) :
    InOrder (texts.filter (· ≠ "")) (joinedParts displayName texts).toList := by
  unfold joinedParts
  split
  next hempty =>
    rw [List.isEmpty_iff.mp hempty]
    trivial
  next => exact (Text.inOrder_join texts "\n").sublist List.filter_sublist

theorem textParts_ne (provider : ResolvedProvider) (response : Json) :
    ∀ part ∈ textParts provider response, part ≠ "" := by
  intro part hpart
  simpa using (List.mem_filter.mp hpart).2

/-- Of the parts of a Google response the message says the first one. -/
theorem inOrder_extractGoogleText_iff (provider : ResolvedProvider)
    (hadapter : provider.family.adapter = .google) (response : Json) :
    InOrder (textParts provider response)
        (GoogleAdapter.extractGoogleText provider response).toList ↔
      match GoogleAdapter.firstText provider response with
      | some text => textParts provider response = [] ∨ textParts provider response = [text]
      | none =>
          InOrder (textParts provider response) (responseReceived provider.displayName).toList := by
  have htext : GoogleAdapter.extractGoogleText provider response =
      (GoogleAdapter.firstText provider response).getD (responseReceived provider.displayName) := rfl
  rw [htext]
  cases hfirst : GoogleAdapter.firstText provider response with
  | none => rfl
  | some text =>
      dsimp only [Option.getD_some]
      by_cases hempty : text = ""
      · subst hempty
        rw [String.toList_empty, Text.inOrder_nil (textParts_ne provider response)]
        constructor
        · exact .inl
        · rintro (hnil | hsingle)
          · exact hnil
          · exact absurd rfl (textParts_ne provider response "" (by rw [hsingle]; exact List.mem_cons_self))
      · have hmem : text ∈ textParts provider response := by
          refine List.mem_filter.mpr ⟨?_, by simpa using hempty⟩
          unfold responseTexts
          rw [hadapter]
          obtain ⟨item, hitem, htext⟩ := Option.bind_eq_some_iff.mp hfirst
          refine List.mem_filterMap.mpr ⟨item, ?_, htext⟩
          have hhead := List.mem_of_head? hitem
          unfold GoogleAdapter.items
          by_cases hfamily : provider.family = .googleVertexAnthropic
          · rwa [if_pos hfamily] at hhead ⊢
          · rw [if_neg hfamily] at hhead ⊢
            unfold googleItems at hhead
            cases hcandidates : response.itemsAt "candidates" with
            | nil =>
                rw [hcandidates] at hhead
                exact absurd hhead List.not_mem_nil
            | cons candidate rest =>
                rw [hcandidates] at hhead
                exact List.mem_append_left _ hhead
        rw [Text.inOrder_iff_of_mem (textParts_ne provider response) hmem (Nat.le_refl _)]
        constructor
        · exact fun h => .inr h.1
        · rintro (hnil | hsingle)
          · rw [hnil] at hmem
            exact absurd hmem List.not_mem_nil
          · exact ⟨hsingle, rfl⟩

section Live

variable [JsonText]

/-- The text of a response is not lost. -/
def KeepsText (provider : ResolvedProvider) (surface : ToolSurfaceSpec) (response : Json)
    (next : List WireEntry) : Prop :=
  if (liveTurn provider surface response).toolCalls = [] then
    SaysAll (textParts provider response) (liveTurn provider surface response)
  else
    ∀ text ∈ textParts provider response,
      Delivered (liveTurn provider surface response) next text

namespace OpenAiStyleAdapter

/-- Without calls the adapter passes its message on if it is not blank. -/
theorem saysAll_live_iff {provider : ResolvedProvider} {surface : ToolSurfaceSpec}
    {response : Json} (hcalls : (live provider surface response).toolCalls = [])
    (parts : List String) :
    let message := cleanStructuredFallbackText ((extractOpenAiStyleText response).getD "")
    SaysAll parts (live provider surface response) ↔
      parts = [] ∨ Text.isBlank message = false ∧ InOrder parts message.toList := by
  dsimp only
  have hparsed : parseProviderToolCalls provider surface response
      ((extractOpenAiStyleText response).getD "") = [] := hcalls
  unfold SaysAll GatewayAnswer.assistantMessage live
  dsimp only
  rw [hparsed]
  cases hblank : Text.isBlank
      (cleanStructuredFallbackText ((extractOpenAiStyleText response).getD "")) with
  | true => simp [toolCallEvents]
  | false => simp [toolCallEvents]

omit [JsonText] in
theorem trim_clean (text : String) :
    Text.trim (cleanStructuredFallbackText text) = cleanStructuredFallbackText text :=
  Text.trim_trim _

omit [JsonText] in
theorem inOrder_clean_iff (provider : ResolvedProvider)
    (hadapter : provider.family.adapter = .openAiStyle) (response : Json) :
    let message := cleanStructuredFallbackText ((extractOpenAiStyleText response).getD "")
    (textParts provider response = [] ∨
        Text.isBlank message = false ∧ InOrder (textParts provider response) message.toList) ↔
      textParts provider response = [] ∨ ∃ text, textParts provider response = [text] ∧
        (reachedTexts response).head? = some text ∧ cleanStructuredFallbackText text = text := by
  dsimp only
  rw [extractOpenAiStyleText_eq]
  apply or_congr_right'
  intro hparts
  constructor
  · rintro ⟨hblank, hinOrder⟩
    cases hfirst : (reachedTexts response).head? with
    | none =>
        rw [hfirst] at hblank
        exact absurd hblank (by decide +kernel)
    | some text =>
        rw [hfirst, Option.getD_some] at hblank hinOrder
        have hne : text ≠ "" := by
          rintro rfl
          exact absurd hblank (by decide +kernel)
        have hmem : text ∈ textParts provider response := by
          refine List.mem_filter.mpr ⟨?_, by simpa using hne⟩
          unfold responseTexts
          rw [hadapter]
          exact mem_texts_of_reached (List.mem_of_head? hfirst)
        rw [Text.inOrder_iff_of_mem (textParts_ne provider response) hmem (length_clean_le text)]
          at hinOrder
        exact ⟨text, hinOrder.1, rfl, hinOrder.2⟩
  · rintro ⟨text, hsingle, hfirst, hclean⟩
    rw [hfirst, Option.getD_some, hclean, hsingle]
    refine ⟨?_, Text.inOrder_self text⟩
    have htrim := trim_clean text
    rw [hclean] at htrim
    rw [Text.isBlank, htrim, Bool.eq_false_iff, Ne, String.isEmpty_iff]
    exact textParts_ne provider response text (by rw [hsingle]; exact List.mem_cons_self)

end OpenAiStyleAdapter

/-- A response without tool calls is told completely if its parts are where they are read. -/
theorem saysAll_iff {provider : ResolvedProvider} {surface : ToolSurfaceSpec} {response : Json}
    (hcalls : (liveTurn provider surface response).toolCalls = []) :
    SaysAll (textParts provider response) (liveTurn provider surface response) ↔
      ReadsText provider response := by
  unfold ReadsText
  unfold liveTurn at hcalls ⊢
  cases hadapter : provider.family.adapter with
  | anthropic =>
      rw [hadapter] at hcalls
      have hparts : textParts provider response =
          ((anthropicItems response).filterMap AnthropicAdapter.textOf).filter (· ≠ "") := by
        rw [textParts, responseTexts, hadapter]
      rw [hparts]
      exact iff_of_true ((saysAll_liveAnswer hcalls _).mpr (inOrder_joinedParts _ _)) trivial
  | bedrock =>
      rw [hadapter] at hcalls
      have hparts : textParts provider response =
          ((bedrockItems response).filterMap (Json.textAt · "text")).filter (· ≠ "") := by
        rw [textParts, responseTexts, hadapter]
      rw [hparts]
      exact iff_of_true ((saysAll_liveAnswer hcalls _).mpr (inOrder_joinedParts _ _)) trivial
  | google =>
      rw [hadapter] at hcalls
      exact (saysAll_liveAnswer hcalls _).trans
        (inOrder_extractGoogleText_iff provider hadapter response)
  | openAiStyle =>
      rw [hadapter] at hcalls
      exact (OpenAiStyleAdapter.saysAll_live_iff hcalls _).trans
        (OpenAiStyleAdapter.inOrder_clean_iff provider hadapter response)

/-- Next to tool calls no message is passed on. -/
theorem no_message_of_calls {provider : ResolvedProvider} {surface : ToolSurfaceSpec}
    {response : Json} (hcalls : (liveTurn provider surface response).toolCalls ≠ [])
    (message : String) :
    .assistantMessage message ∉ (liveTurn provider surface response).events := by
  unfold liveTurn at hcalls ⊢
  cases hadapter : provider.family.adapter with
  | anthropic =>
      rw [hadapter] at hcalls
      exact fun hmem => hcalls (mem_liveAnswer_assistantMessage.mp hmem).1
  | bedrock =>
      rw [hadapter] at hcalls
      exact fun hmem => hcalls (mem_liveAnswer_assistantMessage.mp hmem).1
  | google =>
      rw [hadapter] at hcalls
      exact fun hmem => hcalls (mem_liveAnswer_assistantMessage.mp hmem).1
  | openAiStyle =>
      rw [hadapter] at hcalls
      have hparsed : OpenAiStyleAdapter.parseProviderToolCalls provider surface response
          ((OpenAiStyleAdapter.extractOpenAiStyleText response).getD "") ≠ [] := hcalls
      have hempty := List.isEmpty_eq_false_iff.mpr hparsed
      simp [OpenAiStyleAdapter.live, toolCallEvents, hempty]

/-- No request quotes the model. -/
theorem not_quoted (provider : ResolvedProvider) (cacheEphemeral : Bool) (surface : ToolSurfaceSpec)
    (request : ModelTurnRequest) (text : String) :
    .quoted text ∉ conversation provider cacheEphemeral surface request := by
  rw [conversation_eq]
  split <;> simp

/-- The text of a response is kept exactly when it has no tool call and its parts are where the
adapter reads them, or it has no text. -/
theorem text_kept_iff (provider : ResolvedProvider) (cacheEphemeral : Bool)
    (surface : ToolSurfaceSpec) (response : Json) (next : ModelTurnRequest) :
    KeepsText provider surface response (conversation provider cacheEphemeral surface next) ↔
      if (markedCalls provider surface response).calls surface = [] then ReadsText provider response
      else textParts provider response = [] := by
  rw [← liveTurn_toolCalls]
  unfold KeepsText
  by_cases hcalls : (liveTurn provider surface response).toolCalls = []
  · rw [if_pos hcalls, if_pos hcalls]
    exact saysAll_iff hcalls
  · rw [if_neg hcalls, if_neg hcalls]
    have hlost : ∀ text, ¬ Delivered (liveTurn provider surface response)
        (conversation provider cacheEphemeral surface next) text := by
      rintro text (⟨message, hmem, -⟩ | ⟨quoted, hmem, -⟩)
      · exact no_message_of_calls hcalls message hmem
      · exact not_quoted provider cacheEphemeral surface next quoted hmem
    rw [List.eq_nil_iff_forall_not_mem]
    exact forall_congr' fun text => imp_congr_right fun _ => iff_of_false (hlost text) id

end Live

/-! ### Two text parts -/

/-- A response that says its text in two parts. -/
def twoParts : Json :=
  .object [("candidates", .array [.object [("content", .object [("parts", .array
    [.object [("text", .string "The file is gone. ")],
      .object [("text", .string "Restore it first.")]])])]])]

/-- The second part is neither in the event nor in the summary. -/
theorem second_part_lost :
    ¬ @KeepsText noJson ModelProviderFamily.googleGenerativeAi.provider (.standard .native) twoParts
      (@conversation noJson ModelProviderFamily.googleGenerativeAi.provider true (.standard .native)
        (baseRequestFor workspaceThread firstTurn "" "" "")) := by
  have hcalls : (@liveTurn noJson ModelProviderFamily.googleGenerativeAi.provider
      (.standard .native) twoParts).toolCalls = [] := rfl
  have hparts : textParts ModelProviderFamily.googleGenerativeAi.provider twoParts =
      ["The file is gone. ", "Restore it first."] := by decide +kernel
  unfold KeepsText
  rw [if_pos hcalls, @saysAll_iff noJson _ _ _ hcalls]
  intro hreads
  have hfirst : textParts ModelProviderFamily.googleGenerativeAi.provider twoParts = [] ∨
      textParts ModelProviderFamily.googleGenerativeAi.provider twoParts =
        ["The file is gone. "] := hreads
  rw [hparts] at hfirst
  exact absurd hfirst (by decide)

end Liz
