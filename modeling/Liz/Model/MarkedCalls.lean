import Liz.Model.Adapters

/-!
# The items that mark a tool call

A response marks items as tool calls in one list or in several. An adapter looks at some of these
lists, one after the other, and takes what it can read of the first in which it can read something;
the rest of the response it does not look at.
-/

namespace Liz

/-- An item that a format marks as a tool call, with its place in the list. -/
structure MarkedCall where
  format : ToolCallFormat
  index : Nat
  carrier : Json

namespace MarkedCall

/-- The identifier that the provider gave to the call. -/
def issuedId (marked : MarkedCall) : Option String := marked.format.issuedId marked.carrier

def callId (marked : MarkedCall) : String :=
  marked.issuedId.getD (marked.format.madeUpId marked.index)

def providerToolName (marked : MarkedCall) : Option String :=
  marked.format.providerToolName marked.carrier

/-- The tool that its name stands for. -/
def toolName (surface : ToolSurfaceSpec) (marked : MarkedCall) : Option String :=
  marked.providerToolName.bind (marked.format.canonicalName surface)

def arguments (marked : MarkedCall) : Option Json := marked.format.arguments marked.carrier

/-- Its tool is known and its arguments can be read. -/
def WellFormed (surface : ToolSurfaceSpec) (marked : MarkedCall) : Prop :=
  (marked.toolName surface).isSome = true ∧ marked.arguments.isSome = true

instance (surface : ToolSurfaceSpec) (marked : MarkedCall) : Decidable (marked.WellFormed surface) :=
  inferInstanceAs (Decidable (_ ∧ _))

/-- The call that the item becomes. -/
def call (surface : ToolSurfaceSpec) (marked : MarkedCall) : Option ProviderToolCall := do
  let providerToolName ← marked.providerToolName
  let toolName ← marked.format.canonicalName surface providerToolName
  let arguments ← marked.arguments
  some
    { callId := marked.callId
      toolName := toolName
      providerToolName := providerToolName
      arguments := arguments }

variable {surface : ToolSurfaceSpec} {marked : MarkedCall}

theorem isSome_call : (marked.call surface).isSome = true ↔ marked.WellFormed surface := by
  unfold call WellFormed toolName
  cases marked.providerToolName with
  | none => simp
  | some name =>
      cases hname : marked.format.canonicalName surface name with
      | none => simp [hname]
      | some toolName => cases marked.arguments <;> simp [hname]

/-- The call has the identifier and the name of the item. -/
theorem of_call {call : ProviderToolCall} (h : marked.call surface = some call) :
    call.callId = marked.callId ∧ marked.providerToolName = some call.providerToolName := by
  simp only [MarkedCall.call, Option.bind_eq_bind, Option.bind_eq_some_iff, Option.some.injEq] at h
  obtain ⟨name, hname, toolName, _, arguments, _, rfl⟩ := h
  exact ⟨rfl, hname⟩

end MarkedCall

/-- The items that the format marks. -/
def ToolCallFormat.marked (format : ToolCallFormat) (items : List Json) : List MarkedCall :=
  items.zipIdx.filterMap fun (item, index) =>
    (format.carrier item).map fun carrier => ⟨format, index, carrier⟩

/-- The calls of a list come from its marked items. -/
theorem ToolCallFormat.calls_eq (format : ToolCallFormat) (surface : ToolSurfaceSpec)
    (items : List Json) :
    format.calls surface items = (format.marked items).filterMap (MarkedCall.call surface) := by
  rw [ToolCallFormat.marked, List.filterMap_filterMap]
  apply List.filterMap_congr
  intro (item, index) _
  show format.call surface index item =
    ((format.carrier item).map fun carrier => (⟨format, index, carrier⟩ : MarkedCall)).bind
      (MarkedCall.call surface)
  unfold ToolCallFormat.call
  cases format.carrier item with
  | none => rfl
  | some carrier => rfl

section Structured

variable [JsonText]

/-- What a block says; a block that is no JSON says nothing. -/
def blockValue (block : List Char) : Json :=
  (Json.ofText? (Text.trim (String.ofList block))).getD .null

/-- Every block between the tags marks a call. -/
def markedBlocks (responseText : String) : List MarkedCall :=
  structuredFormat.marked ((structuredBlocks responseText.toList).map blockValue)

omit [JsonText] in
/-- The place of a block does not matter. -/
theorem structuredFormat_calls (surface : ToolSurfaceSpec) (items : List Json) :
    structuredFormat.calls surface items = items.filterMap (structuredFormat.call surface 0) := by
  have hfst : items.zipIdx.map Prod.fst = items := List.zipIdx_map_fst 0 items
  conv_rhs => rw [← hfst, List.filterMap_map]
  rfl

theorem parseStructuredFallbackToolCalls_eq (responseText : String) (surface : ToolSurfaceSpec) :
    parseStructuredFallbackToolCalls responseText surface =
      (markedBlocks responseText).filterMap (MarkedCall.call surface) := by
  rw [parseStructuredFallbackToolCalls, markedBlocks, ← ToolCallFormat.calls_eq,
    structuredFormat_calls, structuredFormat_calls, List.filterMap_filterMap, List.filterMap_map]
  apply List.filterMap_congr
  intro block _
  show (Json.ofText? (Text.trim (String.ofList block))).bind (structuredFormat.call surface 0) =
    structuredFormat.call surface 0
      ((Json.ofText? (Text.trim (String.ofList block))).getD .null)
  cases Json.ofText? (Text.trim (String.ofList block)) with
  | none => rfl
  | some value => rfl

end Structured

/-! ### The lists of a response -/

/-- What a response marks: in the lists that the adapter looks at, in their order, and elsewhere. -/
structure MarkedCalls where
  read : List (List MarkedCall)
  unread : List MarkedCall

namespace MarkedCalls

def all (marked : MarkedCalls) : List MarkedCall := marked.read.flatten ++ marked.unread

/-- The items that become calls: those of the first list that has one. -/
def chosen (surface : ToolSurfaceSpec) (marked : MarkedCalls) : List MarkedCall :=
  ((marked.read.map (List.filter fun item => (item.call surface).isSome)).find?
    (!·.isEmpty)).getD []

/-- The calls of the chosen items. -/
def calls (surface : ToolSurfaceSpec) (marked : MarkedCalls) : List ProviderToolCall :=
  (marked.chosen surface).filterMap (MarkedCall.call surface)

theorem calls_nil (surface : ToolSurfaceSpec) (unread : List MarkedCall) :
    calls surface ⟨[], unread⟩ = [] := rfl

/-- The next list is looked at when the first gives no calls. -/
theorem calls_cons (surface : ToolSurfaceSpec) (list : List MarkedCall)
    (rest : List (List MarkedCall)) (unread : List MarkedCall) :
    calls surface ⟨list :: rest, unread⟩ =
      if (list.filterMap (MarkedCall.call surface)).isEmpty then calls surface ⟨rest, unread⟩
      else list.filterMap (MarkedCall.call surface) := by
  have hfiltered : (list.filter fun item => (item.call surface).isSome).filterMap
      (MarkedCall.call surface) = list.filterMap (MarkedCall.call surface) := by
    rw [List.filterMap_filter]
    apply List.filterMap_congr
    intro item _
    cases item.call surface <;> rfl
  unfold calls chosen
  rw [List.map_cons, List.find?_cons]
  cases hread : list.filter fun item => (item.call surface).isSome with
  | nil =>
      rw [hread] at hfiltered
      simp [← hfiltered]
  | cons item items =>
      rw [hread] at hfiltered
      have hne : list.filterMap (MarkedCall.call surface) ≠ [] := by
        intro hnil
        have hitem : item ∈ list.filter fun item => (item.call surface).isSome := by
          rw [hread]
          exact List.mem_cons_self
        obtain ⟨hmem, hsome⟩ := List.mem_filter.mp hitem
        have hnone := List.filterMap_eq_nil_iff.mp hnil item hmem
        rw [hnone] at hsome
        exact absurd hsome (by decide)
      simp [hfiltered, hne]

end MarkedCalls

section Responses

variable [JsonText] (provider : ResolvedProvider) (surface : ToolSurfaceSpec) (response : Json)

def AnthropicAdapter.markedCalls : MarkedCalls :=
  { read := [anthropicFormat.marked (anthropicItems response)], unread := [] }

def AwsBedrockAdapter.markedCalls : MarkedCalls :=
  { read := [bedrockFormat.marked (bedrockItems response)], unread := [] }

/-- Candidates behind the first one are not looked at. -/
def GoogleAdapter.markedCalls : MarkedCalls :=
  { read :=
      googleFormat.marked (googleItems response) ::
        if provider.family = .googleVertexAnthropic then
          [googleAnthropicFormat.marked (anthropicItems response)]
        else []
    unread :=
      googleFormat.marked ((response.itemsAt "candidates").tail.flatMap googleCandidateItems) }

/-- The lists of the native protocol. -/
def OpenAiStyleAdapter.nativeLists : List (List MarkedCall) :=
  [openAiNativeFormat.marked (openAiNativeItems response), chatFormat.marked (chatItems response)] ++
    if OpenAiStyleAdapter.copilotUsesAnthropicMessagesModel provider.modelId then
      [anthropicMessageFormat.marked (anthropicItems response)]
    else []

/-- Choices behind the first one are not looked at, and the fallback protocol looks at the text
only. -/
def OpenAiStyleAdapter.markedCalls : MarkedCalls :=
  let later := chatFormat.marked ((response.itemsAt "choices").tail.flatMap chatChoiceItems)
  let native := OpenAiStyleAdapter.nativeLists provider response
  if surface.protocol = .structuredFallback then
    { read := [markedBlocks ((OpenAiStyleAdapter.extractOpenAiStyleText response).getD "")]
      unread := native.flatten ++ later }
  else { read := native, unread := later }

/-- What a response of the provider marks. -/
def markedCalls : MarkedCalls :=
  match provider.family.adapter with
  | .anthropic => AnthropicAdapter.markedCalls response
  | .bedrock => AwsBedrockAdapter.markedCalls response
  | .google => GoogleAdapter.markedCalls provider response
  | .openAiStyle => OpenAiStyleAdapter.markedCalls provider surface response

/-- An adapter finds the calls of the chosen items. -/
theorem liveTurn_toolCalls :
    (liveTurn provider surface response).toolCalls =
      (markedCalls provider surface response).calls surface := by
  have hsingle : ∀ (list unread : List MarkedCall), MarkedCalls.calls surface ⟨[list], unread⟩ =
      list.filterMap (MarkedCall.call surface) := by
    intro list unread
    rw [MarkedCalls.calls_cons, MarkedCalls.calls_nil]
    split
    next hempty => exact (List.isEmpty_iff.mp hempty).symm
    next => rfl
  unfold liveTurn markedCalls
  cases provider.family.adapter with
  | anthropic =>
      show parseAnthropicToolUses response surface = _
      rw [AnthropicAdapter.markedCalls, hsingle, ← ToolCallFormat.calls_eq]
      rfl
  | bedrock =>
      show parseBedrockToolUses response surface = _
      rw [AwsBedrockAdapter.markedCalls, hsingle, ← ToolCallFormat.calls_eq]
      rfl
  | google =>
      show GoogleAdapter.parseToolCalls provider surface response = _
      unfold GoogleAdapter.parseToolCalls GoogleAdapter.markedCalls parseGoogleToolCalls
        parseGoogleAnthropicToolCalls
      simp only [ToolCallFormat.calls_eq, MarkedCalls.calls_cons]
      by_cases hfamily : provider.family = .googleVertexAnthropic
      · simp only [hfamily, if_true, and_true, hsingle]
      · simp only [hfamily, if_false, and_false, MarkedCalls.calls_nil]
        split
        next hempty => exact List.isEmpty_iff.mp hempty
        next => rfl
  | openAiStyle =>
      show OpenAiStyleAdapter.parseProviderToolCalls provider surface response _ = _
      unfold OpenAiStyleAdapter.parseProviderToolCalls OpenAiStyleAdapter.markedCalls
      by_cases hprotocol : surface.protocol = .structuredFallback
      · simp only [hprotocol, if_true, hsingle, parseStructuredFallbackToolCalls_eq]
      · simp only [hprotocol, if_false]
        unfold OpenAiStyleAdapter.nativeLists parseOpenAiNativeToolCallsFromResponse
          parseChatToolCallsFromResponse parseAnthropicToolCallsFromResponse
        simp only [ToolCallFormat.calls_eq, List.cons_append, List.nil_append,
          MarkedCalls.calls_cons]
        generalize (openAiNativeFormat.marked (openAiNativeItems response)).filterMap
          (MarkedCall.call surface) = native
        generalize (chatFormat.marked (chatItems response)).filterMap (MarkedCall.call surface) = chat
        cases OpenAiStyleAdapter.copilotUsesAnthropicMessagesModel provider.modelId with
        | true =>
            rw [if_pos rfl, hsingle]
            cases native <;> cases chat <;> rfl
        | false =>
            rw [if_neg Bool.false_ne_true, MarkedCalls.calls_nil]
            cases native <;> cases chat <;> rfl

end Responses

end Liz
