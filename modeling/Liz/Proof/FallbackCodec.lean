import Liz.Model.MarkedCalls
import Liz.Proof.JsonTexts

/-!
# Tool calls in the text of an answer

An answer of the fallback protocol is prose with calls between tags. The calls are read back as long
as no text in a call has the closing tag; a call that has it is lost, and nothing else is read
instead of it. What the user sees is the prose as long as the fragments do not form a tag
where a call has stood between them.
-/

namespace Liz

open Text (Tags)

/-- A call of a tool that the surface knows, with the identifier if it has one. -/
structure FallbackCall (surface : ToolSurfaceSpec) where
  callId : Option String
  providerToolName : String
  toolName : String
  arguments : Json
  known : normalizeToolName surface providerToolName = some toolName

namespace FallbackCall

variable {surface : ToolSurfaceSpec}

/-- The call as JSON. -/
def written (call : FallbackCall surface) : Json :=
  .object ([("arguments", call.arguments)] ++
    (call.callId.map fun callId => ("call_id", Json.string callId)).toList ++
    [("tool_name", .string call.providerToolName)])

def asCall (call : FallbackCall surface) : ProviderToolCall :=
  { callId := call.callId.getD "call_structured"
    toolName := call.toolName
    providerToolName := call.providerToolName
    arguments := call.arguments }

theorem call_written (call : FallbackCall surface) :
    structuredFormat.call surface 0 call.written = some call.asCall := by
  have hfields : call.written.textAt "call_id" = call.callId ∧
      call.written.textAt "tool_name" = some call.providerToolName ∧
      call.written.get? "arguments" = some call.arguments := by
    rw [written]
    cases call.callId <;> exact ⟨rfl, rfl, rfl⟩
  obtain ⟨hcallId, hname, harguments⟩ := hfields
  simp [ToolCallFormat.call, structuredFormat, hcallId, hname, harguments, call.known, asCall]

theorem trim_render_written (call : FallbackCall surface) :
    Text.trim call.written.render = call.written.render := by
  have htext : call.written.render.toList = '\x7b' :: (_ ++ ['\x7d']) := Json.toList_render _
  exact Text.trim_enclosed htext (by decide) (by decide)

end FallbackCall

/-- An answer: prose, and behind it calls with prose behind each of them. -/
def fallbackText {surface : ToolSurfaceSpec} (first : String) :
    List (FallbackCall surface × String) → String
  | [] => first
  | (call, prose) :: rest =>
      first ++ "<liz_tool_call>" ++ call.written.render ++ "</liz_tool_call>" ++
        fallbackText prose rest

/-- What the parser takes from a block. -/
def readCall [JsonText] (surface : ToolSurfaceSpec) (block : List Char) : Option ProviderToolCall :=
  (Json.ofText? (Text.trim (String.ofList block))).bind (structuredFormat.call surface 0)

/-! ### Prose -/

/-- A text with neither tag. -/
def Tagless (text : String) : Prop :=
  ¬ callTags.opening <:+: text.toList ∧ ¬ callTags.closing <:+: text.toList

instance (text : String) : Decidable (Tagless text) := inferInstanceAs (Decidable (_ ∧ _))

/-- Without the calls, the fragments in front of the last one form no opening tag, and all of them
no block. -/
def StaysApart (first : String) (fragments : List String) : Prop :=
  ¬ callTags.opening <:+: (String.join (first :: fragments).dropLast).toList ∧
    ¬ ∃ before block rest,
      (String.join (first :: fragments)).toList = before ++ (callTags.wrap block ++ rest)

section Pieces

variable {surface : ToolSurfaceSpec} {first : String}
  {pieces : List (FallbackCall surface × String)}

def asPiece (piece : FallbackCall surface × String) : List Char × List Char :=
  (piece.1.written.render.toList, piece.2.toList)

theorem toList_fallbackText :
    (fallbackText first pieces).toList = callTags.assemble first.toList (pieces.map asPiece) := by
  induction pieces generalizing first with
  | nil => rfl
  | cons piece rest ih =>
      rw [fallbackText]
      simp only [String.toList_append, ih, List.map_cons, Tags.assemble, asPiece, Tags.wrap_append,
        List.append_assoc]
      rfl

theorem proseOf_asPiece :
    Tags.proseOf first.toList (pieces.map asPiece) =
      (String.join (first :: pieces.map Prod.snd)).toList := by
  simp [Tags.proseOf, String.toList_join, asPiece, List.flatMap_def, Function.comp_def]

theorem staysApart_iff :
    StaysApart first (pieces.map Prod.snd) ↔ callTags.Loose first.toList (pieces.map asPiece) := by
  have hfront : (first.toList :: (pieces.map asPiece).map Prod.snd).dropLast.flatten =
      (String.join (first :: pieces.map Prod.snd).dropLast).toList := by
    rw [String.toList_join, List.flatMap_def, List.map_dropLast, List.map_cons, List.map_map,
      List.map_map]
    rfl
  rw [StaysApart, Tags.Loose, Tags.blocks_eq_nil_iff, proseOf_asPiece, hfront]

theorem closing_infix_written_iff (call : FallbackCall surface) :
    callTags.closing <:+: call.written.render.toList ↔ call.written.Mentions callTags.closing :=
  @Json.infix_render_iff "/liz_tool_call>".toList (Json.unescaped_of_all (by decide)) call.written

/-- What is left of an answer without the calls is the prose if and only if it stays apart. -/
theorem clean_fallbackText_iff
    (hcalls : ∀ piece ∈ pieces, ¬ piece.1.written.Mentions callTags.closing) :
    OpenAiStyleAdapter.cleanStructuredFallbackText (fallbackText first pieces) =
        Text.trim (String.join (first :: pieces.map Prod.snd)) ↔
      StaysApart first (pieces.map Prod.snd) := by
  have hblocks : ∀ piece ∈ pieces.map asPiece, ¬ callTags.closing <:+: piece.1 := by
    intro piece hpiece
    obtain ⟨source, hsource, rfl⟩ := List.mem_map.mp hpiece
    exact fun hfound => hcalls source hsource ((closing_infix_written_iff source.1).mp hfound)
  rw [OpenAiStyleAdapter.cleanStructuredFallbackText, OpenAiStyleAdapter.withoutBlocks_eq, toList_fallbackText,
    staysApart_iff]
  rcases @Tags.without_assemble callTags first.toList _ hblocks (fun c => !Text.isWhitespace c)
    (by decide) with ⟨hloose, heq⟩ | ⟨hloose, hless⟩
  · rw [heq, proseOf_asPiece, String.ofList_toList]
    exact iff_of_true rfl hloose
  · refine iff_of_false (fun htrim => ?_) hloose
    have hcount := congrArg (fun text : String => text.toList.countP fun c => !Text.isWhitespace c)
      htrim
    have hspace : ∀ c, Text.isWhitespace c = true → (!Text.isWhitespace c) = false := by simp
    rw [proseOf_asPiece] at hless
    simp only [Text.countP_trim hspace, String.toList_ofList] at hcount
    omega

end Pieces

/-! ### Parsing -/

theorem foreign_callTags : Quoting.Foreign Json.bareChar callTags :=
  ⟨by decide, by decide, by decide⟩

section Parsing

variable [JsonText] {surface : ToolSurfaceSpec} {first : String}
  {pieces : List (FallbackCall surface × String)}

theorem parse_eq (text : String) :
    parseStructuredFallbackToolCalls text surface =
      (callTags.blocks text.toList).filterMap (readCall surface) := by
  rw [parseStructuredFallbackToolCalls, structuredFormat_calls, List.filterMap_filterMap,
    structuredBlocks_eq]
  rfl

/-- A cut piece names no tool. -/
theorem readCall_cut (hgrammar : Json.FollowsGrammar) {block : List Char}
    (hcut : Quoting.Cut Json.bareChar block) : readCall surface block = none := by
  rw [← String.toList_ofList (l := block)] at hcut
  rw [readCall]
  cases hvalue : Json.ofText? (Text.trim (String.ofList block)) with
  | none => rfl
  | some value =>
      have hname : value.get? "tool_name" = none :=
        hgrammar.get?_of_cut hcut.trim hvalue (c := '_') (by decide) (by decide)
      simp [ToolCallFormat.call, structuredFormat, Json.textAt, hname]

theorem readCall_written {call : FallbackCall surface}
    (hdecodes : Json.ofText? call.written.render = some call.written) :
    readCall surface call.written.render.toList = some call.asCall := by
  rw [readCall, String.ofList_toList, call.trim_render_written, hdecodes]
  exact call.call_written

/-- The calls without the closing tag are read, in their order, and nothing else is. -/
theorem parse_fallbackText (hgrammar : Json.FollowsGrammar)
    (hdecodes : ∀ piece ∈ pieces, Json.ofText? piece.1.written.render = some piece.1.written)
    (hfirst : Tagless first) (hprose : ∀ piece ∈ pieces, Tagless piece.2) :
    parseStructuredFallbackToolCalls (fallbackText first pieces) surface =
      (pieces.filter fun piece => ¬ piece.1.written.Mentions callTags.closing).map
        (·.1.asCall) := by
  have hlexed : ∀ piece ∈ pieces.map asPiece,
      (Quoting.lex Json.bareChar .outside piece.1).isSome := by
    intro piece hpiece
    obtain ⟨source, hsource, rfl⟩ := List.mem_map.mp hpiece
    exact Option.isSome_of_eq_some (hgrammar.lexed _ _ (hdecodes source hsource))
  have hfragments : ∀ piece ∈ pieces.map asPiece, ¬ callTags.opening <:+: piece.2 := by
    intro piece hpiece
    obtain ⟨source, hsource, rfl⟩ := List.mem_map.mp hpiece
    exact (hprose source hsource).1
  rw [parse_eq, toList_fallbackText, foreign_callTags.filterMap_blocks_assemble
    (fun _ => readCall_cut hgrammar) hfirst.1 hfragments hlexed, List.map_map, List.filter_map,
    List.filterMap_map, ← List.filterMap_eq_map]
  have hkept : ∀ piece : FallbackCall surface × String,
      ((fun block => decide ¬ callTags.closing <:+: block) ∘ (Prod.fst ∘ asPiece)) piece =
        decide ¬ piece.1.written.Mentions callTags.closing :=
    fun piece => decide_eq_decide.mpr (not_congr (closing_infix_written_iff piece.1))
  rw [List.filter_congr fun piece _ => hkept piece]
  apply List.filterMap_congr
  intro piece hpiece
  exact readCall_written (hdecodes piece (List.mem_of_mem_filter hpiece))

/-- An answer that is put together from prose and calls is read as these calls and cleaned to this
prose if and only if no text in a call has the closing tag and the prose stays apart. -/
theorem fallback_round_trip_iff (hgrammar : Json.FollowsGrammar) (surface : ToolSurfaceSpec)
    (first : String) (pieces : List (FallbackCall surface × String))
    (hdecodes : ∀ piece ∈ pieces, Json.ofText? piece.1.written.render = some piece.1.written)
    (hfirst : Tagless first) (hprose : ∀ piece ∈ pieces, Tagless piece.2) :
    (parseStructuredFallbackToolCalls (fallbackText first pieces) surface =
          pieces.map (·.1.asCall) ∧
        OpenAiStyleAdapter.cleanStructuredFallbackText (fallbackText first pieces) =
          Text.trim (String.join (first :: pieces.map Prod.snd))) ↔
      (∀ piece ∈ pieces, ¬ piece.1.written.Mentions callTags.closing) ∧
        StaysApart first (pieces.map Prod.snd) := by
  have hparsed : parseStructuredFallbackToolCalls (fallbackText first pieces) surface =
      pieces.map (·.1.asCall) ↔ ∀ piece ∈ pieces, ¬ piece.1.written.Mentions callTags.closing := by
    rw [parse_fallbackText hgrammar hdecodes hfirst hprose]
    constructor
    · intro hcalls piece hpiece
      have hlength := congrArg List.length hcalls
      rw [List.length_map, List.length_map, List.length_filter_eq_length_iff] at hlength
      exact of_decide_eq_true (hlength piece hpiece)
    · intro hcalls
      rw [List.filter_eq_self.mpr fun piece hpiece => decide_eq_true (hcalls piece hpiece)]
  rw [hparsed]
  exact and_congr_right clean_fallbackText_iff

end Parsing

/-! ### A search -/

/-- A search for a text, in the root of the workspace. -/
def searchFor (pattern : String) : FallbackCall (.standard .structuredFallback) where
  callId := none
  providerToolName := "workspace_search"
  toolName := "workspace.search"
  arguments := .object [("pattern", .string pattern), ("root", .string ".")]
  known := by decide +kernel

/-- A call without the closing tag is read, and its prose shown. -/
theorem search_round_trip :
    let text := fallbackText "I search." [(searchFor "<p>", "Then I wait.")]
    @parseStructuredFallbackToolCalls (Json.readerOf [(searchFor "<p>").written]) text
          (.standard .structuredFallback) = [(searchFor "<p>").asCall] ∧
      OpenAiStyleAdapter.cleanStructuredFallbackText text =
        Text.trim (String.join ["I search.", "Then I wait."]) := by
  have hapart : StaysApart "I search." ["Then I wait."] := by
    refine ⟨by decide +kernel, ?_⟩
    rw [← Tags.blocks_eq_nil_iff]
    exact Tags.blocks_prose (Json.not_infix_of_not_mem (by decide +kernel))
  refine (@fallback_round_trip_iff (Json.readerOf [(searchFor "<p>").written])
    (Json.followsGrammar_readerOf (by decide +kernel)) (.standard .structuredFallback) "I search."
    [(searchFor "<p>", "Then I wait.")] ?_ (by decide +kernel) (by decide +kernel)).mpr ?_
  · exact List.forall_mem_singleton.mpr (Json.ofText?_readerOf_self rfl _)
  · exact ⟨by decide +kernel, hapart⟩

/-- A search for the closing tag is not read; and fragments that form an opening tag hide what the
model says. -/
theorem search_for_tag_lost :
    let surface := ToolSurfaceSpec.standard .structuredFallback
    let reader := Json.readerOf [(searchFor "</liz_tool_call>").written]
    @Json.FollowsGrammar reader ∧
      @Json.ofText? reader (searchFor "</liz_tool_call>").written.render =
        some (searchFor "</liz_tool_call>").written ∧
      Tagless "" ∧
      @parseStructuredFallbackToolCalls reader
        (fallbackText "" [(searchFor "</liz_tool_call>", "")]) surface = [] ∧
      Tagless "<liz_" ∧ Tagless "tool_call>a" ∧ Tagless "b" ∧
      OpenAiStyleAdapter.cleanStructuredFallbackText
        (fallbackText "<liz_" [(searchFor "p", "tool_call>a"), (searchFor "p", "b")]) ≠
          Text.trim (String.join ["<liz_", "tool_call>a", "b"]) := by
  have hgrammar : @Json.FollowsGrammar (Json.readerOf [(searchFor "</liz_tool_call>").written]) :=
    Json.followsGrammar_readerOf (by decide +kernel)
  have hdecodes := @Json.ofText?_readerOf_self (searchFor "</liz_tool_call>").written rfl []
  have hparsed := @parse_fallbackText (Json.readerOf _) _ "" [(searchFor "</liz_tool_call>", "")]
    hgrammar (List.forall_mem_singleton.mpr hdecodes) (by decide +kernel) (by decide +kernel)
  have hcleaned := @clean_fallbackText_iff _ "<liz_"
    [(searchFor "p", "tool_call>a"), (searchFor "p", "b")] (by decide +kernel)
  refine ⟨hgrammar, hdecodes, by decide +kernel, ?_, by decide +kernel, by decide +kernel,
    by decide +kernel, fun hclean => ?_⟩
  · rw [hparsed]
    decide +kernel
  · exact (hcleaned.mp hclean).1 (by decide +kernel)

end Liz
