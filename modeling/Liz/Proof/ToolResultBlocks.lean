import Liz.Model.RequestBodies
import Liz.Proof.JsonTexts

/-!
# Reading the results of tools back from a prompt

Behind the prompt each result stands between tags as JSON. Whoever cuts the prompt at the tags gets
the results back as long as no text in a result has the closing tag, and the instructions of the
fallback protocol, which name the opening tag, do not stand in front of them.
-/

namespace Liz

open Text (Tags breakChars)

/-- The tags around a result. -/
def resultTags : Tags where
  mark := '<'
  openingTail := "liz_tool_result>".toList
  closingTail := "/liz_tool_result>".toList
  fresh_opening := by decide
  fresh_closing := by decide
  apart := by decide

/-- A result as it is read. -/
structure ReadResult where
  callId : String
  toolName : String
  result : Json
  isError : Bool

def ToolResultInjection.asRead (surface : ToolSurfaceSpec) (injection : ToolResultInjection) :
    ReadResult :=
  { callId := injection.callId
    toolName := injection.aliasIn surface
    result := injection.result
    isError := injection.isError }

section Reader

variable [JsonText]

def readResult (block : List Char) : Option ReadResult := do
  let value ← Json.ofText? (String.ofList block)
  some
    { callId := ← value.textAt "call_id"
      toolName := ← value.textAt "tool_name"
      result := ← value.get? "result"
      isError := ← (value.get? "is_error").bind Json.asBool }

/-- Every block has to be a result. -/
def readResults (prompt : String) : Option (List ReadResult) :=
  (resultTags.blocks prompt.toList).mapM readResult

end Reader

/-- A text with neither tag. -/
def Untagged (text : String) : Prop :=
  ¬ resultTags.opening <:+: text.toList ∧ ¬ resultTags.closing <:+: text.toList

instance (text : String) : Decidable (Untagged text) := inferInstanceAs (Decidable (_ ∧ _))

/-- No text of a result has the closing tag. -/
def Unmarked (rendered : ToolResultInjection → Json) (injections : List ToolResultInjection) :
    Prop :=
  ∀ injection ∈ injections, ¬ (rendered injection).Mentions resultTags.closing

instance (rendered : ToolResultInjection → Json) (injections : List ToolResultInjection) :
    Decidable (Unmarked rendered injections) :=
  inferInstanceAs (Decidable (∀ injection ∈ injections, _))

/-- What has been encoded is decoded. -/
def DecodesBack [JsonText] (rendered : ToolResultInjection → Json)
    (injections : List ToolResultInjection) : Prop :=
  ∀ injection ∈ injections, Json.ofText? (rendered injection).render = some (rendered injection)

section Blocks

variable {rendered : ToolResultInjection → Json} {prompt : String}
  {injections : List ToolResultInjection}

/-- The blocks behind a prompt, each on a new line. -/
def renderedBlocks (rendered : ToolResultInjection → Json)
    (injections : List ToolResultInjection) : List Char :=
  injections.flatMap fun injection =>
    '\n' :: resultTags.wrap (rendered injection).render.toList

theorem toList_promptWithResults (prompt : String) :
    (promptWithResults prompt rendered injections).toList =
      prompt.toList ++ renderedBlocks rendered injections := by
  induction injections generalizing prompt with
  | nil => simp [promptWithResults, renderedBlocks]
  | cons injection rest ih =>
      have hblock : (prompt ++ "\n<liz_tool_result>" ++ (rendered injection).render ++
          "</liz_tool_result>").toList =
          prompt.toList ++ '\n' :: resultTags.wrap (rendered injection).render.toList := by
        simp only [String.toList_append, List.append_assoc]
        rfl
      rw [promptWithResults, List.foldl_cons]
      refine (ih _).trans ?_
      rw [hblock, renderedBlocks, renderedBlocks, List.flatMap_cons, List.append_assoc]

theorem closing_infix_render_iff (value : Json) :
    resultTags.closing <:+: value.render.toList ↔ value.Mentions resultTags.closing :=
  @Json.infix_render_iff "/liz_tool_result>".toList (Json.unescaped_of_all (by decide)) value

theorem foreign_resultTags : Quoting.Foreign Json.bareChar resultTags :=
  ⟨by decide, by decide, by decide⟩

variable [JsonText]

/-- A result that is cut short, at a closing tag in one of its texts, cannot be read. -/
theorem readResult_cut (hgrammar : Json.FollowsGrammar) {block rest : List Char} {value : Json}
    (hvalue : Json.ofText? value.render = some value)
    (hbreak : breakChars resultTags.closing value.render.toList = some (block, rest)) :
    readResult block = none := by
  have hlexed := hgrammar.lexed _ _ hvalue
  rw [Text.eq_append_of_breakChars hbreak, List.append_assoc] at hlexed
  obtain ⟨⟨last, hlast, hlex⟩, -⟩ :=
    foreign_resultTags.around_closing (Option.isSome_of_eq_some hlexed)
  rw [readResult]
  cases hread : Json.ofText? (String.ofList block) with
  | none => rfl
  | some read =>
      have hclosed := hgrammar.lexed _ _ hread
      rw [String.toList_ofList, hlex] at hclosed
      exact absurd (Option.some.inj hclosed) hlast

/-- The results behind a prompt without an opening tag are read back if and only if none of them
mentions the closing tag. -/
theorem mapM_readResult_iff (hgrammar : Json.FollowsGrammar) {asRead : ToolResultInjection → ReadResult}
    (hdecodes : DecodesBack rendered injections)
    (hread : ∀ injection, Json.ofText? (rendered injection).render = some (rendered injection) →
      readResult (rendered injection).render.toList = some (asRead injection))
    {prose : List Char} (hprose : ¬ resultTags.opening <:+: prose) :
    (resultTags.blocks (prose ++ renderedBlocks rendered injections)).mapM readResult =
        some (injections.map asRead) ↔ Unmarked rendered injections := by
  induction injections generalizing prose with
  | nil =>
      rw [renderedBlocks, List.flatMap_nil, List.append_nil, Tags.blocks_prose hprose]
      exact iff_of_true rfl fun _ h => absurd h List.not_mem_nil
  | cons injection rest ih =>
      have hnext : ¬ resultTags.opening <:+: prose ++ '\n' :: [] := by
        rw [Text.infix_append_cons_iff (by decide) (by decide)]
        exact fun h => h.elim hprose (by decide)
      have hblocks : prose ++ renderedBlocks rendered (injection :: rest) =
          (prose ++ '\n' :: []) ++ (resultTags.wrap (rendered injection).render.toList ++
            renderedBlocks rendered rest) := by
        rw [renderedBlocks, List.flatMap_cons, List.append_assoc]
        rfl
      rw [DecodesBack, List.forall_mem_cons] at hdecodes
      rw [hblocks, Unmarked, List.forall_mem_cons, ← closing_infix_render_iff]
      by_cases hmentions : resultTags.closing <:+: (rendered injection).render.toList
      · obtain ⟨block, after, hbreak⟩ := Text.exists_breakChars (by decide) hmentions
        have hcloses : breakChars resultTags.closing ((rendered injection).render.toList ++
            (resultTags.closing ++ renderedBlocks rendered rest)) =
              some (block, after ++ (resultTags.closing ++ renderedBlocks rendered rest)) := by
          rw [Text.eq_append_of_breakChars hbreak, List.append_assoc]
          exact Tags.breakChars_closing (Text.not_infix_of_breakChars (by decide) hbreak) _
        rw [Tags.blocks_of_some (Tags.breakChars_wrap hnext _ _) hcloses, List.mapM_cons,
          readResult_cut hgrammar hdecodes.1 hbreak]
        exact iff_of_false (fun h => by cases h) fun h => h.1 hmentions
      · rw [Tags.blocks_wrap hnext hmentions, List.mapM_cons, hread injection hdecodes.1,
          and_iff_right hmentions, ← Unmarked, ← @ih hdecodes.2 [] (by decide),
          List.nil_append]
        generalize (resultTags.blocks (renderedBlocks rendered rest)).mapM readResult = results
        cases results <;> simp

end Blocks

/-! ### The instructions of the fallback protocol -/

/-- What stands behind the tag that the instructions name: no other tag, and no JSON. -/
def Worded (text : List Char) : Prop := '<' ∉ text ∧ ∃ others, text = ' ' :: 'b' :: others

theorem not_infix_opening {text : List Char} (h : breakChars resultTags.opening text = none) :
    ¬ resultTags.opening <:+: text :=
  (Text.breakChars_eq_none_iff (List.cons_ne_nil _ _)).mp h

theorem not_infix_opening_ofList {text : List Char}
    (h : breakChars resultTags.opening text = none) :
    ¬ resultTags.opening <:+: (String.ofList text).toList := by
  rw [String.toList_ofList]
  exact not_infix_opening h

theorem notMem_ofList {c : Char} {text : List Char} (h : c ∉ text) :
    c ∉ (String.ofList text).toList := by
  rwa [String.toList_ofList]

/-- The instructions for tools name the opening tag in their last line only. -/
theorem exists_instructions_front (protocol : ProviderToolProtocol) :
    ∃ front, (ToolSurfaceSpec.standard protocol).structuredFallbackInstructions =
        Text.join front "\n" ++ "\n" ++
          "Wait for a <liz_tool_result> block before deciding next step or claiming completion." ∧
      ∀ part ∈ front, ¬ resultTags.opening <:+: part.toList := by
  have htools : ¬ (ToolSurfaceSpec.standard protocol).tools.isEmpty = true := by
    simp [ToolSurfaceSpec.standard, toolNamePairs]
  have hnamed : ∀ pair ∈ toolNamePairs, '<' ∉ pair.1.toList ∧ '<' ∉ pair.2.toList := by
    simp only [toolNamePairs, List.forall_mem_cons]
    refine ⟨?_, ?_, ?_, ?_, ?_, ?_, ?_, ?_, ?_, ?_, List.forall_mem_nil _⟩ <;>
      exact ⟨notMem_ofList (by decide), notMem_ofList (by decide)⟩
  rw [ToolSurfaceSpec.structuredFallbackInstructions, if_neg htools, Text.join,
    String.intercalate_append_of_ne_nil (by simp) (List.cons_ne_nil _ _),
    String.intercalate_singleton]
  refine ⟨_, rfl, fun part hpart => ?_⟩
  rcases List.mem_append.mp hpart with hfixed | hlisted
  · simp only [List.mem_cons, List.not_mem_nil, or_false] at hfixed
    rcases hfixed with rfl | rfl | rfl | rfl <;> exact not_infix_opening_ofList (by decide +kernel)
  · obtain ⟨pair, hpair, rfl⟩ := List.mem_map.mp hlisted
    obtain ⟨hcanonical, halias⟩ := hnamed pair (List.mem_mergeSort.mp hpair)
    apply Json.not_infix_of_not_mem
    dsimp only
    simp only [String.toList_append, List.mem_append, not_or]
    exact ⟨⟨⟨⟨by decide, halias⟩, by decide⟩, hcanonical⟩, by decide⟩

/-- What stands in front of the tag that the instructions name has no opening tag. -/
theorem instructions_standard (protocol : ProviderToolProtocol) :
    ∃ front named, ((ToolSurfaceSpec.standard protocol).structuredFallbackInstructions).toList =
        front ++ resultTags.opening ++ named ∧ ¬ resultTags.opening <:+: front ∧ Worded named := by
  obtain ⟨front, hinstructions, hparts⟩ := exists_instructions_front protocol
  have hlast :
      "Wait for a <liz_tool_result> block before deciding next step or claiming completion." =
        "Wait for a " ++ ("<liz_tool_result>" ++
          " block before deciding next step or claiming completion.") := rfl
  refine ⟨(Text.join front "\n").toList ++ '\n' :: "Wait for a ".toList,
    " block before deciding next step or claiming completion.".toList, ?_, ?_, by decide +kernel, _,
    rfl⟩
  · rw [hinstructions, hlast]
    simp only [String.toList_append, List.append_assoc, List.cons_append]
    rfl
  · rw [Text.infix_append_cons_iff (by decide) (by decide)]
    rintro (hfound | hfound)
    · obtain ⟨part, hpart, hfound⟩ :=
        (@Text.infix_join_iff _ '\n' (by decide) (by decide) front).mp hfound
      exact hparts part hpart hfound
    · exact not_infix_opening (by decide) hfound

/-- What stands in front of the instructions has no opening tag if the prompt has none. -/
theorem not_infix_header {prompt : String} {later : List Char} (hprompt : Untagged prompt)
    (hlater : ¬ resultTags.opening <:+: later) :
    ¬ resultTags.opening <:+:
      (prompt ++ "\n\nstructured_tool_protocol:\n").toList ++ later := by
  have hheader : '<' ∉ "\nstructured_tool_protocol:\n".toList := notMem_ofList (by decide)
  have hsplit : (prompt ++ "\n\nstructured_tool_protocol:\n").toList ++ later =
      prompt.toList ++ '\n' :: ("\nstructured_tool_protocol:\n".toList ++ later) := by
    rw [String.toList_append, List.append_assoc]
    rfl
  intro hfound
  rw [hsplit] at hfound
  rcases (Text.infix_append_cons_iff (List.cons_ne_nil _ _) (by decide)).mp hfound with hfound | hfound
  · exact hprompt.1 hfound
  · exact hlater ((Text.infix_append_iff_right hheader).mp hfound)

theorem protocol_forMode (protocol : ProviderToolProtocol) (mode : ToolSurfaceMode) :
    (ToolSurfaceSpec.forMode protocol mode).protocol = protocol := by
  cases mode <;> rfl

theorem instructions_conversationOnly (protocol : ProviderToolProtocol) :
    ¬ resultTags.opening <:+:
      (ToolSurfaceSpec.conversationOnly protocol).structuredFallbackInstructions.toList := by
  have htools : (ToolSurfaceSpec.conversationOnly protocol).tools.isEmpty = true := rfl
  have hfront : '<' ∉ ("No runtime tools are available for this turn. Answer directly in prose " ++
      "and do not emit ").toList := by
    decide +kernel
  rw [ToolSurfaceSpec.structuredFallbackInstructions, if_pos htools, String.toList_append]
  exact fun hfound => not_infix_opening (by decide) ((Text.infix_append_iff_right hfront).mp hfound)

section Claimed

variable [JsonText]

/-- What stands behind the tag that the instructions name is no result, wherever it ends. -/
theorem readResult_worded (hgrammar : Json.FollowsGrammar) {named block inside rest : List Char}
    (hnamed : Worded named)
    (hbreak : breakChars resultTags.closing (named ++ inside) = some (block, rest)) :
    readResult block = none := by
  obtain ⟨-, later, rfl⟩ := hnamed
  have hblock : ∃ others, block = ' ' :: 'b' :: others := by
    have htext := Text.eq_append_of_breakChars hbreak
    rw [List.append_assoc] at htext
    cases block with
    | nil => exact absurd (List.cons.inj htext).1 (by decide)
    | cons first others =>
        obtain ⟨hfirst, hothers⟩ := List.cons.inj htext
        cases others with
        | nil => exact absurd (List.cons.inj hothers).1 (by decide)
        | cons second others =>
            rw [← hfirst, ← (List.cons.inj hothers).1]
            exact ⟨others, rfl⟩
  obtain ⟨others, rfl⟩ := hblock
  rw [readResult]
  cases hread : Json.ofText? (String.ofList (' ' :: 'b' :: others)) with
  | none => rfl
  | some value =>
      have hlexed := hgrammar.lexed _ _ hread
      rw [String.toList_ofList] at hlexed
      cases hlexed

/-- The prompt's results are read back. -/
def ReadsBack (surface : ToolSurfaceSpec) (prompt : String) (injections : List ToolResultInjection) :
    Prop :=
  readResults prompt = some (injections.map (·.asRead surface))

theorem readsBack_promptWithResults_iff (hgrammar : Json.FollowsGrammar) {surface : ToolSurfaceSpec}
    {rendered : ToolResultInjection → Json} {injections : List ToolResultInjection}
    (hdecodes : DecodesBack rendered injections)
    (hread : ∀ injection, Json.ofText? (rendered injection).render = some (rendered injection) →
      readResult (rendered injection).render.toList = some (injection.asRead surface))
    {prompt : String} (hprompt : ¬ resultTags.opening <:+: prompt.toList) :
    ReadsBack surface (promptWithResults prompt rendered injections) injections ↔
      Unmarked rendered injections := by
  rw [ReadsBack, readResults, toList_promptWithResults]
  exact mapM_readResult_iff hgrammar hdecodes hread hprompt

/-- Behind instructions that name the opening tag results are not read back, unless there are
none. -/
theorem readsBack_named_iff (hgrammar : Json.FollowsGrammar) {surface : ToolSurfaceSpec}
    {rendered : ToolResultInjection → Json} {injections : List ToolResultInjection}
    {prompt : String} {front named : List Char}
    (hprompt : prompt.toList = front ++ resultTags.opening ++ named)
    (hfront : ¬ resultTags.opening <:+: front) (hnamed : Worded named) :
    ReadsBack surface (promptWithResults prompt rendered injections) injections ↔
      injections = [] := by
  have hopens : breakChars resultTags.opening
      (prompt.toList ++ renderedBlocks rendered injections) =
        some (front, named ++ renderedBlocks rendered injections) := by
    rw [hprompt, List.append_assoc]
    exact Tags.breakChars_opening hfront _
  rw [ReadsBack, readResults, toList_promptWithResults]
  cases injections with
  | nil =>
      have hnone : breakChars resultTags.closing (named ++ renderedBlocks rendered []) = none := by
        rw [renderedBlocks, List.flatMap_nil, List.append_nil]
        exact (Text.breakChars_eq_none_iff (List.cons_ne_nil _ _)).mpr
          (Json.not_infix_of_not_mem hnamed.1)
      rw [Tags.blocks_of_open hopens hnone]
      exact iff_of_true rfl rfl
  | cons injection rest =>
      have hclosing : resultTags.closing <:+:
          named ++ renderedBlocks rendered (injection :: rest) := by
        have hblock : resultTags.closing <:+:
            '\n' :: resultTags.wrap (rendered injection).render.toList :=
          (List.suffix_append _ _).isInfix.trans (List.suffix_cons _ _).isInfix
        rw [renderedBlocks, List.flatMap_cons]
        exact (hblock.trans (List.prefix_append _ _).isInfix).trans
          (List.suffix_append _ _).isInfix
      obtain ⟨block, after, hbreak⟩ := Text.exists_breakChars (List.cons_ne_nil _ _) hclosing
      rw [Tags.blocks_of_some hopens hbreak, List.mapM_cons, readResult_worded hgrammar hnamed hbreak]
      exact iff_of_false (fun h => by cases h) (List.cons_ne_nil _ _)

theorem readResult_rendered_openAi {surface : ToolSurfaceSpec} {injection : ToolResultInjection}
    (h : Json.ofText? (OpenAiStyleAdapter.renderedResult surface injection).render =
      some (OpenAiStyleAdapter.renderedResult surface injection)) :
    readResult (OpenAiStyleAdapter.renderedResult surface injection).render.toList =
      some (injection.asRead surface) := by
  rw [readResult, String.ofList_toList, h]
  rfl

theorem readResult_rendered_google {surface : ToolSurfaceSpec} {injection : ToolResultInjection}
    (h : Json.ofText? (GoogleAdapter.renderedResult surface injection).render =
      some (GoogleAdapter.renderedResult surface injection)) :
    readResult (GoogleAdapter.renderedResult surface injection).render.toList =
      some (injection.asRead surface) := by
  rw [readResult, String.ofList_toList, h]
  rfl

theorem readsBack_gitlab_iff (hgrammar : Json.FollowsGrammar) (protocol : ProviderToolProtocol)
    (mode : ToolSurfaceMode) (request : ModelTurnRequest) (hprompt : Untagged request.prompt)
    (hdecodes : DecodesBack (OpenAiStyleAdapter.renderedResult (.forMode protocol mode))
      request.toolResultInjections) :
    ReadsBack (.forMode protocol mode)
        (OpenAiStyleAdapter.gitlabStructuredPrompt (.forMode protocol mode) request)
        request.toolResultInjections ↔
      request.toolResultInjections = [] ∨ protocol = .structuredFallback ∧
        mode = .conversationOnly ∧
        Unmarked (OpenAiStyleAdapter.renderedResult (.forMode protocol mode))
          request.toolResultInjections := by
  rw [OpenAiStyleAdapter.gitlabStructuredPrompt, protocol_forMode]
  cases protocol with
  | native =>
      rw [if_pos rfl, ReadsBack, readResults, Tags.blocks_prose hprompt.1]
      simp
  | structuredFallback =>
      rw [if_neg (by decide)]
      cases mode with
      | standard =>
          obtain ⟨front, named, hfront, hnone, hnamed⟩ := instructions_standard .structuredFallback
          have hparts : (request.prompt ++ "\n\nstructured_tool_protocol:\n" ++
              (ToolSurfaceSpec.standard .structuredFallback).structuredFallbackInstructions).toList =
              (request.prompt ++ "\n\nstructured_tool_protocol:\n").toList ++ front ++
                resultTags.opening ++ named := by
            rw [String.toList_append, hfront]
            simp only [List.append_assoc]
          rw [ToolSurfaceSpec.forMode,
            readsBack_named_iff hgrammar hparts (not_infix_header hprompt hnone) hnamed]
          simp
      | conversationOnly =>
          rw [readsBack_promptWithResults_iff hgrammar hdecodes (fun _ => readResult_rendered_openAi)]
          · refine ⟨fun h => .inr ⟨rfl, rfl, h⟩, fun h => ?_⟩
            rcases h with hnone | ⟨-, -, h⟩
            · rw [hnone]
              exact fun _ hmem => absurd hmem List.not_mem_nil
            · exact h
          · rw [String.toList_append]
            exact not_infix_header hprompt (instructions_conversationOnly .structuredFallback)

/-- The results of a request are read back from the prompts of the adapters if and only if no text
in a result has the closing tag; from the prompt with the instructions of the fallback protocol only
if besides there are no tools, or there are no results at all. -/
theorem results_read_back_iff (hgrammar : Json.FollowsGrammar) (protocol : ProviderToolProtocol)
    (mode : ToolSurfaceMode) (request : ModelTurnRequest) (huser : Untagged request.userPrompt)
    (hprompt : Untagged request.prompt)
    (hopenAi : DecodesBack (OpenAiStyleAdapter.renderedResult (.forMode protocol mode))
      request.toolResultInjections)
    (hgoogle : DecodesBack (GoogleAdapter.renderedResult (.forMode protocol mode))
      request.toolResultInjections) :
    let surface := ToolSurfaceSpec.forMode protocol mode
    let results := request.toolResultInjections
    (ReadsBack surface (OpenAiStyleAdapter.anthropicLikeUserPromptWithResults surface request)
        results ↔ Unmarked (OpenAiStyleAdapter.renderedResult surface) results) ∧
      (ReadsBack surface (GoogleAdapter.anthropicLikeUserPromptWithResults surface request)
        results ↔ Unmarked (GoogleAdapter.renderedResult surface) results) ∧
      (ReadsBack surface (OpenAiStyleAdapter.gitlabStructuredPrompt surface request) results ↔
        results = [] ∨ protocol = .structuredFallback ∧ mode = .conversationOnly ∧
          Unmarked (OpenAiStyleAdapter.renderedResult surface) results) := by
  refine ⟨?_, ?_, readsBack_gitlab_iff hgrammar protocol mode request hprompt hopenAi⟩
  · exact readsBack_promptWithResults_iff hgrammar hopenAi (fun _ => readResult_rendered_openAi)
      huser.1
  · exact readsBack_promptWithResults_iff hgrammar hgoogle (fun _ => readResult_rendered_google)
      huser.1

end Claimed

/-! ### A file that is read -/

/-- The result of reading a file. -/
def fileRead (content : String) : ToolResultInjection :=
  { callId := "c"
    toolName := "workspace.read"
    providerToolName := "workspace_read"
    result := .string content
    isError := false
    summary := "" }

/-- A request that carries it. -/
def requestWithFile (content : String) : ModelTurnRequest :=
  (ModelTurnRequest.fromPromptParts (Thread.blank "t")
    { id := "u", threadId := "t", kind := .user, status := .running, startedAt := "",
      endedAt := none, goal := none, summary := none, checkpointBefore := none,
      checkpointAfter := none }
    "" "" "read").withToolResultInjections [fileRead content]

/-- A reader of what the prompts show of it. -/
@[reducible] def fileReader (mode : ToolSurfaceMode) (content : String) : JsonText :=
  Json.readerOf
    [OpenAiStyleAdapter.renderedResult (.forMode .structuredFallback mode) (fileRead content),
      GoogleAdapter.renderedResult (.forMode .structuredFallback mode) (fileRead content)]

/-- A file whose text has no closing tag is read back behind each prompt if there are no tools. -/
theorem file_read_back :
    let surface := ToolSurfaceSpec.forMode .structuredFallback .conversationOnly
    let request := requestWithFile "<p>"
    let results := request.toolResultInjections
    let reader := fileReader .conversationOnly "<p>"
    @ReadsBack reader surface
        (OpenAiStyleAdapter.anthropicLikeUserPromptWithResults surface request) results ∧
      @ReadsBack reader surface
        (GoogleAdapter.anthropicLikeUserPromptWithResults surface request) results ∧
      @ReadsBack reader surface (OpenAiStyleAdapter.gitlabStructuredPrompt surface request)
        results := by
  have hgrammar : @Json.FollowsGrammar (fileReader .conversationOnly "<p>") :=
    Json.followsGrammar_readerOf (by decide +kernel)
  intro surface request results reader
  have hgoogleRead : @Json.ofText? reader (GoogleAdapter.renderedResult surface (fileRead "<p>")).render =
      some (GoogleAdapter.renderedResult surface (fileRead "<p>")) := by
    rw [Json.ofText?_readerOf_cons, if_neg (by decide +kernel)]
    exact Json.ofText?_readerOf_self rfl _
  obtain ⟨hopenAi, hgoogle, hgitlab⟩ := @results_read_back_iff reader hgrammar .structuredFallback
    .conversationOnly request (by decide +kernel) (by decide +kernel)
    (List.forall_mem_singleton.mpr (Json.ofText?_readerOf_self rfl _))
    (List.forall_mem_singleton.mpr hgoogleRead)
  exact ⟨hopenAi.mpr (by decide +kernel), hgoogle.mpr (by decide +kernel),
    hgitlab.mpr (.inr ⟨rfl, rfl, by decide +kernel⟩)⟩

/-- A file with the closing tag ends its own block. -/
theorem file_ends_block :
    let surface := ToolSurfaceSpec.forMode .structuredFallback .standard
    let request := requestWithFile "</liz_tool_result>"
    let results := request.toolResultInjections
    let reader := fileReader .standard "</liz_tool_result>"
    Untagged request.userPrompt ∧ Untagged request.prompt ∧ @Json.FollowsGrammar reader ∧
      @DecodesBack reader (OpenAiStyleAdapter.renderedResult surface) results ∧
      ¬ @ReadsBack reader surface
        (OpenAiStyleAdapter.anthropicLikeUserPromptWithResults surface request) results ∧
      ¬ @ReadsBack reader surface (OpenAiStyleAdapter.gitlabStructuredPrompt surface request)
        results := by
  have hgrammar : @Json.FollowsGrammar (fileReader .standard "</liz_tool_result>") :=
    Json.followsGrammar_readerOf (by decide +kernel)
  intro surface request results reader
  have hdecodes : @DecodesBack reader (OpenAiStyleAdapter.renderedResult surface) results :=
    List.forall_mem_singleton.mpr (Json.ofText?_readerOf_self rfl _)
  refine ⟨by decide +kernel, by decide +kernel, hgrammar, hdecodes, fun hback => ?_, fun hback => ?_⟩
  · have hunmarked := (@readsBack_promptWithResults_iff reader hgrammar surface _ _ hdecodes
      (fun _ => @readResult_rendered_openAi reader _ _) _ (by decide +kernel)).mp hback
    exact absurd hunmarked (by decide +kernel)
  · rcases (@readsBack_gitlab_iff reader hgrammar .structuredFallback .standard request
      (by decide +kernel) hdecodes).mp hback with hnone | ⟨-, hmode, -⟩
    · cases hnone
    · cases hmode

end Liz
