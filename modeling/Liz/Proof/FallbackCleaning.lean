import Liz.Base.Bytes
import Liz.Model.Adapters

/-!
# Cleaning a text of its blocks

The tool calls that a model writes into its text stand between tags. Cleaning takes them out of the
text one by one and looks at the text from its start after each; the places are byte indices of the
text as it is then.
-/

namespace Liz

namespace OpenAiStyleAdapter

/-- A round of the loop. There is no result when an index is within a character; the loop ends when
there is no block to remove. -/
def cleanRound (cleaned : String) : Option (Option String) :=
  match Bytes.find? cleaned "<liz_tool_call>" with
  | none => some none
  | some start => do
      match Bytes.find? (← Bytes.sliceFrom cleaned start) "</liz_tool_call>" with
      | none => some none
      | some stop =>
          let endIndex := start + stop + "</liz_tool_call>".utf8ByteSize
          some (some (← Bytes.removeRange cleaned start endIndex))

/-- The loop, in so many rounds at most. -/
def cleanWithin : Nat → String → Option String
  | 0, _ => none
  | rounds + 1, cleaned =>
      match cleanRound cleaned with
      | none => none
      | some none => some (Text.trim cleaned)
      | some (some next) => cleanWithin rounds next

/-- The text contains an opening tag and, somewhere behind it, a closing tag. -/
def HoldsBlock (text : String) : Prop :=
  ∃ before block after, text = before ++ "<liz_tool_call>" ++ block ++ "</liz_tool_call>" ++ after

theorem toList_opening : "<liz_tool_call>".toList = callTags.opening := rfl

theorem toList_closing : "</liz_tool_call>".toList = callTags.closing := rfl

theorem holdsBlock_iff {text : String} : HoldsBlock text ↔ callTags.Paired text.toList := by
  constructor
  · rintro ⟨before, block, after, rfl⟩
    refine ⟨before.toList, block.toList, after.toList, ?_⟩
    simp only [String.toList_append, toList_opening, toList_closing]
  · rintro ⟨before, block, after, htext⟩
    refine ⟨String.ofList before, String.ofList block, String.ofList after, ?_⟩
    apply String.toList_inj.mp
    simp only [String.toList_append, String.toList_ofList, toList_opening, toList_closing, htext]

/-! ### A round -/

theorem find?_eq {text pattern : String} {chars : List Char} (hpattern : pattern.toList = chars) :
    Bytes.find? text pattern = (Text.breakChars chars text.toList).map fun parts =>
      (String.ofList parts.1).utf8ByteSize := by
  rw [Bytes.find?, Text.breakOn, hpattern, Option.map_map]
  rfl

theorem eq_append_of_break {text pattern : String} {before after : List Char}
    (h : Text.breakChars pattern.toList text.toList = some (before, after)) :
    text = String.ofList before ++ (pattern ++ String.ofList after) := by
  apply String.toList_inj.mp
  rw [Text.eq_append_of_breakChars h]
  simp

/-- A round cuts at the ends of a block, which are ends of characters. -/
theorem cleanRound_eq (text : String) :
    cleanRound text = some
      (match Text.breakChars callTags.opening text.toList with
      | none => none
      | some (before, inside) =>
          (Text.breakChars callTags.closing inside).map fun parts =>
            String.ofList (before ++ parts.2)) := by
  unfold cleanRound
  rw [find?_eq toList_opening]
  cases hopening : Text.breakChars callTags.opening text.toList with
  | none => rfl
  | some parts =>
      obtain ⟨before, inside⟩ := parts
      have htext : text = String.ofList before ++ ("<liz_tool_call>" ++ String.ofList inside) :=
        eq_append_of_break hopening
      have hslice : Bytes.sliceFrom text (String.ofList before).utf8ByteSize =
          some ("<liz_tool_call>" ++ String.ofList inside) := by
        conv_lhs => rw [htext]
        exact Bytes.sliceFrom_append _ _
      have hstop : Bytes.find? ("<liz_tool_call>" ++ String.ofList inside) "</liz_tool_call>" =
          (Text.breakChars callTags.closing inside).map fun parts =>
            ("<liz_tool_call>" ++ String.ofList parts.1).utf8ByteSize := by
        rw [find?_eq toList_closing, String.toList_append, toList_opening, String.toList_ofList,
          Text.Tags.breakChars_closing_opening, Option.map_map]
        congr 1
        funext parts
        rw [Function.comp_apply, String.ofList_append, ← toList_opening, String.ofList_toList]
      dsimp only [Option.map_some]
      rw [hslice]
      dsimp only [Option.bind_eq_bind, Option.bind_some]
      rw [hstop]
      cases hclosing : Text.breakChars callTags.closing inside with
      | none => rfl
      | some parts =>
          obtain ⟨block, rest⟩ := parts
          have hinside : String.ofList inside =
              String.ofList block ++ ("</liz_tool_call>" ++ String.ofList rest) := by
            apply eq_append_of_break
            rwa [toList_closing, String.toList_ofList]
          have hremove : Bytes.removeRange text (String.ofList before).utf8ByteSize
              ((String.ofList before).utf8ByteSize +
                ("<liz_tool_call>" ++ String.ofList block).utf8ByteSize +
                "</liz_tool_call>".utf8ByteSize) =
              some (String.ofList before ++ String.ofList rest) := by
            rw [Nat.add_assoc, ← String.utf8ByteSize_append]
            conv_lhs => rw [htext, hinside]
            rw [← Bytes.removeRange_append (String.ofList before)
              ("<liz_tool_call>" ++ String.ofList block ++ "</liz_tool_call>") (String.ofList rest)]
            simp only [String.append_assoc]
          dsimp only [Option.map_some]
          rw [hremove, Option.bind_some, String.ofList_append]

/-! ### The loop -/

theorem clean_eq (text : String) :
    cleanStructuredFallbackText text = Text.trim (String.ofList (callTags.without text.toList)) := by
  rw [cleanStructuredFallbackText, withoutBlocks_eq]

/-- The loop ends after a round for each block, and it leaves what the cleaning function returns. -/
theorem cleanWithin_eq (text : String) {rounds : Nat} (h : text.length < rounds) :
    cleanWithin rounds text = some (cleanStructuredFallbackText text) := by
  induction rounds generalizing text with
  | zero => exact absurd h (Nat.not_lt_zero _)
  | succ rounds ih =>
      rw [cleanWithin, cleanRound_eq, clean_eq]
      cases hopening : Text.breakChars callTags.opening text.toList with
      | none =>
          rw [Text.Tags.without_of_none hopening, String.ofList_toList]
      | some parts =>
          obtain ⟨before, inside⟩ := parts
          cases hclosing : Text.breakChars callTags.closing inside with
          | none =>
              dsimp only
              rw [hclosing, Text.Tags.without_of_open hopening hclosing, String.ofList_toList]
              rfl
          | some parts =>
              obtain ⟨block, rest⟩ := parts
              have hshorter := callTags.length_lt_of_block hopening hclosing
              rw [String.length_toList] at hshorter
              have hnext := ih (String.ofList (before ++ rest))
                (by rw [String.length_ofList]; omega)
              dsimp only
              rw [hclosing, Text.Tags.without_of_some hopening hclosing]
              dsimp only [Option.map_some]
              rw [hnext, clean_eq, String.toList_ofList]

/-! ### What is returned -/

/-- What is trimmed is a piece of the text. -/
theorem trim_infix (text : String) : (Text.trim text).toList <:+: text.toList := by
  obtain ⟨front, back, htext, -⟩ := Text.exists_trim text
  exact ⟨front, back, by rw [htext, List.append_assoc]⟩

theorem not_holdsBlock_clean (text : String) : ¬ HoldsBlock (cleanStructuredFallbackText text) := by
  rw [holdsBlock_iff, clean_eq]
  intro hpaired
  apply Text.Tags.not_paired_without text.toList
  apply Text.Tags.paired_of_infix hpaired
  have hpiece := trim_infix (String.ofList (callTags.without text.toList))
  rwa [String.toList_ofList] at hpiece

/-- A text without a block is trimmed only. -/
theorem clean_of_not_holdsBlock {text : String} (h : ¬ HoldsBlock text) :
    cleanStructuredFallbackText text = Text.trim text := by
  rw [holdsBlock_iff] at h
  rw [clean_eq, Text.Tags.without_of_not_paired h, String.ofList_toList]

/-- Cleaning ends for every text without cutting through a character, it leaves no opening tag with a
closing tag behind it and nothing to clean again, and a text without an opening tag is only trimmed. -/
theorem fallback_cleaned (value : String) :
    (∀ rounds, value.length < rounds →
      cleanWithin rounds value = some (cleanStructuredFallbackText value)) ∧
    ¬ HoldsBlock (cleanStructuredFallbackText value) ∧
    cleanStructuredFallbackText (cleanStructuredFallbackText value) =
      cleanStructuredFallbackText value ∧
    (Text.contains value "<liz_tool_call>" = false →
      cleanStructuredFallbackText value = Text.trim value) := by
  refine ⟨fun rounds hrounds => cleanWithin_eq value hrounds, not_holdsBlock_clean value, ?_, ?_⟩
  · rw [clean_of_not_holdsBlock (not_holdsBlock_clean value), clean_eq, Text.trim_trim]
  · intro hnone
    apply clean_of_not_holdsBlock
    rintro ⟨before, block, after, rfl⟩
    rw [← Bool.not_eq_true, Text.contains_eq_true] at hnone
    apply hnone
    simp only [String.toList_append, List.append_assoc]
    exact List.infix_append' before.toList _ _

/-- What a removed block brings together is removed too. -/
example : cleanWithin 3 "<liz_tool<liz_tool_call></liz_tool_call>_call></liz_tool_call> a" =
    some "a" := by decide +kernel

end OpenAiStyleAdapter

end Liz
