import Liz.Base.Quoting
import Liz.Base.Tags
import Liz.Protocol.Json

/-!
# The texts in a JSON value

An angle bracket is not escaped in JSON, so a tag that stands in a text of a value stands in the
text of the value as well, and nothing else in that text can form it.
-/

namespace Liz

namespace Json

/-! ### Texts -/

mutual

/-- The strings, the names and the numbers of a value, as they are before they are written. -/
def texts : Json → List String
  | string value => [value]
  | float literal => [literal]
  | array items => textsOfItems items
  | object fields => textsOfFields fields
  | _ => []

def textsOfItems : List Json → List String
  | [] => []
  | item :: rest => texts item ++ textsOfItems rest

def textsOfFields : List (String × Json) → List String
  | [] => []
  | (name, value) :: rest => name :: texts value ++ textsOfFields rest

end

/-- The tag stands in a text of the value. -/
def Mentions (value : Json) (tag : List Char) : Prop := ∃ text ∈ value.texts, tag <:+: text.toList

instance (value : Json) (tag : List Char) : Decidable (value.Mentions tag) :=
  inferInstanceAs (Decidable (∃ text ∈ value.texts, tag <:+: text.toList))

/-- A character that is written as it is and does not belong to the syntax. -/
def Unescaped (c : Char) : Prop :=
  escapeChar c = String.singleton c ∧ c ∉ ['"', '\\', ',', ':', '[', ']', '\x7b', '\x7d']

instance (c : Char) : Decidable (Unescaped c) := inferInstanceAs (Decidable (_ ∧ _))

section Render

variable {tail : List Char}

theorem unescaped_of_all (h : (tail.all fun c => decide (Unescaped c)) = true) :
    ∀ c ∈ tail, Unescaped c :=
  fun c hc => of_decide_eq_true (List.all_eq_true.mp h c hc)

/-- Other characters are written with a backslash, and without an angle bracket. -/
theorem escapeChar_cases (c : Char) :
    escapeChar c = String.singleton c ∨
      (∃ rest, (escapeChar c).toList = '\\' :: rest) ∧ '<' ∉ (escapeChar c).toList := by
  have hhex : c.toNat < 32 → (∃ rest, (hexEscape c).toList = '\\' :: rest) ∧
      '<' ∉ (hexEscape c).toList := by
    intro hc
    have hdigits : ∀ n < 32, '<' ∉ Nat.toDigits 16 n := by decide +kernel
    have hpadded : '<' ∉ (Nat.toDigits 16 c.toNat).leftpad 4 '0' := by
      rw [List.leftpad, List.mem_append, not_or]
      exact ⟨fun hmem => absurd (List.eq_of_mem_replicate hmem) (by decide), hdigits _ hc⟩
    have hwritten : (hexEscape c).toList =
        '\\' :: 'u' :: (Nat.toDigits 16 c.toNat).leftpad 4 '0' := by
      rw [hexEscape, String.toList_append]
      exact congrArg (fun digits => '\\' :: 'u' :: digits) String.toList_ofList
    rw [hwritten]
    exact ⟨⟨_, rfl⟩, by simpa using hpadded⟩
  rw [escapeChar]
  iterate 7
    split
    · exact .inr ⟨⟨_, rfl⟩, by decide⟩
  split
  · exact .inr (hhex ‹_›)
  · exact .inl rfl

/-- The characters that a text is written with. -/
def escaped (text : List Char) : List Char := text.flatMap fun c => (escapeChar c).toList

theorem toList_join (parts : List String) :
    (Text.join parts "").toList = parts.flatMap String.toList := by
  rw [Text.join, String.toList_intercalate]
  induction parts with
  | nil => rfl
  | cons first rest ih => cases rest <;> simp_all

theorem toList_renderString (s : String) :
    (renderString s).toList = ['"'] ++ (escaped s.toList ++ '"' :: []) := by
  rw [renderString, String.toList_append, String.toList_append, toList_join, List.flatMap_map,
    List.append_assoc]
  rfl

/-- Characters that are written as they are stand at the front if and only if they did before. -/
theorem prefix_escaped_iff {pattern text : List Char} (h : ∀ c ∈ pattern, Unescaped c) :
    pattern <+: escaped text ↔ pattern <+: text := by
  induction pattern generalizing text with
  | nil => simp
  | cons a rest ih =>
      rw [List.forall_mem_cons] at h
      cases text with
      | nil => simp [escaped]
      | cons c more =>
          rw [escaped, List.flatMap_cons]
          rcases escapeChar_cases c with hsame | ⟨⟨others, hothers⟩, -⟩
          · rw [hsame, String.toList_singleton, List.singleton_append, List.cons_prefix_cons,
              List.cons_prefix_cons]
            exact and_congr_right fun _ => ih h.2
          · have hescape : a ≠ '\\' := by
              rintro rfl
              exact h.1.2 (by decide)
            rw [hothers, List.cons_append, List.cons_prefix_cons, List.cons_prefix_cons]
            refine iff_of_false (fun hfound => hescape hfound.1) fun hfound => hescape ?_
            have hplain := h.1.1
            rw [hfound.1] at hplain ⊢
            rw [hplain, String.toList_singleton] at hothers
            exact (List.cons.inj hothers).1

theorem infix_escaped_iff (htail : ∀ c ∈ tail, Unescaped c) {text : List Char} :
    '<' :: tail <:+: escaped text ↔ '<' :: tail <:+: text := by
  have hpattern : ∀ c ∈ '<' :: tail, Unescaped c :=
    List.forall_mem_cons.mpr ⟨by decide, htail⟩
  induction text with
  | nil => rfl
  | cons c rest ih =>
      rcases escapeChar_cases c with hsame | ⟨-, hbracket⟩
      · have hcons : escaped (c :: rest) = c :: escaped rest := by
          rw [escaped, List.flatMap_cons, hsame, String.toList_singleton]
          rfl
        have hfirst : '<' :: tail <+: c :: escaped rest ↔ '<' :: tail <+: c :: rest := by
          rw [← hcons]
          exact prefix_escaped_iff hpattern
        rw [hcons, List.infix_cons_iff, List.infix_cons_iff]
        exact or_congr hfirst ih
      · have hother : c ≠ '<' := by
          rintro rfl
          exact hbracket (by decide)
        rw [escaped, List.flatMap_cons, Text.infix_append_iff_right hbracket,
          List.infix_cons_iff, List.cons_prefix_cons]
        refine ih.trans ⟨.inr, fun hfound => hfound.resolve_left fun hfirst => hother hfirst.1.symm⟩

theorem infix_renderString_iff (htail : ∀ c ∈ tail, Unescaped c) (s : String) :
    '<' :: tail <:+: (renderString s).toList ↔ '<' :: tail <:+: s.toList := by
  have hquote : '"' ∉ '<' :: tail := by
    intro hmem
    rcases List.mem_cons.mp hmem with heq | hmem
    · exact absurd heq (by decide)
    · exact (htail _ hmem).2 (by decide)
  rw [toList_renderString, Text.infix_append_iff_right (by decide),
    Text.infix_append_cons_iff (List.cons_ne_nil _ _) hquote, infix_escaped_iff htail]
  simp

/-! ### Values -/

theorem not_mem_unescaped {c : Char} (h : ¬ Unescaped c) (htail : ∀ c ∈ tail, Unescaped c)
    (hbracket : c ≠ '<') : c ∉ '<' :: tail := by
  intro hmem
  rcases List.mem_cons.mp hmem with heq | hmem
  · exact hbracket heq
  · exact h (htail c hmem)

theorem infix_enclosed_iff (htail : ∀ c ∈ tail, Unescaped c) {first last : Char}
    (hfirst : first ≠ '<') (hlast : last ≠ '<') (hescaped : ¬ Unescaped last) (text : List Char) :
    '<' :: tail <:+: [first] ++ (text ++ last :: []) ↔ '<' :: tail <:+: text := by
  rw [Text.infix_append_iff_right (by simpa using hfirst.symm),
    Text.infix_append_cons_iff (List.cons_ne_nil _ _) (not_mem_unescaped hescaped htail hlast)]
  simp

/-- A text without an angle bracket has no tag. -/
theorem not_infix_of_not_mem {text : List Char} (h : '<' ∉ text) : ¬ '<' :: tail <:+: text :=
  fun hfound => h (hfound.subset List.mem_cons_self)

theorem bracket_not_mem_repr (n : Nat) : '<' ∉ (Nat.repr n).toList := by
  rw [Nat.toList_repr]
  intro hmem
  exact absurd (Nat.isDigit_of_mem_toDigits (by decide) (by decide) hmem) (by decide)

theorem not_mentions_nil {texts : List String} (h : texts = []) :
    ¬ ∃ text ∈ texts, '<' :: tail <:+: text.toList := by
  simp [h]

theorem infix_parts_iff (htail : ∀ c ∈ tail, Unescaped c) (parts : List String) :
    '<' :: tail <:+: (Text.join parts ",").toList ↔ ∃ part ∈ parts, '<' :: tail <:+: part.toList :=
  Text.infix_join_iff (List.cons_ne_nil _ _) (not_mem_unescaped (c := ',') (by decide) htail
    (by decide)) parts

theorem infix_field_iff (htail : ∀ c ∈ tail, Unescaped c) (name : String) (value : Json) :
    '<' :: tail <:+: (renderString name ++ ":" ++ render value).toList ↔
      '<' :: tail <:+: name.toList ∨ '<' :: tail <:+: (render value).toList := by
  have hcolon : (renderString name ++ ":" ++ render value).toList =
      (renderString name).toList ++ ':' :: (render value).toList := by
    rw [String.toList_append, String.toList_append, List.append_assoc]
    rfl
  rw [hcolon, Text.infix_append_cons_iff (List.cons_ne_nil _ _)
    (not_mem_unescaped (by decide) htail (by decide)), infix_renderString_iff htail]

mutual

/-- The text of a value has a tag where one of the texts in the value has it. -/
theorem infix_render_iff (htail : ∀ c ∈ tail, Unescaped c) :
    ∀ value : Json, '<' :: tail <:+: (render value).toList ↔ value.Mentions ('<' :: tail)
  | null => iff_of_false (not_infix_of_not_mem (by decide)) (not_mentions_nil rfl)
  | bool true => iff_of_false (not_infix_of_not_mem (by decide)) (not_mentions_nil rfl)
  | bool false => iff_of_false (not_infix_of_not_mem (by decide)) (not_mentions_nil rfl)
  | natural value => iff_of_false (not_infix_of_not_mem (bracket_not_mem_repr value)) (not_mentions_nil rfl)
  | negative magnitude => by
      refine iff_of_false (not_infix_of_not_mem ?_) (not_mentions_nil rfl)
      rw [render, String.toList_append]
      exact fun hmem => (List.mem_append.mp hmem).elim (by decide) (bracket_not_mem_repr magnitude)
  | float literal => by simp [render, Mentions, texts]
  | string value => by
      rw [render, infix_renderString_iff htail]
      simp [Mentions, texts]
  | array items => by
      have htext : (render (array items)).toList =
          ['['] ++ ((Text.join (renderItems items) ",").toList ++ ']' :: []) := by
        rw [render, String.toList_append, String.toList_append, List.append_assoc]
        rfl
      rw [htext, infix_enclosed_iff htail (by decide) (by decide) (by decide), infix_parts_iff htail]
      exact infix_renderItems_iff htail items
  | object fields => by
      have htext : (render (object fields)).toList =
          ['\x7b'] ++ ((Text.join (renderFields fields) ",").toList ++ '\x7d' :: []) := by
        rw [render, String.toList_append, String.toList_append, List.append_assoc]
        rfl
      rw [htext, infix_enclosed_iff htail (by decide) (by decide) (by decide), infix_parts_iff htail]
      exact infix_renderFields_iff htail fields

theorem infix_renderItems_iff (htail : ∀ c ∈ tail, Unescaped c) :
    ∀ items : List Json, (∃ part ∈ renderItems items, '<' :: tail <:+: part.toList) ↔
      ∃ text ∈ textsOfItems items, '<' :: tail <:+: text.toList
  | [] => by simp [renderItems, textsOfItems]
  | item :: rest => by
      rw [renderItems, textsOfItems, List.exists_mem_cons_iff, infix_render_iff htail item,
        infix_renderItems_iff htail rest]
      simp only [Mentions, List.mem_append, or_and_right, exists_or]

theorem infix_renderFields_iff (htail : ∀ c ∈ tail, Unescaped c) :
    ∀ fields : List (String × Json),
      (∃ part ∈ renderFields fields, '<' :: tail <:+: part.toList) ↔
        ∃ text ∈ textsOfFields fields, '<' :: tail <:+: text.toList
  | [] => by simp [renderFields, textsOfFields]
  | (name, value) :: rest => by
      rw [renderFields, textsOfFields, List.exists_mem_cons_iff, infix_field_iff htail,
        infix_render_iff htail value, infix_renderFields_iff htail rest]
      simp only [Mentions, List.cons_append, List.mem_cons, List.mem_append, or_and_right,
        exists_or, exists_eq_left, or_assoc]

end

end Render

/-! ### What is relied on of a reader -/

/-- The characters that stand outside of the strings of a JSON text. -/
def bareChar (c : Char) : Bool :=
  c.isDigit || [' ', '\n', '\t', '\r', '\x7b', '\x7d', '[', ']', ':', ',', '-', '+', '.', 'E', 't',
    'r', 'u', 'e', 'f', 'a', 'l', 's', 'n'].contains c

/-- A reader follows the grammar: in what it reads all strings are closed, and outside of them there
is only syntax; and the names of the fields it finds stand in the strings, as they are or escaped. -/
structure FollowsGrammar [JsonText] : Prop where
  lexed : ∀ text value, ofText? text = some value →
    Quoting.lex bareChar .outside text.toList = some .outside
  spelled : ∀ text value name, ofText? text = some value → (value.get? name).isSome →
    (∀ c ∈ name.toList, c ∈ Quoting.quoted .outside text.toList) ∨
      '\\' ∈ Quoting.quoted .outside text.toList

/-- A piece that is cut off inside a string has no field with a name that cannot be syntax. -/
theorem FollowsGrammar.get?_of_cut [JsonText] (h : FollowsGrammar) {text : String} {value : Json}
    (hcut : Quoting.Cut bareChar text.toList) (hvalue : ofText? text = some value) {name : String}
    {c : Char} (hc : c ∈ name.toList) (hbare : bareChar c = false) : value.get? name = none := by
  have hlexed := h.lexed text value hvalue
  rcases hcut with ⟨last, hlast, hlex⟩ | hinside
  · exact absurd (Option.some.inj (hlex.symm.trans hlexed)) hlast
  · by_contra hfield
    have hquoted := (Quoting.bare_of_mem_quoted (by decide) hinside
      (Option.isSome_of_eq_some hlexed)).1
    rcases h.spelled text value name hvalue (Option.isSome_iff_ne_none.mpr hfield) with hname | hname
    · rw [hquoted c (hname c hc)] at hbare
      cases hbare
    · exact absurd (hquoted _ hname) (by decide)

mutual

/-- The characters of the text of a value. -/
def written : Json → List Char
  | string value => '"' :: (escaped value.toList ++ ['"'])
  | array items => '[' :: ([','].intercalate (writtenItems items) ++ [']'])
  | object fields => '\x7b' :: ([','].intercalate (writtenFields fields) ++ ['\x7d'])
  | value => value.render.toList

def writtenItems : List Json → List (List Char)
  | [] => []
  | item :: rest => written item :: writtenItems rest

def writtenFields : List (String × Json) → List (List Char)
  | [] => []
  | (name, value) :: rest =>
      ('"' :: (escaped name.toList ++ ['"']) ++ ':' :: written value) :: writtenFields rest

end

mutual

theorem toList_render : ∀ value : Json, (render value).toList = written value
  | null | bool _ | natural _ | negative _ | float _ => rfl
  | string value => toList_renderString value
  | array items => by
      rw [render, String.toList_append, String.toList_append, Text.join, String.toList_intercalate,
        toList_renderItems items]
      rfl
  | object fields => by
      rw [render, String.toList_append, String.toList_append, Text.join, String.toList_intercalate,
        toList_renderFields fields]
      rfl

theorem toList_renderItems :
    ∀ items : List Json, (renderItems items).map String.toList = writtenItems items
  | [] => rfl
  | item :: rest => by
      rw [renderItems, List.map_cons, toList_render item, toList_renderItems rest]
      rfl

theorem toList_renderFields : ∀ fields : List (String × Json),
    (renderFields fields).map String.toList = writtenFields fields
  | [] => rfl
  | (name, value) :: rest => by
      rw [renderFields, List.map_cons, toList_renderFields rest, String.toList_append,
        String.toList_append, toList_renderString, toList_render value]
      simp [writtenFields]

end

/-- A reader that knows the texts of these values only. -/
@[reducible] def readerOf (known : List Json) : JsonText :=
  ⟨fun text =>
      ((known.find? fun value => value.render == text).map Except.ok).getD
        (.error "expected value at line 1 column 1"),
    fun _ => "invalid type"⟩

def fieldNames : Json → List String
  | object fields => fields.map Prod.fst
  | _ => []

theorem mem_fieldNames_of_get? {value : Json} {name : String} (h : (value.get? name).isSome) :
    name ∈ value.fieldNames := by
  cases value with
  | object fields =>
      obtain ⟨held, hheld⟩ := Option.isSome_iff_exists.mp h
      obtain ⟨before, after, hfields, -⟩ := List.lookup_eq_some_iff.mp hheld
      rw [fieldNames, hfields, List.map_append]
      exact List.mem_append_right _ List.mem_cons_self
  | null | bool _ | natural _ | negative _ | float _ | string _ | array _ => cases h

theorem ofText?_readerOf_cons (value : Json) (rest : List Json) (text : String) :
    @ofText? (readerOf (value :: rest)) text =
      if value.render = text then some value.mapped else @ofText? (readerOf rest) text := by
  show ((((value :: rest).find? fun other => other.render == text).map Except.ok).getD
    _).toOption.map mapped = _
  rw [List.find?_cons]
  by_cases hrender : value.render = text
  · rw [if_pos hrender, beq_iff_eq.mpr hrender]
    rfl
  · rw [if_neg hrender, beq_eq_false_iff_ne.mpr hrender]
    rfl

theorem ofText?_readerOf_self {value : Json} (hmapped : value.mapped = value) (rest : List Json) :
    @ofText? (readerOf (value :: rest)) value.render = some value := by
  rw [ofText?_readerOf_cons, if_pos rfl, hmapped]

/-- The strings in the text of a value are closed, and the names of its fields stand in them. -/
def quotes (value : Json) : Bool :=
  Quoting.lex bareChar .outside value.written == some .outside &&
    value.mapped.fieldNames.all fun name =>
      name.toList.all fun c => (Quoting.quoted .outside value.written).contains c

/-- It follows the grammar where these texts do. -/
theorem followsGrammar_readerOf {known : List Json} (h : known.all quotes = true) :
    @FollowsGrammar (readerOf known) := by
  simp only [quotes, ← toList_render, List.all_eq_true, Bool.and_eq_true, beq_iff_eq,
    List.contains_iff_mem] at h
  have hknown : ∀ text value, @ofText? (readerOf known) text = some value →
      ∃ written ∈ known, written.render = text ∧ written.mapped = value := by
    intro text value hvalue
    cases hfind : known.find? fun other => other.render == text with
    | none =>
        have hnone : @ofText? (readerOf known) text = none := by
          show ((((known.find? fun other => other.render == text).map Except.ok).getD
            _).toOption).map mapped = _
          rw [hfind]
          rfl
        rw [hnone] at hvalue
        cases hvalue
    | some written =>
        have hsome : @ofText? (readerOf known) text = some written.mapped := by
          show ((((known.find? fun other => other.render == text).map Except.ok).getD
            _).toOption).map mapped = _
          rw [hfind]
          rfl
        have hrender := List.find?_some hfind
        rw [hsome] at hvalue
        exact ⟨written, List.mem_of_find?_eq_some hfind, beq_iff_eq.mp hrender,
          Option.some.inj hvalue⟩
  refine @FollowsGrammar.mk (readerOf known) ?_ ?_
  · intro text value hvalue
    obtain ⟨written, hmem, rfl, -⟩ := hknown text value hvalue
    exact (h written hmem).1
  · intro text value name hvalue hfield
    obtain ⟨written, hmem, rfl, rfl⟩ := hknown text value hvalue
    exact .inl ((h written hmem).2 name (mem_fieldNames_of_get? hfield))

end Json

end Liz
