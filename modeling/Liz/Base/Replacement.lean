import Mathlib.Data.List.Infix
import Liz.Base.Text

/-!
# Replacing words

Every occurrence of a word is replaced by another one, from left to right. A third word that can
overlap neither of them stands in the result exactly where it stood before, and a word that cannot
overlap itself or its replacement is gone.
-/

namespace Text

/-! ### Words that cannot overlap -/

/-- No end of the text starts as the word does, or the other way around. -/
def Clear (text word : List Char) : Prop :=
  ∀ tail ∈ text.tails, tail ≠ [] → ¬ tail <+: word ∧ ¬ word <+: tail

instance (text word : List Char) : Decidable (Clear text word) :=
  inferInstanceAs (Decidable (∀ tail ∈ text.tails, _))

/-- Two words that cannot overlap. -/
structure Apart (left right : List Char) : Prop where
  ends : Clear left right
  starts : Clear right left

instance (left right : List Char) : Decidable (Apart left right) :=
  decidable_of_iff (Clear left right ∧ Clear right left)
    ⟨fun h => ⟨h.1, h.2⟩, fun h => ⟨h.ends, h.starts⟩⟩

section Overlaps

variable {text word : List Char}

theorem clear_cons {c : Char} :
    Clear (c :: text) word ↔ (¬ c :: text <+: word ∧ ¬ word <+: c :: text) ∧ Clear text word := by
  simp [Clear]

/-- What such a text starts with is no word, and does not start one. -/
theorem Clear.not_prefix_append (h : Clear text word) (hne : text ≠ []) (rest : List Char) :
    ¬ word <+: text ++ rest := by
  intro hleads
  have hself := h text (by simp) hne
  rcases List.prefix_or_prefix_of_prefix hleads (List.prefix_append text rest) with hword | htext
  · exact hself.2 hword
  · exact hself.1 htext

/-- No occurrence of the word starts in such a text. -/
theorem Clear.infix_append_iff (h : Clear text word) (rest : List Char) :
    word <:+: text ++ rest ↔ word <:+: rest := by
  induction text with
  | nil => rfl
  | cons c tail ih =>
      rw [List.cons_append, List.infix_cons_iff, ih (clear_cons.mp h).2]
      refine ⟨fun hfound => hfound.resolve_left ?_, .inr⟩
      exact h.not_prefix_append (List.cons_ne_nil c tail) rest

/-- Words that are apart after a change of their characters were apart before. -/
theorem Clear.of_map {f : Char → Char} (h : Clear (text.map f) (word.map f)) : Clear text word := by
  intro tail htail hne
  have hmapped := h (tail.map f) (by
    rw [List.mem_tails] at htail ⊢
    exact htail.map f) (by simpa using hne)
  exact ⟨fun hleads => hmapped.1 (hleads.map f), fun hleads => hmapped.2 (hleads.map f)⟩

theorem Apart.of_map {f : Char → Char} {left right : List Char}
    (h : Apart (left.map f) (right.map f)) : Apart left right :=
  ⟨h.ends.of_map, h.starts.of_map⟩

/-- Two words that become the same one are apart if that one overlaps itself as a whole only. -/
theorem Apart.of_map_eq {f : Char → Char} {left right : List Char}
    (heq : left.map f = right.map f) (hne : left ≠ right)
    (hself : Clear (right.map f).tail (right.map f)) : Apart left right := by
  have hlength : left.length = right.length := by simpa using congrArg List.length heq
  have hclear : ∀ word other : List Char, word.map f = right.map f → other.map f = right.map f →
      word.length = other.length → word ≠ other → Clear word other := by
    intro word other hword hother hsize hdiffer
    cases word with
    | nil => simp [Clear]
    | cons c tail =>
        refine clear_cons.mpr ⟨⟨fun hleads => ?_, fun hleads => ?_⟩, ?_⟩
        · exact hdiffer (hleads.eq_of_length hsize)
        · exact hdiffer (hleads.eq_of_length hsize.symm).symm
        · apply Clear.of_map
          rw [hother]
          rwa [← hword] at hself ⊢
  exact ⟨hclear left right heq rfl hlength hne, hclear right left rfl heq hlength.symm hne.symm⟩

end Overlaps

/-! ### The replacement -/

section Replacement

variable {pattern into text word : List Char}

theorem replaceChars_skip (skip : Nat) (text : List Char) :
    replaceChars pattern into skip text = replaceChars pattern into 0 (text.drop skip) := by
  induction skip generalizing text with
  | zero => rfl
  | succ skip ih =>
      cases text with
      | nil => rfl
      | cons c rest => exact ih rest

theorem replaceChars_append (hne : pattern ≠ []) (rest : List Char) :
    replaceChars pattern into 0 (pattern ++ rest) = into ++ replaceChars pattern into 0 rest := by
  obtain ⟨first, tail, rfl⟩ := List.exists_cons_of_ne_nil hne
  have hleads : (first :: tail).isPrefixOf (first :: (tail ++ rest)) = true :=
    List.isPrefixOf_iff_prefix.mpr (List.prefix_append (first :: tail) rest)
  rw [List.cons_append, replaceChars, if_pos hleads, replaceChars_skip]
  simp

theorem replaceChars_cons {c : Char} {rest : List Char} (h : ¬ pattern <+: c :: rest) :
    replaceChars pattern into 0 (c :: rest) = c :: replaceChars pattern into 0 rest := by
  rw [replaceChars, if_neg (mt List.isPrefixOf_iff_prefix.mp h)]

/-- A text is read as occurrences of the pattern and single characters. -/
@[elab_as_elim]
theorem occurrences_induction {motive : List Char → Prop} (hne : pattern ≠ []) (nil : motive [])
    (occurrence : ∀ rest, motive rest → motive (pattern ++ rest))
    (char : ∀ c rest, ¬ pattern <+: c :: rest → motive rest → motive (c :: rest))
    (text : List Char) : motive text := by
  induction hlength : text.length using Nat.strong_induction_on generalizing text with
  | _ size ih =>
    subst hlength
    by_cases hleads : pattern <+: text
    · obtain ⟨rest, rfl⟩ := hleads
      have hpositive := List.length_pos_iff.mpr hne
      exact occurrence rest (ih rest.length (by rw [List.length_append]; omega) rest rfl)
    · cases text with
      | nil => exact nil
      | cons c rest =>
          exact char c rest hleads (ih rest.length (by rw [List.length_cons]; omega) rest rfl)

/-- The text starts with a word that is clear of the replacement only if it did before. -/
theorem isPrefix_of_replaceChars (hne : pattern ≠ []) (hinto : Clear word into)
    (h : word <+: replaceChars pattern into 0 text) : word <+: text := by
  induction text using occurrences_induction hne generalizing word with
  | nil => exact h
  | occurrence rest ih =>
      rw [replaceChars_append hne] at h
      cases word with
      | nil => exact List.nil_prefix
      | cons c tail =>
          have hself := hinto (c :: tail) (by simp) (List.cons_ne_nil c tail)
          rcases List.prefix_or_prefix_of_prefix h (List.prefix_append into _) with hword | hinside
          · exact absurd hword hself.1
          · exact absurd hinside hself.2
  | char c rest hchar ih =>
      rw [replaceChars_cons hchar] at h
      cases word with
      | nil => exact List.nil_prefix
      | cons d tail =>
          rw [List.cons_prefix_cons] at h ⊢
          exact ⟨h.1, ih (clear_cons.mp hinto).2 h.2⟩

/-- The text still starts with a word that is clear of the pattern. -/
theorem isPrefix_replaceChars (hne : pattern ≠ []) (hpattern : Clear word pattern)
    (h : word <+: text) : word <+: replaceChars pattern into 0 text := by
  induction text using occurrences_induction hne generalizing word with
  | nil => exact h
  | occurrence rest ih =>
      cases word with
      | nil => exact List.nil_prefix
      | cons c tail =>
          have hself := hpattern (c :: tail) (by simp) (List.cons_ne_nil c tail)
          rcases List.prefix_or_prefix_of_prefix h (List.prefix_append pattern _) with hword | hover
          · exact absurd hword hself.1
          · exact absurd hover hself.2
  | char c rest hchar ih =>
      rw [replaceChars_cons hchar]
      cases word with
      | nil => exact List.nil_prefix
      | cons d tail =>
          rw [List.cons_prefix_cons] at h ⊢
          exact ⟨h.1, ih (clear_cons.mp hpattern).2 h.2⟩

/-- A word that is apart from the replacement stands in the text only if it did before. -/
theorem infix_of_infix_replaceChars (hne : pattern ≠ []) (hinto : Apart word into)
    (h : word <:+: replaceChars pattern into 0 text) : word <:+: text := by
  induction text using occurrences_induction hne with
  | nil => exact h
  | occurrence rest ih =>
      rw [replaceChars_append hne, hinto.starts.infix_append_iff] at h
      exact (ih h).trans (List.suffix_append pattern rest).isInfix
  | char c rest hchar ih =>
      rw [replaceChars_cons hchar, List.infix_cons_iff, ← replaceChars_cons hchar] at h
      rw [List.infix_cons_iff]
      exact h.imp (isPrefix_of_replaceChars hne hinto.ends) ih

/-- A word that is apart from both stands in the text if and only if it did before. -/
theorem infix_replaceChars_iff (hne : pattern ≠ []) (hpattern : Apart word pattern)
    (hinto : Apart word into) : word <:+: replaceChars pattern into 0 text ↔ word <:+: text := by
  refine ⟨infix_of_infix_replaceChars hne hinto, fun h => ?_⟩
  induction text using occurrences_induction hne with
  | nil => exact h
  | occurrence rest ih =>
      rw [hpattern.starts.infix_append_iff] at h
      rw [replaceChars_append hne]
      exact (ih h).trans (List.suffix_append into _).isInfix
  | char c rest hchar ih =>
      rw [replaceChars_cons hchar, List.infix_cons_iff, ← replaceChars_cons hchar]
      rw [List.infix_cons_iff] at h
      exact h.imp (isPrefix_replaceChars hne hpattern.ends) ih

/-- A pattern that is apart from its replacement is gone. -/
theorem not_infix_replaceChars (hne : pattern ≠ []) (hinto : Apart pattern into) :
    ¬ pattern <:+: replaceChars pattern into 0 text := by
  induction text using occurrences_induction hne with
  | nil => simpa [replaceChars] using hne
  | occurrence rest ih => rwa [replaceChars_append hne, hinto.starts.infix_append_iff]
  | char c rest hchar ih =>
      rw [replaceChars_cons hchar, List.infix_cons_iff, ← replaceChars_cons hchar]
      rintro (hleads | hinside)
      · exact hchar (isPrefix_of_replaceChars hne hinto.ends hleads)
      · exact ih hinside

end Replacement

end Text
