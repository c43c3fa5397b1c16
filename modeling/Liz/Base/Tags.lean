import Mathlib.Data.List.Infix
import Liz.Base.Text

/-!
# Blocks between tags

A reader cuts a text at the first closing tag behind each opening tag. A tag starts with a character
that does not occur in it again, so it cannot overlap itself: an occurrence in a text that is put
together from pieces stands in one of the pieces wherever the next piece starts with a character the
tag does not have.
-/

namespace Text

/-! ### Occurrences -/

section Occurrences

variable {pattern text before after : List Char}

/-- A character that the pattern does not have separates its occurrences. -/
theorem infix_append_cons_iff {c : Char} (hne : pattern ≠ []) (hc : c ∉ pattern) :
    pattern <:+: before ++ c :: after ↔ pattern <:+: before ∨ pattern <:+: after := by
  rw [List.infix_append_iff]
  constructor
  · rintro (hbefore | hafter | ⟨left, right, rfl, hleft, hright⟩)
    · exact .inl hbefore
    · rw [List.infix_cons_iff] at hafter
      rcases hafter with hfirst | hafter
      · rcases List.prefix_cons_iff.mp hfirst with hnil | ⟨rest, rfl, -⟩
        · exact absurd hnil hne
        · exact absurd List.mem_cons_self hc
      · exact .inr hafter
    · rcases List.prefix_cons_iff.mp hright with rfl | ⟨rest, rfl, -⟩
      · rw [List.append_nil]
        exact .inl hleft.isInfix
      · exact absurd (List.mem_append_right left List.mem_cons_self) hc
  · rintro (hbefore | hafter)
    · exact .inl hbefore
    · exact .inr (.inl (hafter.trans (List.suffix_cons c after).isInfix))

/-- Characters in front of which the pattern cannot start do not matter. -/
theorem infix_append_iff_right {mark : Char} {tail : List Char} (h : mark ∉ before) :
    mark :: tail <:+: before ++ text ↔ mark :: tail <:+: text := by
  induction before with
  | nil => rfl
  | cons c rest ih =>
      have hc : mark ≠ c := fun heq => h (heq ▸ List.mem_cons_self)
      rw [List.cons_append, List.infix_cons_iff, List.cons_prefix_cons,
        ih fun hmem => h (List.mem_cons_of_mem c hmem)]
      exact ⟨fun hfound => hfound.resolve_left fun hfirst => hc hfirst.1, .inr⟩

/-- A pattern whose first character does not occur in it again does not overlap that character. -/
theorem infix_append_mark_iff {mark : Char} {tail : List Char} (htail : mark ∉ tail) :
    mark :: tail <:+: before ++ mark :: after ↔
      mark :: tail <:+: before ∨ mark :: tail <:+: mark :: after := by
  rw [List.infix_append_iff]
  constructor
  · rintro (hbefore | hafter | ⟨left, right, heq, hleft, hright⟩)
    · exact .inl hbefore
    · exact .inr hafter
    · rcases List.prefix_cons_iff.mp hright with rfl | ⟨rest, rfl, -⟩
      · rw [heq, List.append_nil]
        exact .inl hleft.isInfix
      · cases left with
        | nil =>
            rw [heq]
            exact .inr hright.isInfix
        | cons first others =>
            obtain ⟨-, rfl⟩ := List.cons.inj heq
            exact absurd (List.mem_append_right others List.mem_cons_self) htail
  · rintro (hbefore | hafter)
    · exact .inl hbefore
    · exact .inr (.inl hafter)

theorem infix_join_iff {sep : Char} (hne : pattern ≠ []) (hsep : sep ∉ pattern)
    (parts : List String) :
    pattern <:+: (join parts (String.singleton sep)).toList ↔
      ∃ part ∈ parts, pattern <:+: part.toList := by
  induction parts with
  | nil => simpa [join] using hne
  | cons first rest ih =>
      cases rest with
      | nil => simp [join]
      | cons second others =>
          have hjoin : (join (first :: second :: others) (String.singleton sep)).toList =
              first.toList ++ sep :: (join (second :: others) (String.singleton sep)).toList := by
            rw [join, String.intercalate_cons_cons, String.toList_append, String.toList_append,
              String.toList_singleton, List.append_assoc]
            rfl
          rw [hjoin, infix_append_cons_iff hne hsep, ih]
          simp

/-! ### First occurrences -/

theorem breakChars_eq_none_iff (hne : pattern ≠ []) :
    breakChars pattern text = none ↔ ¬ pattern <:+: text := by
  induction text with
  | nil => simpa [breakChars] using hne
  | cons c rest ih =>
      rw [breakChars, List.infix_cons_iff, not_or, ← List.isPrefixOf_iff_prefix]
      split
      · simp [*]
      · simp [*]

/-- Nothing of the pattern stands before its first occurrence. -/
theorem not_infix_of_breakChars (hne : pattern ≠ [])
    (h : breakChars pattern text = some (before, after)) : ¬ pattern <:+: before := by
  induction text generalizing before with
  | nil => cases h
  | cons c rest ih =>
      rw [breakChars] at h
      split at h
      · obtain ⟨rfl, -⟩ := Prod.mk.inj (Option.some.inj h)
        simpa using hne
      · rename_i hfirst
        obtain ⟨⟨front, back⟩, hrest, heq⟩ := Option.map_eq_some_iff.mp h
        obtain ⟨rfl, rfl⟩ := Prod.mk.inj heq
        rw [List.infix_cons_iff, not_or]
        refine ⟨fun hprefix => hfirst (List.isPrefixOf_iff_prefix.mpr ?_), ih hrest⟩
        refine hprefix.trans ?_
        rw [eq_append_of_breakChars hrest, List.append_assoc]
        exact List.prefix_append (c :: front) _

theorem exists_breakChars (hne : pattern ≠ []) (h : pattern <:+: text) :
    ∃ before after, breakChars pattern text = some (before, after) := by
  cases hbreak : breakChars pattern text with
  | none => exact absurd h ((breakChars_eq_none_iff hne).mp hbreak)
  | some parts => exact ⟨parts.1, parts.2, rfl⟩

theorem prefix_of_prefix_append_mark {mark : Char} {tail : List Char} (htail : mark ∉ tail)
    (hne : before ≠ []) (h : mark :: tail <+: before ++ mark :: after) :
    mark :: tail <+: before := by
  rcases List.prefix_or_prefix_of_prefix h (List.prefix_append before _) with hfits | ⟨rest, hrest⟩
  · exact hfits
  · cases rest with
    | nil => exact ⟨[], by rw [List.append_nil, ← hrest, List.append_nil]⟩
    | cons c others =>
        rw [← hrest, List.prefix_append_right_inj, List.cons_prefix_cons] at h
        obtain ⟨first, more, rfl⟩ := List.exists_cons_of_ne_nil hne
        obtain ⟨-, rfl⟩ := List.cons.inj hrest
        rw [h.1] at htail
        exact absurd (List.mem_append_right more List.mem_cons_self) htail

/-- A pattern whose first character does not occur in it again is found where it was put. -/
theorem breakChars_append {mark : Char} {tail : List Char} (htail : mark ∉ tail)
    (h : ¬ mark :: tail <:+: before) :
    breakChars (mark :: tail) (before ++ mark :: (tail ++ after)) = some (before, after) := by
  induction before with
  | nil =>
      have hfirst : (mark :: tail).isPrefixOf (mark :: (tail ++ after)) = true :=
        List.isPrefixOf_iff_prefix.mpr (List.prefix_append (mark :: tail) after)
      rw [List.nil_append, breakChars, if_pos hfirst]
      exact congrArg (fun rest => some ([], rest)) (@List.drop_left _ (mark :: tail) after)
  | cons c rest ih =>
      rw [List.infix_cons_iff, not_or] at h
      have hfirst : ¬ (mark :: tail).isPrefixOf (c :: (rest ++ mark :: (tail ++ after))) = true := by
        rw [List.isPrefixOf_iff_prefix]
        exact fun hprefix =>
          h.1 (prefix_of_prefix_append_mark htail (List.cons_ne_nil c rest) hprefix)
      rw [List.cons_append, breakChars, if_neg hfirst, ih h.2]
      rfl

/-- Behind the first occurrence the text goes on at least as far as behind another one. -/
theorem suffix_of_breakChars {mark : Char} {tail front back : List Char} (htail : mark ∉ tail)
    (h : breakChars (mark :: tail) (before ++ mark :: (tail ++ after)) = some (front, back)) :
    after <:+ back := by
  by_cases hbefore : mark :: tail <:+: before
  · obtain ⟨first, inside, hfirst⟩ := exists_breakChars (List.cons_ne_nil _ _) hbefore
    have hfound : breakChars (mark :: tail)
        (first ++ mark :: (tail ++ (inside ++ mark :: (tail ++ after)))) =
          some (first, inside ++ mark :: (tail ++ after)) :=
      breakChars_append htail (not_infix_of_breakChars (List.cons_ne_nil _ _) hfirst)
    have htext : before = first ++ mark :: (tail ++ inside) := by
      rw [eq_append_of_breakChars hfirst, List.append_assoc]
      rfl
    rw [htext, List.append_assoc, List.cons_append, List.append_assoc, hfound] at h
    obtain ⟨-, rfl⟩ := Prod.mk.inj (Option.some.inj h)
    exact ⟨inside ++ mark :: tail, by simp⟩
  · rw [breakChars_append htail hbefore] at h
    obtain ⟨-, rfl⟩ := Prod.mk.inj (Option.some.inj h)
    exact List.suffix_refl _

/-- A pattern is not found before a character of the front that starts it. -/
theorem breakChars_append_left {mark : Char} {tail front : List Char} (hfront : mark ∉ front)
    (text : List Char) :
    breakChars (mark :: tail) (front ++ text) =
      (breakChars (mark :: tail) text).map fun parts => (front ++ parts.1, parts.2) := by
  induction front with
  | nil => simp
  | cons c rest ih =>
      rw [List.mem_cons, not_or] at hfront
      have hfirst : ¬ (mark :: tail).isPrefixOf (c :: (rest ++ text)) = true := by
        rw [List.isPrefixOf_iff_prefix, List.cons_prefix_cons]
        exact fun hprefix => hfront.1 hprefix.1
      rw [List.cons_append, breakChars, if_neg hfirst, ih hfront.2, Option.map_map]
      rfl

end Occurrences

/-! ### Tags -/

/-- A pair of tags that start with the same character, which they do not have anywhere else, and of
which neither goes on as the other does. -/
structure Tags where
  mark : Char
  openingTail : List Char
  closingTail : List Char
  fresh_opening : mark ∉ openingTail
  fresh_closing : mark ∉ closingTail
  apart : ¬ openingTail <+: closingTail ∧ ¬ closingTail <+: openingTail

namespace Tags

variable (tags : Tags)

def opening : List Char := tags.mark :: tags.openingTail

def closing : List Char := tags.mark :: tags.closingTail

def wrap (block : List Char) : List Char := tags.opening ++ block ++ tags.closing

/-- What stands around a block is shorter than the text with it. -/
theorem length_lt_of_block {text before inside block rest : List Char}
    (hopening : breakChars tags.opening text = some (before, inside))
    (hclosing : breakChars tags.closing inside = some (block, rest)) :
    (before ++ rest).length < text.length := by
  have houter := length_lt_of_breakChars (List.cons_ne_nil _ _) hopening
  have hinner := length_lt_of_breakChars (List.cons_ne_nil _ _) hclosing
  rw [List.length_append]
  omega

/-- What stands between the tags, pair after pair; an opening tag without a closing one ends them. -/
def blocks (text : List Char) : List (List Char) :=
  match hopening : breakChars tags.opening text with
  | none => []
  | some (before, inside) =>
      match hclosing : breakChars tags.closing inside with
      | none => []
      | some (block, rest) =>
          have : rest.length < text.length := by
            have hblock := tags.length_lt_of_block hopening hclosing
            rw [List.length_append] at hblock
            omega
          block :: blocks rest
termination_by text.length

/-- The text without its blocks; what a removed block brings together is looked at again. -/
def without (text : List Char) : List Char :=
  match hopening : breakChars tags.opening text with
  | none => text
  | some (before, inside) =>
      match hclosing : breakChars tags.closing inside with
      | none => text
      | some (block, rest) =>
          have : (before ++ rest).length < text.length := tags.length_lt_of_block hopening hclosing
          without (before ++ rest)
termination_by text.length
decreasing_by exact this

variable {tags} {text before inside block rest : List Char}

theorem blocks_of_none (h : breakChars tags.opening text = none) : tags.blocks text = [] := by
  rw [blocks]
  split
  · rfl
  · rename_i heq
    rw [h] at heq
    cases heq

theorem blocks_of_some (hopening : breakChars tags.opening text = some (before, inside))
    (hclosing : breakChars tags.closing inside = some (block, rest)) :
    tags.blocks text = block :: tags.blocks rest := by
  rw [blocks]
  split
  · rename_i heq
    rw [hopening] at heq
    cases heq
  · rename_i heq
    rw [hopening] at heq
    obtain ⟨rfl, rfl⟩ := Prod.mk.inj (Option.some.inj heq)
    split
    · rename_i heq
      rw [hclosing] at heq
      cases heq
    · rename_i heq
      rw [hclosing] at heq
      obtain ⟨rfl, rfl⟩ := Prod.mk.inj (Option.some.inj heq)
      rfl

theorem blocks_of_open (hopening : breakChars tags.opening text = some (before, inside))
    (hclosing : breakChars tags.closing inside = none) : tags.blocks text = [] := by
  rw [blocks]
  split
  · rfl
  · rename_i heq
    rw [hopening] at heq
    obtain ⟨rfl, rfl⟩ := Prod.mk.inj (Option.some.inj heq)
    split
    · rfl
    · rename_i heq
      rw [hclosing] at heq
      cases heq

theorem without_of_none (h : breakChars tags.opening text = none) : tags.without text = text := by
  rw [without]
  split
  · rfl
  · rename_i heq
    rw [h] at heq
    cases heq

theorem without_of_open (hopening : breakChars tags.opening text = some (before, inside))
    (hclosing : breakChars tags.closing inside = none) : tags.without text = text := by
  rw [without]
  split
  · rfl
  · rename_i heq
    rw [hopening] at heq
    obtain ⟨rfl, rfl⟩ := Prod.mk.inj (Option.some.inj heq)
    split
    · rfl
    · rename_i heq
      rw [hclosing] at heq
      cases heq

theorem without_of_some (hopening : breakChars tags.opening text = some (before, inside))
    (hclosing : breakChars tags.closing inside = some (block, rest)) :
    tags.without text = tags.without (before ++ rest) := by
  rw [without]
  split
  · rename_i heq
    rw [hopening] at heq
    cases heq
  · rename_i heq
    rw [hopening] at heq
    obtain ⟨rfl, rfl⟩ := Prod.mk.inj (Option.some.inj heq)
    split
    · rename_i heq
      rw [hclosing] at heq
      cases heq
    · rename_i heq
      rw [hclosing] at heq
      obtain ⟨rfl, rfl⟩ := Prod.mk.inj (Option.some.inj heq)
      rfl

/-! ### What is left -/

/-- An opening tag with a closing tag somewhere behind it. -/
def Paired (text : List Char) : Prop :=
  ∃ before block after, text = before ++ tags.opening ++ block ++ tags.closing ++ after

theorem paired_of_infix {part : List Char} (h : tags.Paired part) (hpart : part <:+: text) :
    tags.Paired text := by
  obtain ⟨before, block, after, rfl⟩ := h
  obtain ⟨front, back, rfl⟩ := hpart
  exact ⟨front ++ before, block, after ++ back, by simp only [List.append_assoc]⟩

/-- The first opening tag has a closing tag behind it if any has. -/
theorem paired_iff : tags.Paired text ↔ ∃ before inside, breakChars tags.opening text =
    some (before, inside) ∧ tags.closing <:+: inside := by
  constructor
  · rintro ⟨front, block, after, rfl⟩
    have hopening : tags.opening <:+: front ++ tags.opening ++ block ++ tags.closing ++ after :=
      ⟨front, block ++ tags.closing ++ after, by simp only [List.append_assoc]⟩
    obtain ⟨before, inside, hfound⟩ := exists_breakChars (List.cons_ne_nil _ _) hopening
    have htext : front ++ tags.opening ++ block ++ tags.closing ++ after =
        front ++ tags.mark :: (tags.openingTail ++ (block ++ tags.closing ++ after)) := by
      simp [opening]
    have hsuffix : block ++ tags.closing ++ after <:+ inside := by
      rw [htext] at hfound
      exact suffix_of_breakChars tags.fresh_opening hfound
    have hclosing : tags.closing <:+: block ++ tags.closing ++ after := ⟨block, after, rfl⟩
    exact ⟨before, inside, hfound, hclosing.trans hsuffix.isInfix⟩
  · rintro ⟨before, inside, hfound, block, after, rfl⟩
    exact ⟨before, block, after, by rw [eq_append_of_breakChars hfound]; simp only [List.append_assoc]⟩

/-- No pair is left. -/
theorem not_paired_without (text : List Char) : ¬ tags.Paired (tags.without text) := by
  induction text using without.induct tags with
  | case1 text hopening =>
      rw [without_of_none hopening, paired_iff, hopening]
      rintro ⟨before, inside, hfound, -⟩
      cases hfound
  | case2 text before inside hopening hclosing =>
      rw [without_of_open hopening hclosing, paired_iff, hopening]
      rintro ⟨_, _, hfound, hinside⟩
      obtain ⟨rfl, rfl⟩ := Prod.mk.inj (Option.some.inj hfound)
      exact (breakChars_eq_none_iff (List.cons_ne_nil _ _)).mp hclosing hinside
  | case3 text before inside hopening block rest hclosing _ ih =>
      rwa [without_of_some hopening hclosing]

/-- A text without a pair stays as it is. -/
theorem without_of_not_paired (h : ¬ tags.Paired text) : tags.without text = text := by
  cases hopening : breakChars tags.opening text with
  | none => exact without_of_none hopening
  | some parts =>
      have hclosing : breakChars tags.closing parts.2 = none :=
        (breakChars_eq_none_iff (List.cons_ne_nil _ _)).mpr fun hinside =>
          h (paired_iff.mpr ⟨parts.1, parts.2, hopening, hinside⟩)
      exact without_of_open hopening hclosing

/-- The first closing tag behind an opening tag does not overlap it. -/
theorem breakChars_closing_opening (inside : List Char) :
    breakChars tags.closing (tags.opening ++ inside) =
      (breakChars tags.closing inside).map fun parts => (tags.opening ++ parts.1, parts.2) := by
  have hfirst : ¬ tags.closing.isPrefixOf (tags.mark :: (tags.openingTail ++ inside)) = true := by
    rw [List.isPrefixOf_iff_prefix, closing, List.cons_prefix_cons]
    rintro ⟨-, hprefix⟩
    rcases List.prefix_or_prefix_of_prefix hprefix (List.prefix_append tags.openingTail inside) with
      hfits | hfits
    · exact tags.apart.2 hfits
    · exact tags.apart.1 hfits
  rw [opening, List.cons_append, breakChars, if_neg hfirst]
  rw [closing, breakChars_append_left tags.fresh_opening, Option.map_map]
  rfl

/-! ### Texts that are put together -/

variable {prose : List Char}

theorem breakChars_opening (h : ¬ tags.opening <:+: prose) (rest : List Char) :
    breakChars tags.opening (prose ++ tags.opening ++ rest) = some (prose, rest) := by
  rw [List.append_assoc]
  exact breakChars_append tags.fresh_opening h

theorem breakChars_closing (h : ¬ tags.closing <:+: block) (rest : List Char) :
    breakChars tags.closing (block ++ tags.closing ++ rest) = some (block, rest) := by
  rw [List.append_assoc]
  exact breakChars_append tags.fresh_closing h

theorem breakChars_closing_wrap (h : ¬ tags.closing <:+: block) (rest : List Char) :
    breakChars tags.closing (block ++ (tags.closing ++ rest)) = some (block, rest) :=
  breakChars_append tags.fresh_closing h

theorem wrap_append (block rest : List Char) :
    tags.wrap block ++ rest = tags.opening ++ (block ++ (tags.closing ++ rest)) := by
  rw [wrap, List.append_assoc, List.append_assoc]

/-- The first occurrence of the opening tag is in front of the block. -/
theorem breakChars_wrap (h : ¬ tags.opening <:+: prose) (block rest : List Char) :
    breakChars tags.opening (prose ++ (tags.wrap block ++ rest)) =
      some (prose, block ++ (tags.closing ++ rest)) := by
  rw [wrap_append]
  exact breakChars_append tags.fresh_opening h

theorem blocks_prose (h : ¬ tags.opening <:+: prose) : tags.blocks prose = [] :=
  blocks_of_none ((breakChars_eq_none_iff (List.cons_ne_nil _ _)).mpr h)

theorem blocks_wrap (hprose : ¬ tags.opening <:+: prose) (hblock : ¬ tags.closing <:+: block)
    (rest : List Char) : tags.blocks (prose ++ (tags.wrap block ++ rest)) = block :: tags.blocks rest :=
  blocks_of_some (breakChars_wrap hprose block rest) (breakChars_closing_wrap hblock rest)

/-- A closing tag does not help to form an opening one. -/
theorem opening_infix_closing_iff :
    tags.opening <:+: before ++ (tags.closing ++ rest) ↔
      tags.opening <:+: before ∨ tags.opening <:+: rest := by
  have hclosing : tags.opening <:+: tags.mark :: (tags.closingTail ++ rest) ↔
      tags.opening <:+: rest := by
    rw [opening, List.infix_cons_iff, List.cons_prefix_cons,
      infix_append_iff_right tags.fresh_closing]
    refine ⟨fun h => h.resolve_left fun hfirst => ?_, .inr⟩
    rcases List.prefix_or_prefix_of_prefix hfirst.2 (List.prefix_append _ rest) with h | h
    · exact tags.apart.1 h
    · exact tags.apart.2 h
  rw [← hclosing]
  exact infix_append_mark_iff tags.fresh_opening

/-- Prose that ends in a closing tag without an opening one is passed over. -/
theorem blocks_closing (h : ¬ tags.opening <:+: prose) (rest : List Char) :
    tags.blocks (prose ++ (tags.closing ++ rest)) = tags.blocks rest := by
  have hne : tags.opening ≠ [] := List.cons_ne_nil _ _
  cases hopening : breakChars tags.opening rest with
  | none =>
      rw [blocks_of_none hopening, blocks_of_none]
      rw [breakChars_eq_none_iff hne] at hopening ⊢
      exact fun hfound => (opening_infix_closing_iff.mp hfound).elim h hopening
  | some parts =>
      obtain ⟨before, inside⟩ := parts
      have hbefore := not_infix_of_breakChars hne hopening
      have hfound : breakChars tags.opening (prose ++ (tags.closing ++ rest)) =
          some (prose ++ (tags.closing ++ before), inside) := by
        rw [eq_append_of_breakChars hopening, ← List.append_assoc, ← List.append_assoc,
          ← List.append_assoc, List.append_assoc prose]
        exact breakChars_opening
          (fun hfound => (opening_infix_closing_iff.mp hfound).elim h hbefore) inside
      cases hclosing : breakChars tags.closing inside with
      | none => rw [blocks_of_open hopening hclosing, blocks_of_open hfound hclosing]
      | some parts => rw [blocks_of_some hopening hclosing, blocks_of_some hfound hclosing]

/-- An opening tag does not help to form a closing one. -/
theorem closing_infix_opening_iff :
    tags.closing <:+: before ++ (tags.opening ++ rest) ↔
      tags.closing <:+: before ∨ tags.closing <:+: rest := by
  have hopening : tags.closing <:+: tags.mark :: (tags.openingTail ++ rest) ↔
      tags.closing <:+: rest := by
    rw [closing, List.infix_cons_iff, List.cons_prefix_cons,
      infix_append_iff_right tags.fresh_opening]
    refine ⟨fun h => h.resolve_left fun hfirst => ?_, .inr⟩
    rcases List.prefix_or_prefix_of_prefix hfirst.2 (List.prefix_append _ rest) with h | h
    · exact tags.apart.2 h
    · exact tags.apart.1 h
  rw [← hopening]
  exact infix_append_mark_iff tags.fresh_closing

theorem without_wrap (hprose : ¬ tags.opening <:+: prose) (hblock : ¬ tags.closing <:+: block)
    (rest : List Char) :
    tags.without (prose ++ (tags.wrap block ++ rest)) = tags.without (prose ++ rest) :=
  without_of_some (breakChars_wrap hprose block rest) (breakChars_closing_wrap hblock rest)

/-- There is no block if and only if no opening tag has a closing one behind it. -/
theorem blocks_eq_nil_iff :
    tags.blocks text = [] ↔ ¬ ∃ before block rest, text = before ++ (tags.wrap block ++ rest) := by
  constructor
  · rintro hnone ⟨before, block, rest, rfl⟩
    have hopening : tags.opening <:+: before ++ (tags.wrap block ++ rest) := by
      rw [wrap_append]
      exact ⟨before, _, List.append_assoc _ _ _⟩
    obtain ⟨front, inside, hopens⟩ := exists_breakChars (List.cons_ne_nil _ _) hopening
    have hinside : block ++ (tags.closing ++ rest) <:+ inside := by
      rw [wrap_append] at hopens
      exact suffix_of_breakChars tags.fresh_opening hopens
    have hclosing : tags.closing <:+: inside :=
      List.IsInfix.trans ⟨block, rest, List.append_assoc _ _ _⟩ hinside.isInfix
    obtain ⟨inner, later, hcloses⟩ := exists_breakChars (List.cons_ne_nil _ _) hclosing
    rw [blocks_of_some hopens hcloses] at hnone
    cases hnone
  · intro hnone
    cases hopening : breakChars tags.opening text with
    | none => exact blocks_of_none hopening
    | some parts =>
        cases hclosing : breakChars tags.closing parts.2 with
        | none => exact blocks_of_open hopening hclosing
        | some inner =>
            refine absurd ⟨parts.1, inner.1, inner.2, ?_⟩ hnone
            rw [eq_append_of_breakChars hopening, eq_append_of_breakChars hclosing, wrap_append]
            simp only [List.append_assoc]

variable (tags) in
/-- Prose, and behind it blocks with prose behind each of them. -/
def assemble (first : List Char) : List (List Char × List Char) → List Char
  | [] => first
  | (block, prose) :: rest => first ++ (tags.wrap block ++ assemble prose rest)

/-- The prose of such a text. -/
def proseOf (first : List Char) (pieces : List (List Char × List Char)) : List Char :=
  (first :: pieces.map Prod.snd).flatten

variable (tags) in
/-- The prose in front of the last block forms no opening tag, and all of it forms no block. -/
def Loose (first : List Char) (pieces : List (List Char × List Char)) : Prop :=
  ¬ tags.opening <:+: (first :: pieces.map Prod.snd).dropLast.flatten ∧
    tags.blocks (proseOf first pieces) = []

section Assembled

variable {first : List Char} {pieces : List (List Char × List Char)}

theorem append_assemble (front : List Char) :
    front ++ tags.assemble first pieces = tags.assemble (front ++ first) pieces := by
  cases pieces with
  | nil => rfl
  | cons piece rest => exact (List.append_assoc front first _).symm

theorem assemble_eq : tags.assemble first pieces = first ++ tags.assemble [] pieces := by
  rw [append_assemble, List.append_nil]

theorem proseOf_cons (piece : List Char × List Char) :
    proseOf first (piece :: pieces) = proseOf (first ++ piece.2) pieces := by
  simp [proseOf]

theorem proseOf_eq (front : List Char) : proseOf front pieces = front ++ proseOf [] pieces := by
  simp [proseOf]

theorem loose_cons_iff (piece : List Char × List Char) :
    tags.Loose first (piece :: pieces) ↔
      ¬ tags.opening <:+: first ∧ tags.Loose (first ++ piece.2) pieces := by
  rw [Loose, Loose, proseOf_cons, ← and_assoc, List.map_cons, List.dropLast_cons_cons]
  refine and_congr_left fun _ => ?_
  cases hrest : pieces.map Prod.snd with
  | nil => simp [opening]
  | cons second others =>
      rw [List.dropLast_cons_cons, List.dropLast_cons_cons, List.flatten_cons, List.flatten_cons,
        List.flatten_cons, ← List.append_assoc]
      refine ⟨fun h => ⟨fun hfirst => h ?_, h⟩, And.right⟩
      exact hfirst.trans ((List.prefix_append first _).trans (List.prefix_append _ _)).isInfix

/-- What is left of such a text is its prose if and only if the prose is loose; otherwise some of
the characters that a tag starts with are missing. -/
theorem without_assemble (hblocks : ∀ piece ∈ pieces, ¬ tags.closing <:+: piece.1)
    {counts : Char → Bool} (hmark : counts tags.mark = true) :
    tags.Loose first pieces ∧ tags.without (tags.assemble first pieces) = proseOf first pieces ∨
      ¬ tags.Loose first pieces ∧
        (tags.without (tags.assemble first pieces)).countP counts <
          (proseOf first pieces).countP counts := by
  induction hsize : (proseOf first pieces).length + pieces.length using Nat.strong_induction_on
    generalizing first pieces with
  | _ size ih =>
    subst hsize
    have hne : tags.opening ≠ [] := List.cons_ne_nil _ _
    have hle : ∀ (front : List Char) (others : List (List Char × List Char)),
        (∀ piece ∈ others, ¬ tags.closing <:+: piece.1) →
        (proseOf front others).length + others.length <
          (proseOf first pieces).length + pieces.length →
        (tags.without (tags.assemble front others)).countP counts ≤
          (proseOf front others).countP counts := by
      intro front others hothers hsize
      rcases ih _ hsize hothers rfl with ⟨-, heq⟩ | ⟨-, hlt⟩
      · rw [heq]
      · exact hlt.le
    cases hopening : breakChars tags.opening first with
    | none =>
        have hfirst := (breakChars_eq_none_iff hne).mp hopening
        cases pieces with
        | nil =>
            refine .inl ⟨⟨by simpa using hne, ?_⟩, ?_⟩
            · simpa [proseOf] using blocks_prose hfirst
            · simpa [assemble, proseOf] using without_of_none hopening
        | cons piece rest =>
            rw [List.forall_mem_cons] at hblocks
            have hshort : (proseOf (first ++ piece.2) rest).length + rest.length <
                (proseOf first (piece :: rest)).length + (piece :: rest).length := by
              rw [proseOf_cons, List.length_cons]
              omega
            rw [assemble, without_wrap hfirst hblocks.1, append_assemble, loose_cons_iff,
              proseOf_cons, and_iff_right hfirst]
            exact ih _ hshort hblocks.2 rfl
    | some parts =>
        obtain ⟨before, inside⟩ := parts
        have hfirst := eq_append_of_breakChars hopening
        have hbefore := not_infix_of_breakChars hne hopening
        have hcounted : 0 < tags.opening.countP counts := by
          rw [opening, List.countP_cons_of_pos hmark]
          omega
        cases hclosing : breakChars tags.closing inside with
        | some parts =>
            obtain ⟨block, rest⟩ := parts
            have hinside := eq_append_of_breakChars hclosing
            have hopens : ∀ later, breakChars tags.opening (first ++ later) =
                some (before, inside ++ later) := by
              intro later
              rw [hfirst, List.append_assoc]
              exact breakChars_opening hbefore _
            have hcloses : ∀ later, breakChars tags.closing (inside ++ later) =
                some (block, rest ++ later) := by
              intro later
              rw [hinside, List.append_assoc]
              exact breakChars_closing (not_infix_of_breakChars (List.cons_ne_nil _ _) hclosing) _
            have hwithout : tags.without (tags.assemble first pieces) =
                tags.without (tags.assemble (before ++ rest) pieces) := by
              rw [assemble_eq, without_of_some (hopens _) (hcloses _), ← List.append_assoc,
                ← assemble_eq]
            refine .inr ⟨fun hloose => ?_, ?_⟩
            · have hnone := hloose.2
              rw [proseOf_eq, blocks_of_some (hopens _) (hcloses _)] at hnone
              cases hnone
            · rw [hwithout]
              have hless := hle (before ++ rest) pieces hblocks (by
                rw [proseOf_eq, proseOf_eq first, hfirst, hinside]
                simp only [List.length_append, opening, closing, List.length_cons]
                omega)
              refine hless.trans_lt ?_
              rw [proseOf_eq, proseOf_eq first, hfirst, hinside]
              simp only [List.countP_append]
              omega
        | none =>
            cases pieces with
            | nil =>
                refine .inl ⟨⟨by simpa using hne, ?_⟩, ?_⟩
                · simpa [proseOf] using blocks_of_open hopening hclosing
                · simpa [assemble, proseOf] using without_of_open hopening hclosing
            | cons piece rest =>
                rw [List.forall_mem_cons] at hblocks
                have hnone := (breakChars_eq_none_iff (List.cons_ne_nil _ _)).mp hclosing
                have hopens : breakChars tags.opening (tags.assemble first (piece :: rest)) =
                    some (before, inside ++ (tags.wrap piece.1 ++ tags.assemble piece.2 rest)) := by
                  rw [assemble, hfirst, List.append_assoc]
                  exact breakChars_opening hbefore _
                have hcloses : breakChars tags.closing
                    (inside ++ (tags.wrap piece.1 ++ tags.assemble piece.2 rest)) =
                      some (inside ++ (tags.opening ++ piece.1), tags.assemble piece.2 rest) := by
                  rw [wrap_append, ← List.append_assoc tags.opening, ← List.append_assoc inside]
                  apply breakChars_closing_wrap
                  exact fun hfound => (closing_infix_opening_iff.mp hfound).elim hnone hblocks.1
                have hwithout : tags.without (tags.assemble first (piece :: rest)) =
                    tags.without (tags.assemble (before ++ piece.2) rest) := by
                  rw [without_of_some hopens hcloses, append_assemble]
                refine .inr ⟨fun hloose => ?_, ?_⟩
                · apply ((loose_cons_iff piece).mp hloose).1
                  rw [hfirst, List.append_assoc]
                  exact ⟨before, inside, List.append_assoc _ _ _⟩
                · rw [hwithout]
                  have hless := hle (before ++ piece.2) rest hblocks.2 (by
                    rw [proseOf_cons, proseOf_eq, proseOf_eq (first ++ piece.2), hfirst]
                    simp only [List.length_append, List.length_cons, opening]
                    omega)
                  refine hless.trans_lt ?_
                  rw [proseOf_cons, proseOf_eq, proseOf_eq (first ++ piece.2), hfirst]
                  simp only [List.countP_append]
                  omega

end Assembled

end Tags

end Text
