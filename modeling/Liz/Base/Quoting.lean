import Liz.Base.Tags

/-!
# Strings in a text

A text with quoted strings is read character by character, with a backslash that escapes the next
one inside a string. A text that is cut inside a string and read from the outside on takes its
strings for what is between them: the two readings are inverse as long as both go on. A tag that ends
a text in a string therefore leaves two cut pieces.
-/

namespace Quoting

inductive Place
  | outside | inside | escaped
  deriving DecidableEq, Repr

variable (bare : Char → Bool)

/-- Outside of strings only bare characters may stand. -/
def step : Place → Char → Option Place
  | .outside, c => if c = '"' then some .inside else if bare c then some .outside else none
  | .inside, c =>
      if c = '"' then some .outside else if c = '\\' then some .escaped else some .inside
  | .escaped, _ => some .inside

def lex : Place → List Char → Option Place
  | place, [] => some place
  | place, c :: rest => (step bare place c).bind (lex · rest)

/-- What stands in the strings of a text. -/
def quoted : Place → List Char → List Char
  | _, [] => []
  | .outside, c :: rest => quoted (if c = '"' then .inside else .outside) rest
  | .inside, c :: rest =>
      if c = '"' then quoted .outside rest
      else c :: quoted (if c = '\\' then .escaped else .inside) rest
  | .escaped, c :: rest => c :: quoted .inside rest

variable {bare} {place other : Place} {text : List Char}

theorem lex_append (before after : List Char) :
    lex bare place (before ++ after) = (lex bare place before).bind (lex bare · after) := by
  induction before generalizing place with
  | nil => rfl
  | cons c rest ih =>
      rw [List.cons_append, lex, lex]
      cases step bare place c with
      | none => rfl
      | some next => exact ih

theorem isSome_lex_of_append {before after : List Char}
    (h : (lex bare place (before ++ after)).isSome) : (lex bare place before).isSome := by
  rw [lex_append] at h
  cases hbefore : lex bare place before with
  | none =>
      rw [hbefore] at h
      cases h
  | some next => rfl

theorem lex_outside_cons {c : Char} {rest : List Char} (hc : c ≠ '"')
    (h : lex bare .outside (c :: rest) = some other) :
    bare c = true ∧ lex bare .outside rest = some other := by
  rw [lex, step, if_neg hc] at h
  cases hbare : bare c with
  | true =>
      rw [hbare] at h
      exact ⟨rfl, h⟩
  | false =>
      rw [hbare] at h
      cases h

theorem lex_inside_cons {c : Char} (hquote : c ≠ '"') (hescape : c ≠ '\\') (rest : List Char) :
    lex bare .inside (c :: rest) = lex bare .inside rest := by
  rw [lex, step, if_neg hquote, if_neg hescape]
  rfl

/-- Where a text can be read from the inside and from the outside of a string on, either reading
has only bare characters in its strings. -/
theorem bare_of_mem_quoted (hescape : bare '\\' = false) (hinside : (lex bare .inside text).isSome)
    (houtside : (lex bare .outside text).isSome) :
    (∀ c ∈ quoted .outside text, bare c = true) ∧ ∀ c ∈ quoted .inside text, bare c = true := by
  induction text with
  | nil => exact ⟨fun _ hc => absurd hc List.not_mem_nil, fun _ hc => absurd hc List.not_mem_nil⟩
  | cons c rest ih =>
      by_cases hquote : c = '"'
      · subst hquote
        obtain ⟨houter, hinner⟩ := ih houtside hinside
        exact ⟨hinner, houter⟩
      · obtain ⟨last, hlast⟩ := Option.isSome_iff_exists.mp houtside
        obtain ⟨hbare, hrest⟩ := lex_outside_cons hquote hlast
        have hplain : c ≠ '\\' := by
          rintro rfl
          rw [hescape] at hbare
          cases hbare
        rw [lex_inside_cons hquote hplain] at hinside
        obtain ⟨houter, hinner⟩ := ih hinside (by rw [hrest]; rfl)
        rw [quoted, quoted, if_neg hquote, if_neg hquote, if_neg hplain]
        exact ⟨houter, List.forall_mem_cons.mpr ⟨hbare, hinner⟩⟩

/-! ### Cut pieces -/

/-- A text that ends inside a string, or starts inside one. -/
def Cut (bare : Char → Bool) (text : List Char) : Prop :=
  (∃ place, place ≠ .outside ∧ lex bare .outside text = some place) ∨
    (lex bare .inside text).isSome

theorem lex_outside_append {spaces : List Char} (hspaces : ∀ c ∈ spaces, c ≠ '"')
    (h : lex bare .outside (spaces ++ text) = some place) : lex bare .outside text = some place := by
  induction spaces with
  | nil => exact h
  | cons c rest ih =>
      rw [List.forall_mem_cons] at hspaces
      exact ih hspaces.2 (lex_outside_cons hspaces.1 h).2

theorem lex_inside_append {spaces : List Char} (hquote : '"' ∉ spaces) (hescape : '\\' ∉ spaces) :
    lex bare .inside (spaces ++ text) = lex bare .inside text := by
  induction spaces with
  | nil => rfl
  | cons c rest ih =>
      rw [List.mem_cons, not_or] at hquote hescape
      rw [List.cons_append, lex_inside_cons (Ne.symm hquote.1) (Ne.symm hescape.1),
        ih hquote.2 hescape.2]

/-- In front of a character that must not stand outside of strings a string is open, and it stays
open behind characters that end none. -/
theorem lex_around {mark : Char} {tail before after : List Char} (hmark : bare mark = false)
    (hplain : '"' ∉ mark :: tail ∧ '\\' ∉ mark :: tail)
    (h : (lex bare place (before ++ mark :: (tail ++ after))).isSome) :
    (∃ last, last ≠ .outside ∧ lex bare place before = some last) ∧
      (lex bare .inside after).isSome := by
  rw [List.mem_cons, List.mem_cons, not_or, not_or] at hplain
  obtain ⟨⟨hquote, hquotes⟩, hescape, hescapes⟩ := hplain
  obtain ⟨last, hlast⟩ := Option.isSome_iff_exists.mp (isSome_lex_of_append h)
  rw [lex_append, hlast, Option.bind_some] at h
  have hinside : (lex bare .inside (tail ++ after)).isSome → (lex bare .inside after).isSome := by
    rw [lex_inside_append hquotes hescapes]
    exact id
  cases last with
  | outside =>
      rw [lex, step, if_neg (Ne.symm hquote), hmark] at h
      cases h
  | inside =>
      rw [lex_inside_cons (Ne.symm hquote) (Ne.symm hescape)] at h
      exact ⟨⟨.inside, by decide, hlast⟩, hinside h⟩
  | escaped => exact ⟨⟨.escaped, by decide, hlast⟩, hinside h⟩

/-- White space around a cut piece does not matter. -/
theorem Cut.trim {s : String} (h : Cut bare s.toList) : Cut bare (Text.trim s).toList := by
  obtain ⟨front, back, htext, hfront, hback⟩ := Text.exists_trim s
  have hspace : ∀ c, Text.isWhitespace c = true → c ≠ '"' ∧ c ≠ '\\' := by
    intro c hc
    constructor <;> rintro rfl <;> exact absurd hc (by decide)
  rw [htext] at h
  rcases h with ⟨last, hlast, hlex⟩ | hlex
  · have hmiddle := lex_outside_append (fun c hc => (hspace c (hfront c hc)).1) hlex
    rw [lex_append] at hmiddle
    obtain ⟨middle, hfound, hback'⟩ := Option.bind_eq_some_iff.mp hmiddle
    refine .inl ⟨middle, ?_, hfound⟩
    rintro rfl
    rw [← List.append_nil back] at hback'
    exact hlast (Option.some.inj
      (lex_outside_append (fun c hc => (hspace c (hback c hc)).1) hback')).symm
  · rw [lex_inside_append (fun hmem => (hspace _ (hfront _ hmem)).1 rfl)
      fun hmem => (hspace _ (hfront _ hmem)).2 rfl] at hlex
    exact .inr (isSome_lex_of_append hlex)

/-! ### Tags in strings -/

open Text

/-- Tags stand in strings only, and end none. -/
structure Foreign (bare : Char → Bool) (tags : Tags) : Prop where
  mark : bare tags.mark = false
  opening : '"' ∉ tags.opening ∧ '\\' ∉ tags.opening
  closing : '"' ∉ tags.closing ∧ '\\' ∉ tags.closing

section Tagged

variable {bare : Char → Bool} {tags : Tags} {α : Type} {read : List Char → Option α}

/-- What stands in front of a tag is cut off, and what stands behind it goes on in the string. -/
theorem Foreign.around_closing (h : Foreign bare tags) {place : Place} {block after : List Char}
    (hlex : (lex bare place (block ++ (tags.closing ++ after))).isSome) :
    (∃ last, last ≠ .outside ∧ lex bare place block = some last) ∧ (lex bare .inside after).isSome :=
  lex_around h.mark h.closing hlex

theorem Foreign.around_opening (h : Foreign bare tags) {place : Place} {block after : List Char}
    (hlex : (lex bare place (block ++ (tags.opening ++ after))).isSome) :
    (∃ last, last ≠ .outside ∧ lex bare place block = some last) ∧ (lex bare .inside after).isSome :=
  lex_around h.mark h.opening hlex

/-- The rest of a block that a tag in a string has ended has nothing to read. -/
theorem Foreign.filterMap_blocks_inside (h : Foreign bare tags)
    (hread : ∀ block, Cut bare block → read block = none) {text rest : List Char}
    (hinside : (lex bare .inside text).isSome) :
    (tags.blocks (text ++ (tags.closing ++ rest))).filterMap read =
      (tags.blocks rest).filterMap read := by
  induction hsize : text.length using Nat.strong_induction_on generalizing text with
  | _ size ih =>
    subst hsize
    cases hopening : breakChars tags.opening text with
    | none =>
        rw [Tags.blocks_closing
          ((breakChars_eq_none_iff (List.cons_ne_nil _ _)).mp hopening)]
    | some parts =>
        obtain ⟨before, inside⟩ := parts
        have htext := eq_append_of_breakChars hopening
        have hopens : breakChars tags.opening (text ++ (tags.closing ++ rest)) =
            some (before, inside ++ (tags.closing ++ rest)) := by
          rw [htext, List.append_assoc]
          exact Tags.breakChars_opening
            (not_infix_of_breakChars (List.cons_ne_nil _ _) hopening) _
        rw [htext, List.append_assoc] at hinside
        have hblock := (h.around_opening hinside).2
        cases hclosing : breakChars tags.closing inside with
        | none =>
            have hclosed := (breakChars_eq_none_iff (List.cons_ne_nil _ _)).mp hclosing
            rw [Tags.blocks_of_some hopens (Tags.breakChars_closing_wrap hclosed rest),
              List.filterMap_cons_none (hread inside (.inr hblock))]
        | some parts =>
            obtain ⟨block, later⟩ := parts
            have hcloses : breakChars tags.closing (inside ++ (tags.closing ++ rest)) =
                some (block, later ++ (tags.closing ++ rest)) := by
              rw [eq_append_of_breakChars hclosing, List.append_assoc]
              exact Tags.breakChars_closing
                (not_infix_of_breakChars (List.cons_ne_nil _ _) hclosing) _
            rw [eq_append_of_breakChars hclosing, List.append_assoc] at hblock
            obtain ⟨⟨last, -, hlast⟩, hlater⟩ := h.around_closing hblock
            have hshort : later.length < text.length := by
              have hlength := tags.length_lt_of_block hopening hclosing
              rw [List.length_append] at hlength
              omega
            rw [Tags.blocks_of_some hopens hcloses,
              List.filterMap_cons_none (hread block (.inr (Option.isSome_of_eq_some hlast)))]
            exact ih _ hshort hlater rfl

/-- What is read between the prose of a text are the blocks without a closing tag. -/
theorem Foreign.filterMap_blocks_assemble (h : Foreign bare tags)
    (hread : ∀ block, Cut bare block → read block = none) {first : List Char}
    {pieces : List (List Char × List Char)} (hfirst : ¬ tags.opening <:+: first)
    (hprose : ∀ piece ∈ pieces, ¬ tags.opening <:+: piece.2)
    (hblocks : ∀ piece ∈ pieces, (lex bare .outside piece.1).isSome) :
    (tags.blocks (tags.assemble first pieces)).filterMap read =
      ((pieces.map Prod.fst).filter fun block => ¬ tags.closing <:+: block).filterMap read := by
  induction pieces generalizing first with
  | nil =>
      rw [Tags.assemble, Tags.blocks_prose hfirst]
      rfl
  | cons piece rest ih =>
      rw [List.forall_mem_cons] at hprose hblocks
      rw [Tags.assemble, List.map_cons]
      by_cases hcloses : tags.closing <:+: piece.1
      · obtain ⟨block, later, hclosing⟩ := exists_breakChars (List.cons_ne_nil _ _) hcloses
        have hpiece := eq_append_of_breakChars hclosing
        rw [hpiece, List.append_assoc] at hblocks
        obtain ⟨⟨last, hlast, hlex⟩, hlater⟩ := h.around_closing hblocks.1
        have hends : breakChars tags.closing
            (piece.1 ++ (tags.closing ++ tags.assemble piece.2 rest)) =
              some (block, later ++ (tags.closing ++ tags.assemble piece.2 rest)) := by
          rw [hpiece, List.append_assoc]
          exact Tags.breakChars_closing
            (not_infix_of_breakChars (List.cons_ne_nil _ _) hclosing) _
        rw [Tags.blocks_of_some (Tags.breakChars_wrap hfirst _ _) hends,
          List.filterMap_cons_none (hread block (.inl ⟨last, hlast, hlex⟩)),
          h.filterMap_blocks_inside hread hlater, ih hprose.1 hprose.2 hblocks.2,
          List.filter_cons_of_neg (by simpa using hcloses)]
      · rw [Tags.blocks_wrap hfirst hcloses, List.filter_cons_of_pos (by simpa using hcloses),
          List.filterMap_cons, List.filterMap_cons, ih hprose.1 hprose.2 hblocks.2]

end Tagged

/-! ### Escaped characters

A text with a backslash in front of every character that would mean something else is the shortest
one that is read as it.
-/

section Escaping

variable (special : Char → Bool)

def escape (text : List Char) : List Char :=
  text.flatMap fun c => if special c then ['\\', c] else [c]

/-- Reads a text in which a backslash takes the next character as it is, and no other special
character may stand; `escaped` says that there is a backslash in front. -/
def unescape : Bool → List Char → Option (List Char)
  | false, [] => some []
  | true, [] => none
  | true, c :: rest => (unescape false rest).map (c :: ·)
  | false, c :: rest =>
      if c = '\\' then unescape true rest
      else if special c then none
      else (unescape false rest).map (c :: ·)

variable {special} {text spelled : List Char}

theorem unescape_escape_append (hmark : special '\\' = true) (rest : List Char) :
    unescape special false (escape special text ++ rest) =
      (unescape special false rest).map (text ++ ·) := by
  induction text with
  | nil => simp [escape]
  | cons c text ih =>
      rw [escape, List.flatMap_cons, ← escape, List.append_assoc]
      have hnext : (unescape special false (escape special text ++ rest)).map (c :: ·) =
          (unescape special false rest).map (c :: text ++ ·) := by
        rw [ih, Option.map_map]
        rfl
      by_cases hspecial : special c = true
      · rw [if_pos hspecial]
        exact hnext
      · have hplain : c ≠ '\\' := fun hc => hspecial (hc ▸ hmark)
        rw [if_neg hspecial, List.singleton_append, unescape, if_neg hplain, if_neg hspecial]
        exact hnext

theorem unescape_escape (hmark : special '\\' = true) :
    unescape special false (escape special text) = some text := by
  have h : unescape special false (escape special text ++ []) = some (text ++ []) :=
    unescape_escape_append hmark []
  rwa [List.append_nil, List.append_nil] at h

theorem escape_cons (c : Char) :
    escape special (c :: text) =
      if special c then '\\' :: c :: escape special text else c :: escape special text := by
  rw [escape, List.flatMap_cons, ← escape]
  split <;> rfl

/-- The characters in front of which the reader stands, with the backslash it has read. -/
def resumed (escaped : Bool) (spelled : List Char) : List Char :=
  if escaped then '\\' :: spelled else spelled

/-- What is read as the text is as long at least, and longer unless it is the escaped text. -/
theorem escape_shortest {escaped : Bool} (h : unescape special escaped spelled = some text) :
    (escape special text).length ≤ (resumed escaped spelled).length ∧
      ((resumed escaped spelled).length ≤ (escape special text).length →
        resumed escaped spelled = escape special text) := by
  induction spelled generalizing escaped text with
  | nil =>
      cases escaped with
      | false =>
          obtain rfl := Option.some.inj h
          exact ⟨le_rfl, fun _ => rfl⟩
      | true => cases h
  | cons c rest ih =>
      cases escaped with
      | true =>
          obtain ⟨inner, hinner, rfl⟩ := Option.map_eq_some_iff.mp h
          obtain ⟨hle, heq⟩ := ih hinner
          rw [escape_cons]
          simp only [resumed, if_true, List.length_cons, Bool.false_eq_true, if_false] at hle heq ⊢
          by_cases hspecial : special c = true
          · rw [if_pos hspecial]
            refine ⟨by simpa using hle, fun hlong => ?_⟩
            rw [heq (by simpa using hlong)]
          · rw [if_neg hspecial, List.length_cons]
            exact ⟨by omega, fun hlong => absurd hlong (by omega)⟩
      | false =>
          rw [unescape] at h
          by_cases hmark : c = '\\'
          · rw [if_pos hmark] at h
            subst hmark
            exact ih h
          · rw [if_neg hmark] at h
            by_cases hspecial : special c = true
            · rw [if_pos hspecial] at h
              cases h
            · rw [if_neg hspecial] at h
              obtain ⟨inner, hinner, rfl⟩ := Option.map_eq_some_iff.mp h
              obtain ⟨hle, heq⟩ := ih hinner
              rw [escape_cons, if_neg hspecial]
              simp only [resumed, Bool.false_eq_true, if_false, List.length_cons] at hle heq ⊢
              exact ⟨by omega, fun hlong => by rw [heq (by omega)]⟩

end Escaping

end Quoting
