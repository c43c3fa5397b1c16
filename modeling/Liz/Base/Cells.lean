import Mathlib.Data.List.Infix

/-!
# Text in cells

A terminal draws each character in some number of cells. A text is cut to a room of so many cells,
words are filled into lines of so many cells, and a text that is printed takes rows of so many
cells. The width of a character is a parameter.
-/

namespace Cells

section Widths

variable (cells : Char → Nat)

def width : List Char → Nat
  | [] => 0
  | c :: rest => cells c + width rest

/-- What is kept while there is room for one cell more. -/
def kept (room : Nat) : Nat → List Char → List Char
  | _, [] => []
  | used, c :: rest =>
      if room ≤ used + cells c then [] else c :: kept room (used + cells c) rest

/-- A text that is too wide loses its end to a mark. -/
def cut (mark : Char) (room : Nat) (text : List Char) : List Char :=
  if width cells text ≤ room then text
  else kept cells room 0 text ++ if 0 < room then [mark] else []

/-- The character is in what is left of the text in the room. -/
def Reaches (room : Nat) (c : Char) (text : List Char) : Prop :=
  ∃ before after, text = before ++ c :: after ∧
    (width cells text ≤ room ∨ width cells before + cells c < room)

/-- The rows that a terminal takes for a text once some cells of a row are used: a character that
does not fit goes to the next row, as a line break does. -/
def rows (room : Nat) : Nat → List Char → Nat
  | _, [] => 1
  | used, c :: rest =>
      if c = '\n' then rows room 0 rest + 1
      else if room < used + cells c then rows room (cells c) rest + 1
      else rows room (used + cells c) rest

variable {cells}

theorem width_append (text more : List Char) :
    width cells (text ++ more) = width cells text + width cells more := by
  induction text with
  | nil => rw [List.nil_append, width, Nat.zero_add]
  | cons c rest ih => rw [List.cons_append, width, width, ih, Nat.add_assoc]

theorem width_replicate (c : Char) (count : Nat) :
    width cells (List.replicate count c) = count * cells c := by
  induction count with
  | zero => rw [List.replicate_zero, width, Nat.zero_mul]
  | succ count ih => rw [List.replicate_succ, width, ih, Nat.succ_mul, Nat.add_comm]

theorem width_kept_lt {room used : Nat} (h : used < room) (text : List Char) :
    used + width cells (kept cells room used text) < room := by
  induction text generalizing used with
  | nil => exact h
  | cons c rest ih =>
      rw [kept]
      split
      · exact h
      next hroom =>
        rw [width, ← Nat.add_assoc]
        exact ih (Nat.lt_of_not_le hroom)

theorem cut_zero (mark : Char) (text : List Char) : width cells (cut cells mark 0 text) = 0 := by
  rw [cut]
  split
  next hfits => exact Nat.le_zero.mp hfits
  · cases text with
    | nil => rfl
    | cons c rest =>
        rw [kept, if_pos (Nat.zero_le _)]
        rfl

theorem width_cut_le {mark : Char} (hmark : cells mark ≤ 1) (room : Nat) (text : List Char) :
    width cells (cut cells mark room text) ≤ room := by
  rcases Nat.eq_zero_or_pos room with rfl | hroom
  · exact Nat.le_of_eq (cut_zero mark text)
  · by_cases hfits : width cells text ≤ room
    · rw [cut, if_pos hfits]
      exact hfits
    · have hkept : 0 + width cells (kept cells room 0 text) < room := width_kept_lt hroom text
      rw [cut, if_neg hfits, if_pos hroom, width_append, width, width]
      omega

theorem mem_kept_iff {room used : Nat} {c : Char} {text : List Char} :
    c ∈ kept cells room used text ↔
      ∃ before after, text = before ++ c :: after ∧
        used + width cells before + cells c < room := by
  induction text generalizing used with
  | nil => simp [kept]
  | cons d rest ih =>
      rw [kept]
      split
      next hroom =>
        refine iff_of_false List.not_mem_nil ?_
        rintro ⟨before, after, htext, hlt⟩
        cases before with
        | nil =>
            rw [← (List.cons.inj htext).1, width] at hlt
            omega
        | cons first others =>
            rw [← (List.cons.inj htext).1, width] at hlt
            omega
      next hroom =>
        rw [List.mem_cons, ih]
        constructor
        · rintro (rfl | ⟨before, after, rfl, hlt⟩)
          · exact ⟨[], rest, rfl, by rw [width]; omega⟩
          · exact ⟨d :: before, after, rfl, by rw [width]; omega⟩
        · rintro ⟨before, after, htext, hlt⟩
          cases before with
          | nil => exact .inl (List.cons.inj htext).1.symm
          | cons first others =>
              obtain ⟨rfl, hrest⟩ := List.cons.inj htext
              refine .inr ⟨others, after, hrest, ?_⟩
              rw [width] at hlt
              omega

theorem mem_cut_iff {mark c : Char} (hc : c ≠ mark) {room : Nat} {text : List Char} :
    c ∈ cut cells mark room text ↔ Reaches cells room c text := by
  rw [cut, Reaches]
  split
  next hfits =>
    rw [List.mem_iff_append]
    exact exists₂_congr fun _ _ => (and_iff_left (.inl hfits)).symm
  next hwide =>
    have hmark : c ∉ if 0 < room then [mark] else [] := by
      split
      · exact fun hmem => hc (List.mem_singleton.mp hmem)
      · exact List.not_mem_nil
    rw [List.mem_append, or_iff_left hmark, mem_kept_iff]
    refine exists₂_congr fun _ _ => and_congr_right fun _ => ?_
    rw [Nat.zero_add, or_iff_right hwide]

/-- What stands in a cut text stands in the text, or is the mark. -/
theorem mem_of_mem_cut {mark c : Char} {room : Nat} {text : List Char}
    (h : c ∈ cut cells mark room text) (hc : c ≠ mark) : c ∈ text := by
  obtain ⟨before, after, rfl, -⟩ := (mem_cut_iff hc).mp h
  exact List.mem_append_right before List.mem_cons_self

theorem rows_of_fits {room used : Nat} {text : List Char} (hline : '\n' ∉ text)
    (hfits : used + width cells text ≤ room) : rows cells room used text = 1 := by
  induction text generalizing used with
  | nil => rfl
  | cons c rest ih =>
      rw [List.mem_cons, not_or] at hline
      rw [width] at hfits
      rw [rows, if_neg (Ne.symm hline.1), if_neg (by omega)]
      exact ih hline.2 (by omega)

end Widths

/-! ### Filling lines -/

section Filling

variable {α : Type} (size : α → Nat)

/-- The size of a line whose words stand one cell apart. -/
def lineSize : List α → Nat
  | [] => 0
  | [word] => size word
  | word :: next :: rest => size word + 1 + lineSize (next :: rest)

/-- The words from left to right, each on the line before if there is room. -/
def fill (room : Nat) : List α → List α → List (List α)
  | current, [] => if current.isEmpty then [] else [current]
  | current, word :: rest =>
      if current.isEmpty then fill room [word] rest
      else if lineSize size current + 1 + size word ≤ room then fill room (current ++ [word]) rest
      else current :: fill room [word] rest

variable {size}

theorem lineSize_concat {current : List α} (h : current ≠ []) (word : α) :
    lineSize size (current ++ [word]) = lineSize size current + 1 + size word := by
  induction current with
  | nil => exact absurd rfl h
  | cons first rest ih =>
      cases rest with
      | nil => rfl
      | cons second others =>
          have hrest := ih (List.cons_ne_nil second others)
          simp only [List.cons_append, lineSize] at hrest ⊢
          omega

theorem size_le_lineSize {line : List α} {word : α} (h : word ∈ line) :
    size word ≤ lineSize size line := by
  induction line with
  | nil => exact absurd h List.not_mem_nil
  | cons first rest ih =>
      cases rest with
      | nil =>
          rw [List.mem_singleton.mp h, lineSize]
      | cons second others =>
          rw [lineSize]
          rcases List.mem_cons.mp h with rfl | h
          · omega
          · have hrest := ih h
            omega

/-- A line of more than one word is not wider than the room. -/
theorem fits_of_mem_fill {room : Nat} {current words line : List α}
    (hcurrent : current.length ≤ 1 ∨ lineSize size current ≤ room)
    (h : line ∈ fill size room current words) : line.length ≤ 1 ∨ lineSize size line ≤ room := by
  induction words generalizing current with
  | nil =>
      rw [fill] at h
      split at h
      · exact absurd h List.not_mem_nil
      · rw [List.mem_singleton.mp h]
        exact hcurrent
  | cons word rest ih =>
      have hone : [word].length ≤ 1 ∨ lineSize size [word] ≤ room := .inl (Nat.le_refl 1)
      rw [fill] at h
      split at h
      · exact ih hone h
      next hne =>
        split at h
        next hroom =>
          refine ih (.inr ?_) h
          rwa [lineSize_concat (fun hnil => hne (List.isEmpty_iff.mpr hnil))]
        · rcases List.mem_cons.mp h with rfl | h
          · exact hcurrent
          · exact ih hone h

/-- A line is not wider than the room if none of its words is. -/
theorem lineSize_le_iff {room : Nat} {line : List α}
    (h : line.length ≤ 1 ∨ lineSize size line ≤ room) :
    lineSize size line ≤ room ↔ ∀ word ∈ line, size word ≤ room := by
  constructor
  · exact fun hline word hword => (size_le_lineSize hword).trans hline
  · intro hwords
    rcases h with hone | hline
    · cases line with
      | nil => exact Nat.zero_le room
      | cons word rest =>
          obtain rfl : rest = [] := List.eq_nil_of_length_eq_zero (by simpa using hone)
          exact hwords word List.mem_cons_self
    · exact hline

theorem mem_of_mem_fill {room : Nat} {current words line : List α} {word : α}
    (hline : line ∈ fill size room current words) (h : word ∈ line) :
    word ∈ current ∨ word ∈ words := by
  induction words generalizing current with
  | nil =>
      rw [fill] at hline
      split at hline
      · exact absurd hline List.not_mem_nil
      · rw [List.mem_singleton.mp hline] at h
        exact .inl h
  | cons next rest ih =>
      have hnext : word ∈ [next] ∨ word ∈ rest → word ∈ current ∨ word ∈ next :: rest :=
        fun hmem => .inr (List.mem_cons.mpr (hmem.imp List.mem_singleton.mp id))
      rw [fill] at hline
      split at hline
      · exact hnext (ih hline)
      · split at hline
        · rcases ih hline with hmem | hmem
          · rcases List.mem_append.mp hmem with hmem | hmem
            · exact .inl hmem
            · exact hnext (.inl hmem)
          · exact hnext (.inr hmem)
        · rcases List.mem_cons.mp hline with rfl | hline
          · exact .inl h
          · exact hnext (ih hline)

end Filling

end Cells
