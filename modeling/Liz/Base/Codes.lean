import Mathlib.Data.List.Basic

/-!
# Texts that can be read off

A writer gives each value a text. A text can be read off where no other one has the same beginning,
as long as what follows it stops it. Then the texts of several values can be put one behind the
other, with or without a separator between them, and the values can be read off again.
-/

namespace Liz

namespace Codes

variable {α χ : Type*}

/-- Where something follows that stops it, the text of this value is that of no other one. -/
def ReadsOff (write : α → List χ) (stops : List χ → Prop) (valid : α → Prop) (a : α) : Prop :=
  ∀ b, valid b → ∀ rest rest', stops rest → stops rest' → write a ++ rest = write b ++ rest' →
    a = b ∧ rest = rest'

/-- What follows the last text: it stops that text and does not begin with another one. -/
structure Closes (write : α → List χ) (stops : List χ → Prop) (valid : α → Prop) (rest : List χ) :
    Prop where
  stops : stops rest
  noItem : ∀ a, valid a → ∀ more, rest ≠ write a ++ more

variable {write : α → List χ} {stops : List χ → Prop} {valid : α → Prop}

theorem ReadsOff.cons {a : α} (h : ReadsOff write stops valid a) (sep : χ) :
    ReadsOff (fun a => sep :: write a) stops valid a := by
  intro b hb rest rest' hrest hrest' heq
  exact h b hb rest rest' hrest hrest' (List.cons.inj heq).2

/-- Texts one behind the other are read off one by one. -/
theorem flatMap_unique {as bs : List α} {rest rest' : List χ}
    (hread : ∀ a ∈ as, ReadsOff write stops valid a) (has : ∀ a ∈ as, valid a)
    (hbs : ∀ b ∈ bs, valid b) (hstop : ∀ a more, stops (write a ++ more))
    (hrest : Closes write stops valid rest) (hrest' : Closes write stops valid rest')
    (h : as.flatMap write ++ rest = bs.flatMap write ++ rest') : as = bs ∧ rest = rest' := by
  have hstops : ∀ {l : List α} {more : List χ}, Closes write stops valid more →
      stops (l.flatMap write ++ more) := by
    intro l more hmore
    cases l with
    | nil => exact hmore.stops
    | cons a l =>
        rw [List.flatMap_cons, List.append_assoc]
        exact hstop a _
  induction as generalizing bs with
  | nil =>
      cases bs with
      | nil => exact ⟨rfl, h⟩
      | cons b bs =>
          rw [List.flatMap_cons, List.append_assoc] at h
          exact absurd h (hrest.noItem b (hbs b List.mem_cons_self) _)
  | cons a as ih =>
      cases bs with
      | nil =>
          rw [List.flatMap_cons, List.append_assoc] at h
          exact absurd h.symm (hrest'.noItem a (has a List.mem_cons_self) _)
      | cons b bs =>
          rw [List.flatMap_cons, List.flatMap_cons, List.append_assoc, List.append_assoc] at h
          rw [List.forall_mem_cons] at hread has hbs
          obtain ⟨rfl, hmore⟩ := hread.1 b hbs.1 _ _ (hstops hrest) (hstops hrest') h
          obtain ⟨rfl, hend⟩ := ih hread.2 has.2 hbs.2 hmore
          exact ⟨rfl, hend⟩

theorem intercalate_cons (sep : χ) (first : List χ) (others : List (List χ)) :
    [sep].intercalate (first :: others) = first ++ others.flatMap fun part => sep :: part := by
  induction others generalizing first with
  | nil => simp [List.intercalate]
  | cons second others ih => simpa [List.intercalate] using ih second

/-- Texts with separators between them are read off one by one. -/
theorem intercalate_unique {sep : χ} {as bs : List α} {rest rest' : List χ}
    (hread : ∀ a ∈ as, ReadsOff write stops valid a) (has : ∀ a ∈ as, valid a)
    (hbs : ∀ b ∈ bs, valid b) (hsep : ∀ more, stops (sep :: more))
    (hrest : Closes write stops valid rest) (hrest' : Closes write stops valid rest') (hend : ∀ more, rest ≠ sep :: more)
    (hend' : ∀ more, rest' ≠ sep :: more)
    (h : [sep].intercalate (as.map write) ++ rest = [sep].intercalate (bs.map write) ++ rest') :
    as = bs ∧ rest = rest' := by
  have hcons : ∀ a l more, [sep].intercalate ((a :: l).map write) ++ more =
      write a ++ (l.flatMap (fun a => sep :: write a) ++ more) := by
    intro a l more
    rw [List.map_cons, intercalate_cons, List.flatMap_map, List.append_assoc]
  have hstops : ∀ {l : List α} {more : List χ}, stops more →
      stops (l.flatMap (fun a => sep :: write a) ++ more) := by
    intro l more hmore
    cases l with
    | nil => exact hmore
    | cons a l => exact hsep _
  cases as with
  | nil =>
      cases bs with
      | nil => exact ⟨rfl, h⟩
      | cons b bs =>
          rw [hcons] at h
          exact absurd h (hrest.noItem b (hbs b List.mem_cons_self) _)
  | cons a as =>
      cases bs with
      | nil =>
          rw [hcons] at h
          exact absurd h.symm (hrest'.noItem a (has a List.mem_cons_self) _)
      | cons b bs =>
          rw [hcons, hcons] at h
          rw [List.forall_mem_cons] at hread has hbs
          obtain ⟨rfl, hmore⟩ := hread.1 b hbs.1 _ _ (hstops hrest.stops) (hstops hrest'.stops) h
          obtain ⟨rfl, hsame⟩ := flatMap_unique (fun a ha => (hread.2 a ha).cons sep) has.2 hbs.2
            (fun a more => hsep _) ⟨hrest.stops, fun _ _ _ => hend _⟩
            ⟨hrest'.stops, fun _ _ _ => hend' _⟩ hmore
          exact ⟨rfl, hsame⟩

/-- A run of characters of one kind ends where a character of another kind stands. -/
theorem run_unique {p : χ → Bool} {left left' rest rest' : List χ}
    (hleft : ∀ c ∈ left, p c = true) (hleft' : ∀ c ∈ left', p c = true)
    (hrest : ∀ c ∈ rest.head?, p c = false) (hrest' : ∀ c ∈ rest'.head?, p c = false)
    (h : left ++ rest = left' ++ rest') : left = left' ∧ rest = rest' := by
  have hnone : ∀ {l : List χ}, (∀ c ∈ l.head?, p c = false) → l.takeWhile p = [] := by
    intro l hl
    cases l with
    | nil => rfl
    | cons c l => simp [hl c rfl]
  have htake := congrArg (List.takeWhile p) h
  rw [List.takeWhile_append_of_pos hleft, List.takeWhile_append_of_pos hleft', hnone hrest,
    hnone hrest', List.append_nil, List.append_nil] at htake
  rw [htake, List.append_cancel_left_eq] at h
  exact ⟨htake, h⟩

end Codes

end Liz
