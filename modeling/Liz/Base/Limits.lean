import Mathlib.Data.List.Basic

/-!
# Collecting up to a limit

A walk meets one thing after another; some of them are passed over, the others are collected. It
stops when it meets something, whatever it is, after it has collected as many as it may. What it has
collected then is a prefix of what it would collect without the limit. Two walks over the same things
that disagree about some of them agree up to the limit if those bring nothing before it.
-/

namespace Limits

variable {α : Type}

/-- What is not passed over. -/
def kept (met : List (Option α)) : List α := met.filterMap id

/-- Collects behind `acc`; the flag tells whether the walk was stopped. -/
def collect (limit : Nat) : List (Option α) → List α → List α × Bool
  | [], acc => (acc, false)
  | thing :: rest, acc =>
      if limit ≤ acc.length then (acc, true) else collect limit rest (acc ++ thing.toList)

@[simp] theorem kept_nil : kept ([] : List (Option α)) = [] := rfl

theorem kept_cons (thing : Option α) (rest : List (Option α)) :
    kept (thing :: rest) = thing.toList ++ kept rest := by
  cases thing <;> simp [kept]

theorem kept_append (met more : List (Option α)) : kept (met ++ more) = kept met ++ kept more :=
  List.filterMap_append

/-- Something is met when there are enough already. -/
def MetAfter (limit : Nat) (met : List (Option α)) : Prop :=
  ∃ before thing after, met = before ++ thing :: after ∧ limit ≤ (kept before).length

theorem collect_append (limit : Nat) (met more : List (Option α)) (acc : List α) :
    collect limit (met ++ more) acc =
      if (collect limit met acc).2 then collect limit met acc
      else collect limit more (collect limit met acc).1 := by
  induction met generalizing acc with
  | nil => rfl
  | cons thing rest ih =>
      rw [List.cons_append, collect, collect]
      split
      · rfl
      · exact ih _

/-- A walk from `acc` on goes on as a walk that has met what is in `acc`. -/
theorem collect_kept (limit : Nat) (met : List (Option α)) (acc : List α)
    (hacc : acc.length ≤ limit) :
    (collect limit met acc).1 = (acc ++ kept met).take limit := by
  induction met generalizing acc with
  | nil => simpa [collect] using (List.take_of_length_le hacc).symm
  | cons thing rest ih =>
      rw [collect, kept_cons]
      split
      next hfull =>
        have hlength : acc.length = limit := Nat.le_antisymm hacc hfull
        rw [← hlength, List.take_left]
      next hmore =>
        have hnext : (acc ++ thing.toList).length ≤ limit := by
          have hone : thing.toList.length ≤ 1 := by cases thing <;> simp
          rw [List.length_append]
          omega
        rw [ih _ hnext, List.append_assoc]

theorem stopped_iff (limit : Nat) (met : List (Option α)) (acc : List α) :
    (collect limit met acc).2 = true ↔
      ∃ before thing after, met = before ++ thing :: after ∧
        limit ≤ acc.length + (kept before).length := by
  induction met generalizing acc with
  | nil => simp [collect]
  | cons thing rest ih =>
      rw [collect]
      split
      next hfull =>
        exact iff_of_true rfl ⟨[], thing, rest, rfl, Nat.le_add_right_of_le hfull⟩
      next hmore =>
        rw [ih]
        constructor
        · rintro ⟨before, next, after, rfl, hlimit⟩
          refine ⟨thing :: before, next, after, rfl, ?_⟩
          rwa [kept_cons, List.length_append, ← Nat.add_assoc, ← List.length_append]
        · rintro ⟨before, next, after, hsplit, hlimit⟩
          cases before with
          | nil => exact absurd hlimit hmore
          | cons first before =>
              obtain ⟨rfl, rfl⟩ := List.cons.inj hsplit
              refine ⟨before, next, after, rfl, ?_⟩
              rwa [kept_cons, List.length_append, ← Nat.add_assoc, ← List.length_append] at hlimit

theorem collect_eq_take (limit : Nat) (met : List (Option α)) :
    (collect limit met []).1 = (kept met).take limit :=
  collect_kept limit met [] (Nat.zero_le limit)

theorem stopped_iff_metAfter (limit : Nat) (met : List (Option α)) :
    (collect limit met []).2 = true ↔ MetAfter limit met := by
  rw [stopped_iff, List.length_nil]
  simp only [Nat.zero_add]
  rfl

theorem metAfter_of_lt {limit : Nat} {met : List (Option α)} (h : limit < (kept met).length) :
    MetAfter limit met := by
  induction met generalizing limit with
  | nil => exact absurd h (Nat.not_lt_zero limit)
  | cons thing rest ih =>
      rw [kept_cons, List.length_append] at h
      by_cases hzero : limit = 0
      · exact ⟨[], thing, rest, rfl, by omega⟩
      · have hone : thing.toList.length ≤ 1 := by cases thing <;> simp
        have hrest : limit - thing.toList.length < (kept rest).length := by omega
        obtain ⟨before, next, after, rfl, hlimit⟩ := ih hrest
        refine ⟨thing :: before, next, after, rfl, ?_⟩
        rw [kept_cons, List.length_append]
        omega

theorem not_metAfter_of_lt {limit : Nat} {met : List (Option α)} (h : (kept met).length < limit) :
    ¬ MetAfter limit met := by
  rintro ⟨before, thing, after, rfl, hlimit⟩
  rw [kept_append, List.length_append] at h
  omega

/-! ### Two walks that may differ -/

section Agreement

variable {ι : Type} {own shown : ι → List α} {bad : ι → Prop}

/-- None of the bad items that a walk comes to before the limit brings anything, in either way. -/
def Harmless (own shown : ι → List α) (bad : ι → Prop) (limit : Nat) (items : List ι) : Prop :=
  ∀ before item after, items = before ++ item :: after → bad item →
    (before.flatMap own).length < limit → own item = [] ∧ shown item = []

theorem harmless_cons {limit : Nat} {item : ι} {rest : List ι} :
    Harmless own shown bad limit (item :: rest) ↔
      (bad item → 0 < limit → own item = [] ∧ shown item = []) ∧
        Harmless own shown bad (limit - (own item).length) rest := by
  constructor
  · intro h
    refine ⟨h [] item rest rfl, fun before next after hsplit hbad hlimit => ?_⟩
    refine h (item :: before) next after (by rw [hsplit]; rfl) hbad ?_
    rw [List.flatMap_cons, List.length_append]
    omega
  · rintro ⟨hfirst, hrest⟩ before next after hsplit hbad hlimit
    cases before with
    | nil =>
        obtain ⟨rfl, -⟩ := List.cons.inj hsplit
        exact hfirst hbad hlimit
    | cons other before =>
        obtain ⟨rfl, rfl⟩ := List.cons.inj hsplit
        rw [List.flatMap_cons, List.length_append] at hlimit
        exact hrest before next after rfl hbad (by omega)

theorem take_cons_ne {limit : Nat} (hlimit : 0 < limit) {a : α} {rest other : List α}
    (h : ∀ b ∈ other, a ≠ b) : (a :: rest).take limit ≠ other.take limit := by
  obtain ⟨limit, rfl⟩ := Nat.exists_eq_succ_of_ne_zero (Nat.ne_of_gt hlimit)
  cases other with
  | nil => simp
  | cons b more =>
      intro heq
      exact h b List.mem_cons_self (List.cons.inj heq).1

/-- Where the items that are not bad bring the same in both ways, and what a bad item brings differs
from all that may come in its place, the two walks agree up to the limit exactly if the bad items are
harmless. -/
theorem take_flatMap_eq_iff {items : List ι}
    (hgood : ∀ item ∈ items, ¬ bad item → shown item = own item)
    (hown : ∀ item other, bad item → ∀ a ∈ own item, ∀ b ∈ shown other, a ≠ b)
    (hshown : items.Pairwise fun item other => bad item →
      ∀ b ∈ shown item, ∀ a ∈ own other, b ≠ a) (limit : Nat) :
    (items.flatMap shown).take limit = (items.flatMap own).take limit ↔
      Harmless own shown bad limit items := by
  induction items generalizing limit with
  | nil => exact iff_of_true rfl fun before item after hsplit => by simp at hsplit
  | cons item rest ih =>
      obtain ⟨hitem, hrest⟩ := List.pairwise_cons.mp hshown
      have hlater := fun other hother => hgood other (List.mem_cons_of_mem item hother)
      rw [harmless_cons, ← ih hlater hrest, List.flatMap_cons, List.flatMap_cons]
      by_cases hsame : shown item = own item
      · rw [hsame, List.take_append, List.take_append, List.append_cancel_left_eq]
        refine ⟨fun h => ⟨fun hbad hlimit => ?_, h⟩, And.right⟩
        cases hitems : own item with
        | nil => exact ⟨rfl, rfl⟩
        | cons a more =>
            have ha : a ∈ own item := hitems ▸ List.mem_cons_self
            exact absurd rfl (hown item item hbad a ha a (hsame ▸ ha))
      · have hbad : bad item := not_not.mp (mt (hgood item List.mem_cons_self) hsame)
        rcases Nat.eq_zero_or_pos limit with hzero | hlimit
        · subst hzero
          simp
        · refine iff_of_false (fun heq => ?_) fun h => ?_
          · cases hitems : own item with
            | cons a more =>
                have hdiffer : ∀ b ∈ (item :: rest).flatMap shown, a ≠ b := by
                  intro b hb
                  obtain ⟨other, -, hb⟩ := List.mem_flatMap.mp hb
                  exact hown item other hbad a (hitems ▸ List.mem_cons_self) b hb
                rw [hitems] at heq
                exact take_cons_ne hlimit hdiffer heq.symm
            | nil =>
                obtain ⟨b, more, hbrought⟩ := List.exists_cons_of_ne_nil (hitems ▸ hsame)
                have hdiffer : ∀ a ∈ rest.flatMap own, b ≠ a := by
                  intro a ha
                  obtain ⟨other, hother, ha⟩ := List.mem_flatMap.mp ha
                  exact hitem other hother hbad b (hbrought ▸ List.mem_cons_self) a ha
                rw [hitems, hbrought] at heq
                exact take_cons_ne hlimit hdiffer heq
          · obtain ⟨hnone, hnone'⟩ := h.1 hbad hlimit
            exact hsame (hnone'.trans hnone.symm)

end Agreement
end Limits
