import Mathlib.Data.List.Sort

/-!
# Stable sorting, one element at a time

Sorting a list by insertion is stable. So a selection of a sorted list is the sorted selection, and
a list that is sorted again each time an element is added at its end is what sorting everything at
once gives.
-/

namespace Sorting

open List

variable {α : Type} {r : α → α → Prop} [DecidableRel r]

theorem orderedInsert_comm_of_not_rel [Std.Total r] [IsTrans α r] {a b : α} (hab : ¬ r a b)
    (l : List α) :
    (l.orderedInsert r a).orderedInsert r b = (l.orderedInsert r b).orderedInsert r a := by
  have hba : r b a := (total_of r b a).resolve_right hab
  induction l with
  | nil => rw [orderedInsert_nil, orderedInsert_nil, orderedInsert_cons, if_pos hba,
      orderedInsert_cons, if_neg hab, orderedInsert_nil]
  | cons c l ih =>
      by_cases hac : r a c
      · have hbc : r b c := trans_of r hba hac
        rw [orderedInsert_cons_of_le r l hac, orderedInsert_cons_of_le r l hbc,
          orderedInsert_cons_of_le r _ hba, orderedInsert_of_not_le r _ hab,
          orderedInsert_cons_of_le r l hac]
      · rw [orderedInsert_of_not_le r l hac]
        by_cases hbc : r b c
        · rw [orderedInsert_cons_of_le r _ hbc, orderedInsert_cons_of_le r l hbc,
            orderedInsert_of_not_le r _ hab, orderedInsert_of_not_le r l hac]
        · rw [orderedInsert_of_not_le r _ hbc, orderedInsert_of_not_le r l hbc,
            orderedInsert_of_not_le r _ hac, ih]

/-- Inserting the elements of a list with one more in its place is inserting that one last. -/
theorem foldr_orderedInsert_orderedInsert [Std.Total r] [IsTrans α r] (a : α) (l rest : List α) :
    (l.orderedInsert r a).foldr (orderedInsert r) rest =
      (l.foldr (orderedInsert r) rest).orderedInsert r a := by
  induction l with
  | nil => rfl
  | cons b l ih =>
      by_cases hab : r a b
      · rw [orderedInsert_cons_of_le r l hab]
        rfl
      · rw [orderedInsert_of_not_le r l hab, foldr_cons, foldr_cons, ih,
          orderedInsert_comm_of_not_rel hab]

theorem insertionSort_append (l rest : List α) :
    (l ++ rest).insertionSort r = l.foldr (orderedInsert r) (rest.insertionSort r) := by
  induction l with
  | nil => rfl
  | cons a l ih => rw [cons_append, insertionSort_cons, ih, foldr_cons]

/-- What has been sorted already can be sorted again together with the rest. -/
theorem insertionSort_insertionSort_append [Std.Total r] [IsTrans α r] (l rest : List α) :
    (l.insertionSort r ++ rest).insertionSort r = (l ++ rest).insertionSort r := by
  rw [insertionSort_append, insertionSort_append]
  induction l with
  | nil => rfl
  | cons a l ih => rw [insertionSort_cons, foldr_orderedInsert_orderedInsert, ih, foldr_cons]

theorem filter_orderedInsert [Std.Total r] [IsTrans α r] (p : α → Bool) (a : α) {l : List α}
    (hl : l.Pairwise r) :
    (l.orderedInsert r a).filter p =
      if p a then (l.filter p).orderedInsert r a else l.filter p := by
  induction l with
  | nil => by_cases ha : p a <;> simp [ha]
  | cons b l ih =>
      have hrest := ih hl.of_cons
      by_cases hab : r a b
      · rw [orderedInsert_cons_of_le r l hab, filter_cons]
        split
        · -- everything behind `a` comes after it, selected or not
          have hall : ∀ c ∈ (b :: l).filter p, r a c := by
            intro c hc
            rcases mem_cons.mp (mem_of_mem_filter hc) with rfl | hc
            · exact hab
            · exact trans_of r hab (rel_of_pairwise_cons hl hc)
          cases hfiltered : (b :: l).filter p with
          | nil => rfl
          | cons c rest =>
              rw [orderedInsert_cons_of_le r rest (hall c (hfiltered ▸ mem_cons_self))]
        · rfl
      · rw [orderedInsert_of_not_le r l hab, filter_cons, filter_cons, hrest]
        by_cases ha : p a <;> by_cases hb : p b <;> simp [ha, hb, hab]

/-- A selection of a sorted list is the sorted selection. -/
theorem filter_insertionSort [Std.Total r] [IsTrans α r] (p : α → Bool) (l : List α) :
    (l.insertionSort r).filter p = (l.filter p).insertionSort r := by
  induction l with
  | nil => rfl
  | cons a l ih =>
      rw [insertionSort_cons, filter_orderedInsert p a (pairwise_insertionSort r l), ih, filter_cons]
      split <;> rfl

/-! ### Strictly sorted lists -/

section Strict

open Std

variable {α : Type} [Ord α]

/-- Every element is smaller than those behind it. -/
def StrictlySorted (l : List α) : Prop := l.Pairwise fun a b => compare a b = .lt

instance (l : List α) : Decidable (StrictlySorted l) :=
  inferInstanceAs (Decidable (l.Pairwise fun a b => compare a b = .lt))

variable [DecidableEq α]

omit [Ord α] in
theorem nodup_eraseDups (l : List α) : l.eraseDups.Nodup := by
  induction hlength : l.length using Nat.strong_induction_on generalizing l with
  | _ n ih =>
      cases l with
      | nil => exact nodup_nil
      | cons a l =>
          rw [eraseDups_cons]
          have hshorter : (l.filter fun b => !b == a).length < n := by
            rw [← hlength]
            exact Nat.lt_succ_of_le (length_filter_le _ l)
          apply nodup_cons.mpr
          constructor
          · intro hmem
            simpa using (mem_filter.mp (mem_eraseDups.mp hmem)).2
          · exact ih _ hshorter _ rfl

/-- Sorting what is left without repetitions. -/
theorem strictlySorted_insertionSort_eraseDups [TransOrd α] [LawfulEqOrd α] (l : List α) :
    StrictlySorted (l.eraseDups.insertionSort fun a b => (compare a b).isLE) := by
  have htotal : Std.Total fun a b : α => (compare a b).isLE = true := by
    constructor
    intro a b
    have hswap : compare b a = (compare a b).swap := OrientedCmp.eq_swap
    rw [hswap]
    cases compare a b <;> simp
  have htrans : IsTrans α fun a b => (compare a b).isLE = true := ⟨fun _ _ _ => TransCmp.isLE_trans⟩
  have hsorted := pairwise_insertionSort (fun a b : α => (compare a b).isLE = true) l.eraseDups
  have hnodup : (l.eraseDups.insertionSort fun a b : α => (compare a b).isLE).Nodup :=
    (perm_insertionSort _ _).nodup_iff.mpr (nodup_eraseDups l)
  apply (hsorted.and hnodup).imp
  intro a b hab
  have hne : compare a b ≠ .eq := fun heq => hab.2 (LawfulEqCmp.eq_of_compare heq)
  cases hcompare : compare a b with
  | lt => rfl
  | eq => exact absurd hcompare hne
  | gt =>
      rw [hcompare] at hab
      exact absurd hab.1 (by decide)

end Strict

end Sorting
