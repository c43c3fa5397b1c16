import Mathlib.Data.List.AList
import Mathlib.Data.List.Forall2

/-!
# Edits by name

A store that is edited by name may hold several values under one. An edit takes all of them back, or
puts a value in the place of the first one and adds it where there is none. A replacement says what
every name is to stand for; the edits bring it about exactly when they reach every name that holds
something, and take back what a name holds too much.
-/

namespace Edits

variable {κ ν : Type}

/-- No value takes the values under the name back. -/
def apply : Option ν → List ν → List ν
  | none, _ => []
  | some value, values => value :: values.tail

def applyAll (edits : List (Option ν)) (values : List ν) : List ν :=
  edits.foldl (fun values edit => apply edit values) values

@[simp]
theorem applyAll_cons (edit : Option ν) (edits : List (Option ν)) (values : List ν) :
    applyAll (edit :: edits) values = applyAll edits (apply edit values) := rfl

/-! ### One name -/

/-- What stands behind the first value stays until the values are taken back. -/
theorem tail_applyAll (edits : List (Option ν)) (values : List ν) :
    (applyAll edits values).tail = if edits.any Option.isNone then [] else values.tail := by
  induction edits generalizing values with
  | nil => rfl
  | cons edit rest ih =>
      rw [applyAll_cons, ih, List.any_cons]
      cases edit with
      | none => simp [apply]
      | some value => rw [Option.isNone_some, Bool.false_or, apply, List.tail_cons]

/-- The last edit decides. -/
theorem applyAll_concat (edits : List (Option ν)) (last : Option ν) (values : List ν) :
    applyAll (edits ++ [last]) values =
      match last with
      | none => []
      | some value => value :: if edits.any Option.isNone then [] else values.tail := by
  have hlast : applyAll (edits ++ [last]) values = apply last (applyAll edits values) := by
    simp [applyAll, List.foldl_append]
  rw [hlast]
  cases last with
  | none => rfl
  | some value => rw [apply, tail_applyAll]

/-- The edits leave what the last of them says, and nothing else. -/
theorem applyAll_eq_last_iff (edits : List (Option ν)) (values : List ν) :
    applyAll edits values = edits.getLast?.join.toList ↔
      values = [] ∨ (edits ≠ [] ∧ (values.length ≤ 1 ∨ edits.any Option.isNone)) := by
  rcases List.eq_nil_or_concat edits with rfl | ⟨init, last, rfl⟩
  · simp [applyAll]
  · rw [List.concat_eq_append, applyAll_concat, List.getLast?_concat]
    cases last with
    | none => simp
    | some value =>
        have htail : values.tail = [] ↔ values = [] ∨ values.length ≤ 1 := by
          cases values with
          | nil => simp
          | cons first rest => simp
        by_cases hback : init.any Option.isNone = true
        · simp [hback]
        · simp only [hback, Option.join_some, Option.toList_some, List.cons.injEq, true_and,
            List.any_append, List.any_cons, List.any_nil, Option.isNone_some, Bool.or_false]
          simp [htail]

/-- What is asked of the values that are left is asked of the last edit, and of what stands behind
the first value unless the values were taken back. -/
theorem forall_mem_applyAll_iff {P : ν → Prop} (edits : List (Option ν)) (values : List ν) :
    (∀ v ∈ applyAll edits values, P v) ↔
      match edits.getLast? with
      | none => ∀ v ∈ values, P v
      | some none => True
      | some (some value) => P value ∧ (edits.any Option.isNone = true ∨ ∀ v ∈ values.tail, P v) := by
  rcases List.eq_nil_or_concat edits with rfl | ⟨init, last, rfl⟩
  · rfl
  · rw [List.concat_eq_append, applyAll_concat, List.getLast?_concat]
    cases last with
    | none => simp
    | some value =>
        by_cases hback : init.any Option.isNone = true
        · simp [hback]
        · simp [hback]

/-- Every value is put back as `f` reads it: nothing changes exactly when all of them can be read
and the last one reads as the first. -/
theorem applyAll_map_eq_self_iff (f : ν → Option ν) (values : List ν) :
    applyAll (values.map f) values = values ↔
      (∀ value ∈ values, (f value).isSome) ∧ values.getLast?.bind f = values.head? := by
  rcases List.eq_nil_or_concat values with rfl | ⟨init, last, rfl⟩
  · simp [applyAll]
  · rw [List.concat_eq_append, List.map_append, List.map_singleton, applyAll_concat, List.getLast?_concat,
      Option.bind_some]
    cases hlast : f last with
    | none => simp
    | some value =>
        have hback : (init.map f).any Option.isNone = true ↔ ¬ ∀ v ∈ init, (f v).isSome := by
          simp [Option.isSome_iff_ne_none]
        dsimp only
        by_cases hread : ∀ v ∈ init, (f v).isSome
        · have hnone : (init.map f).any Option.isNone = false := by
            rw [Bool.eq_false_iff]
            exact fun h => hback.mp h hread
          have hall : ∀ v ∈ init ++ [last], (f v).isSome := by
            intro v hv
            rcases List.mem_append.mp hv with hv | hv
            · exact hread v hv
            · rw [List.mem_singleton.mp hv, hlast]
              rfl
          rw [hnone, if_neg Bool.false_ne_true, and_iff_right hall]
          cases init with
          | nil => simp
          | cons first rest => simp
        · -- the values were taken back on the way, so at most one is left of several
          have htaken := hback.mpr hread
          rw [htaken, if_pos rfl]
          have hsome : init ≠ [] := by
            rintro rfl
            exact hread (by simp)
          constructor
          · intro heq
            have hlength := congrArg List.length heq
            have hpos := List.length_pos_of_ne_nil hsome
            simp only [List.length_cons, List.length_nil, List.length_append] at hlength
            omega
          · intro h
            exact absurd (fun v hv => h.1 v (List.mem_append_left _ hv)) hread

/-! ### All names -/

variable [DecidableEq κ]

/-- The edits of one name. -/
def under (edits : List (κ × Option ν)) (k : κ) : List (Option ν) :=
  (edits.filter fun edit => edit.1 = k).map Prod.snd

/-- What a list of edits says every name is to stand for. -/
def table (edits : List (κ × Option ν)) : AList fun _ : κ => ν :=
  edits.foldl (fun table edit =>
    match edit.2 with
    | none => table.erase edit.1
    | some value => table.insert edit.1 value) ∅

theorem lookup_table (edits : List (κ × Option ν)) (k : κ) :
    (table edits).lookup k = (under edits k).getLast?.join := by
  have hfrom : ∀ (edits : List (κ × Option ν)) (start : AList fun _ : κ => ν),
      (edits.foldl (fun table edit =>
        match edit.2 with
        | none => table.erase edit.1
        | some value => table.insert edit.1 value) start).lookup k =
        (under edits k).getLast?.getD (start.lookup k) := by
    intro edits
    induction edits with
    | nil => exact fun _ => rfl
    | cons edit rest ih =>
        intro start
        obtain ⟨name, value⟩ := edit
        rw [List.foldl_cons, ih]
        by_cases hk : name = k
        · subst hk
          have hunder : under ((name, value) :: rest) name = value :: under rest name := by
            simp [under]
          rw [hunder, List.getLast?_cons, Option.getD_some]
          cases value with
          | none => simp
          | some value => simp
        · have hunder : under ((name, value) :: rest) k = under rest k := by
            simp [under, hk]
          rw [hunder]
          cases value with
          | none => simp [AList.lookup_erase_ne (Ne.symm hk)]
          | some value => simp [AList.lookup_insert_ne (Ne.symm hk)]
  have htable := hfrom edits ∅
  rw [AList.lookup_empty] at htable
  rw [table, htable]
  cases (under edits k).getLast? <;> rfl

end Edits
