import Mathlib.Data.List.Infix

/-!
# Copying a list that changes

A copy is brought up to date by writing what the list has behind the longest prefix that it shares
with what was copied last; nothing that has been written is taken back. What has been written is the
list itself exactly when the list has only grown at its end.
-/

namespace Prefixes

variable {α : Type} [DecidableEq α]

/-- The length of the longest common prefix. -/
def common (left right : List α) : Nat :=
  ((left.zip right).takeWhile fun pair => pair.1 = pair.2).length

@[simp] theorem common_nil (right : List α) : common [] right = 0 := rfl

@[simp] theorem common_cons_nil (a : α) (left : List α) : common (a :: left) [] = 0 := rfl

theorem common_cons_cons (a b : α) (left right : List α) :
    common (a :: left) (b :: right) = if a = b then common left right + 1 else 0 := by
  by_cases hab : a = b <;> simp [common, hab]

theorem common_le_left (left right : List α) : common left right ≤ left.length := by
  have hzip := (List.takeWhile_sublist (fun pair : α × α => decide (pair.1 = pair.2))
    (l := left.zip right)).length_le
  rw [List.length_zip] at hzip
  exact hzip.trans (Nat.min_le_left _ _)

theorem common_le_right (left right : List α) : common left right ≤ right.length := by
  have hzip := (List.takeWhile_sublist (fun pair : α × α => decide (pair.1 = pair.2))
    (l := left.zip right)).length_le
  rw [List.length_zip] at hzip
  exact hzip.trans (Nat.min_le_right _ _)

/-- All of the left list is shared exactly when it is a prefix. -/
theorem common_eq_length_iff (left right : List α) :
    common left right = left.length ↔ left <+: right := by
  induction left generalizing right with
  | nil => simp
  | cons a rest ih =>
      cases right with
      | nil => simp
      | cons b others =>
          rw [common_cons_cons, List.cons_prefix_cons]
          by_cases hab : a = b
          · simp [hab, ih]
          · simp [hab]

theorem append_drop_common {left right : List α} (h : left <+: right) :
    left ++ right.drop (common left right) = right := by
  rw [(common_eq_length_iff left right).mpr h]
  obtain ⟨more, rfl⟩ := h
  rw [List.drop_left]

/-- What has been written, and the list as it was copied last. -/
structure Copy (α : Type) where
  written : List α
  last : List α

namespace Copy

def update (copy : Copy α) (list : List α) : Copy α :=
  { written := copy.written ++ list.drop (common copy.last list), last := list }

/-- The copy is brought up to date with one list after another. -/
def updates (copy : Copy α) (lists : List (List α)) : Copy α := lists.foldl update copy

@[simp] theorem updates_nil (copy : Copy α) : copy.updates [] = copy := rfl

@[simp] theorem updates_cons (copy : Copy α) (list : List α) (rest : List (List α)) :
    copy.updates (list :: rest) = (copy.update list).updates rest := rfl

/-- What has been written too much stays written, and more is added by every list that does not
begin with the one before it. -/
theorem excess_update (copy : Copy α) (list : List α) :
    (copy.update list).written.length + common copy.last list =
      copy.written.length + list.length := by
  have hle := common_le_right copy.last list
  simp only [update, List.length_append, List.length_drop]
  omega

theorem excess_updates (copy : Copy α) (lists : List (List α)) :
    copy.written.length + (copy.updates lists).last.length ≤
      (copy.updates lists).written.length + copy.last.length := by
  induction lists generalizing copy with
  | nil => exact Nat.le_refl _
  | cons list rest ih =>
      have hrest := ih (copy.update list)
      have hfirst := copy.excess_update list
      have hle := common_le_left copy.last list
      have hlast : (copy.update list).last = list := rfl
      rw [hlast] at hrest
      rw [updates_cons]
      omega

/-- A copy that is right stays right exactly when every list begins with the one before it. -/
theorem written_eq_last_iff {copy : Copy α} (h : copy.written = copy.last)
    (lists : List (List α)) :
    (copy.updates lists).written = (copy.updates lists).last ↔
      (copy.last :: lists).IsChain (· <+: ·) := by
  induction lists generalizing copy with
  | nil => simpa using h
  | cons list rest ih =>
      rw [updates_cons, List.isChain_cons_cons]
      by_cases hprefix : copy.last <+: list
      · have hright : (copy.update list).written = (copy.update list).last := by
          rw [update, h]
          exact append_drop_common hprefix
        rw [ih hright, and_iff_right hprefix]
        rfl
      · refine iff_of_false (fun heq => ?_) (fun hchain => hprefix hchain.1)
        have hlt : common copy.last list < copy.last.length :=
          Nat.lt_of_le_of_ne (common_le_left _ _) fun hall =>
            hprefix ((common_eq_length_iff _ _).mp hall)
        have hfirst := copy.excess_update list
        have hrest := (copy.update list).excess_updates rest
        have hlast : (copy.update list).last = list := rfl
        rw [hlast] at hrest
        rw [h] at hfirst
        rw [heq] at hrest
        omega

end Copy

end Prefixes
