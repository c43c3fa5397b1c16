import Mathlib.Data.List.Basic
import Mathlib.Data.List.DropRight
import Mathlib.Data.List.TakeDrop

/-!
# Lists that drop what they have just seen

A list grows at its end by values that are not among its last `k`. Pushing a sequence of values
appends an excerpt of it, and appends all of it exactly when no value occurs in the window that it
meets, which is the last `k` of everything before it.
-/

namespace Recent

variable {α : Type} {k : Nat}

/-- The last `k` values, the latest first. -/
def window (k : Nat) (values : List α) : List α := values.reverse.take k

@[simp] theorem window_zero (values : List α) : window 0 values = [] := List.take_zero

@[simp] theorem window_concat (values : List α) (value : α) :
    window (k + 1) (values ++ [value]) = value :: window k values := by
  simp [window]

/-- No value of the second list is among the last `k` that stand before it, in the first list or in
the second. -/
def Fresh (k : Nat) : List α → List α → Prop
  | _, [] => True
  | values, value :: rest => value ∉ window k values ∧ Fresh k (values ++ [value]) rest

@[simp] theorem fresh_nil (values : List α) : Fresh k values [] := trivial

@[simp] theorem fresh_cons (values : List α) (value : α) (rest : List α) :
    Fresh k values (value :: rest) ↔
      value ∉ window k values ∧ Fresh k (values ++ [value]) rest := Iff.rfl

variable [DecidableEq α]

/-- Appends a value unless it is among the last `k`. -/
def push (k : Nat) (values : List α) (value : α) : List α :=
  if value ∈ window k values then values else values ++ [value]

theorem push_of_mem {values : List α} {value : α} (h : value ∈ window k values) :
    push k values value = values := by
  rw [push, if_pos h]

theorem push_of_not_mem {values : List α} {value : α} (h : value ∉ window k values) :
    push k values value = values ++ [value] := by
  rw [push, if_neg h]

/-- A push adds at most one value. -/
theorem length_push_le (values : List α) (value : α) :
    (push k values value).length ≤ values.length + 1 := by
  unfold push
  split <;> simp

theorem length_foldl_push_le (pushed values : List α) :
    (pushed.foldl (push k) values).length ≤ values.length + pushed.length := by
  induction pushed generalizing values with
  | nil => simp
  | cons value rest ih =>
      have hfirst := length_push_le (k := k) values value
      have hrest := ih (push k values value)
      rw [List.foldl_cons, List.length_cons]
      omega

/-- Every pushed value is appended, in order, exactly when each one is fresh. -/
theorem foldl_push_eq_append_iff (values pushed : List α) :
    pushed.foldl (push k) values = values ++ pushed ↔ Fresh k values pushed := by
  induction pushed generalizing values with
  | nil => simp
  | cons value rest ih =>
      by_cases hseen : value ∈ window k values
      · -- the value is left out, and nothing pushed later makes up for it
        have hlength := length_foldl_push_le (k := k) rest values
        constructor
        · intro h
          rw [List.foldl_cons, push_of_mem hseen] at h
          have := congrArg List.length h
          rw [List.length_append, List.length_cons] at this
          omega
        · intro h
          exact absurd hseen h.1
      · rw [List.foldl_cons, push_of_not_mem hseen, List.append_cons values value rest, ih]
        exact ⟨fun h => ⟨hseen, h⟩, fun h => h.2⟩

/-! ### What is appended -/

/-- What a sequence of pushes appends. -/
def added (k : Nat) : List α → List α → List α
  | _, [] => []
  | values, value :: rest =>
      if value ∈ window k values then added k values rest
      else value :: added k (values ++ [value]) rest

theorem foldl_push_eq (values pushed : List α) :
    pushed.foldl (push k) values = values ++ added k values pushed := by
  induction pushed generalizing values with
  | nil => simp [added]
  | cons value rest ih =>
      rw [List.foldl_cons, ih, push, added]
      split <;> simp

theorem fresh_added (values pushed : List α) : Fresh k values (added k values pushed) := by
  induction pushed generalizing values with
  | nil => trivial
  | cons value rest ih =>
      rw [added]
      split
      · exact ih values
      · exact ⟨‹_›, ih _⟩

theorem mem_of_mem_added {values pushed : List α} {value : α} (h : value ∈ added k values pushed) :
    value ∈ pushed := by
  induction pushed generalizing values with
  | nil => cases h
  | cons first rest ih =>
      rw [added] at h
      split at h
      · exact List.mem_cons_of_mem _ (ih h)
      · rcases List.mem_cons.mp h with rfl | h
        · exact List.mem_cons_self
        · exact List.mem_cons_of_mem _ (ih h)

/-- Nothing is appended if and only if everything is in the window. -/
theorem added_eq_nil_iff {values pushed : List α} :
    added k values pushed = [] ↔ ∀ value ∈ pushed, value ∈ window k values := by
  induction pushed with
  | nil => simp [added]
  | cons value rest ih =>
      rw [added, List.forall_mem_cons]
      by_cases hseen : value ∈ window k values
      · rw [if_pos hseen, ih, and_iff_right hseen]
      · simp [hseen]

omit [DecidableEq α] in
/-- The window reaches back over what is appended. -/
theorem window_append (values others : List α) :
    window k (values ++ others) = window k others ++ window (k - others.length) values := by
  simp [window, List.take_append]

/-! ### Pushing what the beginning has already -/

/-- What is kept of the values that the beginning does not have. -/
def others (k : Nat) (values pushed kept : List α) : List α :=
  (pushed.filter (· ∉ values)).foldl (push k) kept

/-- Whatever is pushed of the beginning is still in the window, behind the others that have been
kept before it. -/
def Recognised (k : Nat) (values pushed kept : List α) : Prop :=
  ∀ before value after, pushed = before ++ value :: after → value ∈ values →
    value ∈ window (k - (others k values before kept).length) values

theorem recognised_nil (values kept : List α) : Recognised k values [] kept := by
  intro before value after h
  simp at h

theorem recognised_cons {values : List α} {value : α} {rest kept : List α} :
    Recognised k values (value :: rest) kept ↔
      (value ∈ values → value ∈ window (k - kept.length) values) ∧
        Recognised k values rest (others k values [value] kept) := by
  have hothers : ∀ before, others k values (value :: before) kept =
      others k values before (others k values [value] kept) := by
    intro before
    rw [others, others, others, ← List.foldl_append, ← List.filter_append]
    rfl
  constructor
  · intro h
    refine ⟨fun hvalue => h [] value rest rfl hvalue, fun before other after hrest hother => ?_⟩
    rw [← hothers]
    exact h (value :: before) other after (by rw [hrest, List.cons_append]) hother
  · rintro ⟨hvalue, hrest⟩ before other after heq hother
    cases before with
    | nil =>
        obtain ⟨rfl, -⟩ := List.cons.inj heq
        exact hvalue hother
    | cons first before =>
        obtain ⟨rfl, hmore⟩ := List.cons.inj heq
        rw [hothers]
        exact hrest before other after hmore hother

/-- Nothing of the beginning is appended again if and only if all of it is recognised. -/
theorem added_disjoint_iff {values pushed kept : List α} (hkept : ∀ value ∈ kept, value ∉ values) :
    (∀ value ∈ added k (values ++ kept) pushed, value ∉ values) ↔
      Recognised k values pushed kept := by
  induction pushed generalizing kept with
  | nil => exact iff_of_true (fun _ h => absurd h List.not_mem_nil) (recognised_nil _ _)
  | cons value rest ih =>
      rw [recognised_cons]
      by_cases hvalue : value ∈ values
      · have hwindow : value ∈ window k (values ++ kept) ↔
            value ∈ window (k - kept.length) values := by
          rw [window_append, List.mem_append]
          refine or_iff_right fun hin => hkept value ?_ hvalue
          exact List.mem_reverse.mp (List.mem_of_mem_take hin)
        have hothers : others k values [value] kept = kept := by simp [others, hvalue]
        rw [hothers, added]
        by_cases hin : value ∈ window k (values ++ kept)
        · rw [if_pos hin, ih hkept]
          exact ⟨fun h => ⟨fun _ => hwindow.mp hin, h⟩, fun h => h.2⟩
        · rw [if_neg hin, List.forall_mem_cons]
          exact iff_of_false (fun h => h.1 hvalue) fun h => hin (hwindow.mpr (h.1 hvalue))
      · have hwindow : value ∈ window k (values ++ kept) ↔ value ∈ window k kept := by
          rw [window_append, List.mem_append]
          refine or_iff_left fun hin => hvalue ?_
          exact List.mem_reverse.mp (List.mem_of_mem_take hin)
        have hothers : others k values [value] kept = push k kept value := by simp [others, hvalue]
        rw [hothers, added, push]
        by_cases hin : value ∈ window k kept
        · rw [if_pos (hwindow.mpr hin), if_pos hin, ih hkept]
          exact ⟨fun h => ⟨fun hno => absurd hno hvalue, h⟩, fun h => h.2⟩
        · rw [if_neg fun h => hin (hwindow.mp h), if_neg hin, List.forall_mem_cons,
            List.append_assoc, ih]
          · exact ⟨fun h => ⟨fun hno => absurd hno hvalue, h.2⟩, fun h => ⟨hvalue, h.2⟩⟩
          · intro other hother
            rcases List.mem_append.mp hother with hother | hother
            · exact hkept other hother
            · exact List.mem_singleton.mp hother ▸ hvalue

/-- Pushing some of the beginning and then what has been appended gives the same list again, and
nothing of the beginning is appended, if and only if that part of the beginning is in its window and
all that is pushed of the beginning is recognised. -/
theorem push_again_iff {values pushed again : List α} (hagain : ∀ value ∈ again, value ∈ values) :
    ((again ++ added k values pushed).foldl (push k) values = pushed.foldl (push k) values ∧
        ∀ value ∈ added k values pushed, value ∉ values) ↔
      (∀ value ∈ again, value ∈ window k values) ∧ Recognised k values pushed [] := by
  have hdisjoint : (∀ value ∈ added k (values ++ []) pushed, value ∉ values) ↔
      Recognised k values pushed [] := added_disjoint_iff fun _ h => absurd h List.not_mem_nil
  rw [List.append_nil] at hdisjoint
  rw [← hdisjoint, ← added_eq_nil_iff, List.foldl_append, foldl_push_eq values again,
    foldl_push_eq values pushed, and_congr_left_iff]
  intro hnew
  constructor
  · intro h
    rw [foldl_push_eq, List.append_assoc, List.append_cancel_left_eq] at h
    rw [List.eq_nil_iff_forall_not_mem]
    intro value hvalue
    refine hnew value ?_ (hagain value (mem_of_mem_added hvalue))
    rw [← h]
    exact List.mem_append_left _ hvalue
  · intro h
    rw [h, List.append_nil]
    exact (foldl_push_eq_append_iff _ _).mpr (fresh_added _ _)

/-! ### A list of bounded length -/

/-- Pushes a value that differs from the last one, and drops the first when there are too many. -/
def remember (limit : Nat) (values : List α) (value : α) : List α :=
  if values.getLast? = some value then values
  else if limit < (values ++ [value]).length then (values ++ [value]).drop 1
  else values ++ [value]

omit [DecidableEq α] in
theorem mem_window_one {values : List α} {value : α} :
    value ∈ window 1 values ↔ values.getLast? = some value := by
  rw [window, ← List.head?_reverse]
  cases values.reverse with
  | nil => simp
  | cons last rest => simp [eq_comm]

omit [DecidableEq α] in
theorem getLast?_rtake {limit : Nat} (hlimit : 0 < limit) (values : List α) :
    (values.rtake limit).getLast? = values.getLast? := by
  rw [List.rtake_eq_reverse_take_reverse, List.getLast?_reverse, ← List.head?_reverse,
    List.head?_take, if_neg (by omega)]

theorem remember_rtake {limit : Nat} (hlimit : 0 < limit) (values : List α) (value : α) :
    remember limit (values.rtake limit) value = (push 1 values value).rtake limit := by
  rw [remember, getLast?_rtake hlimit]
  by_cases hlast : values.getLast? = some value
  · rw [if_pos hlast, push_of_mem (mem_window_one.mpr hlast)]
  · rw [if_neg hlast, push_of_not_mem (mt mem_window_one.mp hlast)]
    obtain ⟨limit, rfl⟩ : ∃ fewer, limit = fewer + 1 := ⟨limit - 1, by omega⟩
    rw [List.rtake_concat_succ]
    have hlength : (values.rtake (limit + 1)).length = min (limit + 1) values.length := by
      rw [List.rtake, List.length_drop]
      omega
    rw [List.length_append, hlength, List.length_singleton]
    split
    next hfull =>
      have hdrop : (values.rtake (limit + 1)).drop 1 = values.rtake limit := by
        rw [List.rtake, List.rtake, List.drop_drop]
        congr 1
        omega
      rw [List.drop_append_of_le_length (by omega), hdrop]
    next hroom =>
      have hall : ∀ {count}, values.length ≤ count → values.rtake count = values := by
        intro count hcount
        rw [List.rtake, Nat.sub_eq_zero_of_le hcount, List.drop_zero]
      have hshort : values.length ≤ limit := by omega
      rw [hall hshort, hall (hshort.trans (Nat.le_succ limit))]

/-- What is remembered are the last values of those that differ from the one before. -/
theorem foldl_remember {limit : Nat} (hlimit : 0 < limit) (values : List α) :
    values.foldl (remember limit) [] = (values.foldl (push 1) []).rtake limit := by
  induction values using List.reverseRecOn with
  | nil => simp
  | append_singleton values value ih =>
      rw [List.foldl_concat, List.foldl_concat, ih, remember_rtake hlimit]

end Recent
