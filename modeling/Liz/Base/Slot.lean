import Mathlib.Data.List.Perm.Basic

/-!
# A place for one value

Values are put into a place that holds one of them and are taken out again. A value that is put
where another one is held takes its place, and clearing forgets what is held. So every value comes
out exactly when nothing is put or cleared while a value is held.
-/

namespace Slot

inductive Op (α : Type)
  | put (a : α)
  | clear
  | take

variable {α : Type}

/-- What is held after an operation. -/
def next : Option α → Op α → Option α
  | _, .put a => some a
  | _, .clear => none
  | _, .take => none

/-- What an operation takes out. -/
def taken : Option α → Op α → List α
  | held, .take => held.toList
  | _, _ => []

def put : Op α → List α
  | .put a => [a]
  | _ => []

/-- Nothing is forgotten when the place is empty, or when what it holds is taken out. -/
def Careful : Option α → Op α → Prop
  | _, .take => True
  | held, _ => held = none

/-- What is held at the end. -/
def held (before : Option α) (ops : List (Op α)) : Option α := ops.foldl next before

def allTaken (before : Option α) : List (Op α) → List α
  | [] => []
  | op :: rest => taken before op ++ allTaken (next before op) rest

def AllCareful (before : Option α) : List (Op α) → Prop
  | [] => True
  | op :: rest => Careful before op ∧ AllCareful (next before op) rest

theorem held_append (before : Option α) (ops more : List (Op α)) :
    held before (ops ++ more) = held (held before ops) more :=
  List.foldl_append

theorem allTaken_append (before : Option α) (ops more : List (Op α)) :
    allTaken before (ops ++ more) = allTaken before ops ++ allTaken (held before ops) more := by
  induction ops generalizing before with
  | nil => rfl
  | cons op rest ih =>
      rw [List.cons_append, allTaken, allTaken, ih, List.append_assoc]
      rfl

theorem allCareful_append (before : Option α) (ops more : List (Op α)) :
    AllCareful before (ops ++ more) ↔
      AllCareful before ops ∧ AllCareful (held before ops) more := by
  induction ops generalizing before with
  | nil => simp [AllCareful, held]
  | cons op rest ih =>
      rw [List.cons_append, AllCareful, AllCareful, ih, and_assoc]
      rfl

theorem step_of_careful {before : Option α} {op : Op α} (h : Careful before op) :
    before.toList ++ put op = taken before op ++ (next before op).toList := by
  cases op with
  | put a =>
      obtain rfl : before = none := h
      rfl
  | clear =>
      obtain rfl : before = none := h
      rfl
  | take => simp [put, taken, next]

theorem step_length (before : Option α) (op : Op α) :
    (taken before op).length + (next before op).toList.length ≤
        before.toList.length + (put op).length ∧
      (¬ Careful before op → (taken before op).length + (next before op).toList.length <
        before.toList.length + (put op).length) := by
  cases op <;> cases before <;> simp [Careful, taken, next, put]

/-- Carefully used, the place hands out what is put, in that order. -/
theorem taken_of_careful {before : Option α} {ops : List (Op α)} (h : AllCareful before ops) :
    before.toList ++ ops.flatMap put = allTaken before ops ++ (held before ops).toList := by
  induction ops generalizing before with
  | nil => simp [allTaken, held]
  | cons op rest ih =>
      obtain ⟨hop, hrest⟩ := h
      rw [List.flatMap_cons, ← List.append_assoc, step_of_careful hop, List.append_assoc, ih hrest,
        allTaken, List.append_assoc]
      rfl

theorem length_taken_le (before : Option α) (ops : List (Op α)) :
    (allTaken before ops).length + (held before ops).toList.length ≤
      before.toList.length + (ops.flatMap put).length := by
  induction ops generalizing before with
  | nil => simp [allTaken, held]
  | cons op rest ih =>
      have hstep := (step_length before op).1
      have hrest := ih (next before op)
      rw [allTaken, List.flatMap_cons, List.length_append, List.length_append]
      show _ + (held (next before op) rest).toList.length ≤ _
      omega

/-- Nothing is lost exactly when the place is used carefully. -/
theorem length_taken_iff (before : Option α) (ops : List (Op α)) :
    (allTaken before ops).length + (held before ops).toList.length =
        before.toList.length + (ops.flatMap put).length ↔
      AllCareful before ops := by
  constructor
  · induction ops generalizing before with
    | nil => exact fun _ => trivial
    | cons op rest ih =>
        intro h
        rw [allTaken, List.flatMap_cons, List.length_append, List.length_append] at h
        have hheld : held before (op :: rest) = held (next before op) rest := rfl
        rw [hheld] at h
        obtain ⟨hle, hlt⟩ := step_length before op
        have hrest := length_taken_le (next before op) rest
        have hcareful : Careful before op := by
          by_contra hnot
          have := hlt hnot
          omega
        exact ⟨hcareful, ih (next before op) (by omega)⟩
  · intro h
    have := congrArg List.length (taken_of_careful h)
    simpa using this.symm

end Slot
