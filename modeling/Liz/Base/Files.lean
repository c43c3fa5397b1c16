import Liz.Base.Bytes
import Liz.Base.Paths
import Mathlib.Logic.Function.Basic

/-!
# Files and crashes

A program changes files in steps: it makes directories, opens files, cuts them to nothing and puts
pieces behind what they hold. A crash lets through the first steps and no more, so what it leaves is
what a shorter list of steps leaves.
-/

namespace Files

open Paths

/-- The contents of the files that exist. -/
abbrev FileSystem := Location → Option Bytes

inductive Step
  | createDir (dir : Location)
  /-- The file is opened for appending; a missing one is made. -/
  | create (file : Location)
  | truncate (file : Location)
  | append (file : Location) (piece : Bytes)

/-- The file a step may change. -/
def Step.file : Step → Option Location
  | createDir _ => none
  | create file => some file
  | truncate file => some file
  | append file _ => some file

def Step.apply (files : FileSystem) : Step → FileSystem
  | createDir _ => files
  | create file => Function.update files file (some ((files file).getD []))
  | truncate file => Function.update files file (some [])
  | append file piece => Function.update files file (some ((files file).getD [] ++ piece))

def run (steps : List Step) (files : FileSystem) : FileSystem := steps.foldl Step.apply files

/-- What is there after a crash that lets through `count` steps. -/
def crashed (steps : List Step) (count : Nat) (files : FileSystem) : FileSystem :=
  run (steps.take count) files

/-- The pieces in which bytes are written. -/
structure Chunks (payload : Bytes) where
  pieces : List Bytes
  whole : pieces.flatten = payload

/-- Bytes in one piece. -/
def Chunks.single (payload : Bytes) : Chunks payload := ⟨[payload], by simp⟩

/-- Bytes in two pieces. -/
def Chunks.cutAt (length : Nat) (payload : Bytes) : Chunks payload :=
  ⟨[payload.take length, payload.drop length], by simp⟩

/-- The pieces written so far make up the first part of the whole. -/
theorem Chunks.isPart {payload : Bytes} (chunks : Chunks payload) (count : Nat) :
    (chunks.pieces.take count).flatten <+: payload := by
  conv_rhs => rw [← chunks.whole, ← List.take_append_drop count chunks.pieces, List.flatten_append]
  exact List.prefix_append _ _

/-- Writing a file whole, in any number of pieces. -/
def writeWhole (file : Location) (pieces : List Bytes) : List Step :=
  .truncate file :: pieces.map (.append file)

/-- Writing behind what a file holds, in any number of pieces. -/
def writeBehind (file : Location) (pieces : List Bytes) : List Step :=
  .create file :: pieces.map (.append file)

theorem run_append (first second : List Step) (files : FileSystem) :
    run (first ++ second) files = run second (run first files) := List.foldl_append

/-- Steps leave the files alone that they do not name. -/
theorem run_of_not_mem {steps : List Step} {file : Location}
    (h : ∀ step ∈ steps, step.file ≠ some file) (files : FileSystem) :
    run steps files file = files file := by
  induction steps generalizing files with
  | nil => rfl
  | cons step rest ih =>
      rw [List.forall_mem_cons] at h
      have hne : ∀ other, step.file = some other → file ≠ other := by
        rintro other hother rfl
        exact h.1 hother
      refine (ih h.2 _).trans ?_
      cases step with
      | createDir dir => rfl
      | create other => exact Function.update_of_ne (hne other rfl) _ _
      | truncate other => exact Function.update_of_ne (hne other rfl) _ _
      | append other piece => exact Function.update_of_ne (hne other rfl) _ _

theorem run_appends (file : Location) (pieces : List Bytes) {files : FileSystem} {before : Bytes}
    (h : files file = some before) :
    run (pieces.map (.append file)) files file = some (before ++ pieces.flatten) := by
  induction pieces generalizing files before with
  | nil => simpa [run] using h
  | cons piece rest ih =>
      have hfirst : Step.apply files (.append file piece) file = some (before ++ piece) := by
        simp [Step.apply, h]
      refine (ih hfirst).trans ?_
      rw [List.flatten_cons, List.append_assoc]

/-- A crash that comes before steps on a file leaves the file as it was. -/
theorem crashed_of_le {steps others : List Step} {file : Location} {count : Nat}
    (h : ∀ step ∈ steps, step.file ≠ some file) (hcount : count ≤ steps.length)
    (files : FileSystem) : crashed (steps ++ others) count files file = files file := by
  rw [crashed, List.take_append_of_le_length hcount]
  exact run_of_not_mem (fun step hstep => h step (List.mem_of_mem_take hstep)) files

/-- A crash in the middle of the pieces leaves those that have been written, behind what the first
step left. -/
theorem crashed_appends {steps : List Step} {first : Step} {count : Nat} {file : Location}
    (pieces : List Bytes) {files : FileSystem} {before : Bytes}
    (hfirst : first.apply (run steps files) file = some before) (hcount : steps.length < count) :
    crashed (steps ++ first :: pieces.map (.append file)) count files file =
      some (before ++ (pieces.take (count - steps.length - 1)).flatten) := by
  obtain ⟨more, rfl⟩ := Nat.exists_eq_add_of_lt hcount
  have hpieces : steps.length + more + 1 - steps.length - 1 = more := by omega
  have htake : steps.length + more + 1 - steps.length = more + 1 := by omega
  rw [crashed, List.take_append, List.take_of_length_le (by omega), run_append, hpieces, htake,
    List.take_succ_cons, ← List.map_take]
  exact run_appends file _ hfirst

theorem crashed_writeWhole {steps : List Step} {count : Nat} (file : Location)
    (pieces : List Bytes) (hcount : steps.length < count) (files : FileSystem) :
    crashed (steps ++ writeWhole file pieces) count files file =
      some (pieces.take (count - steps.length - 1)).flatten := by
  have hfirst : Step.apply (run steps files) (.truncate file) file = some [] :=
    Function.update_self ..
  exact crashed_appends pieces hfirst hcount

theorem crashed_writeBehind {steps : List Step} {count : Nat} {file : Location}
    (pieces : List Bytes) (h : ∀ step ∈ steps, step.file ≠ some file)
    (hcount : steps.length < count) (files : FileSystem) :
    crashed (steps ++ writeBehind file pieces) count files file =
      some ((files file).getD [] ++ (pieces.take (count - steps.length - 1)).flatten) := by
  have hfirst : Step.apply (run steps files) (.create file) file =
      some ((files file).getD []) := by
    rw [Step.apply, run_of_not_mem h]
    exact Function.update_self ..
  exact crashed_appends pieces hfirst hcount

/-- Steps that are all let through. -/
theorem crashed_of_length_le {steps : List Step} {count : Nat} (h : steps.length ≤ count)
    (files : FileSystem) : crashed steps count files = run steps files := by
  rw [crashed, List.take_of_length_le h]

end Files
