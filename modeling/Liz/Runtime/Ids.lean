import Liz.Base.Text
import Liz.Protocol.Resources

/-!
# Identifiers and timestamps

An identifier carries a label, a reading of the clock and a number that the generator never gives
out twice, so two identifiers of one generator differ whatever the clock says.
-/

namespace Liz

/-- The nanoseconds since the epoch that the n-th reading of the clock returns. -/
class Clock where
  now : Nat → Nat

/-- A clock that stands still. -/
@[reducible] def stoppedClock : Clock := ⟨fun _ => 0⟩

structure IdGenerator where
  sequence : Nat
  /-- How often the clock has been read. -/
  readings : Nat
  deriving DecidableEq, Repr

namespace IdGenerator

/-- A fresh generator. -/
def new : IdGenerator := { sequence := 0, readings := 0 }

/-- `{prefix}_{nanos:x}_{sequence}` -/
def format (label : String) (nanos sequence : Nat) : String :=
  label ++ "_" ++ String.ofList (Nat.toDigits 16 nanos) ++ "_" ++ Nat.repr sequence

/-- Nine digits, zeros in front. -/
def nineDigits (n : Nat) : String :=
  String.ofList ((Nat.toDigits 10 n).leftpad 9 '0')

variable [Clock]

def nextValue (label : String) (ids : IdGenerator) : String × IdGenerator :=
  (format label (Clock.now ids.readings) (ids.sequence + 1),
    { sequence := ids.sequence + 1, readings := ids.readings + 1 })

def nextThreadId (ids : IdGenerator) : ThreadId × IdGenerator := ids.nextValue "thread"
def nextTurnId (ids : IdGenerator) : TurnId × IdGenerator := ids.nextValue "turn"
def nextApprovalId (ids : IdGenerator) : ApprovalId × IdGenerator := ids.nextValue "approval"
def nextCheckpointId (ids : IdGenerator) : CheckpointId × IdGenerator := ids.nextValue "checkpoint"
def nextArtifactId (ids : IdGenerator) : ArtifactId × IdGenerator := ids.nextValue "artifact"
def nextMemoryFactId (ids : IdGenerator) : MemoryFactId × IdGenerator := ids.nextValue "fact"

/-- `unix:{seconds}.{nanos:09}` -/
def nowTimestamp (ids : IdGenerator) : Timestamp × IdGenerator :=
  let now := Clock.now ids.readings
  ("unix:" ++ Nat.repr (now / 1000000000) ++ "." ++ nineDigits (now % 1000000000),
    { ids with readings := ids.readings + 1 })

end IdGenerator

/-! ### An identifier determines its number -/

namespace IdGenerator

theorem repr_injective {m n : Nat} (h : Nat.repr m = Nat.repr n) : m = n := by
  have hdigits := congrArg (fun s => Nat.ofDigitChars 10 s.toList 0) h
  simpa only [Nat.toList_repr, Nat.ofDigitChars_ten_toDigits] using hdigits

theorem underscore_not_mem_repr (n : Nat) : '_' ∉ (Nat.repr n).toList := by
  rw [Nat.toList_repr]
  exact Nat.underscore_not_in_toDigits

theorem format_sequence_injective {label label' : String} {nanos nanos' sequence sequence' : Nat}
    (h : format label nanos sequence = format label' nanos' sequence') : sequence = sequence' := by
  have hlist := congrArg String.toList h
  simp only [format, String.toList_append] at hlist
  have hsplit : (label ++ "_" ++ String.ofList (Nat.toDigits 16 nanos)).toList ++
        '_' :: (Nat.repr sequence).toList =
      (label' ++ "_" ++ String.ofList (Nat.toDigits 16 nanos')).toList ++
        '_' :: (Nat.repr sequence').toList := by
    simpa using hlist
  have hnumber := Text.eq_of_append_sep_eq (underscore_not_mem_repr sequence)
    (underscore_not_mem_repr sequence') hsplit
  exact repr_injective (String.toList_inj.mp hnumber)

end IdGenerator

end Liz
