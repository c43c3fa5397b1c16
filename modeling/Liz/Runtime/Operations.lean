import Liz.Runtime.MemorySurfaces
import Liz.Runtime.TurnManager

/-!
# Operations on threads and turns

What the two managers offer to the coordinator, as data: the three ways a thread comes to be worked
on and the six transitions of a turn.
-/

namespace Liz

inductive ThreadOperation
  | startThread (request : ThreadStartRequest)
  | resumeThread (request : ThreadResumeRequest)
  | forkThread (request : ThreadForkRequest)
  | turn (operation : TurnOperation)

/-- An operation on a thread or a turn, or a request that writes the memory. -/
inductive RuntimeOperation
  | thread (operation : ThreadOperation)
  | memory (request : MemoryRequest)

section Runs

variable [Disk] [Clock]

def ThreadOperation.run : ThreadOperation → TurnM Unit
  | startThread request => do
      let _ ← Liz.startThread request
  | resumeThread request => do
      let _ ← Liz.resumeThread request
  | forkThread request => do
      let _ ← Liz.forkThread request
  | turn operation => do
      let _ ← operation.run

def ThreadOperation.step (runtime : TurnRuntime) (operation : ThreadOperation) : TurnRuntime :=
  Program.after operation.run runtime

/-- The runtime has carried the operation out. -/
def ThreadOperation.Accepted (runtime : TurnRuntime) (operation : ThreadOperation) : Prop :=
  (Program.result operation.run runtime).isSome

instance (runtime : TurnRuntime) (operation : ThreadOperation) :
    Decidable (operation.Accepted runtime) :=
  inferInstanceAs (Decidable (_ = true))

variable [Unicode] [UnicodeCase] [JsonText]

def RuntimeOperation.run : RuntimeOperation → TurnM Unit
  | thread operation => operation.run
  | memory request => request.handle

def RuntimeOperation.step (runtime : TurnRuntime) (operation : RuntimeOperation) : TurnRuntime :=
  Program.after operation.run runtime

/-- The runtime has carried the operation out. -/
def RuntimeOperation.Accepted (runtime : TurnRuntime) (operation : RuntimeOperation) : Prop :=
  (Program.result operation.run runtime).isSome

instance (runtime : TurnRuntime) (operation : RuntimeOperation) :
    Decidable (operation.Accepted runtime) :=
  inferInstanceAs (Decidable (_ = true))

end Runs

end Liz
