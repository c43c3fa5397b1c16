import Liz.Runtime.Ids
import Liz.Storage.Stores
import Liz.Protocol.Memory

/-!
# The state of the turn runtime

Threads and turns are driven over three pieces of state: the files of the stores, the identifier
generator, and the turn manager's memory of the turns that have not ended. An operation that fails
keeps what it has already done to each of them.
-/

namespace Liz

inductive RuntimeError
  | notFound (code message : String)
  | invalidState (code message : String)
  | unsupported (code message : String)
  | storage (error : StorageError)
  deriving DecidableEq, Repr

namespace RuntimeError

/-- The stable machine-readable error code. -/
def code : RuntimeError → String
  | notFound code _ => code
  | invalidState code _ => code
  | unsupported code _ => code
  | storage _ => "storage_error"

/-- Whether the action may succeed if retried. -/
def retryable : RuntimeError → Bool
  | storage _ => true
  | _ => false

def display : RuntimeError → String
  | notFound _ message => message
  | invalidState _ message => message
  | unsupported _ message => message
  | storage (.io message) => "runtime storage failure: storage I/O error: " ++ message
  | storage (.serde message) => "runtime storage failure: storage serialization error: " ++ message

end RuntimeError

structure TurnManager where
  activeTurns : Table TurnId Turn
  nextSequence : Table ThreadId Nat
  deriving DecidableEq

/-- A manager that has just been created remembers nothing. -/
def TurnManager.default : TurnManager := { activeTurns := ∅, nextSequence := ∅ }

structure TurnRuntime where
  stores : RuntimeStores
  ids : IdGenerator
  turnManager : TurnManager
  deriving DecidableEq

abbrev TurnM := EStateM RuntimeError TurnRuntime

/-- The files are a part of the runtime's state. -/
def TurnRuntime.storesPart : Program.Part TurnRuntime RuntimeStores where
  get := TurnRuntime.stores
  set stores runtime := { runtime with stores := stores }
  get_set _ _ := rfl
  set_get _ := rfl

/-- A storage operation of the runtime; its errors become runtime errors. -/
def stored {α : Type} (p : StoreM α) : TurnM α :=
  Program.zoom TurnRuntime.storesPart (EStateM.adaptExcept .storage p)

/-- Draws from the identifier generator. -/
def drawn {α : Type} (draw : IdGenerator → α × IdGenerator) : TurnM α :=
  modifyGet fun runtime => ((draw runtime.ids).1, { runtime with ids := (draw runtime.ids).2 })

def modifyTurns (f : TurnManager → TurnManager) : TurnM Unit :=
  modify fun runtime => { runtime with turnManager := f runtime.turnManager }

/-- The value a lookup found, or the error that says what is missing. -/
def orNotFound {α : Type} (code message : String) : Option α → TurnM α
  | some value => pure value
  | none => throw (.notFound code message)

/-- Reads a thread that has to exist. -/
def requireThread [Disk] (threadId : ThreadId) : TurnM Thread := do
  orNotFound "thread_not_found" "thread does not exist" (← stored (RuntimeStores.getThread threadId))

/-- What the next operation finds when it reads a thread that has to exist. -/
def foundThread [Disk] (stores : RuntimeStores) (threadId : ThreadId) : Except RuntimeError Thread :=
  match readOutcome (Disk.fault stores.operations) (stores.threads.lookup threadId) with
  | .ok (some thread) => .ok thread
  | .ok none => .error (.notFound "thread_not_found" "thread does not exist")
  | .error e => .error (.storage e)

/-- A thread that was found is stored. -/
theorem lookup_of_foundThread [Disk] {stores : RuntimeStores} {threadId : ThreadId}
    {thread : Thread} (h : foundThread stores threadId = .ok thread) :
    stores.threads.lookup threadId = some (.intact thread) := by
  unfold foundThread at h
  cases hfault : Disk.fault stores.operations with
  | some fault => simp [readOutcome, hfault] at h
  | none =>
      rw [hfault] at h
      generalize stores.threads.lookup threadId = file at h ⊢
      rcases file with _ | ⟨value⟩ | message
      · simp [readOutcome] at h
      · simp only [readOutcome, Except.ok.injEq] at h
        rw [h]
      · simp [readOutcome] at h

/-- The logs are as they were. -/
def SameLogs (before after : TurnRuntime) : Prop := after.stores.turnLogs = before.stores.turnLogs

theorem SameLogs.refl (runtime : TurnRuntime) : SameLogs runtime runtime := rfl

theorem SameLogs.trans ⦃s t u : TurnRuntime⦄ (h : SameLogs s t) (h' : SameLogs t u) :
    SameLogs s u :=
  Eq.trans h' h

theorem SameLogs.turnLog {before after : TurnRuntime} (h : SameLogs before after)
    (threadId : ThreadId) : after.stores.turnLog threadId = before.stores.turnLog threadId := by
  rw [RuntimeStores.turnLog, RuntimeStores.turnLog, h]

/-! ### Rules -/

section Rules

open Program

variable {α : Type} {Q : α → TurnRuntime → Prop} {E : RuntimeError → TurnRuntime → Prop}
  {runtime : TurnRuntime}

@[simp] theorem wp_stored (p : StoreM α) :
    wp (stored p) Q E runtime ↔
      wp p (fun a stores => Q a { runtime with stores := stores })
        (fun e stores => E (.storage e) { runtime with stores := stores }) runtime.stores := by
  rw [stored, wp_zoom, wp_adaptExcept]
  rfl

@[simp] theorem wp_drawn (draw : IdGenerator → α × IdGenerator) :
    wp (drawn draw) Q E runtime ↔
      Q (draw runtime.ids).1 { runtime with ids := (draw runtime.ids).2 } := by
  rw [drawn, wp_modifyGet]

@[simp] theorem wp_modifyTurns {Q : Unit → TurnRuntime → Prop} (f : TurnManager → TurnManager) :
    wp (modifyTurns f) Q E runtime ↔
      Q () { runtime with turnManager := f runtime.turnManager } := by
  rw [modifyTurns, wp_modify]

theorem wp_orNotFound {code message : String} (found : Option α) :
    wp (orNotFound code message found) Q E runtime ↔
      (∀ value, found = some value → Q value runtime) ∧
      (found = none → E (.notFound code message) runtime) := by
  cases found with
  | none => simp [orNotFound]
  | some value => simp [orNotFound]

theorem wp_requireThread [Disk] {Q : Thread → TurnRuntime → Prop} (threadId : ThreadId) :
    wp (requireThread threadId) Q E runtime ↔
      (∀ thread, foundThread runtime.stores threadId = .ok thread →
        Q thread { runtime with stores := runtime.stores.tick }) ∧
      (∀ e, foundThread runtime.stores threadId = .error e →
        E e { runtime with stores := runtime.stores.tick }) := by
  unfold requireThread foundThread
  simp only [wp_bind, wp_stored, RuntimeStores.getThread, wp_readJson, wp_orNotFound]
  cases readOutcome (Disk.fault runtime.stores.operations)
      (runtime.stores.threads.lookup threadId) with
  | error e => simp
  | ok found =>
      cases found with
      | none => simp
      | some thread => simp

end Rules

end Liz
