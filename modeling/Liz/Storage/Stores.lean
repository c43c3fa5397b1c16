import Liz.Base.Program
import Liz.Protocol.Memory
import Liz.Protocol.Resources

/-!
# The stores of the runtime

One JSON file for each record, one line of JSON for each entry of a turn log, and a disk that may
refuse any operation or give up in the middle of a write. Writing a JSON file truncates it first, so
a write that gives up leaves a file that no longer parses; an append that gives up leaves part of a
line, or a whole line without its line break.
-/

namespace Liz

inductive StorageError
  | io (message : String)
  | serde (message : String)
  deriving DecidableEq, Repr

/-- How a file-system operation fails: before it changes anything, in the middle of a write, or
after the text of a log entry and before its line break. -/
inductive Fault
  | refused (message : String)
  | torn (message : String)
  | unterminated (message : String)
  deriving DecidableEq, Repr

def Fault.message : Fault → String
  | .refused message => message
  | .torn message => message
  | .unterminated message => message

/-- What the disk does with the n-th operation of the runtime. -/
class Disk where
  fault : Nat → Option Fault

/-- A disk that never fails. -/
@[reducible] def calmDisk : Disk := ⟨fun _ => none⟩

/-- A disk that refuses one operation. -/
@[reducible] def diskFullAt (n : Nat) : Disk :=
  ⟨fun operation => if operation = n then some (.refused "No space left on device") else none⟩

/-- A file that holds one JSON document. -/
inductive JsonFile (α : Type)
  | intact (value : α)
  | corrupt (message : String)
  deriving DecidableEq, Repr

/-- How the last line of a log file ends. -/
inductive LogTail
  | closed | unterminated | torn
  deriving DecidableEq, Repr

/-- The entries whose text is in the file in full, in the order of the appends. -/
structure TurnLogFile where
  entries : List TurnLogEntry
  tail : LogTail
  deriving DecidableEq, Repr

/-- A log file that does not exist reads as an empty one. -/
def TurnLogFile.empty : TurnLogFile := { entries := [], tail := .closed }

/-- What the file reads back as. An entry written behind a line without a line break shares that
line, and neither parses. -/
def TurnLogFile.read (file : TurnLogFile) : Except StorageError (List TurnLogEntry) :=
  match file.tail with
  | .torn => .error (.serde "turn log line is not an entry")
  | _ => .ok file.entries

/-- The whole text of an entry goes behind what the file holds. -/
def TurnLogFile.append (file : TurnLogFile) (entry : TurnLogEntry) (tail : LogTail) : TurnLogFile :=
  { entries := file.entries ++ [entry], tail := if file.tail = .closed then tail else .torn }

structure RuntimeStores where
  /-- The storage root as it is printed. -/
  root : String
  /-- The number of operations issued so far. -/
  operations : Nat
  threads : Table ThreadId (JsonFile Thread)
  turnLogs : Table ThreadId TurnLogFile
  checkpoints : Table CheckpointId (JsonFile Checkpoint)
  globalMemory : Option (JsonFile GlobalMemorySnapshot)
  artifacts : Table ArtifactId (JsonFile StoredArtifact)
  nodeRegistry : Option (JsonFile NodeRegistrySnapshot)
  deriving DecidableEq

/-- A storage root without files. -/
def RuntimeStores.blank : RuntimeStores :=
  { root := ".liz", operations := 0, threads := ∅, turnLogs := ∅, checkpoints := ∅, globalMemory := none,
    artifacts := ∅, nodeRegistry := none }

def RuntimeStores.artifactFile (stores : RuntimeStores) (artifactId : ArtifactId) : String :=
  stores.root ++ "/artifacts/" ++ artifactId ++ ".json"

/-- One more operation has been issued. -/
def RuntimeStores.tick (stores : RuntimeStores) : RuntimeStores :=
  { stores with operations := stores.operations + 1 }

def RuntimeStores.turnLog (stores : RuntimeStores) (threadId : ThreadId) : TurnLogFile :=
  (stores.turnLogs.lookup threadId).getD .empty

/-- The memory file as it reads; none when it does not parse. -/
def storedMemory (stores : RuntimeStores) : Option GlobalMemorySnapshot :=
  match stores.globalMemory with
  | none => some .empty
  | some (.intact snapshot) => some snapshot
  | some (.corrupt _) => none

/-! ### What an operation comes to -/

/-- Reading a JSON file: a missing file is no error. -/
def readOutcome {α : Type} : Option Fault → Option (JsonFile α) → Except StorageError (Option α)
  | some fault, _ => .error (.io fault.message)
  | none, none => .ok none
  | none, some (.intact value) => .ok (some value)
  | none, some (.corrupt message) => .error (.serde message)

/-- What writing a JSON file leaves of it, if it touches it. -/
def writtenFile {α : Type} (value : α) : Option Fault → Option (JsonFile α)
  | none => some (.intact value)
  | some (.refused _) => none
  | some fault => some (.corrupt fault.message)

def logOutcome : Option Fault → TurnLogFile → Except StorageError (List TurnLogEntry)
  | some fault, _ => .error (.io fault.message)
  | none, file => file.read

/-- What appending an entry leaves of the log, if it touches it. -/
def appendedFile (file : TurnLogFile) (entry : TurnLogEntry) : Option Fault → Option TurnLogFile
  | none => some (file.append entry .closed)
  | some (.refused _) => none
  | some (.torn _) => some { file with tail := .torn }
  | some (.unterminated _) => some (file.append entry .unterminated)

/-- The files after an append. -/
def RuntimeStores.appended (stores : RuntimeStores) (entry : TurnLogEntry) (fault : Option Fault) :
    RuntimeStores :=
  match appendedFile (stores.turnLog entry.threadId) entry fault with
  | some file => { stores with turnLogs := stores.turnLogs.insert entry.threadId file }
  | none => stores

/-- The thread files after a thread record has been written. -/
def RuntimeStores.withThread (stores : RuntimeStores) (thread : Thread) (fault : Option Fault) :
    RuntimeStores :=
  match writtenFile thread fault with
  | some file => { stores with threads := stores.threads.insert thread.id file }
  | none => stores

/-- An operation that changes files succeeds unless the disk says otherwise. -/
def writeOutcome : Option Fault → Except StorageError Unit
  | none => .ok ()
  | some fault => .error (.io fault.message)

/-! ### What the writes do to the logs -/

theorem TurnLogFile.append_ne (file : TurnLogFile) (entry : TurnLogEntry) (tail : LogTail) :
    file.append entry tail ≠ file := by
  intro h
  have hlength := congrArg (fun file => file.entries.length) h
  simp [TurnLogFile.append] at hlength

theorem turnLog_appended (stores : RuntimeStores) (entry : TurnLogEntry) (fault : Option Fault)
    (threadId : ThreadId) :
    (stores.appended entry fault).turnLog threadId =
      if threadId = entry.threadId then
        (appendedFile (stores.turnLog threadId) entry fault).getD (stores.turnLog threadId)
      else stores.turnLog threadId := by
  unfold RuntimeStores.appended
  by_cases h : threadId = entry.threadId
  · subst h
    cases appendedFile (stores.turnLog entry.threadId) entry fault with
    | none => simp
    | some file => simp [RuntimeStores.turnLog]
  · cases appendedFile (stores.turnLog entry.threadId) entry fault with
    | none => simp [h]
    | some file => simp [RuntimeStores.turnLog, h]

/-- A log that could be read is not the same once an append has touched it. -/
theorem turnLog_appended_ne {stores : RuntimeStores} {entry : TurnLogEntry} {fault : Option Fault}
    (hread : (stores.turnLog entry.threadId).tail ≠ .torn)
    (htouched : ∀ message, fault ≠ some (.refused message)) :
    (stores.appended entry fault).turnLog entry.threadId ≠ stores.turnLog entry.threadId := by
  rw [turnLog_appended, if_pos rfl]
  rcases fault with _ | message | message | message
  · exact TurnLogFile.append_ne _ _ _
  · exact absurd rfl (htouched message)
  · intro h
    exact hread (congrArg TurnLogFile.tail h).symm
  · exact TurnLogFile.append_ne _ _ _

theorem turnLogs_withThread (stores : RuntimeStores) (thread : Thread) (fault : Option Fault) :
    (stores.withThread thread fault).turnLogs = stores.turnLogs := by
  unfold RuntimeStores.withThread
  cases writtenFile thread fault <;> rfl

/-! ### Operations -/

abbrev StoreM := EStateM StorageError RuntimeStores

variable [Disk]

/-- The next operation: `outcome` is what it returns, `effect` what it does to the files. -/
def operation {α : Type} (outcome : Option Fault → RuntimeStores → Except StorageError α)
    (effect : Option Fault → RuntimeStores → RuntimeStores) : StoreM α := fun stores =>
  let fault := Disk.fault stores.operations
  match outcome fault stores with
  | .ok value => .ok value (effect fault stores).tick
  | .error error => .error error (effect fault stores).tick

/-- Reads a JSON file. -/
def readJson {α : Type} (file : RuntimeStores → Option (JsonFile α)) : StoreM (Option α) :=
  operation (fun fault stores => readOutcome fault (file stores)) (fun _ stores => stores)

/-- Writes a JSON file. -/
def writeJson {α : Type} (value : α) (put : JsonFile α → RuntimeStores → RuntimeStores) :
    StoreM Unit :=
  operation (fun fault _ => writeOutcome fault) fun fault stores =>
    match writtenFile value fault with
    | some file => put file stores
    | none => stores

namespace RuntimeStores

def putThread (thread : Thread) : StoreM Unit :=
  operation (fun fault _ => writeOutcome fault) fun fault stores => stores.withThread thread fault

def getThread (threadId : ThreadId) : StoreM (Option Thread) :=
  readJson fun stores => stores.threads.lookup threadId

def appendTurnLog (entry : TurnLogEntry) : StoreM Unit :=
  operation (fun fault _ => writeOutcome fault) fun fault stores => stores.appended entry fault

def readTurnLog (threadId : ThreadId) : StoreM (List TurnLogEntry) :=
  operation (fun fault stores => logOutcome fault (stores.turnLog threadId)) fun _ stores => stores

def putCheckpoint (checkpoint : Checkpoint) : StoreM Unit :=
  writeJson checkpoint fun file stores =>
    { stores with checkpoints := stores.checkpoints.insert checkpoint.id file }

def readGlobalMemory : StoreM GlobalMemorySnapshot :=
  (fun snapshot => snapshot.getD .empty) <$> readJson fun stores => stores.globalMemory

def writeGlobalMemory (snapshot : GlobalMemorySnapshot) : StoreM Unit :=
  writeJson snapshot fun file stores => { stores with globalMemory := some file }

def putArtifact (artifact : StoredArtifact) : StoreM Unit :=
  writeJson artifact fun file stores =>
    { stores with artifacts := stores.artifacts.insert artifact.reference.id file }

def readNodeRegistry : StoreM NodeRegistrySnapshot :=
  (fun snapshot => snapshot.getD ⟨[], []⟩) <$> readJson fun stores => stores.nodeRegistry

def writeNodeRegistry (snapshot : NodeRegistrySnapshot) : StoreM Unit :=
  writeJson snapshot fun file stores => { stores with nodeRegistry := some file }

end RuntimeStores

/-! ### Rules -/

open Program

section Rules

variable {α : Type} {E : StorageError → RuntimeStores → Prop} {stores : RuntimeStores}

theorem wp_operation {Q : α → RuntimeStores → Prop}
    (outcome : Option Fault → RuntimeStores → Except StorageError α)
    (effect : Option Fault → RuntimeStores → RuntimeStores) :
    wp (operation outcome effect) Q E stores ↔
      (∀ value, outcome (Disk.fault stores.operations) stores = .ok value →
        Q value (effect (Disk.fault stores.operations) stores).tick) ∧
      (∀ error, outcome (Disk.fault stores.operations) stores = .error error →
        E error (effect (Disk.fault stores.operations) stores).tick) := by
  unfold operation wp
  dsimp only
  cases outcome (Disk.fault stores.operations) stores with
  | ok value => simp
  | error error => simp

theorem wp_readJson {Q : Option α → RuntimeStores → Prop}
    (file : RuntimeStores → Option (JsonFile α)) :
    wp (readJson file) Q E stores ↔
      (∀ value, readOutcome (Disk.fault stores.operations) (file stores) = .ok value →
        Q value stores.tick) ∧
      (∀ error, readOutcome (Disk.fault stores.operations) (file stores) = .error error →
        E error stores.tick) := by
  rw [readJson, wp_operation]

theorem wp_effect {Q : Unit → RuntimeStores → Prop}
    (effect : Option Fault → RuntimeStores → RuntimeStores) :
    wp (operation (fun fault _ => writeOutcome fault) effect) Q E stores ↔
      (Disk.fault stores.operations = none → Q () (effect none stores).tick) ∧
      (∀ fault, Disk.fault stores.operations = some fault →
        E (.io fault.message) (effect (some fault) stores).tick) := by
  rw [wp_operation]
  cases Disk.fault stores.operations with
  | none =>
      simp only [writeOutcome, forall_const, reduceCtorEq, false_implies, implies_true, and_true]
      exact ⟨fun h => h (), fun h _ => h⟩
  | some fault => simp [writeOutcome]

@[simp] theorem wp_putThread {Q : Unit → RuntimeStores → Prop} (thread : Thread) :
    wp (RuntimeStores.putThread thread) Q E stores ↔
      (Disk.fault stores.operations = none → Q () (stores.withThread thread none).tick) ∧
      (∀ fault, Disk.fault stores.operations = some fault →
        E (.io fault.message) (stores.withThread thread (some fault)).tick) := by
  rw [RuntimeStores.putThread, wp_effect]

/-- A snapshot that is read is the one that is stored. -/
theorem wp_readGlobalMemory {Q : GlobalMemorySnapshot → RuntimeStores → Prop}
    (hread : ∀ snapshot, storedMemory stores = some snapshot → Q snapshot stores.tick)
    (hfailed : ∀ e, E e stores.tick) : wp RuntimeStores.readGlobalMemory Q E stores := by
  rw [RuntimeStores.readGlobalMemory, wp_map, wp_readJson]
  refine ⟨fun value hvalue => hread _ ?_, fun e _ => hfailed e⟩
  unfold storedMemory
  cases hfault : Disk.fault stores.operations with
  | some fault => simp [readOutcome, hfault] at hvalue
  | none =>
      rw [hfault] at hvalue
      generalize stores.globalMemory = file at hvalue ⊢
      rcases file with _ | ⟨snapshot⟩ | message
      · exact congrArg some (Except.ok.inj hvalue ▸ rfl)
      · exact congrArg some (Except.ok.inj hvalue ▸ rfl)
      · exact absurd hvalue (by simp [readOutcome])

/-- A snapshot is written in full, or the file stays as it was, or it no longer parses. -/
theorem wp_writeGlobalMemory {Q : Unit → RuntimeStores → Prop} {snapshot : GlobalMemorySnapshot}
    (hwritten : Q () { stores with globalMemory := some (.intact snapshot) }.tick)
    (hkept : ∀ e, E e stores.tick)
    (htorn : ∀ e message, E e { stores with globalMemory := some (.corrupt message) }.tick) :
    wp (RuntimeStores.writeGlobalMemory snapshot) Q E stores := by
  rw [RuntimeStores.writeGlobalMemory, writeJson, wp_effect]
  refine ⟨fun _ => hwritten, fun fault _ => ?_⟩
  cases fault with
  | refused message => exact hkept _
  | torn message => exact htorn _ _
  | unterminated message => exact htorn _ _

end Rules

end Liz
