import Liz.Base.Files
import Liz.Base.Paths
import Liz.Storage.Stores

/-!
# The stores on files

What the stores do to the bytes of their files: a record is written whole over the file it had, an
entry of a turn log goes behind the others as one line of text. What `serde_json` makes of a value,
and what it reads back, are taken as given.
-/

namespace Liz

/-! ### Where the stores keep their files

Every record has a file of its own in the directory of its kind, named by the identifier as it is.
-/

structure StoragePaths where
  root : String
  deriving DecidableEq, Repr

namespace StoragePaths

variable (paths : StoragePaths)

def threadsDir : String := Paths.join paths.root "threads"

def turnLogsDir : String := Paths.join paths.root "turn_logs"

def artifactsDir : String := Paths.join paths.root "artifacts"

def checkpointsDir : String := Paths.join paths.root "checkpoints"

def globalMemoryFile : String := Paths.join paths.root "global_memory.json"

def authProfilesFile : String := Paths.join paths.root "auth_profiles.json"

def nodeRegistryFile : String := Paths.join paths.root "node_registry.json"

/-- The file of a record in the directory of its kind. -/
def recordFile (dir extension id : String) : String := Paths.join dir (id ++ extension)

def threadFile (threadId : ThreadId) : String := recordFile paths.threadsDir ".json" threadId

def turnLogFile (threadId : ThreadId) : String := recordFile paths.turnLogsDir ".jsonl" threadId

def artifactFile (artifactId : ArtifactId) : String :=
  recordFile paths.artifactsDir ".json" artifactId

def checkpointFile (checkpointId : CheckpointId) : String :=
  recordFile paths.checkpointsDir ".json" checkpointId

/-- Every directory that should exist. -/
def requiredDirectories : List String :=
  [paths.root, paths.threadsDir, paths.turnLogsDir, paths.artifactsDir, paths.checkpointsDir]

end StoragePaths

/-- What the stores keep a file for each identifier of. -/
inductive RecordKind
  | thread | turnLog | artifact | checkpoint
  deriving DecidableEq, Repr

def RecordKind.dir (paths : StoragePaths) : RecordKind → String
  | thread => paths.threadsDir
  | turnLog => paths.turnLogsDir
  | artifact => paths.artifactsDir
  | checkpoint => paths.checkpointsDir

def RecordKind.file (paths : StoragePaths) : RecordKind → String → String
  | thread => paths.threadFile
  | turnLog => paths.turnLogFile
  | artifact => paths.artifactFile
  | checkpoint => paths.checkpointFile

/-! ### Steps on files -/

open Paths Files

/-- `serde_json` on whole files: `to_vec_pretty` and `from_slice`. -/
class JsonDocument (α : Type) where
  toVecPretty : α → Bytes
  fromSlice : Bytes → Except String α

/-- `serde_json` on lines: the text of `to_writer`, and `from_str`. -/
class JsonLine (α : Type) where
  toWriter : α → String
  fromStr : String → Except String α

namespace Fs

section Stores

variable (cwd : Location) (paths : StoragePaths)

/-! ### JSON files -/

def ensureLayout : List Step :=
  paths.requiredDirectories.map fun dir => .createDir (locate cwd dir)

def ensureParent (path : String) : List Step := [.createDir (locate cwd path).dropLast]

section Documents

variable {α : Type} [JsonDocument α]

def writeJson (path : String) (value : α) (chunks : Chunks (JsonDocument.toVecPretty value)) :
    List Step :=
  ensureParent cwd path ++ writeWhole (locate cwd path) chunks.pieces

def readJson (path : String) (files : FileSystem) : Except StorageError (Option α) :=
  match files (locate cwd path) with
  | none => .ok none
  | some bytes =>
      match JsonDocument.fromSlice bytes with
      | .ok value => .ok (some value)
      | .error message => .error (.serde message)

/-- Writing a record into the layout of the storage root. -/
def putJson (path : String) (value : α) (chunks : Chunks (JsonDocument.toVecPretty value)) :
    List Step :=
  ensureLayout cwd paths ++ writeJson cwd path value chunks

end Documents

section Snapshots

variable [JsonDocument GlobalMemorySnapshot]

def writeSnapshot (snapshot : GlobalMemorySnapshot)
    (chunks : Chunks (JsonDocument.toVecPretty snapshot)) : List Step :=
  putJson cwd paths paths.globalMemoryFile snapshot chunks

/-- A memory that was never written is empty. -/
def readSnapshot (files : FileSystem) : Except StorageError GlobalMemorySnapshot :=
  (readJson cwd paths.globalMemoryFile files).map fun snapshot => snapshot.getD .empty

end Snapshots

/-! ### Turn logs -/

section TurnLogs

variable [JsonLine TurnLogEntry]

/-- What an append writes: the text of the entry and a line break. -/
def entryLine (entry : TurnLogEntry) : Bytes :=
  Bytes.ofText (JsonLine.toWriter entry) ++ [Bytes.newline]

/-- An entry and the pieces its line is written in. -/
structure LogAppend where
  entry : TurnLogEntry
  chunks : Chunks (entryLine entry)

def appendEntry (append : LogAppend) : List Step :=
  let path := paths.turnLogFile append.entry.threadId
  ensureParent cwd path ++ writeBehind (locate cwd path) append.chunks.pieces

/-- A line that is not blank is an entry. -/
def readLogLine (line : Bytes) : Except StorageError (Option TurnLogEntry) :=
  match Bytes.toText (Bytes.chomp line) with
  | none => .error (.io "stream did not contain valid UTF-8")
  | some text =>
      if Text.isBlank text then .ok none
      else
        match JsonLine.fromStr text with
        | .ok entry => .ok (some entry)
        | .error message => .error (.serde message)

def readLogLines : List Bytes → Except StorageError (List TurnLogEntry)
  | [] => .ok []
  | line :: rest => do
      match ← readLogLine line with
      | none => readLogLines rest
      | some entry => pure (entry :: (← readLogLines rest))

def readEntries (threadId : ThreadId) (files : FileSystem) :
    Except StorageError (List TurnLogEntry) :=
  match files (locate cwd (paths.turnLogFile threadId)) with
  | none => .ok []
  | some bytes => readLogLines (Bytes.lines bytes)

/-- The files after these appends, one after another. -/
def appendEntries (appends : List LogAppend) (files : FileSystem) : FileSystem :=
  appends.foldl (fun files append => run (appendEntry cwd paths append) files) files

end TurnLogs

end Stores

end Fs

end Liz
