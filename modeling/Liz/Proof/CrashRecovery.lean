import Liz.Storage.Files

/-!
# What a crash leaves of a file

A record is cut to nothing before it is written again, so a crash in between loses what was stored.
An entry of a log goes behind the others in pieces, so a crash leaves a part of a line that is not
an entry, and the log no longer reads. Either is harmless only when the crash comes before the first
change of the file or, for a record, after the last.
-/

namespace Liz

open Paths Files

namespace Fs

section Records

variable (cwd : Location) (paths : StoragePaths) {α : Type} [JsonDocument α]

/-- The steps before the file itself is touched. -/
def beforeWrite (path : String) : List Step := ensureLayout cwd paths ++ ensureParent cwd path

theorem file_ne_of_mem_beforeWrite {path : String} {step : Step}
    (h : step ∈ beforeWrite cwd paths path) (file : Location) : step.file ≠ some file := by
  rcases List.mem_append.mp h with h | h
  · obtain ⟨dir, -, rfl⟩ := List.mem_map.mp h
    exact Option.some_ne_none file ∘ Eq.symm
  · obtain rfl := List.mem_singleton.mp h
    exact Option.some_ne_none file ∘ Eq.symm

variable {path : String} {value : α} (chunks : Chunks (JsonDocument.toVecPretty value)) (count : Nat)

theorem putJson_eq : putJson cwd paths path value chunks =
    beforeWrite cwd paths path ++ writeWhole (locate cwd path) chunks.pieces := by
  rw [putJson, writeJson, beforeWrite, List.append_assoc]

/-- The bytes that have reached the file when a crash lets through `count` steps. -/
def writtenBytes (path : String) : Bytes :=
  (chunks.pieces.take (count - (beforeWrite cwd paths path).length - 1)).flatten

theorem crashed_putJson_of_le (h : count ≤ (beforeWrite cwd paths path).length)
    (files : FileSystem) :
    crashed (putJson cwd paths path value chunks) count files (locate cwd path) =
      files (locate cwd path) := by
  rw [putJson_eq]
  exact crashed_of_le (fun _ hstep => file_ne_of_mem_beforeWrite cwd paths hstep _) h files

theorem crashed_putJson_of_lt (h : (beforeWrite cwd paths path).length < count)
    (files : FileSystem) :
    crashed (putJson cwd paths path value chunks) count files (locate cwd path) =
      some (writtenBytes cwd paths chunks count path) := by
  rw [putJson_eq]
  exact crashed_writeWhole _ _ h files

/-- What `serde_json` promises about the text of a value: it reads back, and no less than all of it
does. -/
structure ReadsBack (value : α) : Prop where
  whole : JsonDocument.fromSlice (JsonDocument.toVecPretty value) = .ok value
  cut : ∀ piece : Bytes, piece <+: JsonDocument.toVecPretty value →
    piece ≠ JsonDocument.toVecPretty value →
      ∃ message, JsonDocument.fromSlice (α := α) piece = .error message

theorem readJson_of_none {files : FileSystem} (h : files (locate cwd path) = none) :
    readJson (α := α) cwd path files = .ok none := by rw [readJson, h]

theorem readJson_of_ok {files : FileSystem} {bytes : Bytes} (h : files (locate cwd path) = some bytes)
    (hread : JsonDocument.fromSlice bytes = .ok value) :
    readJson cwd path files = .ok (some value) := by
  simp only [readJson, h, hread]

theorem readJson_of_error {files : FileSystem} {bytes : Bytes} {message : String}
    (h : files (locate cwd path) = some bytes)
    (hread : JsonDocument.fromSlice (α := α) bytes = .error message) :
    readJson (α := α) cwd path files = .error (.serde message) := by
  simp only [readJson, h, hread]

/-- A record that has been written in part does not read. -/
theorem readJson_crashed (h : (beforeWrite cwd paths path).length < count)
    (hvalue : ReadsBack value) (files : FileSystem) :
    (writtenBytes cwd paths chunks count path = JsonDocument.toVecPretty value →
      readJson cwd path (crashed (putJson cwd paths path value chunks) count files) =
        .ok (some value)) ∧
    (writtenBytes cwd paths chunks count path ≠ JsonDocument.toVecPretty value →
      ∃ message, readJson (α := α) cwd path
        (crashed (putJson cwd paths path value chunks) count files) = .error (.serde message)) := by
  have hfile := crashed_putJson_of_lt cwd paths chunks count h files
  constructor
  · intro hwhole
    exact readJson_of_ok cwd hfile (hwhole ▸ hvalue.whole)
  · intro hpart
    obtain ⟨message, hmessage⟩ := hvalue.cut _ (chunks.isPart _) hpart
    exact ⟨message, readJson_of_error cwd hfile hmessage⟩

/-- What the stores make of the bytes of a record. -/
def fileImage (bytes : Option Bytes) : Option (JsonFile α) :=
  bytes.map fun bytes =>
    match JsonDocument.fromSlice bytes with
    | .ok value => .intact value
    | .error message => .corrupt message

theorem readJson_eq_readOutcome (files : FileSystem) :
    readJson (α := α) cwd path files = readOutcome none (fileImage (files (locate cwd path))) := by
  unfold readJson fileImage
  cases files (locate cwd path) with
  | none => rfl
  | some bytes =>
      simp only [Option.map_some]
      cases JsonDocument.fromSlice (α := α) bytes <;> rfl

/-- A crash is one of the faults of the disk: it leaves the record, or nothing that reads, or the new
one. -/
theorem crash_is_fault (hvalue : ReadsBack value) (files : FileSystem) :
    ∃ fault, fileImage (crashed (putJson cwd paths path value chunks) count files
        (locate cwd path)) =
      (writtenFile value fault).or (fileImage (files (locate cwd path))) := by
  by_cases hcount : count ≤ (beforeWrite cwd paths path).length
  · rw [crashed_putJson_of_le cwd paths chunks count hcount]
    exact ⟨some (.refused ""), rfl⟩
  · rw [crashed_putJson_of_lt cwd paths chunks count (not_le.mp hcount)]
    by_cases hwhole : writtenBytes cwd paths chunks count path = JsonDocument.toVecPretty value
    · refine ⟨none, ?_⟩
      simp [fileImage, hwhole, hvalue.whole, writtenFile]
    · obtain ⟨message, hmessage⟩ := hvalue.cut _ (chunks.isPart _) hwhole
      refine ⟨some (.torn message), ?_⟩
      simp [fileImage, writtenBytes, hmessage, writtenFile, Fault.message]

end Records

section Snapshots

variable [JsonDocument GlobalMemorySnapshot] (cwd : Location) (paths : StoragePaths)

/-- After a crash while a snapshot is written, the memory reads as the snapshot before or the new
one exactly when the crash came before the file was cut to nothing, or after the last byte. -/
theorem crash_keeps_snapshot_iff {before after : GlobalMemorySnapshot} {files : FileSystem}
    (hbefore : readSnapshot cwd paths files = .ok before) (hafter : ReadsBack after)
    (chunks : Chunks (JsonDocument.toVecPretty after)) (count : Nat) :
    (readSnapshot cwd paths (crashed (writeSnapshot cwd paths after chunks) count files) =
        .ok before ∨
      readSnapshot cwd paths (crashed (writeSnapshot cwd paths after chunks) count files) =
        .ok after) ↔
    count ≤ (beforeWrite cwd paths paths.globalMemoryFile).length ∨
      writtenBytes cwd paths chunks count paths.globalMemoryFile =
        JsonDocument.toVecPretty after := by
  unfold writeSnapshot
  by_cases hcount : count ≤ (beforeWrite cwd paths paths.globalMemoryFile).length
  · refine iff_of_true (.inl ?_) (.inl hcount)
    rw [← hbefore]
    unfold readSnapshot readJson
    rw [crashed_putJson_of_le cwd paths chunks count hcount files]
  · obtain ⟨hwhole, hpart⟩ := readJson_crashed cwd paths chunks count (not_le.mp hcount) hafter files
    by_cases hwritten : writtenBytes cwd paths chunks count paths.globalMemoryFile =
        JsonDocument.toVecPretty after
    · refine iff_of_true (.inr ?_) (.inr hwritten)
      rw [readSnapshot, hwhole hwritten]
      rfl
    · obtain ⟨message, hmessage⟩ := hpart hwritten
      refine iff_of_false ?_ (not_or_intro hcount hwritten)
      rw [readSnapshot, hmessage]
      exact not_or_intro (by simp [Except.map]) (by simp [Except.map])

end Snapshots

section SampleMemory

/-- A memory that holds no more than who the owner is. -/
def namedSnapshot (identity : String) : GlobalMemorySnapshot :=
  { GlobalMemorySnapshot.empty with identitySummary := some identity }

/-- Such a memory as `serde_json` writes it. -/
def snapshotText (identity : Option String) : String :=
  "\x7b" ++ ("\n  \"identity_summary\": " ++ (identity.elim "null" fun name => "\"" ++ name ++ "\"") ++
    ",\n  \"active_state_summary\": null,\n  \"active_thread_ids\": [],\n  \"recent_topics\": []" ++
    ",\n  \"recent_keywords\": [],\n  \"facts\": [],\n  \"topic_index\": [],\n  \"relationships\": []" ++
    ",\n  \"default_stranger_boundary\": \x7b\n    \"shared_topics\": [],\n    \"forbidden_topics\": []" ++
    ",\n    \"share_active_state\": false,\n    \"share_commitments\": false\n  \x7d\n\x7d")

local instance sampleDocuments : JsonDocument GlobalMemorySnapshot where
  toVecPretty snapshot := Bytes.ofText (snapshotText snapshot.identitySummary)
  fromSlice bytes :=
    if bytes = Bytes.ofText (snapshotText (some "Ada")) then .ok (namedSnapshot "Ada")
    else .error "EOF while parsing a value"

theorem readsBack_namedSnapshot : ReadsBack (namedSnapshot "Ada") :=
  ⟨if_pos rfl, fun _ _ hcut => ⟨_, if_neg hcut⟩⟩

/-- The first memory is written, and the crash comes when the file has been cut to nothing. -/
theorem crash_keeps_first_snapshot :
    (readSnapshot [] ⟨".liz"⟩
          (crashed (writeSnapshot [] ⟨".liz"⟩ (namedSnapshot "Ada") (.single _)) 7 fun _ => none) =
        .ok .empty ∨
      readSnapshot [] ⟨".liz"⟩
          (crashed (writeSnapshot [] ⟨".liz"⟩ (namedSnapshot "Ada") (.single _)) 7 fun _ => none) =
        .ok (namedSnapshot "Ada")) ↔
    7 ≤ (beforeWrite [] ⟨".liz"⟩ (StoragePaths.globalMemoryFile ⟨".liz"⟩)).length ∨
      writtenBytes [] ⟨".liz"⟩ (.single (JsonDocument.toVecPretty (namedSnapshot "Ada"))) 7
        (StoragePaths.globalMemoryFile ⟨".liz"⟩) = JsonDocument.toVecPretty (namedSnapshot "Ada") := by
  have hbefore : readSnapshot [] ⟨".liz"⟩ (fun _ => none) = .ok .empty := by
    rw [readSnapshot, readJson_of_none [] rfl]
    rfl
  exact crash_keeps_snapshot_iff [] ⟨".liz"⟩ hbefore readsBack_namedSnapshot (.single _) 7

/-- The memory is lost when the crash comes right after the file has been cut to nothing. -/
theorem crash_loses_snapshot :
    let files := Function.update (fun _ => none)
      (locate [] (StoragePaths.globalMemoryFile ⟨".liz"⟩))
      (some (JsonDocument.toVecPretty (namedSnapshot "Ada")))
    readSnapshot [] ⟨".liz"⟩ files = .ok (namedSnapshot "Ada") ∧
      readSnapshot [] ⟨".liz"⟩
          (crashed (writeSnapshot [] ⟨".liz"⟩ .empty (.single _)) 7 files) =
        .error (.serde "EOF while parsing a value") := by
  intro files
  have hnothing : [] ≠ Bytes.ofText (snapshotText (some "Ada")) := by
    rw [Bytes.ofText, snapshotText, String.toList_append, List.flatMap_append]
    intro h
    exact absurd (List.append_eq_nil_iff.mp h.symm).1 (by decide)
  have hempty : JsonDocument.fromSlice (α := GlobalMemorySnapshot) [] =
      .error "EOF while parsing a value" := if_neg hnothing
  have hcount : (beforeWrite [] ⟨".liz"⟩ (StoragePaths.globalMemoryFile ⟨".liz"⟩)).length < 7 := by
    decide
  have hcrash := crashed_putJson_of_lt [] ⟨".liz"⟩
    (.single (JsonDocument.toVecPretty GlobalMemorySnapshot.empty)) 7 hcount files
  constructor
  · rw [readSnapshot, readJson_of_ok [] (Function.update_self ..) (if_pos rfl)]
    rfl
  · rw [readSnapshot, writeSnapshot, readJson_of_error [] hcrash hempty]
    rfl

end SampleMemory

/-- An object is not blank, and neither is a part of it. -/
theorem not_isBlank_of_object {text : String} (h : text.toList.head? = some '\x7b') :
    Text.isBlank text = false := Text.isBlank_of_head? (by decide) h

section TurnLogs

variable [JsonLine TurnLogEntry]

/-- What `serde_json` promises about the text of an entry: it reads back, and it is an object on one
line. -/
structure PlainLine (entry : TurnLogEntry) : Prop where
  decodes : JsonLine.fromStr (JsonLine.toWriter entry) = .ok entry
  object : (JsonLine.toWriter entry).toList.head? = some '\x7b'
  noLineFeed : '\n' ∉ (JsonLine.toWriter entry).toList
  noCarriageReturn : '\r' ∉ (JsonLine.toWriter entry).toList

theorem readLogLine_entryLine {entry : TurnLogEntry} (h : PlainLine entry) :
    readLogLine (entryLine entry) = .ok (some entry) := by
  rw [readLogLine, entryLine, Bytes.chomp_append (Bytes.carriageReturn_not_mem_ofText h.noCarriageReturn),
    Bytes.toText_ofText]
  simp only [not_isBlank_of_object h.object, h.decodes, Bool.false_eq_true, if_false]

/-- The bytes of a log with these entries. -/
def logBytes (entries : List TurnLogEntry) : Bytes := entries.flatMap entryLine

/-- Whole entries read as they are, whatever stands behind them. -/
theorem readLogLines_logBytes_append {entries : List TurnLogEntry}
    (h : ∀ entry ∈ entries, PlainLine entry) (rest : Bytes) :
    readLogLines (Bytes.lines (logBytes entries ++ rest)) =
      (readLogLines (Bytes.lines rest)).map (entries ++ ·) := by
  induction entries with
  | nil =>
      change readLogLines (Bytes.lines rest) = _
      cases readLogLines (Bytes.lines rest) <;> rfl
  | cons entry others ih =>
      rw [List.forall_mem_cons] at h
      have hline : Bytes.lines (logBytes (entry :: others) ++ rest) =
          entryLine entry :: Bytes.lines (logBytes others ++ rest) := by
        simp only [logBytes, List.flatMap_cons, entryLine, List.append_assoc, List.singleton_append]
        exact Bytes.lines_append (Bytes.newline_not_mem_ofText h.1.noLineFeed) _
      rw [hline, readLogLines, readLogLine_entryLine h.1, ih h.2]
      cases readLogLines (Bytes.lines rest) <;> rfl

theorem readLogLines_logBytes {entries : List TurnLogEntry}
    (h : ∀ entry ∈ entries, PlainLine entry) :
    readLogLines (Bytes.lines (logBytes entries)) = .ok entries := by
  have hall := readLogLines_logBytes_append h []
  rw [List.append_nil] at hall
  rw [hall]
  simp [Bytes.lines, readLogLines, Except.map]

/-- A part of an entry reads as an entry too many, or not at all. -/
theorem readLogLines_piece {entry : TurnLogEntry} (h : PlainLine entry) {piece : Bytes}
    (hpiece : piece <+: entryLine entry) (hproper : piece ≠ entryLine entry) (hne : piece ≠ []) :
    readLogLines (Bytes.lines piece) ≠ .ok [] := by
  have htext : piece <+: Bytes.ofText (JsonLine.toWriter entry) :=
    (List.prefix_concat_iff.mp hpiece).resolve_left hproper
  have hnewline : Bytes.newline ∉ piece := fun hmem =>
    Bytes.newline_not_mem_ofText h.noLineFeed (htext.subset hmem)
  rw [Bytes.lines_eq_singleton hnewline hne, readLogLines, readLogLine,
    Bytes.chomp_eq_self hnewline]
  cases hread : Bytes.toText piece with
  | none => simp [bind, Except.bind]
  | some text =>
      have hobject : text.toList.head? = some '\x7b' := by
        obtain ⟨rest, hrest⟩ := Bytes.prefix_of_toText htext hread
        have hfull : text.toList ≠ [] := fun hnil => hne (by
          rw [← Bytes.ofText_of_toText hread, Bytes.ofText, hnil]
          rfl)
        rw [← List.head?_append_of_ne_nil _ hfull, hrest, h.object]
      simp only [not_isBlank_of_object hobject, Bool.false_eq_true, if_false]
      cases JsonLine.fromStr (α := TurnLogEntry) text <;>
        simp [readLogLines, bind, Except.bind, pure, Except.pure]

variable (cwd : Location) (paths : StoragePaths)

theorem readEntries_eq (thread : ThreadId) (files : FileSystem) :
    readEntries cwd paths thread files =
      readLogLines (Bytes.lines ((files (locate cwd (paths.turnLogFile thread))).getD [])) := by
  unfold readEntries
  cases files (locate cwd (paths.turnLogFile thread)) <;> rfl

/-- What of an entry has reached the log when a crash lets through `count` steps of its append. -/
def LogAppend.reached (append : LogAppend) (count : Nat) : Bytes :=
  (append.chunks.pieces.take (count - 2)).flatten

theorem crashed_appendEntry (append : LogAppend) (count : Nat) (files : FileSystem) :
    let log := locate cwd (paths.turnLogFile append.entry.threadId)
    (crashed (appendEntry cwd paths append) count files log).getD [] =
      (files log).getD [] ++ append.reached count := by
  intro log
  have hparent : ∀ step ∈ ensureParent cwd (paths.turnLogFile append.entry.threadId),
      step.file ≠ some log := by
    simp [ensureParent, Step.file]
  by_cases hcount : count ≤ 1
  · have hnothing : append.reached count = [] := by
      simp [LogAppend.reached, show count - 2 = 0 by omega]
    rw [appendEntry, crashed_of_le hparent hcount, hnothing, List.append_nil]
  · rw [appendEntry, crashed_writeBehind _ hparent (not_le.mp hcount)]
    rfl

theorem run_appendEntry (append : LogAppend) (files : FileSystem) :
    let log := locate cwd (paths.turnLogFile append.entry.threadId)
    (run (appendEntry cwd paths append) files log).getD [] =
      (files log).getD [] ++ entryLine append.entry := by
  intro log
  have hall := crashed_appendEntry cwd paths append (appendEntry cwd paths append).length files
  have hreached : append.reached (appendEntry cwd paths append).length =
      entryLine append.entry := by
    rw [LogAppend.reached, List.take_of_length_le, append.chunks.whole]
    simp [appendEntry, ensureParent, writeBehind]
  rwa [crashed_of_length_le le_rfl, hreached] at hall

/-- Appends that all go through put their lines behind what the log holds. -/
theorem log_appendEntries {thread : ThreadId} {appends : List LogAppend}
    (h : ∀ append ∈ appends, append.entry.threadId = thread) (files : FileSystem) :
    (appendEntries cwd paths appends files (locate cwd (paths.turnLogFile thread))).getD [] =
      (files (locate cwd (paths.turnLogFile thread))).getD [] ++
        logBytes (appends.map LogAppend.entry) := by
  induction appends generalizing files with
  | nil => exact (List.append_nil _).symm
  | cons append others ih =>
      rw [List.forall_mem_cons] at h
      obtain ⟨rfl, hothers⟩ := h
      refine (ih hothers _).trans ?_
      rw [run_appendEntry, List.append_assoc]
      rfl

/-- A crash in the middle of an append leaves a part of the entry behind the lines of the others. -/
theorem log_crashed {thread : ThreadId} {files : FileSystem}
    (hnone : files (locate cwd (paths.turnLogFile thread)) = none)
    (appended : List LogAppend) (torn : LogAppend) (count : Nat)
    (hthread : ∀ append ∈ torn :: appended, append.entry.threadId = thread) :
    (crashed (appendEntry cwd paths torn) count (appendEntries cwd paths appended files)
        (locate cwd (paths.turnLogFile thread))).getD [] =
      logBytes (appended.map LogAppend.entry) ++ torn.reached count := by
  rw [List.forall_mem_cons] at hthread
  obtain ⟨rfl, hthread⟩ := hthread
  rw [crashed_appendEntry, log_appendEntries cwd paths hthread, hnone]
  rfl

/-- After a crash in the middle of an append, the log reads as the entries before, and as these with
whatever is appended later, exactly when nothing of the entry has reached the file. -/
theorem torn_append_iff {thread : ThreadId} {files : FileSystem}
    (hnone : files (locate cwd (paths.turnLogFile thread)) = none)
    (appended : List LogAppend) (torn : LogAppend) (count : Nat)
    (hthread : ∀ append ∈ torn :: appended, append.entry.threadId = thread)
    (hplain : ∀ append ∈ torn :: appended, PlainLine append.entry)
    (hproper : torn.reached count ≠ entryLine torn.entry) :
    let crash := crashed (appendEntry cwd paths torn) count
      (appendEntries cwd paths appended files)
    (readEntries cwd paths thread crash = .ok (appended.map LogAppend.entry) ∧
      ∀ later : List LogAppend,
        (∀ append ∈ later, append.entry.threadId = thread ∧ PlainLine append.entry) →
          readEntries cwd paths thread (appendEntries cwd paths later crash) =
            .ok ((appended ++ later).map LogAppend.entry)) ↔
    torn.reached count = [] := by
  intro crash
  have hcrash := log_crashed cwd paths hnone appended torn count hthread
  rw [List.forall_mem_cons] at hthread hplain
  have hentries : ∀ entry ∈ appended.map LogAppend.entry, PlainLine entry :=
    List.forall_mem_map.mpr hplain.2
  constructor
  · intro ⟨hread, _⟩
    by_contra hne
    rw [readEntries_eq, hcrash, readLogLines_logBytes_append hentries] at hread
    have hpiece := readLogLines_piece hplain.1 (torn.chunks.isPart _) hproper hne
    cases hrest : readLogLines (Bytes.lines (torn.reached count)) with
    | error error => simp [hrest, Except.map] at hread
    | ok rest =>
        obtain rfl : rest = [] := by simpa [hrest, Except.map] using hread
        exact hpiece hrest
  · intro hnothing
    rw [hnothing, List.append_nil] at hcrash
    have hlater : ∀ later : List LogAppend,
        (∀ append ∈ later, append.entry.threadId = thread ∧ PlainLine append.entry) →
        readEntries cwd paths thread (appendEntries cwd paths later crash) =
          .ok ((appended ++ later).map LogAppend.entry) := by
      intro later hlater
      rw [readEntries_eq, log_appendEntries cwd paths fun append ha => (hlater append ha).1,
        hcrash, logBytes, logBytes, ← List.flatMap_append, ← List.map_append]
      refine readLogLines_logBytes (List.forall_mem_map.mpr fun append ha => ?_)
      exact (List.mem_append.mp ha).elim (hplain.2 append) fun ha => (hlater append ha).2
    have hnow := hlater [] (by simp)
    rw [List.append_nil] at hnow
    exact ⟨hnow, hlater⟩

end TurnLogs

section SampleLog

/-- Two entries of a thread. -/
def startedEntry : TurnLogEntry :=
  { threadId := "t", sequence := 1, turnId := none, recordedAt := "0", event := "turn_started",
    summary := "Go", artifactIds := [] }

def completedEntry : TurnLogEntry := { startedEntry with sequence := 2, event := "turn_completed" }

/-- The fields of an entry without a turn and without artifacts, as `serde_json` writes them. -/
def fieldsText (entry : TurnLogEntry) : String :=
  "\"thread_id\":\"" ++ entry.threadId ++ "\",\"sequence\":" ++ toString entry.sequence ++
    ",\"turn_id\":null,\"recorded_at\":\"" ++ entry.recordedAt ++ "\",\"event\":\"" ++ entry.event ++
    "\",\"summary\":\"" ++ entry.summary ++ "\",\"artifact_ids\":[]"

def lineText (entry : TurnLogEntry) : String := "\x7b" ++ fieldsText entry ++ "\x7d"

local instance sampleLines : JsonLine TurnLogEntry where
  toWriter := lineText
  fromStr text :=
    if text = lineText startedEntry then .ok startedEntry
    else if text = lineText completedEntry then .ok completedEntry
    else .error "EOF while parsing an object"

/-- An append whose line is written in two pieces, the opening brace first. -/
def bracedAppend (entry : TurnLogEntry) : LogAppend := ⟨entry, .cutAt 1 _⟩

theorem plainLine_startedEntry : PlainLine startedEntry := by
  have hline : (lineText startedEntry).toList.head? = some '\x7b' ∧
      '\n' ∉ (lineText startedEntry).toList ∧ '\r' ∉ (lineText startedEntry).toList := by
    decide +kernel
  exact ⟨if_pos rfl, hline.1, hline.2.1, hline.2.2⟩

theorem toList_lineText (entry : TurnLogEntry) :
    (lineText entry).toList = '\x7b' :: ((fieldsText entry).toList ++ ['\x7d']) := by
  rw [lineText, String.toList_append, String.toList_append]
  rfl

theorem brace_ne_lineText (entry : TurnLogEntry) : "\x7b" ≠ lineText entry := by
  rw [Ne, ← String.toList_inj, toList_lineText]
  simp

/-- The brace is what the first piece leaves in the log. -/
theorem reached_bracedAppend (entry : TurnLogEntry) : (bracedAppend entry).reached 3 = [123] := by
  have hbrace : String.utf8EncodeChar '\x7b' = [123] := by decide
  have hline : entryLine entry = (lineText entry).toList.flatMap String.utf8EncodeChar ++
      [Bytes.newline] := rfl
  change [(entryLine entry).take 1].flatten = [123]
  rw [hline, toList_lineText, List.flatMap_cons, hbrace, List.singleton_append, List.cons_append,
    List.take_succ_cons, List.take_zero]
  rfl

/-- The crash leaves the opening brace of the entry behind. -/
theorem torn_append_after_brace :
    let crash := crashed (appendEntry [] ⟨".liz"⟩ (bracedAppend startedEntry)) 3 fun _ => none
    (readEntries [] ⟨".liz"⟩ "t" crash = .ok [] ∧
      ∀ later : List LogAppend,
        (∀ append ∈ later, append.entry.threadId = "t" ∧ PlainLine append.entry) →
          readEntries [] ⟨".liz"⟩ "t" (appendEntries [] ⟨".liz"⟩ later crash) =
            .ok (later.map LogAppend.entry)) ↔
    (bracedAppend startedEntry).reached 3 = [] := by
  have hproper : (bracedAppend startedEntry).reached 3 ≠ entryLine startedEntry := by
    intro h
    rw [reached_bracedAppend] at h
    have hbreak : Bytes.newline ∈ [(123 : UInt8)] := h ▸ List.mem_concat_self
    exact absurd hbreak (by decide)
  exact torn_append_iff [] ⟨".liz"⟩ rfl [] (bracedAppend startedEntry) 3
    (List.forall_mem_singleton.mpr rfl) (List.forall_mem_singleton.mpr plainLine_startedEntry)
    hproper

/-- An entry that has been appended in full no longer reads once the next one has been cut off. -/
theorem torn_entry_hides_log :
    readEntries [] ⟨".liz"⟩ "t"
        (crashed (appendEntry [] ⟨".liz"⟩ (bracedAppend completedEntry)) 3
          (appendEntries [] ⟨".liz"⟩ [bracedAppend startedEntry] fun _ => none)) =
      .error (.serde "EOF while parsing an object") := by
  have hthread : ∀ append ∈ [bracedAppend completedEntry, bracedAppend startedEntry],
      append.entry.threadId = "t" := by
    simp [bracedAppend, completedEntry, startedEntry]
  have htext : Bytes.toText [123] = some "\x7b" := Bytes.toText_ofText "\x7b"
  have hbrace : readLogLines (Bytes.lines [123]) =
      .error (.serde "EOF while parsing an object") := by
    have hparse : JsonLine.fromStr (α := TurnLogEntry) "\x7b" =
        .error "EOF while parsing an object" :=
      (if_neg (brace_ne_lineText _)).trans (if_neg (brace_ne_lineText _))
    rw [Bytes.lines_eq_singleton (by decide) (by decide), readLogLines, readLogLine,
      Bytes.chomp_eq_self (by decide), htext]
    simp only [@not_isBlank_of_object "\x7b" rfl, hparse]
    rfl
  have hplain : ∀ entry ∈ [bracedAppend startedEntry].map LogAppend.entry, PlainLine entry :=
    List.forall_mem_singleton.mpr plainLine_startedEntry
  rw [readEntries_eq, log_crashed [] ⟨".liz"⟩ rfl _ _ 3 hthread, reached_bracedAppend,
    readLogLines_logBytes_append hplain, hbrace]
  rfl

end SampleLog

end Fs

end Liz
