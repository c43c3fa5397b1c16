import Liz.Proof.ServerEffects
import Liz.Proof.ThreadRecords

/-!
# The checkpoint that a thread points to

The record of a thread names the latest checkpoint of the thread. Only `createCheckpoint` changes
that name: every other program that writes the record of a stored thread has read it before and
copies the name. So a thread that points to a checkpoint goes on pointing to it, or its record can
no longer be read, and the turns that were there are on their threads still.
-/

namespace Liz

open Program

/-! ### Files -/

/-- Threads are filed under their own identifiers. -/
def OwnFiles (stores : RuntimeStores) : Prop :=
  ∀ id thread, stores.threads.lookup id = some (.intact thread) → thread.id = id

/-- The thread is stored, and as long as its record can be read it names this checkpoint. -/
structure PointsTo (stores : RuntimeStores) (threadId : ThreadId) (checkpointId : CheckpointId) :
    Prop where
  stored : threadId ∈ stores.threads
  latest : ∀ thread, stores.threads.lookup threadId = some (.intact thread) →
    thread.latestCheckpointId = some checkpointId

/-- The files of the threads and the checkpoints are as they were. -/
structure SameFiles (s t : RuntimeStores) : Prop where
  threads : t.threads = s.threads
  checkpoints : t.checkpoints = s.checkpoints

/-- The checkpoints are as they were, and every thread points where it pointed. -/
structure KeepsPointers (s t : RuntimeStores) : Prop where
  checkpoints : t.checkpoints = s.checkpoints
  filed : OwnFiles s → OwnFiles t
  latest : OwnFiles s → ∀ threadId checkpointId, PointsTo s threadId checkpointId →
    PointsTo t threadId checkpointId

/-- Once it is written, the record names the checkpoint that the stored one names. -/
def Thread.Agrees (record : Thread) (stores : RuntimeStores) : Prop :=
  OwnFiles stores → ∀ checkpointId, PointsTo stores record.id checkpointId →
    record.latestCheckpointId = some checkpointId

section Files

variable {s t u : RuntimeStores} {record found : Thread} {threadId : ThreadId}

theorem SameFiles.refl (s : RuntimeStores) : SameFiles s s := ⟨rfl, rfl⟩

theorem SameFiles.trans ⦃s t u : RuntimeStores⦄ (h : SameFiles s t) (h' : SameFiles t u) :
    SameFiles s u :=
  ⟨h'.threads.trans h.threads, h'.checkpoints.trans h.checkpoints⟩

theorem SameFiles.ownFiles (h : SameFiles s t) : OwnFiles t ↔ OwnFiles s := by
  unfold OwnFiles
  rw [h.threads]

theorem SameFiles.pointsTo (h : SameFiles s t) {checkpointId : CheckpointId} :
    PointsTo t threadId checkpointId ↔ PointsTo s threadId checkpointId := by
  constructor
  · intro hpoints
    exact ⟨h.threads ▸ hpoints.stored, h.threads ▸ hpoints.latest⟩
  · intro hpoints
    exact ⟨h.threads ▸ hpoints.stored, h.threads ▸ hpoints.latest⟩

theorem SameFiles.keepsPointers (h : SameFiles s t) : KeepsPointers s t :=
  ⟨h.checkpoints, h.ownFiles.mpr, fun _ _ _ => h.pointsTo.mpr⟩

theorem SameFiles.agrees (h : SameFiles s t) (hrecord : record.Agrees s) : record.Agrees t :=
  fun hfiled checkpointId hpoints =>
    hrecord (h.ownFiles.mp hfiled) checkpointId (h.pointsTo.mp hpoints)

theorem KeepsPointers.refl (s : RuntimeStores) : KeepsPointers s s := (SameFiles.refl s).keepsPointers

theorem KeepsPointers.trans ⦃s t u : RuntimeStores⦄ (h : KeepsPointers s t)
    (h' : KeepsPointers t u) : KeepsPointers s u :=
  ⟨h'.checkpoints.trans h.checkpoints, fun hfiled => h'.filed (h.filed hfiled),
    fun hfiled threadId checkpointId hpoints =>
      h'.latest (h.filed hfiled) threadId checkpointId (h.latest hfiled threadId checkpointId hpoints)⟩

/-- The record of a stored thread that has been read and changed in other fields. -/
theorem Thread.agrees_of_found (hfound : s.threads.lookup threadId = some (.intact found))
    (hid : record.id = found.id) (hlatest : record.latestCheckpointId = found.latestCheckpointId) :
    record.Agrees s := by
  intro hfiled checkpointId hpoints
  rw [hid, hfiled threadId found hfound] at hpoints
  rw [hlatest]
  exact hpoints.latest found hfound

/-- The record of a thread that is not stored yet. -/
theorem Thread.agrees_of_new (hnew : record.id ∉ s.threads) : record.Agrees s :=
  fun _ _ hpoints => absurd hpoints.stored hnew

/-- A write under the record's own identifier keeps the files in order. -/
theorem ownFiles_withThread (hfiled : OwnFiles s) (fault : Option Fault) :
    OwnFiles (s.withThread record fault) := by
  have hinsert : ∀ file, (∀ thread, file = .intact thread → thread = record) →
      OwnFiles { s with threads := s.threads.insert record.id file } := by
    intro file hfile id thread hthread
    by_cases hid : id = record.id
    · subst hid
      rw [AList.lookup_insert, Option.some.injEq] at hthread
      rw [hfile thread hthread]
    · rw [AList.lookup_insert_ne hid] at hthread
      exact hfiled id thread hthread
  rcases fault with _ | message | message | message
  · exact hinsert _ fun thread h => (JsonFile.intact.inj h).symm
  · exact hfiled
  · exact hinsert _ fun thread h => absurd h (by simp)
  · exact hinsert _ fun thread h => absurd h (by simp)

/-- A write of a record is a write of its file, whole or broken, or none. -/
theorem lookup_withThread_ne (fault : Option Fault) (hid : threadId ≠ record.id) :
    (s.withThread record fault).threads.lookup threadId = s.threads.lookup threadId := by
  rcases fault with _ | message | message | message
  · exact AList.lookup_insert_ne hid
  · rfl
  · exact AList.lookup_insert_ne hid
  · exact AList.lookup_insert_ne hid

theorem mem_withThread (fault : Option Fault) (hstored : threadId ∈ s.threads) :
    threadId ∈ (s.withThread record fault).threads := by
  rcases fault with _ | message | message | message
  · exact (AList.mem_insert _).mpr (Or.inr hstored)
  · exact hstored
  · exact (AList.mem_insert _).mpr (Or.inr hstored)
  · exact (AList.mem_insert _).mpr (Or.inr hstored)

/-- What can be read after a write of the record is the record or what was there before. -/
theorem lookup_withThread_self {thread : Thread} (fault : Option Fault)
    (h : (s.withThread record fault).threads.lookup record.id = some (.intact thread)) :
    thread = record ∨ s.threads.lookup record.id = some (.intact thread) := by
  have hinsert : ∀ file, (s.threads.insert record.id file).lookup record.id =
      some (.intact thread) → file = .intact thread := by
    intro file hfile
    rw [AList.lookup_insert] at hfile
    exact Option.some.inj hfile
  rcases fault with _ | message | message | message
  · exact Or.inl (JsonFile.intact.inj (hinsert _ h)).symm
  · exact Or.inr h
  · exact absurd (hinsert _ h) (by simp)
  · exact absurd (hinsert _ h) (by simp)

theorem checkpoints_withThread (fault : Option Fault) :
    (s.withThread record fault).checkpoints = s.checkpoints := by
  rcases fault with _ | message | message | message <;> rfl

theorem withThread_keepsPointers (hrecord : record.Agrees s) (fault : Option Fault) :
    KeepsPointers s (s.withThread record fault) := by
  refine ⟨checkpoints_withThread fault, fun hfiled => ownFiles_withThread hfiled fault, ?_⟩
  intro hfiled threadId checkpointId hpoints
  refine ⟨mem_withThread fault hpoints.stored, fun thread hthread => ?_⟩
  by_cases hid : threadId = record.id
  · subst hid
    rcases lookup_withThread_self fault hthread with rfl | hbefore
    · exact hrecord hfiled checkpointId hpoints
    · exact hpoints.latest thread hbefore
  · rw [lookup_withThread_ne fault hid] at hthread
    exact hpoints.latest thread hthread

end Files

/-! ### Programs that leave the records alone -/

/-- The files of the threads and the checkpoints are as they were, for the runtime. -/
abbrev LeavesFiles (s t : TurnRuntime) : Prop := SameFiles s.stores t.stores

/-- Every thread points where it pointed, for the runtime. -/
abbrev LeavesPointers (s t : TurnRuntime) : Prop := KeepsPointers s.stores t.stores

theorem LeavesFiles.refl (s : TurnRuntime) : LeavesFiles s s := SameFiles.refl s.stores

theorem LeavesFiles.trans ⦃s t u : TurnRuntime⦄ (h : LeavesFiles s t) (h' : LeavesFiles t u) :
    LeavesFiles s u := SameFiles.trans h h'

theorem LeavesPointers.trans ⦃s t u : TurnRuntime⦄ (h : LeavesPointers s t)
    (h' : LeavesPointers t u) : LeavesPointers s u := KeepsPointers.trans h h'

section Programs

variable {α : Type}

theorem stored_leavesFiles {p : StoreM α} (h : Guarantees SameFiles p) :
    Guarantees LeavesFiles (stored p) := by
  intro s
  rw [wp_stored]
  exact h s.stores

theorem drawn_leavesFiles (draw : IdGenerator → α × IdGenerator) :
    Guarantees LeavesFiles (drawn draw) := fun s => LeavesFiles.refl s

variable [Disk]

/-- An operation of the disk that touches neither the threads nor the checkpoints. -/
theorem operation_sameFiles {outcome : Option Fault → RuntimeStores → Except StorageError α}
    {effect : Option Fault → RuntimeStores → RuntimeStores}
    (h : ∀ fault stores, SameFiles stores (effect fault stores)) :
    Guarantees SameFiles (operation outcome effect) := by
  intro stores
  have htick := h (Disk.fault stores.operations) stores
  rw [wp_operation]
  exact ⟨fun _ _ => ⟨htick.threads, htick.checkpoints⟩,
    fun _ _ => ⟨htick.threads, htick.checkpoints⟩⟩

theorem readJson_sameFiles (file : RuntimeStores → Option (JsonFile α)) :
    Guarantees SameFiles (readJson file) := operation_sameFiles fun _ stores => .refl stores

theorem writeJson_sameFiles {value : α} {put : JsonFile α → RuntimeStores → RuntimeStores}
    (h : ∀ file stores, SameFiles stores (put file stores)) :
    Guarantees SameFiles (writeJson value put) := by
  apply operation_sameFiles
  intro fault stores
  cases writtenFile value fault with
  | none => exact .refl stores
  | some file => exact h file stores

theorem appendTurnLog_sameFiles (entry : TurnLogEntry) :
    Guarantees SameFiles (RuntimeStores.appendTurnLog entry) := by
  apply operation_sameFiles
  intro fault stores
  unfold RuntimeStores.appended
  cases appendedFile (stores.turnLog entry.threadId) entry fault with
  | none => exact .refl stores
  | some file => exact ⟨rfl, rfl⟩

theorem readTurnLog_sameFiles (threadId : ThreadId) :
    Guarantees SameFiles (RuntimeStores.readTurnLog threadId) :=
  operation_sameFiles fun _ stores => .refl stores

theorem readGlobalMemory_sameFiles : Guarantees SameFiles RuntimeStores.readGlobalMemory := by
  intro stores
  rw [RuntimeStores.readGlobalMemory, wp_map]
  exact readJson_sameFiles _ stores

theorem writeGlobalMemory_sameFiles (snapshot : GlobalMemorySnapshot) :
    Guarantees SameFiles (RuntimeStores.writeGlobalMemory snapshot) :=
  writeJson_sameFiles fun _ _ => ⟨rfl, rfl⟩

theorem putArtifact_sameFiles (artifact : StoredArtifact) :
    Guarantees SameFiles (RuntimeStores.putArtifact artifact) :=
  writeJson_sameFiles fun _ _ => ⟨rfl, rfl⟩

theorem readThread_leavesFiles (threadId : ThreadId) :
    Guarantees LeavesFiles (readThread threadId) := stored_leavesFiles (readJson_sameFiles _)

theorem requireThread_leavesFiles (threadId : ThreadId) :
    Guarantees LeavesFiles (requireThread threadId) := by
  intro s
  rw [wp_requireThread]
  exact ⟨fun _ _ => ⟨rfl, rfl⟩, fun _ _ => ⟨rfl, rfl⟩⟩

theorem syncActiveThreadIds_leavesFiles (threadId : ThreadId) (shouldBePresent : Bool) :
    Guarantees LeavesFiles (syncActiveThreadIds threadId shouldBePresent) :=
  Guarantees.bind LeavesFiles.trans (stored_leavesFiles readGlobalMemory_sameFiles) fun _ =>
    stored_leavesFiles (writeGlobalMemory_sameFiles _)

theorem appendTransition_leavesFiles (threadId : ThreadId) (turnId : TurnId)
    (recordedAt : Timestamp) (event summary : String) :
    Guarantees LeavesFiles (appendTransition threadId turnId recordedAt event summary) := by
  have hsequence : Guarantees LeavesFiles (nextSequenceFor threadId) := by
    intro s
    unfold nextSequenceFor recoverSequence
    rw [wp_bind, wp_map]
    exact wp_mono (stored_leavesFiles (readTurnLog_sameFiles threadId) s) (fun _ _ h => h)
      (fun _ _ h => h)
  exact Guarantees.bind LeavesFiles.trans hsequence fun _ =>
    stored_leavesFiles (appendTurnLog_sameFiles _)

theorem assembleContextForInteraction_leavesFiles [Unicode] (threadId : ThreadId) (input : String)
    (participant : Option ParticipantRef) (interactionContext : Option InteractionContext) :
    Guarantees LeavesFiles
      (assembleContextForInteraction threadId input participant interactionContext) := by
  apply Guarantees.bind LeavesFiles.trans (requireThread_leavesFiles threadId)
  intro thread
  apply Guarantees.bind LeavesFiles.trans (stored_leavesFiles readGlobalMemory_sameFiles)
  intro snapshot
  apply Guarantees.bind LeavesFiles.trans (stored_leavesFiles (readTurnLog_sameFiles threadId))
  intro entries
  exact Guarantees.pure LeavesFiles.refl _

variable [Clock]

theorem storeArtifacts_leavesFiles
    (reference : ArtifactId → ArtifactKind → String → String → ArtifactRef)
    (artifacts : List (ArtifactKind × String × String)) :
    Guarantees LeavesFiles (storeArtifacts reference artifacts) := by
  induction artifacts with
  | nil => exact Guarantees.pure LeavesFiles.refl []
  | cons artifact rest ih =>
      obtain ⟨kind, artifactSummary, body⟩ := artifact
      apply Guarantees.bind LeavesFiles.trans (drawn_leavesFiles _)
      intro artifactId
      apply Guarantees.bind LeavesFiles.trans (Guarantees.get LeavesFiles.refl)
      intro runtime
      apply Guarantees.bind LeavesFiles.trans (stored_leavesFiles (putArtifact_sameFiles _))
      intro _
      exact Guarantees.bind LeavesFiles.trans ih fun _ => Guarantees.pure LeavesFiles.refl _

theorem recordToolExecution_leavesFiles (threadId : ThreadId) (turnId : Option TurnId)
    (nodeId : Option NodeId) (workspaceMountId : Option WorkspaceMountId)
    (toolName summary : String) (artifacts : List (ArtifactKind × String × String)) :
    Guarantees LeavesFiles (recordToolExecution threadId turnId nodeId workspaceMountId toolName
      summary artifacts) := by
  have hturn : Guarantees LeavesFiles (executionTurn turnId) := by
    cases turnId with
    | none => exact drawn_leavesFiles _
    | some turnId => exact Guarantees.pure LeavesFiles.refl turnId
  apply Guarantees.bind LeavesFiles.trans hturn
  intro executionTurnId
  apply Guarantees.bind LeavesFiles.trans (drawn_leavesFiles _)
  intro createdAt
  apply Guarantees.bind LeavesFiles.trans (storeArtifacts_leavesFiles _ _)
  intro references
  apply Guarantees.bind LeavesFiles.trans (Guarantees.bind LeavesFiles.trans
    (stored_leavesFiles (readTurnLog_sameFiles threadId)) fun _ =>
      Guarantees.pure LeavesFiles.refl _)
  intro sequence
  apply Guarantees.bind LeavesFiles.trans (stored_leavesFiles (appendTurnLog_sameFiles _))
  intro _
  exact Guarantees.pure LeavesFiles.refl _

/-! ### Programs that write the record of a thread -/

variable {s t : TurnRuntime}

omit [Clock] in
/-- A record that agrees with the stored one is written, after programs that left the records
alone. -/
theorem putThread_leavesPointers {record : Thread} (hst : LeavesFiles s t)
    (h : record.Agrees s.stores) :
    wp (stored (RuntimeStores.putThread record)) (fun _ u => LeavesPointers s u)
      (fun _ u => LeavesPointers s u) t := by
  have hwritten : ∀ fault, KeepsPointers s.stores (t.stores.withThread record fault).tick := by
    intro fault
    apply KeepsPointers.trans hst.keepsPointers
    apply KeepsPointers.trans (withThread_keepsPointers (SameFiles.agrees hst h) fault)
    exact SameFiles.keepsPointers ⟨rfl, rfl⟩
  rw [wp_stored, wp_putThread]
  exact ⟨fun _ => hwritten none, fun fault _ => hwritten (some fault)⟩

omit [Clock] in
/-- A record is stored behind the log entry of its turn. -/
theorem logged_leavesPointers {record : Thread} {turn : Turn} {recordedAt : Timestamp}
    {event summary : String} (hst : LeavesFiles s t) (h : record.Agrees s.stores) :
    wp (do
        appendTransition record.id turn.id recordedAt event summary
        stored (RuntimeStores.putThread record)
        pure turn)
      (fun _ u => LeavesPointers s u) (fun _ u => LeavesPointers s u) t := by
  rw [wp_bind]
  refine wp_mono (appendTransition_leavesFiles _ _ _ _ _ t) (fun _ u hu => ?_) (fun _ u hu => ?_)
  · rw [wp_bind]
    exact wp_mono (putThread_leavesPointers (hst.trans hu) h) (fun _ _ h => h) (fun _ _ h => h)
  · exact SameFiles.keepsPointers (hst.trans hu)

/-- The end of a turn copies the name of the checkpoint into the record. -/
theorem closeTurn_leavesPointers {thread : Thread} {threadId : ThreadId} {turnId : TurnId}
    {turn : Turn} {event : String} {finish : Timestamp → Turn → Turn}
    {project : Timestamp → Turn → Thread → Thread}
    (hproject : ∀ endedAt turn thread, (project endedAt turn thread).id = thread.id ∧
      (project endedAt turn thread).latestCheckpointId = thread.latestCheckpointId)
    (hthread : foundThread s.stores threadId = .ok thread) :
    wp (closeTurn thread turnId turn event finish project) (fun _ t => LeavesPointers s t)
      (fun _ t => LeavesPointers s t) { s with stores := s.stores.tick } := by
  have hagrees : ∀ endedAt turn, (project endedAt turn thread).Agrees s.stores := by
    intro endedAt turn
    obtain ⟨hid, hlatest⟩ := hproject endedAt turn thread
    exact Thread.agrees_of_found (lookup_of_foundThread hthread) hid hlatest
  unfold closeTurn
  rw [wp_bind, wp_modifyTurns, wp_bind, wp_drawn]
  dsimp only
  exact logged_leavesPointers ⟨rfl, rfl⟩ (hagrees _ _)

omit [Clock] in
/-- A transition that looks its thread and its turn up first. -/
theorem lookups_leavesPointers {threadId : ThreadId} {turnId : TurnId}
    {next : Thread → Turn → TurnM Turn}
    (hnext : ∀ s thread turn, foundThread s.stores threadId = .ok thread →
      wp (next thread turn) (fun _ t => LeavesPointers s t) (fun _ t => LeavesPointers s t)
        { s with stores := s.stores.tick }) :
    Guarantees LeavesPointers (do
      let thread ← requireThread threadId
      let turn ← requireTurn turnId
      next thread turn) := by
  intro s
  have htick : LeavesPointers s { s with stores := s.stores.tick } :=
    SameFiles.keepsPointers ⟨rfl, rfl⟩
  rw [wp_lookups]
  exact ⟨fun _ _ => htick, fun thread hthread => ⟨fun _ => htick, fun turn _ =>
    hnext s thread turn hthread⟩⟩

theorem completeTurn_leavesPointers (threadId : ThreadId) (turnId : TurnId)
    (finalMessage : String) :
    Guarantees LeavesPointers (completeTurn threadId turnId finalMessage) :=
  lookups_leavesPointers fun _ _ _ => closeTurn_leavesPointers fun _ _ _ => ⟨rfl, rfl⟩

theorem failTurn_leavesPointers (threadId : ThreadId) (turnId : TurnId) (message : String) :
    Guarantees LeavesPointers (failTurn threadId turnId message) :=
  lookups_leavesPointers fun _ _ _ => closeTurn_leavesPointers fun _ _ _ => ⟨rfl, rfl⟩

theorem cancelTurn_leavesPointers (request : TurnCancelRequest) :
    Guarantees LeavesPointers (cancelTurn request) := by
  apply lookups_leavesPointers
  intro s thread turn hthread
  by_cases hmismatch : turn.threadId ≠ request.threadId
  · rw [if_pos hmismatch, wp_bind, wp_throw]
    exact SameFiles.keepsPointers ⟨rfl, rfl⟩
  · rw [if_neg hmismatch]
    exact closeTurn_leavesPointers (fun _ _ _ => ⟨rfl, rfl⟩) hthread

/-- So do the two marks. -/
theorem markTurn_leavesPointers {threadId : ThreadId} {turnId : TurnId} {event summary : String}
    {mark : Turn → Turn} {project : Timestamp → Turn → Thread → Thread}
    (hproject : ∀ recordedAt turn thread, (project recordedAt turn thread).id = thread.id ∧
      (project recordedAt turn thread).latestCheckpointId = thread.latestCheckpointId) :
    Guarantees LeavesPointers (markTurn threadId turnId event summary mark project) := by
  intro s
  have htick : LeavesPointers s { s with stores := s.stores.tick } :=
    SameFiles.keepsPointers ⟨rfl, rfl⟩
  unfold markTurn
  rw [wp_bind, wp_requireThread]
  refine ⟨fun thread hthread => ?_, fun _ _ => htick⟩
  have hagrees : ∀ recordedAt turn, (project recordedAt turn thread).Agrees s.stores := by
    intro recordedAt turn
    obtain ⟨hid, hlatest⟩ := hproject recordedAt turn thread
    exact Thread.agrees_of_found (lookup_of_foundThread hthread) hid hlatest
  rw [wp_bind, wp_drawn, wp_bind, wp_requireTurn]
  refine ⟨fun turn _ => ?_, fun _ => htick⟩
  rw [wp_bind, wp_modifyTurns]
  dsimp only
  exact logged_leavesPointers ⟨rfl, rfl⟩ (hagrees _ _)

omit [Clock] in
/-- Storing a record and listing its thread as active. -/
theorem storeThread_leavesPointers {record : Thread} (hst : LeavesFiles s t)
    (h : record.Agrees s.stores) :
    wp (do
        stored (RuntimeStores.putThread record)
        syncActiveThreadIds record.id true
        pure record)
      (fun _ u => LeavesPointers s u) (fun _ u => LeavesPointers s u) t := by
  rw [wp_bind]
  refine wp_mono (putThread_leavesPointers hst h) (fun _ u hu => ?_) (fun _ _ hu => hu)
  rw [wp_bind]
  exact wp_mono (syncActiveThreadIds_leavesFiles _ _ u)
    (fun _ _ hv => KeepsPointers.trans hu hv.keepsPointers)
    (fun _ _ hv => KeepsPointers.trans hu hv.keepsPointers)

omit [Clock] in
theorem resumeThread_leavesPointers (request : ThreadResumeRequest) :
    Guarantees LeavesPointers (resumeThread request) := by
  intro s
  unfold resumeThread
  rw [wp_bind, wp_requireThread]
  refine ⟨fun found hfound => ?_, fun _ _ => SameFiles.keepsPointers ⟨rfl, rfl⟩⟩
  exact storeThread_leavesPointers ⟨rfl, rfl⟩
    (Thread.agrees_of_found (lookup_of_foundThread hfound) rfl rfl)

/-- A thread that is started under an identifier that names no stored thread. -/
theorem startThread_leavesPointers (request : ThreadStartRequest)
    (hnew : s.nextThread ∉ s.stores.threads) :
    wp (startThread request) (fun _ t => LeavesPointers s t) (fun _ t => LeavesPointers s t) s := by
  unfold startThread
  rw [wp_bind, wp_drawn]
  dsimp only
  rw [wp_bind, wp_drawn]
  exact storeThread_leavesPointers ⟨rfl, rfl⟩ (Thread.agrees_of_new hnew)

theorem forkThread_leavesPointers (request : ThreadForkRequest)
    (hnew : s.nextThread ∉ s.stores.threads) :
    wp (forkThread request) (fun _ t => LeavesPointers s t) (fun _ t => LeavesPointers s t) s := by
  unfold forkThread
  rw [wp_bind, wp_requireThread]
  refine ⟨fun parent _ => ?_, fun _ _ => SameFiles.keepsPointers ⟨rfl, rfl⟩⟩
  rw [wp_bind, wp_drawn]
  dsimp only
  rw [wp_bind, wp_drawn]
  exact storeThread_leavesPointers ⟨rfl, rfl⟩ (Thread.agrees_of_new hnew)

/-- A turn is started on a thread whose record has been read. -/
theorem startTurn_leavesPointers {thread : Thread} (hst : LeavesFiles s t)
    (hagrees : ∀ turnId now goal, (thread.started turnId now goal).Agrees s.stores)
    (request : TurnStartRequest) :
    wp (startTurn thread request) (fun _ u => LeavesPointers s u) (fun _ u => LeavesPointers s u)
      t := by
  rw [wp_startTurn]
  refine ⟨fun _ => hst.keepsPointers, fun _ turn _ => ?_⟩
  rw [wp_bind]
  refine wp_mono (appendTransition_leavesFiles _ _ _ _ _ _) (fun _ u hu => ?_) (fun _ u hu => ?_)
  · have hsame : LeavesFiles s u := LeavesFiles.trans hst ⟨hu.threads, hu.checkpoints⟩
    unfold updateThreadAfterTurn
    rw [wp_bind, wp_bind]
    refine wp_mono (putThread_leavesPointers hsame (hagrees _ _ _)) (fun _ v hv => ?_)
      (fun _ _ h => h)
    exact wp_mono (syncActiveThreadIds_leavesFiles _ _ v)
      (fun _ _ hw => KeepsPointers.trans hv hw.keepsPointers)
      (fun _ _ hw => KeepsPointers.trans hv hw.keepsPointers)
  · exact SameFiles.keepsPointers (LeavesFiles.trans hst ⟨hu.threads, hu.checkpoints⟩)

end Programs

end Liz
