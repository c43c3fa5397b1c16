import Liz.Proof.MemoryRuns
import Liz.Runtime.MemorySearch

/-!
# Whose records the stores hold

Every record carries the thread it belongs to: a log entry stands in the log of its thread, and the
artifacts it names have been stored for that thread. Turns and tool executions add records and take
none away, and none of them touches the facts and the topics.
-/

namespace Liz

open Program

/-! ### Records of a thread -/

namespace RuntimeStores

variable (stores : RuntimeStores) (threadId : ThreadId)

def HoldsThread : Prop := ∃ thread, stores.threads.lookup threadId = some (.intact thread)

/-- The log of the thread tells of the turn. -/
def HasTurn (turnId : TurnId) : Prop :=
  ∃ entry ∈ (stores.turnLog threadId).entries, entry.turnId = some turnId

def HasArtifact (artifactId : ArtifactId) : Prop :=
  ∃ artifact, stores.artifacts.lookup artifactId = some (.intact artifact) ∧
    artifact.reference.threadId = threadId

/-- Whatever these files hold of a thread, the others hold too. -/
structure Within (others : RuntimeStores) : Prop where
  threads : ∀ threadId ∈ stores.threads, threadId ∈ others.threads
  turns : ∀ threadId turnId, stores.HasTurn threadId turnId → others.HasTurn threadId turnId
  artifacts : ∀ threadId artifactId, stores.HasArtifact threadId artifactId →
    others.HasArtifact threadId artifactId

end RuntimeStores

/-- Records stand where they belong, and the artifacts have identifiers that were given out. -/
structure RecordsFiled (runtime : TurnRuntime) : Prop where
  keyed : ∀ threadId thread, runtime.stores.threads.lookup threadId = some (.intact thread) →
    thread.id = threadId
  logged : ∀ threadId, ∀ entry ∈ (runtime.stores.turnLog threadId).entries,
    ∀ artifactId ∈ entry.artifactIds, runtime.stores.HasArtifact threadId artifactId
  issued : ∀ artifactId ∈ runtime.stores.artifacts, runtime.ids.Issued artifactId

theorem RecordsFiled.fresh : RecordsFiled .fresh where
  keyed _ _ h := absurd h (by rw [TurnRuntime.fresh]; exact Option.some_ne_none _ ∘ Eq.symm)
  logged _ _ h := absurd h List.not_mem_nil
  issued _ h := absurd h (AList.notMem_empty _)

/-! ### Programs that add records -/

/-- Records have come and none has gone, and the facts and the topics are as they were. -/
structure AddsRecords (s t : TurnRuntime) : Prop where
  threads : ∀ threadId ∈ s.stores.threads, threadId ∈ t.stores.threads
  entries : ∀ threadId, ∀ entry ∈ (s.stores.turnLog threadId).entries,
    entry ∈ (t.stores.turnLog threadId).entries
  artifacts : ∀ artifactId artifact, s.stores.artifacts.lookup artifactId = some (.intact artifact) →
    t.stores.artifacts.lookup artifactId = some (.intact artifact)
  memory : ∀ after, storedMemory t.stores = some after → ∃ before,
    storedMemory s.stores = some before ∧ after.facts = before.facts ∧
      after.topicIndex = before.topicIndex

/-- From records that are filed, such programs lead to records that are filed. -/
def Stows (s t : TurnRuntime) : Prop := RecordsFiled s → AddsRecords s t ∧ RecordsFiled t

namespace AddsRecords

theorem refl (s : TurnRuntime) : AddsRecords s s :=
  ⟨fun _ h => h, fun _ _ h => h, fun _ _ h => h, fun after h => ⟨after, h, rfl, rfl⟩⟩

theorem trans {s t u : TurnRuntime} (h : AddsRecords s t) (h' : AddsRecords t u) :
    AddsRecords s u := by
  refine ⟨fun id hid => h'.threads id (h.threads id hid),
    fun id entry hentry => h'.entries id entry (h.entries id entry hentry),
    fun id artifact hstored => h'.artifacts id artifact (h.artifacts id artifact hstored), ?_⟩
  intro after hafter
  obtain ⟨middle, hmiddle, hfacts, htopics⟩ := h'.memory after hafter
  obtain ⟨before, hbefore, hfacts', htopics'⟩ := h.memory middle hmiddle
  exact ⟨before, hbefore, hfacts.trans hfacts', htopics.trans htopics'⟩

theorem within {s t : TurnRuntime} (h : AddsRecords s t) : s.stores.Within t.stores := by
  constructor
  · exact h.threads
  · intro threadId turnId ⟨entry, hentry, hid⟩
    exact ⟨entry, h.entries threadId entry hentry, hid⟩
  · intro threadId artifactId ⟨artifact, hstored, hthread⟩
    exact ⟨artifact, h.artifacts artifactId artifact hstored, hthread⟩

end AddsRecords

namespace Stows

theorem refl (s : TurnRuntime) : Stows s s := fun h => ⟨.refl s, h⟩

theorem trans ⦃s t u : TurnRuntime⦄ (h : Stows s t) (h' : Stows t u) : Stows s u := by
  intro hfiled
  obtain ⟨hadds, hmiddle⟩ := h hfiled
  obtain ⟨hadds', hlast⟩ := h' hmiddle
  exact ⟨hadds.trans hadds', hlast⟩

/-- The four kinds of files are as they were. -/
theorem of_same {s t : TurnRuntime} (hthreads : t.stores.threads = s.stores.threads)
    (hlogs : t.stores.turnLogs = s.stores.turnLogs)
    (hartifacts : t.stores.artifacts = s.stores.artifacts)
    (hmemory : t.stores.globalMemory = s.stores.globalMemory)
    (hsequence : s.ids.sequence ≤ t.ids.sequence) : Stows s t := by
  have hlog : ∀ threadId, t.stores.turnLog threadId = s.stores.turnLog threadId := by
    intro threadId
    rw [RuntimeStores.turnLog, hlogs]
    rfl
  have hstored : storedMemory t.stores = storedMemory s.stores := by
    rw [storedMemory, hmemory]
    rfl
  intro hfiled
  constructor
  · constructor
    · rw [hthreads]
      exact fun _ h => h
    · intro threadId entry hentry
      rwa [hlog]
    · rw [hartifacts]
      exact fun _ _ h => h
    · rw [hstored]
      exact fun after h => ⟨after, h, rfl, rfl⟩
  · constructor
    · rw [hthreads]
      exact hfiled.keyed
    · intro threadId entry hentry artifactId hid
      rw [hlog] at hentry
      obtain ⟨artifact, hfound, hthread⟩ := hfiled.logged threadId entry hentry artifactId hid
      exact ⟨artifact, hartifacts ▸ hfound, hthread⟩
    · rw [hartifacts]
      exact fun id hid => (hfiled.issued id hid).mono hsequence

end Stows

section Steps

theorem get_files : Guarantees Stows (get : TurnM TurnRuntime) := .get Stows.refl

theorem modifyTurns_files (f : TurnManager → TurnManager) : Guarantees Stows (modifyTurns f) :=
  .modify fun _ => .of_same rfl rfl rfl rfl le_rfl

theorem orNotFound_files {α : Type} (code message : String) (found : Option α) :
    Guarantees Stows (orNotFound code message found) := by
  cases found with
  | none => exact .throw Stows.refl _
  | some value => exact .pure Stows.refl value

theorem drawn_files {α : Type} {draw : IdGenerator → α × IdGenerator}
    (hdraw : ∀ ids, ids.sequence ≤ (draw ids).2.sequence) : Guarantees Stows (drawn draw) := by
  intro runtime
  rw [wp_drawn]
  exact .of_same rfl rfl rfl rfl (hdraw _)

variable [Disk]

theorem requireThread_files (threadId : ThreadId) : Guarantees Stows (requireThread threadId) := by
  intro runtime
  rw [wp_requireThread]
  exact ⟨fun _ _ => .of_same rfl rfl rfl rfl le_rfl, fun _ _ => .of_same rfl rfl rfl rfl le_rfl⟩

omit [Disk] in
theorem requireTurn_files (turnId : TurnId) : Guarantees Stows (requireTurn turnId) :=
  .bind Stows.trans get_files fun _ => orNotFound_files _ _ _

/-- A thread record is written under its own identifier. -/
theorem putThread_files (thread : Thread) :
    Guarantees Stows (stored (RuntimeStores.putThread thread)) := by
  have hwritten : ∀ (runtime : TurnRuntime) (file : JsonFile Thread),
      (∀ record, file = .intact record → record.id = thread.id) →
      Stows runtime { runtime with stores := RuntimeStores.tick { runtime.stores with
        threads := runtime.stores.threads.insert thread.id file } } := by
    intro runtime file hfile hfiled
    refine ⟨⟨fun id hid => ?_, fun _ _ h => h, fun _ _ h => h, fun after h => ⟨after, h, rfl, rfl⟩⟩,
      ⟨fun id record hrecord => ?_, hfiled.logged, hfiled.issued⟩⟩
    · exact (AList.mem_insert _).mpr (.inr hid)
    · change (runtime.stores.threads.insert thread.id file).lookup id = _ at hrecord
      by_cases hid : id = thread.id
      · subst hid
        rw [AList.lookup_insert] at hrecord
        exact hfile record (Option.some.inj hrecord)
      · rw [AList.lookup_insert_ne hid] at hrecord
        exact hfiled.keyed id record hrecord
  intro runtime
  rw [wp_stored, wp_putThread]
  refine ⟨fun _ => hwritten runtime _ fun record h => ?_, fun fault _ => ?_⟩
  · rw [JsonFile.intact.inj h]
  · cases fault with
    | refused message => exact .of_same rfl rfl rfl rfl le_rfl
    | torn message => exact hwritten runtime _ fun _ h => by cases h
    | unterminated message => exact hwritten runtime _ fun _ h => by cases h

/-- A write of the memory that keeps the facts and the topics. -/
theorem writeGlobalMemory_files {runtime : TurnRuntime} {before after : GlobalMemorySnapshot}
    (hbefore : storedMemory runtime.stores = some before) (hfacts : after.facts = before.facts)
    (htopics : after.topicIndex = before.topicIndex) :
    wp (stored (RuntimeStores.writeGlobalMemory after)) (fun _ t => Stows runtime t)
      (fun _ t => Stows runtime t) runtime := by
  rw [wp_stored]
  refine wp_writeGlobalMemory ?_ (fun _ => .of_same rfl rfl rfl rfl le_rfl) ?_
  · intro hfiled
    refine ⟨⟨fun _ h => h, fun _ _ h => h, fun _ _ h => h, fun later hlater => ?_⟩,
      ⟨hfiled.keyed, hfiled.logged, hfiled.issued⟩⟩
    obtain rfl : after = later := Option.some.inj hlater
    exact ⟨before, hbefore, hfacts, htopics⟩
  · intro _ message hfiled
    refine ⟨⟨fun _ h => h, fun _ _ h => h, fun _ _ h => h, fun later hlater => ?_⟩,
      ⟨hfiled.keyed, hfiled.logged, hfiled.issued⟩⟩
    cases hlater

theorem syncActiveThreadIds_files (threadId : ThreadId) (shouldBePresent : Bool) :
    Guarantees Stows (syncActiveThreadIds threadId shouldBePresent) := by
  intro runtime
  unfold syncActiveThreadIds
  rw [wp_bind, wp_stored]
  refine wp_readGlobalMemory (fun snapshot hsnapshot => ?_) fun _ => .of_same rfl rfl rfl rfl le_rfl
  have htick : Stows runtime { runtime with stores := runtime.stores.tick } :=
    .of_same rfl rfl rfl rfl le_rfl
  have hstored : storedMemory (runtime.stores.tick) = some snapshot := hsnapshot
  refine wp_mono (writeGlobalMemory_files hstored rfl rfl) ?_ ?_
  · exact fun _ t ht => htick.trans ht
  · exact fun _ t ht => htick.trans ht

theorem updateThreadAfterTurn_files (thread : Thread) :
    Guarantees Stows (updateThreadAfterTurn thread) :=
  .bind Stows.trans (putThread_files thread) fun _ => syncActiveThreadIds_files _ _

omit [Disk] in
/-- What an append leaves of the log holds the entries that were there, and the new one at most. -/
theorem entries_appended (stores : RuntimeStores) (entry : TurnLogEntry) (fault : Option Fault)
    (threadId : ThreadId) :
    (∀ earlier ∈ (stores.turnLog threadId).entries,
      earlier ∈ ((stores.appended entry fault).turnLog threadId).entries) ∧
    ∀ later ∈ ((stores.appended entry fault).turnLog threadId).entries,
      later ∈ (stores.turnLog threadId).entries ∨ (threadId = entry.threadId ∧ later = entry) := by
  rw [turnLog_appended]
  by_cases hthread : threadId = entry.threadId
  · rw [if_pos hthread]
    have hgrown : ∀ tail, (∀ earlier ∈ (stores.turnLog threadId).entries,
        earlier ∈ ((stores.turnLog threadId).append entry tail).entries) ∧
        ∀ later ∈ ((stores.turnLog threadId).append entry tail).entries,
          later ∈ (stores.turnLog threadId).entries ∨ (threadId = entry.threadId ∧ later = entry) := by
      intro tail
      refine ⟨fun earlier h => List.mem_append_left _ h, fun later h => ?_⟩
      rcases List.mem_append.mp h with hold | hnew
      · exact .inl hold
      · exact .inr ⟨hthread, List.mem_singleton.mp hnew⟩
    have hsame : (∀ earlier ∈ (stores.turnLog threadId).entries,
        earlier ∈ (stores.turnLog threadId).entries) ∧
        ∀ later ∈ (stores.turnLog threadId).entries,
          later ∈ (stores.turnLog threadId).entries ∨ (threadId = entry.threadId ∧ later = entry) :=
      ⟨fun _ h => h, fun _ h => .inl h⟩
    cases fault with
    | none => exact hgrown .closed
    | some fault => cases fault with
        | refused message => exact hsame
        | torn message => exact hsame
        | unterminated message => exact hgrown .unterminated
  · rw [if_neg hthread]
    exact ⟨fun _ h => h, fun _ h => .inl h⟩

omit [Disk] in
theorem appended_frame (stores : RuntimeStores) (entry : TurnLogEntry) (fault : Option Fault) :
    (stores.appended entry fault).threads = stores.threads ∧
      (stores.appended entry fault).artifacts = stores.artifacts ∧
      (stores.appended entry fault).globalMemory = stores.globalMemory := by
  unfold RuntimeStores.appended
  split <;> exact ⟨rfl, rfl, rfl⟩

omit [Disk] in
/-- An entry goes into the log whose artifacts have been stored for its thread. -/
theorem appended_files {runtime : TurnRuntime} {entry : TurnLogEntry}
    (hartifacts : ∀ artifactId ∈ entry.artifactIds,
      runtime.stores.HasArtifact entry.threadId artifactId) (fault : Option Fault) {t : TurnRuntime}
    (hstores : t.stores = (runtime.stores.appended entry fault).tick)
    (hsequence : runtime.ids.sequence ≤ t.ids.sequence) : Stows runtime t := by
  obtain ⟨hthreads, hkept, hmemory⟩ := appended_frame runtime.stores entry fault
  replace hthreads : t.stores.threads = runtime.stores.threads := hstores ▸ hthreads
  replace hkept : t.stores.artifacts = runtime.stores.artifacts := hstores ▸ hkept
  replace hmemory : t.stores.globalMemory = runtime.stores.globalMemory := hstores ▸ hmemory
  have hlog : ∀ threadId, t.stores.turnLog threadId =
      (runtime.stores.appended entry fault).turnLog threadId := by
    intro threadId
    rw [hstores]
    rfl
  have hstored : storedMemory t.stores = storedMemory runtime.stores := by
    rw [storedMemory, hmemory]
    rfl
  intro hfiled
  refine ⟨⟨fun id hid => hthreads ▸ hid, fun id earlier h => ?_, fun id artifact h => hkept ▸ h,
    fun after h => ⟨after, hstored ▸ h, rfl, rfl⟩⟩, ⟨?_, fun id later h artifactId hid => ?_, ?_⟩⟩
  · rw [hlog]
    exact (entries_appended runtime.stores entry fault id).1 earlier h
  · rw [hthreads]
    exact hfiled.keyed
  · rw [hlog] at h
    have hhas : runtime.stores.HasArtifact id artifactId := by
      rcases (entries_appended runtime.stores entry fault id).2 later h with hold | ⟨rfl, rfl⟩
      · exact hfiled.logged id later hold artifactId hid
      · exact hartifacts artifactId hid
    obtain ⟨artifact, hfound, hthread⟩ := hhas
    exact ⟨artifact, hkept ▸ hfound, hthread⟩
  · rw [hkept]
    exact fun id hid => (hfiled.issued id hid).mono hsequence

theorem appendTransition_files (threadId : ThreadId) (turnId : TurnId) (recordedAt : Timestamp)
    (event summary : String) :
    Guarantees Stows (appendTransition threadId turnId recordedAt event summary) := by
  intro runtime
  rw [wp_appendTransition]
  have hlogged : ∀ (entry : TurnLogEntry) fault, entry.artifactIds = [] →
      Stows runtime (runtime.logged entry fault) := by
    intro entry fault hnone
    have hread : Stows runtime { runtime with stores := runtime.stores.tick } :=
      .of_same rfl rfl rfl rfl le_rfl
    refine hread.trans (appended_files ?_ fault rfl le_rfl)
    rw [hnone]
    exact fun _ h => absurd h List.not_mem_nil
  refine ⟨fun entries _ entry hentry => ⟨fun _ => hlogged entry _ ?_, fun fault _ =>
    hlogged entry _ ?_⟩, fun _ _ => .of_same rfl rfl rfl rfl le_rfl⟩
  · rw [hentry]
  · rw [hentry]

theorem putCheckpoint_files (checkpoint : Checkpoint) :
    Guarantees Stows (stored (RuntimeStores.putCheckpoint checkpoint)) := by
  intro runtime
  rw [wp_stored, RuntimeStores.putCheckpoint, writeJson, wp_effect]
  refine ⟨fun _ => .of_same rfl rfl rfl rfl le_rfl, fun fault _ => ?_⟩
  cases fault <;> exact .of_same rfl rfl rfl rfl le_rfl

/-! ### Threads and turns -/

/-- Storing a thread that was just made and listing it as active. -/
theorem storeThread_files (thread : Thread) : Guarantees Stows (do
    stored (RuntimeStores.putThread thread)
    syncActiveThreadIds thread.id true
    pure thread) := by
  apply Guarantees.bind Stows.trans (putThread_files thread)
  intro _
  apply Guarantees.bind Stows.trans (syncActiveThreadIds_files _ _)
  intro _
  exact Guarantees.pure Stows.refl _

theorem resumeThread_files (request : ThreadResumeRequest) :
    Guarantees Stows (resumeThread request) :=
  Guarantees.bind Stows.trans (requireThread_files _) fun _ => storeThread_files _

variable [Clock]

omit [Disk] in
theorem nowTimestamp_files : Guarantees Stows (drawn IdGenerator.nowTimestamp) :=
  drawn_files fun _ => le_rfl

omit [Disk] in
theorem nextValue_files (label : String) : Guarantees Stows (drawn (IdGenerator.nextValue label)) :=
  drawn_files fun _ => Nat.le_succ _

theorem startThread_files (request : ThreadStartRequest) :
    Guarantees Stows (startThread request) := by
  apply Guarantees.bind Stows.trans nowTimestamp_files
  intro now
  exact Guarantees.bind Stows.trans (nextValue_files "thread") fun _ => storeThread_files _

theorem forkThread_files (request : ThreadForkRequest) : Guarantees Stows (forkThread request) := by
  apply Guarantees.bind Stows.trans (requireThread_files _)
  intro parent
  apply Guarantees.bind Stows.trans nowTimestamp_files
  intro now
  exact Guarantees.bind Stows.trans (nextValue_files "thread") fun _ => storeThread_files _

theorem startTurn_files (thread : Thread) (request : TurnStartRequest) :
    Guarantees Stows (startTurn thread request) := by
  intro runtime
  rw [wp_startTurn]
  refine ⟨fun _ => .refl runtime, fun _ turn _ => ?_⟩
  have hdrawn : Stows runtime { runtime with ids := runtime.ids.nowTimestamp.2.nextTurnId.2 } :=
    .of_same rfl rfl rfl rfl (Nat.le_succ _)
  have hrest : Guarantees Stows (do
      appendTransition thread.id turn.id runtime.ids.nowTimestamp.1 "turn_started"
        (turn.summary.getD "")
      updateThreadAfterTurn
        (thread.started turn.id runtime.ids.nowTimestamp.1 (Text.trim request.input))
      modifyTurns (TurnManager.setTurn turn.id turn)
      pure turn) := by
    apply Guarantees.bind Stows.trans (appendTransition_files _ _ _ _ _)
    intro _
    apply Guarantees.bind Stows.trans (updateThreadAfterTurn_files _)
    intro _
    apply Guarantees.bind Stows.trans (modifyTurns_files _)
    intro _
    exact Guarantees.pure Stows.refl _
  exact wp_mono (hrest _) (fun _ _ h => hdrawn.trans h) (fun _ _ h => hdrawn.trans h)

theorem closeTurn_files (thread : Thread) (turnId : TurnId) (turn : Turn) (event : String)
    (finish : Timestamp → Turn → Turn) (project : Timestamp → Turn → Thread → Thread) :
    Guarantees Stows (closeTurn thread turnId turn event finish project) := by
  apply Guarantees.bind Stows.trans (modifyTurns_files _)
  intro _
  apply Guarantees.bind Stows.trans nowTimestamp_files
  intro endedAt
  apply Guarantees.bind Stows.trans (appendTransition_files _ _ _ _ _)
  intro _
  apply Guarantees.bind Stows.trans (putThread_files _)
  intro _
  exact Guarantees.pure Stows.refl _

theorem markTurn_files (threadId : ThreadId) (turnId : TurnId) (event summary : String)
    (mark : Turn → Turn) (project : Timestamp → Turn → Thread → Thread) :
    Guarantees Stows (markTurn threadId turnId event summary mark project) := by
  apply Guarantees.bind Stows.trans (requireThread_files threadId)
  intro thread
  apply Guarantees.bind Stows.trans nowTimestamp_files
  intro recordedAt
  apply Guarantees.bind Stows.trans (requireTurn_files turnId)
  intro turn
  apply Guarantees.bind Stows.trans (modifyTurns_files _)
  intro _
  apply Guarantees.bind Stows.trans (appendTransition_files _ _ _ _ _)
  intro _
  apply Guarantees.bind Stows.trans (putThread_files _)
  intro _
  exact Guarantees.pure Stows.refl _

theorem TurnOperation.run_files (operation : TurnOperation) : Guarantees Stows operation.run := by
  have hlookups : ∀ (threadId : ThreadId) (turnId : TurnId) (next : Thread → Turn → TurnM Turn),
      (∀ thread turn, Guarantees Stows (next thread turn)) → Guarantees Stows (do
        let thread ← requireThread threadId
        let turn ← requireTurn turnId
        next thread turn) := by
    intro threadId turnId next hnext
    apply Guarantees.bind Stows.trans (requireThread_files threadId)
    intro thread
    exact Guarantees.bind Stows.trans (requireTurn_files turnId) (hnext thread)
  have hclose : ∀ (threadId : ThreadId) (turnId : TurnId) (event : String)
      (finish : Timestamp → Turn → Turn) (project : Timestamp → Turn → Thread → Thread),
      Guarantees Stows (do
        let thread ← requireThread threadId
        let turn ← requireTurn turnId
        closeTurn thread turnId turn event finish project) := fun _ _ _ _ _ =>
    hlookups _ _ _ fun _ _ => closeTurn_files _ _ _ _ _ _
  cases operation with
  | startTurn thread request => exact startTurn_files thread request
  | cancelTurn request =>
      rw [TurnOperation.run, Liz.cancelTurn]
      apply hlookups
      intro thread turn
      by_cases hmismatch : turn.threadId ≠ request.threadId
      · rw [if_pos hmismatch]
        exact Guarantees.throw Stows.refl _
      · rw [if_neg hmismatch]
        apply closeTurn_files
  | markWaitingApproval threadId turnId reason =>
      rw [TurnOperation.run, Liz.markWaitingApproval]
      apply markTurn_files
  | markRunning threadId turnId =>
      rw [TurnOperation.run, Liz.markRunning]
      apply markTurn_files
  | completeTurn threadId turnId finalMessage =>
      rw [TurnOperation.run, Liz.completeTurn]
      apply hclose
  | failTurn threadId turnId message =>
      rw [TurnOperation.run, Liz.failTurn]
      apply hclose

theorem createCheckpoint_files (threadId : ThreadId) (turnId : TurnId) (scope : CheckpointScope)
    (reason : String) : Guarantees Stows (createCheckpoint threadId turnId scope reason) := by
  apply Guarantees.bind Stows.trans (nextValue_files "checkpoint")
  intro _
  apply Guarantees.bind Stows.trans nowTimestamp_files
  intro _
  apply Guarantees.bind Stows.trans (putCheckpoint_files _)
  intro _
  apply Guarantees.bind Stows.trans (requireThread_files _)
  intro _
  apply Guarantees.bind Stows.trans (putThread_files _)
  intro _
  exact Guarantees.pure Stows.refl _

/-! ### Tool executions -/

/-- An artifact is written under an identifier that was just drawn, and no other file is touched. -/
theorem putArtifact_files {runtime : TurnRuntime} {artifact : StoredArtifact} {label : String}
    (hid : artifact.reference.id = (runtime.ids.nextValue label).1) :
    wp (stored (RuntimeStores.putArtifact artifact))
      (fun _ t => Stows runtime t ∧ t.stores.HasArtifact artifact.reference.threadId
        artifact.reference.id)
      (fun _ t => Stows runtime t) { runtime with ids := (runtime.ids.nextValue label).2 } := by
  have hwritten : ∀ (file : JsonFile StoredArtifact), Stows runtime
      { runtime with
        ids := (runtime.ids.nextValue label).2
        stores := RuntimeStores.tick { runtime.stores with
          artifacts := runtime.stores.artifacts.insert artifact.reference.id file } } := by
    intro file hfiled
    have hnew : artifact.reference.id ∉ runtime.stores.artifacts := by
      intro hmem
      have hissued := hfiled.issued _ hmem
      rw [hid] at hissued
      exact not_issued_nextValue runtime.ids label hissued
    have hkept : ∀ artifactId found,
        runtime.stores.artifacts.lookup artifactId = some (.intact found) →
        (runtime.stores.artifacts.insert artifact.reference.id file).lookup artifactId =
          some (.intact found) := by
      intro artifactId found hfound
      have hne : artifactId ≠ artifact.reference.id := by
        intro heq
        exact hnew (heq ▸ AList.lookup_isSome.mp (by rw [hfound]; rfl))
      rw [AList.lookup_insert_ne hne]
      exact hfound
    refine ⟨⟨fun _ h => h, fun _ _ h => h, hkept, fun after h => ⟨after, h, rfl, rfl⟩⟩,
      ⟨hfiled.keyed, fun threadId entry hentry artifactId hmem => ?_, fun artifactId hmem => ?_⟩⟩
    · obtain ⟨found, hfound, hthread⟩ := hfiled.logged threadId entry hentry artifactId hmem
      exact ⟨found, hkept artifactId found hfound, hthread⟩
    · rcases (AList.mem_insert _).mp hmem with rfl | hold
      · rw [hid]
        exact issued_nextValue runtime.ids label
      · exact (hfiled.issued artifactId hold).mono (Nat.le_succ _)
  rw [wp_stored, RuntimeStores.putArtifact, writeJson, wp_effect]
  refine ⟨fun _ => ⟨hwritten _, artifact, AList.lookup_insert _, rfl⟩, fun fault _ => ?_⟩
  cases fault with
  | refused message => exact .of_same rfl rfl rfl rfl (Nat.le_succ _)
  | torn message => exact hwritten _
  | unterminated message => exact hwritten _

/-- The artifacts that are stored are of the thread their references name. -/
theorem storeArtifacts_files {threadId : ThreadId}
    {reference : ArtifactId → ArtifactKind → String → String → ArtifactRef}
    (hreference : ∀ artifactId kind summary locator,
      (reference artifactId kind summary locator).id = artifactId ∧
        (reference artifactId kind summary locator).threadId = threadId)
    (artifacts : List (ArtifactKind × String × String)) (runtime : TurnRuntime) :
    wp (storeArtifacts reference artifacts)
      (fun references t => Stows runtime t ∧ (RecordsFiled runtime →
        ∀ artifact ∈ references, t.stores.HasArtifact threadId artifact.id))
      (fun _ t => Stows runtime t) runtime := by
  induction artifacts generalizing runtime with
  | nil => exact ⟨.refl runtime, fun _ _ h => absurd h List.not_mem_nil⟩
  | cons artifact rest ih =>
      obtain ⟨kind, artifactSummary, body⟩ := artifact
      rw [storeArtifacts, wp_bind, wp_drawn, wp_bind, wp_get, wp_bind]
      refine wp_mono (@putArtifact_files _ _ runtime _ "artifact" (hreference _ _ _ _).1) ?_
        fun _ _ h => h
      intro _ t ⟨hfiles, hhas⟩
      rw [(hreference _ _ _ _).1, (hreference _ _ _ _).2] at hhas
      rw [wp_bind]
      refine wp_mono (ih t) ?_ fun _ u hu => hfiles.trans hu
      intro references u ⟨hrest, hreferences⟩
      refine ⟨hfiles.trans hrest, fun hfiled other hother => ?_⟩
      have ht := (hfiles hfiled).2
      rcases List.mem_cons.mp hother with rfl | hother
      · rw [(hreference _ _ _ _).1]
        exact (hrest ht).1.within.artifacts _ _ hhas
      · exact hreferences ht other hother

theorem recordToolExecution_files (threadId : ThreadId) (turnId : Option TurnId)
    (nodeId : Option NodeId) (workspaceMountId : Option WorkspaceMountId)
    (toolName summary : String) (artifacts : List (ArtifactKind × String × String)) :
    Guarantees Stows (recordToolExecution threadId turnId nodeId workspaceMountId toolName summary
      artifacts) := by
  have hturn : Guarantees Stows (executionTurn turnId) := by
    cases turnId with
    | none => exact nextValue_files "turn"
    | some turnId => exact Guarantees.pure Stows.refl turnId
  apply Guarantees.bind Stows.trans hturn
  intro executionTurnId
  apply Guarantees.bind Stows.trans nowTimestamp_files
  intro createdAt runtime
  rw [wp_bind]
  refine wp_mono (@storeArtifacts_files _ _ threadId _ ?_ artifacts runtime) ?_ fun _ _ h => h
  · exact fun _ _ _ _ => ⟨rfl, rfl⟩
  intro references t ⟨hfiles, hhas⟩
  rw [wp_bind, nextToolSequence, wp_bind, wp_stored, wp_readLog]
  have hread : Stows t { t with stores := t.stores.tick } := .of_same rfl rfl rfl rfl le_rfl
  refine ⟨fun entries _ => ?_, fun _ _ => hfiles.trans hread⟩
  rw [wp_pure, wp_bind, wp_stored, RuntimeStores.appendTurnLog, wp_effect]
  let entry (sequence : Nat) : TurnLogEntry :=
    { threadId := threadId
      sequence := sequence
      turnId := some executionTurnId
      recordedAt := createdAt
      event := "tool_completed"
      summary := toolName ++ ": " ++ summary
      artifactIds := references.map ArtifactRef.id }
  have happended : ∀ (sequence : Nat) (fault : Option Fault), Stows runtime
      { t with stores := (t.stores.tick.appended (entry sequence) fault).tick } := by
    intro sequence fault hfiled
    have hentry : Stows { t with stores := t.stores.tick }
        { t with stores := (t.stores.tick.appended (entry sequence) fault).tick } := by
      refine appended_files ?_ fault rfl le_rfl
      intro artifactId hmem
      obtain ⟨artifact, hartifact, rfl⟩ := List.mem_map.mp hmem
      exact hhas hfiled artifact hartifact
    exact (hfiles.trans (hread.trans hentry)) hfiled
  exact ⟨fun _ => happended _ none, fun fault _ => happended _ (some fault)⟩

end Steps

/-! ### Compilations -/

/-- Neither the threads, nor the logs, nor the artifacts have been touched. -/
structure RecordsUntouched (s t : TurnRuntime) : Prop where
  threads : t.stores.threads = s.stores.threads
  turnLogs : t.stores.turnLogs = s.stores.turnLogs
  artifacts : t.stores.artifacts = s.stores.artifacts
  sequence : s.ids.sequence ≤ t.ids.sequence

namespace RecordsUntouched

variable {s t : TurnRuntime}

theorem refl (s : TurnRuntime) : RecordsUntouched s s := ⟨rfl, rfl, rfl, le_rfl⟩

theorem trans ⦃s t u : TurnRuntime⦄ (h : RecordsUntouched s t) (h' : RecordsUntouched t u) :
    RecordsUntouched s u :=
  ⟨h'.threads.trans h.threads, h'.turnLogs.trans h.turnLogs, h'.artifacts.trans h.artifacts,
    h.sequence.trans h'.sequence⟩

variable (h : RecordsUntouched s t)

include h

theorem turnLog (threadId : ThreadId) : t.stores.turnLog threadId = s.stores.turnLog threadId := by
  rw [RuntimeStores.turnLog, h.turnLogs]
  rfl

theorem within : s.stores.Within t.stores := by
  constructor
  · rw [h.threads]
    exact fun _ hid => hid
  · intro threadId turnId hturn
    rwa [RuntimeStores.HasTurn, h.turnLog]
  · intro threadId artifactId hartifact
    rwa [RuntimeStores.HasArtifact, h.artifacts]

theorem recordsFiled (hfiled : RecordsFiled s) : RecordsFiled t := by
  constructor
  · rw [h.threads]
    exact hfiled.keyed
  · intro threadId entry hentry artifactId hid
    rw [h.turnLog] at hentry
    exact h.within.artifacts _ _ (hfiled.logged threadId entry hentry artifactId hid)
  · rw [h.artifacts]
    exact fun artifactId hid => (hfiled.issued artifactId hid).mono h.sequence

end RecordsUntouched

section Compilations

variable [Disk] [Clock] [Unicode]

theorem compileWith_recordsUntouched
    (compile : MemoryCompilationInput → Except RuntimeError MemoryCompilationDelta)
    (threadId : ThreadId) : Guarantees RecordsUntouched (compileWith compile threadId) := by
  have hread : Guarantees RecordsUntouched (stored RuntimeStores.readGlobalMemory) := by
    intro runtime
    rw [wp_stored]
    exact wp_readGlobalMemory (fun _ _ => ⟨rfl, rfl, rfl, le_rfl⟩) fun _ => ⟨rfl, rfl, rfl, le_rfl⟩
  have hbuild : Guarantees RecordsUntouched (buildCompilationInput threadId) :=
    fun _ => wp_buildCompilationInput (fun _ _ _ _ _ _ _ => ⟨rfl, rfl, rfl, le_rfl⟩)
      fun _ _ => ⟨rfl, rfl, rfl, le_rfl⟩
  apply Guarantees.bind RecordsUntouched.trans hbuild
  intro input
  cases compile input with
  | error e => exact Guarantees.throw RecordsUntouched.refl e
  | ok delta =>
      apply Guarantees.bind RecordsUntouched.trans hread
      intro snapshot
      apply Guarantees.bind RecordsUntouched.trans
      · exact fun runtime => ⟨rfl, rfl, rfl, le_rfl⟩
      intro now
      apply Guarantees.bind RecordsUntouched.trans
      · intro runtime
        rw [wp_drawn]
        exact ⟨rfl, rfl, rfl, CompilationPass.sequence_compileFacts _ (.start snapshot.facts _)⟩
      intro draft
      apply Guarantees.bind RecordsUntouched.trans
      · intro runtime
        rw [wp_stored]
        exact wp_writeGlobalMemory ⟨rfl, rfl, rfl, le_rfl⟩ (fun _ => ⟨rfl, rfl, rfl, le_rfl⟩)
          fun _ _ => ⟨rfl, rfl, rfl, le_rfl⟩
      intro _
      exact Guarantees.pure RecordsUntouched.refl _

end Compilations

end Liz
