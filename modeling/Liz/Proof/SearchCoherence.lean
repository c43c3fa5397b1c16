import Liz.Proof.MemoryOwners

/-!
# What a search finds

A hit announces a thread together with a turn, an artifact and a fact, and a client that expands it
looks the three up under the thread. Facts and threads announce what is their own. A topic announces
the first elements of four lists, and these come from one thread as long as no compilation touches a
topic of another thread.
-/

namespace Liz

open Program

/-! ### Work on threads and their memory -/

inductive MemoryWork
  | startThread (request : ThreadStartRequest)
  | resumeThread (request : ThreadResumeRequest)
  | forkThread (request : ThreadForkRequest)
  | turn (operation : TurnOperation)
  | createCheckpoint (threadId : ThreadId) (turnId : TurnId) (scope : CheckpointScope)
      (reason : String)
  | recordToolExecution (threadId : ThreadId) (turnId : Option TurnId) (nodeId : Option NodeId)
      (workspaceMountId : Option WorkspaceMountId) (toolName summary : String)
      (artifacts : List (ArtifactKind × String × String))
  | compile (threadId : ThreadId)
  | compileFromLlmOutput (threadId : ThreadId) (rawJson : String)

section Work

variable [Disk] [Clock] [Unicode] [JsonText]

def MemoryWork.run : MemoryWork → TurnM Unit
  | startThread request => do let _ ← Liz.startThread request
  | resumeThread request => do let _ ← Liz.resumeThread request
  | forkThread request => do let _ ← Liz.forkThread request
  | turn operation => do let _ ← operation.run
  | createCheckpoint threadId turnId scope reason => do
      let _ ← Liz.createCheckpoint threadId turnId scope reason
  | recordToolExecution threadId turnId nodeId workspaceMountId toolName summary artifacts => do
      let _ ← Liz.recordToolExecution threadId turnId nodeId workspaceMountId toolName summary
        artifacts
  | compile threadId => do let _ ← compileThread threadId
  | compileFromLlmOutput threadId rawJson => do
      let _ ← compileThreadFromLlmOutput threadId rawJson

/-- One piece of work; what fails leaves what it has done. -/
def MemoryWork.step (runtime : TurnRuntime) (work : MemoryWork) : TurnRuntime :=
  after work.run runtime

/-- The pass of a piece of work that compiles. -/
def MemoryWork.pass (runtime : TurnRuntime) (facts : List StoredMemoryFact) :
    MemoryWork → Option CompilationPass
  | compile threadId => MemoryRequest.pass runtime facts (.compile threadId)
  | compileFromLlmOutput threadId rawJson =>
      MemoryRequest.pass runtime facts (.compileFromLlmOutput threadId rawJson)
  | _ => none

/-- The work does not compile, or its pass touches topics of its own thread only. -/
def MemoryWork.StaysApart (runtime : TurnRuntime) (work : MemoryWork) : Prop :=
  ∀ snapshot ∈ storedMemory runtime.stores, ∀ pass ∈ work.pass runtime snapshot.facts,
    pass.StaysApart snapshot

instance (runtime : TurnRuntime) (work : MemoryWork) : Decidable (work.StaysApart runtime) :=
  inferInstanceAs (Decidable (∀ snapshot ∈ storedMemory runtime.stores,
    ∀ pass ∈ work.pass runtime snapshot.facts, pass.StaysApart snapshot))

/-- The records are filed and every fact belongs to a thread. -/
structure MemoryFiled (runtime : TurnRuntime) : Prop where
  records : RecordsFiled runtime
  facts : ∀ snapshot, storedMemory runtime.stores = some snapshot →
    FactsOwned runtime.stores snapshot.facts

/-- Every topic belongs to a thread. -/
def TopicsFiled (runtime : TurnRuntime) : Prop :=
  ∀ snapshot, storedMemory runtime.stores = some snapshot →
    TopicsOwned runtime.stores snapshot.facts snapshot.topicIndex

omit [Disk] [Clock] [Unicode] [JsonText] in
theorem Stows.memoryFiled {s t : TurnRuntime} (h : Stows s t) (hs : MemoryFiled s) :
    MemoryFiled t := by
  obtain ⟨hadds, hfiled⟩ := h hs.records
  refine ⟨hfiled, fun after hafter => ?_⟩
  obtain ⟨before, hbefore, hfacts, -⟩ := hadds.memory after hafter
  rw [hfacts]
  exact hadds.within.factsOwned (hs.facts before hbefore)

omit [Disk] [Clock] [Unicode] [JsonText] in
theorem Stows.topicsFiled {s t : TurnRuntime} (h : Stows s t) (hs : MemoryFiled s)
    (htopics : TopicsFiled s) : TopicsFiled t := by
  obtain ⟨hadds, -⟩ := h hs.records
  intro after hafter
  obtain ⟨before, hbefore, hfacts, hindex⟩ := hadds.memory after hafter
  rw [hfacts, hindex]
  exact hadds.within.topicsOwned (htopics before hbefore)

/-! ### Compilations -/

omit [Disk] [Clock] [Unicode] [JsonText] in
theorem entries_of_read {file : TurnLogFile} {entries : List TurnLogEntry}
    (hread : file.read = .ok entries) : file.entries = entries := by
  unfold TurnLogFile.read at hread
  split at hread
  · cases hread
  · exact Except.ok.inj hread

omit [Disk] [Clock] [Unicode] [JsonText] in
/-- The last entries of a log that reads. -/
theorem mem_of_recentEntries {file : TurnLogFile} {entries : List TurnLogEntry}
    (hread : file.read = .ok entries) {entry : TurnLogEntry} (hentry : entry ∈ recentEntries entries) :
    entry ∈ file.entries := by
  rw [entries_of_read hread]
  exact List.mem_reverse.mp
    (List.mem_filter.mp (List.mem_of_mem_take (List.mem_reverse.mp hentry))).1

omit [Disk] [Clock] [Unicode] [JsonText] in
/-- A compilation reads a stored thread and the log of that thread. -/
theorem readFrom_compilationInput {runtime : TurnRuntime} (hfiled : RecordsFiled runtime)
    {threadId : ThreadId} {thread : Thread} {entries : List TurnLogEntry}
    (hthread : runtime.stores.threads.lookup threadId = some (.intact thread))
    (hlog : (runtime.stores.turnLog threadId).read = .ok entries) (facts : List StoredMemoryFact)
    (delta : MemoryCompilationDelta) (now : Timestamp) :
    ((compilationInput threadId thread entries facts).passWith delta now).ReadFrom
      runtime.stores := by
  have hid : thread.id = threadId := hfiled.keyed threadId thread hthread
  have hentries : ∀ entry ∈ recentEntries entries,
      entry ∈ (runtime.stores.turnLog threadId).entries := fun _ => mem_of_recentEntries hlog
  constructor
  · show thread.id ∈ runtime.stores.threads
    rw [hid]
    exact AList.lookup_isSome.mp (by rw [hthread]; rfl)
  · intro citation hcitation
    obtain ⟨entry, hentry, rfl⟩ := List.mem_map.mp hcitation
    have hmem := hentries entry (List.mem_of_mem_take hentry)
    show runtime.stores.Cites thread.id _
    rw [hid]
    exact ⟨fun turnId hturn => ⟨entry, hmem, hturn⟩, fun artifactId hartifact =>
      hfiled.logged threadId entry hmem artifactId (List.mem_of_mem_head? hartifact)⟩
  · intro artifactId hartifact
    have hmem := List.mem_eraseDups.mp ((List.mem_insertionSort _).mp hartifact)
    obtain ⟨entry, hentry, hid'⟩ := List.mem_flatMap.mp hmem
    show runtime.stores.HasArtifact thread.id artifactId
    rw [hid]
    exact hfiled.logged threadId entry (hentries entry hentry) artifactId hid'

omit [JsonText] in
/-- A compilation over filed records, the topics of which stay apart. -/
theorem compileWith_filed
    {compile : MemoryCompilationInput → Except RuntimeError MemoryCompilationDelta}
    {threadId : ThreadId} {runtime : TurnRuntime} (hfiled : MemoryFiled runtime) :
    MemoryFiled (after (compileWith compile threadId) runtime) ∧
      ((∀ snapshot ∈ storedMemory runtime.stores,
          ∀ pass ∈ passFor compile threadId runtime snapshot.facts, pass.StaysApart snapshot) →
        TopicsFiled runtime → TopicsFiled (after (compileWith compile threadId) runtime)) := by
  have huntouched := (wp_after (R := RecordsUntouched runtime)).mp
    (compileWith_recordsUntouched compile threadId runtime)
  have hcases := compileWith_cases compile threadId runtime
  generalize after (compileWith compile threadId) runtime = later at huntouched hcases
  have hrecords := huntouched.recordsFiled hfiled.records
  rcases hcases with hkept | hchanged
  · have hsame : ∀ snapshot, storedMemory later.stores = some snapshot →
        storedMemory runtime.stores = some snapshot := by
      intro snapshot hsnapshot
      rcases hkept.2 with hsame | hnone
      · rwa [storedMemory, hsame] at hsnapshot
      · rw [hnone] at hsnapshot
        cases hsnapshot
    refine ⟨⟨hrecords, fun snapshot hsnapshot => ?_⟩, fun _ htopics snapshot hsnapshot => ?_⟩
    · exact huntouched.within.factsOwned (hfiled.facts snapshot (hsame snapshot hsnapshot))
    · exact huntouched.within.topicsOwned (htopics snapshot (hsame snapshot hsnapshot))
  · obtain ⟨before, stored, hbefore, hstored, hcompiled⟩ := hchanged.applied
    obtain ⟨thread, entries, delta, hthread, hlog, hdelta, rfl, -⟩ := hcompiled
    have hread := readFrom_compilationInput hfiled.records hthread hlog before.facts delta
      runtime.ids.nowTimestamp.1
    have hpass := passFor_eq_some hthread hlog hdelta
    refine ⟨⟨hrecords, fun snapshot hsnapshot => ?_⟩, fun hapart htopics snapshot hsnapshot => ?_⟩
    · obtain rfl := Option.some.inj (hstored.symm.trans hsnapshot)
      exact huntouched.within.factsOwned
        (CompilationPass.factsOwned_compileFacts hread (hfiled.facts before hbefore))
    · obtain rfl := Option.some.inj (hstored.symm.trans hsnapshot)
      exact huntouched.within.topicsOwned (CompilationPass.topicsOwned_snapshotAfter hread
        (hapart before hbefore _ hpass) (htopics before hbefore))

/-! ### Steps and runs -/

theorem MemoryWork.step_filed {runtime : TurnRuntime} (hfiled : MemoryFiled runtime)
    (work : MemoryWork) : MemoryFiled (work.step runtime) ∧
      (work.StaysApart runtime → TopicsFiled runtime → TopicsFiled (work.step runtime)) := by
  have hadds : ∀ {α : Type} (p : TurnM α), Guarantees Stows p →
      MemoryFiled (after (do let _ ← p : TurnM Unit) runtime) ∧
        (work.StaysApart runtime → TopicsFiled runtime →
          TopicsFiled (after (do let _ ← p : TurnM Unit) runtime)) := by
    intro α p hp
    rw [after_ignored]
    have hfiles : Stows runtime (after p runtime) := wp_after.mp (hp runtime)
    exact ⟨hfiles.memoryFiled hfiled, fun _ htopics => hfiles.topicsFiled hfiled htopics⟩
  cases work with
  | startThread request => exact hadds _ (startThread_files request)
  | resumeThread request => exact hadds _ (resumeThread_files request)
  | forkThread request => exact hadds _ (forkThread_files request)
  | turn operation => exact hadds _ operation.run_files
  | createCheckpoint threadId turnId scope reason =>
      exact hadds _ (createCheckpoint_files threadId turnId scope reason)
  | recordToolExecution threadId turnId nodeId workspaceMountId toolName summary artifacts =>
      exact hadds _ (recordToolExecution_files threadId turnId nodeId workspaceMountId toolName
        summary artifacts)
  | compile threadId =>
      unfold MemoryWork.step MemoryWork.run
      rw [after_ignored]
      exact compileWith_filed hfiled
  | compileFromLlmOutput threadId rawJson =>
      unfold MemoryWork.step MemoryWork.run
      rw [after_ignored]
      exact compileWith_filed hfiled

end Work

/-! ### Hits -/

/-- What the hit announces is there, and it is of the thread that the hit announces. -/
structure MemorySearchHit.Coherent (stores : RuntimeStores) (facts : List StoredMemoryFact)
    (hit : MemorySearchHit) (threadId : ThreadId) : Prop where
  thread : stores.HoldsThread threadId
  turn : ∀ turnId, hit.turnId = some turnId → stores.HasTurn threadId turnId
  artifact : ∀ artifactId, hit.artifactId = some artifactId →
    stores.HasArtifact threadId artifactId
  fact : ∀ factId, hit.factId = some factId →
    ∃ fact ∈ facts, fact.id = factId ∧ threadId ∈ fact.relatedThreadIds

/-- Where the hit names a thread it is coherent. -/
def MemorySearchHit.Opens (stores : RuntimeStores) (facts : List StoredMemoryFact)
    (hit : MemorySearchHit) : Prop :=
  ∀ threadId, hit.threadId = some threadId → hit.Coherent stores facts threadId

section Hits

variable {stores : RuntimeStores} {facts : List StoredMemoryFact} {hit : MemorySearchHit}

theorem eq_of_hitOf {score : Nat} {make : Nat → MemorySearchHit}
    (h : hitOf score make = some hit) : hit = make score := by
  unfold hitOf at h
  split at h
  · cases h
  · exact (Option.some.inj h).symm

theorem eq_of_head?_singleton {ids : List ThreadId} {threadId id : ThreadId} (h : ids = [threadId])
    (hid : ids.head? = some id) : id = threadId := by
  rw [h] at hid
  exact (Option.some.inj hid).symm

/-- The hit of a topic that belongs to a thread. -/
theorem topicHit_opens (hthreads : ∀ threadId ∈ stores.threads, stores.HoldsThread threadId)
    {topic : StoredTopicRecord} {threadId : ThreadId}
    (hbelongs : topic.BelongsTo stores facts threadId) (score : Nat) :
    (topicHit topic score).Opens stores facts := by
  intro id hid
  obtain rfl := eq_of_head?_singleton hbelongs.thread hid
  constructor
  · exact hthreads id hbelongs.stored
  · intro turnId hturn
    obtain ⟨citation, hcitation, hcites⟩ := Option.bind_eq_some_iff.mp hturn
    exact (hbelongs.citations citation (List.mem_of_mem_head? hcitation)).turn turnId hcites
  · exact fun artifactId hartifact =>
      hbelongs.artifacts artifactId (List.mem_of_mem_head? hartifact)
  · intro factId hfact
    obtain ⟨fact, hmem, heq, hthread⟩ := hbelongs.facts factId (List.mem_of_mem_head? hfact)
    exact ⟨fact, hmem, heq, hthread ▸ List.mem_singleton_self id⟩

/-- The hit of a stored fact that belongs to a thread. -/
theorem factHit_opens (hthreads : ∀ threadId ∈ stores.threads, stores.HoldsThread threadId)
    {fact : StoredMemoryFact} (hfact : fact ∈ facts) {threadId : ThreadId}
    (hbelongs : fact.BelongsTo stores threadId) (score : Nat) :
    (factHit fact score).Opens stores facts := by
  intro id hid
  obtain rfl := eq_of_head?_singleton hbelongs.thread hid
  constructor
  · exact hthreads id hbelongs.stored
  · intro turnId hturn
    obtain ⟨citation, hcitation, hcites⟩ := Option.bind_eq_some_iff.mp hturn
    exact (hbelongs.citations citation (List.mem_of_mem_head? hcitation)).turn turnId hcites
  · intro artifactId hartifact
    obtain ⟨citation, hcitation, hcites⟩ := Option.bind_eq_some_iff.mp hartifact
    exact (hbelongs.citations citation (List.mem_of_mem_head? hcitation)).artifact artifactId hcites
  · intro factId hid
    obtain rfl : fact.id = factId := Option.some.inj hid
    exact ⟨fact, hfact, rfl, hbelongs.thread ▸ List.mem_singleton_self id⟩

/-- The hit of a thread, over the last entries of its log. -/
theorem sessionHit_opens {thread : Thread} (hthread : stores.HoldsThread thread.id)
    (hlogged : ∀ entry ∈ (stores.turnLog thread.id).entries, ∀ artifactId ∈ entry.artifactIds,
      stores.HasArtifact thread.id artifactId)
    {recent : List TurnLogEntry}
    (hrecent : ∀ entry ∈ recent, entry ∈ (stores.turnLog thread.id).entries) (score : Nat) :
    (sessionHit thread recent score).Opens stores facts := by
  intro id hid
  obtain rfl : thread.id = id := Option.some.inj hid
  constructor
  · exact hthread
  · intro turnId hturn
    obtain ⟨entry, hentry, htold⟩ := Option.bind_eq_some_iff.mp hturn
    exact ⟨entry, hrecent entry (List.mem_of_getLast? hentry), htold⟩
  · intro artifactId hartifact
    obtain ⟨entry, hentry, htold⟩ := Option.bind_eq_some_iff.mp hartifact
    exact hlogged entry (hrecent entry (List.mem_of_getLast? hentry)) artifactId
      (List.mem_of_mem_head? htold)
  · intro factId hfact
    cases hfact

end Hits

/-! ### Searches -/

section Searches

variable [Disk]

/-- Reading the files of some threads gives the stored threads, if they can all be read. -/
theorem wp_readThreads {threadIds : List ThreadId} {stores : RuntimeStores} :
    wp (RuntimeStores.readThreads threadIds)
      (fun threads later => (∃ operations, later = { stores with operations := operations }) ∧
        (∀ threadId ∈ threadIds, threadId ∈ stores.threads → stores.HoldsThread threadId) ∧
        ∀ thread ∈ threads, ∃ threadId,
          stores.threads.lookup threadId = some (.intact thread))
      (fun _ _ => True) stores := by
  induction threadIds generalizing stores with
  | nil =>
      exact ⟨⟨stores.operations, rfl⟩, fun _ h => absurd h List.not_mem_nil,
        fun _ h => absurd h List.not_mem_nil⟩
  | cons threadId rest ih =>
      rw [RuntimeStores.readThreads, wp_bind, RuntimeStores.getThread, wp_readJson]
      refine ⟨fun found hfound => ?_, fun _ _ => trivial⟩
      have hlookup : (∀ thread ∈ found, stores.threads.lookup threadId = some (.intact thread)) ∧
          (threadId ∈ stores.threads → stores.HoldsThread threadId) := by
        cases hfault : Disk.fault stores.operations with
        | some fault =>
            rw [hfault] at hfound
            cases hfound
        | none =>
            rw [hfault] at hfound
            unfold RuntimeStores.HoldsThread
            rw [← AList.lookup_isSome]
            generalize stores.threads.lookup threadId = file at hfound ⊢
            rcases file with _ | ⟨thread⟩ | message
            · obtain rfl := Except.ok.inj hfound
              exact ⟨fun _ h => (by cases h), fun h => (by cases h)⟩
            · obtain rfl := Except.ok.inj hfound
              refine ⟨fun other hother => ?_, fun _ => ⟨thread, rfl⟩⟩
              rw [Option.some.inj hother]
            · cases hfound
      rw [wp_bind]
      refine wp_mono (@ih stores.tick) ?_ fun _ _ h => h
      intro threads later hread
      obtain ⟨⟨operations, hlater⟩, hholds, hthreads⟩ := hread
      refine ⟨⟨operations, hlater⟩, ?_, ?_⟩
      · intro other hother hstored
        rcases List.mem_cons.mp hother with rfl | hother
        · exact hlookup.2 hstored
        · exact hholds other hother hstored
      · intro thread hthread
        rcases List.mem_append.mp hthread with hhead | htail
        · exact ⟨threadId, hlookup.1 thread (Option.mem_toList.mp hhead)⟩
        · exact hthreads thread htail

/-- A log that is read tells what the file holds. -/
theorem read_of_readLog {stores : RuntimeStores} {threadId : ThreadId}
    {entries : List TurnLogEntry} (h : readLog stores threadId = .ok entries) :
    (stores.turnLog threadId).read = .ok entries := by
  unfold readLog at h
  cases hfault : Disk.fault stores.operations with
  | some fault =>
      rw [hfault] at h
      cases h
  | none =>
      rw [hfault] at h
      exact h

/-- The threads of the session hits are stored threads, and with these all threads can be read. -/
theorem wp_listThreads {stores : RuntimeStores} :
    wp RuntimeStores.listThreads
      (fun threads later => (∃ operations, later = { stores with operations := operations }) ∧
        (∀ threadId ∈ stores.threads, stores.HoldsThread threadId) ∧
        ∀ thread ∈ threads, ∃ threadId,
          stores.threads.lookup threadId = some (.intact thread))
      (fun _ _ => True) stores := by
  rw [RuntimeStores.listThreads, wp_bind, wp_operation]
  refine ⟨fun files hfiles => ?_, fun _ _ => trivial⟩
  have hlisted : files = stores.threadFiles := by
    cases hfault : Disk.fault stores.operations with
    | some fault =>
        rw [hfault] at hfiles
        cases hfiles
    | none =>
        rw [hfault] at hfiles
        exact (Except.ok.inj hfiles).symm
  refine wp_mono (@wp_readThreads _ files stores.tick) ?_ fun _ _ h => h
  intro threads later ⟨⟨operations, hlater⟩, hholds, hthreads⟩
  refine ⟨⟨operations, hlater⟩, fun threadId hid => hholds threadId ?_ hid, hthreads⟩
  rw [hlisted]
  exact (List.mem_insertionSort _).mpr hid

/-- The hits of stored threads, however many operations there have been since. -/
theorem wp_sessionHits (score : String → Nat) (facts : List StoredMemoryFact)
    {threads : List Thread} {runtime : TurnRuntime} (hfiled : RecordsFiled runtime)
    (hholds : ∀ thread ∈ threads, ∃ threadId,
      runtime.stores.threads.lookup threadId = some (.intact thread)) (operations : Nat) :
    wp (sessionHits score threads)
      (fun hits _ => ∀ hit ∈ hits, hit.Opens runtime.stores facts)
      (fun _ _ => True)
      { runtime with stores := { runtime.stores with operations := operations } } := by
  induction threads generalizing operations with
  | nil => exact fun _ h => absurd h List.not_mem_nil
  | cons thread rest ih =>
      obtain ⟨threadId, hthread⟩ := hholds thread List.mem_cons_self
      obtain rfl : thread.id = threadId := hfiled.keyed threadId thread hthread
      rw [sessionHits, wp_bind, wp_stored, wp_readLog]
      refine ⟨fun entries hentries => ?_, fun _ _ => trivial⟩
      have hrecent : ∀ entry ∈ recentEntries entries,
          entry ∈ (runtime.stores.turnLog thread.id).entries :=
        fun _ => mem_of_recentEntries (read_of_readLog hentries)
      rw [wp_bind]
      refine wp_mono (ih (fun other hother => hholds other (List.mem_cons_of_mem _ hother))
        (operations + 1)) ?_ fun _ _ h => h
      intro hits _ hopens hit hhit
      rcases List.mem_append.mp hhit with hhead | htail
      · rw [eq_of_hitOf (Option.mem_toList.mp hhead)]
        exact sessionHit_opens ⟨thread, hthread⟩ (hfiled.logged thread.id) hrecent _
      · exact hopens hit htail

/-- Whatever a search returns opens, if topics belong to threads. -/
theorem search_opens [Unicode] [SemanticScore] {runtime : TurnRuntime} (hfiled : MemoryFiled runtime)
    (query : String) (mode : MemorySearchMode) (limit : Option Nat) {snapshot : GlobalMemorySnapshot}
    (hsnapshot : storedMemory runtime.stores = some snapshot) :
    wp (search query mode limit)
      (fun hits _ => ∀ hit ∈ hits, (hit.kind = .topic → TopicsFiled runtime) →
        hit.Opens runtime.stores snapshot.facts)
      (fun _ _ => True) runtime := by
  unfold search
  rw [wp_bind, wp_stored]
  refine wp_readGlobalMemory (fun again hagain => ?_) fun _ => trivial
  obtain rfl := Option.some.inj (hsnapshot.symm.trans hagain)
  by_cases hempty : (normalizeTokens query).isEmpty = true
  · rw [if_pos hempty]
    exact fun _ h => absurd h List.not_mem_nil
  · rw [if_neg hempty]
    dsimp only
    rw [wp_bind, wp_stored]
    refine wp_mono (@wp_listThreads _ runtime.stores.tick) ?_ fun _ _ _ => trivial
    intro threads later ⟨⟨operations, hlater⟩, hholds, hthreads⟩
    rw [wp_bind, hlater]
    have hstored : ∀ threadId ∈ runtime.stores.threads, runtime.stores.HoldsThread threadId := hholds
    refine wp_mono (wp_sessionHits _ snapshot.facts hfiled.records hthreads operations) ?_
      fun _ _ h => h
    intro sessions _ hsessions hit hhit htopic
    have hmem := (List.mem_insertionSort _).mp (List.mem_of_mem_take hhit)
    rcases List.mem_append.mp hmem with hfound | hsession
    · rcases List.mem_append.mp hfound with hfound | hfound
      · obtain ⟨topic, hindexed, hhit⟩ := List.mem_filterMap.mp hfound
        obtain rfl := eq_of_hitOf hhit
        obtain ⟨threadId, hbelongs⟩ := htopic rfl snapshot hsnapshot topic hindexed
        exact topicHit_opens hstored hbelongs _
      · obtain ⟨fact, hlive, hhit⟩ := List.mem_filterMap.mp hfound
        obtain rfl := eq_of_hitOf hhit
        have hfact := (List.mem_filter.mp hlive).1
        obtain ⟨threadId, hbelongs⟩ := hfiled.facts snapshot hsnapshot fact hfact
        exact factHit_opens hstored hfact hbelongs _
    · exact hsessions hit hsession

end Searches

/-! ### Runs -/

section Runs

variable [Disk] [Clock] [Unicode] [JsonText] [SemanticScore]

omit [Clock] [JsonText] in
/-- Every search finds hits that open. -/
def SearchesCoherently (runtime : TurnRuntime) : Prop :=
  ∀ query mode limit snapshot, storedMemory runtime.stores = some snapshot →
    wp (search query mode limit) (fun hits _ => ∀ hit ∈ hits, hit.Opens runtime.stores snapshot.facts)
      (fun _ _ => True) runtime

omit [Disk] [Clock] [Unicode] [JsonText] [SemanticScore] in
theorem MemoryFiled.fresh : MemoryFiled .fresh := by
  refine ⟨.fresh, fun snapshot hsnapshot => ?_⟩
  obtain rfl : GlobalMemorySnapshot.empty = snapshot := Option.some.inj hsnapshot
  exact fun _ h => absurd h List.not_mem_nil

omit [Disk] [Clock] [Unicode] [JsonText] [SemanticScore] in
theorem TopicsFiled.fresh : TopicsFiled .fresh := by
  intro snapshot hsnapshot
  obtain rfl : GlobalMemorySnapshot.empty = snapshot := Option.some.inj hsnapshot
  exact fun _ h => absurd h List.not_mem_nil

/-- In every state of a run whose compilations touch topics of their own thread only, whatever a
search finds opens. -/
theorem searches_coherent (works : List MemoryWork)
    (hapart : Runs.AllSteps MemoryWork.step MemoryWork.StaysApart .fresh works) :
    ∀ runtime ∈ Runs.states MemoryWork.step .fresh works, SearchesCoherently runtime := by
  have hstep : ∀ runtime work, MemoryFiled runtime ∧ TopicsFiled runtime →
      MemoryWork.StaysApart runtime work →
      MemoryFiled (MemoryWork.step runtime work) ∧ TopicsFiled (MemoryWork.step runtime work) := by
    intro runtime work ⟨hfiled, htopics⟩ happart
    obtain ⟨hfiled', htopics'⟩ := work.step_filed hfiled
    exact ⟨hfiled', htopics' happart htopics⟩
  have hstates := Runs.invariant hstep ⟨MemoryFiled.fresh, TopicsFiled.fresh⟩ hapart
  intro runtime hruntime query mode limit snapshot hsnapshot
  obtain ⟨hfiled, htopics⟩ := hstates runtime hruntime
  refine wp_mono (search_opens hfiled query mode limit hsnapshot) ?_ fun _ _ h => h
  exact fun hits _ hopens hit hhit => hopens hit hhit fun _ => htopics

/-- In every state of every run, the facts and the threads that a search finds open. -/
theorem facts_and_sessions_open (works : List MemoryWork) :
    ∀ runtime ∈ Runs.states MemoryWork.step .fresh works, ∀ query mode limit snapshot,
      storedMemory runtime.stores = some snapshot →
      wp (search query mode limit)
        (fun hits _ => ∀ hit ∈ hits, hit.kind ≠ .topic → hit.Opens runtime.stores snapshot.facts)
        (fun _ _ => True) runtime := by
  have hsteps : Runs.AllSteps MemoryWork.step (fun _ _ => True) TurnRuntime.fresh works :=
    Runs.allSteps_true TurnRuntime.fresh works
  have hstates := Runs.invariant (fun _ work h _ => (work.step_filed h).1) MemoryFiled.fresh hsteps
  intro runtime hruntime query mode limit snapshot hsnapshot
  refine wp_mono (search_opens (hstates runtime hruntime) query mode limit hsnapshot) ?_
    fun _ _ h => h
  exact fun hits _ hopens hit hhit hkind => hopens hit hhit fun htopic => absurd htopic hkind

end Runs

/-! ### A word that two threads share -/

/-- Two threads are about a release; a tool runs in the second one, which is compiled first. -/
def sharedWord : List MemoryWork :=
  [.startThread ⟨some "release", none, none, none⟩,
    .startThread ⟨some "release", none, none, none⟩,
    .recordToolExecution "thread_0_2" none none none "shell" "ran"
      [(.commandOutput, "listing", "a.txt")],
    .compile "thread_0_2",
    .compile "thread_0_1"]

/-- A score that counts the shared words. -/
@[reducible] def wordScore : SemanticScore := ⟨fun _ _ shared => shared⟩

/-- The hit of the topic they share. -/
def mixedHit : MemorySearchHit :=
  { kind := .topic
    title := "release"
    summary := "Recent topic around release"
    score := 100
    threadId := some "thread_0_1"
    turnId := some "turn_0_3"
    artifactId := some "artifact_0_4"
    factId := none }

/-- The shared topic announces the first thread, with a turn and an artifact of the second. -/
theorem shared_word_mixes_threads :
    mixedHit ∈ (result (@search calmDisk asciiTable wordScore "release" .keyword none)
        (@Runs.final _ _ (@MemoryWork.step calmDisk stoppedClock asciiTable noJson) .fresh
          sharedWord)).getD [] ∧
      ¬ ∀ runtime ∈ @Runs.states _ _ (@MemoryWork.step calmDisk stoppedClock asciiTable noJson)
        .fresh sharedWord, @SearchesCoherently calmDisk asciiTable wordScore runtime := by
  have hfound : mixedHit ∈ (result (@search calmDisk asciiTable wordScore "release" .keyword none)
      (@Runs.final _ _ (@MemoryWork.step calmDisk stoppedClock asciiTable noJson) .fresh
        sharedWord)).getD [] := by decide +kernel
  have hlog : ((@Runs.final _ _ (@MemoryWork.step calmDisk stoppedClock asciiTable noJson) .fresh
      sharedWord).stores.turnLog "thread_0_1").entries = [] := by decide +kernel
  have hmemory : (storedMemory (@Runs.final _ _
      (@MemoryWork.step calmDisk stoppedClock asciiTable noJson) .fresh sharedWord).stores).isSome =
      true := by decide +kernel
  have hlast := @Runs.final_mem_states _ _
    (@MemoryWork.step calmDisk stoppedClock asciiTable noJson) .fresh sharedWord
  generalize @Runs.final _ _ (@MemoryWork.step calmDisk stoppedClock asciiTable noJson) .fresh
    sharedWord = runtime at hfound hlog hmemory hlast ⊢
  refine ⟨hfound, fun hall => ?_⟩
  obtain ⟨snapshot, hsnapshot⟩ := Option.isSome_iff_exists.mp hmemory
  have hsearch := hall runtime hlast "release" .keyword none snapshot hsnapshot
  cases hresult : result (@search calmDisk asciiTable wordScore "release" .keyword none) runtime with
  | none =>
      rw [hresult] at hfound
      exact absurd hfound List.not_mem_nil
  | some hits =>
      rw [hresult] at hfound
      have hopens := wp_of_result hsearch hresult mixedHit hfound "thread_0_1" rfl
      obtain ⟨entry, hentry, -⟩ := hopens.turn "turn_0_3" rfl
      rw [hlog] at hentry
      exact absurd hentry List.not_mem_nil

/-- One thread is worked on and compiled twice. -/
def ownWord : List MemoryWork :=
  [.startThread ⟨some "release", some "notes", none, none⟩,
    .recordToolExecution "thread_0_1" none none none "shell" "ran"
      [(.commandOutput, "listing", "a.txt")],
    .compile "thread_0_1",
    .compile "thread_0_1"]

theorem own_word_searches_coherent :
    @Runs.AllSteps _ _ (@MemoryWork.step calmDisk stoppedClock asciiTable noJson)
        (@MemoryWork.StaysApart stoppedClock asciiTable noJson) .fresh ownWord ∧
      ((∀ runtime ∈ @Runs.states _ _ (@MemoryWork.step calmDisk stoppedClock asciiTable noJson)
        .fresh ownWord, @SearchesCoherently calmDisk asciiTable wordScore runtime)) := by
  have hapart : @Runs.AllSteps _ _ (@MemoryWork.step calmDisk stoppedClock asciiTable noJson)
      (@MemoryWork.StaysApart stoppedClock asciiTable noJson) .fresh ownWord := by decide +kernel
  exact ⟨hapart, @searches_coherent calmDisk stoppedClock asciiTable noJson wordScore ownWord hapart⟩

end Liz
