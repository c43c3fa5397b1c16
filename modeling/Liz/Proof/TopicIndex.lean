import Liz.Base.Sorting
import Liz.Proof.FactHistory

/-!
# The topic index

A pass brings the topics of its delta up to date: the record of a topic is found by its name or an
alias and its lists are merged with those of the pass, and a topic without a record gets one with
the lists as they are. Over a run each topic keeps one record, its facts are stored facts, its
threads have been compiled, and its lists are in order from its second update on.
-/

namespace Liz

open Program Sorting

open Std (TransOrd LawfulEqOrd)

/-! ### Citations in order -/

theorem compare_citations (left right : MemoryCitationRef) :
    compare left right = (compare left.threadId right.threadId).then
      ((compare left.turnId right.turnId).then
        ((compare left.artifactId right.artifactId).then (compare left.note right.note))) := by
  have hfields : compare left right = (compare left.threadId right.threadId).then
      ((compare left.turnId right.turnId).then ((compare left.artifactId right.artifactId).then
        ((compare left.note right.note).then .eq))) := by
    cases left
    cases right
    rfl
  rw [hfields, Ordering.then_eq]

instance : TransOrd MemoryCitationRef := by
  have hcompare : (compare : MemoryCitationRef → MemoryCitationRef → Ordering) =
      compareLex (compareOn MemoryCitationRef.threadId)
        (compareLex (compareOn MemoryCitationRef.turnId)
          (compareLex (compareOn MemoryCitationRef.artifactId)
            (compareOn MemoryCitationRef.note))) := by
    funext left right
    exact compare_citations left right
  unfold TransOrd
  rw [hcompare]
  infer_instance

instance : LawfulEqOrd MemoryCitationRef where
  eq_of_compare {left right} h := by
    simp only [compare_citations, Ordering.then_eq_eq, Std.compare_eq_iff_eq] at h
    obtain ⟨hthread, hturn, hartifact, hnote⟩ := h
    cases left
    cases right
    rw [MemoryCitationRef.mk.injEq]
    exact ⟨hthread, hturn, hartifact, hnote⟩

/-! ### The index -/

/-- The four lists are sorted and without repetitions. -/
structure StoredTopicRecord.Sorted (topic : StoredTopicRecord) : Prop where
  threads : StrictlySorted topic.relatedThreadIds
  artifacts : StrictlySorted topic.relatedArtifactIds
  facts : StrictlySorted topic.citationFactIds
  citations : StrictlySorted topic.citations

/-- The identifier is that of a stored fact. -/
def IsFactId (facts : List StoredMemoryFact) (id : MemoryFactId) : Prop :=
  ∃ fact ∈ facts, fact.id = id

/-- The index over these facts when these threads have been compiled and these topics, by name, have
been created or brought up to date. -/
structure TopicsSound (threads : List ThreadId) (updates : List String)
    (facts : List StoredMemoryFact) (topics : List StoredTopicRecord) : Prop where
  names : (topics.map StoredTopicRecord.name).Nodup
  facts : ∀ topic ∈ topics, ∀ id ∈ topic.citationFactIds, IsFactId facts id
  threads : ∀ topic ∈ topics, ∀ threadId ∈ topic.relatedThreadIds, threadId ∈ threads
  sorted : ∀ topic ∈ topics, 2 ≤ updates.count topic.name → topic.Sorted

/-- A sound index without aliases, in which every topic that was updated has its record. -/
structure TopicsKept (threads : List ThreadId) (updates : List String)
    (facts : List StoredMemoryFact) (topics : List StoredTopicRecord) : Prop
    extends TopicsSound threads updates facts topics where
  aliases : ∀ topic ∈ topics, topic.aliases = []
  known : ∀ name ∈ updates, name ∈ topics.map StoredTopicRecord.name

section Index

variable {threads : List ThreadId} {updates : List String} {facts later : List StoredMemoryFact}
  {topics : List StoredTopicRecord}

theorem TopicsKept.empty : TopicsKept [] [] facts [] where
  names := List.nodup_nil
  facts _ h := absurd h List.not_mem_nil
  threads _ h := absurd h List.not_mem_nil
  sorted _ h := absurd h List.not_mem_nil
  aliases _ h := absurd h List.not_mem_nil
  known _ h := absurd h List.not_mem_nil

/-- More facts and more threads take nothing away. -/
theorem TopicsKept.mono {more : List ThreadId} (h : TopicsKept threads updates facts topics)
    (hfacts : ∀ id, IsFactId facts id → IsFactId later id) :
    TopicsKept (threads ++ more) updates later topics :=
  { h with
    facts := fun topic htopic id hid => hfacts id (h.facts topic htopic id hid)
    threads := fun topic htopic id hid => List.mem_append_left _ (h.threads topic htopic id hid) }

theorem isNamed_iff (h : TopicsKept threads updates facts topics) {topic : StoredTopicRecord}
    (htopic : topic ∈ topics) (name : String) : topic.isNamed name = true ↔ topic.name = name := by
  simp [StoredTopicRecord.isNamed, h.aliases topic htopic]

theorem any_isNamed (h : TopicsKept threads updates facts topics) (name : String) :
    topics.any (StoredTopicRecord.isNamed name) = true ↔
      name ∈ topics.map StoredTopicRecord.name := by
  rw [List.any_eq_true, List.mem_map]
  constructor
  · intro hany
    obtain ⟨topic, htopic, hnamed⟩ := hany
    exact ⟨topic, htopic, (isNamed_iff h htopic name).mp hnamed⟩
  · intro hmem
    obtain ⟨topic, htopic, hname⟩ := hmem
    exact ⟨topic, htopic, (isNamed_iff h htopic name).mpr hname⟩

theorem strictlySorted_mergeIntoVec {α : Type} [DecidableEq α] [Ord α] [TransOrd α] [LawfulEqOrd α]
    (target values : List α) : StrictlySorted (mergeIntoVec target values) :=
  strictlySorted_insertionSort_eraseDups (target ++ values)

theorem mem_mergeIntoVec {α : Type} [DecidableEq α] [Ord α] {target values : List α} {a : α} :
    a ∈ mergeIntoVec target values ↔ a ∈ target ∨ a ∈ values := by
  rw [mergeIntoVec, sortedSet, List.mem_insertionSort, List.mem_eraseDups, List.mem_append]

variable (pass : CompilationPass) {updatedFactIds : List MemoryFactId}

theorem sorted_refreshTopic (name : String) (topic : StoredTopicRecord) :
    (pass.refreshTopic updatedFactIds name topic).Sorted where
  threads := strictlySorted_mergeIntoVec _ _
  artifacts := strictlySorted_mergeIntoVec _ _
  facts := strictlySorted_mergeIntoVec _ _
  citations := strictlySorted_mergeIntoVec _ _

/-- A topic with a record: the record is brought up to date. -/
theorem TopicsKept.refreshed (h : TopicsKept threads updates facts topics)
    (hthread : pass.thread.id ∈ threads) (hupdated : ∀ id ∈ updatedFactIds, IsFactId facts id)
    {name : String} (hknown : name ∈ topics.map StoredTopicRecord.name) :
    TopicsKept threads (updates ++ [name]) facts
      (Records.modifyFirst (StoredTopicRecord.isNamed name) (pass.refreshTopic updatedFactIds name)
        topics) := by
  have hnames : (Records.modifyFirst (StoredTopicRecord.isNamed name)
      (pass.refreshTopic updatedFactIds name) topics).map StoredTopicRecord.name =
        topics.map StoredTopicRecord.name := Records.map_modifyFirst fun _ _ => rfl
  have hcases : ∀ topic ∈ Records.modifyFirst (StoredTopicRecord.isNamed name)
      (pass.refreshTopic updatedFactIds name) topics,
      (topic.name ≠ name ∧ topic ∈ topics) ∨
        ∃ old ∈ topics, old.name = name ∧ topic = pass.refreshTopic updatedFactIds name old :=
    fun topic htopic => Records.mem_modifyFirst_of_nodup
      (fun old hold => isNamed_iff h hold name) h.names htopic
  constructor
  · constructor
    · rw [hnames]
      exact h.names
    · intro topic htopic id hid
      rcases hcases topic htopic with ⟨-, hold⟩ | ⟨old, hold, -, rfl⟩
      · exact h.facts topic hold id hid
      · exact (mem_mergeIntoVec.mp hid).elim (h.facts old hold id) (hupdated id)
    · intro topic htopic threadId hid
      rcases hcases topic htopic with ⟨-, hold⟩ | ⟨old, hold, -, rfl⟩
      · exact h.threads topic hold threadId hid
      · rcases mem_mergeIntoVec.mp hid with hid | hid
        · exact h.threads old hold threadId hid
        · rwa [List.mem_singleton.mp hid]
    · intro topic htopic htwice
      rcases hcases topic htopic with ⟨hne, hold⟩ | ⟨old, hold, -, rfl⟩
      · apply h.sorted topic hold
        rwa [List.count_append, List.count_singleton, if_neg (by simpa using hne.symm)] at htwice
      · exact sorted_refreshTopic pass name old
  · intro topic htopic
    rcases hcases topic htopic with ⟨-, hold⟩ | ⟨old, hold, -, rfl⟩
    · exact h.aliases topic hold
    · exact h.aliases old hold
  · intro other hother
    rw [hnames]
    rcases List.mem_append.mp hother with hother | hother
    · exact h.known other hother
    · rwa [List.mem_singleton.mp hother]

/-- A topic without a record: it has not been updated before, and gets one. -/
theorem TopicsKept.added (h : TopicsKept threads updates facts topics)
    (hthread : pass.thread.id ∈ threads) (hupdated : ∀ id ∈ updatedFactIds, IsFactId facts id)
    {name : String} (hnew : name ∉ topics.map StoredTopicRecord.name) :
    TopicsKept threads (updates ++ [name]) facts (topics ++ [pass.newTopic updatedFactIds name]) := by
  have hcases : ∀ topic ∈ topics ++ [pass.newTopic updatedFactIds name],
      topic ∈ topics ∨ topic = pass.newTopic updatedFactIds name := by
    intro topic htopic
    simpa using htopic
  constructor
  · constructor
    · rw [List.map_append]
      refine List.nodup_append'.mpr ⟨h.names, List.nodup_singleton _, ?_⟩
      intro other hother hnamed
      rw [List.mem_singleton.mp hnamed] at hother
      exact hnew hother
    · intro topic htopic id hid
      rcases hcases topic htopic with hold | rfl
      · exact h.facts topic hold id hid
      · exact hupdated id hid
    · intro topic htopic threadId hid
      rcases hcases topic htopic with hold | rfl
      · exact h.threads topic hold threadId hid
      · rwa [List.mem_singleton.mp hid]
    · intro topic htopic htwice
      rw [List.count_append, List.count_singleton] at htwice
      rcases hcases topic htopic with hold | rfl
      · have hne : name ≠ topic.name := fun heq =>
          hnew (heq ▸ List.mem_map_of_mem hold)
        rw [if_neg (by simpa using hne)] at htwice
        exact h.sorted topic hold htwice
      · -- this is its first update
        have hnone : updates.count name = 0 :=
          List.count_eq_zero.mpr fun hmem => hnew (h.known name hmem)
        have hname : (pass.newTopic updatedFactIds name).name = name := rfl
        rw [hname, hnone] at htwice
        split at htwice <;> omega
  · intro topic htopic
    rcases hcases topic htopic with hold | rfl
    · exact h.aliases topic hold
    · rfl
  · intro other hother
    rw [List.map_append]
    rcases List.mem_append.mp hother with hother | hother
    · exact List.mem_append_left _ (h.known other hother)
    · exact List.mem_append_right _ hother

theorem TopicsKept.syncTopic (h : TopicsKept threads updates facts topics)
    (hthread : pass.thread.id ∈ threads) (hupdated : ∀ id ∈ updatedFactIds, IsFactId facts id)
    (name : String) :
    TopicsKept threads (updates ++ [name]) facts (pass.syncTopic updatedFactIds name topics) := by
  unfold CompilationPass.syncTopic
  split
  next hany => exact h.refreshed pass hthread hupdated ((any_isNamed h name).mp hany)
  next hany => exact h.added pass hthread hupdated fun hmem => hany ((any_isNamed h name).mpr hmem)

theorem TopicsKept.syncTopicIndex (h : TopicsKept threads updates facts topics)
    (hthread : pass.thread.id ∈ threads) (hupdated : ∀ id ∈ updatedFactIds, IsFactId facts id) :
    TopicsKept threads (updates ++ pass.delta.recentTopics) facts
      (pass.syncTopicIndex updatedFactIds topics) := by
  unfold CompilationPass.syncTopicIndex
  generalize pass.delta.recentTopics = names
  induction names generalizing updates topics with
  | nil =>
      rw [List.append_nil]
      exact h
  | cons name rest ih =>
      rw [List.foldl_cons, List.append_cons]
      exact ih (h.syncTopic pass hthread hupdated name)

end Index

/-! ### What a pass reports is stored -/

section Reports

variable [Clock]

/-- What is reported as updated is the identifier of a fact. -/
def Reported (draft : FactDraft) : Prop := ∀ id ∈ draft.updatedFactIds, IsFactId draft.facts id

omit [Clock] in
theorem AppendsOnly.isFactId {before after : List StoredMemoryFact × IdGenerator}
    (h : AppendsOnly before after) {id : MemoryFactId} (hid : IsFactId before.1 id) :
    IsFactId after.1 id := by
  obtain ⟨appended, ⟨changed, hchanged, hafter⟩, -⟩ := h.records
  obtain ⟨fact, hfact, rfl⟩ := hid
  obtain ⟨later, hlater, hkeeps⟩ := Records.exists_after hchanged hfact
  rw [hafter]
  exact ⟨later, List.mem_append_left _ hlater, hkeeps.id⟩

/-- A write reports one more fact, which is stored. -/
theorem exists_reported_upsertFact (spec : FactSpec) (draft : FactDraft) :
    ∃ id, (upsertFact spec draft).updatedFactIds = draft.updatedFactIds ++ [id] ∧
      IsFactId (upsertFact spec draft).facts id := by
  have hgrows := upsertFact_grows spec draft
  unfold upsertFact at hgrows ⊢
  cases hfind : draft.facts.find? (StoredMemoryFact.liveAt spec.subject) with
  | none => exact ⟨_, rfl, spec.stored _, List.mem_append_right _ (List.mem_singleton_self _), rfl⟩
  | some existing =>
      rw [hfind] at hgrows
      dsimp only at hgrows ⊢
      split
      next hsame =>
        rw [if_pos hsame] at hgrows
        exact ⟨_, rfl, hgrows.isFactId ⟨existing, List.mem_of_find?_eq_some hfind, rfl⟩⟩
      next => exact ⟨_, rfl, spec.stored _, List.mem_append_right _ (List.mem_singleton_self _), rfl⟩

theorem upsertFact_reported (spec : FactSpec) {draft : FactDraft} (h : Reported draft) :
    Reported (upsertFact spec draft) := by
  obtain ⟨written, hreported, hstored⟩ := exists_reported_upsertFact spec draft
  intro id hid
  rw [hreported] at hid
  rcases List.mem_append.mp hid with hid | hid
  · exact (upsertFact_grows spec draft).isFactId (h id hid)
  · rwa [List.mem_singleton.mp hid]

theorem upsertFacts_reported (specs : List FactSpec) {draft : FactDraft} (h : Reported draft) :
    Reported (upsertFacts specs draft) := by
  induction specs generalizing draft with
  | nil => exact h
  | cons spec rest ih => exact ih (upsertFact_reported spec h)

theorem invalidateFacts_reported (doomed : StoredMemoryFact → Bool) (now : Timestamp)
    {draft : FactDraft} (h : Reported draft) : Reported (invalidateFacts doomed now draft) :=
  fun id hid => (invalidateFacts_grows doomed now draft).isFactId (h id hid)

theorem CompilationPass.compileFacts_reported [Unicode] (pass : CompilationPass)
    {draft : FactDraft} (h : Reported draft) : Reported (pass.compileFacts draft) := by
  rw [pass.compileFacts_eq]
  apply upsertFacts_reported
  apply invalidateFacts_reported
  apply upsertFacts_reported
  apply invalidateFacts_reported
  exact upsertFacts_reported _ h

end Reports

/-! ### Runs -/

section Runs

variable [Disk] [Clock] [Unicode] [UnicodeCase] [JsonText]

/-- The pass that a step carries out and stores. -/
def MemoryInput.storedPass (runtime : TurnRuntime) (input : MemoryInput) :
    Option CompilationPass :=
  if (result input.request.handle (input.arrival runtime)).isSome then
    (storedMemory runtime.stores).bind fun snapshot =>
      input.request.pass (input.arrival runtime) snapshot.facts
  else none

/-- The passes of a run, from a memory without facts and topics. -/
def storedPasses (inputs : List MemoryInput) : List CompilationPass :=
  (Runs.moments memoryStep .fresh inputs).filterMap fun moment => moment.2.storedPass moment.1

/-- The step leaves the index as it was, or brings it up to date with the pass it stores. -/
def TopicsStep (runtime : TurnRuntime) (input : MemoryInput) (before after : GlobalMemorySnapshot) :
    Prop :=
  (input.storedPass runtime = none ∧ after.topicIndex = before.topicIndex) ∨
    ∃ pass updatedFactIds, input.storedPass runtime = some pass ∧
      (∀ id ∈ updatedFactIds, IsFactId after.facts id) ∧
      after.topicIndex = pass.syncTopicIndex updatedFactIds before.topicIndex

theorem compile_topicsStep
    {compile : MemoryCompilationInput → Except RuntimeError MemoryCompilationDelta}
    {threadId : ThreadId} {runtime : TurnRuntime} {input : MemoryInput}
    (hhandle : input.request.handle = do let _ ← compileWith compile threadId)
    (hpass : ∀ facts, input.request.pass (input.arrival runtime) facts =
      passFor compile threadId (input.arrival runtime) facts)
    {before after : GlobalMemorySnapshot} (hbefore : storedMemory runtime.stores = some before)
    (hafter : storedMemory (memoryStep runtime input).stores = some after) :
    TopicsStep runtime input before after := by
  have hrun := compileWith_changes compile threadId (input.arrival runtime)
  unfold memoryStep at hafter
  unfold TopicsStep MemoryInput.storedPass
  rw [hhandle, after_ignored] at hafter
  rw [hhandle, isSome_result_ignored, hbefore, Option.bind_some, hpass]
  cases hresult : result (compileWith compile threadId) (input.arrival runtime) with
  | none =>
      obtain ⟨e, hkept⟩ := wp_of_failed hrun hresult
      rw [hkept.stored_eq hbefore hafter]
      exact .inl ⟨rfl, rfl⟩
  | some summary =>
      have hchanged := wp_of_result hrun hresult
      obtain ⟨snapshot, stored, hsnapshot, hstored, hcompiled⟩ := hchanged.applied
      obtain rfl := Option.some.inj (hbefore.symm.trans hsnapshot)
      obtain rfl := Option.some.inj (hafter.symm.trans hstored)
      obtain ⟨thread, entries, delta, hthread, hlog, hdelta, rfl, -⟩ := hcompiled
      refine .inr ⟨_, _, passFor_eq_some hthread hlog hdelta, ?_, rfl⟩
      exact CompilationPass.compileFacts_reported _ fun id hid => absurd hid List.not_mem_nil

/-- A request that does not compile, and whose change leaves the index as it was. -/
theorem topicsStep_of_same {runtime : TurnRuntime} {input : MemoryInput}
    {before after : GlobalMemorySnapshot}
    (hpass : ∀ facts, input.request.pass (input.arrival runtime) facts = none)
    (hchanges : ∀ ids, input.request.Changes (input.arrival runtime) before after ids →
      after.topicIndex = before.topicIndex)
    (hbefore : storedMemory runtime.stores = some before)
    (hafter : storedMemory (memoryStep runtime input).stores = some after) :
    TopicsStep runtime input before after := by
  refine .inl ⟨?_, ?_⟩
  · unfold MemoryInput.storedPass
    rw [hbefore, Option.bind_some, hpass]
    split <;> rfl
  · rcases memoryStep_cases runtime input with hkept | hchanged
    · exact congrArg GlobalMemorySnapshot.topicIndex (hkept.stored_eq hbefore hafter)
    · obtain ⟨snapshot, stored, hsnapshot, hstored, happlied⟩ := hchanged.applied
      obtain rfl := Option.some.inj (hbefore.symm.trans hsnapshot)
      obtain rfl := Option.some.inj (hafter.symm.trans hstored)
      exact hchanges _ happlied

/-- Only the two requests that compile touch the index. -/
theorem memoryStep_topicsStep {runtime : TurnRuntime} {input : MemoryInput}
    {before after : GlobalMemorySnapshot} (hbefore : storedMemory runtime.stores = some before)
    (hafter : storedMemory (memoryStep runtime input).stores = some after) :
    TopicsStep runtime input before after := by
  obtain ⟨threads, turnLogs, operations, identifiers, readings, request⟩ := input
  cases request with
  | compile threadId => exact compile_topicsStep rfl (fun _ => rfl) hbefore hafter
  | compileFromLlmOutput threadId rawJson =>
      exact compile_topicsStep rfl (fun _ => rfl) hbefore hafter
  | updateAboutYou update =>
      refine topicsStep_of_same (fun _ => rfl) (fun ids hchanges => ?_) hbefore hafter
      obtain ⟨rfl, -⟩ := hchanges
      rfl
  | correctKnowledge correction =>
      refine topicsStep_of_same (fun _ => rfl) (fun ids hchanges => ?_) hbefore hafter
      obtain ⟨rfl, -⟩ := hchanges
      rfl

/-- The threads of these passes, and the topics they have brought up to date. -/
def TopicsAfter (passes : List CompilationPass) (runtime : TurnRuntime) : Prop :=
  ∀ snapshot, storedMemory runtime.stores = some snapshot →
    TopicsKept (passes.map fun pass => pass.thread.id)
      (passes.flatMap fun pass => pass.delta.recentTopics) snapshot.facts snapshot.topicIndex

theorem memoryStep_topicsAfter {passes : List CompilationPass} {runtime : TurnRuntime}
    (h : TopicsAfter passes runtime) (input : MemoryInput) :
    TopicsAfter (passes ++ (input.storedPass runtime).toList) (memoryStep runtime input) := by
  intro after hafter
  obtain ⟨before, hbefore, hgrows⟩ := memoryStep_factsGrown runtime input after hafter
  have hmono : ∀ more : List ThreadId, TopicsKept ((passes.map fun pass => pass.thread.id) ++ more)
      (passes.flatMap fun pass => pass.delta.recentTopics) after.facts before.topicIndex :=
    fun more => (h before hbefore).mono fun id hid => hgrows.isFactId hid
  rw [List.map_append, List.flatMap_append]
  rcases memoryStep_topicsStep hbefore hafter with
    ⟨hnone, hsame⟩ | ⟨pass, updatedFactIds, hpass, hupdated, hsynced⟩
  · rw [hnone, hsame]
    simpa using hmono []
  · rw [hpass, hsynced]
    simpa using (hmono [pass.thread.id]).syncTopicIndex pass (by simp) hupdated

theorem run_topicsAfter (inputs : List MemoryInput) {passes : List CompilationPass}
    {runtime : TurnRuntime} (h : TopicsAfter passes runtime) :
    TopicsAfter (passes ++ (Runs.moments memoryStep runtime inputs).filterMap fun moment =>
      moment.2.storedPass moment.1) (Runs.final memoryStep runtime inputs) := by
  induction inputs generalizing passes runtime with
  | nil =>
      rw [Runs.moments, List.filterMap_nil, List.append_nil]
      exact h
  | cons input rest ih =>
      have hrest := ih (memoryStep_topicsAfter h input)
      rw [List.append_assoc] at hrest
      have hmoments : (Runs.moments memoryStep runtime (input :: rest)).filterMap
          (fun moment => moment.2.storedPass moment.1) =
          (input.storedPass runtime).toList ++
            (Runs.moments memoryStep (memoryStep runtime input) rest).filterMap
              fun moment => moment.2.storedPass moment.1 := by
        rw [Runs.moments, List.filterMap_cons]
        cases input.storedPass runtime <;> rfl
      rw [hmoments]
      exact hrest

/-- In the memory that a run from nothing leaves, the index is sound: each topic has one record,
cites facts that are stored and threads that have been compiled, and has its lists in order when it
has been updated more than once. -/
theorem topic_index_sound (inputs : List MemoryInput) (snapshot : GlobalMemorySnapshot)
    (hsnapshot : storedMemory (Runs.final memoryStep .fresh inputs).stores = some snapshot) :
    TopicsSound ((storedPasses inputs).map fun pass => pass.thread.id)
      ((storedPasses inputs).flatMap fun pass => pass.delta.recentTopics) snapshot.facts
      snapshot.topicIndex := by
  have hfresh : TopicsAfter [] TurnRuntime.fresh := by
    intro snapshot hsnapshot
    obtain rfl : GlobalMemorySnapshot.empty = snapshot := Option.some.inj hsnapshot
    exact TopicsKept.empty
  exact (run_topicsAfter inputs hfresh snapshot hsnapshot).toTopicsSound

end Runs

/-- Two threads with goals that share a word are compiled, the first one twice. -/
def sharedTopic : List MemoryInput :=
  [MemoryRequest.over (.compile "t") (threadWithGoal "release notes"),
    MemoryRequest.over (.compile "u")
      { Thread.blank "u" with activeGoal := some "release party" },
    MemoryRequest.over (.compile "t") (threadWithGoal "release notes")]

theorem topic_index_of_shared_topic :
    ∃ snapshot,
      (storedMemory (@Runs.final _ _ (@memoryStep calmDisk stoppedClock asciiTable asciiCase noJson)
        .fresh sharedTopic).stores = some snapshot ∧
      (snapshot.topicIndex.map fun topic => (topic.name, topic.relatedThreadIds)) =
        [("untitled", ["t", "u"]), ("release", ["t", "u"]), ("notes", ["t"]), ("party", ["u"])]) ∧
      TopicsSound ((@storedPasses calmDisk stoppedClock asciiTable asciiCase noJson
          sharedTopic).map fun pass => pass.thread.id)
        ((@storedPasses calmDisk stoppedClock asciiTable asciiCase noJson sharedTopic).flatMap
          fun pass => pass.delta.recentTopics) snapshot.facts snapshot.topicIndex := by
  have hrun : (storedMemory (@Runs.final _ _
      (@memoryStep calmDisk stoppedClock asciiTable asciiCase noJson) .fresh
      sharedTopic).stores).map (fun snapshot =>
        snapshot.topicIndex.map fun topic => (topic.name, topic.relatedThreadIds)) =
      some [("untitled", ["t", "u"]), ("release", ["t", "u"]), ("notes", ["t"]),
        ("party", ["u"])] := by decide +kernel
  obtain ⟨snapshot, hsnapshot, htopics⟩ := Option.map_eq_some_iff.mp hrun
  exact ⟨snapshot, ⟨hsnapshot, htopics⟩,
    @topic_index_sound calmDisk stoppedClock asciiTable asciiCase noJson sharedTopic snapshot
      hsnapshot⟩

end Liz
