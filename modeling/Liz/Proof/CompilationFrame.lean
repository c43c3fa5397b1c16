import Liz.Proof.FactHistory

/-!
# What a heuristic compilation leaves alone

The facts of all threads stand in one list and the topics in another. A heuristic compilation writes
under the subjects of its thread and under that of the identity, invalidates commitments of its
thread, and brings the topics of its thread up to date. Whatever stands elsewhere in the two lists
stands there afterwards as it was.
-/

namespace Liz

open Program

/-! ### What belongs to a thread -/

/-- The subject is one of the thread, or that of the identity. -/
def OwnSubject (threadId : ThreadId) (subject : String) : Prop :=
  (∃ rest, subject = "thread:" ++ threadId ++ ":" ++ rest) ∨ subject = identitySubject

/-- The fact is not about the thread, nor does its subject belong to it. -/
def StoredMemoryFact.Foreign (threadId : ThreadId) (fact : StoredMemoryFact) : Prop :=
  threadId ∉ fact.relatedThreadIds ∧ ¬ OwnSubject threadId fact.subject

/-- None of the names is the name of the topic or one of its aliases. -/
def StoredTopicRecord.Unnamed (names : List String) (topic : StoredTopicRecord) : Prop :=
  topic.name ∉ names ∧ ∀ name ∈ topic.aliases, name ∉ names

/-- Between the two snapshots nothing has happened outside of the memory of the thread and these
topics. -/
structure OwnMemoryOnly (threadId : ThreadId) (topics : List String)
    (before later : GlobalMemorySnapshot) : Prop where
  facts : ∀ (i : Nat) (fact : StoredMemoryFact), before.facts[i]? = some fact →
    fact.Foreign threadId → later.facts[i]? = some fact
  /-- A fact that is live now and was not before has a subject of the thread. -/
  fresh : ∀ (i : Nat) (fact : StoredMemoryFact), later.facts[i]? = some fact → fact.live →
    (∃ old, before.facts[i]? = some old ∧ old.live ∧ old.subject = fact.subject) ∨
      OwnSubject threadId fact.subject
  topics : ∀ (i : Nat) (topic : StoredTopicRecord), before.topicIndex[i]? = some topic →
    topic.Unnamed topics → later.topicIndex[i]? = some topic
  relationships : later.relationships = before.relationships
  strangerBoundary : later.defaultStrangerBoundary = before.defaultStrangerBoundary
  activeThreads : later.activeThreadIds = before.activeThreadIds

theorem OwnMemoryOnly.refl (threadId : ThreadId) (topics : List String)
    (snapshot : GlobalMemorySnapshot) : OwnMemoryOnly threadId topics snapshot snapshot where
  facts _ _ h _ := h
  fresh _ fact h hlive := .inl ⟨fact, h, hlive, rfl⟩
  topics _ _ h _ := h
  relationships := rfl
  strangerBoundary := rfl
  activeThreads := rfl

/-! ### Facts -/

section Facts

/-- How a fact changes that stays where it is. -/
structure StoredMemoryFact.ChangesOwn (threadId : ThreadId) (fact later : StoredMemoryFact) :
    Prop where
  foreign : fact.Foreign threadId → later = fact
  live : later.live → fact.live
  subject : later.subject = fact.subject

namespace StoredMemoryFact.ChangesOwn

variable {threadId : ThreadId}

theorem refl (fact : StoredMemoryFact) : fact.ChangesOwn threadId fact :=
  ⟨fun _ => rfl, fun h => h, rfl⟩

theorem trans (fact middle later : StoredMemoryFact) (h : fact.ChangesOwn threadId middle)
    (h' : middle.ChangesOwn threadId later) : fact.ChangesOwn threadId later := by
  refine ⟨fun hforeign => ?_, fun hlive => h.live (h'.live hlive), h'.subject.trans h.subject⟩
  have hsame := h.foreign hforeign
  rw [h'.foreign (hsame ▸ hforeign), hsame]

end StoredMemoryFact.ChangesOwn

/-- What is appended has subjects of the thread, and what stood there has kept to it. -/
def GrowsOwn (threadId : ThreadId) (facts later : List StoredMemoryFact) : Prop :=
  ∃ appended, Records.GrownBy (StoredMemoryFact.ChangesOwn threadId) appended facts later ∧
    ∀ fact ∈ appended, OwnSubject threadId fact.subject

namespace GrowsOwn

variable {threadId : ThreadId} {facts middle later : List StoredMemoryFact}

theorem of_changed (h : List.Forall₂ (StoredMemoryFact.ChangesOwn threadId) facts later) :
    GrowsOwn threadId facts later :=
  ⟨[], .of_changed h, fun _ hfact => absurd hfact List.not_mem_nil⟩

theorem refl (facts : List StoredMemoryFact) : GrowsOwn threadId facts facts :=
  of_changed (List.forall₂_same.mpr fun fact _ => .refl fact)

theorem trans (h : GrowsOwn threadId facts middle) (h' : GrowsOwn threadId middle later) :
    GrowsOwn threadId facts later := by
  obtain ⟨first, hfirst, hown⟩ := h
  obtain ⟨second, hsecond, hown'⟩ := h'
  obtain ⟨kept, hkept, hgrown⟩ := hfirst.trans StoredMemoryFact.ChangesOwn.trans hsecond
  refine ⟨kept ++ second, hgrown, fun fact hfact => ?_⟩
  rcases List.mem_append.mp hfact with hmem | hmem
  · obtain ⟨old, hold, hchanged⟩ := Records.exists_before hkept hmem
    rw [hchanged.subject]
    exact hown old hold
  · exact hown' fact hmem

end GrowsOwn

variable [Clock] {threadId : ThreadId}

/-- A write under a subject of the thread. -/
theorem upsertFact_growsOwn {spec : FactSpec} (hown : OwnSubject threadId spec.subject)
    (draft : FactDraft) : GrowsOwn threadId draft.facts (upsertFact spec draft).facts := by
  have happended : ∀ id, ∀ fact ∈ [spec.stored id], OwnSubject threadId fact.subject := by
    intro id fact hfact
    rw [List.mem_singleton.mp hfact]
    exact hown
  unfold upsertFact
  cases hfind : draft.facts.find? (StoredMemoryFact.liveAt spec.subject) with
  | none =>
      exact ⟨_, ⟨_, List.forall₂_same.mpr fun fact _ => .refl fact, rfl⟩, happended _⟩
  | some existing =>
      have hnot : ∀ fact, draft.facts.find? (StoredMemoryFact.liveAt spec.subject) = some fact →
          ¬ fact.Foreign threadId := by
        intro fact hfound hforeign
        have hsubject := (StoredMemoryFact.liveAt_iff.mp (List.find?_some hfound)).1
        exact hforeign.2 (hsubject ▸ hown)
      dsimp only
      split
      · apply GrowsOwn.of_changed
        exact Records.forall₂_modifyFirst .refl fun fact hfound =>
          ⟨fun hforeign => absurd hforeign (hnot fact hfound), fun h => h, rfl⟩
      · refine ⟨_, ⟨_, Records.forall₂_modifyFirst .refl fun fact hfound => ?_, rfl⟩, happended _⟩
        refine ⟨fun hforeign => absurd hforeign (hnot fact hfound), fun hlive => ?_, rfl⟩
        rw [StoredMemoryFact.live_superseded] at hlive
        exact absurd hlive Bool.false_ne_true

theorem upsertFacts_growsOwn {specs : List FactSpec}
    (hown : ∀ spec ∈ specs, OwnSubject threadId spec.subject) (draft : FactDraft) :
    GrowsOwn threadId draft.facts (upsertFacts specs draft).facts := by
  induction specs generalizing draft with
  | nil => exact .refl _
  | cons spec rest ih =>
      have hhead := upsertFact_growsOwn (hown spec List.mem_cons_self) draft
      exact hhead.trans (ih (fun other hother => hown other (List.mem_cons_of_mem _ hother)) _)

/-- An invalidation of facts that belong to the thread. -/
theorem invalidateFacts_growsOwn {doomed : StoredMemoryFact → Bool}
    (hdoomed : ∀ fact, doomed fact = true → ¬ fact.Foreign threadId) (now : Timestamp)
    (draft : FactDraft) : GrowsOwn threadId draft.facts (invalidateFacts doomed now draft).facts := by
  refine .of_changed (forall₂_invalidateWhere .refl (fun fact id h => ?_) _ _)
  refine ⟨fun hforeign => absurd hforeign (hdoomed fact h), fun hlive => ?_, rfl⟩
  rw [StoredMemoryFact.live_superseded] at hlive
  exact absurd hlive Bool.false_ne_true

end Facts

/-! ### The pass -/

section Pass

variable [Clock] [Unicode] {pass : CompilationPass}

omit [Clock] [Unicode] in
theorem ownSubject_thread (threadId : ThreadId) {tail : String} (rest : String)
    (h : tail = ":" ++ rest) : OwnSubject threadId ("thread:" ++ threadId ++ tail) :=
  .inl ⟨rest, by rw [h, ← String.append_assoc]⟩

omit [Clock] [Unicode] in
theorem ownSubject_of_mem_earlySpecs {spec : FactSpec} (h : spec ∈ pass.earlySpecs) :
    OwnSubject pass.thread.id spec.subject := by
  simp only [CompilationPass.earlySpecs, CompilationPass.activeStateSpecs, CompilationPass.goalSpecs,
    List.mem_append, List.mem_map] at h
  rcases h with ⟨value, -, rfl⟩ | ⟨value, -, rfl⟩
  · exact ownSubject_thread _ "active_state" rfl
  · exact ownSubject_thread _ "current_goal" rfl

omit [Clock] in
theorem ownSubject_of_mem_middleSpecs (hdurable : pass.delta.durableFacts = []) {spec : FactSpec}
    (h : spec ∈ pass.middleSpecs) : OwnSubject pass.thread.id spec.subject := by
  simp only [CompilationPass.middleSpecs, CompilationPass.commitmentSpecs,
    CompilationPass.identitySpecs, CompilationPass.durableSpecs, hdurable, List.filter_nil,
    List.map_nil, List.append_nil, List.mem_append, List.mem_map] at h
  rcases h with ⟨commitment, -, rfl⟩ | ⟨value, -, rfl⟩
  · show OwnSubject pass.thread.id (_ ++ ":commitment:" ++ slugify commitment)
    rw [String.append_assoc]
    refine ownSubject_thread _ ("commitment:" ++ slugify commitment) ?_
    rw [← String.append_assoc]
    rfl
  · exact .inr rfl

omit [Clock] in
theorem ownSubject_of_mem_procedureSpecs {spec : FactSpec} (h : spec ∈ pass.procedureSpecs) :
    OwnSubject pass.thread.id spec.subject := by
  obtain ⟨procedure, -, rfl⟩ := List.mem_map.mp h
  show OwnSubject pass.thread.id (_ ++ ":procedure:" ++ slugify procedure)
  rw [String.append_assoc]
  refine ownSubject_thread _ ("procedure:" ++ slugify procedure) ?_
  rw [← String.append_assoc]
  rfl

/-- A pass that neither keeps facts nor gives subjects up. -/
theorem CompilationPass.compileFacts_growsOwn (hdurable : pass.delta.durableFacts = [])
    (hcandidates : pass.delta.invalidationCandidates = []) (draft : FactDraft) :
    GrowsOwn pass.thread.id draft.facts (pass.compileFacts draft).facts := by
  have hdropped : ∀ fact, pass.dropped fact = true → ¬ fact.Foreign pass.thread.id := by
    intro fact hfact hforeign
    simp only [dropped, Bool.and_eq_true, List.contains_iff_mem] at hfact
    exact hforeign.1 hfact.1.1.2
  have hgivenUp : ∀ fact, pass.givenUp fact = true → ¬ fact.Foreign pass.thread.id := by
    intro fact hfact
    simp [givenUp, hcandidates, candidateSubjects] at hfact
  rw [pass.compileFacts_eq]
  have hownEarly : ∀ spec ∈ pass.earlySpecs, OwnSubject pass.thread.id spec.subject :=
    fun _ => ownSubject_of_mem_earlySpecs
  have hearly := upsertFacts_growsOwn hownEarly draft
  have hafterDropped := hearly.trans (invalidateFacts_growsOwn hdropped pass.now _)
  have hmiddle := hafterDropped.trans
    (upsertFacts_growsOwn (fun _ => ownSubject_of_mem_middleSpecs hdurable) _)
  have hafterGivenUp := hmiddle.trans (invalidateFacts_growsOwn hgivenUp pass.now _)
  exact hafterGivenUp.trans (upsertFacts_growsOwn (fun _ => ownSubject_of_mem_procedureSpecs) _)

/-! ### Topics -/

omit [Clock] [Unicode] in
theorem StoredTopicRecord.Unnamed.isNamed_eq_false {names : List String}
    {topic : StoredTopicRecord} (h : topic.Unnamed names) {name : String} (hname : name ∈ names) :
    topic.isNamed name = false := by
  have hne : topic.name ≠ name := fun heq => h.1 (heq ▸ hname)
  have halias : name ∉ topic.aliases := fun hmem => h.2 name hmem hname
  simp [isNamed, hne, halias]

omit [Clock] [Unicode] in
/-- The records of other topics stay as they are. -/
theorem CompilationPass.syncTopicIndex_grownBy (pass : CompilationPass)
    (updatedFactIds : List MemoryFactId)
    (topics : List StoredTopicRecord) :
    ∃ appended, Records.GrownBy
      (fun topic later => topic.Unnamed pass.delta.recentTopics → later = topic) appended topics
      (pass.syncTopicIndex updatedFactIds topics) := by
  have htrans : ∀ topic middle later : StoredTopicRecord,
      (topic.Unnamed pass.delta.recentTopics → middle = topic) →
      (middle.Unnamed pass.delta.recentTopics → later = middle) →
      topic.Unnamed pass.delta.recentTopics → later = topic := by
    intro topic middle later h h' hunnamed
    have hsame := h hunnamed
    rw [h' (hsame ▸ hunnamed), hsame]
  have hrefl : ∀ topics : List StoredTopicRecord, List.Forall₂
      (fun topic later => topic.Unnamed pass.delta.recentTopics → later = topic) topics topics :=
    fun topics => List.forall₂_same.mpr fun _ _ _ => rfl
  have hone : ∀ (name : String) (topics : List StoredTopicRecord),
      name ∈ pass.delta.recentTopics → ∃ appended, Records.GrownBy
        (fun topic later => topic.Unnamed pass.delta.recentTopics → later = topic) appended topics
        (pass.syncTopic updatedFactIds name topics) := by
    intro name topics hname
    unfold CompilationPass.syncTopic
    split
    · refine ⟨[], .of_changed (Records.forall₂_modifyFirst (fun _ _ => rfl) ?_)⟩
      intro topic hfound hunnamed
      have hnamed := List.find?_some hfound
      rw [hunnamed.isNamed_eq_false hname] at hnamed
      exact absurd hnamed Bool.false_ne_true
    · exact ⟨_, topics, hrefl topics, rfl⟩
  have hall : ∀ (names : List String) (topics : List StoredTopicRecord),
      (∀ name ∈ names, name ∈ pass.delta.recentTopics) → ∃ appended, Records.GrownBy
        (fun topic later => topic.Unnamed pass.delta.recentTopics → later = topic) appended topics
        (names.foldl (fun topics name => pass.syncTopic updatedFactIds name topics) topics) := by
    intro names
    induction names with
    | nil => exact fun topics _ => ⟨[], .of_changed (hrefl topics)⟩
    | cons name rest ih =>
        intro topics hnames
        obtain ⟨first, hfirst⟩ := hone name topics (hnames name List.mem_cons_self)
        obtain ⟨second, hsecond⟩ := ih (pass.syncTopic updatedFactIds name topics)
          fun other hother => hnames other (List.mem_cons_of_mem _ hother)
        obtain ⟨kept, -, hgrown⟩ := hfirst.trans htrans hsecond
        exact ⟨_, hgrown⟩
  exact hall _ _ fun _ h => h

/-- The snapshot after a pass that neither keeps facts nor gives subjects up. -/
theorem CompilationPass.snapshotAfter_ownMemoryOnly (hdurable : pass.delta.durableFacts = [])
    (hcandidates : pass.delta.invalidationCandidates = []) (snapshot : GlobalMemorySnapshot)
    (ids : IdGenerator) :
    OwnMemoryOnly pass.thread.id pass.delta.recentTopics snapshot
      (pass.snapshotAfter snapshot (pass.compileFacts (.start snapshot.facts ids))) := by
  obtain ⟨appended, hgrown, hown⟩ :=
    CompilationPass.compileFacts_growsOwn hdurable hcandidates (.start snapshot.facts ids)
  obtain ⟨newTopics, hsynced⟩ := pass.syncTopicIndex_grownBy
    (pass.compileFacts (.start snapshot.facts ids)).updatedFactIds snapshot.topicIndex
  constructor
  · intro i fact hfact hforeign
    obtain ⟨later, hlater, hchanged⟩ := hgrown.getElem?_later hfact
    rw [hchanged.foreign hforeign] at hlater
    exact hlater
  · intro i fact hfact hlive
    rcases hgrown.getElem?_before hfact with ⟨old, hold, hchanged⟩ | happended
    · exact .inl ⟨old, hold, hchanged.live hlive, hchanged.subject.symm⟩
    · exact .inr (hown fact happended)
  · intro i topic htopic hunnamed
    obtain ⟨later, hlater, hsame⟩ := hsynced.getElem?_later htopic
    rw [hsame hunnamed] at hlater
    exact hlater
  · rfl
  · rfl
  · rfl

end Pass

/-! ### The compilation -/

section Programs

variable [Disk] [Clock] [Unicode]

/-- The topics that a heuristic compilation derives for the thread over these facts. -/
def derivedTopics (runtime : TurnRuntime) (threadId : ThreadId) (facts : List StoredMemoryFact) :
    List String :=
  match passFor (fun input => .ok (heuristicDelta input)) threadId runtime facts with
  | some pass => pass.delta.recentTopics
  | none => []

/-- A heuristic compilation of a thread, whether it succeeds or fails, leaves the memory of the
others alone. -/
theorem compileThread_ownMemoryOnly (runtime : TurnRuntime) (threadId : ThreadId)
    (hthread : ∀ thread, runtime.stores.threads.lookup threadId = some (.intact thread) →
      thread.id = threadId)
    (before later : GlobalMemorySnapshot) (hbefore : storedMemory runtime.stores = some before)
    (hlater : storedMemory (after (compileThread threadId) runtime).stores = some later) :
    OwnMemoryOnly threadId (derivedTopics runtime threadId before.facts) before later := by
  rcases compileWith_cases (fun input => .ok (heuristicDelta input)) threadId runtime with
    hkept | hchanged
  · rw [hkept.stored_eq hbefore hlater]
    exact .refl _ _ _
  · obtain ⟨snapshot, stored, hsnapshot, hstored, hcompiled⟩ := hchanged.applied
    obtain rfl := Option.some.inj (hbefore.symm.trans hsnapshot)
    obtain rfl := Option.some.inj (hlater.symm.trans hstored)
    obtain ⟨thread, entries, delta, hfound, hlog, hdelta, rfl, -⟩ := hcompiled
    have htopics : derivedTopics runtime threadId before.facts = delta.recentTopics := by
      unfold derivedTopics
      rw [passFor_eq_some hfound hlog hdelta]
      rfl
    obtain rfl := Except.ok.inj hdelta
    let pass := (compilationInput threadId thread entries before.facts).passWith
      (heuristicDelta (compilationInput threadId thread entries before.facts))
      runtime.ids.nowTimestamp.1
    have hown := @CompilationPass.snapshotAfter_ownMemoryOnly _ _ pass rfl rfl before
      runtime.ids.nowTimestamp.2
    have hid : pass.thread.id = threadId := hthread thread hfound
    rw [hid] at hown
    rw [htopics]
    exact hown

end Programs

/-- A thread is compiled in a memory that another one has been compiled in. -/
def secondThread : TurnRuntime :=
  (MemoryRequest.over (.compile "u") { Thread.blank "u" with activeGoal := some "party" }).arrival
    (@memoryStep calmDisk stoppedClock asciiTable asciiCase noJson .fresh
      (MemoryRequest.over (.compile "t") (threadWithGoal "release notes")))

theorem second_thread_own_memory_only :
    ∃ before later, (storedMemory secondThread.stores = some before ∧ before.facts.length = 1 ∧
        storedMemory (after (@compileThread calmDisk stoppedClock asciiTable "u")
          secondThread).stores = some later ∧ later.facts.length = 2) ∧
      OwnMemoryOnly "u" (@derivedTopics stoppedClock asciiTable secondThread "u" before.facts) before
        later := by
  have hbefore : (storedMemory secondThread.stores).map (fun snapshot => snapshot.facts.length) =
      some 1 := by decide +kernel
  have hlater : (storedMemory (after (@compileThread calmDisk stoppedClock asciiTable "u")
      secondThread).stores).map (fun snapshot => snapshot.facts.length) = some 2 := by
    decide +kernel
  obtain ⟨before, hbefore, hone⟩ := Option.map_eq_some_iff.mp hbefore
  obtain ⟨later, hlater, htwo⟩ := Option.map_eq_some_iff.mp hlater
  refine ⟨before, later, ⟨hbefore, hone, hlater, htwo⟩, ?_⟩
  refine @compileThread_ownMemoryOnly calmDisk stoppedClock asciiTable secondThread "u" ?_ before later
    hbefore hlater
  intro thread hthread
  have hfound : secondThread.stores.threads.lookup "u" =
      some (.intact { Thread.blank "u" with activeGoal := some "party" }) := AList.lookup_insert _
  obtain rfl := JsonFile.intact.inj (Option.some.inj (hfound.symm.trans hthread))
  rfl

end Liz
