import Liz.Proof.FiledRecords
import Liz.Proof.TopicIndex

/-!
# The thread behind a fact and a topic

A pass writes from the log of one thread, and what it writes cites that thread alone. A fact belongs
to the thread of the pass that wrote or refreshed it last. A topic belongs to one thread as long as
no pass over another thread names it, nor refreshes a fact it cites; where one does, its four lists
are merged each for itself, and nothing holds their first elements together any more.
-/

namespace Liz

open Program

/-! ### Owners -/

/-- The citation tells of this thread. -/
structure RuntimeStores.Cites (stores : RuntimeStores) (threadId : ThreadId)
    (citation : MemoryCitationRef) : Prop where
  turn : ∀ turnId, citation.turnId = some turnId → stores.HasTurn threadId turnId
  artifact : ∀ artifactId, citation.artifactId = some artifactId →
    stores.HasArtifact threadId artifactId

/-- The fact is about this one thread and cites nothing else. -/
structure StoredMemoryFact.BelongsTo (stores : RuntimeStores) (threadId : ThreadId)
    (fact : StoredMemoryFact) : Prop where
  thread : fact.relatedThreadIds = [threadId]
  stored : threadId ∈ stores.threads
  citations : ∀ citation ∈ fact.citations, stores.Cites threadId citation

/-- The topic is one of this thread alone: its citations, its artifacts and its facts are. -/
structure StoredTopicRecord.BelongsTo (stores : RuntimeStores) (facts : List StoredMemoryFact)
    (threadId : ThreadId) (topic : StoredTopicRecord) : Prop where
  thread : topic.relatedThreadIds = [threadId]
  stored : threadId ∈ stores.threads
  citations : ∀ citation ∈ topic.citations, stores.Cites threadId citation
  artifacts : ∀ artifactId ∈ topic.relatedArtifactIds, stores.HasArtifact threadId artifactId
  facts : ∀ id ∈ topic.citationFactIds, ∃ fact ∈ facts,
    fact.id = id ∧ fact.relatedThreadIds = [threadId]

/-- Every fact belongs to some thread. -/
def FactsOwned (stores : RuntimeStores) (facts : List StoredMemoryFact) : Prop :=
  ∀ fact ∈ facts, ∃ threadId, fact.BelongsTo stores threadId

/-- Every topic belongs to some thread. -/
def TopicsOwned (stores : RuntimeStores) (facts : List StoredMemoryFact)
    (topics : List StoredTopicRecord) : Prop :=
  ∀ topic ∈ topics, ∃ threadId, topic.BelongsTo stores facts threadId

section Mono

variable {stores others : RuntimeStores} (h : stores.Within others) {threadId : ThreadId}

include h

theorem RuntimeStores.Within.cites {citation : MemoryCitationRef}
    (hcites : stores.Cites threadId citation) : others.Cites threadId citation :=
  ⟨fun turnId hid => h.turns threadId turnId (hcites.turn turnId hid),
    fun artifactId hid => h.artifacts threadId artifactId (hcites.artifact artifactId hid)⟩

theorem RuntimeStores.Within.factsOwned {facts : List StoredMemoryFact}
    (hfacts : FactsOwned stores facts) : FactsOwned others facts := by
  intro fact hfact
  obtain ⟨threadId, hbelongs⟩ := hfacts fact hfact
  exact ⟨threadId, hbelongs.thread, h.threads threadId hbelongs.stored,
    fun citation hcitation => h.cites (hbelongs.citations citation hcitation)⟩

theorem RuntimeStores.Within.topicsOwned {facts : List StoredMemoryFact}
    {topics : List StoredTopicRecord} (htopics : TopicsOwned stores facts topics) :
    TopicsOwned others facts topics := by
  intro topic htopic
  obtain ⟨threadId, hbelongs⟩ := htopics topic htopic
  exact ⟨threadId, hbelongs.thread, h.threads threadId hbelongs.stored,
    fun citation hcitation => h.cites (hbelongs.citations citation hcitation),
    fun artifactId hid => h.artifacts threadId artifactId (hbelongs.artifacts artifactId hid),
    hbelongs.facts⟩

end Mono

/-! ### What a pass writes -/

section Pass

variable [Clock] [Unicode] (pass : CompilationPass)

omit [Clock] in
/-- Every write of a pass is about its thread, with the citations of the pass. -/
theorem CompilationPass.own_of_mem_allSpecs {spec : FactSpec} (h : spec ∈ pass.allSpecs) :
    spec.relatedThreadIds = [pass.thread.id] ∧ spec.citations = pass.citations := by
  simp only [allSpecs, earlySpecs, middleSpecs, activeStateSpecs, goalSpecs, commitmentSpecs,
    identitySpecs, durableSpecs, procedureSpecs, List.mem_append, List.mem_map] at h
  rcases h with ((⟨_, -, rfl⟩ | ⟨_, -, rfl⟩) | ⟨_, -, rfl⟩ | ⟨_, -, rfl⟩ | ⟨_, -, rfl⟩) | ⟨_, -, rfl⟩
  all_goals exact ⟨rfl, rfl⟩

omit [Clock] in
/-- The pass says of a live fact what it says already. -/
def CompilationPass.refreshes (fact : StoredMemoryFact) : Bool :=
  fact.live && pass.allSpecs.any fun spec => fact.subject = spec.subject && spec.same fact

/-- The fact is about the thread of the pass, with the citations of the pass. -/
def CompilationPass.Wrote (fact : StoredMemoryFact) : Prop :=
  fact.relatedThreadIds = [pass.thread.id] ∧ fact.citations = pass.citations

/-- How a pass changes a fact that was stored. -/
structure CompilationPass.Rewrites (fact later : StoredMemoryFact) : Prop where
  id : later.id = fact.id
  subject : later.subject = fact.subject
  kind : later.kind = fact.kind
  value : later.value = fact.value
  live : later.live = true → fact.live = true
  owner : (later.relatedThreadIds = fact.relatedThreadIds ∧ later.citations = fact.citations) ∨
    (pass.refreshes fact = true ∧ pass.Wrote later)

namespace CompilationPass

variable {pass}

omit [Clock] in
theorem Rewrites.refl (fact : StoredMemoryFact) : pass.Rewrites fact fact :=
  ⟨rfl, rfl, rfl, rfl, fun h => h, .inl ⟨rfl, rfl⟩⟩

omit [Clock] in
theorem Rewrites.refreshes {fact later : StoredMemoryFact} (h : pass.Rewrites fact later)
    (hlater : pass.refreshes later = true) : pass.refreshes fact = true := by
  simp only [CompilationPass.refreshes, FactSpec.same, Bool.and_eq_true, h.subject, h.kind,
    h.value] at hlater ⊢
  exact ⟨h.live hlater.1, hlater.2⟩

omit [Clock] in
theorem Rewrites.trans (fact middle later : StoredMemoryFact) (h : pass.Rewrites fact middle)
    (h' : pass.Rewrites middle later) : pass.Rewrites fact later := by
  refine ⟨h'.id.trans h.id, h'.subject.trans h.subject, h'.kind.trans h.kind,
    h'.value.trans h.value, fun hlive => h.live (h'.live hlive), ?_⟩
  rcases h'.owner with ⟨hthreads, hcitations⟩ | ⟨hrefreshes, hwrote⟩
  · rw [hthreads, hcitations]
    rcases h.owner with hsame | ⟨hrefreshes, hwrote⟩
    · exact .inl hsame
    · exact .inr ⟨hrefreshes, hthreads.trans hwrote.1, hcitations.trans hwrote.2⟩
  · exact .inr ⟨h.refreshes hrefreshes, hwrote⟩

omit [Clock] in
theorem Rewrites.wrote {fact later : StoredMemoryFact} (h : pass.Rewrites fact later)
    (hwrote : pass.Wrote fact) : pass.Wrote later := by
  rcases h.owner with ⟨hthreads, hcitations⟩ | ⟨-, hlater⟩
  · exact ⟨hthreads.trans hwrote.1, hcitations.trans hwrote.2⟩
  · exact hlater

/-- What the pass has appended is its own, and so are the facts it reports as updated. -/
structure Writes (pass : CompilationPass) (draft later : FactDraft) : Prop where
  facts : ∃ appended, Records.GrownBy pass.Rewrites appended draft.facts later.facts ∧
    ∀ fact ∈ appended, pass.Wrote fact
  reports : ∀ id ∈ later.updatedFactIds, id ∈ draft.updatedFactIds ∨
    ∃ fact ∈ later.facts, fact.id = id ∧ pass.Wrote fact

namespace Writes

variable {draft middle later : FactDraft}

omit [Clock] in
/-- A fact of the pass stays one. -/
theorem exists_wrote (h : Writes pass draft later) {id : MemoryFactId}
    (hid : ∃ fact ∈ draft.facts, fact.id = id ∧ pass.Wrote fact) :
    ∃ fact ∈ later.facts, fact.id = id ∧ pass.Wrote fact := by
  obtain ⟨appended, ⟨changed, hchanged, hlater⟩, -⟩ := h.facts
  obtain ⟨fact, hfact, rfl, hwrote⟩ := hid
  obtain ⟨fact', hfact', hrewrites⟩ := Records.exists_after hchanged hfact
  rw [hlater]
  exact ⟨fact', List.mem_append_left _ hfact', hrewrites.id, hrewrites.wrote hwrote⟩

omit [Clock] in
theorem refl (draft : FactDraft) : Writes pass draft draft :=
  ⟨⟨[], .of_changed (List.forall₂_same.mpr fun fact _ => .refl fact),
    fun _ h => absurd h List.not_mem_nil⟩, fun _ h => .inl h⟩

omit [Clock] in
theorem trans (h : Writes pass draft middle) (h' : Writes pass middle later) :
    Writes pass draft later := by
  constructor
  · obtain ⟨first, hfirst, hwrote⟩ := h.facts
    obtain ⟨second, hsecond, hwrote'⟩ := h'.facts
    obtain ⟨kept, hkept, hgrown⟩ := hfirst.trans Rewrites.trans hsecond
    refine ⟨kept ++ second, hgrown, fun fact hfact => ?_⟩
    rcases List.mem_append.mp hfact with hmem | hmem
    · obtain ⟨old, hold, hrewrites⟩ := Records.exists_before hkept hmem
      exact hrewrites.wrote (hwrote old hold)
    · exact hwrote' fact hmem
  · intro id hid
    rcases h'.reports id hid with hmiddle | hlater
    · rcases h.reports id hmiddle with hdraft | hwrote
      · exact .inl hdraft
      · exact .inr (h'.exists_wrote hwrote)
    · exact .inr hlater

end Writes

/-- A write of the pass. -/
theorem upsertFact_writes {spec : FactSpec} (h : spec ∈ pass.allSpecs) (draft : FactDraft) :
    Writes pass draft (upsertFact spec draft) := by
  obtain ⟨hthreads, hcitations⟩ := pass.own_of_mem_allSpecs h
  have hstored : ∀ id, pass.Wrote (spec.stored id) := fun _ => ⟨hthreads, hcitations⟩
  have happended : ∀ id, ∀ fact ∈ [spec.stored id], pass.Wrote fact := by
    intro id fact hfact
    rw [List.mem_singleton.mp hfact]
    exact hstored id
  have hreported : ∀ (reported : List MemoryFactId) (facts : List StoredMemoryFact) (id : MemoryFactId),
      (∃ fact ∈ facts, fact.id = id ∧ pass.Wrote fact) → ∀ other ∈ reported ++ [id],
        other ∈ reported ∨ ∃ fact ∈ facts, fact.id = other ∧ pass.Wrote fact := by
    intro reported facts id hid other hother
    rcases List.mem_append.mp hother with hold | hnew
    · exact .inl hold
    · rw [List.mem_singleton.mp hnew]
      exact .inr hid
  have hnew : ∀ (facts : List StoredMemoryFact) id, ∃ fact ∈ facts ++ [spec.stored id],
      fact.id = id ∧ pass.Wrote fact := fun facts id =>
    ⟨spec.stored id, List.mem_append_right _ (List.mem_singleton_self _), rfl, hstored id⟩
  unfold upsertFact
  cases hfind : draft.facts.find? (StoredMemoryFact.liveAt spec.subject) with
  | none =>
      exact ⟨⟨_, ⟨_, List.forall₂_same.mpr fun fact _ => .refl fact, rfl⟩, happended _⟩,
        hreported _ _ _ (hnew _ _)⟩
  | some existing =>
      dsimp only
      split
      next hsame =>
        have hrefreshed : pass.Wrote (spec.refresh existing) := ⟨hthreads, hcitations⟩
        have hrefreshes : pass.refreshes existing = true := by
          obtain ⟨hsubject, hlive⟩ := StoredMemoryFact.liveAt_iff.mp (List.find?_some hfind)
          rw [CompilationPass.refreshes, hlive, Bool.true_and, List.any_eq_true]
          exact ⟨spec, h, by simp [hsubject, hsame]⟩
        refine ⟨⟨[], .of_changed (Records.forall₂_modifyFirst .refl fun fact hfound => ?_),
          fun _ hfact => absurd hfact List.not_mem_nil⟩, hreported _ _ _ ?_⟩
        · rw [hfind] at hfound
          obtain rfl := Option.some.inj hfound
          exact ⟨rfl, rfl, rfl, rfl, fun hlive => hlive, .inr ⟨hrefreshes, hrefreshed⟩⟩
        · exact ⟨_, Records.mem_modifyFirst_of_find? hfind, rfl, hrefreshed⟩
      next hsame =>
        refine ⟨⟨_, ⟨_, Records.forall₂_modifyFirst .refl fun fact _ => ?_, rfl⟩, happended _⟩,
          hreported _ _ _ (hnew _ _)⟩
        refine ⟨rfl, rfl, rfl, rfl, fun hlive => ?_, .inl ⟨rfl, rfl⟩⟩
        rw [StoredMemoryFact.live_superseded] at hlive
        exact absurd hlive Bool.false_ne_true

theorem upsertFacts_writes {specs : List FactSpec} (h : ∀ spec ∈ specs, spec ∈ pass.allSpecs)
    (draft : FactDraft) : Writes pass draft (upsertFacts specs draft) := by
  induction specs generalizing draft with
  | nil => exact .refl draft
  | cons spec rest ih =>
      have hhead := upsertFact_writes (h spec List.mem_cons_self) draft
      exact hhead.trans (ih (fun other hother => h other (List.mem_cons_of_mem _ hother)) _)

theorem invalidateFacts_writes (doomed : StoredMemoryFact → Bool) (now : Timestamp)
    (draft : FactDraft) : Writes pass draft (invalidateFacts doomed now draft) := by
  refine ⟨⟨[], .of_changed (forall₂_invalidateWhere .refl (fun fact id _ => ?_) _ _),
    fun _ h => absurd h List.not_mem_nil⟩, fun _ h => .inl h⟩
  refine ⟨rfl, rfl, rfl, rfl, fun hlive => ?_, .inl ⟨rfl, rfl⟩⟩
  rw [StoredMemoryFact.live_superseded] at hlive
  exact absurd hlive Bool.false_ne_true

variable (pass) in
theorem compileFacts_writes (draft : FactDraft) : Writes pass draft (pass.compileFacts draft) := by
  rw [pass.compileFacts_eq]
  have hmemEarly : ∀ spec ∈ pass.earlySpecs, spec ∈ pass.allSpecs :=
    fun _ h => List.mem_append_left _ (List.mem_append_left _ h)
  have hmemMiddle : ∀ spec ∈ pass.middleSpecs, spec ∈ pass.allSpecs :=
    fun _ h => List.mem_append_left _ (List.mem_append_right _ h)
  have hearly := upsertFacts_writes hmemEarly draft
  have hdropped := hearly.trans (invalidateFacts_writes pass.dropped pass.now _)
  have hmiddle := hdropped.trans (upsertFacts_writes hmemMiddle _)
  have hgivenUp := hmiddle.trans (invalidateFacts_writes pass.givenUp pass.now _)
  exact hgivenUp.trans (upsertFacts_writes (fun _ h => List.mem_append_right _ h) _)

end CompilationPass

/-! ### A pass over stored records -/

/-- The pass has read a stored thread and its log. -/
structure CompilationPass.ReadFrom (stores : RuntimeStores) : Prop where
  thread : pass.thread.id ∈ stores.threads
  citations : ∀ citation ∈ pass.citations, stores.Cites pass.thread.id citation
  artifacts : ∀ artifactId ∈ pass.relatedArtifactIds,
    stores.HasArtifact pass.thread.id artifactId

/-- The topic is named by the pass, or cites a fact that the pass refreshes. -/
def CompilationPass.Touches (facts : List StoredMemoryFact) (topic : StoredTopicRecord) : Prop :=
  (∃ name ∈ pass.delta.recentTopics, topic.isNamed name = true) ∨
    ∃ fact ∈ facts, fact.id ∈ topic.citationFactIds ∧ pass.refreshes fact = true

omit [Clock] in
/-- The topics that the pass touches are topics of its thread alone. -/
def CompilationPass.StaysApart (snapshot : GlobalMemorySnapshot) : Prop :=
  ∀ topic ∈ snapshot.topicIndex, pass.Touches snapshot.facts topic →
    topic.relatedThreadIds = [pass.thread.id]

instance (facts : List StoredMemoryFact) (topic : StoredTopicRecord) :
    Decidable (pass.Touches facts topic) :=
  inferInstanceAs (Decidable (_ ∨ _))

instance (snapshot : GlobalMemorySnapshot) : Decidable (pass.StaysApart snapshot) :=
  inferInstanceAs (Decidable (∀ topic ∈ snapshot.topicIndex,
    pass.Touches snapshot.facts topic → topic.relatedThreadIds = [pass.thread.id]))

namespace CompilationPass

variable {pass} {stores : RuntimeStores} {snapshot : GlobalMemorySnapshot} {ids : IdGenerator}

/-- The facts after a pass belong to threads, as those before it did. -/
theorem factsOwned_compileFacts (hread : pass.ReadFrom stores)
    (hfacts : FactsOwned stores snapshot.facts) :
    FactsOwned stores (pass.compileFacts (.start snapshot.facts ids)).facts := by
  obtain ⟨appended, ⟨changed, hchanged, hlater⟩, hwrote⟩ :=
    (pass.compileFacts_writes (.start snapshot.facts ids)).facts
  have hown : ∀ fact, pass.Wrote fact → fact.BelongsTo stores pass.thread.id := fun fact h =>
    ⟨h.1, hread.thread, h.2 ▸ hread.citations⟩
  intro fact hfact
  rw [hlater] at hfact
  rcases List.mem_append.mp hfact with hmem | hmem
  · obtain ⟨old, hold, hrewrites⟩ := Records.exists_before hchanged hmem
    rcases hrewrites.owner with ⟨hthreads, hcitations⟩ | ⟨-, howned⟩
    · obtain ⟨threadId, hbelongs⟩ := hfacts old hold
      exact ⟨threadId, hthreads.trans hbelongs.thread, hbelongs.stored,
        hcitations ▸ hbelongs.citations⟩
    · exact ⟨_, hown fact howned⟩
  · exact ⟨_, hown fact (hwrote fact hmem)⟩

/-- A topic that the pass does not take from another thread keeps its facts. -/
theorem topic_belongsTo_after (hapart : pass.StaysApart snapshot) {topic : StoredTopicRecord}
    (htopic : topic ∈ snapshot.topicIndex) {threadId : ThreadId}
    (hbelongs : topic.BelongsTo stores snapshot.facts threadId) :
    topic.BelongsTo stores (pass.compileFacts (.start snapshot.facts ids)).facts threadId := by
  obtain ⟨appended, ⟨changed, hchanged, hlater⟩, -⟩ :=
    (pass.compileFacts_writes (.start snapshot.facts ids)).facts
  refine { hbelongs with facts := fun id hid => ?_ }
  obtain ⟨fact, hfact, rfl, hthread⟩ := hbelongs.facts id hid
  obtain ⟨later, hmem, hrewrites⟩ := Records.exists_after hchanged hfact
  refine ⟨later, hlater ▸ List.mem_append_left _ hmem, hrewrites.id, ?_⟩
  rcases hrewrites.owner with ⟨hthreads, -⟩ | ⟨hrefreshes, hwrote⟩
  · exact hthreads.trans hthread
  · -- the pass refreshes a fact of the topic, so the topic is one of its thread
    have hsame := hapart topic htopic (.inr ⟨fact, hfact, hid, hrefreshes⟩)
    rw [hbelongs.thread] at hsame
    rw [hwrote.1, ← hsame]

omit [Clock] [Unicode] in
theorem mergeIntoVec_self (threadId : ThreadId) : mergeIntoVec [threadId] [threadId] = [threadId] := by
  simp [mergeIntoVec, sortedSet, List.eraseDups_cons]

variable {facts : List StoredMemoryFact} {topics : List StoredTopicRecord}
  {updatedFactIds : List MemoryFactId}

omit [Clock] [Unicode] in
/-- A topic of the thread of the pass is still one when it is brought up to date. -/
theorem refreshTopic_belongsTo (hread : pass.ReadFrom stores)
    (hupdated : ∀ id ∈ updatedFactIds, ∃ fact ∈ facts, fact.id = id ∧ pass.Wrote fact)
    {topic : StoredTopicRecord} (h : topic.BelongsTo stores facts pass.thread.id) (name : String) :
    (pass.refreshTopic updatedFactIds name topic).BelongsTo stores facts pass.thread.id := by
  constructor
  · show mergeIntoVec topic.relatedThreadIds [pass.thread.id] = [pass.thread.id]
    rw [h.thread, mergeIntoVec_self]
  · exact hread.thread
  · intro citation hcitation
    rcases mem_mergeIntoVec.mp hcitation with hold | hnew
    · exact h.citations citation hold
    · exact hread.citations citation hnew
  · intro artifactId hid
    rcases mem_mergeIntoVec.mp hid with hold | hnew
    · exact h.artifacts artifactId hold
    · exact hread.artifacts artifactId hnew
  · intro id hid
    rcases mem_mergeIntoVec.mp hid with hold | hnew
    · exact h.facts id hold
    · obtain ⟨fact, hfact, heq, hwrote⟩ := hupdated id hnew
      exact ⟨fact, hfact, heq, hwrote.1⟩

omit [Clock] [Unicode] in
theorem newTopic_belongsTo (hread : pass.ReadFrom stores)
    (hupdated : ∀ id ∈ updatedFactIds, ∃ fact ∈ facts, fact.id = id ∧ pass.Wrote fact)
    (name : String) : (pass.newTopic updatedFactIds name).BelongsTo stores facts pass.thread.id := by
  refine ⟨rfl, hread.thread, hread.citations, hread.artifacts, fun id hid => ?_⟩
  obtain ⟨fact, hfact, heq, hwrote⟩ := hupdated id hid
  exact ⟨fact, hfact, heq, hwrote.1⟩

/-- Every topic belongs to some thread, and those that the pass names to its own. -/
def TopicsApart (pass : CompilationPass) (stores : RuntimeStores) (facts : List StoredMemoryFact)
    (topics : List StoredTopicRecord) : Prop :=
  ∀ topic ∈ topics, ∃ threadId, topic.BelongsTo stores facts threadId ∧
    ∀ name ∈ pass.delta.recentTopics, topic.isNamed name = true → threadId = pass.thread.id

omit [Clock] [Unicode] in
theorem TopicsApart.syncTopic (h : pass.TopicsApart stores facts topics)
    (hread : pass.ReadFrom stores)
    (hupdated : ∀ id ∈ updatedFactIds, ∃ fact ∈ facts, fact.id = id ∧ pass.Wrote fact)
    {name : String} (hname : name ∈ pass.delta.recentTopics) :
    pass.TopicsApart stores facts (pass.syncTopic updatedFactIds name topics) := by
  unfold CompilationPass.syncTopic
  split
  · intro topic htopic
    rcases Records.mem_modifyFirst_cases htopic with hold | ⟨old, hold, rfl⟩
    · exact h topic hold
    · obtain ⟨threadId, hbelongs, hown⟩ := h old (List.mem_of_find?_eq_some hold)
      obtain rfl := hown name hname (List.find?_some hold)
      exact ⟨_, refreshTopic_belongsTo hread hupdated hbelongs name, fun _ _ _ => rfl⟩
  · intro topic htopic
    rcases List.mem_append.mp htopic with hold | hnew
    · exact h topic hold
    · rw [List.mem_singleton.mp hnew]
      exact ⟨_, newTopic_belongsTo hread hupdated name, fun _ _ _ => rfl⟩

omit [Clock] [Unicode] in
theorem TopicsApart.syncTopicIndex (h : pass.TopicsApart stores facts topics)
    (hread : pass.ReadFrom stores)
    (hupdated : ∀ id ∈ updatedFactIds, ∃ fact ∈ facts, fact.id = id ∧ pass.Wrote fact) :
    pass.TopicsApart stores facts (pass.syncTopicIndex updatedFactIds topics) := by
  have hnames : ∀ (names : List String) (topics : List StoredTopicRecord),
      (∀ name ∈ names, name ∈ pass.delta.recentTopics) → pass.TopicsApart stores facts topics →
      pass.TopicsApart stores facts
        (names.foldl (fun topics name => pass.syncTopic updatedFactIds name topics) topics) := by
    intro names
    induction names with
    | nil => exact fun _ _ h => h
    | cons name rest ih =>
        intro topics hnames h
        refine ih _ (fun other hother => hnames other (List.mem_cons_of_mem _ hother)) ?_
        exact h.syncTopic hread hupdated (hnames name List.mem_cons_self)
  exact hnames _ topics (fun _ h => h) h

/-- The topics after a pass that takes none from another thread. -/
theorem topicsOwned_snapshotAfter (hread : pass.ReadFrom stores) (hapart : pass.StaysApart snapshot)
    (htopics : TopicsOwned stores snapshot.facts snapshot.topicIndex) :
    TopicsOwned stores (pass.compileFacts (.start snapshot.facts ids)).facts
      (pass.syncTopicIndex (pass.compileFacts (.start snapshot.facts ids)).updatedFactIds
        snapshot.topicIndex) := by
  have hupdated : ∀ id ∈ (pass.compileFacts (.start snapshot.facts ids)).updatedFactIds,
      ∃ fact ∈ (pass.compileFacts (.start snapshot.facts ids)).facts,
        fact.id = id ∧ pass.Wrote fact := by
    intro id hid
    rcases (pass.compileFacts_writes (.start snapshot.facts ids)).reports id hid with hnone | hwrote
    · exact absurd hnone List.not_mem_nil
    · exact hwrote
  have hbefore : pass.TopicsApart stores (pass.compileFacts (.start snapshot.facts ids)).facts
      snapshot.topicIndex := by
    intro topic htopic
    obtain ⟨threadId, hbelongs⟩ := htopics topic htopic
    refine ⟨threadId, topic_belongsTo_after hapart htopic hbelongs, fun name hname hnamed => ?_⟩
    have hsame := hapart topic htopic (.inl ⟨name, hname, hnamed⟩)
    rw [hbelongs.thread] at hsame
    exact List.singleton_injective hsame
  intro topic htopic
  obtain ⟨threadId, hbelongs, -⟩ := hbefore.syncTopicIndex hread hupdated topic htopic
  exact ⟨threadId, hbelongs⟩

end CompilationPass

end Pass

end Liz
