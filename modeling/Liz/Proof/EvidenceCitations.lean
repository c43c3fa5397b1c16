import Liz.Proof.SearchCoherence

/-!
# Whose evidence is opened

A request for evidence names a thread and up to three targets. The turn is looked up in the log of
that thread, the fact and the artifact under their own ids, whichever thread they are of. What is
found is shown under the title of the thread of the request.
-/

namespace Liz

open Program

/-! ### What is on record -/

def JsonFile.value? {α : Type} : JsonFile α → Option α
  | .intact value => some value
  | .corrupt _ => none

/-- What is read of a file is what it holds. -/
theorem value_of_readOutcome {α : Type} {fault : Option Fault} {file : Option (JsonFile α)}
    {value : Option α} (h : readOutcome fault file = .ok value) :
    value = file.bind JsonFile.value? := by
  cases fault with
  | some fault => cases h
  | none =>
      rcases file with _ | ⟨held⟩ | message
      · exact (Except.ok.inj h).symm
      · exact (Except.ok.inj h).symm
      · cases h

namespace RuntimeStores

variable (stores : RuntimeStores)

def threadOnRecord (threadId : ThreadId) : Option Thread :=
  (stores.threads.lookup threadId).bind JsonFile.value?

def artifactOnRecord (artifactId : ArtifactId) : Option StoredArtifact :=
  (stores.artifacts.lookup artifactId).bind JsonFile.value?

/-- The first fact with the id. -/
def factOnRecord (factId : MemoryFactId) : Option StoredMemoryFact :=
  (storedMemory stores).bind fun snapshot => snapshot.facts.find? fun fact => fact.id = factId

def summaryOnRecord (threadId : ThreadId) (turnId : TurnId) : Option String :=
  turnSummary (stores.turnLog threadId).entries turnId

/-- The view of these stores that answers the request. -/
def evidence (request : MemoryOpenEvidenceRequest) (thread : Thread) : MemoryEvidenceView :=
  let summary := request.turnId.bind (stores.summaryOnRecord request.threadId)
  let fact := request.factId.bind stores.factOnRecord
  let artifact := request.artifactId.bind stores.artifactOnRecord
  { citation := evidenceCitation thread request.turnId request.artifactId summary fact artifact
    threadTitle := some thread.title
    turnSummary := summary
    factId := fact.map StoredMemoryFact.id
    factKind := fact.map StoredMemoryFact.kind
    factValue := fact.map StoredMemoryFact.value
    artifact := artifact.map StoredArtifact.reference
    artifactBody := artifact.map StoredArtifact.body }

variable {stores} {threadId : ThreadId}

theorem hasArtifact_iff {artifactId : ArtifactId} :
    stores.HasArtifact threadId artifactId ↔ ∃ artifact,
      stores.artifactOnRecord artifactId = some artifact ∧
        artifact.reference.threadId = threadId := by
  have hheld : ∀ artifact, stores.artifactOnRecord artifactId = some artifact ↔
      stores.artifacts.lookup artifactId = some (.intact artifact) := by
    intro artifact
    rw [artifactOnRecord]
    rcases stores.artifacts.lookup artifactId with _ | ⟨held⟩ | message <;> simp [JsonFile.value?]
  simp only [HasArtifact, hheld]

/-- A turn with a summary is one that the log of the thread tells of. -/
theorem entry_of_summaryOnRecord {turnId : TurnId} {summary : String}
    (h : stores.summaryOnRecord threadId turnId = some summary) :
    ∃ entry ∈ (stores.turnLog threadId).entries,
      entry.turnId = some turnId ∧ entry.summary = summary := by
  obtain ⟨entry, hfind, rfl⟩ := Option.map_eq_some_iff.mp h
  exact ⟨entry, List.mem_of_find?_eq_some hfind, by simpa using List.find?_some hfind, rfl⟩

theorem id_of_factOnRecord {factId : MemoryFactId} {fact : StoredMemoryFact}
    (h : stores.factOnRecord factId = some fact) : fact.id = factId := by
  obtain ⟨snapshot, -, hfind⟩ := Option.bind_eq_some_iff.mp h
  simpa using List.find?_some hfind

end RuntimeStores

/-- Evidence that is opened shows what is on record for the request. -/
theorem openMemoryEvidence_shows [Disk] (request : MemoryOpenEvidenceRequest)
    (runtime : TurnRuntime) :
    wp (openMemoryEvidence request)
      (fun view _ => ∃ thread, runtime.stores.threadOnRecord request.threadId = some thread ∧
        view = runtime.stores.evidence request thread)
      (fun _ _ => True) runtime := by
  obtain ⟨threadId, turnId, artifactId, factId⟩ := request
  unfold openMemoryEvidence openEvidence
  dsimp only
  by_cases hnone : (turnId.isNone && artifactId.isNone && factId.isNone) = true
  · rw [if_pos hnone, wp_bind, wp_throw]
    trivial
  rw [if_neg hnone, wp_bind, wp_requireThread]
  refine ⟨fun thread hfound => ?_, fun _ _ => trivial⟩
  have hthread : runtime.stores.threadOnRecord threadId = some thread := by
    rw [RuntimeStores.threadOnRecord, lookup_of_foundThread hfound]
    rfl
  rw [wp_bind, wp_stored]
  refine wp_readGlobalMemory (fun snapshot hsnapshot => ?_) fun _ => trivial
  replace hsnapshot : storedMemory runtime.stores = some snapshot := hsnapshot
  rw [wp_bind, wp_stored, wp_readLog]
  refine ⟨fun entries hentries => ?_, fun _ _ => trivial⟩
  have hlog := entries_of_read (read_of_readLog hentries)
  replace hlog : (runtime.stores.turnLog threadId).entries = entries := hlog
  have hfact : runtime.stores.factOnRecord =
      fun id => snapshot.facts.find? fun fact => fact.id = id := by
    funext id
    rw [RuntimeStores.factOnRecord, hsnapshot, Option.bind_some]
  have hsummary : runtime.stores.summaryOnRecord threadId = turnSummary entries := by
    funext id
    rw [RuntimeStores.summaryOnRecord, hlog]
  unfold RuntimeStores.evidence
  rw [hfact, hsummary]
  cases artifactId with
  | none => exact ⟨thread, hthread, rfl⟩
  | some artifactId =>
      dsimp only
      rw [wp_bind, wp_stored, RuntimeStores.getArtifact, wp_readJson]
      refine ⟨fun artifact hartifact => ⟨thread, hthread, ?_⟩, fun _ _ => trivial⟩
      obtain rfl : artifact = runtime.stores.artifactOnRecord artifactId :=
        value_of_readOutcome hartifact
      rfl

/-! ### Whose it is -/

/-- The fact is of no thread but perhaps this one. -/
def StoredMemoryFact.OfNoOther (threadId : ThreadId) (fact : StoredMemoryFact) : Prop :=
  threadId ∈ fact.relatedThreadIds ∨ fact.relatedThreadIds = []

/-- The view cites the artifact it shows, and whatever it shows is there and is of the thread of the
request. With all three targets given and the artifact found, the fact is expressly of this thread. -/
structure MemoryEvidenceView.Truthful (stores : RuntimeStores) (request : MemoryOpenEvidenceRequest)
    (view : MemoryEvidenceView) : Prop where
  cited : ∀ artifact, view.artifact = some artifact →
    view.citation.threadId = artifact.threadId ∧ view.citation.turnId = some artifact.turnId ∧
      view.citation.artifactId = some artifact.id
  own : request.turnId.isSome → request.artifactId.isSome → request.factId.isSome →
    ∀ artifact, view.artifact = some artifact →
      artifact.threadId = request.threadId ∧
        (∀ summary, view.turnSummary = some summary →
          ∃ entry ∈ (stores.turnLog request.threadId).entries,
            entry.turnId = request.turnId ∧ entry.summary = summary) ∧
        (∀ factId, view.factId = some factId →
          ∃ fact, stores.factOnRecord factId = some fact ∧
            request.threadId ∈ fact.relatedThreadIds)
  turn : ∀ turnId, request.turnId = some turnId → view.turnSummary.isSome →
    stores.HasTurn request.threadId turnId
  artifact : ∀ artifactId, request.artifactId = some artifactId → view.artifact.isSome →
    stores.HasArtifact request.threadId artifactId
  fact : ∀ factId, request.factId = some factId → view.factId.isSome →
    ∃ fact, stores.factOnRecord factId = some fact ∧ fact.OfNoOther request.threadId

/-- All three targets are given, and the artifact is on record. -/
def MemoryOpenEvidenceRequest.Complete (stores : RuntimeStores)
    (request : MemoryOpenEvidenceRequest) : Prop :=
  request.turnId.isSome ∧ request.factId.isSome ∧
    (request.artifactId.bind stores.artifactOnRecord).isSome

/-- What is stored under the ids of the request is of its thread, in a record that has its own id. -/
structure MemoryOpenEvidenceRequest.KeepsToThread (stores : RuntimeStores)
    (request : MemoryOpenEvidenceRequest) : Prop where
  artifact : ∀ artifact, request.artifactId.bind stores.artifactOnRecord = some artifact →
    artifact.reference.threadId = request.threadId ∧
      (stores.threadOnRecord request.threadId).map Thread.id = some request.threadId
  fact : ∀ fact, request.factId.bind stores.factOnRecord = some fact →
    request.threadId ∈ fact.relatedThreadIds ∨
      (fact.relatedThreadIds = [] ∧ ¬ request.Complete stores)

namespace RuntimeStores

variable {stores : RuntimeStores} {request : MemoryOpenEvidenceRequest} {thread : Thread}

theorem evidence_artifact : (stores.evidence request thread).artifact =
    (request.artifactId.bind stores.artifactOnRecord).map StoredArtifact.reference := rfl

theorem evidence_factId : (stores.evidence request thread).factId =
    (request.factId.bind stores.factOnRecord).map StoredMemoryFact.id := rfl

theorem evidence_turnSummary : (stores.evidence request thread).turnSummary =
    request.turnId.bind (stores.summaryOnRecord request.threadId) := rfl

/-- An artifact that is found is cited under the thread of the request. -/
theorem evidence_citation {artifact : StoredArtifact}
    (h : request.artifactId.bind stores.artifactOnRecord = some artifact) :
    (stores.evidence request thread).citation =
      { threadId := thread.id
        turnId := some artifact.reference.turnId
        artifactId := some artifact.reference.id
        note := artifact.reference.summary } := by
  unfold evidence
  rw [h]
  rfl

/-- A summary that is shown is one from the log of the thread. -/
theorem entry_of_turnSummary {summary : String}
    (h : (stores.evidence request thread).turnSummary = some summary) :
    ∃ entry ∈ (stores.turnLog request.threadId).entries,
      entry.turnId = request.turnId ∧ entry.summary = summary := by
  rw [evidence_turnSummary] at h
  obtain ⟨turnId, hturn, hsummary⟩ := Option.bind_eq_some_iff.mp h
  rw [hturn]
  exact entry_of_summaryOnRecord hsummary

/-- A fact that is shown is the one on record under the id of the request. -/
theorem fact_of_factId {factId : MemoryFactId}
    (h : (stores.evidence request thread).factId = some factId) :
    ∃ fact, request.factId = some factId ∧ stores.factOnRecord factId = some fact := by
  rw [evidence_factId] at h
  obtain ⟨fact, hfound, rfl⟩ := Option.map_eq_some_iff.mp h
  obtain ⟨asked, hasked, hfound⟩ := Option.bind_eq_some_iff.mp hfound
  obtain rfl := id_of_factOnRecord hfound
  exact ⟨fact, hasked, hfound⟩

/-- Evidence that keeps to the thread is told truthfully. -/
theorem evidence_truthful (hthread : stores.threadOnRecord request.threadId = some thread)
    (h : request.KeepsToThread stores) :
    (stores.evidence request thread).Truthful stores request := by
  have hartifact : ∀ {reference : ArtifactRef},
      (stores.evidence request thread).artifact = some reference →
      ∃ artifact, request.artifactId.bind stores.artifactOnRecord = some artifact ∧
        artifact.reference = reference := by
    intro reference hshown
    rw [evidence_artifact] at hshown
    exact Option.map_eq_some_iff.mp hshown
  constructor
  case cited =>
    intro reference hshown
    obtain ⟨artifact, hfound, rfl⟩ := hartifact hshown
    obtain ⟨howner, hid⟩ := h.artifact artifact hfound
    rw [hthread, Option.map_some] at hid
    rw [evidence_citation hfound, howner]
    exact ⟨Option.some.inj hid, rfl, rfl⟩
  case own =>
    intro hturn _ hfact reference hshown
    obtain ⟨artifact, hfound, rfl⟩ := hartifact hshown
    refine ⟨(h.artifact artifact hfound).1, fun summary => entry_of_turnSummary,
      fun factId hshown => ?_⟩
    obtain ⟨fact, hasked, hrecord⟩ := fact_of_factId hshown
    refine ⟨fact, hrecord, ?_⟩
    rcases h.fact fact (by rw [hasked, Option.bind_some, hrecord]) with hown | ⟨-, hpartial⟩
    · exact hown
    · exact absurd ⟨hturn, hfact, by rw [hfound, Option.isSome_some]⟩ hpartial
  case turn =>
    intro turnId hasked hshown
    obtain ⟨summary, hsummary⟩ := Option.isSome_iff_exists.mp hshown
    obtain ⟨entry, hentry, hturn, -⟩ := entry_of_turnSummary hsummary
    exact ⟨entry, hentry, hturn.trans hasked⟩
  case artifact =>
    intro artifactId hasked hshown
    obtain ⟨reference, hshown⟩ := Option.isSome_iff_exists.mp hshown
    obtain ⟨artifact, hfound, -⟩ := hartifact hshown
    refine hasArtifact_iff.mpr ⟨artifact, ?_, (h.artifact artifact hfound).1⟩
    rwa [hasked, Option.bind_some] at hfound
  case fact =>
    intro factId hasked hshown
    obtain ⟨shownId, hshown⟩ := Option.isSome_iff_exists.mp hshown
    obtain ⟨fact, hshownAsked, hrecord⟩ := fact_of_factId hshown
    obtain rfl : factId = shownId := Option.some.inj (hasked.symm.trans hshownAsked)
    refine ⟨fact, hrecord, ?_⟩
    rcases h.fact fact (by rw [hasked, Option.bind_some, hrecord]) with hown | ⟨hnone, -⟩
    · exact Or.inl hown
    · exact Or.inr hnone

/-- Evidence that is told truthfully keeps to the thread. -/
theorem keepsToThread_of_truthful (hthread : stores.threadOnRecord request.threadId = some thread)
    (h : (stores.evidence request thread).Truthful stores request) :
    request.KeepsToThread stores := by
  have hartifact : ∀ artifact, request.artifactId.bind stores.artifactOnRecord = some artifact →
      artifact.reference.threadId = request.threadId := by
    intro artifact hfound
    obtain ⟨artifactId, hasked, hrecord⟩ := Option.bind_eq_some_iff.mp hfound
    obtain ⟨owned, howned, howner⟩ := hasArtifact_iff.mp (h.artifact artifactId hasked
      (by rw [evidence_artifact, hfound, Option.map_some, Option.isSome_some]))
    obtain rfl : artifact = owned := Option.some.inj (hrecord.symm.trans howned)
    exact howner
  constructor
  case artifact =>
    intro artifact hfound
    have hcited := (h.cited artifact.reference
      (by rw [evidence_artifact, hfound, Option.map_some])).1
    rw [evidence_citation hfound] at hcited
    dsimp only at hcited
    refine ⟨hartifact artifact hfound, ?_⟩
    rw [hthread, Option.map_some, hcited, hartifact artifact hfound]
  case fact =>
    intro fact hfound
    obtain ⟨factId, hasked, hrecord⟩ := Option.bind_eq_some_iff.mp hfound
    have hshown : (stores.evidence request thread).factId = some factId := by
      rw [evidence_factId, hfound, Option.map_some, id_of_factOnRecord hrecord]
    by_cases hcomplete : request.Complete stores
    · obtain ⟨hturn, hfact, hsome⟩ := hcomplete
      obtain ⟨artifact, hartifact⟩ := Option.isSome_iff_exists.mp hsome
      have hgiven : request.artifactId.isSome := by
        obtain ⟨artifactId, hasked, -⟩ := Option.bind_eq_some_iff.mp hartifact
        rw [hasked, Option.isSome_some]
      obtain ⟨owned, howned, hrelated⟩ := (h.own hturn hgiven hfact artifact.reference
        (by rw [evidence_artifact, hartifact, Option.map_some])).2.2 factId hshown
      obtain rfl : fact = owned := Option.some.inj (hrecord.symm.trans howned)
      exact Or.inl hrelated
    · obtain ⟨owned, howned, hother⟩ := h.fact factId hasked (by rw [hshown, Option.isSome_some])
      obtain rfl : fact = owned := Option.some.inj (hrecord.symm.trans howned)
      exact hother.imp_right fun hnone => ⟨hnone, hcomplete⟩

end RuntimeStores

/-- What a client sees that opens a coherent hit as evidence. -/
theorem openEvidence_shows [Disk] {runtime : TurnRuntime} {facts : List StoredMemoryFact}
    {hit : MemorySearchHit} {threadId : ThreadId} (h : hit.Coherent runtime.stores facts threadId)
    {snapshot : GlobalMemorySnapshot} (hsnapshot : storedMemory runtime.stores = some snapshot)
    (hfacts : snapshot.facts = facts) :
    wp (openEvidence threadId hit.turnId hit.artifactId hit.factId)
      (fun view _ => (hit.turnId.isSome → view.turnSummary.isSome) ∧ view.factId = hit.factId ∧
        ∀ artifactId, hit.artifactId = some artifactId →
          ∃ artifact, view.artifact = some artifact ∧ artifact.threadId = threadId)
      (fun _ _ => True) runtime := by
  refine wp_mono (openMemoryEvidence_shows ⟨threadId, hit.turnId, hit.artifactId, hit.factId⟩ runtime)
    ?_ fun _ _ h => h
  rintro view _ ⟨thread, -, rfl⟩
  refine ⟨fun hsome => ?_, ?_, fun artifactId hasked => ?_⟩
  · obtain ⟨turnId, hasked⟩ := Option.isSome_iff_exists.mp hsome
    obtain ⟨entry, hentry, htold⟩ := h.turn turnId hasked
    rw [RuntimeStores.evidence_turnSummary, hasked, Option.bind_some, RuntimeStores.summaryOnRecord,
      turnSummary, Option.isSome_map, List.find?_isSome]
    exact ⟨entry, hentry, by simpa using htold⟩
  · rw [RuntimeStores.evidence_factId]
    cases hasked : hit.factId with
    | none => rfl
    | some factId =>
        obtain ⟨fact, hmem, hid, -⟩ := h.fact factId hasked
        have hrecord : (runtime.stores.factOnRecord factId).isSome := by
          rw [RuntimeStores.factOnRecord, hsnapshot, Option.bind_some, List.find?_isSome, hfacts]
          exact ⟨fact, hmem, by simpa using hid⟩
        obtain ⟨found, hfound⟩ := Option.isSome_iff_exists.mp hrecord
        rw [Option.bind_some, hfound, Option.map_some, RuntimeStores.id_of_factOnRecord hfound]
  · obtain ⟨artifact, hfound, hthread⟩ :=
      RuntimeStores.hasArtifact_iff.mp (h.artifact artifactId hasked)
    refine ⟨artifact.reference, ?_, hthread⟩
    rw [RuntimeStores.evidence_artifact, hasked, Option.bind_some, hfound, Option.map_some]

/-- Evidence that is opened is told truthfully if and only if the artifact and the fact that are
stored under the ids of the request keep to its thread. -/
theorem openMemoryEvidence_truthful_iff [Disk] (request : MemoryOpenEvidenceRequest)
    (runtime : TurnRuntime) :
    wp (openMemoryEvidence request)
      (fun view _ => view.Truthful runtime.stores request ↔ request.KeepsToThread runtime.stores)
      (fun _ _ => True) runtime := by
  refine wp_mono (openMemoryEvidence_shows request runtime) ?_ fun _ _ h => h
  rintro view _ ⟨thread, hthread, rfl⟩
  exact ⟨RuntimeStores.keepsToThread_of_truthful hthread, RuntimeStores.evidence_truthful hthread⟩

/-- Two threads, the second of which has an artifact. -/
def twoThreadStores : RuntimeStores :=
  { RuntimeStores.blank with
    threads := (AList.singleton "a" (.intact (Thread.blank "a"))).insert "b"
      (.intact (Thread.blank "b"))
    artifacts := AList.singleton "x" (.intact
      { reference :=
          { id := "x", threadId := "b", turnId := "u", kind := .diff, nodeId := none,
            workspaceMountId := none, summary := "diff", locator := "x", createdAt := "" }
        body := "" }) }

/-- The artifact of the second thread is opened as evidence of the first. -/
theorem foreign_artifact_opened :
    ¬ ∀ (_ : Disk) (request : MemoryOpenEvidenceRequest) (runtime : TurnRuntime),
      wp (openMemoryEvidence request) (fun view _ => view.Truthful runtime.stores request)
        (fun _ _ => True) runtime := by
  intro h
  have htold := h calmDisk { threadId := "a", turnId := none, artifactId := some "x", factId := none }
    { TurnRuntime.fresh with stores := twoThreadStores }
  obtain ⟨view, t, hrun, hshown, hcited⟩ : ∃ view t,
      @openMemoryEvidence calmDisk
        { threadId := "a", turnId := none, artifactId := some "x", factId := none }
        { TurnRuntime.fresh with stores := twoThreadStores } = .ok view t ∧
        view.artifact.map ArtifactRef.threadId = some "b" ∧ view.citation.threadId = "a" :=
    exists_ok_of_wp (by decide +kernel)
  obtain ⟨artifact, hartifact, howner⟩ := Option.map_eq_some_iff.mp hshown
  have hsame := (((wp_iff_of_ok hrun).mp htold).cited artifact hartifact).1
  rw [hcited, howner] at hsame
  exact absurd hsame (by decide)

end Liz
