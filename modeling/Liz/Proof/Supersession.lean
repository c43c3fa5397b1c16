import Liz.Base.Runs
import Liz.Proof.MemoryRuns

/-!
# Facts and the facts that supersede them

A write that supersedes a fact stores the fact it names. The two invalidations of a pass name a fact
as well, under an identifier that is drawn for it, and store none. So every reference to a
superseding fact is good in the runs whose passes have nothing to invalidate in this way.
-/

namespace Liz

/-- Every fact that names a superseding fact is invalidated, and the fact it names is another fact
of its subject. -/
def SupersessionIntact (facts : List StoredMemoryFact) : Prop :=
  ∀ fact ∈ facts, ∀ id ∈ fact.invalidatedBy, fact.live = false ∧
    id ≠ fact.id ∧ ∃ other ∈ facts, other.id = id ∧ other.subject = fact.subject

instance (facts : List StoredMemoryFact) : Decidable (SupersessionIntact facts) :=
  inferInstanceAs (Decidable (∀ fact ∈ facts, ∀ id ∈ fact.invalidatedBy, _ ∧ _ ∧ ∃ other ∈ facts, _))

/-- The references are good, and the generator has given out every identifier. -/
def LinksIssued (ids : IdGenerator) (facts : List StoredMemoryFact) : Prop :=
  SupersessionIntact facts ∧ ∀ fact ∈ facts, ids.Issued fact.id

theorem LinksIssued.mono (ids later : IdGenerator) (facts : List StoredMemoryFact)
    (hle : ids.sequence ≤ later.sequence) (h : LinksIssued ids facts) : LinksIssued later facts :=
  ⟨h.1, fun fact hfact => (h.2 fact hfact).mono hle⟩

/-- A record of a fact that keeps its identifier and its subject, and does not come back to life;
the fact it names is the one it named, or is among the new ones. -/
structure Carries (appended : List StoredMemoryFact) (fact later : StoredMemoryFact) : Prop where
  id : later.id = fact.id
  subject : later.subject = fact.subject
  live : fact.live = false → later.live = false
  successor : ∀ id, later.invalidatedBy = some id → fact.invalidatedBy = some id ∨
    (later.live = false ∧ id ≠ fact.id ∧ ∃ other ∈ appended, other.id = id ∧
      other.subject = fact.subject)

theorem Carries.refl (appended : List StoredMemoryFact) (fact : StoredMemoryFact) :
    Carries appended fact fact :=
  ⟨rfl, rfl, fun h => h, fun _ h => .inl h⟩

theorem LinksIssued.carried {ids later : IdGenerator} {facts changed appended : List StoredMemoryFact}
    (h : LinksIssued ids facts) (hle : ids.sequence ≤ later.sequence)
    (hchanged : List.Forall₂ (Carries appended) facts changed)
    (happended : ∀ fact ∈ appended, fact.invalidatedBy = none ∧ later.Issued fact.id) :
    LinksIssued later (changed ++ appended) := by
  refine ⟨fun fact hfact id hid => ?_, fun fact hfact => ?_⟩
  · rcases List.mem_append.mp hfact with hmem | hmem
    · obtain ⟨old, hold, hcarries⟩ := Records.exists_before hchanged hmem
      rw [hcarries.id, hcarries.subject]
      rcases hcarries.successor id hid with hsame | ⟨hlive, hne, other, hother, hlink⟩
      · obtain ⟨hlive, hne, other, hother, hid, hsubject⟩ := h.1 old hold id hsame
        obtain ⟨other', hother', hcarried⟩ := Records.exists_after hchanged hother
        exact ⟨hcarries.live hlive, hne, other', List.mem_append_left _ hother',
          hcarried.id.trans hid, hcarried.subject.trans hsubject⟩
      · exact ⟨hlive, hne, other, List.mem_append_right _ hother, hlink⟩
    · rw [(happended fact hmem).1] at hid
      exact absurd hid (by simp)
  · rcases List.mem_append.mp hfact with hmem | hmem
    · obtain ⟨old, hold, hcarries⟩ := Records.exists_before hchanged hmem
      exact hcarries.id ▸ (h.2 old hold).mono hle
    · exact (happended fact hmem).2

/-- A change that adds no record and names no fact. -/
theorem LinksIssued.changed {ids : IdGenerator} {facts changed : List StoredMemoryFact}
    (h : LinksIssued ids facts) (hchanged : List.Forall₂ (Carries []) facts changed) :
    LinksIssued ids changed := by
  have := h.carried le_rfl hchanged (by simp)
  rwa [List.append_nil] at this

section Writes

variable [Clock]

theorem upsertFact_linksIssued (spec : FactSpec) {draft : FactDraft}
    (h : LinksIssued draft.ids draft.facts) :
    LinksIssued (upsertFact spec draft).ids (upsertFact spec draft).facts := by
  have hissued := issued_nextValue draft.ids "fact"
  have happended : ∀ fact ∈ [spec.stored draft.ids.nextMemoryFactId.1],
      fact.invalidatedBy = none ∧ draft.ids.nextMemoryFactId.2.Issued fact.id := by
    simp only [List.mem_singleton, forall_eq]
    exact ⟨rfl, hissued⟩
  unfold upsertFact
  cases hfind : draft.facts.find? (StoredMemoryFact.liveAt spec.subject) with
  | none =>
      exact h.carried (Nat.le_succ _) (List.forall₂_same.mpr fun fact _ => .refl _ fact) happended
  | some existing =>
      by_cases hsame : spec.same existing
      · simp only [hsame, if_true]
        exact h.changed (Records.forall₂_modifyFirst (Carries.refl _)
          fun fact _ => ⟨rfl, rfl, fun hlive => hlive, fun _ hid => .inl hid⟩)
      · simp only [hsame, Bool.false_eq_true, if_false]
        refine h.carried (Nat.le_succ _) (Records.forall₂_modifyFirst (Carries.refl _)
          fun fact hfact => ?_) happended
        obtain ⟨hsubject, -⟩ := StoredMemoryFact.liveAt_iff.mp (List.find?_some hfact)
        refine ⟨rfl, rfl, fun _ => rfl, fun id hid => .inr ⟨rfl, ?_, ?_⟩⟩
        · -- the fact it names has just been drawn, the fact itself has not
          obtain rfl : draft.ids.nextMemoryFactId.1 = id := Option.some.inj hid
          intro hself
          have hold := h.2 fact (List.mem_of_find?_eq_some hfact)
          rw [← hself] at hold
          exact not_issued_nextValue draft.ids "fact" hold
        · obtain rfl : draft.ids.nextMemoryFactId.1 = id := Option.some.inj hid
          exact ⟨_, List.mem_singleton_self _, rfl, hsubject.symm⟩

theorem upsertFacts_linksIssued (specs : List FactSpec) {draft : FactDraft}
    (h : LinksIssued draft.ids draft.facts) :
    LinksIssued (upsertFacts specs draft).ids (upsertFacts specs draft).facts := by
  induction specs generalizing draft with
  | nil => exact h
  | cons spec rest ih => exact ih (upsertFact_linksIssued spec h)

end Writes

/-! ### Passes -/

section Passes

variable [Unicode]

/-- The pass drops no live commitment but the first fact of a subject that it writes anyway before
it looks at the commitments; and no subject that it gives up has a live fact or is written. -/
structure CompilationPass.KeepsLinks (pass : CompilationPass) (facts : List StoredMemoryFact) :
    Prop where
  dropped : ∀ fact ∈ facts, pass.dropped fact = true →
    (∃ spec ∈ pass.earlySpecs, spec.subject = fact.subject) ∧
      fact ∉ (factsAt facts fact.subject).tail
  candidates : ∀ subject ∈ candidateSubjects pass.delta.invalidationCandidates,
    factsAt facts subject = [] ∧
      ∀ spec ∈ pass.earlySpecs ++ pass.middleSpecs, spec.subject ≠ subject

instance (pass : CompilationPass) (facts : List StoredMemoryFact) :
    Decidable (pass.KeepsLinks facts) :=
  decidable_of_iff ((∀ fact ∈ facts, pass.dropped fact = true → _) ∧
      ∀ subject ∈ candidateSubjects pass.delta.invalidationCandidates, _)
    ⟨fun h => ⟨h.1, h.2⟩, fun h => ⟨h.dropped, h.candidates⟩⟩

variable [Clock]

theorem CompilationPass.compileFacts_linksIssued (pass : CompilationPass) {draft : FactDraft}
    (h : LinksIssued draft.ids draft.facts) (hkeeps : pass.KeepsLinks draft.facts) :
    LinksIssued (pass.compileFacts draft).ids (pass.compileFacts draft).facts := by
  rw [pass.compileFacts_eq]
  have hearly := upsertFacts_linksIssued pass.earlySpecs h
  have hdropped : ∀ fact ∈ (upsertFacts pass.earlySpecs draft).facts, pass.dropped fact = false := by
    intro fact hfact
    by_contra hdoomed
    rw [Bool.not_eq_false] at hdoomed
    have hparts := hdoomed
    simp only [CompilationPass.dropped, Bool.and_eq_true, decide_eq_true_eq] at hparts
    obtain ⟨hmem, htail⟩ := before_of_mem_upsertFacts
      (fun spec hspec _ => CompilationPass.kind_ne_of_mem_earlySpecs hspec)
      (mem_factsAt.mpr ⟨hfact, rfl, hparts.2⟩) hparts.1.1.1
    obtain ⟨hwritten, hfirst⟩ := hkeeps.dropped fact (mem_factsAt.mp hmem).1 hdoomed
    exact hfirst (htail hwritten)
  rw [invalidateFacts_of_none hdropped]
  have hmiddle := upsertFacts_linksIssued pass.middleSpecs hearly
  have hgivenUp : ∀ fact ∈ (upsertFacts pass.middleSpecs
      (upsertFacts pass.earlySpecs draft)).facts, pass.givenUp fact = false := by
    intro fact hfact
    by_contra hdoomed
    rw [Bool.not_eq_false] at hdoomed
    simp only [CompilationPass.givenUp, Bool.and_eq_true, List.contains_eq_mem,
      decide_eq_true_eq] at hdoomed
    obtain ⟨hnone, hwritten⟩ := hkeeps.candidates fact.subject hdoomed.2
    have hmem : fact ∈ factsAt (upsertFacts pass.middleSpecs
        (upsertFacts pass.earlySpecs draft)).facts fact.subject :=
      mem_factsAt.mpr ⟨hfact, rfl, hdoomed.1⟩
    rw [← upsertFacts_append, factsAt_upsertFacts_of_ne hwritten, hnone] at hmem
    exact absurd hmem List.not_mem_nil
  rw [invalidateFacts_of_none hgivenUp]
  exact upsertFacts_linksIssued pass.procedureSpecs hmiddle

end Passes

/-! ### Edits and corrections -/

section Edits

variable [Clock] [Unicode] [UnicodeCase]

theorem updateItem_linksIssued (now : Timestamp) (item : AboutYouItem)
    {state : List StoredMemoryFact × IdGenerator} (h : LinksIssued state.2 state.1) :
    LinksIssued (updateItem now item state).2 (updateItem now item state).1 := by
  obtain ⟨facts, ids⟩ := state
  unfold updateItem
  dsimp only
  split
  · exact h
  · split
    · refine h.changed ?_
      rw [List.forall₂_map_right_iff, List.forall₂_same]
      intro fact _
      split
      · exact ⟨rfl, rfl, fun _ => rfl, fun _ hid => .inl hid⟩
      · exact .refl _ fact
    · split
      · refine h.changed (Records.forall₂_modifyFirst (Carries.refl _) fun fact _ => ?_)
        refine ⟨rfl, rfl, fun hlive => hlive, fun id hid => ?_⟩
        simp [StoredMemoryFact.edited] at hid
      · refine h.carried (Nat.le_succ _) (List.forall₂_same.mpr fun fact _ => .refl _ fact) ?_
        simp only [List.mem_singleton, forall_eq]
        exact ⟨rfl, issued_nextValue ids "fact"⟩

theorem updateItems_linksIssued (now : Timestamp) (items : List AboutYouItem)
    {state : List StoredMemoryFact × IdGenerator} (h : LinksIssued state.2 state.1) :
    LinksIssued (updateItems now items state).2 (updateItems now items state).1 := by
  unfold updateItems
  induction items generalizing state with
  | nil => exact h
  | cons item rest ih => exact ih (updateItem_linksIssued now item h)

end Edits

theorem corrected_linksIssued {ids : IdGenerator} {facts : List StoredMemoryFact}
    (h : LinksIssued ids facts) (id : MemoryFactId) (value : String) (now : Timestamp) :
    LinksIssued ids
      (Records.modifyFirst (StoredMemoryFact.hasId id) (.corrected value now) facts) :=
  h.changed (Records.forall₂_modifyFirst (Carries.refl _)
    fun _ _ => ⟨rfl, rfl, fun hlive => hlive, fun _ hid => .inl hid⟩)

/-! ### Runs -/

section Runs

variable [Disk] [Clock] [Unicode] [UnicodeCase] [JsonText]

/-- What the request compiles, if anything, keeps the references good. -/
def MemoryRequest.KeepsLinks (runtime : TurnRuntime) (request : MemoryRequest) : Prop :=
  ∀ snapshot ∈ storedMemory runtime.stores, ∀ pass ∈ request.pass runtime snapshot.facts,
    pass.KeepsLinks snapshot.facts

instance (runtime : TurnRuntime) (request : MemoryRequest) :
    Decidable (request.KeepsLinks runtime) :=
  inferInstanceAs (Decidable (∀ snapshot ∈ storedMemory runtime.stores,
    ∀ pass ∈ request.pass runtime snapshot.facts, pass.KeepsLinks snapshot.facts))

omit [Disk] in
theorem changes_linksIssued {runtime : TurnRuntime} {request : MemoryRequest}
    {snapshot after : GlobalMemorySnapshot} {ids : IdGenerator}
    (h : LinksIssued runtime.ids snapshot.facts)
    (hsnapshot : storedMemory runtime.stores = some snapshot) (hkeeps : request.KeepsLinks runtime)
    (hchanges : request.Changes runtime snapshot after ids) : LinksIssued ids after.facts := by
  have hcompiled : ∀ compile threadId,
      (∀ pass ∈ passFor compile threadId runtime snapshot.facts, pass.KeepsLinks snapshot.facts) →
      CompiledBy compile threadId runtime snapshot after ids → LinksIssued ids after.facts := by
    rintro compile threadId hpass ⟨thread, entries, delta, hthread, hlog, hdelta, rfl, rfl⟩
    exact CompilationPass.compileFacts_linksIssued _ (h.mono _ _ _ le_rfl)
      (hpass _ (passFor_eq_some hthread hlog hdelta))
  have hpass := hkeeps snapshot hsnapshot
  cases request with
  | compile threadId =>
      exact hcompiled (fun input => .ok (heuristicDelta input)) threadId hpass hchanges
  | compileFromLlmOutput threadId rawJson =>
      exact hcompiled (parseLlmMemoryDelta rawJson) threadId hpass hchanges
  | updateAboutYou update =>
      obtain ⟨rfl, rfl⟩ := hchanges
      exact updateItems_linksIssued _ _ (h.mono _ _ _ le_rfl)
  | correctKnowledge correction =>
      obtain ⟨rfl, rfl⟩ := hchanges
      exact corrected_linksIssued (h.mono _ _ _ le_rfl) _ _ _

/-- In a run whose passes all keep the references good, every fact that names a superseding fact is
invalidated and names another stored fact of its subject. -/
theorem supersession_intact_along_runs (inputs : List MemoryInput)
    (hkeeps : Runs.AllSteps memoryStep
      (fun runtime input => input.request.KeepsLinks (input.arrival runtime)) .fresh inputs) :
    ∀ runtime ∈ Runs.states memoryStep .fresh inputs, ∀ snapshot,
      storedMemory runtime.stores = some snapshot → SupersessionIntact snapshot.facts := by
  have hall : ∀ runtime ∈ Runs.states memoryStep .fresh inputs, Remembers LinksIssued runtime := by
    refine Runs.invariant (fun runtime input h hstep => ?_) ?_ hkeeps
    · exact memoryStep_remembers LinksIssued.mono h
        fun snapshot after ids hsnapshot hlinks hchanges =>
          changes_linksIssued hlinks hsnapshot hstep hchanges
    · intro snapshot hsnapshot
      obtain rfl : GlobalMemorySnapshot.empty = snapshot := Option.some.inj hsnapshot
      exact ⟨fun _ hfact => absurd hfact List.not_mem_nil,
        fun _ hfact => absurd hfact List.not_mem_nil⟩
  intro runtime hruntime snapshot hsnapshot
  exact (hall runtime hruntime snapshot hsnapshot).1

end Runs

/-- The goal of a thread changes between two compilations. -/
def newGoal : List MemoryInput :=
  [MemoryRequest.over (.compile "t") (threadWithGoal "ship"),
    MemoryRequest.over (.compile "t") (threadWithGoal "land")]

theorem supersession_intact_after_new_goal :
    newGoal ≠ [] ∧
      ∀ runtime ∈ @Runs.states _ _ (@memoryStep calmDisk stoppedClock asciiTable asciiCase noJson)
        .fresh newGoal, ∀ snapshot,
        storedMemory runtime.stores = some snapshot → SupersessionIntact snapshot.facts :=
  ⟨by simp [newGoal],
    @supersession_intact_along_runs calmDisk stoppedClock asciiTable asciiCase noJson newGoal
      (by decide +kernel)⟩

/-- A commitment of the thread is met between two compilations. -/
def metCommitment : List MemoryInput :=
  [MemoryRequest.over (.compile "t") { Thread.blank "t" with pendingCommitments := ["write docs"] },
    MemoryRequest.over (.compile "t") (Thread.blank "t")]

/-- The fact of the commitment names a fact that was never stored. -/
theorem met_commitment_names_no_fact :
    ¬ ∀ (disk : Disk) (clock : Clock) (unicode : Unicode) (letters : UnicodeCase) (json : JsonText)
      (inputs : List MemoryInput),
      ∀ runtime ∈ @Runs.states _ _ (@memoryStep disk clock unicode letters json) .fresh inputs,
      ∀ snapshot, storedMemory runtime.stores = some snapshot →
        SupersessionIntact snapshot.facts := by
  intro h
  have hrun := h calmDisk stoppedClock asciiTable asciiCase noJson metCommitment _
    (Runs.final_mem_states _ _)
  have hbroken : (storedMemory (@Runs.final _ _
      (@memoryStep calmDisk stoppedClock asciiTable asciiCase noJson) .fresh
      metCommitment).stores).map (fun snapshot =>
        decide (SupersessionIntact snapshot.facts)) = some false := by decide +kernel
  obtain ⟨snapshot, hsnapshot, hfalse⟩ := Option.map_eq_some_iff.mp hbroken
  exact of_decide_eq_false hfalse (hrun snapshot hsnapshot)

end Liz
