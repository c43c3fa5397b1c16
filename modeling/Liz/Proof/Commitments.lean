import Liz.Proof.MemoryRuns

/-!
# What becomes of a commitment

A pass stores each commitment of its delta under a name made of its first words, so commitments with
the same words, and anything else that is written under the name afterwards, take its place. This
file says exactly which commitments are live after a pass.
-/

namespace Liz

open Program

section Commitments

variable [Unicode]

/-- The commitment is a live fact of the thread, or the delta gives its subject up. -/
def CommitmentKept (pass : CompilationPass) (facts : List StoredMemoryFact) (commitment : String) :
    Prop :=
  (∃ fact ∈ facts, fact.live = true ∧ fact.kind = .commitment ∧ fact.value = commitment ∧
    pass.thread.id ∈ fact.relatedThreadIds) ∨
  commitmentSubject pass.thread.id commitment ∈
    candidateSubjects pass.delta.invalidationCandidates

instance (pass : CompilationPass) (facts : List StoredMemoryFact) (commitment : String) :
    Decidable (CommitmentKept pass facts commitment) :=
  inferInstanceAs (Decidable ((∃ fact ∈ facts, _) ∨ _ ∈ candidateSubjects _))

/-- Under some subject the commitment is the last thing that is written before the delta gives
subjects up; the subject is not given up and no procedure of the pass has it. -/
def CommitmentStands (pass : CompilationPass) (commitment : String) : Prop :=
  (∃ subject spec, lastWrite pass.middleSpecs subject = some spec ∧ spec.kind = .commitment ∧
    spec.value = commitment ∧
    subject ∉ candidateSubjects pass.delta.invalidationCandidates ∧
    ∀ procedure ∈ pass.procedureSpecs, procedure.subject ≠ subject) ∨
  commitmentSubject pass.thread.id commitment ∈
    candidateSubjects pass.delta.invalidationCandidates

namespace CompilationPass

variable {pass : CompilationPass} {spec : FactSpec}

theorem mem_commitmentSpecs :
    spec ∈ pass.commitmentSpecs ↔ ∃ commitment ∈ pass.delta.commitments,
      pass.spec .commitment (commitmentSubject pass.thread.id commitment) commitment = spec :=
  List.mem_map

theorem relatedThreadIds_of_mem_middleSpecs (h : spec ∈ pass.middleSpecs) :
    spec.relatedThreadIds = [pass.thread.id] := by
  simp only [middleSpecs, commitmentSpecs, identitySpecs, durableSpecs, List.mem_append,
    List.mem_map] at h
  rcases h with ⟨_, _, rfl⟩ | ⟨_, _, rfl⟩ | ⟨_, _, rfl⟩ <;> rfl

theorem kind_of_mem_procedureSpecs (h : spec ∈ pass.procedureSpecs) :
    spec.kind = .procedureCandidate := by
  simp only [procedureSpecs, List.mem_map] at h
  obtain ⟨_, _, rfl⟩ := h
  rfl

variable [Clock]

/-- After the writes between the two invalidations a subject that is not given up and has no
procedure keeps its live facts. -/
theorem factsAt_compileFacts_of_kept {subject : String}
    (hcandidate : subject ∉ candidateSubjects pass.delta.invalidationCandidates)
    (hprocedure : ∀ procedure ∈ pass.procedureSpecs, procedure.subject ≠ subject)
    (draft : FactDraft) :
    factsAt (pass.compileFacts draft).facts subject =
      factsAt (upsertFacts pass.middleSpecs (invalidateFacts pass.dropped pass.now
        (upsertFacts pass.earlySpecs draft))).facts subject := by
  rw [pass.compileFacts_eq, factsAt_upsertFacts_of_ne hprocedure,
    factsAt_invalidateFacts_givenUp hcandidate]

/-- The last procedure of a subject is what remains of the subject. -/
theorem kind_of_mem_factsAt_of_procedure {subject : String} {draft : FactDraft}
    (hsingle : (factsAt draft.facts subject).length ≤ 1) {procedure : FactSpec}
    (hprocedure : procedure ∈ pass.procedureSpecs) (hsubject : procedure.subject = subject)
    {fact : StoredMemoryFact} (hfact : fact ∈ factsAt (pass.compileFacts draft).facts subject) :
    fact.kind = .procedureCandidate := by
  rw [pass.compileFacts_eq] at hfact
  cases hlast : lastWrite pass.procedureSpecs subject with
  | none => exact absurd hsubject (lastWrite_eq_none.mp hlast procedure hprocedure)
  | some last =>
      have hwrote := wrote_of_mem_factsAt hlast (length_factsAt_invalidateFacts
        (length_factsAt_upsertFacts _ (length_factsAt_invalidateFacts
          (length_factsAt_upsertFacts _ hsingle)))) hfact
      rw [(FactSpec.same_iff.mp hwrote.1).2]
      exact kind_of_mem_procedureSpecs (mem_of_lastWrite hlast).1

/-- Nothing of a subject that is given up remains, unless a procedure has it. -/
theorem factsAt_compileFacts_of_candidate {subject : String}
    (hcandidate : subject ∈ candidateSubjects pass.delta.invalidationCandidates)
    (hprocedure : ∀ procedure ∈ pass.procedureSpecs, procedure.subject ≠ subject)
    (draft : FactDraft) : factsAt (pass.compileFacts draft).facts subject = [] := by
  rw [pass.compileFacts_eq, factsAt_upsertFacts_of_ne hprocedure,
    factsAt_invalidateFacts_of_candidate hcandidate]

/-- A commitment that stands is kept, whatever was stored before. -/
theorem kept_of_stands {commitment : String} (h : CommitmentStands pass commitment)
    (draft : FactDraft) : CommitmentKept pass (pass.compileFacts draft).facts commitment := by
  rcases h with ⟨subject, last, hlast, hkind, rfl, hcandidate, hprocedure⟩ | hcandidate
  · obtain ⟨fact, hfact, hsame, hrelated⟩ := exists_wrote_of_lastWrite hlast
      (invalidateFacts pass.dropped pass.now (upsertFacts pass.earlySpecs draft))
    rw [← factsAt_compileFacts_of_kept hcandidate hprocedure draft] at hfact
    obtain ⟨hmem, -, hlive⟩ := mem_factsAt.mp hfact
    obtain ⟨hvalue, hfactKind⟩ := FactSpec.same_iff.mp hsame
    refine .inl ⟨fact, hmem, hlive, hfactKind.trans hkind, hvalue, ?_⟩
    rw [hrelated, relatedThreadIds_of_mem_middleSpecs (mem_of_lastWrite hlast).1]
    exact List.mem_singleton_self _
  · exact .inr hcandidate

/-- Where no subject had two live facts, a commitment that is kept stands. -/
theorem stands_of_kept {commitment : String} {draft : FactDraft} (hsingle : SingleLive draft.facts)
    (h : CommitmentKept pass (pass.compileFacts draft).facts commitment) :
    CommitmentStands pass commitment := by
  rcases h with ⟨fact, hmem, hlive, hkind, rfl, hrelated⟩ | hcandidate
  swap
  · exact .inr hcandidate
  have hfact : fact ∈ factsAt (pass.compileFacts draft).facts fact.subject :=
    mem_factsAt.mpr ⟨hmem, rfl, hlive⟩
  have hprocedure : ∀ procedure ∈ pass.procedureSpecs, procedure.subject ≠ fact.subject := by
    intro procedure hp hsubject
    have := kind_of_mem_factsAt_of_procedure (hsingle fact.subject) hp hsubject hfact
    simp [hkind] at this
  have hcandidate : fact.subject ∉ candidateSubjects pass.delta.invalidationCandidates := by
    intro hcandidate
    rw [factsAt_compileFacts_of_candidate hcandidate hprocedure] at hfact
    exact absurd hfact List.not_mem_nil
  rw [factsAt_compileFacts_of_kept hcandidate hprocedure] at hfact
  cases hlast : lastWrite pass.middleSpecs fact.subject with
  | some last =>
      have hwrote := wrote_of_mem_factsAt hlast
        (length_factsAt_invalidateFacts (length_factsAt_upsertFacts _ (hsingle _))) hfact
      obtain ⟨hvalue, hfactKind⟩ := FactSpec.same_iff.mp hwrote.1
      exact .inl ⟨fact.subject, last, hlast, hfactKind.symm.trans hkind, hvalue.symm, hcandidate,
        hprocedure⟩
  | none =>
      -- nothing was written here, so the fact is a commitment of the thread that was not dropped
      have hnone := lastWrite_eq_none.mp hlast
      rw [factsAt_upsertFacts_of_ne hnone, factsAt_invalidateFacts] at hfact
      have hkept := (List.mem_filter.mp hfact).2
      have hactive : ∀ active ∈ pass.delta.commitments,
          commitmentSubject pass.thread.id active ≠ fact.subject := fun active hactive =>
        hnone (pass.spec .commitment (commitmentSubject pass.thread.id active) active)
          (List.mem_append_left _ (mem_commitmentSpecs.mpr ⟨active, hactive, rfl⟩))
      simp [dropped, hkind, hrelated, hlive] at hkept
      obtain ⟨active, hmem, heq⟩ := hkept
      exact absurd heq (hactive active hmem)

end CompilationPass

variable [Disk] [Clock]

/-- After a delta has been applied, each of its commitments that stands is kept; and where no
subject had two live facts before, no other is. -/
theorem commitments_kept (input : MemoryCompilationInput) (delta : MemoryCompilationDelta)
    (runtime : TurnRuntime) (summary : MemoryCompilationSummary)
    (happlied : result (applyCompilationDelta input delta) runtime = some summary) :
    ∃ before later, storedMemory runtime.stores = some before ∧
      storedMemory (after (applyCompilationDelta input delta) runtime).stores = some later ∧
      ∀ commitment ∈ delta.commitments,
        let pass := input.passWith delta runtime.ids.nowTimestamp.1
        (CommitmentStands pass commitment → CommitmentKept pass later.facts commitment) ∧
        (SingleLive before.facts → CommitmentKept pass later.facts commitment →
          CommitmentStands pass commitment) := by
  have hchanges := wp_of_result (applyCompilationDelta_changes input delta runtime) happlied
  obtain ⟨before, later, hbefore, hlater, rfl, -⟩ := hchanges.applied
  refine ⟨before, _, hbefore, hlater, fun commitment _ => ⟨fun h => ?_, fun hsingle h => ?_⟩⟩
  · exact CompilationPass.kept_of_stands h _
  · refine CompilationPass.stands_of_kept ?_ h
    exact hsingle

end Commitments

/-- A delta that only carries commitments on. -/
def commitmentsDelta (commitments : List String) : MemoryCompilationDelta :=
  { identitySummaryUpdate := none
    activeStateSummary := none
    recentTopics := []
    recentKeywords := []
    commitments := commitments
    candidateProcedures := []
    durableFacts := []
    invalidationCandidates := [] }

def idleInput : MemoryCompilationInput := compilationInput "t" (Thread.blank "t") [] []

/-- The commitments are applied to an empty memory. -/
def applyCommitments (commitments : List String) : TurnM MemoryCompilationSummary :=
  @applyCompilationDelta calmDisk stoppedClock asciiTable idleInput (commitmentsDelta commitments)

theorem two_commitments_kept :
    ∃ before later, storedMemory TurnRuntime.fresh.stores = some before ∧
      storedMemory (after (applyCommitments ["finish parser tests", "write docs"]) .fresh).stores =
        some later ∧
      ∀ commitment ∈ ["finish parser tests", "write docs"],
        let pass := idleInput.passWith (commitmentsDelta ["finish parser tests", "write docs"])
          (@IdGenerator.nowTimestamp stoppedClock TurnRuntime.fresh.ids).1
        (@CommitmentStands asciiTable pass commitment →
          @CommitmentKept asciiTable pass later.facts commitment) ∧
        (SingleLive before.facts → @CommitmentKept asciiTable pass later.facts commitment →
          @CommitmentStands asciiTable pass commitment) := by
  have happlied : (result (applyCommitments ["finish parser tests", "write docs"]) .fresh).isSome :=
    by decide +kernel
  exact @commitments_kept asciiTable calmDisk stoppedClock idleInput
    (commitmentsDelta ["finish parser tests", "write docs"]) .fresh _
    (Option.some_get happlied).symm

/-- Neither commitment has a word of three letters, so both have the same name. -/
theorem short_commitment_lost :
    ¬ ∀ (_ : Disk) (_ : Clock) (_ : Unicode) (input : MemoryCompilationInput)
      (delta : MemoryCompilationDelta) (runtime : TurnRuntime) (summary : MemoryCompilationSummary),
      result (applyCompilationDelta input delta) runtime = some summary →
      ∀ later, storedMemory (after (applyCompilationDelta input delta) runtime).stores =
          some later →
        ∀ commitment ∈ delta.commitments,
          CommitmentKept (input.passWith delta runtime.ids.nowTimestamp.1) later.facts commitment :=
    by
  intro h
  have happlied : (result (applyCommitments ["go", "do"]) .fresh).isSome := by decide +kernel
  have hlost : (storedMemory (after (applyCommitments ["go", "do"]) .fresh).stores).map
      (fun later => decide (@CommitmentKept asciiTable
        (idleInput.passWith (commitmentsDelta ["go", "do"])
          (@IdGenerator.nowTimestamp stoppedClock TurnRuntime.fresh.ids).1) later.facts "go")) =
        some false := by decide +kernel
  obtain ⟨later, hlater, hfalse⟩ := Option.map_eq_some_iff.mp hlost
  have hkept := h calmDisk stoppedClock asciiTable idleInput (commitmentsDelta ["go", "do"]) .fresh _
    (Option.some_get happlied).symm later hlater "go" List.mem_cons_self
  exact of_decide_eq_false hfalse hkept

end Liz
