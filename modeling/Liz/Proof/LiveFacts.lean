import Liz.Runtime.MemorySurfaces

/-!
# The live facts of a subject

All writes of the memory go by subject, so the live facts of one subject, in the order of the file,
say everything about it. A write pushes what it says on them, an invalidation strikes some of them
out, and writes under other subjects leave them alone. When a subject has one live fact at most, the
last write under it is what remains.
-/

namespace Liz

/-- The live facts of a subject in the order of the file. -/
def factsAt (facts : List StoredMemoryFact) (subject : String) : List StoredMemoryFact :=
  facts.filter (StoredMemoryFact.liveAt subject)

/-- No subject has more than one live fact. -/
def SingleLive (facts : List StoredMemoryFact) : Prop :=
  ∀ subject, (factsAt facts subject).length ≤ 1

/-- The live facts about the owner. -/
def identityFacts (facts : List StoredMemoryFact) : List StoredMemoryFact :=
  facts.filter fun fact => fact.kind = .identity && fact.live

/-- The last of the writes under a subject. -/
def lastWrite (specs : List FactSpec) (subject : String) : Option FactSpec :=
  (specs.filter fun spec => spec.subject = subject).getLast?

namespace StoredMemoryFact

variable {fact : StoredMemoryFact} {subject : String}

theorem liveAt_iff : fact.liveAt subject = true ↔ fact.subject = subject ∧ fact.live = true := by
  simp [liveAt]

@[simp] theorem live_superseded (id : MemoryFactId) (now : Timestamp) :
    (fact.superseded id now).live = false := rfl

@[simp] theorem liveAt_superseded (id : MemoryFactId) (now : Timestamp) :
    (fact.superseded id now).liveAt subject = false := by
  simp [liveAt]

@[simp] theorem liveAt_refresh (spec : FactSpec) :
    (spec.refresh fact).liveAt subject = fact.liveAt subject := rfl

@[simp] theorem liveAt_stored (spec : FactSpec) (id : MemoryFactId) :
    (spec.stored id).liveAt subject = decide (spec.subject = subject) := Bool.and_true _

end StoredMemoryFact

theorem FactSpec.same_iff {spec : FactSpec} {fact : StoredMemoryFact} :
    spec.same fact = true ↔ fact.value = spec.value ∧ fact.kind = spec.kind := by
  simp [same]

@[simp] theorem FactSpec.same_stored (spec : FactSpec) (id : MemoryFactId) :
    spec.same (spec.stored id) = true := by
  simp [same, stored]

@[simp] theorem FactSpec.same_refresh (spec other : FactSpec) (fact : StoredMemoryFact) :
    spec.same (other.refresh fact) = spec.same fact := rfl

theorem mem_factsAt {facts : List StoredMemoryFact} {subject : String} {fact : StoredMemoryFact} :
    fact ∈ factsAt facts subject ↔ fact ∈ facts ∧ fact.subject = subject ∧ fact.live = true := by
  rw [factsAt, List.mem_filter, StoredMemoryFact.liveAt_iff]

theorem find?_liveAt (facts : List StoredMemoryFact) (subject : String) :
    facts.find? (StoredMemoryFact.liveAt subject) = (factsAt facts subject).head? := by
  rw [factsAt, List.head?_filter]

/-! ### Writes -/

theorem lastWrite_eq_none {specs : List FactSpec} {subject : String} :
    lastWrite specs subject = none ↔ ∀ spec ∈ specs, spec.subject ≠ subject := by
  simp [lastWrite]

theorem lastWrite_append (first second : List FactSpec) (subject : String) :
    lastWrite (first ++ second) subject =
      (lastWrite second subject).or (lastWrite first subject) := by
  rw [lastWrite, List.filter_append, List.getLast?_append]
  rfl

theorem mem_of_lastWrite {specs : List FactSpec} {subject : String} {spec : FactSpec}
    (h : lastWrite specs subject = some spec) : spec ∈ specs ∧ spec.subject = subject := by
  simpa using List.mem_filter.mp (List.mem_of_getLast? h)

section Writes

variable [Clock]

theorem facts_upsertFact (spec : FactSpec) (draft : FactDraft) :
    (upsertFact spec draft).facts =
      Records.write (StoredMemoryFact.liveAt spec.subject) spec.same spec.refresh
        (StoredMemoryFact.superseded draft.ids.nextMemoryFactId.1 spec.updatedAt)
        (spec.stored draft.ids.nextMemoryFactId.1) draft.facts := by
  unfold upsertFact Records.write
  cases draft.facts.find? (StoredMemoryFact.liveAt spec.subject) with
  | none => rfl
  | some existing =>
      by_cases hsame : spec.same existing
      · simp [hsame]
      · simp [hsame]

theorem factsAt_upsertFact_self (spec : FactSpec) (draft : FactDraft) :
    factsAt (upsertFact spec draft).facts spec.subject =
      Records.push spec.same spec.refresh (spec.stored draft.ids.nextMemoryFactId.1)
        (factsAt draft.facts spec.subject) := by
  rw [facts_upsertFact]
  exact Records.filter_write_self (fun r hr => hr) (by simp) (by simp)

theorem factsAt_upsertFact_of_ne {spec : FactSpec} {subject : String} (h : spec.subject ≠ subject)
    (draft : FactDraft) :
    factsAt (upsertFact spec draft).facts subject = factsAt draft.facts subject := by
  rw [facts_upsertFact]
  refine Records.filter_write_of_disjoint (fun fact hfact => ?_) (by simp [h])
  have hsubject := (StoredMemoryFact.liveAt_iff.mp hfact).1
  have hother : fact.liveAt subject = false := by
    simp [StoredMemoryFact.liveAt, hsubject, h]
  exact ⟨hother, hother, by simp⟩

theorem upsertFacts_append (first second : List FactSpec) (draft : FactDraft) :
    upsertFacts (first ++ second) draft = upsertFacts second (upsertFacts first draft) := by
  induction first generalizing draft with
  | nil => rfl
  | cons spec rest ih => exact ih (upsertFact spec draft)

theorem factsAt_upsertFacts_of_ne {specs : List FactSpec} {subject : String}
    (h : ∀ spec ∈ specs, spec.subject ≠ subject) (draft : FactDraft) :
    factsAt (upsertFacts specs draft).facts subject = factsAt draft.facts subject := by
  induction specs generalizing draft with
  | nil => rfl
  | cons spec rest ih =>
      rw [List.forall_mem_cons] at h
      rw [upsertFacts, ih h.2, factsAt_upsertFact_of_ne h.1]

theorem length_factsAt_upsertFact {subject : String} {draft : FactDraft} (spec : FactSpec)
    (h : (factsAt draft.facts subject).length ≤ 1) :
    (factsAt (upsertFact spec draft).facts subject).length ≤ 1 := by
  by_cases hsubject : spec.subject = subject
  · subst hsubject
    rw [factsAt_upsertFact_self]
    exact Records.length_push_le h
  · rwa [factsAt_upsertFact_of_ne hsubject]

theorem length_factsAt_upsertFacts {subject : String} {draft : FactDraft} (specs : List FactSpec)
    (h : (factsAt draft.facts subject).length ≤ 1) :
    (factsAt (upsertFacts specs draft).facts subject).length ≤ 1 := by
  induction specs generalizing draft with
  | nil => exact h
  | cons spec rest ih => exact ih (length_factsAt_upsertFact spec h)

/-- A fact that says what a write says, with the threads of the write. -/
def FactSpec.Wrote (spec : FactSpec) (fact : StoredMemoryFact) : Prop :=
  spec.same fact = true ∧ fact.relatedThreadIds = spec.relatedThreadIds

theorem exists_wrote_upsertFact (spec : FactSpec) (draft : FactDraft) :
    ∃ fact ∈ factsAt (upsertFact spec draft).facts spec.subject, spec.Wrote fact := by
  rw [factsAt_upsertFact_self]
  cases factsAt draft.facts spec.subject with
  | nil => exact ⟨_, List.mem_singleton_self _, FactSpec.same_stored _ _, rfl⟩
  | cons first rest =>
      by_cases hsame : spec.same first
      · refine ⟨spec.refresh first, ?_, hsame, rfl⟩
        simp [Records.push, hsame]
      · refine ⟨spec.stored draft.ids.nextMemoryFactId.1, ?_, FactSpec.same_stored _ _, rfl⟩
        simp [Records.push, hsame]

/-- What is written last under a subject is live afterwards. -/
theorem exists_wrote_of_lastWrite {specs : List FactSpec} {subject : String} {spec : FactSpec}
    (h : lastWrite specs subject = some spec) (draft : FactDraft) :
    ∃ fact ∈ factsAt (upsertFacts specs draft).facts subject, spec.Wrote fact := by
  induction specs generalizing draft with
  | nil => simp [lastWrite] at h
  | cons first rest ih =>
      rw [show first :: rest = [first] ++ rest from rfl, lastWrite_append] at h
      cases hrest : lastWrite rest subject with
      | some last =>
          rw [hrest, Option.some_or, Option.some.injEq] at h
          exact ih (h ▸ hrest) (upsertFact first draft)
      | none =>
          rw [hrest, Option.none_or] at h
          obtain ⟨hmem, rfl⟩ := mem_of_lastWrite h
          obtain rfl := List.mem_singleton.mp hmem
          rw [upsertFacts, factsAt_upsertFacts_of_ne (lastWrite_eq_none.mp hrest)]
          exact exists_wrote_upsertFact spec draft

/-- Where a subject has one live fact at most, only what is written last is live afterwards. -/
theorem wrote_of_mem_factsAt {specs : List FactSpec} {subject : String} {spec : FactSpec}
    {draft : FactDraft} (h : lastWrite specs subject = some spec)
    (hsingle : (factsAt draft.facts subject).length ≤ 1) {fact : StoredMemoryFact}
    (hfact : fact ∈ factsAt (upsertFacts specs draft).facts subject) : spec.Wrote fact := by
  obtain ⟨other, hother, hwrote⟩ := exists_wrote_of_lastWrite h draft
  have hlength := length_factsAt_upsertFacts specs hsingle
  obtain ⟨only, honly⟩ := List.length_eq_one_iff.mp
    (le_antisymm hlength (List.length_pos_of_mem hfact))
  rw [honly, List.mem_singleton] at hfact hother
  rw [hfact, ← hother]
  exact hwrote

/-! ### Invalidations -/

/-- What an invalidation leaves of facts that are counted while they are live. -/
theorem filter_invalidateFacts {q : StoredMemoryFact → Bool} {now : Timestamp}
    (hq : ∀ (fact : StoredMemoryFact) id, q (fact.superseded id now) = false)
    (doomed : StoredMemoryFact → Bool) (draft : FactDraft) :
    (invalidateFacts doomed now draft).facts.filter q =
      (draft.facts.filter q).filter fun fact => !doomed fact := by
  have hwhere : ∀ (facts : List StoredMemoryFact) (ids : IdGenerator),
      (invalidateWhere doomed now facts ids).1.filter q =
        (facts.filter q).filter fun fact => !doomed fact := by
    intro facts
    induction facts with
    | nil => intro ids; rfl
    | cons fact rest ih =>
        intro ids
        unfold invalidateWhere
        by_cases hdoomed : doomed fact
        · have hrest := ih ids.nextMemoryFactId.2
          simp only [hdoomed, if_true, List.filter_cons, hq, Bool.false_eq_true, if_false]
          split
          · simpa [hdoomed] using hrest
          · exact hrest
        · have hrest := ih ids
          simp only [hdoomed, Bool.false_eq_true, if_false, List.filter_cons]
          split
          · simp [hdoomed, hrest]
          · exact hrest
  exact hwhere draft.facts draft.ids

theorem factsAt_invalidateFacts (doomed : StoredMemoryFact → Bool) (now : Timestamp)
    (draft : FactDraft) (subject : String) :
    factsAt (invalidateFacts doomed now draft).facts subject =
      (factsAt draft.facts subject).filter fun fact => !doomed fact :=
  filter_invalidateFacts (fun _ _ => by simp) doomed draft

theorem factsAt_invalidateFacts_of_none {doomed : StoredMemoryFact → Bool} {now : Timestamp}
    {draft : FactDraft} {subject : String}
    (h : ∀ fact ∈ factsAt draft.facts subject, doomed fact = false) :
    factsAt (invalidateFacts doomed now draft).facts subject = factsAt draft.facts subject := by
  rw [factsAt_invalidateFacts, List.filter_eq_self]
  intro fact hfact
  simp [h fact hfact]

theorem length_factsAt_invalidateFacts {doomed : StoredMemoryFact → Bool} {now : Timestamp}
    {draft : FactDraft} {subject : String} (h : (factsAt draft.facts subject).length ≤ 1) :
    (factsAt (invalidateFacts doomed now draft).facts subject).length ≤ 1 := by
  rw [factsAt_invalidateFacts]
  exact (List.length_filter_le _ _).trans h

/-- An invalidation of nothing changes nothing. -/
theorem invalidateFacts_of_none {doomed : StoredMemoryFact → Bool} {draft : FactDraft}
    (h : ∀ fact ∈ draft.facts, doomed fact = false) (now : Timestamp) :
    invalidateFacts doomed now draft = draft := by
  have hwhere : ∀ (facts : List StoredMemoryFact) (ids : IdGenerator),
      (∀ fact ∈ facts, doomed fact = false) → invalidateWhere doomed now facts ids = (facts, ids) := by
    intro facts
    induction facts with
    | nil => exact fun _ _ => rfl
    | cons fact rest ih =>
        intro ids hnone
        rw [List.forall_mem_cons] at hnone
        simp [invalidateWhere, hnone.1, ih ids hnone.2]
  have hfilter : draft.facts.filter doomed = [] := by
    simpa [List.filter_eq_nil_iff] using h
  simp [invalidateFacts, hwhere draft.facts draft.ids h, hfilter]

/-- Writes of other kinds leave of a subject's facts of a kind at most those behind the first
fact. -/
theorem before_of_mem_upsertFacts {specs : List FactSpec} {subject : String}
    {kind : MemoryFactKind} (hkinds : ∀ spec ∈ specs, spec.subject = subject → spec.kind ≠ kind)
    {draft : FactDraft} {fact : StoredMemoryFact}
    (hfact : fact ∈ factsAt (upsertFacts specs draft).facts subject)
    (hkind : fact.kind = kind) :
    fact ∈ factsAt draft.facts subject ∧
      ((∃ spec ∈ specs, spec.subject = subject) → fact ∈ (factsAt draft.facts subject).tail) := by
  induction specs generalizing draft with
  | nil =>
      refine ⟨hfact, ?_⟩
      intro hwritten
      obtain ⟨_, hmem, _⟩ := hwritten
      exact absurd hmem List.not_mem_nil
  | cons spec rest ih =>
      rw [List.forall_mem_cons] at hkinds
      obtain ⟨hmem, htail⟩ := ih hkinds.2 hfact
      by_cases hsubject : spec.subject = subject
      · subst hsubject
        have hpushed : fact ∈ (factsAt draft.facts spec.subject).tail := by
          rw [factsAt_upsertFact_self] at hmem
          cases hbefore : factsAt draft.facts spec.subject with
          | nil =>
              rw [hbefore] at hmem
              obtain rfl := List.mem_singleton.mp hmem
              exact absurd hkind (hkinds.1 rfl)
          | cons first others =>
              rw [hbefore, Records.push] at hmem
              split at hmem
              next hsame =>
                rcases List.mem_cons.mp hmem with rfl | hmem
                · exact absurd ((FactSpec.same_iff.mp hsame).2.symm.trans hkind) (hkinds.1 rfl)
                · exact hmem
              next =>
                rcases List.mem_append.mp hmem with hmem | hmem
                · exact hmem
                · obtain rfl := List.mem_singleton.mp hmem
                  exact absurd hkind (hkinds.1 rfl)
        exact ⟨List.mem_of_mem_tail hpushed, fun _ => hpushed⟩
      · rw [factsAt_upsertFact_of_ne hsubject] at hmem htail
        refine ⟨hmem, ?_⟩
        intro hwritten
        obtain ⟨other, hother, hat⟩ := hwritten
        rcases List.mem_cons.mp hother with rfl | hother
        · exact absurd hat hsubject
        · exact htail ⟨other, hother, hat⟩

/-! ### The pass -/

section Pass

variable [Unicode] (pass : CompilationPass)

/-- The writes before the commitments are looked at. -/
def CompilationPass.earlySpecs : List FactSpec := pass.activeStateSpecs ++ pass.goalSpecs

omit [Clock] [Unicode] in
theorem CompilationPass.kind_ne_of_mem_earlySpecs {pass : CompilationPass} {spec : FactSpec}
    (h : spec ∈ pass.earlySpecs) : spec.kind ≠ .commitment := by
  simp only [earlySpecs, activeStateSpecs, goalSpecs, List.mem_append, List.mem_map] at h
  rcases h with ⟨_, _, rfl⟩ | ⟨_, _, rfl⟩
  · exact MemoryFactKind.noConfusion
  · exact MemoryFactKind.noConfusion

/-- The writes between the two invalidations. -/
def CompilationPass.middleSpecs : List FactSpec :=
  pass.commitmentSpecs ++ (pass.identitySpecs ++ pass.durableSpecs)

theorem CompilationPass.compileFacts_eq (draft : FactDraft) :
    pass.compileFacts draft =
      upsertFacts pass.procedureSpecs (invalidateFacts pass.givenUp pass.now
        (upsertFacts pass.middleSpecs (invalidateFacts pass.dropped pass.now
          (upsertFacts pass.earlySpecs draft)))) := by
  unfold compileFacts syncCommitmentFacts invalidateCandidateSubjects earlySpecs middleSpecs
  simp only [upsertFacts_append]

theorem CompilationPass.length_factsAt_compileFacts {subject : String} {draft : FactDraft}
    (h : (factsAt draft.facts subject).length ≤ 1) :
    (factsAt (pass.compileFacts draft).facts subject).length ≤ 1 := by
  rw [pass.compileFacts_eq]
  refine length_factsAt_upsertFacts _ (length_factsAt_invalidateFacts ?_)
  exact length_factsAt_upsertFacts _
    (length_factsAt_invalidateFacts (length_factsAt_upsertFacts _ h))

theorem CompilationPass.compileFacts_singleLive {draft : FactDraft} (h : SingleLive draft.facts) :
    SingleLive (pass.compileFacts draft).facts := fun subject =>
  pass.length_factsAt_compileFacts (h subject)

/-! ### One subject -/

/-- All writes of a pass. -/
def CompilationPass.allSpecs : List FactSpec :=
  pass.earlySpecs ++ pass.middleSpecs ++ pass.procedureSpecs

variable {pass} {subject : String}

omit [Clock] in
theorem CompilationPass.lastWrite_allSpecs :
    lastWrite pass.allSpecs subject = (lastWrite pass.procedureSpecs subject).or
      ((lastWrite pass.middleSpecs subject).or (lastWrite pass.earlySpecs subject)) := by
  rw [allSpecs, lastWrite_append, lastWrite_append]

omit [Unicode] in
/-- Giving subjects up leaves the facts of the others. -/
theorem CompilationPass.factsAt_invalidateFacts_givenUp
    (h : subject ∉ candidateSubjects pass.delta.invalidationCandidates) (now : Timestamp)
    (draft : FactDraft) :
    factsAt (invalidateFacts pass.givenUp now draft).facts subject = factsAt draft.facts subject := by
  apply factsAt_invalidateFacts_of_none
  intro fact hfact
  obtain ⟨-, rfl, -⟩ := mem_factsAt.mp hfact
  simp [givenUp, h]

omit [Unicode] in
/-- Of a subject that is given up nothing is left behind the writes in the middle. -/
theorem CompilationPass.factsAt_invalidateFacts_of_candidate
    (h : subject ∈ candidateSubjects pass.delta.invalidationCandidates) (now : Timestamp)
    (draft : FactDraft) : factsAt (invalidateFacts pass.givenUp now draft).facts subject = [] := by
  rw [factsAt_invalidateFacts, List.filter_eq_nil_iff]
  intro fact hfact
  obtain ⟨-, rfl, hlive⟩ := mem_factsAt.mp hfact
  simp [givenUp, hlive, h]

/-- A subject the pass neither writes nor gives up loses dropped commitments only. -/
theorem CompilationPass.factsAt_compileFacts_of_unwritten
    (hcandidate : subject ∉ candidateSubjects pass.delta.invalidationCandidates)
    (h : ∀ spec ∈ pass.allSpecs, spec.subject ≠ subject) (draft : FactDraft) :
    factsAt (pass.compileFacts draft).facts subject =
      (factsAt draft.facts subject).filter fun fact => !pass.dropped fact := by
  rw [allSpecs, List.forall_mem_append, List.forall_mem_append] at h
  rw [pass.compileFacts_eq, factsAt_upsertFacts_of_ne h.2,
    factsAt_invalidateFacts_givenUp hcandidate, factsAt_upsertFacts_of_ne h.1.2,
    factsAt_invalidateFacts, factsAt_upsertFacts_of_ne h.1.1]

/-- A subject that is not given up and has one live fact at most has the fact that was written
last. -/
theorem CompilationPass.exists_wrote_compileFacts {draft : FactDraft}
    (hcandidate : subject ∉ candidateSubjects pass.delta.invalidationCandidates)
    (hsingle : (factsAt draft.facts subject).length ≤ 1) {last : FactSpec}
    (hlast : lastWrite pass.allSpecs subject = some last) :
    ∃ fact, factsAt (pass.compileFacts draft).facts subject = [fact] ∧ last.Wrote fact := by
  have hexists : ∃ fact ∈ factsAt (pass.compileFacts draft).facts subject, last.Wrote fact := by
    rw [pass.compileFacts_eq]
    rw [lastWrite_allSpecs] at hlast
    cases hprocedure : lastWrite pass.procedureSpecs subject with
    | some procedure =>
        rw [hprocedure, Option.some_or, Option.some.injEq] at hlast
        exact exists_wrote_of_lastWrite (hlast ▸ hprocedure) _
    | none =>
        rw [hprocedure, Option.none_or] at hlast
        rw [factsAt_upsertFacts_of_ne (lastWrite_eq_none.mp hprocedure),
          factsAt_invalidateFacts_givenUp hcandidate]
        cases hmiddle : lastWrite pass.middleSpecs subject with
        | some middle =>
            rw [hmiddle, Option.some_or, Option.some.injEq] at hlast
            exact exists_wrote_of_lastWrite (hlast ▸ hmiddle) _
        | none =>
            rw [hmiddle, Option.none_or] at hlast
            rw [factsAt_upsertFacts_of_ne (lastWrite_eq_none.mp hmiddle)]
            -- what is written early is no commitment, so it is not dropped
            obtain ⟨fact, hfact, hwrote⟩ := exists_wrote_of_lastWrite hlast draft
            have hkind := (FactSpec.same_iff.mp hwrote.1).2
            have hne := kind_ne_of_mem_earlySpecs (mem_of_lastWrite hlast).1
            refine ⟨fact, ?_, hwrote⟩
            rw [factsAt_invalidateFacts, List.mem_filter]
            exact ⟨hfact, by simp [dropped, hkind, hne]⟩
  obtain ⟨fact, hfact, hwrote⟩ := hexists
  obtain ⟨only, honly⟩ := List.length_eq_one_iff.mp
    (le_antisymm (pass.length_factsAt_compileFacts hsingle) (List.length_pos_of_mem hfact))
  rw [honly, List.mem_singleton] at hfact
  exact ⟨only, honly, hfact ▸ hwrote⟩

end Pass

end Writes

end Liz
