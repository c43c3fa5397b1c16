import Liz.Base.Runs
import Liz.Proof.MemoryRuns

/-!
# The identity without evidence

What a model says about the owner in its summary is dropped when the log gives no evidence. Its
durable facts are not looked at in this way, nor are the subjects it gives up; so a pass leaves the
facts about the owner alone exactly when what it writes and gives up does not touch them.
-/

namespace Liz

open Program

/-- The live facts about the owner are the same. -/
def SameIdentity (facts later : List StoredMemoryFact) : Prop :=
  ∀ fact, fact ∈ identityFacts later ↔ fact ∈ identityFacts facts

theorem mem_identityFacts {facts : List StoredMemoryFact} {fact : StoredMemoryFact} :
    fact ∈ identityFacts facts ↔ fact ∈ factsAt facts fact.subject ∧ fact.kind = .identity := by
  rw [identityFacts, List.mem_filter, mem_factsAt, Bool.and_eq_true, decide_eq_true_eq]
  tauto

section Survivors

variable [Clock] {specs : List FactSpec} {draft : FactDraft} {subject : String}

/-! ### What survives the writes -/

/-- The identifiers of the live facts of a subject. -/
def idsAt (facts : List StoredMemoryFact) (subject : String) : List MemoryFactId :=
  (factsAt facts subject).map StoredMemoryFact.id

/-- The fact after the last of the writes under its subject has brought it up to date. -/
def refreshed (specs : List FactSpec) (subject : String) (fact : StoredMemoryFact) :
    StoredMemoryFact :=
  (lastWrite specs subject).elim fact fun last => last.refresh fact

omit [Clock] in
theorem refreshed_append (first second : List FactSpec) (fact : StoredMemoryFact) :
    refreshed (first ++ second) subject fact =
      refreshed second subject (refreshed first subject fact) := by
  unfold refreshed
  rw [lastWrite_append]
  cases lastWrite second subject with
  | none => rfl
  | some last => cases lastWrite first subject <;> rfl

omit [Clock] in
theorem refreshed_kept (specs : List FactSpec) (subject : String) (fact : StoredMemoryFact) :
    (refreshed specs subject fact).id = fact.id ∧
      (refreshed specs subject fact).kind = fact.kind ∧
      ∀ spec : FactSpec, spec.same (refreshed specs subject fact) = spec.same fact := by
  unfold refreshed
  cases lastWrite specs subject with
  | none => exact ⟨rfl, rfl, fun _ => rfl⟩
  | some last => exact ⟨rfl, rfl, fun _ => rfl⟩

/-- Writes that say what the first fact of the subject says only refresh it. -/
theorem factsAt_upsertFacts_of_same {first : StoredMemoryFact} {rest : List StoredMemoryFact}
    (hfacts : factsAt draft.facts subject = first :: rest)
    (hsame : ∀ spec ∈ specs, spec.subject = subject → spec.same first = true) :
    factsAt (upsertFacts specs draft).facts subject = refreshed specs subject first :: rest := by
  induction specs generalizing draft first with
  | nil => exact hfacts
  | cons spec others ih =>
      rw [List.forall_mem_cons] at hsame
      rw [upsertFacts, show spec :: others = [spec] ++ others from rfl, refreshed_append]
      by_cases hsubject : spec.subject = subject
      · have hfirst : factsAt (upsertFact spec draft).facts subject = spec.refresh first :: rest := by
          subst hsubject
          rw [factsAt_upsertFact_self, hfacts, Records.push, if_pos (hsame.1 rfl)]
        have hone : refreshed [spec] subject first = spec.refresh first := by
          simp [refreshed, lastWrite, hsubject]
        rw [hone]
        exact ih hfirst hsame.2
      · have hone : refreshed [spec] subject first = first := by
          simp [refreshed, lastWrite, hsubject]
        rw [hone]
        exact ih ((factsAt_upsertFact_of_ne hsubject draft).trans hfacts) hsame.2

/-- An identifier that had been given out belongs to a fact that was there. -/
theorem mem_idsAt_of_upsertFact {spec : FactSpec} {id : MemoryFactId}
    (hissued : draft.ids.Issued id) (h : id ∈ idsAt (upsertFact spec draft).facts subject) :
    id ∈ idsAt draft.facts subject := by
  by_cases hsubject : spec.subject = subject
  · subst hsubject
    have hnew : (spec.stored draft.ids.nextMemoryFactId.1).id ≠ id := by
      intro hid
      rw [← hid] at hissued
      exact not_issued_nextValue draft.ids "fact" hissued
    rw [idsAt, factsAt_upsertFact_self] at h
    rw [idsAt]
    cases hfacts : factsAt draft.facts spec.subject with
    | nil =>
        rw [hfacts] at h
        exact absurd (List.mem_singleton.mp h).symm hnew
    | cons first rest =>
        rw [hfacts, Records.push] at h
        split at h
        next => exact h
        next =>
          rw [List.map_append, List.mem_append, List.map_singleton, List.mem_singleton] at h
          rcases h with hrest | hid
          · exact List.mem_cons_of_mem _ hrest
          · exact absurd hid.symm hnew
  · rwa [idsAt, factsAt_upsertFact_of_ne hsubject] at h

theorem mem_idsAt_of_upsertFacts {id : MemoryFactId} (hissued : draft.ids.Issued id)
    (h : id ∈ idsAt (upsertFacts specs draft).facts subject) : id ∈ idsAt draft.facts subject := by
  induction specs generalizing draft with
  | nil => exact h
  | cons spec rest ih =>
      have hlater := hissued.mono (sequence_upsertFact spec draft)
      exact mem_idsAt_of_upsertFact hissued (ih hlater h)

theorem mem_idsAt_of_invalidateFacts {doomed : StoredMemoryFact → Bool} {now : Timestamp}
    {id : MemoryFactId} (h : id ∈ idsAt (invalidateFacts doomed now draft).facts subject) :
    id ∈ idsAt draft.facts subject := by
  rw [idsAt, factsAt_invalidateFacts] at h
  obtain ⟨fact, hfact, rfl⟩ := List.mem_map.mp h
  exact List.mem_map.mpr ⟨fact, List.mem_of_mem_filter hfact, rfl⟩

/-- The one fact of a subject survives no write that says anything else. -/
theorem same_of_survives {fact : StoredMemoryFact} (hfacts : factsAt draft.facts subject = [fact])
    (hissued : draft.ids.Issued fact.id)
    (h : fact.id ∈ idsAt (upsertFacts specs draft).facts subject) :
    ∀ spec ∈ specs, spec.subject = subject → spec.same fact = true := by
  induction specs generalizing draft fact with
  | nil => exact fun _ hspec => absurd hspec List.not_mem_nil
  | cons spec rest ih =>
      have hlater := hissued.mono (sequence_upsertFact spec draft)
      by_cases hsubject : spec.subject = subject
      · subst hsubject
        have hfirst := mem_idsAt_of_upsertFacts hlater h
        have hpushed := factsAt_upsertFact_self spec draft
        rw [hfacts, Records.push] at hpushed
        by_cases hsame : spec.same fact
        · rw [if_pos hsame] at hpushed
          have hrest : ∀ other ∈ rest, other.subject = spec.subject →
              other.same (spec.refresh fact) = true := ih hpushed hlater h
          exact List.forall_mem_cons.mpr ⟨fun _ => hsame, hrest⟩
        · -- the write superseded the fact, and what it stored has an identifier of its own
          rw [if_neg hsame] at hpushed
          rw [idsAt, hpushed] at hfirst
          rw [List.mem_singleton.mp hfirst] at hissued
          exact absurd hissued (not_issued_nextValue draft.ids "fact")
      · exact List.forall_mem_cons.mpr ⟨fun hat => absurd hat hsubject,
          ih ((factsAt_upsertFact_of_ne hsubject draft).trans hfacts) hlater h⟩

end Survivors

/-! ### Passes -/

section Passes

variable [Unicode]

/-- The pass does not touch the facts about the owner. The subject of a live one is not given up,
every write under it finds the fact and says what it says, and the last of them brings nothing new.
A new fact about the owner is written only under a subject that has one already, is given up, or has
one live fact at most and something else written last. -/
structure CompilationPass.LeavesIdentity (pass : CompilationPass) (facts : List StoredMemoryFact) :
    Prop where
  kept : ∀ fact ∈ identityFacts facts,
    fact.subject ∉ candidateSubjects pass.delta.invalidationCandidates ∧
      refreshed pass.allSpecs fact.subject fact = fact ∧
      ∀ spec ∈ pass.allSpecs, spec.subject = fact.subject →
        facts.find? (StoredMemoryFact.liveAt fact.subject) = some fact ∧ spec.same fact = true
  unsaid : ∀ spec ∈ pass.allSpecs, spec.kind = .identity →
    (∃ fact ∈ identityFacts facts, fact.subject = spec.subject) ∨
      spec.subject ∈ candidateSubjects pass.delta.invalidationCandidates ∨
      (factsAt facts spec.subject).length ≤ 1 ∧
        ∀ last ∈ lastWrite pass.allSpecs spec.subject, last.kind ≠ .identity

instance (pass : CompilationPass) (facts : List StoredMemoryFact) :
    Decidable (pass.LeavesIdentity facts) :=
  decidable_of_iff ((∀ fact ∈ identityFacts facts, _ ∧ _ ∧ ∀ spec ∈ pass.allSpecs, _) ∧
      ∀ spec ∈ pass.allSpecs, spec.kind = .identity →
        _ ∨ _ ∨ _ ∧ ∀ last ∈ lastWrite pass.allSpecs spec.subject, _)
    ⟨fun h => ⟨h.1, h.2⟩, fun h => ⟨h.kept, h.unsaid⟩⟩

namespace CompilationPass

variable [Clock] {pass : CompilationPass} {draft : FactDraft} {subject : String}

omit [Clock] in
theorem kind_ne_identity_of_mem_procedureSpecs {spec : FactSpec} (h : spec ∈ pass.procedureSpecs) :
    spec.kind ≠ .identity := by
  obtain ⟨_, _, rfl⟩ := List.mem_map.mp h
  exact MemoryFactKind.noConfusion

/-- Writes of other kinds make no fact of a kind. -/
theorem before_of_mem_compileFacts {kind : MemoryFactKind}
    (hkinds : ∀ spec ∈ pass.allSpecs, spec.subject = subject → spec.kind ≠ kind)
    {fact : StoredMemoryFact} (hfact : fact ∈ factsAt (pass.compileFacts draft).facts subject)
    (hkind : fact.kind = kind) : fact ∈ factsAt draft.facts subject := by
  rw [allSpecs, List.forall_mem_append, List.forall_mem_append] at hkinds
  rw [pass.compileFacts_eq] at hfact
  have hgivenUp := (before_of_mem_upsertFacts hkinds.2 hfact hkind).1
  rw [factsAt_invalidateFacts] at hgivenUp
  have hmiddle := (before_of_mem_upsertFacts hkinds.1.2 (List.mem_of_mem_filter hgivenUp) hkind).1
  rw [factsAt_invalidateFacts] at hmiddle
  exact (before_of_mem_upsertFacts hkinds.1.1 (List.mem_of_mem_filter hmiddle) hkind).1

/-- Of a subject that is given up only procedures remain. -/
theorem kind_of_mem_factsAt_of_candidate
    (hcandidate : subject ∈ candidateSubjects pass.delta.invalidationCandidates)
    {fact : StoredMemoryFact} (hfact : fact ∈ factsAt (pass.compileFacts draft).facts subject) :
    fact.kind ≠ .identity := by
  intro hkind
  rw [pass.compileFacts_eq] at hfact
  have hbefore := (before_of_mem_upsertFacts
    (fun spec hspec _ => kind_ne_identity_of_mem_procedureSpecs hspec) hfact hkind).1
  rw [factsAt_invalidateFacts_of_candidate hcandidate] at hbefore
  exact List.not_mem_nil hbefore

omit [Clock] in
theorem dropped_of_identity {fact : StoredMemoryFact} (h : fact.kind = .identity) :
    pass.dropped fact = false := by
  simp [dropped, h]

/-- Where all writes under a subject say what its first fact says, and this is no commitment, the
pass refreshes the fact and leaves it where it is. -/
theorem factsAt_compileFacts_of_same {first : StoredMemoryFact} {rest : List StoredMemoryFact}
    (hcandidate : subject ∉ candidateSubjects pass.delta.invalidationCandidates)
    (hfacts : factsAt draft.facts subject = first :: rest) (hkind : first.kind = .identity)
    (hsame : ∀ spec ∈ pass.allSpecs, spec.subject = subject → spec.same first = true) :
    factsAt (pass.compileFacts draft).facts subject =
      refreshed pass.allSpecs subject first :: rest.filter fun fact => !pass.dropped fact := by
  rw [allSpecs, List.forall_mem_append, List.forall_mem_append] at hsame
  rw [pass.compileFacts_eq, allSpecs, refreshed_append, refreshed_append]
  obtain ⟨-, hearlyKind, hearlySame⟩ := refreshed_kept pass.earlySpecs subject first
  obtain ⟨-, -, hmiddleSame⟩ := refreshed_kept pass.middleSpecs subject
    (refreshed pass.earlySpecs subject first)
  apply factsAt_upsertFacts_of_same
  · rw [factsAt_invalidateFacts_givenUp hcandidate]
    apply factsAt_upsertFacts_of_same
    · rw [factsAt_invalidateFacts, factsAt_upsertFacts_of_same hfacts hsame.1.1, List.filter_cons,
        dropped_of_identity (hearlyKind.trans hkind), Bool.not_false, if_pos rfl]
    · intro spec hspec hsubject
      rw [hearlySame]
      exact hsame.1.2 spec hspec hsubject
  · intro spec hspec hsubject
    rw [hmiddleSame, hearlySame]
    exact hsame.2 spec hspec hsubject

/-- What survives a pass as the one fact of its subject is said by all writes under it. -/
theorem same_of_survives_compileFacts {fact : StoredMemoryFact}
    (hfacts : factsAt draft.facts subject = [fact]) (hkind : fact.kind = .identity)
    (hissued : draft.ids.Issued fact.id)
    (h : fact.id ∈ idsAt (pass.compileFacts draft).facts subject) :
    ∀ spec ∈ pass.allSpecs, spec.subject = subject → spec.same fact = true := by
  rw [pass.compileFacts_eq] at h
  rw [allSpecs, List.forall_mem_append, List.forall_mem_append]
  generalize hearly : upsertFacts pass.earlySpecs draft = early at h
  generalize hsynced : invalidateFacts pass.dropped pass.now early = synced at h
  generalize hmiddle : upsertFacts pass.middleSpecs synced = middle at h
  have hissuedEarly : early.ids.Issued fact.id :=
    hearly ▸ hissued.mono (sequence_upsertFacts pass.earlySpecs draft)
  have hissuedSynced : synced.ids.Issued fact.id :=
    hsynced ▸ hissuedEarly.mono (sequence_invalidateFacts ..)
  have hissuedMiddle : middle.ids.Issued fact.id :=
    hmiddle ▸ hissuedSynced.mono (sequence_upsertFacts pass.middleSpecs synced)
  have hissuedGivenUp := hissuedMiddle.mono (sequence_invalidateFacts pass.givenUp pass.now middle)
  have hidGivenUp := mem_idsAt_of_upsertFacts hissuedGivenUp h
  have hidMiddle := mem_idsAt_of_invalidateFacts hidGivenUp
  have hidSynced := mem_idsAt_of_upsertFacts hissuedSynced (hmiddle ▸ hidMiddle)
  have hidEarly : fact.id ∈ idsAt early.facts subject :=
    mem_idsAt_of_invalidateFacts (hsynced ▸ hidSynced)
  -- each group of writes meets the fact as the group before has refreshed it
  have hsameEarly := same_of_survives hfacts hissued (hearly ▸ hidEarly)
  obtain ⟨hidFirst, hkindFirst, hsameFirst⟩ := refreshed_kept pass.earlySpecs subject fact
  have hfactsSynced : factsAt synced.facts subject = [refreshed pass.earlySpecs subject fact] := by
    rw [← hsynced, factsAt_invalidateFacts, ← hearly, factsAt_upsertFacts_of_same hfacts hsameEarly]
    simp [dropped_of_identity (hkindFirst.trans hkind)]
  have hsameMiddle := same_of_survives hfactsSynced (hidFirst ▸ hissuedSynced)
    (hidFirst ▸ hmiddle ▸ hidMiddle)
  obtain ⟨hidSecond, -, hsameSecond⟩ := refreshed_kept pass.middleSpecs subject
    (refreshed pass.earlySpecs subject fact)
  have hfactsGivenUp : factsAt (invalidateFacts pass.givenUp pass.now middle).facts subject =
      [refreshed pass.middleSpecs subject (refreshed pass.earlySpecs subject fact)] := by
    have hmiddleFacts := factsAt_upsertFacts_of_same hfactsSynced hsameMiddle
    rw [hmiddle] at hmiddleFacts
    have hfiltered := factsAt_invalidateFacts pass.givenUp pass.now middle subject
    rw [hmiddleFacts] at hfiltered
    rw [idsAt, hfiltered] at hidGivenUp
    rw [hfiltered]
    by_contra hne
    simp [List.filter_cons] at hne hidGivenUp
    simp [hne] at hidGivenUp
  have hsameProcedures := same_of_survives hfactsGivenUp
    ((hidSecond.trans hidFirst) ▸ hissuedGivenUp) ((hidSecond.trans hidFirst) ▸ h)
  refine ⟨⟨hsameEarly, fun spec hspec hsubject => ?_⟩, fun spec hspec hsubject => ?_⟩
  · rw [← hsameFirst]
    exact hsameMiddle spec hspec hsubject
  · rw [← hsameFirst, ← hsameSecond]
    exact hsameProcedures spec hspec hsubject

/-- A pass that does not touch the facts about the owner leaves them as they are. -/
theorem sameIdentity_of_leavesIdentity (h : pass.LeavesIdentity draft.facts) :
    SameIdentity draft.facts (pass.compileFacts draft).facts := by
  intro fact
  rw [mem_identityFacts, mem_identityFacts]
  by_cases howner : ∃ first ∈ identityFacts draft.facts, first.subject = fact.subject
  · obtain ⟨first, hfirst, hsubject⟩ := howner
    obtain ⟨hcandidate, hrefreshed, hwrites⟩ := h.kept first hfirst
    rw [hsubject] at hcandidate hrefreshed hwrites
    have hnotDropped : fact.kind = .identity → (!pass.dropped fact) = true := fun hkind => by
      rw [dropped_of_identity hkind, Bool.not_false]
    by_cases hwritten : ∃ spec ∈ pass.allSpecs, spec.subject = fact.subject
    · obtain ⟨spec, hspec, hat⟩ := hwritten
      have hfind := (hwrites spec hspec hat).1
      rw [find?_liveAt] at hfind
      obtain ⟨rest, hfacts⟩ := List.head?_eq_some_iff.mp hfind
      rw [factsAt_compileFacts_of_same hcandidate hfacts (mem_identityFacts.mp hfirst).2
        fun spec hspec hat => (hwrites spec hspec hat).2, hrefreshed, hfacts, List.mem_cons,
        List.mem_cons, List.mem_filter]
      tauto
    · have hunwritten : ∀ spec ∈ pass.allSpecs, spec.subject ≠ fact.subject := fun spec hspec hat =>
        hwritten ⟨spec, hspec, hat⟩
      rw [factsAt_compileFacts_of_unwritten hcandidate hunwritten, List.mem_filter]
      tauto
  · have hbefore : ¬ (fact ∈ factsAt draft.facts fact.subject ∧ fact.kind = .identity) := fun hfact =>
      howner ⟨fact, mem_identityFacts.mpr hfact, rfl⟩
    refine iff_of_false ?_ hbefore
    rintro ⟨hfact, hkind⟩
    by_cases hcandidate : fact.subject ∈ candidateSubjects pass.delta.invalidationCandidates
    · exact kind_of_mem_factsAt_of_candidate hcandidate hfact hkind
    by_cases hwritten : ∃ spec ∈ pass.allSpecs, spec.subject = fact.subject ∧ spec.kind = .identity
    · obtain ⟨spec, hspec, hsubject, hidentity⟩ := hwritten
      rcases h.unsaid spec hspec hidentity with hother | hgiven | ⟨hsingle, hlast⟩
      · exact howner (hsubject ▸ hother)
      · exact hcandidate (hsubject ▸ hgiven)
      · rw [hsubject] at hsingle hlast
        cases hwrite : lastWrite pass.allSpecs fact.subject with
        | none => exact lastWrite_eq_none.mp hwrite spec hspec hsubject
        | some last =>
            obtain ⟨only, honly, hwrote⟩ := exists_wrote_compileFacts hcandidate hsingle hwrite
            rw [honly, List.mem_singleton] at hfact
            subst hfact
            exact hlast last hwrite ((FactSpec.same_iff.mp hwrote.1).2.symm.trans hkind)
    · have hkinds : ∀ spec ∈ pass.allSpecs, spec.subject = fact.subject → spec.kind ≠ .identity :=
        fun spec hspec hsubject hidentity => hwritten ⟨spec, hspec, hsubject, hidentity⟩
      exact hbefore ⟨before_of_mem_compileFacts hkinds hfact hkind, hkind⟩

/-- Where no subject had two live facts, no other pass does. -/
theorem leavesIdentity_of_sameIdentity (hsingle : SingleLive draft.facts)
    (hissued : ∀ fact ∈ draft.facts, draft.ids.Issued fact.id)
    (h : SameIdentity draft.facts (pass.compileFacts draft).facts) :
    pass.LeavesIdentity draft.facts := by
  constructor
  · intro fact hfact
    obtain ⟨hafter, hkind⟩ := mem_identityFacts.mp ((h fact).mpr hfact)
    have hmem := (mem_identityFacts.mp hfact).1
    obtain ⟨only, honly⟩ := List.length_eq_one_iff.mp
      (le_antisymm (hsingle fact.subject) (List.length_pos_of_mem hmem))
    obtain rfl : fact = only := List.mem_singleton.mp (honly ▸ hmem)
    have hcandidate : fact.subject ∉ candidateSubjects pass.delta.invalidationCandidates :=
      fun hcandidate => kind_of_mem_factsAt_of_candidate hcandidate hafter hkind
    have hid : fact.id ∈ idsAt (pass.compileFacts draft).facts fact.subject :=
      List.mem_map.mpr ⟨fact, hafter, rfl⟩
    have hsame := same_of_survives_compileFacts honly hkind
      (hissued fact (mem_factsAt.mp hmem).1) hid
    rw [factsAt_compileFacts_of_same hcandidate honly hkind hsame] at hafter
    refine ⟨hcandidate, (List.mem_singleton.mp hafter).symm, fun spec hspec hsubject => ⟨?_, ?_⟩⟩
    · rw [find?_liveAt, honly, List.head?_cons]
    · exact hsame spec hspec hsubject
  · intro spec hspec hkind
    by_cases howner : ∃ fact ∈ identityFacts draft.facts, fact.subject = spec.subject
    · exact .inl howner
    by_cases hcandidate : spec.subject ∈ candidateSubjects pass.delta.invalidationCandidates
    · exact .inr (.inl hcandidate)
    refine .inr (.inr ⟨hsingle spec.subject, fun last hlast hidentity => ?_⟩)
    obtain ⟨fact, hfacts, hwrote⟩ :=
      exists_wrote_compileFacts hcandidate (hsingle spec.subject) hlast
    have hmem : fact ∈ factsAt (pass.compileFacts draft).facts spec.subject :=
      hfacts ▸ List.mem_singleton_self fact
    have hsubject := (mem_factsAt.mp hmem).2.1
    have hafter : fact ∈ identityFacts (pass.compileFacts draft).facts :=
      mem_identityFacts.mpr ⟨hsubject.symm ▸ hmem,
        (FactSpec.same_iff.mp hwrote.1).2.trans hidentity⟩
    exact howner ⟨fact, (h fact).mp hafter, hsubject⟩

end CompilationPass

end Passes

/-! ### Identifiers -/

/-- The generator has given out the identifier of every fact. -/
def FactsIssued (ids : IdGenerator) (facts : List StoredMemoryFact) : Prop :=
  ∀ fact ∈ facts, ids.Issued fact.id

theorem FactsIssued.mono (ids later : IdGenerator) (facts : List StoredMemoryFact)
    (hle : ids.sequence ≤ later.sequence) (h : FactsIssued ids facts) : FactsIssued later facts :=
  fun fact hfact => (h fact hfact).mono hle

theorem factsIssued_iff {ids : IdGenerator} {facts : List StoredMemoryFact} :
    FactsIssued ids facts ↔ ∀ id ∈ facts.map StoredMemoryFact.id, ids.Issued id := by
  rw [List.forall_mem_map]
  rfl

/-- A change of the facts that keeps their identifiers. -/
theorem FactsIssued.changed {ids : IdGenerator} {facts changed : List StoredMemoryFact}
    (h : FactsIssued ids facts)
    (hids : changed.map StoredMemoryFact.id = facts.map StoredMemoryFact.id) :
    FactsIssued ids changed := by
  rw [factsIssued_iff, hids]
  exact factsIssued_iff.mp h

section Issued

variable [Clock]

/-- A fact with a new identifier goes behind the others. -/
theorem FactsIssued.push {ids : IdGenerator} {facts : List StoredMemoryFact}
    (h : FactsIssued ids facts) {fact : StoredMemoryFact} (hid : fact.id = ids.nextMemoryFactId.1) :
    FactsIssued ids.nextMemoryFactId.2 (facts ++ [fact]) := by
  intro other hother
  rcases List.mem_append.mp hother with hmem | hmem
  · exact (h other hmem).mono (Nat.le_succ _)
  · rw [List.mem_singleton.mp hmem, hid]
    exact issued_nextValue ids "fact"

theorem upsertFact_issued (spec : FactSpec) {draft : FactDraft}
    (h : FactsIssued draft.ids draft.facts) :
    FactsIssued (upsertFact spec draft).ids (upsertFact spec draft).facts := by
  unfold upsertFact
  cases draft.facts.find? (StoredMemoryFact.liveAt spec.subject) with
  | none => exact h.push rfl
  | some existing =>
      by_cases hsame : spec.same existing
      · simp only [hsame, if_true]
        exact h.changed (Records.map_modifyFirst fun _ _ => rfl)
      · simp only [hsame, Bool.false_eq_true, if_false]
        have hretired : FactsIssued draft.ids
            (Records.modifyFirst (StoredMemoryFact.liveAt spec.subject)
              (.superseded draft.ids.nextMemoryFactId.1 spec.updatedAt) draft.facts) :=
          h.changed (Records.map_modifyFirst fun _ _ => rfl)
        exact hretired.push rfl

theorem upsertFacts_issued (specs : List FactSpec) {draft : FactDraft}
    (h : FactsIssued draft.ids draft.facts) :
    FactsIssued (upsertFacts specs draft).ids (upsertFacts specs draft).facts := by
  induction specs generalizing draft with
  | nil => exact h
  | cons spec rest ih => exact ih (upsertFact_issued spec h)

theorem invalidateFacts_issued (doomed : StoredMemoryFact → Bool) (now : Timestamp)
    {draft : FactDraft} (h : FactsIssued draft.ids draft.facts) :
    FactsIssued (invalidateFacts doomed now draft).ids (invalidateFacts doomed now draft).facts := by
  have hwhere : ∀ (facts : List StoredMemoryFact) (ids : IdGenerator),
      (invalidateWhere doomed now facts ids).1.map StoredMemoryFact.id =
        facts.map StoredMemoryFact.id := by
    intro facts
    induction facts with
    | nil => exact fun _ => rfl
    | cons fact rest ih =>
        intro ids
        unfold invalidateWhere
        split
        · exact congrArg (fact.id :: ·) (ih ids.nextMemoryFactId.2)
        · exact congrArg (fact.id :: ·) (ih ids)
  exact FactsIssued.mono _ _ _ (sequence_invalidateFacts doomed now draft)
    (h.changed (hwhere draft.facts draft.ids))

theorem CompilationPass.compileFacts_issued [Unicode] (pass : CompilationPass) {draft : FactDraft}
    (h : FactsIssued draft.ids draft.facts) :
    FactsIssued (pass.compileFacts draft).ids (pass.compileFacts draft).facts := by
  rw [pass.compileFacts_eq]
  exact upsertFacts_issued _ (invalidateFacts_issued _ _ (upsertFacts_issued _
    (invalidateFacts_issued _ _ (upsertFacts_issued _ h))))

variable [Unicode] [UnicodeCase]

theorem updateItem_issued (now : Timestamp) (item : AboutYouItem)
    {state : List StoredMemoryFact × IdGenerator} (h : FactsIssued state.2 state.1) :
    FactsIssued (updateItem now item state).2 (updateItem now item state).1 := by
  obtain ⟨facts, ids⟩ := state
  unfold updateItem
  dsimp only
  split
  · exact h
  · split
    · apply h.changed
      rw [List.map_map]
      apply List.map_congr_left
      intro fact _
      rw [Function.comp_apply]
      split <;> rfl
    · split
      · exact h.changed (Records.map_modifyFirst fun _ _ => rfl)
      · exact h.push rfl

theorem updateItems_issued (now : Timestamp) (items : List AboutYouItem)
    {state : List StoredMemoryFact × IdGenerator} (h : FactsIssued state.2 state.1) :
    FactsIssued (updateItems now items state).2 (updateItems now items state).1 := by
  unfold updateItems
  induction items generalizing state with
  | nil => exact h
  | cons item rest ih => exact ih (updateItem_issued now item h)

variable [JsonText]

theorem changes_issued {runtime : TurnRuntime} {request : MemoryRequest}
    {snapshot after : GlobalMemorySnapshot} {ids : IdGenerator}
    (h : FactsIssued runtime.ids snapshot.facts)
    (hchanges : request.Changes runtime snapshot after ids) : FactsIssued ids after.facts := by
  have hcompiled : ∀ compile threadId,
      CompiledBy compile threadId runtime snapshot after ids → FactsIssued ids after.facts := by
    rintro compile threadId ⟨thread, entries, delta, -, -, -, rfl, rfl⟩
    exact CompilationPass.compileFacts_issued _ h
  cases request with
  | compile threadId => exact hcompiled (fun input => .ok (heuristicDelta input)) threadId hchanges
  | compileFromLlmOutput threadId rawJson =>
      exact hcompiled (parseLlmMemoryDelta rawJson) threadId hchanges
  | updateAboutYou update =>
      obtain ⟨rfl, rfl⟩ := hchanges
      exact updateItems_issued _ _ h
  | correctKnowledge correction =>
      obtain ⟨rfl, rfl⟩ := hchanges
      exact FactsIssued.changed h (Records.map_modifyFirst fun _ _ => rfl)

/-- In every run the identifiers of the stored facts have been given out. -/
theorem factsIssued_along_runs [Disk] (inputs : List MemoryInput) :
    ∀ runtime ∈ Runs.states memoryStep .fresh inputs, Remembers FactsIssued runtime := by
  refine Runs.invariant (fun runtime input h _ => ?_) ?_ (Runs.allSteps_true _ inputs)
  · exact memoryStep_remembers FactsIssued.mono h
      fun snapshot after ids _ hissued hchanges => changes_issued hissued hchanges
  · intro snapshot hsnapshot
    obtain rfl : GlobalMemorySnapshot.empty = snapshot := Option.some.inj hsnapshot
    exact fun _ hfact => absurd hfact List.not_mem_nil

end Issued

/-! ### Compilations without evidence -/

section Compilations

variable [Disk] [Clock] [Unicode] [UnicodeCase] [JsonText]

omit [Disk] [Clock] [UnicodeCase] in
/-- Without evidence the delta says nothing about the owner in its summary. -/
theorem identitySummaryUpdate_eq_none {rawJson : String} {input : MemoryCompilationInput}
    {delta : MemoryCompilationDelta} (hcitations : input.citations = [])
    (h : parseLlmMemoryDelta rawJson input = .ok delta) : delta.identitySummaryUpdate = none := by
  unfold parseLlmMemoryDelta at h
  cases hread : readLlmMemoryDelta rawJson with
  | error message => simp [hread] at h
  | ok parsed =>
      simp only [hread, Except.ok.injEq] at h
      rw [← h]
      simp [llmDelta, hcitations]

/-- A compilation from a model's answer over a log without evidence, in any state that is reached:
the identity summary stays as it is, and so do the facts about the owner when the pass leaves them
alone; where it succeeds and no subject had two live facts, only then. -/
theorem identity_without_evidence {inputs : List MemoryInput} {runtime : TurnRuntime}
    (hreached : runtime ∈ Runs.states memoryStep .fresh inputs) (input : MemoryInput)
    (threadId : ThreadId) (rawJson : String)
    (hevidence : ∀ entries, ((input.arrival runtime).stores.turnLog threadId).read = .ok entries →
      citationsFromEntries threadId (recentEntries entries) = [])
    {before later : GlobalMemorySnapshot}
    (hbefore : storedMemory (input.arrival runtime).stores = some before)
    (hlater : storedMemory (after (compileThreadFromLlmOutput threadId rawJson)
      (input.arrival runtime)).stores = some later) :
    later.identitySummary = before.identitySummary ∧
    ((∀ pass ∈ passFor (parseLlmMemoryDelta rawJson) threadId (input.arrival runtime) before.facts,
      pass.LeavesIdentity before.facts) → SameIdentity before.facts later.facts) ∧
    (SingleLive before.facts →
      (result (compileThreadFromLlmOutput threadId rawJson) (input.arrival runtime)).isSome →
      SameIdentity before.facts later.facts →
      ∀ pass ∈ passFor (parseLlmMemoryDelta rawJson) threadId (input.arrival runtime) before.facts,
        pass.LeavesIdentity before.facts) := by
  have hissued : FactsIssued (input.arrival runtime).ids before.facts :=
    FactsIssued.mono _ _ _ (Nat.le_add_right _ _)
      (factsIssued_along_runs inputs runtime hreached before hbefore)
  generalize input.arrival runtime = arrived at *
  have hcompiled : MemoryChanged (CompiledBy (parseLlmMemoryDelta rawJson) threadId arrived) arrived
      (after (compileThreadFromLlmOutput threadId rawJson) arrived) →
      later.identitySummary = before.identitySummary ∧
      ∃ pass ids, passFor (parseLlmMemoryDelta rawJson) threadId arrived before.facts = some pass ∧
        FactsIssued ids before.facts ∧
        later.facts = (pass.compileFacts (.start before.facts ids)).facts := by
    rintro ⟨-, -, snapshot, stored, hsnapshot, hstored, hcompiled⟩
    obtain rfl : before = snapshot := Option.some.inj (hbefore.symm.trans hsnapshot)
    obtain rfl : later = stored := Option.some.inj (hlater.symm.trans hstored)
    obtain ⟨thread, entries, delta, hthread, hlog, hdelta, rfl, -⟩ := hcompiled
    have hnone := identitySummaryUpdate_eq_none (hevidence entries hlog) hdelta
    refine ⟨?_, _, arrived.ids.nowTimestamp.2, passFor_eq_some hthread hlog hdelta, hissued, rfl⟩
    change delta.identitySummaryUpdate.or before.identitySummary = before.identitySummary
    rw [hnone, Option.none_or]
  have hcases := compileWith_cases (parseLlmMemoryDelta rawJson) threadId arrived
  refine ⟨?_, fun hleaves => ?_, fun hsingle hresult hsame pass hpass => ?_⟩
  · rcases hcases with hkept | hchanged
    · rw [hkept.stored_eq hbefore hlater]
    · exact (hcompiled hchanged).1
  · rcases hcases with hkept | hchanged
    · rw [hkept.stored_eq hbefore hlater]
      exact fun _ => Iff.rfl
    · obtain ⟨-, pass, ids, hpass, -, hfacts⟩ := hcompiled hchanged
      rw [hfacts]
      exact CompilationPass.sameIdentity_of_leavesIdentity (hleaves pass hpass)
  · obtain ⟨summary, hsummary⟩ := Option.isSome_iff_exists.mp hresult
    have hchanged := wp_of_result (compileWith_changes (parseLlmMemoryDelta rawJson) threadId arrived)
      hsummary
    obtain ⟨-, other, ids, hother, hids, hfacts⟩ := hcompiled hchanged
    obtain rfl : other = pass := Option.some.inj (hother.symm.trans hpass)
    rw [hfacts] at hsame
    have hbefore : SingleLive (FactDraft.start before.facts ids).facts := hsingle
    exact CompilationPass.leavesIdentity_of_sameIdentity hbefore hids hsame

end Compilations

/-- A reader that knows one text. -/
@[reducible] def jsonOf (text : String) (value : Json) : JsonText :=
  ⟨fun other => if other = text then .ok value else .error "expected value at line 1 column 1",
    fun _ => "invalid type"⟩

/-- A model's answer with one durable fact that has this kind. -/
def decisionText : String :=
  "\x7b\"durable_facts\":[\x7b\"kind\":\"decision\",\"subject\":\"release\",\"value\":\"friday\"\x7d]\x7d"

def decisionJson : Json :=
  .object [("durable_facts", .array [.object [("kind", .string "decision"),
    ("subject", .string "release"), ("value", .string "friday")]])]

/-- A model's answer with one durable fact without a kind. -/
def kindlessText : String :=
  "\x7b\"durable_facts\":[\x7b\"subject\":\"owner:name\",\"value\":\"Ada\"\x7d]\x7d"

def kindlessJson : Json :=
  .object [("durable_facts", .array [.object [("subject", .string "owner:name"),
    ("value", .string "Ada")]])]

/-- The thread has an empty log, and a model answers. -/
def answered (text : String) : MemoryInput :=
  MemoryRequest.over (.compileFromLlmOutput "t" text) (threadWithGoal "ship")

theorem decision_without_evidence :
    ∃ later, storedMemory (after (@compileThreadFromLlmOutput calmDisk stoppedClock asciiTable
        (jsonOf decisionText decisionJson) "t" decisionText)
        ((answered decisionText).arrival .fresh)).stores = some later ∧
      later.identitySummary = none ∧ SameIdentity [] later.facts := by
  obtain ⟨later, hlater⟩ : ∃ later, storedMemory (after (@compileThreadFromLlmOutput calmDisk
      stoppedClock asciiTable (jsonOf decisionText decisionJson) "t" decisionText)
      ((answered decisionText).arrival .fresh)).stores = some later :=
    Option.isSome_iff_exists.mp (by decide +kernel)
  obtain ⟨hsummary, hfacts, -⟩ := @identity_without_evidence calmDisk stoppedClock asciiTable
    asciiCase (jsonOf decisionText decisionJson) [] .fresh (List.mem_singleton_self _)
    (answered decisionText) "t" decisionText
    (fun entries hread => by
      obtain rfl : [] = entries := Except.ok.inj hread
      rfl)
    .empty later rfl hlater
  exact ⟨later, hlater, hsummary, hfacts (by decide +kernel)⟩

/-- A durable fact without a kind is about the owner. -/
theorem kindless_fact_makes_identity :
    ¬ ∀ (disk : Disk) (clock : Clock) (unicode : Unicode) (letters : UnicodeCase) (json : JsonText)
      (inputs : List MemoryInput),
      ∀ runtime ∈ @Runs.states _ _ (@memoryStep disk clock unicode letters json) .fresh inputs,
      ∀ (input : MemoryInput) (threadId : ThreadId) (rawJson : String),
      (∀ entries, ((input.arrival runtime).stores.turnLog threadId).read = .ok entries →
        citationsFromEntries threadId (recentEntries entries) = []) →
      ∀ before later, storedMemory (input.arrival runtime).stores = some before →
        storedMemory (after (@compileThreadFromLlmOutput disk clock unicode json threadId rawJson)
          (input.arrival runtime)).stores = some later →
        later.identitySummary = before.identitySummary ∧
          SameIdentity before.facts later.facts := by
  intro h
  have hcount : (storedMemory (after (@compileThreadFromLlmOutput calmDisk stoppedClock asciiTable
      (jsonOf kindlessText kindlessJson) "t" kindlessText)
      ((answered kindlessText).arrival .fresh)).stores).map (fun snapshot =>
        (identityFacts snapshot.facts).length) = some 1 := by decide +kernel
  obtain ⟨later, hlater, hone⟩ := Option.map_eq_some_iff.mp hcount
  have hsame := (h calmDisk stoppedClock asciiTable asciiCase (jsonOf kindlessText kindlessJson) []
    .fresh (List.mem_singleton_self _) (answered kindlessText) "t" kindlessText
    (fun entries hread => by
      obtain rfl : [] = entries := Except.ok.inj hread
      rfl)
    .empty later rfl hlater).2
  obtain ⟨fact, hfact⟩ := List.exists_mem_of_length_pos (hone ▸ Nat.zero_lt_one)
  exact absurd ((hsame fact).mp hfact) List.not_mem_nil

end Liz
