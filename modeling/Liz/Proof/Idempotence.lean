import Liz.Base.Runs
import Liz.Proof.MemoryRuns

/-!
# Compiling a thread twice

The second of two compilations with nothing in between writes what the first has written. It changes
no fact exactly when the first live fact of every subject it writes says what is written there, and
this comes down to two things: commitments of one name are one commitment, and the fact that keeps
the heuristic from writing the identity again is still the one it looks at.
-/

namespace Liz

open Program

/-- What of a fact a pass that changes nothing must leave. -/
def StoredMemoryFact.projection (fact : StoredMemoryFact) :
    MemoryFactId × String × String × MemoryFactKind × Option Timestamp × Option MemoryFactId :=
  (fact.id, fact.subject, fact.value, fact.kind, fact.invalidatedAt, fact.invalidatedBy)

def StoredMemoryFact.tells (kind : MemoryFactKind) (value : String) (fact : StoredMemoryFact) :
    Bool :=
  fact.value = value && fact.kind = kind

def projections (facts : List StoredMemoryFact) :
    List (MemoryFactId × String × String × MemoryFactKind × Option Timestamp ×
      Option MemoryFactId) :=
  facts.map StoredMemoryFact.projection

/-- The first live fact of each subject that is written says what is written. -/
def Restated (specs : List FactSpec) (facts : List StoredMemoryFact) : Prop :=
  ∀ spec ∈ specs,
    (facts.find? (StoredMemoryFact.liveAt spec.subject)).any spec.same = true

/-- What a write finds under its subject can be told from the projections. -/
theorem find?_any_of_projections {facts later : List StoredMemoryFact}
    (h : projections later = projections facts) (spec : FactSpec) :
    (later.find? (StoredMemoryFact.liveAt spec.subject)).any spec.same =
      (facts.find? (StoredMemoryFact.liveAt spec.subject)).any spec.same := by
  have hfind : ∀ facts : List StoredMemoryFact,
      (facts.find? (StoredMemoryFact.liveAt spec.subject)).any spec.same =
        ((projections facts).find? fun (_, subject, _, _, invalidatedAt, _) =>
          subject = spec.subject && invalidatedAt.isNone).any fun (_, _, value, kind, _, _) =>
            value = spec.value && kind = spec.kind := by
    intro facts
    rw [projections, List.find?_map, Option.any_map]
    rfl
  rw [hfind, hfind, h]

theorem restated_of_projections {specs : List FactSpec} {facts later : List StoredMemoryFact}
    (h : projections later = projections facts) : Restated specs later ↔ Restated specs facts := by
  simp only [Restated, find?_any_of_projections h]

theorem length_of_projections {facts later : List StoredMemoryFact}
    (h : projections later = projections facts) : later.length = facts.length := by
  simpa [projections] using congrArg List.length h

section Writes

variable [Clock]

theorem projections_upsertFact {spec : FactSpec} {draft : FactDraft}
    (h : (draft.facts.find? (StoredMemoryFact.liveAt spec.subject)).any spec.same = true) :
    projections (upsertFact spec draft).facts = projections draft.facts := by
  rw [facts_upsertFact, Records.write]
  cases hfind : draft.facts.find? (StoredMemoryFact.liveAt spec.subject) with
  | none => simp [hfind] at h
  | some first =>
      rw [hfind, Option.any_some] at h
      simp only [h, if_true]
      exact Records.map_modifyFirst fun _ _ => rfl

/-- A write that does not find its own words adds a fact. -/
theorem length_upsertFact (spec : FactSpec) (draft : FactDraft) :
    (upsertFact spec draft).facts.length = draft.facts.length +
      if (draft.facts.find? (StoredMemoryFact.liveAt spec.subject)).any spec.same then 0 else 1 := by
  rw [facts_upsertFact, Records.write]
  cases hfind : draft.facts.find? (StoredMemoryFact.liveAt spec.subject) with
  | none => simp
  | some first =>
      by_cases hsame : spec.same first
      · simp [hsame, Records.length_modifyFirst]
      · simp [hsame, Records.length_modifyFirst]

theorem projections_upsertFacts {specs : List FactSpec} {draft : FactDraft}
    (h : Restated specs draft.facts) :
    projections (upsertFacts specs draft).facts = projections draft.facts := by
  induction specs generalizing draft with
  | nil => rfl
  | cons spec rest ih =>
      obtain ⟨hspec, hrest⟩ := List.forall_mem_cons.mp h
      have hfirst := projections_upsertFact hspec
      exact (ih ((restated_of_projections hfirst).mpr hrest)).trans hfirst

theorem length_le_upsertFacts (specs : List FactSpec) (draft : FactDraft) :
    draft.facts.length ≤ (upsertFacts specs draft).facts.length := by
  induction specs generalizing draft with
  | nil => exact le_rfl
  | cons spec rest ih =>
      exact (Nat.le_add_right _ _).trans ((length_upsertFact spec draft).symm.le.trans (ih _))

/-- Writes that add no fact found their own words. -/
theorem restated_of_length {specs : List FactSpec} {draft : FactDraft}
    (h : (upsertFacts specs draft).facts.length ≤ draft.facts.length) :
    Restated specs draft.facts := by
  induction specs generalizing draft with
  | nil => exact fun _ hspec => absurd hspec List.not_mem_nil
  | cons spec rest ih =>
      have hrest := length_le_upsertFacts rest (upsertFact spec draft)
      have hfirst := length_upsertFact spec draft
      rw [upsertFacts] at h
      split at hfirst
      next hspec =>
        have hsame := projections_upsertFact hspec
        have hsettled := ih (show (upsertFacts rest (upsertFact spec draft)).facts.length ≤
          (upsertFact spec draft).facts.length by omega)
        exact List.forall_mem_cons.mpr ⟨hspec, (restated_of_projections hsame).mp hsettled⟩
      next => omega

end Writes

/-! ### One pass -/

section Passes

variable [Unicode]

namespace CompilationPass

variable [Clock] (pass : CompilationPass) (draft : FactDraft)

/-- No commitment of the thread is left under a name the delta does not carry on. -/
theorem dropped_compileFacts (hdurable : ∀ spec ∈ pass.durableSpecs, spec.kind ≠ .commitment) :
    ∀ fact ∈ (pass.compileFacts draft).facts, pass.dropped fact = false := by
  intro fact hfact
  by_contra hdropped
  rw [Bool.not_eq_false] at hdropped
  have hparts := hdropped
  simp only [dropped, Bool.and_eq_true, decide_eq_true_eq] at hparts
  obtain ⟨⟨⟨hkind, -⟩, hinactive⟩, hlive⟩ := hparts
  have hmiddle : ∀ spec ∈ pass.middleSpecs, spec.subject = fact.subject →
      spec.kind ≠ .commitment := by
    intro spec hspec hsubject
    rcases List.mem_append.mp hspec with hspec | hspec
    · obtain ⟨commitment, hcommitment, rfl⟩ := List.mem_map.mp hspec
      refine absurd ?_ (Bool.not_eq_true' _ |>.mp hinactive ▸ Bool.false_ne_true)
      exact List.contains_iff_mem.mpr (List.mem_map.mpr ⟨commitment, hcommitment, hsubject⟩)
    · rcases List.mem_append.mp hspec with hspec | hspec
      · obtain ⟨_, _, rfl⟩ := List.mem_map.mp hspec
        exact MemoryFactKind.noConfusion
      · exact hdurable spec hspec
  have hprocedures : ∀ spec ∈ pass.procedureSpecs, spec.subject = fact.subject →
      spec.kind ≠ .commitment := by
    intro spec hspec _
    obtain ⟨_, _, rfl⟩ := List.mem_map.mp hspec
    exact MemoryFactKind.noConfusion
  have hmem : fact ∈ factsAt (pass.compileFacts draft).facts fact.subject :=
    mem_factsAt.mpr ⟨hfact, rfl, hlive⟩
  rw [pass.compileFacts_eq] at hmem
  have hbefore := (before_of_mem_upsertFacts hprocedures hmem hkind).1
  rw [factsAt_invalidateFacts] at hbefore
  have hsynced := (before_of_mem_upsertFacts hmiddle (List.mem_of_mem_filter hbefore) hkind).1
  rw [factsAt_invalidateFacts] at hsynced
  have hkept := (List.mem_filter.mp hsynced).2
  simp [hdropped] at hkept

/-- A pass that gives nothing up, over facts of which it drops none, changes no fact exactly when
every subject it writes is settled. -/
theorem projections_compileFacts_iff
    (hcandidates : candidateSubjects pass.delta.invalidationCandidates = [])
    (hdropped : ∀ fact ∈ draft.facts, pass.dropped fact = false) :
    projections (pass.compileFacts draft).facts = projections draft.facts ↔
      Restated pass.allSpecs draft.facts := by
  have hgivenUp : ∀ fact, pass.givenUp fact = false := by
    intro fact
    simp [givenUp, hcandidates]
  have hearly : ∀ fact ∈ (upsertFacts pass.earlySpecs draft).facts, pass.dropped fact = false := by
    intro fact hfact
    by_contra hdoomed
    rw [Bool.not_eq_false] at hdoomed
    have hparts := hdoomed
    simp only [dropped, Bool.and_eq_true, decide_eq_true_eq] at hparts
    have hmem := (before_of_mem_upsertFacts
      (fun spec hspec _ => kind_ne_of_mem_earlySpecs hspec)
      (mem_factsAt.mpr ⟨hfact, rfl, hparts.2⟩) hparts.1.1.1).1
    simp [hdropped fact (mem_factsAt.mp hmem).1] at hdoomed
  have hall : pass.compileFacts draft = upsertFacts pass.allSpecs draft := by
    rw [pass.compileFacts_eq, invalidateFacts_of_none hearly,
      invalidateFacts_of_none fun fact _ => hgivenUp fact, allSpecs, upsertFacts_append,
      upsertFacts_append]
  rw [hall]
  constructor
  · exact fun h => restated_of_length (length_of_projections h).le
  · exact projections_upsertFacts

end CompilationPass

end Passes

/-! ### The subjects of a thread -/

/-- What follows the thread's name in the subjects of a kind. -/
def subjectTag : MemoryFactKind → String
  | .activeState => ":ac"
  | .decision => ":cu"
  | .commitment => ":co"
  | .procedureCandidate => ":pr"
  | _ => ""

theorem threadSubject_injective {threadId left right : String}
    (h : "thread:" ++ threadId ++ left = "thread:" ++ threadId ++ right) : left = right :=
  (String.append_right_inj _).mp h

section Heuristic

variable [Unicode]

/-- The writes of a thread under its own subjects: everything but the identity and the facts a model
asks for. -/
def CompilationPass.ownSpecs (pass : CompilationPass) : List FactSpec :=
  pass.earlySpecs ++ pass.commitmentSpecs ++ pass.procedureSpecs

namespace CompilationPass

variable {pass : CompilationPass} {spec other : FactSpec}

theorem tag_of_mem_ownSpecs (h : spec ∈ pass.ownSpecs) :
    (∃ rest, spec.subject = "thread:" ++ pass.thread.id ++ rest ∧
      rest.toList.take 3 = (subjectTag spec.kind).toList) ∧
    spec.kind ∈ [MemoryFactKind.activeState, .decision, .commitment, .procedureCandidate] := by
  simp only [ownSpecs, earlySpecs, activeStateSpecs, goalSpecs, commitmentSpecs, procedureSpecs,
    List.mem_append, List.mem_map] at h
  rcases h with ((⟨_, _, rfl⟩ | ⟨_, _, rfl⟩) | ⟨commitment, _, rfl⟩) | ⟨procedure, _, rfl⟩
  · exact ⟨⟨":active_state", rfl, by simp [CompilationPass.spec, subjectTag]⟩, by simp [CompilationPass.spec]⟩
  · exact ⟨⟨":current_goal", rfl, by simp [CompilationPass.spec, subjectTag]⟩, by simp [CompilationPass.spec]⟩
  · refine ⟨⟨":commitment:" ++ slugify commitment, ?_, ?_⟩, by simp [CompilationPass.spec]⟩
    · exact String.append_assoc ..
    · simp [CompilationPass.spec, subjectTag]
  · refine ⟨⟨":procedure:" ++ slugify procedure, ?_, ?_⟩, by simp [CompilationPass.spec]⟩
    · exact String.append_assoc ..
    · simp [CompilationPass.spec, subjectTag]

/-- Writes under one of the thread's own subjects are of one kind. -/
theorem kind_eq_of_subject_eq (hspec : spec ∈ pass.ownSpecs) (hother : other ∈ pass.ownSpecs)
    (h : spec.subject = other.subject) : spec.kind = other.kind := by
  obtain ⟨⟨rest, hrest, htag⟩, hkind⟩ := tag_of_mem_ownSpecs hspec
  obtain ⟨⟨rest', hrest', htag'⟩, hkind'⟩ := tag_of_mem_ownSpecs hother
  rw [hrest, hrest'] at h
  rw [threadSubject_injective h, htag'] at htag
  generalize spec.kind = kind at hkind htag ⊢
  generalize other.kind = kind' at hkind' htag ⊢
  revert kind kind'
  decide

theorem subject_ne_identity_of_mem_ownSpecs (h : spec ∈ pass.ownSpecs) :
    spec.subject ≠ identitySubject := by
  obtain ⟨⟨rest, hrest, -⟩, -⟩ := tag_of_mem_ownSpecs h
  intro hidentity
  rw [hrest, identitySubject] at hidentity
  have hfirst := congrArg (fun s => s.toList.take 1) hidentity
  simp at hfirst

end CompilationPass

/-! ### The identity -/

/-- What the heuristic would say about the owner. -/
def derivedIdentity (citations : List MemoryCitationRef) (entries : List TurnLogEntry) :
    Option String :=
  if citations.isEmpty ∨ (identityLines entries).isEmpty then none
  else some (Text.join (identityLines entries) " ")

omit [Unicode] in
theorem previousIdentity_eq (facts : List StoredMemoryFact) :
    previousIdentity facts = (identityFacts facts).head?.map StoredMemoryFact.value := by
  rw [previousIdentity, identityFacts, List.head?_filter]

omit [Unicode] in
/-- It is written unless the first live fact about the owner says it already. -/
theorem deriveIdentitySummaryUpdate_eq (input : MemoryCompilationInput) :
    deriveIdentitySummaryUpdate input =
      (derivedIdentity input.citations input.recentEntries).filter fun update =>
        previousIdentity input.existingFacts ≠ some update := by
  unfold deriveIdentitySummaryUpdate derivedIdentity
  by_cases hcitations : input.citations.isEmpty
  · simp [hcitations]
  · by_cases hlines : (identityLines input.recentEntries).isEmpty
    · simp [hcitations, hlines]
    · by_cases hprevious : previousIdentity input.existingFacts =
          some (Text.join (identityLines input.recentEntries) " ")
      · simp [hcitations, hlines, hprevious, Option.filter]
      · simp [hcitations, hlines, hprevious, Option.filter]

/-- The pass writes under this subject of the thread. -/
def CompilationPass.owns (pass : CompilationPass) (subject : String) : Bool :=
  pass.ownSpecs.any fun spec => spec.subject = subject

section Writes

variable [Clock]

omit [Unicode] in
theorem identityFacts_upsertFacts {specs : List FactSpec} {draft : FactDraft}
    (hkinds : ∀ spec ∈ specs, spec.kind ≠ .identity)
    (hsingle : ∀ spec ∈ specs, (factsAt draft.facts spec.subject).length ≤ 1) :
    identityFacts (upsertFacts specs draft).facts =
      (identityFacts draft.facts).filter fun fact => specs.all (·.subject ≠ fact.subject) := by
  induction specs generalizing draft with
  | nil => simp [upsertFacts]
  | cons spec rest ih =>
      rw [List.forall_mem_cons] at hkinds hsingle
      have hfirst : identityFacts (upsertFact spec draft).facts =
          (identityFacts draft.facts).filter fun fact => !fact.liveAt spec.subject := by
        rw [facts_upsertFact]
        refine Records.filter_write_of_single hsingle.1 (fun fact _ hsame => ?_)
          (fun fact => ?_) ?_
        · have hkind := (FactSpec.same_iff.mp hsame).2
          simp [FactSpec.refresh, hkind, hkinds.1]
        · simp
        · simp [FactSpec.stored, hkinds.1]
      rw [upsertFacts, ih hkinds.2 fun other hother =>
        length_factsAt_upsertFact spec (hsingle.2 other hother), hfirst, List.filter_filter]
      refine List.filter_congr fun fact hfact => ?_
      have hlive := (List.mem_filter.mp hfact).2
      simp only [Bool.and_eq_true, decide_eq_true_eq] at hlive
      by_cases hsubject : fact.subject = spec.subject
      · simp [StoredMemoryFact.liveAt, hsubject, hlive.2]
      · simp [StoredMemoryFact.liveAt, hsubject, Ne.symm hsubject]

/-- A pass that says nothing about the owner leaves the facts about the owner whose subjects it does
not write. -/
theorem CompilationPass.identityFacts_compileFacts {pass : CompilationPass} {draft : FactDraft}
    (hcandidates : candidateSubjects pass.delta.invalidationCandidates = [])
    (hkinds : ∀ spec ∈ pass.allSpecs, spec.kind ≠ .identity)
    (hsingle : ∀ spec ∈ pass.allSpecs, (factsAt draft.facts spec.subject).length ≤ 1) :
    identityFacts (pass.compileFacts draft).facts =
      (identityFacts draft.facts).filter fun fact =>
        pass.allSpecs.all (·.subject ≠ fact.subject) := by
  have hinvalidate : ∀ (doomed : StoredMemoryFact → Bool) (draft : FactDraft),
      (∀ fact ∈ identityFacts draft.facts, doomed fact = false) →
      identityFacts (invalidateFacts doomed pass.now draft).facts = identityFacts draft.facts := by
    intro doomed draft hnone
    rw [identityFacts, filter_invalidateFacts (fun _ _ => by simp)]
    exact List.filter_eq_self.mpr fun fact hfact => by simp [hnone fact hfact]
  rw [allSpecs, List.forall_mem_append, List.forall_mem_append] at hkinds hsingle
  rw [pass.compileFacts_eq, identityFacts_upsertFacts hkinds.2, hinvalidate,
    identityFacts_upsertFacts hkinds.1.2, hinvalidate, identityFacts_upsertFacts hkinds.1.1
      hsingle.1.1]
  · simp only [List.filter_filter, allSpecs, List.all_append]
    refine List.filter_congr fun fact _ => ?_
    cases pass.earlySpecs.all fun spec => decide (spec.subject ≠ fact.subject) <;>
      cases pass.middleSpecs.all fun spec => decide (spec.subject ≠ fact.subject) <;> simp
  · intro fact hfact
    have hkind := (List.mem_filter.mp hfact).2
    simp only [Bool.and_eq_true, decide_eq_true_eq] at hkind
    simp [dropped, hkind.1]
  · intro spec hspec
    exact length_factsAt_invalidateFacts (length_factsAt_upsertFacts _ (hsingle.1.2 spec hspec))
  · intro fact _
    simp [givenUp, hcandidates]
  · intro spec hspec
    exact length_factsAt_invalidateFacts (length_factsAt_upsertFacts _
      (length_factsAt_invalidateFacts (length_factsAt_upsertFacts _ (hsingle.2 spec hspec))))

end Writes

/-! ### Two passes of the heuristic -/

omit [Unicode] in
theorem CompilationPass.same_spec (pass : CompilationPass) (kind : MemoryFactKind)
    (subject value : String) : (pass.spec kind subject value).same = StoredMemoryFact.tells kind value := rfl

/-- The facts whose subjects the pass does not write. -/
def CompilationPass.untouched (pass : CompilationPass) (facts : List StoredMemoryFact) :
    List StoredMemoryFact :=
  facts.filter fun fact => !pass.owns fact.subject

/-- The pass leaves nothing to do for another: no subject it may write has two live facts, its
commitments have different names, and if it does not write the identity because the first live fact
about the owner says it, then the first that the pass leaves says it too, or the fact at the
subject of the identity does. -/
structure CompilationPass.CompilesOnce (pass : CompilationPass) (facts : List StoredMemoryFact) :
    Prop where
  single : ∀ subject ∈ identitySubject :: pass.ownSpecs.map FactSpec.subject,
    (factsAt facts subject).length ≤ 1
  commitments : ∀ commitment ∈ pass.delta.commitments, ∀ other ∈ pass.delta.commitments,
    slugify commitment = slugify other → commitment = other
  identity : ∀ update ∈ derivedIdentity pass.citations pass.recentEntries,
    previousIdentity facts = some update →
      previousIdentity (pass.untouched facts) = some update ∨
      (facts.find? (StoredMemoryFact.liveAt identitySubject)).any
        (StoredMemoryFact.tells .identity update) = true

/-- The pass of the heuristic over a thread and its log. -/
def heuristicPass (threadId : ThreadId) (thread : Thread) (entries : List TurnLogEntry)
    (facts : List StoredMemoryFact) (now : Timestamp) : CompilationPass :=
  let input := compilationInput threadId thread entries facts
  input.passWith (heuristicDelta input) now

omit [Unicode] in
theorem deriveCandidateProcedures_unique {entries : List TurnLogEntry} {topics : List String} :
    ∀ procedure ∈ deriveCandidateProcedures entries topics,
      ∀ other ∈ deriveCandidateProcedures entries topics, procedure = other := by
  unfold deriveCandidateProcedures
  dsimp only
  split
  · simp
  · simp

namespace CompilationPass

variable {pass : CompilationPass} {spec other : FactSpec}

theorem value_eq_of_subject_eq
    (hprocedures : ∀ procedure ∈ pass.delta.candidateProcedures,
      ∀ other ∈ pass.delta.candidateProcedures, procedure = other)
    (hcommitments : ∀ commitment ∈ pass.delta.commitments, ∀ other ∈ pass.delta.commitments,
      slugify commitment = slugify other → commitment = other)
    (hspec : spec ∈ pass.ownSpecs) (hother : other ∈ pass.ownSpecs)
    (h : spec.subject = other.subject) : spec.value = other.value := by
  have hkind := kind_eq_of_subject_eq hspec hother h
  simp only [ownSpecs, earlySpecs, activeStateSpecs, goalSpecs, commitmentSpecs, procedureSpecs,
    List.mem_append, List.mem_map, Option.mem_toList] at hspec hother
  -- writes of one kind come from one list, all others are told apart by their kinds
  rcases hspec with ((⟨summary, hsummary, rfl⟩ | ⟨goal, hgoal, rfl⟩) |
      ⟨commitment, hcommitment, rfl⟩) | ⟨procedure, hprocedure, rfl⟩ <;>
    rcases hother with ((⟨summary', hsummary', rfl⟩ | ⟨goal', hgoal', rfl⟩) |
      ⟨commitment', hcommitment', rfl⟩) | ⟨procedure', hprocedure', rfl⟩ <;>
    first
    | exact MemoryFactKind.noConfusion hkind
    | skip
  · exact Option.mem_unique hsummary hsummary'
  · exact Option.mem_unique hgoal hgoal'
  · refine hcommitments commitment hcommitment commitment' hcommitment' ?_
    simpa [CompilationPass.spec, commitmentSubject, String.append_assoc] using h
  · exact hprocedures procedure hprocedure procedure' hprocedure'

/-- Where the thread's own subjects are settled, commitments of one name are one commitment. -/
theorem commitments_of_restated {facts : List StoredMemoryFact} (h : Restated pass.ownSpecs facts) :
    ∀ commitment ∈ pass.delta.commitments, ∀ other ∈ pass.delta.commitments,
      slugify commitment = slugify other → commitment = other := by
  intro commitment hcommitment other hother hslug
  have hmem : ∀ c ∈ pass.delta.commitments,
      pass.spec .commitment (commitmentSubject pass.thread.id c) c ∈ pass.ownSpecs := fun c hc =>
    List.mem_append_left _ (List.mem_append_right _ (List.mem_map.mpr ⟨c, hc, rfl⟩))
  have hfirst := h _ (hmem commitment hcommitment)
  have hsecond := h _ (hmem other hother)
  simp only [CompilationPass.spec, commitmentSubject, ← hslug] at hfirst hsecond
  cases hfind : facts.find? (StoredMemoryFact.liveAt
      ("thread:" ++ pass.thread.id ++ ":commitment:" ++ slugify commitment)) with
  | none => simp [hfind] at hfirst
  | some fact =>
      rw [hfind, Option.any_some, FactSpec.same_iff] at hfirst hsecond
      exact hfirst.1.symm.trans hsecond.1

theorem mem_allSpecs_of_mem_ownSpecs (h : spec ∈ pass.ownSpecs) : spec ∈ pass.allSpecs := by
  simp only [ownSpecs, allSpecs, middleSpecs, List.mem_append] at h ⊢
  tauto

theorem mem_allSpecs_iff (pass : CompilationPass) (hdurable : pass.durableSpecs = []) :
    spec ∈ pass.allSpecs ↔ spec ∈ pass.ownSpecs ∨ spec ∈ pass.identitySpecs := by
  simp only [ownSpecs, allSpecs, middleSpecs, hdurable, List.append_nil, List.mem_append]
  tauto

theorem kind_ne_identity_of_mem_ownSpecs (h : spec ∈ pass.ownSpecs) : spec.kind ≠ .identity := by
  have hkind := (tag_of_mem_ownSpecs h).2
  intro hidentity
  rw [hidentity] at hkind
  exact absurd hkind (by decide)

variable [Clock]

/-- After a pass the subjects of the thread are settled if the commitments have different names and
none of the subjects had two live facts. -/
theorem settled_ownSpecs_compileFacts {draft : FactDraft}
    (hcandidates : candidateSubjects pass.delta.invalidationCandidates = [])
    (hdurable : pass.durableSpecs = [])
    (hprocedures : ∀ procedure ∈ pass.delta.candidateProcedures,
      ∀ other ∈ pass.delta.candidateProcedures, procedure = other)
    (honce : pass.CompilesOnce draft.facts) :
    Restated pass.ownSpecs (pass.compileFacts draft).facts := by
  intro spec hspec
  have hsingle := honce.single spec.subject
    (List.mem_cons_of_mem _ (List.mem_map.mpr ⟨spec, hspec, rfl⟩))
  cases hlast : lastWrite pass.allSpecs spec.subject with
  | none => exact absurd rfl (lastWrite_eq_none.mp hlast spec (mem_allSpecs_of_mem_ownSpecs hspec))
  | some last =>
      obtain ⟨hmem, hsubject⟩ := mem_of_lastWrite hlast
      have hown : last ∈ pass.ownSpecs := by
        rcases (pass.mem_allSpecs_iff hdurable).mp hmem with hown | hidentity
        · exact hown
        · obtain ⟨_, _, rfl⟩ := List.mem_map.mp hidentity
          exact absurd hsubject.symm (subject_ne_identity_of_mem_ownSpecs hspec)
      obtain ⟨fact, hfacts, hsame, -⟩ :=
        exists_wrote_compileFacts (hcandidates ▸ List.not_mem_nil) hsingle hlast
      have hkind := kind_eq_of_subject_eq hspec hown hsubject.symm
      have hvalue := value_eq_of_subject_eq hprocedures honce.commitments hspec hown hsubject.symm
      rw [find?_liveAt, hfacts, List.head?_cons, Option.any_some, FactSpec.same_iff, hkind, hvalue]
      exact FactSpec.same_iff.mp hsame

section NoIdentity

variable (draft : FactDraft) (hcandidates : candidateSubjects pass.delta.invalidationCandidates = [])
  (hdurable : pass.durableSpecs = []) (hidentity : pass.identitySpecs = [])

include hcandidates hdurable hidentity

/-- The first live fact about the owner after a pass that says nothing about the owner. -/
theorem previousIdentity_compileFacts
    (hsingle : ∀ spec ∈ pass.ownSpecs, (factsAt draft.facts spec.subject).length ≤ 1) :
    previousIdentity (pass.compileFacts draft).facts =
      previousIdentity (pass.untouched draft.facts) := by
  have hown : ∀ spec ∈ pass.allSpecs, spec ∈ pass.ownSpecs := by
    intro spec hspec
    simpa [hidentity] using (pass.mem_allSpecs_iff hdurable).mp hspec
  have howns : ∀ subject, pass.allSpecs.all (fun spec => spec.subject ≠ subject) =
      !pass.owns subject := by
    intro subject
    rw [owns, Bool.eq_iff_iff]
    simp only [List.all_eq_true, Bool.not_eq_true', List.any_eq_false, decide_eq_true_eq]
    exact ⟨fun h spec hspec => h spec (mem_allSpecs_of_mem_ownSpecs hspec),
      fun h spec hspec => h spec (hown spec hspec)⟩
  rw [previousIdentity_eq, previousIdentity_eq,
    identityFacts_compileFacts hcandidates
      (fun spec hspec => kind_ne_identity_of_mem_ownSpecs (hown spec hspec))
      (fun spec hspec => hsingle spec (hown spec hspec))]
  simp only [howns, untouched, identityFacts, List.filter_filter, Bool.and_comm]

/-- The fact at the subject of the identity after such a pass. -/
theorem find?_identity_compileFacts
    (hsingle : (factsAt draft.facts identitySubject).length ≤ 1) (update : String) :
    ((pass.compileFacts draft).facts.find? (StoredMemoryFact.liveAt identitySubject)).any
        (StoredMemoryFact.tells .identity update) =
      (draft.facts.find? (StoredMemoryFact.liveAt identitySubject)).any
        (StoredMemoryFact.tells .identity update) := by
  have hunwritten : ∀ spec ∈ pass.allSpecs, spec.subject ≠ identitySubject := by
    intro spec hspec
    have hown : spec ∈ pass.ownSpecs := by
      simpa [hidentity] using (pass.mem_allSpecs_iff hdurable).mp hspec
    exact subject_ne_identity_of_mem_ownSpecs hown
  rw [find?_liveAt, find?_liveAt, factsAt_compileFacts_of_unwritten (hcandidates ▸ List.not_mem_nil) hunwritten]
  cases hfacts : factsAt draft.facts identitySubject with
  | nil => rfl
  | cons fact rest =>
      obtain rfl : rest = [] := by simpa [hfacts] using hsingle
      cases hdropped : pass.dropped fact with
      | false => simp [hdropped]
      | true =>
          -- a fact that is dropped is a commitment
          have hkind := hdropped
          simp only [dropped, Bool.and_eq_true, decide_eq_true_eq] at hkind
          simp [hdropped, StoredMemoryFact.tells, hkind.1.1.1]

end NoIdentity

end CompilationPass

section Twice

variable [Clock] (threadId : ThreadId) (thread : Thread) (entries : List TurnLogEntry)
  (facts : List StoredMemoryFact) (now later : Timestamp) (ids again : IdGenerator)

omit [Clock] in
theorem mem_identitySpecs_heuristicPass {spec : FactSpec} :
    spec ∈ (heuristicPass threadId thread entries facts now).identitySpecs ↔
      ∃ update, derivedIdentity (citationsFromEntries threadId (recentEntries entries))
          (recentEntries entries) = some update ∧ previousIdentity facts ≠ some update ∧
        (heuristicPass threadId thread entries facts now).spec .identity identitySubject update =
          spec := by
  have hupdate : (heuristicPass threadId thread entries facts now).delta.identitySummaryUpdate =
      (derivedIdentity (citationsFromEntries threadId (recentEntries entries))
        (recentEntries entries)).filter fun update => previousIdentity facts ≠ some update :=
    deriveIdentitySummaryUpdate_eq (compilationInput threadId thread entries facts)
  rw [CompilationPass.identitySpecs, List.mem_map, hupdate]
  simp only [Option.mem_toList, Option.filter_eq_some_iff, decide_eq_true_eq, and_assoc]

omit [Clock] in
theorem candidates_heuristicPass :
    candidateSubjects (heuristicPass threadId thread entries facts now).delta.invalidationCandidates =
      [] := rfl

omit [Clock] in
theorem durableSpecs_heuristicPass :
    (heuristicPass threadId thread entries facts now).durableSpecs = [] := rfl

/-- The facts after one pass. -/
def compiledFacts : List StoredMemoryFact :=
  ((heuristicPass threadId thread entries facts now).compileFacts (.start facts ids)).facts

omit [Clock] in
theorem identitySpecs_heuristicPass_eq_nil {update : String}
    (hderived : derivedIdentity (citationsFromEntries threadId (recentEntries entries))
      (recentEntries entries) = some update) (hprevious : previousIdentity facts = some update) :
    (heuristicPass threadId thread entries facts now).identitySpecs = [] := by
  refine List.eq_nil_iff_forall_not_mem.mpr fun spec hspec => ?_
  obtain ⟨other, hother, hne, -⟩ := (mem_identitySpecs_heuristicPass ..).mp hspec
  obtain rfl : update = other := Option.some.inj (hderived.symm.trans hother)
  exact hne hprevious

/-- Where the first pass leaves nothing to do, the second finds the identity as it would write
it. -/
theorem settled_identitySpecs_of_compilesOnce
    (honce : (heuristicPass threadId thread entries facts now).CompilesOnce facts) :
    Restated (heuristicPass threadId thread entries
        (compiledFacts threadId thread entries facts now ids) later).identitySpecs
      (compiledFacts threadId thread entries facts now ids) := by
  intro spec hspec
  obtain ⟨update, hderived, hprevious, rfl⟩ := (mem_identitySpecs_heuristicPass ..).mp hspec
  rw [CompilationPass.same_spec]
  have hsingle := honce.single identitySubject List.mem_cons_self
  by_cases hbefore : previousIdentity facts = some update
  · have hnone := identitySpecs_heuristicPass_eq_nil threadId thread entries facts now hderived
      hbefore
    rcases honce.identity update hderived hbefore with hfirst | hfact
    · refine absurd ?_ hprevious
      rw [← hfirst]
      exact CompilationPass.previousIdentity_compileFacts (.start facts ids)
        (candidates_heuristicPass ..) (durableSpecs_heuristicPass ..) hnone
        fun spec hspec => honce.single _ (List.mem_cons_of_mem _ (List.mem_map.mpr ⟨spec, hspec, rfl⟩))
    · exact (CompilationPass.find?_identity_compileFacts (.start facts ids)
        (candidates_heuristicPass ..) (durableSpecs_heuristicPass ..) hnone hsingle
        update).trans hfact
  · -- the first pass has written the identity itself
    have hwritten := (mem_identitySpecs_heuristicPass threadId thread entries facts now).mpr
      ⟨update, hderived, hbefore, rfl⟩
    cases hlast : lastWrite (heuristicPass threadId thread entries facts now).allSpecs
        identitySubject with
    | none =>
        have hmem := (CompilationPass.mem_allSpecs_iff _ (durableSpecs_heuristicPass ..)).mpr (.inr hwritten)
        exact absurd rfl (lastWrite_eq_none.mp hlast _ hmem)
    | some last =>
        obtain ⟨hmem, hsubject⟩ := mem_of_lastWrite hlast
        have hcandidate : identitySubject ∉ candidateSubjects
            (heuristicPass threadId thread entries facts now).delta.invalidationCandidates :=
          List.not_mem_nil
        have hsingle' : (factsAt (FactDraft.start facts ids).facts identitySubject).length ≤ 1 :=
          hsingle
        obtain ⟨fact, hfacts, hsame, -⟩ :=
          CompilationPass.exists_wrote_compileFacts hcandidate hsingle' hlast
        rcases (CompilationPass.mem_allSpecs_iff _ (durableSpecs_heuristicPass ..)).mp hmem with hown | hidentity
        · exact absurd hsubject (CompilationPass.subject_ne_identity_of_mem_ownSpecs hown)
        · obtain ⟨other, hother, -, rfl⟩ := (mem_identitySpecs_heuristicPass ..).mp hidentity
          obtain rfl : update = other := Option.some.inj (hderived.symm.trans hother)
          have hfirst : (factsAt (compiledFacts threadId thread entries facts now ids)
              identitySubject).head? = some fact := by
            rw [compiledFacts, hfacts, List.head?_cons]
          rw [CompilationPass.same_spec] at hsame
          change ((compiledFacts threadId thread entries facts now ids).find?
            (StoredMemoryFact.liveAt identitySubject)).any _ = true
          rw [find?_liveAt, hfirst, Option.any_some]
          exact hsame

omit [Clock] in
/-- The passes over one thread and log write the same under the subjects of the thread. -/
theorem ownSpecs_heuristicPass (other : List StoredMemoryFact) :
    (heuristicPass threadId thread entries other later).ownSpecs =
      (heuristicPass threadId thread entries facts now).ownSpecs.map fun spec =>
        { spec with updatedAt := later } := by
  simp only [CompilationPass.ownSpecs, CompilationPass.earlySpecs, CompilationPass.activeStateSpecs,
    CompilationPass.goalSpecs, CompilationPass.commitmentSpecs, CompilationPass.procedureSpecs,
    List.map_append, List.map_map]
  rfl

omit [Clock] in
theorem settled_ownSpecs_heuristicPass (other stored : List StoredMemoryFact) :
    Restated (heuristicPass threadId thread entries other later).ownSpecs stored ↔
      Restated (heuristicPass threadId thread entries facts now).ownSpecs stored := by
  rw [ownSpecs_heuristicPass threadId thread entries facts now later other, Restated,
    List.forall_mem_map]
  rfl

/-- A second pass over the same thread and log changes no fact exactly when the first leaves it
nothing to do. -/
theorem projections_compile_twice :
    let once := compiledFacts threadId thread entries facts now ids
    let twice := compiledFacts threadId thread entries once later again
    ((heuristicPass threadId thread entries facts now).CompilesOnce facts →
      projections twice = projections once) ∧
    (SingleLive facts → projections twice = projections once →
      (heuristicPass threadId thread entries facts now).CompilesOnce facts) := by
  intro once twice
  have hdropped : ∀ fact ∈ once,
      (heuristicPass threadId thread entries once later).dropped fact = false :=
    (heuristicPass threadId thread entries facts now).dropped_compileFacts (.start facts ids)
      fun spec hspec => absurd hspec List.not_mem_nil
  have hsecond : projections twice = projections once ↔
      Restated (heuristicPass threadId thread entries once later).allSpecs once :=
    (heuristicPass threadId thread entries once later).projections_compileFacts_iff
      (.start once again) (candidates_heuristicPass ..) hdropped
  have hsplit : Restated (heuristicPass threadId thread entries once later).allSpecs once ↔
      Restated (heuristicPass threadId thread entries facts now).ownSpecs once ∧
      Restated (heuristicPass threadId thread entries once later).identitySpecs once := by
    rw [← settled_ownSpecs_heuristicPass threadId thread entries facts now later once]
    simp only [Restated, (heuristicPass threadId thread entries once later).mem_allSpecs_iff
      (durableSpecs_heuristicPass ..),
      or_imp, forall_and]
  rw [hsecond, hsplit]
  constructor
  · intro honce
    exact ⟨CompilationPass.settled_ownSpecs_compileFacts (candidates_heuristicPass ..)
      (durableSpecs_heuristicPass ..) deriveCandidateProcedures_unique
      honce, settled_identitySpecs_of_compilesOnce threadId thread entries facts now later ids honce⟩
  · rintro hsingle ⟨hown, hidentity⟩
    refine ⟨fun subject _ => hsingle subject, CompilationPass.commitments_of_restated hown, ?_⟩
    intro update hderived hbefore
    have hnone := identitySpecs_heuristicPass_eq_nil threadId thread entries facts now hderived
      hbefore
    by_cases hafter : previousIdentity once = some update
    · left
      rw [← hafter]
      exact (CompilationPass.previousIdentity_compileFacts (.start facts ids)
        (candidates_heuristicPass ..) (durableSpecs_heuristicPass ..) hnone
        fun spec _ => hsingle spec.subject).symm
    · right
      have hspec := (mem_identitySpecs_heuristicPass threadId thread entries once later).mpr
        ⟨update, hderived, hafter, rfl⟩
      have hsettled := hidentity _ hspec
      rw [CompilationPass.same_spec] at hsettled
      exact (CompilationPass.find?_identity_compileFacts (.start facts ids)
        (candidates_heuristicPass ..) (durableSpecs_heuristicPass ..) hnone
        (hsingle identitySubject) update).symm.trans hsettled

end Twice

/-! ### Two compilations -/

section Compilations

variable [Disk] [Clock]

/-- A compilation that succeeds stores the facts of its pass. -/
theorem compileThread_stores {threadId : ThreadId} {runtime : TurnRuntime}
    {summary : MemoryCompilationSummary}
    (h : result (compileThread threadId) runtime = some summary) :
    ∃ thread entries before once, runtime.stores.threads.lookup threadId = some (.intact thread) ∧
      (runtime.stores.turnLog threadId).read = .ok entries ∧
      storedMemory runtime.stores = some before ∧
      storedMemory (after (compileThread threadId) runtime).stores = some once ∧
      once.facts = compiledFacts threadId thread entries before.facts
        runtime.ids.nowTimestamp.1 runtime.ids.nowTimestamp.2 ∧
      (after (compileThread threadId) runtime).stores.threads = runtime.stores.threads ∧
      (after (compileThread threadId) runtime).stores.turnLogs = runtime.stores.turnLogs := by
  obtain ⟨hthreads, hlogs, before, once, hbefore, honce, hcompiled⟩ :=
    wp_of_result (compileWith_changes _ threadId runtime) h
  obtain ⟨thread, entries, delta, hthread, hlog, hdelta, rfl, -⟩ := hcompiled
  obtain rfl := Except.ok.inj hdelta
  exact ⟨thread, entries, before, _, hthread, hlog, hbefore, honce, rfl, hthreads, hlogs⟩

/-- A second compilation of a thread, with nothing in between, leaves the facts of the first exactly
when the first pass leaves nothing to do. -/
theorem compile_twice_keeps_facts {threadId : ThreadId} {runtime : TurnRuntime}
    {summary again : MemoryCompilationSummary}
    (hfirst : result (compileThread threadId) runtime = some summary)
    (hsecond : result (compileThread threadId) (after (compileThread threadId) runtime) =
      some again) :
    ∃ before once twice pass, storedMemory runtime.stores = some before ∧
      passFor (fun input => .ok (heuristicDelta input)) threadId runtime before.facts = some pass ∧
      storedMemory (after (compileThread threadId) runtime).stores = some once ∧
      storedMemory (after (compileThread threadId)
        (after (compileThread threadId) runtime)).stores = some twice ∧
      (pass.CompilesOnce before.facts → projections twice.facts = projections once.facts) ∧
      (SingleLive before.facts → projections twice.facts = projections once.facts →
        pass.CompilesOnce before.facts) := by
  obtain ⟨thread, entries, before, once, hthread, hlog, hbefore, honce, hfacts, hthreads, hlogs⟩ :=
    compileThread_stores hfirst
  obtain ⟨thread', entries', once', twice, hthread', hlog', honce', htwice, hfacts', -, -⟩ :=
    compileThread_stores hsecond
  -- the second compilation meets the thread, the log and the facts the first one has left
  rw [hthreads, hthread, Option.some.injEq, JsonFile.intact.injEq] at hthread'
  rw [RuntimeStores.turnLog, hlogs] at hlog'
  obtain rfl : entries = entries' := Except.ok.inj (hlog.symm.trans hlog')
  obtain rfl : once = once' := Option.some.inj (honce.symm.trans honce')
  subst hthread'
  refine ⟨before, once, twice, _, hbefore, passFor_eq_some hthread hlog rfl, honce, htwice, ?_⟩
  rw [hfacts', hfacts]
  exact projections_compile_twice threadId thread entries before.facts _ _ _ _

end Compilations

end Heuristic

def threadWithCommitments (commitments : List String) : Thread :=
  { Thread.blank "t" with pendingCommitments := commitments }

/-- A runtime with this thread, and no facts. -/
def TurnRuntime.withThread (thread : Thread) : TurnRuntime :=
  { TurnRuntime.fresh with
    stores := { RuntimeStores.blank with threads := threadTable thread } }

def twoCommitments : Thread := threadWithCommitments ["finish parser tests", "write docs"]

/-- A thread with two commitments of different names is compiled twice. -/
theorem two_commitments_compiled_twice :
    ∃ before once twice pass,
      storedMemory (TurnRuntime.withThread twoCommitments).stores = some before ∧
      @passFor stoppedClock (fun input => .ok (@heuristicDelta asciiTable input)) "t"
        (.withThread twoCommitments) before.facts = some pass ∧
      storedMemory (after (@compileThread calmDisk stoppedClock asciiTable "t")
        (.withThread twoCommitments)).stores = some once ∧
      storedMemory (after (@compileThread calmDisk stoppedClock asciiTable "t")
        (after (@compileThread calmDisk stoppedClock asciiTable "t")
          (.withThread twoCommitments))).stores = some twice ∧
      (@CompilationPass.CompilesOnce asciiTable pass before.facts →
        projections twice.facts = projections once.facts) ∧
      (SingleLive before.facts → projections twice.facts = projections once.facts →
        @CompilationPass.CompilesOnce asciiTable pass before.facts) := by
  obtain ⟨summary, hfirst⟩ : ∃ summary, result (@compileThread calmDisk stoppedClock asciiTable "t")
      (.withThread twoCommitments) = some summary :=
    Option.isSome_iff_exists.mp (by decide +kernel)
  obtain ⟨again, hsecond⟩ : ∃ again, result (@compileThread calmDisk stoppedClock asciiTable "t")
      (after (@compileThread calmDisk stoppedClock asciiTable "t")
        (.withThread twoCommitments)) = some again :=
    Option.isSome_iff_exists.mp (by decide +kernel)
  exact @compile_twice_keeps_facts asciiTable calmDisk stoppedClock "t"
    (.withThread twoCommitments) summary again hfirst hsecond

/-- Two commitments whose words are too short to name them take turns at one subject. -/
theorem short_commitments_take_turns :
    ¬ ∀ (disk : Disk) (clock : Clock) (unicode : Unicode) (letters : UnicodeCase) (json : JsonText)
      (inputs : List MemoryInput) (threadId : ThreadId),
      ∀ runtime ∈ @Runs.states _ _ (@memoryStep disk clock unicode letters json) .fresh inputs,
      (result (@compileThread disk clock unicode threadId) runtime).isSome →
      (result (@compileThread disk clock unicode threadId)
        (after (@compileThread disk clock unicode threadId) runtime)).isSome →
      ∀ once twice,
        storedMemory (after (@compileThread disk clock unicode threadId) runtime).stores =
          some once →
        storedMemory (after (@compileThread disk clock unicode threadId)
          (after (@compileThread disk clock unicode threadId) runtime)).stores = some twice →
        projections twice.facts = projections once.facts := by
  intro h
  have hrun := h calmDisk stoppedClock asciiTable asciiCase noJson
    [MemoryRequest.over (.compile "t") (threadWithCommitments ["go", "do"])] "t" _
    (Runs.final_mem_states _ _) (by decide +kernel) (by decide +kernel)
  generalize hfirst : after (@compileThread calmDisk stoppedClock asciiTable "t")
    (@Runs.final _ _ (@memoryStep calmDisk stoppedClock asciiTable asciiCase noJson) .fresh
      [MemoryRequest.over (.compile "t") (threadWithCommitments ["go", "do"])]) = first at hrun
  have honce : (storedMemory first.stores).map (fun snapshot => snapshot.facts.length) = some 4 := by
    rw [← hfirst]
    decide +kernel
  have htwice : (storedMemory (after (@compileThread calmDisk stoppedClock asciiTable "t")
      first).stores).map (fun snapshot => snapshot.facts.length) = some 6 := by
    rw [← hfirst]
    decide +kernel
  obtain ⟨once, hstored, hfour⟩ := Option.map_eq_some_iff.mp honce
  obtain ⟨twice, hlater, hsix⟩ := Option.map_eq_some_iff.mp htwice
  have hlength := length_of_projections (hrun once twice hstored hlater)
  omega

end Liz
