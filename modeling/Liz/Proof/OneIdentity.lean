import Liz.Proof.AboutYou
import Liz.Proof.IdentityCitations
import Liz.Proof.IdentityEvidence
import Liz.Runtime.Wakeup

/-!
# Two copies of the identity

What liz makes of the owner is stored twice: as the identity summary of the snapshot and as a fact
under `owner:identity_summary`. A compilation writes both, an About You update only the first, and
an item of an update, a correction and a durable fact of a model only the second. Whoever writes
one of them has to agree with the other; then every reader who is shown the fact is shown the
summary.
-/

namespace Liz

open Program

/-- Every live fact about the owner under the subject of the identity tells the summary. -/
def GlobalMemorySnapshot.OneIdentity (snapshot : GlobalMemorySnapshot) : Prop :=
  ∀ value ∈ valuesAt snapshot.facts identitySubject, snapshot.identitySummary = some value

theorem oneIdentity_iff {snapshot : GlobalMemorySnapshot} :
    snapshot.OneIdentity ↔ ∀ fact ∈ snapshot.facts, fact.kind = .identity →
      fact.subject = identitySubject → fact.live = true →
      snapshot.identitySummary = some fact.value := by
  unfold GlobalMemorySnapshot.OneIdentity valuesAt
  rw [List.forall_mem_map]
  simp only [mem_identitiesAt, and_imp]

/-! ### What a writer has to agree with -/

/-- The subject is given up; or it has one live fact at most and the last durable fact for it, when
it is about the owner, tells the summary; or all durable facts about the owner for it tell the
summary, and so do the live facts that are there. -/
def CompilationPass.Agrees (pass : CompilationPass) (snapshot : GlobalMemorySnapshot) : Prop :=
  let summary := pass.delta.identitySummaryUpdate.or snapshot.identitySummary
  identitySubject ∈ candidateSubjects pass.delta.invalidationCandidates ∨
  ((factsAt snapshot.facts identitySubject).length ≤ 1 ∧
    ∀ last ∈ lastWrite pass.durableSpecs identitySubject, last.kind = .identity →
      summary = some last.value) ∨
  ((∀ spec ∈ pass.durableSpecs, spec.subject = identitySubject → spec.kind = .identity →
      summary = some spec.value) ∧
    ∀ value ∈ valuesAt snapshot.facts identitySubject, summary = some value)

/-- Without an item for the subject, the live facts under it tell the new summary; the last item for
it is blank or tells the new summary, and so does every live fact behind the first, unless the
items take the facts back. -/
def AboutYouUpdate.Agrees (update : AboutYouUpdate) (snapshot : GlobalMemorySnapshot) : Prop :=
  match lastItem update.items identitySubject with
  | none => ∀ value ∈ valuesAt snapshot.facts identitySubject, update.identitySummary = some value
  | some item => Text.isBlank item.value = true ∨
      (update.identitySummary = some (Text.trim item.value) ∧
        ((∃ item ∈ update.items, item.names identitySubject = true ∧
            Text.isBlank item.value = true) ∨
          ∀ value ∈ (valuesAt snapshot.facts identitySubject).tail,
            update.identitySummary = some value))

/-- A live fact about the owner under the subject is only corrected to the summary. -/
def KnowledgeCorrection.Agrees (correction : KnowledgeCorrection)
    (snapshot : GlobalMemorySnapshot) : Prop :=
  ∀ fact ∈ snapshot.facts.find? (StoredMemoryFact.hasId correction.factId),
    fact.identityAt identitySubject = true →
      snapshot.identitySummary = some correction.correctedValue

/-- What the owner asks for agrees with the snapshot. -/
def MemoryRequest.AgreesWith (snapshot : GlobalMemorySnapshot) : MemoryRequest → Prop
  | updateAboutYou update => update.Agrees snapshot
  | correctKnowledge correction => correction.Agrees snapshot
  | compile _ => True
  | compileFromLlmOutput _ _ => True

/-- What the request writes agrees with what is stored when it arrives. -/
def MemoryRequest.Agrees [Clock] [Unicode] [JsonText] (runtime : TurnRuntime)
    (request : MemoryRequest) : Prop :=
  ∀ snapshot ∈ storedMemory runtime.stores,
    (∀ pass ∈ request.pass runtime snapshot.facts, pass.Agrees snapshot) ∧
      request.AgreesWith snapshot

instance (pass : CompilationPass) (snapshot : GlobalMemorySnapshot) :
    Decidable (pass.Agrees snapshot) :=
  inferInstanceAs (Decidable (_ ∈ candidateSubjects _ ∨
    (_ ≤ 1 ∧ ∀ last ∈ lastWrite _ _, _ → _) ∨
    ((∀ spec ∈ pass.durableSpecs, _ → _ → _) ∧ ∀ value ∈ valuesAt _ _, _)))

instance (update : AboutYouUpdate) (snapshot : GlobalMemorySnapshot) :
    Decidable (update.Agrees snapshot) :=
  match h : lastItem update.items identitySubject with
  | none =>
      decidable_of_iff (∀ value ∈ valuesAt snapshot.facts identitySubject,
        update.identitySummary = some value) (by rw [AboutYouUpdate.Agrees, h])
  | some item =>
      decidable_of_iff (Text.isBlank item.value = true ∨
        (update.identitySummary = some (Text.trim item.value) ∧
          ((∃ item ∈ update.items, item.names identitySubject = true ∧
              Text.isBlank item.value = true) ∨
            ∀ value ∈ (valuesAt snapshot.facts identitySubject).tail,
              update.identitySummary = some value))) (by rw [AboutYouUpdate.Agrees, h])

instance (correction : KnowledgeCorrection) (snapshot : GlobalMemorySnapshot) :
    Decidable (correction.Agrees snapshot) :=
  inferInstanceAs (Decidable (∀ fact ∈ snapshot.facts.find? _, _ → _))

instance (snapshot : GlobalMemorySnapshot) : ∀ request : MemoryRequest,
    Decidable (request.AgreesWith snapshot)
  | .updateAboutYou update => inferInstanceAs (Decidable (update.Agrees snapshot))
  | .correctKnowledge correction => inferInstanceAs (Decidable (correction.Agrees snapshot))
  | .compile _ => inferInstanceAs (Decidable True)
  | .compileFromLlmOutput _ _ => inferInstanceAs (Decidable True)

instance [Clock] [Unicode] [JsonText] (runtime : TurnRuntime) (request : MemoryRequest) :
    Decidable (request.Agrees runtime) :=
  inferInstanceAs (Decidable (∀ snapshot ∈ storedMemory runtime.stores,
    (∀ pass ∈ request.pass runtime snapshot.facts, pass.Agrees snapshot) ∧ _))

/-! ### Writes -/

section Writes

variable [Clock]

/-- What is asked of the kinds and values at a subject and of those that are written there holds of
what is left. -/
theorem forall_factsAt_upsertFacts {P : MemoryFactKind → String → Prop} {specs : List FactSpec}
    {draft : FactDraft} {subject : String}
    (hspecs : ∀ spec ∈ specs, spec.subject = subject → P spec.kind spec.value)
    (hfacts : ∀ fact ∈ factsAt draft.facts subject, P fact.kind fact.value) :
    ∀ fact ∈ factsAt (upsertFacts specs draft).facts subject, P fact.kind fact.value := by
  induction specs generalizing draft with
  | nil => exact hfacts
  | cons spec rest ih =>
      rw [List.forall_mem_cons] at hspecs
      refine ih hspecs.2 fun fact hfact => ?_
      obtain ⟨hmem, hsubject, hlive⟩ := mem_factsAt.mp hfact
      rw [facts_upsertFact] at hmem
      rcases Records.mem_of_mem_write hmem with rfl | ⟨old, hold, rfl | rfl | rfl⟩
      · exact hspecs.1 hsubject
      · exact hfacts fact (mem_factsAt.mpr ⟨hold, hsubject, hlive⟩)
      · exact hfacts old (mem_factsAt.mpr ⟨hold, hsubject, hlive⟩)
      · exact absurd hlive (by simp)

variable [Unicode]

omit [Clock] in
/-- Only the identity and the durable facts are written under the subject of the identity. -/
theorem CompilationPass.mem_durableSpecs_of_identitySubject {pass : CompilationPass}
    {spec : FactSpec} (hspec : spec ∈ pass.allSpecs) (hsubject : spec.subject = identitySubject) :
    spec ∈ pass.identitySpecs ∨ spec ∈ pass.durableSpecs := by
  simp only [allSpecs, middleSpecs, List.mem_append] at hspec
  have hown : spec ∉ pass.ownSpecs := fun hown =>
    subject_ne_identity_of_mem_ownSpecs hown hsubject
  simp only [ownSpecs, List.mem_append, not_or] at hown
  tauto

omit [Clock] in
theorem CompilationPass.lastWrite_identitySubject (pass : CompilationPass) :
    lastWrite pass.allSpecs identitySubject =
      (lastWrite pass.durableSpecs identitySubject).or
        (lastWrite pass.identitySpecs identitySubject) := by
  have hnone : ∀ specs : List FactSpec, (∀ spec ∈ specs, spec ∈ pass.ownSpecs) →
      lastWrite specs identitySubject = none := fun specs hspecs =>
    lastWrite_eq_none.mpr fun spec hspec => subject_ne_identity_of_mem_ownSpecs (hspecs spec hspec)
  have hearly := hnone pass.earlySpecs fun spec hspec =>
    List.mem_append_left _ (List.mem_append_left _ hspec)
  have hcommitments := hnone pass.commitmentSpecs fun spec hspec =>
    List.mem_append_left _ (List.mem_append_right _ hspec)
  have hprocedures := hnone pass.procedureSpecs fun spec hspec => List.mem_append_right _ hspec
  rw [lastWrite_allSpecs, hearly, hprocedures, middleSpecs, lastWrite_append, lastWrite_append,
    hcommitments, Option.or_none, Option.or_none, Option.none_or]

/-- What a pass leaves under the subject of the identity tells the summary it stores. -/
theorem CompilationPass.compileFacts_oneIdentity {pass : CompilationPass}
    {snapshot : GlobalMemorySnapshot} (hone : snapshot.OneIdentity) (hagrees : pass.Agrees snapshot)
    (ids : IdGenerator) :
    ∀ fact ∈ factsAt (pass.compileFacts (.start snapshot.facts ids)).facts identitySubject,
      fact.kind = .identity →
      pass.delta.identitySummaryUpdate.or snapshot.identitySummary = some fact.value := by
  have hidentity : ∀ spec ∈ pass.identitySpecs,
      pass.delta.identitySummaryUpdate.or snapshot.identitySummary = some spec.value := by
    intro spec hspec
    obtain ⟨update, hupdate, rfl⟩ := List.mem_map.mp hspec
    rw [Option.mem_toList.mp hupdate]
    rfl
  by_cases hcandidate : identitySubject ∈ candidateSubjects pass.delta.invalidationCandidates
  · intro fact hfact hkind
    exact absurd hkind (kind_of_mem_factsAt_of_candidate hcandidate hfact)
  · rcases hagrees.resolve_left hcandidate with ⟨hsingle, hlast⟩ | ⟨hspecs, hvalues⟩
    · cases hwrite : lastWrite pass.allSpecs identitySubject with
      | some last =>
          have hstart : (factsAt (FactDraft.start snapshot.facts ids).facts identitySubject).length ≤ 1 :=
            hsingle
          obtain ⟨only, honly, hwrote⟩ := exists_wrote_compileFacts hcandidate hstart hwrite
          obtain ⟨hvalue, hkind⟩ := FactSpec.same_iff.mp hwrote.1
          intro fact hfact hidentityKind
          obtain rfl := List.mem_singleton.mp (honly ▸ hfact)
          rw [hvalue]
          rw [lastWrite_identitySubject] at hwrite
          cases hdurable : lastWrite pass.durableSpecs identitySubject with
          | some durable =>
              rw [hdurable, Option.some_or, Option.some.injEq] at hwrite
              subst hwrite
              exact hlast durable hdurable (hkind.symm.trans hidentityKind)
          | none =>
              rw [hdurable, Option.none_or] at hwrite
              exact hidentity last (mem_of_lastWrite hwrite).1
      | none =>
          have hunwritten := lastWrite_eq_none.mp hwrite
          intro fact hfact hkind
          rw [factsAt_compileFacts_of_unwritten hcandidate hunwritten] at hfact
          have hbefore := mem_factsAt.mp (List.mem_of_mem_filter hfact)
          cases hupdate : pass.delta.identitySummaryUpdate with
          | none =>
              rw [Option.none_or]
              exact oneIdentity_iff.mp hone fact hbefore.1 hkind hbefore.2.1 hbefore.2.2
          | some update =>
              -- the identity itself would have been written under the subject
              have hspec : pass.spec .identity identitySubject update ∈ pass.allSpecs := by
                simp [allSpecs, middleSpecs, identitySpecs, hupdate]
              exact absurd rfl (hunwritten _ hspec)
    · let Tells (kind : MemoryFactKind) (value : String) : Prop := kind = .identity →
        pass.delta.identitySummaryUpdate.or snapshot.identitySummary = some value
      have htold : ∀ spec ∈ pass.allSpecs, spec.subject = identitySubject →
          Tells spec.kind spec.value := by
        intro spec hspec hsubject hkind
        rcases mem_durableSpecs_of_identitySubject hspec hsubject with hspec | hspec
        · exact hidentity spec hspec
        · exact hspecs spec hspec hsubject hkind
      rw [allSpecs, List.forall_mem_append, List.forall_mem_append] at htold
      have hthere : ∀ fact ∈ factsAt snapshot.facts identitySubject,
          Tells fact.kind fact.value := by
        intro fact hfact hkind
        obtain ⟨hmem, hsubject, hlive⟩ := mem_factsAt.mp hfact
        have hidentity := mem_identitiesAt.mpr ⟨hmem, hkind, hsubject, hlive⟩
        exact hvalues fact.value (List.mem_map_of_mem hidentity)
      rw [pass.compileFacts_eq]
      refine forall_factsAt_upsertFacts (P := Tells) htold.2 ?_
      rw [factsAt_invalidateFacts_givenUp hcandidate]
      refine forall_factsAt_upsertFacts (P := Tells) htold.1.2 ?_
      rw [factsAt_invalidateFacts]
      intro fact hfact
      exact forall_factsAt_upsertFacts (P := Tells) htold.1.1 hthere fact
        (List.mem_of_mem_filter hfact)

end Writes

/-! ### Changes -/

theorem blank_iff_edit {item : AboutYouItem} :
    Text.isBlank item.value = true ↔ item.edit = none := by
  unfold AboutYouItem.edit
  cases Text.isBlank item.value <;> simp

/-- An update agrees exactly when it leaves the two copies alike. -/
theorem AboutYouUpdate.agrees_iff [Clock] [Unicode] [UnicodeCase] (update : AboutYouUpdate)
    (snapshot : GlobalMemorySnapshot) (now : Timestamp) (ids : IdGenerator) :
    update.Agrees snapshot ↔
      ∀ value ∈ valuesAt (updateItems now update.items (snapshot.facts, ids)).1 identitySubject,
        update.identitySummary = some value := by
  have hlast : (update.items.filter (AboutYouItem.names identitySubject)).getLast? =
      lastItem update.items identitySubject := rfl
  rw [valuesAt_updateItems, Edits.forall_mem_applyAll_iff, List.getLast?_map, hlast]
  unfold AboutYouUpdate.Agrees
  have hback : ((update.items.filter (AboutYouItem.names identitySubject)).map
      AboutYouItem.edit).any Option.isNone = true ↔
      ∃ item ∈ update.items, item.names identitySubject = true ∧
        Text.isBlank item.value = true := by
    simp only [List.any_map, List.any_eq_true, List.mem_filter, Function.comp_apply,
      Option.isNone_iff_eq_none, ← blank_iff_edit, and_assoc]
  cases lastItem update.items identitySubject with
  | none => rfl
  | some item =>
      cases hblank : Text.isBlank item.value with
      | true =>
          have hedit : item.edit = none := blank_iff_edit.mp hblank
          simp [hedit, hblank]
      | false =>
          have hedit : item.edit = some (Text.trim item.value) := by
            rw [AboutYouItem.edit, hblank]
            rfl
          simp only [Option.map_some, hedit, hback, hblank, Bool.false_eq_true, false_or]

section Steps

variable [Clock] [Unicode] [UnicodeCase] [JsonText]

/-- A change that agrees with the snapshot keeps the two copies alike. -/
theorem MemoryRequest.changes_oneIdentity {runtime : TurnRuntime} {request : MemoryRequest}
    {snapshot after : GlobalMemorySnapshot} {ids : IdGenerator} (hone : snapshot.OneIdentity)
    (hsnapshot : storedMemory runtime.stores = some snapshot) (hagrees : request.Agrees runtime)
    (h : request.Changes runtime snapshot after ids) : after.OneIdentity := by
  obtain ⟨hpass, hrequest⟩ := hagrees snapshot hsnapshot
  have hcompiled : ∀ compile threadId, CompiledBy compile threadId runtime snapshot after ids →
      (∀ pass ∈ passFor compile threadId runtime snapshot.facts, pass.Agrees snapshot) →
      after.OneIdentity := by
    intro compile threadId hcompiled hpass
    obtain ⟨thread, entries, delta, hthread, hlog, hdelta, rfl, -⟩ := hcompiled
    have hagrees := hpass _ (passFor_eq_some hthread hlog hdelta)
    refine oneIdentity_iff.mpr fun fact hfact hkind hsubject hlive => ?_
    exact CompilationPass.compileFacts_oneIdentity hone hagrees _ fact
      (mem_factsAt.mpr ⟨hfact, hsubject, hlive⟩) hkind
  cases request with
  | compile threadId => exact hcompiled (fun input => .ok (heuristicDelta input)) threadId h hpass
  | compileFromLlmOutput threadId rawJson =>
      exact hcompiled (parseLlmMemoryDelta rawJson) threadId h hpass
  | updateAboutYou update =>
      obtain ⟨rfl, -⟩ := h
      exact (update.agrees_iff snapshot _ _).mp hrequest
  | correctKnowledge correction =>
      obtain ⟨rfl, -⟩ := h
      refine oneIdentity_iff.mpr fun fact hfact hkind hsubject hlive => ?_
      rcases Records.mem_modifyFirst_cases hfact with hbefore | ⟨old, hold, rfl⟩
      · exact oneIdentity_iff.mp hone fact hbefore hkind hsubject hlive
      · exact hrequest old hold (identityAt_iff.mpr ⟨hkind, hsubject, hlive⟩)

end Steps

/-! ### Runs -/

section Runs

variable [Disk] [Clock] [Unicode] [UnicodeCase] [JsonText]

/-- The stored snapshot has one identity; a file that does not read has none. -/
def HasOneIdentity (runtime : TurnRuntime) : Prop :=
  ∀ snapshot, storedMemory runtime.stores = some snapshot → snapshot.OneIdentity

theorem memoryStep_oneIdentity {runtime : TurnRuntime} {input : MemoryInput}
    (h : HasOneIdentity runtime) (hagrees : input.request.Agrees (input.arrival runtime)) :
    HasOneIdentity (memoryStep runtime input) := by
  intro later hlater
  rcases memoryStep_cases runtime input with hkept | hchanged
  · rcases hkept.2 with hsame | hnone
    · rw [storedMemory, hsame] at hlater
      exact h later hlater
    · rw [hnone] at hlater
      exact absurd hlater (by simp)
  · obtain ⟨snapshot, after, hsnapshot, hafter, hchanges⟩ := hchanged.applied
    obtain rfl : after = later := Option.some.inj (hafter.symm.trans hlater)
    exact MemoryRequest.changes_oneIdentity (h snapshot hsnapshot) hsnapshot hagrees hchanges

/-- In a run whose requests agree with what is stored, the identity summary is the value of every
live fact about the owner under the subject of the identity, and who reads such a fact when a thread
wakes up, for a prompt or on the About You surface reads the summary; after an update this is the
summary of the update. -/
theorem one_identity (inputs : List MemoryInput)
    (hall : Runs.AllSteps memoryStep
      (fun runtime input => input.request.Agrees (input.arrival runtime)) .fresh inputs) :
    ∀ runtime ∈ Runs.states memoryStep .fresh inputs,
      (∀ snapshot, storedMemory runtime.stores = some snapshot →
        (∀ fact ∈ snapshot.facts, fact.kind = .identity → fact.subject = "owner:identity_summary" →
          fact.live = true → snapshot.identitySummary = some fact.value) ∧
        (∀ thread, ∀ fact ∈ rankedWakeupFacts snapshot thread, fact.kind = .identity →
          fact.subject = "owner:identity_summary" →
          snapshot.identitySummary = some fact.value) ∧
        (∀ relationship, ∀ fact ∈ shownFacts snapshot relationship, fact.kind = .identity →
          fact.subject = "owner:identity_summary" →
          snapshot.identitySummary = some fact.value) ∧
        (∀ item ∈ aboutYouItems snapshot, item.key = "owner:identity_summary" →
          snapshot.identitySummary = some item.value)) ∧
      ∀ update, (result (updateAboutYouSurface update) runtime).isSome →
        ∃ later, storedMemory (after (updateAboutYouSurface update) runtime).stores = some later ∧
          later.identitySummary = update.identitySummary := by
  have hfresh : HasOneIdentity .fresh := by
    intro snapshot hsnapshot
    obtain rfl : GlobalMemorySnapshot.empty = snapshot := Option.some.inj hsnapshot
    exact fun value hvalue => absurd hvalue List.not_mem_nil
  have hone := Runs.invariant (fun _ _ h hagrees => memoryStep_oneIdentity h hagrees) hfresh hall
  intro runtime hruntime
  constructor
  · intro snapshot hsnapshot
    have hfacts := oneIdentity_iff.mp (hone runtime hruntime snapshot hsnapshot)
    refine ⟨hfacts, ?_, ?_, ?_⟩
    · intro thread fact hfact hkind hsubject
      obtain ⟨hmem, hlive⟩ := mem_rankedWakeupFacts hfact
      exact hfacts fact hmem hkind hsubject hlive
    · intro relationship fact hfact hkind hsubject
      have hshown := List.mem_of_mem_filter (List.mem_of_mem_take hfact)
      obtain ⟨hmem, hlive⟩ := List.mem_filter.mp hshown
      exact hfacts fact hmem hkind hsubject hlive
    · intro item hitem hkey
      rcases List.mem_append.mp hitem with hrow | hrow
      · obtain ⟨summary, -, rfl⟩ := List.mem_map.mp hrow
        exact absurd hkey (by simp)
      · obtain ⟨fact, hfact, rfl⟩ := List.mem_map.mp hrow
        obtain ⟨hmem, hlive⟩ := List.mem_filter.mp hfact
        simp only [Bool.and_eq_true, decide_eq_true_eq] at hlive
        exact hfacts fact hmem hlive.1.1 hkey hlive.1.2
  · intro update hsome
    obtain ⟨_, hresult⟩ := Option.isSome_iff_exists.mp hsome
    obtain ⟨_, later, -, hlater, hchanges⟩ :=
      (wp_of_result (updateAboutYouSurface_changes update runtime) hresult).applied
    exact ⟨later, hlater, by rw [hchanges.1]⟩

end Runs

/-- A thread whose log names the owner is compiled. -/
def compileShortLog : MemoryInput :=
  { threads := (loggedRuntime shortLog).stores.threads
    turnLogs := (loggedRuntime shortLog).stores.turnLogs
    operations := 0
    identifiers := 0
    readings := 0
    request := .compile "t" }

/-- The compilation, and then an update. -/
def compiledThenUpdated (update : AboutYouUpdate) : List MemoryInput :=
  [compileShortLog, MemoryRequest.over (.updateAboutYou update) (Thread.blank "t")]

/-- The runtime after both. -/
def afterUpdate (update : AboutYouUpdate) : TurnRuntime :=
  Runs.final (@memoryStep calmDisk stoppedClock asciiTable asciiCase noJson) .fresh
    (compiledThenUpdated update)

theorem identity_cleared_with_item :
    ∃ snapshot, storedMemory (afterUpdate (updateOf "owner:identity_summary" "")).stores =
        some snapshot ∧
      ∀ fact ∈ snapshot.facts, fact.kind = .identity → fact.subject = "owner:identity_summary" →
        fact.live = true → snapshot.identitySummary = some fact.value := by
  obtain ⟨snapshot, hsnapshot⟩ : ∃ snapshot, storedMemory (afterUpdate
      (updateOf "owner:identity_summary" "")).stores = some snapshot :=
    Option.isSome_iff_exists.mp (by decide +kernel)
  have hone := (@one_identity calmDisk stoppedClock asciiTable asciiCase noJson
    (compiledThenUpdated (updateOf "owner:identity_summary" "")) (by decide +kernel) _
    (Runs.final_mem_states _ _)).1 snapshot hsnapshot
  exact ⟨snapshot, hsnapshot, hone.1⟩

/-- A summary that is cleared stays as a fact. -/
theorem cleared_identity_stays :
    ¬ ∀ (disk : Disk) (clock : Clock) (unicode : Unicode) (letters : UnicodeCase) (json : JsonText)
      (inputs : List MemoryInput),
      ∀ runtime ∈ @Runs.states _ _ (@memoryStep disk clock unicode letters json) .fresh inputs,
      ∀ snapshot, storedMemory runtime.stores = some snapshot →
      ∀ fact ∈ snapshot.facts, fact.kind = .identity → fact.subject = "owner:identity_summary" →
        fact.live = true → snapshot.identitySummary = some fact.value := by
  intro h
  have hstays : (storedMemory (afterUpdate emptyUpdate).stores).map (fun snapshot =>
      snapshot.identitySummary.isNone && snapshot.facts.any fun fact =>
        fact.identityAt identitySubject) = some true := by decide +kernel
  obtain ⟨snapshot, hsnapshot, hboth⟩ := Option.map_eq_some_iff.mp hstays
  rw [Bool.and_eq_true, Option.isNone_iff_eq_none, List.any_eq_true] at hboth
  obtain ⟨hnone, fact, hfact, hidentity⟩ := hboth
  obtain ⟨hkind, hsubject, hlive⟩ := identityAt_iff.mp hidentity
  have htold := h calmDisk stoppedClock asciiTable asciiCase noJson (compiledThenUpdated emptyUpdate)
    _ (Runs.final_mem_states _ _) snapshot hsnapshot fact hfact hkind hsubject hlive
  rw [hnone] at htold
  exact absurd htold (by simp)

end Liz
