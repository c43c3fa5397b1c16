import Liz.Base.Runs
import Liz.Proof.MemoryRuns

/-!
# Facts over time

Whatever writes the memory changes facts where they stand or appends new ones, under identifiers
that have just been drawn. A change keeps the identifier, the kind and the subject of a fact and
never brings a fact back to life, and a fact that names the fact that replaced it is no longer
live. So nothing is ever taken out of the stored facts, and it does not matter whether a reader who
wants the live ones also asks that no fact has replaced them.
-/

namespace Liz

/-- A later record of the same fact. -/
structure StoredMemoryFact.Keeps (fact later : StoredMemoryFact) : Prop where
  id : later.id = fact.id
  kind : later.kind = fact.kind
  subject : later.subject = fact.subject
  dead : fact.live = false → later.live = false

/-- A fact that has been replaced by another one is invalidated. -/
def StoredMemoryFact.Tidy (fact : StoredMemoryFact) : Prop :=
  fact.invalidatedBy.isSome → fact.invalidatedAt.isSome

/-- The facts have grown while the generator has moved on: what was stored is kept, and what has
come has new identifiers, each of them once. -/
structure AppendsOnly (before after : List StoredMemoryFact × IdGenerator) : Prop where
  sequence : before.2.sequence ≤ after.2.sequence
  records : ∃ appended, Records.GrownBy StoredMemoryFact.Keeps appended before.1 after.1 ∧
    (appended.map StoredMemoryFact.id).Nodup ∧
    ∀ fact ∈ appended, ¬ before.2.Issued fact.id ∧ after.2.Issued fact.id
  tidy : (∀ fact ∈ before.1, fact.Tidy) → ∀ fact ∈ after.1, fact.Tidy

/-- Every fact has an identifier of its own that the generator has given out. -/
structure Numbered (facts : List StoredMemoryFact) (ids : IdGenerator) : Prop where
  nodup : (facts.map StoredMemoryFact.id).Nodup
  issued : ∀ fact ∈ facts, ids.Issued fact.id

namespace StoredMemoryFact.Keeps

theorem refl (fact : StoredMemoryFact) : fact.Keeps fact := ⟨rfl, rfl, rfl, fun h => h⟩

theorem trans (fact middle later : StoredMemoryFact) (h : fact.Keeps middle)
    (h' : middle.Keeps later) : fact.Keeps later :=
  ⟨h'.id.trans h.id, h'.kind.trans h.kind, h'.subject.trans h.subject, fun hdead =>
    h'.dead (h.dead hdead)⟩

theorem map_id {facts later : List StoredMemoryFact}
    (h : List.Forall₂ StoredMemoryFact.Keeps facts later) :
    later.map StoredMemoryFact.id = facts.map StoredMemoryFact.id :=
  Records.map_eq_of_forall₂ h fun _ _ hkeeps => hkeeps.id

end StoredMemoryFact.Keeps

theorem Numbered.empty (ids : IdGenerator) : Numbered [] ids :=
  ⟨List.nodup_nil, fun _ hfact => absurd hfact List.not_mem_nil⟩

/-! ### Growth -/

namespace AppendsOnly

variable {before middle after : List StoredMemoryFact × IdGenerator}

/-- Facts that have changed where they stand. -/
theorem of_changed {facts changed : List StoredMemoryFact} {ids later : IdGenerator}
    (hsequence : ids.sequence ≤ later.sequence)
    (hchanged : List.Forall₂ (fun fact fact' => fact.Keeps fact' ∧ (fact.Tidy → fact'.Tidy)) facts
      changed) : AppendsOnly (facts, ids) (changed, later) := by
  refine ⟨hsequence, ⟨[], .of_changed (hchanged.imp fun _ _ h => h.1), List.nodup_nil,
    fun _ hfact => absurd hfact List.not_mem_nil⟩, fun htidy fact hfact => ?_⟩
  obtain ⟨old, hold, hkeeps⟩ := Records.exists_before hchanged hfact
  exact hkeeps.2 (htidy old hold)

theorem refl (state : List StoredMemoryFact × IdGenerator) : AppendsOnly state state :=
  of_changed le_rfl (List.forall₂_same.mpr fun fact _ => ⟨.refl fact, fun h => h⟩)

theorem trans (h : AppendsOnly before middle) (h' : AppendsOnly middle after) : AppendsOnly before after := by
  obtain ⟨first, hfirst, hnodup, hnew⟩ := h.records
  obtain ⟨second, hsecond, hnodup', hnew'⟩ := h'.records
  obtain ⟨kept, hkept, hgrown⟩ := hfirst.trans StoredMemoryFact.Keeps.trans hsecond
  have hids := StoredMemoryFact.Keeps.map_id hkept
  have hkeptNew : ∀ fact ∈ kept, ¬ before.2.Issued fact.id ∧ middle.2.Issued fact.id := by
    intro fact hfact
    obtain ⟨old, hold, hkeeps⟩ := Records.exists_before hkept hfact
    rw [hkeeps.id]
    exact hnew old hold
  refine ⟨h.sequence.trans h'.sequence, ⟨kept ++ second, hgrown, ?_, ?_⟩,
    fun htidy => h'.tidy (h.tidy htidy)⟩
  · rw [List.map_append, hids]
    refine List.nodup_append'.mpr ⟨hnodup, hnodup', ?_⟩
    intro id hid hid'
    -- the first growth has drawn the one, the second one draws the other
    obtain ⟨fact, hfact, rfl⟩ := List.mem_map.mp hid
    obtain ⟨other, hother, hsame⟩ := List.mem_map.mp hid'
    have hissued := (hnew fact hfact).2
    rw [← hsame] at hissued
    exact (hnew' other hother).1 hissued
  · intro fact hfact
    rcases List.mem_append.mp hfact with hmem | hmem
    · exact ⟨(hkeptNew fact hmem).1, (hkeptNew fact hmem).2.mono h'.sequence⟩
    · exact ⟨fun hissued => (hnew' fact hmem).1 (hissued.mono h.sequence), (hnew' fact hmem).2⟩

theorem numbered (h : AppendsOnly before after) (hnumbered : Numbered before.1 before.2) :
    Numbered after.1 after.2 := by
  obtain ⟨appended, ⟨changed, hchanged, hafter⟩, hnodup, hnew⟩ := h.records
  have hids := StoredMemoryFact.Keeps.map_id hchanged
  have hold : ∀ fact ∈ changed, before.2.Issued fact.id := by
    intro fact hfact
    obtain ⟨old, hold, hkeeps⟩ := Records.exists_before hchanged hfact
    rw [hkeeps.id]
    exact hnumbered.issued old hold
  rw [hafter]
  constructor
  · rw [List.map_append]
    refine List.nodup_append'.mpr ⟨hids ▸ hnumbered.nodup, hnodup, ?_⟩
    intro id hid hid'
    obtain ⟨fact, hfact, rfl⟩ := List.mem_map.mp hid
    obtain ⟨other, hother, hsame⟩ := List.mem_map.mp hid'
    have hissued := hold fact hfact
    rw [← hsame] at hissued
    exact (hnew other hother).1 hissued
  · intro fact hfact
    rcases List.mem_append.mp hfact with hmem | hmem
    · exact (hold fact hmem).mono h.sequence
    · exact (hnew fact hmem).2

end AppendsOnly

/-! ### Writes -/

section Writes

variable [Clock]

/-- A fact is appended under an identifier that has just been drawn; another one may have changed
for it. -/
theorem AppendsOnly.of_appended {facts changed : List StoredMemoryFact} {ids : IdGenerator}
    {fact : StoredMemoryFact} (hid : fact.id = ids.nextMemoryFactId.1) (htidy : fact.Tidy)
    (hchanged : List.Forall₂ (fun fact fact' => fact.Keeps fact' ∧ (fact.Tidy → fact'.Tidy)) facts
      changed) : AppendsOnly (facts, ids) (changed ++ [fact], ids.nextMemoryFactId.2) := by
  have hfresh := not_issued_nextValue ids "fact"
  have hissued := issued_nextValue ids "fact"
  refine ⟨Nat.le_succ _, ⟨[fact], ⟨changed, hchanged.imp fun _ _ h => h.1, rfl⟩,
    List.nodup_singleton _, ?_⟩, fun hall other hother => ?_⟩
  · intro other hother
    rw [List.mem_singleton.mp hother, hid]
    exact ⟨hfresh, hissued⟩
  · rcases List.mem_append.mp hother with hmem | hmem
    · obtain ⟨old, hold, hkeeps⟩ := Records.exists_before hchanged hmem
      exact hkeeps.2 (hall old hold)
    · rw [List.mem_singleton.mp hmem]
      exact htidy

theorem upsertFact_grows (spec : FactSpec) (draft : FactDraft) :
    AppendsOnly (draft.facts, draft.ids) ((upsertFact spec draft).facts, (upsertFact spec draft).ids) := by
  unfold upsertFact
  cases draft.facts.find? (StoredMemoryFact.liveAt spec.subject) with
  | none =>
      exact .of_appended rfl (fun h => h)
        (List.forall₂_same.mpr fun fact _ => ⟨.refl fact, fun h => h⟩)
  | some existing =>
      by_cases hsame : spec.same existing
      · simp only [hsame, if_true]
        exact .of_changed le_rfl (Records.forall₂_modifyFirst (fun fact => ⟨.refl fact, fun h => h⟩)
          fun fact _ => ⟨⟨rfl, rfl, rfl, fun h => h⟩, fun h => h⟩)
      · simp only [hsame, Bool.false_eq_true, if_false]
        exact .of_appended rfl (fun h => h)
          (Records.forall₂_modifyFirst (fun fact => ⟨.refl fact, fun h => h⟩)
            fun fact _ => ⟨⟨rfl, rfl, rfl, fun _ => rfl⟩, fun _ _ => rfl⟩)

theorem upsertFacts_grows (specs : List FactSpec) (draft : FactDraft) :
    AppendsOnly (draft.facts, draft.ids)
      ((upsertFacts specs draft).facts, (upsertFacts specs draft).ids) := by
  induction specs generalizing draft with
  | nil => exact .refl _
  | cons spec rest ih => exact (upsertFact_grows spec draft).trans (ih _)

/-- The loop that invalidates leaves every fact where it stands, superseded or as it was. -/
theorem forall₂_invalidateWhere {R : StoredMemoryFact → StoredMemoryFact → Prop}
    (hrefl : ∀ fact, R fact fact) {doomed : StoredMemoryFact → Bool} {now : Timestamp}
    (hdoomed : ∀ fact id, doomed fact = true → R fact (fact.superseded id now))
    (facts : List StoredMemoryFact) (ids : IdGenerator) :
    List.Forall₂ R facts (invalidateWhere doomed now facts ids).1 := by
  induction facts generalizing ids with
  | nil => exact .nil
  | cons fact rest ih =>
      unfold invalidateWhere
      split
      next h => exact .cons (hdoomed fact _ h) (ih _)
      next => exact .cons (hrefl fact) (ih _)

/-- An invalidation changes facts where they stand. -/
theorem forall₂_invalidateFacts (doomed : StoredMemoryFact → Bool) (now : Timestamp)
    (draft : FactDraft) :
    List.Forall₂ (fun fact fact' => fact.Keeps fact' ∧ (fact.Tidy → fact'.Tidy)) draft.facts
      (invalidateFacts doomed now draft).facts :=
  forall₂_invalidateWhere (fun fact => ⟨.refl fact, fun h => h⟩)
    (fun _ _ _ => ⟨⟨rfl, rfl, rfl, fun _ => rfl⟩, fun _ _ => rfl⟩) _ _

theorem invalidateFacts_grows (doomed : StoredMemoryFact → Bool) (now : Timestamp)
    (draft : FactDraft) :
    AppendsOnly (draft.facts, draft.ids)
      ((invalidateFacts doomed now draft).facts, (invalidateFacts doomed now draft).ids) :=
  .of_changed (sequence_invalidateFacts doomed now draft) (forall₂_invalidateFacts doomed now draft)

variable [Unicode]

theorem CompilationPass.compileFacts_grows (pass : CompilationPass) (draft : FactDraft) :
    AppendsOnly (draft.facts, draft.ids)
      ((pass.compileFacts draft).facts, (pass.compileFacts draft).ids) := by
  rw [pass.compileFacts_eq]
  have hearly := upsertFacts_grows pass.earlySpecs draft
  have hdropped := hearly.trans (invalidateFacts_grows pass.dropped pass.now _)
  have hmiddle := hdropped.trans (upsertFacts_grows pass.middleSpecs _)
  have hgivenUp := hmiddle.trans (invalidateFacts_grows pass.givenUp pass.now _)
  exact hgivenUp.trans (upsertFacts_grows pass.procedureSpecs _)

variable [UnicodeCase]

omit [Clock] in
theorem StoredMemoryFact.Keeps.edited (subject value : String) (now : Timestamp)
    (fact : StoredMemoryFact) : fact.Keeps (fact.edited subject value now) :=
  ⟨rfl, rfl, rfl, fun h => h⟩

theorem updateItem_grows (now : Timestamp) (item : AboutYouItem)
    (state : List StoredMemoryFact × IdGenerator) : AppendsOnly state (updateItem now item state) := by
  obtain ⟨facts, ids⟩ := state
  unfold updateItem
  dsimp only
  split
  · exact .refl _
  · split
    · refine .of_changed le_rfl ?_
      rw [List.forall₂_map_right_iff, List.forall₂_same]
      intro fact _
      split
      · exact ⟨⟨rfl, rfl, rfl, fun _ => rfl⟩, fun _ _ => rfl⟩
      · exact ⟨.refl fact, fun h => h⟩
    · split
      · refine .of_changed le_rfl (Records.forall₂_modifyFirst
          (fun fact => ⟨.refl fact, fun h => h⟩) fun fact _ => ?_)
        -- the name of the replacing fact is taken back, so nothing is asked of the edited fact
        refine ⟨.edited _ _ _ fact, fun _ hreplaced => ?_⟩
        simp [StoredMemoryFact.edited] at hreplaced
      · exact .of_appended rfl (fun h => h)
          (List.forall₂_same.mpr fun fact _ => ⟨.refl fact, fun h => h⟩)

theorem updateItems_grows (now : Timestamp) (items : List AboutYouItem)
    (state : List StoredMemoryFact × IdGenerator) : AppendsOnly state (updateItems now items state) := by
  unfold updateItems
  induction items generalizing state with
  | nil => exact .refl _
  | cons item rest ih => exact (updateItem_grows now item state).trans (ih _)

end Writes

theorem corrected_grows (facts : List StoredMemoryFact) (ids : IdGenerator) (id : MemoryFactId)
    (value : String) (now : Timestamp) :
    AppendsOnly (facts, ids)
      (Records.modifyFirst (StoredMemoryFact.hasId id) (.corrected value now) facts, ids) :=
  .of_changed le_rfl (Records.forall₂_modifyFirst (fun fact => ⟨.refl fact, fun h => h⟩)
    fun _ _ => ⟨⟨rfl, rfl, rfl, fun h => h⟩, fun h => h⟩)

/-! ### Runs -/

section Runs

variable [Clock] [Unicode] [UnicodeCase] [JsonText]

/-- Every change of a memory request makes the facts grow. -/
theorem MemoryRequest.changes_grows {runtime : TurnRuntime} {request : MemoryRequest}
    {snapshot after : GlobalMemorySnapshot} {ids : IdGenerator}
    (h : request.Changes runtime snapshot after ids) :
    AppendsOnly (snapshot.facts, runtime.ids) (after.facts, ids) := by
  have hnow : AppendsOnly (snapshot.facts, runtime.ids) (snapshot.facts, runtime.ids.nowTimestamp.2) :=
    .of_changed le_rfl (List.forall₂_same.mpr fun fact _ => ⟨.refl fact, fun h => h⟩)
  have hcompiled : ∀ compile threadId,
      CompiledBy compile threadId runtime snapshot after ids →
        AppendsOnly (snapshot.facts, runtime.ids) (after.facts, ids) := by
    intro compile threadId hcompiled
    obtain ⟨thread, entries, delta, -, -, -, rfl, rfl⟩ := hcompiled
    have hcompiled := CompilationPass.compileFacts_grows
      ((compilationInput threadId thread entries snapshot.facts).passWith delta
        runtime.ids.nowTimestamp.1) (.start snapshot.facts runtime.ids.nowTimestamp.2)
    exact hnow.trans hcompiled
  cases request with
  | compile threadId => exact hcompiled (fun input => .ok (heuristicDelta input)) threadId h
  | compileFromLlmOutput threadId rawJson =>
      exact hcompiled (parseLlmMemoryDelta rawJson) threadId h
  | updateAboutYou update =>
      obtain ⟨rfl, rfl⟩ := h
      exact hnow.trans (updateItems_grows _ _ _)
  | correctKnowledge correction =>
      obtain ⟨rfl, rfl⟩ := h
      exact hnow.trans (corrected_grows _ _ _ _ _)

variable [Disk]

/-- The memory that reads now has read before, and its facts have grown since. -/
def FactsGrown (earlier later : TurnRuntime) : Prop :=
  ∀ after, storedMemory later.stores = some after → ∃ before,
    storedMemory earlier.stores = some before ∧
      AppendsOnly (before.facts, earlier.ids) (after.facts, later.ids)

omit [Clock] [Unicode] [UnicodeCase] [JsonText] [Disk] in
theorem FactsGrown.refl (runtime : TurnRuntime) : FactsGrown runtime runtime :=
  fun after hafter => ⟨after, hafter, .refl _⟩

omit [Clock] [Unicode] [UnicodeCase] [JsonText] [Disk] in
theorem FactsGrown.trans {s t u : TurnRuntime} (h : FactsGrown s t) (h' : FactsGrown t u) :
    FactsGrown s u := by
  intro after hafter
  obtain ⟨middle, hmiddle, hlater⟩ := h' after hafter
  obtain ⟨before, hbefore, hearlier⟩ := h middle hmiddle
  exact ⟨before, hbefore, hearlier.trans hlater⟩

omit [Clock] [Unicode] [UnicodeCase] [JsonText] [Disk] in
theorem FactsGrown.of_kept {s t : TurnRuntime} (h : MemoryKept s t) : FactsGrown s t := by
  intro after hafter
  obtain ⟨hsequence, hsame | hnone⟩ := h
  · refine ⟨after, ?_, .of_changed hsequence
      (List.forall₂_same.mpr fun fact _ => ⟨.refl fact, fun h => h⟩)⟩
    rwa [storedMemory, hsame] at hafter
  · rw [hnone] at hafter
    exact absurd hafter (by simp)

theorem memoryStep_factsGrown (runtime : TurnRuntime) (input : MemoryInput) :
    FactsGrown runtime (memoryStep runtime input) := by
  have harrival : FactsGrown runtime (input.arrival runtime) :=
    .of_kept ⟨Nat.le_add_right _ _, .inl rfl⟩
  refine harrival.trans ?_
  rcases memoryStep_cases runtime input with hkept | hchanged
  · exact .of_kept hkept
  · obtain ⟨snapshot, after, hsnapshot, hafter, hchanges⟩ := hchanged.applied
    intro stored hstored
    obtain rfl : after = stored := Option.some.inj (hafter.symm.trans hstored)
    exact ⟨snapshot, hsnapshot, MemoryRequest.changes_grows hchanges⟩

/-- Along a run the facts grow. -/
theorem run_factsGrown (inputs : List MemoryInput) :
    (∀ runtime ∈ Runs.states memoryStep TurnRuntime.fresh inputs,
        FactsGrown TurnRuntime.fresh runtime) ∧
      (Runs.states memoryStep TurnRuntime.fresh inputs).Pairwise FactsGrown := by
  have hkept : ∀ (runtime : TurnRuntime) (input : MemoryInput), True → True → True :=
    fun _ _ _ _ => trivial
  exact Runs.pairwise FactsGrown.refl FactsGrown.trans hkept
    (fun runtime input _ _ => memoryStep_factsGrown runtime input) trivial
    (Runs.allSteps_true TurnRuntime.fresh inputs)

/-- The facts that are stored at any point of a run have grown from none. -/
theorem grown_from_nothing (inputs : List MemoryInput) :
    ∀ runtime ∈ Runs.states memoryStep TurnRuntime.fresh inputs, ∀ snapshot,
      storedMemory runtime.stores = some snapshot →
      Numbered snapshot.facts runtime.ids ∧ ∀ fact ∈ snapshot.facts, fact.Tidy := by
  have hgrown := (run_factsGrown inputs).1
  intro runtime hruntime snapshot hsnapshot
  obtain ⟨before, hbefore, hgrows⟩ := hgrown runtime hruntime snapshot hsnapshot
  obtain rfl : GlobalMemorySnapshot.empty = before := Option.some.inj hbefore
  exact ⟨hgrows.numbered (.empty _), hgrows.tidy fun _ hfact => absurd hfact List.not_mem_nil⟩

/-- Facts are never removed, keep what they are about and never come back to life, and readers who
ask that a fact is not invalidated find the facts that readers find who ask as well that none has
replaced it. -/
theorem facts_append_only (inputs : List MemoryInput) :
    ((Runs.states memoryStep .fresh inputs).Pairwise fun earlier later => ∀ after,
      storedMemory later.stores = some after → ∃ before, storedMemory earlier.stores = some before ∧
        ∃ appended, Records.GrownBy StoredMemoryFact.Keeps appended before.facts after.facts) ∧
    ∀ runtime ∈ Runs.states memoryStep .fresh inputs, ∀ snapshot,
      storedMemory runtime.stores = some snapshot →
      (∀ fact ∈ snapshot.facts, fact.invalidatedBy.isSome → fact.invalidatedAt.isSome) ∧
      snapshot.facts.filter (fun fact => fact.invalidatedAt.isNone) =
        snapshot.facts.filter fun fact =>
          fact.invalidatedAt.isNone && fact.invalidatedBy.isNone := by
  have hgrown := (run_factsGrown inputs).2
  constructor
  · apply hgrown.imp
    intro earlier later h after hafter
    obtain ⟨before, hbefore, hgrows⟩ := h after hafter
    obtain ⟨appended, happended, -⟩ := hgrows.records
    exact ⟨before, hbefore, appended, happended⟩
  · intro runtime hruntime snapshot hsnapshot
    have htidy := (grown_from_nothing inputs runtime hruntime snapshot hsnapshot).2
    refine ⟨htidy, List.filter_congr fun fact hfact => ?_⟩
    have hfact := htidy fact hfact
    unfold StoredMemoryFact.Tidy at hfact
    cases hat : fact.invalidatedAt with
    | some now => rfl
    | none =>
        cases hby : fact.invalidatedBy with
        | none => rfl
        | some id => simp [hat, hby] at hfact

end Runs

end Liz
