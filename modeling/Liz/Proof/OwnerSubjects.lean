import Liz.Base.Runs
import Liz.Proof.FactHistory

/-!
# Subjects that the owner can name

The key of an About You item is trimmed before it is looked up, so an item only ever finds a fact
whose subject is trimmed, and none whose subject is empty. Every writer of facts about the owner
keeps to such subjects.
-/

namespace Liz

/-- A subject that an item can name: trimmed and not empty. -/
def Nameable (subject : String) : Prop := Text.trim subject = subject ∧ subject.isEmpty = false

/-- Every fact about the owner can be named by an item. -/
def NameableFacts (facts : List StoredMemoryFact) : Prop :=
  ∀ fact ∈ facts, fact.kind = .identity → Nameable fact.subject

theorem nameable_identitySubject : Nameable identitySubject := by
  unfold Nameable identitySubject
  decide

/-- Facts that have changed where they stand are about what they were about. -/
theorem NameableFacts.changed {facts changed : List StoredMemoryFact} (h : NameableFacts facts)
    (hchanged : List.Forall₂ StoredMemoryFact.Keeps facts changed) : NameableFacts changed := by
  intro fact hfact hkind
  obtain ⟨old, hold, hkeeps⟩ := Records.exists_before hchanged hfact
  rw [hkeeps.kind] at hkind
  rw [hkeeps.subject]
  exact h old hold hkind

/-- What a compiler keeps has subjects that are trimmed and not empty. -/
theorem nameable_llmDelta [Unicode] [JsonText] {rawJson : String} {input : MemoryCompilationInput}
    {delta : MemoryCompilationDelta} (h : parseLlmMemoryDelta rawJson input = .ok delta) :
    ∀ fact ∈ delta.durableFacts, Nameable fact.subject := by
  unfold parseLlmMemoryDelta at h
  cases hread : readLlmMemoryDelta rawJson with
  | error message => simp [hread] at h
  | ok parsed =>
      simp only [hread, Except.ok.injEq] at h
      subst h
      intro fact hfact
      obtain ⟨read, -, hsanitized⟩ := List.mem_filterMap.mp hfact
      unfold sanitizeDeltaFact at hsanitized
      dsimp only at hsanitized
      split at hsanitized
      next => exact absurd hsanitized (by simp)
      next hkept =>
        obtain rfl := Option.some.inj hsanitized
        rw [Bool.or_eq_true, not_or, Bool.not_eq_true] at hkept
        exact ⟨Text.trim_trim _, hkept.1⟩

/-! ### Writes -/

section Writes

variable [Clock]

theorem upsertFacts_nameable {specs : List FactSpec}
    (hspecs : ∀ spec ∈ specs, spec.kind = .identity → Nameable spec.subject) {draft : FactDraft}
    (h : NameableFacts draft.facts) : NameableFacts (upsertFacts specs draft).facts := by
  induction specs generalizing draft with
  | nil => exact h
  | cons spec rest ih =>
      rw [List.forall_mem_cons] at hspecs
      refine ih hspecs.2 fun fact hfact hkind => ?_
      rw [facts_upsertFact] at hfact
      rcases Records.mem_of_mem_write hfact with rfl | ⟨old, hold, rfl | rfl | rfl⟩
      · exact hspecs.1 hkind
      · exact h fact hold hkind
      · exact h old hold hkind
      · exact h old hold hkind

theorem invalidateFacts_nameable (doomed : StoredMemoryFact → Bool) (now : Timestamp)
    {draft : FactDraft} (h : NameableFacts draft.facts) :
    NameableFacts (invalidateFacts doomed now draft).facts :=
  h.changed ((forall₂_invalidateFacts doomed now draft).imp fun _ _ hkeeps => hkeeps.1)

variable [Unicode]

theorem CompilationPass.compileFacts_nameable {pass : CompilationPass}
    (hdurable : ∀ fact ∈ pass.delta.durableFacts, Nameable fact.subject) {draft : FactDraft}
    (h : NameableFacts draft.facts) : NameableFacts (pass.compileFacts draft).facts := by
  have hearly : ∀ spec ∈ pass.earlySpecs, spec.kind = .identity → Nameable spec.subject := by
    intro spec hspec hkind
    simp only [earlySpecs, activeStateSpecs, goalSpecs, List.mem_append, List.mem_map] at hspec
    rcases hspec with ⟨_, _, rfl⟩ | ⟨_, _, rfl⟩
    · exact absurd hkind MemoryFactKind.noConfusion
    · exact absurd hkind MemoryFactKind.noConfusion
  have hmiddle : ∀ spec ∈ pass.middleSpecs, spec.kind = .identity → Nameable spec.subject := by
    intro spec hspec hkind
    simp only [middleSpecs, commitmentSpecs, identitySpecs, durableSpecs, List.mem_append,
      List.mem_map] at hspec
    rcases hspec with ⟨_, _, rfl⟩ | ⟨_, _, rfl⟩ | ⟨fact, hfact, rfl⟩
    · exact absurd hkind MemoryFactKind.noConfusion
    · exact nameable_identitySubject
    · exact hdurable fact (List.mem_of_mem_filter hfact)
  have hprocedure : ∀ spec ∈ pass.procedureSpecs, spec.kind = .identity →
      Nameable spec.subject := by
    intro spec hspec hkind
    simp only [procedureSpecs, List.mem_map] at hspec
    obtain ⟨_, _, rfl⟩ := hspec
    exact absurd hkind MemoryFactKind.noConfusion
  rw [pass.compileFacts_eq]
  apply upsertFacts_nameable hprocedure
  apply invalidateFacts_nameable
  apply upsertFacts_nameable hmiddle
  apply invalidateFacts_nameable
  exact upsertFacts_nameable hearly h

variable [UnicodeCase]

theorem updateItems_nameable (now : Timestamp) (items : List AboutYouItem)
    {state : List StoredMemoryFact × IdGenerator} (h : NameableFacts state.1) :
    NameableFacts (updateItems now items state).1 := by
  unfold updateItems
  induction items generalizing state with
  | nil => exact h
  | cons item rest ih =>
      apply ih
      obtain ⟨facts, ids⟩ := state
      unfold updateItem
      dsimp only
      split
      · exact h
      next hnamed =>
        split
        · apply h.changed
          rw [List.forall₂_map_right_iff, List.forall₂_same]
          intro fact _
          split
          · exact ⟨rfl, rfl, rfl, fun _ => rfl⟩
          · exact .refl fact
        · split
          · exact h.changed (Records.forall₂_modifyFirst .refl
              fun _ _ => ⟨rfl, rfl, rfl, fun hdead => hdead⟩)
          · intro fact hfact hkind
            rcases List.mem_append.mp hfact with hfact | hfact
            · exact h fact hfact hkind
            · rw [List.mem_singleton.mp hfact]
              push Not at hnamed
              exact ⟨Text.trim_trim _, Bool.eq_false_iff.mpr hnamed.2⟩

variable [JsonText] [Disk]

omit [Disk] in
theorem changes_nameable {runtime : TurnRuntime} {request : MemoryRequest}
    {snapshot after : GlobalMemorySnapshot} {ids : IdGenerator} (h : NameableFacts snapshot.facts)
    (hchanges : request.Changes runtime snapshot after ids) : NameableFacts after.facts := by
  cases request with
  | compile threadId =>
      obtain ⟨thread, entries, delta, -, -, hdelta, rfl, -⟩ := hchanges
      obtain rfl := Except.ok.inj hdelta
      exact CompilationPass.compileFacts_nameable
        (fun fact hfact => absurd hfact List.not_mem_nil) h
  | compileFromLlmOutput threadId rawJson =>
      obtain ⟨thread, entries, delta, -, -, hdelta, rfl, -⟩ := hchanges
      exact CompilationPass.compileFacts_nameable (nameable_llmDelta hdelta) h
  | updateAboutYou update =>
      obtain ⟨rfl, -⟩ := hchanges
      exact updateItems_nameable _ _ h
  | correctKnowledge correction =>
      obtain ⟨rfl, -⟩ := hchanges
      exact h.changed (Records.forall₂_modifyFirst .refl
        fun _ _ => ⟨rfl, rfl, rfl, fun hdead => hdead⟩)

/-- Every fact about the owner that is stored in a run can be named by an item. -/
theorem nameable_along_runs (inputs : List MemoryInput) :
    ∀ runtime ∈ Runs.states memoryStep .fresh inputs, ∀ snapshot,
      storedMemory runtime.stores = some snapshot → NameableFacts snapshot.facts := by
  have hsteps : ∀ runtime input, Remembers (fun _ facts => NameableFacts facts) runtime → True →
      Remembers (fun _ facts => NameableFacts facts) (memoryStep runtime input) := by
    intro runtime input h _
    exact memoryStep_remembers (fun _ _ _ _ h => h) h
      fun snapshot after ids _ hnameable hchanges => changes_nameable hnameable hchanges
  refine Runs.invariant hsteps ?_ (Runs.allSteps_true TurnRuntime.fresh inputs)
  intro snapshot hsnapshot fact hfact
  obtain rfl : GlobalMemorySnapshot.empty = snapshot := Option.some.inj hsnapshot
  exact absurd hfact List.not_mem_nil

end Writes

end Liz
