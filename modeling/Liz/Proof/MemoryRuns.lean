import Liz.Proof.Ledger
import Liz.Proof.LiveFacts

/-!
# What a memory request can do

A request that writes facts either applies its change to the snapshot that was stored and stores the
result, or leaves the memory file as it was, or damages it so that it no longer reads. This is said
once here, for every request and every fault of the disk; what holds of the stored facts over whole
runs is then a question about the changes alone.
-/

namespace Liz

open Program

section Steps

variable [Clock] [Unicode]

/-! ### Changes -/

/-- Applying the delta takes the snapshot to `after` and the generator to `ids`. -/
def AppliedBy (input : MemoryCompilationInput) (delta : MemoryCompilationDelta)
    (runtime : TurnRuntime) (snapshot after : GlobalMemorySnapshot) (ids : IdGenerator) : Prop :=
  let now := runtime.ids.nowTimestamp
  let pass := input.passWith delta now.1
  let draft := pass.compileFacts (.start snapshot.facts now.2)
  after = pass.snapshotAfter snapshot draft ∧ ids = draft.ids

/-- A compilation of the thread with this compiler takes the snapshot to `after`. -/
def CompiledBy (compile : MemoryCompilationInput → Except RuntimeError MemoryCompilationDelta)
    (threadId : ThreadId) (runtime : TurnRuntime) (snapshot after : GlobalMemorySnapshot)
    (ids : IdGenerator) : Prop :=
  ∃ thread entries delta,
    runtime.stores.threads.lookup threadId = some (.intact thread) ∧
    (runtime.stores.turnLog threadId).read = .ok entries ∧
    compile (compilationInput threadId thread entries snapshot.facts) = .ok delta ∧
    AppliedBy (compilationInput threadId thread entries snapshot.facts) delta runtime snapshot after
      ids

/-- The pass a compilation of the thread comes to with this compiler over these facts. -/
def passFor (compile : MemoryCompilationInput → Except RuntimeError MemoryCompilationDelta)
    (threadId : ThreadId) (runtime : TurnRuntime) (facts : List StoredMemoryFact) :
    Option CompilationPass :=
  match runtime.stores.threads.lookup threadId, (runtime.stores.turnLog threadId).read with
  | some (.intact thread), .ok entries =>
      let input := compilationInput threadId thread entries facts
      match compile input with
      | .ok delta => some (input.passWith delta runtime.ids.nowTimestamp.1)
      | .error _ => none
  | _, _ => none

/-- The pass of a request that compiles. -/
def MemoryRequest.pass [JsonText] (runtime : TurnRuntime) (facts : List StoredMemoryFact) :
    MemoryRequest → Option CompilationPass
  | compile threadId => passFor (fun input => .ok (heuristicDelta input)) threadId runtime facts
  | compileFromLlmOutput threadId rawJson =>
      passFor (parseLlmMemoryDelta rawJson) threadId runtime facts
  | _ => none

omit [Unicode] in
theorem passFor_eq_some
    {compile : MemoryCompilationInput → Except RuntimeError MemoryCompilationDelta}
    {threadId : ThreadId} {runtime : TurnRuntime} {facts : List StoredMemoryFact} {thread : Thread}
    {entries : List TurnLogEntry} {delta : MemoryCompilationDelta}
    (hthread : runtime.stores.threads.lookup threadId = some (.intact thread))
    (hlog : (runtime.stores.turnLog threadId).read = .ok entries)
    (hdelta : compile (compilationInput threadId thread entries facts) = .ok delta) :
    passFor compile threadId runtime facts =
      some ((compilationInput threadId thread entries facts).passWith delta
        runtime.ids.nowTimestamp.1) := by
  simp only [passFor, hthread, hlog, hdelta]

/-- An About You update takes the snapshot to `after`. -/
def UpdatedBy [UnicodeCase] (update : AboutYouUpdate) (runtime : TurnRuntime)
    (snapshot after : GlobalMemorySnapshot) (ids : IdGenerator) : Prop :=
  let now := runtime.ids.nowTimestamp
  let changed := updateItems now.1 update.items (snapshot.facts, now.2)
  after = { snapshot with identitySummary := update.identitySummary, facts := changed.1 } ∧
    ids = changed.2

/-- A correction takes the snapshot to `after`. -/
def CorrectedBy (correction : KnowledgeCorrection) (runtime : TurnRuntime)
    (snapshot after : GlobalMemorySnapshot) (ids : IdGenerator) : Prop :=
  let now := runtime.ids.nowTimestamp
  after = { snapshot with
    facts := Records.modifyFirst (StoredMemoryFact.hasId correction.factId)
      (.corrected correction.correctedValue now.1) snapshot.facts } ∧
    ids = now.2

/-- The request takes the snapshot to `after` and the generator to `ids`. -/
def MemoryRequest.Changes [UnicodeCase] [JsonText] (runtime : TurnRuntime)
    (snapshot after : GlobalMemorySnapshot) (ids : IdGenerator) : MemoryRequest → Prop
  | compile threadId =>
      CompiledBy (fun input => .ok (heuristicDelta input)) threadId runtime snapshot after ids
  | compileFromLlmOutput threadId rawJson =>
      CompiledBy (parseLlmMemoryDelta rawJson) threadId runtime snapshot after ids
  | updateAboutYou update => UpdatedBy update runtime snapshot after ids
  | correctKnowledge correction => CorrectedBy correction runtime snapshot after ids

/-- The memory file is as it was, or it no longer reads. -/
def MemoryKept (s t : TurnRuntime) : Prop :=
  s.ids.sequence ≤ t.ids.sequence ∧
    (t.stores.globalMemory = s.stores.globalMemory ∨ storedMemory t.stores = none)

/-- The change has been applied to what was stored, and to nothing else. -/
structure MemoryChanged (change : GlobalMemorySnapshot → GlobalMemorySnapshot → IdGenerator → Prop)
    (s t : TurnRuntime) : Prop where
  threads : t.stores.threads = s.stores.threads
  turnLogs : t.stores.turnLogs = s.stores.turnLogs
  applied : ∃ snapshot after, storedMemory s.stores = some snapshot ∧
    storedMemory t.stores = some after ∧ change snapshot after t.ids

/-! ### The generator moves on -/

omit [Unicode] in
theorem sequence_upsertFact (spec : FactSpec) (draft : FactDraft) :
    draft.ids.sequence ≤ (upsertFact spec draft).ids.sequence := by
  unfold upsertFact
  split
  · split
    · exact le_rfl
    · exact Nat.le_succ _
  · exact Nat.le_succ _

omit [Unicode] in
theorem sequence_upsertFacts (specs : List FactSpec) (draft : FactDraft) :
    draft.ids.sequence ≤ (upsertFacts specs draft).ids.sequence := by
  induction specs generalizing draft with
  | nil => exact le_rfl
  | cons spec rest ih => exact (sequence_upsertFact spec draft).trans (ih _)

omit [Unicode] in
theorem sequence_invalidateFacts (doomed : StoredMemoryFact → Bool) (now : Timestamp)
    (draft : FactDraft) :
    draft.ids.sequence ≤ (invalidateFacts doomed now draft).ids.sequence := by
  have hwhere : ∀ (facts : List StoredMemoryFact) (ids : IdGenerator),
      ids.sequence ≤ (invalidateWhere doomed now facts ids).2.sequence := by
    intro facts
    induction facts with
    | nil => exact fun _ => le_rfl
    | cons fact rest ih =>
        intro ids
        unfold invalidateWhere
        split
        · exact (Nat.le_succ _).trans (ih ids.nextMemoryFactId.2)
        · exact ih ids
  exact hwhere draft.facts draft.ids

theorem CompilationPass.sequence_compileFacts (pass : CompilationPass) (draft : FactDraft) :
    draft.ids.sequence ≤ (pass.compileFacts draft).ids.sequence := by
  rw [pass.compileFacts_eq]
  exact (sequence_upsertFacts _ _).trans ((sequence_invalidateFacts _ _ _).trans
    ((sequence_upsertFacts _ _).trans ((sequence_invalidateFacts _ _ _).trans
      (sequence_upsertFacts _ _))))

theorem sequence_updateItems [UnicodeCase] (now : Timestamp) (items : List AboutYouItem)
    (facts : List StoredMemoryFact) (ids : IdGenerator) :
    ids.sequence ≤ (updateItems now items (facts, ids)).2.sequence := by
  unfold updateItems
  induction items generalizing facts ids with
  | nil => exact le_rfl
  | cons item rest ih =>
      have hitem : ids.sequence ≤ (updateItem now item (facts, ids)).2.sequence := by
        unfold updateItem
        dsimp only
        split
        · exact le_rfl
        · split
          · exact le_rfl
          · split
            · exact le_rfl
            · exact Nat.le_succ _
      exact hitem.trans (ih _ _)

/-! ### Programs -/

variable [Disk]

omit [Clock] [Unicode] in
theorem wp_buildCompilationInput {Q : MemoryCompilationInput → TurnRuntime → Prop}
    {E : RuntimeError → TurnRuntime → Prop} {threadId : ThreadId} {runtime : TurnRuntime}
    (hbuilt : ∀ thread entries snapshot operations,
      runtime.stores.threads.lookup threadId = some (.intact thread) →
      (runtime.stores.turnLog threadId).read = .ok entries →
      storedMemory runtime.stores = some snapshot →
      Q (compilationInput threadId thread entries snapshot.facts)
        { runtime with stores := { runtime.stores with operations := operations } })
    (hfailed : ∀ e operations,
      E e { runtime with stores := { runtime.stores with operations := operations } }) :
    wp (buildCompilationInput threadId) Q E runtime := by
  unfold buildCompilationInput
  rw [wp_bind, wp_requireThread]
  refine ⟨fun thread hthread => ?_, fun e _ => hfailed e _⟩
  have hlookup := lookup_of_foundThread hthread
  rw [wp_bind, wp_stored, RuntimeStores.readTurnLog, wp_operation]
  refine ⟨fun entries hentries => ?_, fun e _ => hfailed (.storage e) _⟩
  have hlog : (runtime.stores.turnLog threadId).read = .ok entries := by
    cases hfault : Disk.fault runtime.stores.tick.operations with
    | some fault => simp [logOutcome, hfault] at hentries
    | none =>
        rw [hfault] at hentries
        exact hentries
  rw [wp_bind, wp_stored]
  exact wp_readGlobalMemory
    (fun snapshot hsnapshot => hbuilt thread entries snapshot _ hlookup hlog hsnapshot)
    (fun e => hfailed (.storage e) _)

theorem applyCompilationDelta_changes (input : MemoryCompilationInput)
    (delta : MemoryCompilationDelta) (runtime : TurnRuntime) :
    wp (applyCompilationDelta input delta)
      (fun _ t => MemoryChanged (AppliedBy input delta runtime) runtime t)
      (fun _ t => MemoryKept runtime t) runtime := by
  unfold applyCompilationDelta
  rw [wp_bind, wp_stored]
  refine wp_readGlobalMemory (fun snapshot hsnapshot => ?_) (fun _ => ⟨le_rfl, .inl rfl⟩)
  rw [wp_bind, wp_drawn, wp_bind, wp_drawn, wp_bind, wp_stored]
  have hsequence := CompilationPass.sequence_compileFacts
    (input.passWith delta runtime.ids.nowTimestamp.1)
    (.start snapshot.facts runtime.ids.nowTimestamp.2)
  exact wp_writeGlobalMemory ⟨rfl, rfl, snapshot, _, hsnapshot, rfl, rfl, rfl⟩
    (fun _ => ⟨hsequence, .inl rfl⟩) (fun _ _ => ⟨hsequence, .inr rfl⟩)

theorem compileWith_changes
    (compile : MemoryCompilationInput → Except RuntimeError MemoryCompilationDelta)
    (threadId : ThreadId) (runtime : TurnRuntime) :
    wp (compileWith compile threadId)
      (fun _ t => MemoryChanged (CompiledBy compile threadId runtime) runtime t)
      (fun _ t => MemoryKept runtime t) runtime := by
  unfold compileWith
  rw [wp_bind]
  refine wp_buildCompilationInput (fun thread entries snapshot operations hthread hlog hsnapshot => ?_)
    (fun _ _ => ⟨le_rfl, .inl rfl⟩)
  cases hdelta : compile (compilationInput threadId thread entries snapshot.facts) with
  | error e => exact ⟨le_rfl, .inl rfl⟩
  | ok delta =>
      refine wp_mono (applyCompilationDelta_changes _ delta _) (fun _ t ht => ?_) (fun _ _ ht => ht)
      obtain ⟨hthreads, hlogs, again, after, hagain, hafter, happlied⟩ := ht
      obtain rfl : snapshot = again := Option.some.inj (hsnapshot.symm.trans hagain)
      exact ⟨hthreads, hlogs, snapshot, after, hsnapshot, hafter, thread, entries, delta, hthread,
        hlog, hdelta, happlied⟩

theorem compileWith_cases
    (compile : MemoryCompilationInput → Except RuntimeError MemoryCompilationDelta)
    (threadId : ThreadId) (runtime : TurnRuntime) :
    MemoryKept runtime (after (compileWith compile threadId) runtime) ∨
      MemoryChanged (CompiledBy compile threadId runtime) runtime
        (after (compileWith compile threadId) runtime) := by
  rw [← wp_after (R := fun t => MemoryKept runtime t ∨
    MemoryChanged (CompiledBy compile threadId runtime) runtime t)]
  exact wp_mono (compileWith_changes compile threadId runtime) (fun _ _ h => .inr h)
    (fun _ _ h => .inl h)

omit [Clock] [Unicode] [Disk] in
theorem MemoryKept.stored_eq {s t : TurnRuntime} (h : MemoryKept s t)
    {before later : GlobalMemorySnapshot} (hbefore : storedMemory s.stores = some before)
    (hlater : storedMemory t.stores = some later) : later = before := by
  rcases h.2 with hsame | hnone
  · rw [storedMemory, hsame] at hlater
    exact Option.some.inj (hlater.symm.trans hbefore)
  · rw [hnone] at hlater
    exact absurd hlater (by simp)

omit [Unicode] in
theorem correctKnowledgeSurface_changes (correction : KnowledgeCorrection) (runtime : TurnRuntime) :
    wp (correctKnowledgeSurface correction)
      (fun _ t => MemoryChanged (CorrectedBy correction runtime) runtime t)
      (fun _ t => MemoryKept runtime t) runtime := by
  unfold correctKnowledgeSurface
  rw [wp_bind, wp_stored]
  refine wp_readGlobalMemory (fun snapshot hsnapshot => ?_) (fun _ => ⟨le_rfl, .inl rfl⟩)
  rw [wp_bind, wp_drawn]
  cases snapshot.facts.find? (StoredMemoryFact.hasId correction.factId) with
  | none => exact ⟨le_rfl, .inl rfl⟩
  | some fact =>
      simp only []
      rw [wp_bind, wp_stored]
      exact wp_writeGlobalMemory ⟨rfl, rfl, snapshot, _, hsnapshot, rfl, rfl, rfl⟩
        (fun _ => ⟨le_rfl, .inl rfl⟩) (fun _ _ => ⟨le_rfl, .inr rfl⟩)

variable [UnicodeCase]

/-- The surface is read back after the change; that this fails changes nothing any more. -/
theorem updateAboutYouSurface_changes (update : AboutYouUpdate) (runtime : TurnRuntime) :
    wp (updateAboutYouSurface update)
      (fun _ t => MemoryChanged (UpdatedBy update runtime) runtime t)
      (fun _ t => MemoryKept runtime t ∨ MemoryChanged (UpdatedBy update runtime) runtime t)
      runtime := by
  unfold updateAboutYouSurface buildAboutYouSurface
  rw [wp_bind, wp_stored]
  refine wp_readGlobalMemory (fun snapshot hsnapshot => ?_) (fun _ => .inl ⟨le_rfl, .inl rfl⟩)
  rw [wp_bind, wp_drawn, wp_bind, wp_drawn, wp_bind, wp_stored]
  have hsequence := sequence_updateItems runtime.ids.nowTimestamp.1 update.items snapshot.facts
    runtime.ids.nowTimestamp.2
  refine wp_writeGlobalMemory ?_ (fun _ => .inl ⟨hsequence, .inl rfl⟩)
    (fun _ _ => .inl ⟨hsequence, .inr rfl⟩)
  rw [wp_bind, wp_stored]
  exact wp_readGlobalMemory (fun _ _ => ⟨rfl, rfl, snapshot, _, hsnapshot, rfl, rfl, rfl⟩)
    (fun _ => .inr ⟨rfl, rfl, snapshot, _, hsnapshot, rfl, rfl, rfl⟩)

variable [JsonText]

/-- A request that succeeds has applied its change; one that fails has applied it, has kept the
memory file or has damaged it. -/
theorem MemoryRequest.handle_changes (request : MemoryRequest) (runtime : TurnRuntime) :
    wp request.handle (fun _ t => MemoryChanged (request.Changes runtime) runtime t)
      (fun _ t => MemoryKept runtime t ∨ MemoryChanged (request.Changes runtime) runtime t)
      runtime := by
  cases request with
  | compile threadId =>
      rw [MemoryRequest.handle, wp_bind]
      exact wp_mono (compileWith_changes _ threadId runtime) (fun _ _ h => h) (fun _ _ h => .inl h)
  | compileFromLlmOutput threadId rawJson =>
      rw [MemoryRequest.handle, wp_bind]
      exact wp_mono (compileWith_changes _ threadId runtime) (fun _ _ h => h) (fun _ _ h => .inl h)
  | updateAboutYou update =>
      rw [MemoryRequest.handle, wp_bind]
      exact wp_mono (updateAboutYouSurface_changes update runtime) (fun _ _ h => h) (fun _ _ h => h)
  | correctKnowledge correction =>
      rw [MemoryRequest.handle, wp_bind]
      exact wp_mono (correctKnowledgeSurface_changes correction runtime) (fun _ _ h => h)
        (fun _ _ h => .inl h)

/-- A step of a memory run keeps the file, damages it, or applies the change of its request. -/
theorem memoryStep_cases (runtime : TurnRuntime) (input : MemoryInput) :
    MemoryKept (input.arrival runtime) (memoryStep runtime input) ∨
      MemoryChanged (input.request.Changes (input.arrival runtime)) (input.arrival runtime)
        (memoryStep runtime input) := by
  unfold memoryStep
  generalize input.arrival runtime = arrived
  rw [← wp_after (R := fun t => MemoryKept arrived t ∨
    MemoryChanged (input.request.Changes arrived) arrived t)]
  exact wp_mono (input.request.handle_changes arrived) (fun _ _ h => .inr h) (fun _ _ h => h)

/-! ### Invariants of the stored facts -/

/-- The stored facts and the generator meet `I`; a file that does not read holds no facts. -/
def Remembers (I : IdGenerator → List StoredMemoryFact → Prop) (runtime : TurnRuntime) : Prop :=
  ∀ snapshot, storedMemory runtime.stores = some snapshot → I runtime.ids snapshot.facts

omit [Clock] [Unicode] [Disk] [UnicodeCase] [JsonText] in
theorem Remembers.mono {I : IdGenerator → List StoredMemoryFact → Prop}
    (hmono : ∀ ids later facts, ids.sequence ≤ later.sequence → I ids facts → I later facts)
    {s t : TurnRuntime} (h : Remembers I s) (hkept : MemoryKept s t) : Remembers I t := by
  intro snapshot hsnapshot
  rcases hkept.2 with hsame | hnone
  · rw [storedMemory, hsame] at hsnapshot
    exact hmono _ _ _ hkept.1 (h snapshot hsnapshot)
  · rw [hnone] at hsnapshot
    exact absurd hsnapshot (by simp)

/-- What every change preserves, a step of a run preserves. -/
theorem memoryStep_remembers {I : IdGenerator → List StoredMemoryFact → Prop}
    (hmono : ∀ ids later facts, ids.sequence ≤ later.sequence → I ids facts → I later facts)
    {runtime : TurnRuntime} {input : MemoryInput} (h : Remembers I runtime)
    (hchange : ∀ snapshot after ids, storedMemory runtime.stores = some snapshot →
      I (input.arrival runtime).ids snapshot.facts →
      input.request.Changes (input.arrival runtime) snapshot after ids → I ids after.facts) :
    Remembers I (memoryStep runtime input) := by
  have harrival : Remembers I (input.arrival runtime) :=
    h.mono hmono ⟨Nat.le_add_right _ _, .inl rfl⟩
  rcases memoryStep_cases runtime input with hkept | hchanged
  · exact harrival.mono hmono hkept
  · obtain ⟨snapshot, after, hsnapshot, hafter, hchanges⟩ := hchanged.applied
    intro stored hstored
    obtain rfl : after = stored := Option.some.inj (hafter.symm.trans hstored)
    exact hchange snapshot after _ hsnapshot (harrival snapshot hsnapshot) hchanges

end Steps

/-! ### A quiet machine -/

def threadWithGoal (goal : String) : Thread := { Thread.blank "t" with activeGoal := some goal }

def threadTable (thread : Thread) : Table ThreadId (JsonFile Thread) :=
  (∅ : Table ThreadId (JsonFile Thread)).insert thread.id (.intact thread)

/-- A request that arrives when there is one thread with an empty log. -/
def MemoryRequest.over (request : MemoryRequest) (thread : Thread) : MemoryInput :=
  { threads := threadTable thread
    turnLogs := ∅
    operations := 0
    identifiers := 0
    readings := 0
    request := request }

end Liz
