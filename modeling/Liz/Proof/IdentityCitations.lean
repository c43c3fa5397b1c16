import Liz.Proof.Idempotence

/-!
# The citations of an identity

The identity that is derived from a log joins up to three of its last eight summaries, and the fact
that stores it cites four of these entries: the oldest ones, whether they say anything about the
owner or not. So an entry that the identity is made of is cited when it is one of the four, or when
one of the four says the same.
-/

namespace Liz

open Program

/-- The summary says something about the owner. -/
def TurnLogEntry.signalsIdentity (entry : TurnLogEntry) : Bool :=
  identitySignals.any (Text.contains (Text.toAsciiLowercase (Text.trim entry.summary)))

/-- The entries that the identity is made of. -/
def identityEntries (entries : List TurnLogEntry) : List TurnLogEntry :=
  (entries.filter TurnLogEntry.signalsIdentity).take 3

theorem identityLines_eq (entries : List TurnLogEntry) :
    identityLines entries = (identityEntries entries).map fun entry => Text.trim entry.summary := by
  unfold identityLines identityEntries TurnLogEntry.signalsIdentity
  rw [List.filter_map, ← List.map_take]
  simp only [Function.comp_def]

/-- One of the citations has the text of the entry. -/
def Cited (citations : List MemoryCitationRef) (entry : TurnLogEntry) : Prop :=
  ∃ citation ∈ citations, citation.note = entry.summary

/-- Behind the first four entries, the entries that are still needed to make three repeat one of the
four. -/
def RepeatsEarly (entries : List TurnLogEntry) : Prop :=
  ∀ entry ∈ ((entries.drop 4).filter TurnLogEntry.signalsIdentity).take
      (3 - ((entries.take 4).filter TurnLogEntry.signalsIdentity).length),
    ∃ early ∈ entries.take 4, early.summary = entry.summary

instance (entries : List TurnLogEntry) : Decidable (RepeatsEarly entries) :=
  inferInstanceAs (Decidable (∀ entry ∈ _, _))

theorem cited_citationsFromEntries {threadId : ThreadId} {entries : List TurnLogEntry}
    {entry : TurnLogEntry} :
    Cited (citationsFromEntries threadId entries) entry ↔
      ∃ early ∈ entries.take 4, early.summary = entry.summary := by
  unfold Cited citationsFromEntries
  simp only [List.mem_map, exists_exists_and_eq_and]

/-- The entries of the identity among the first four are cited, so the others decide. -/
theorem identityEntries_cited_iff (threadId : ThreadId) (entries : List TurnLogEntry) :
    (∀ entry ∈ identityEntries entries, Cited (citationsFromEntries threadId entries) entry) ↔
      RepeatsEarly entries := by
  have hsplit : identityEntries entries =
      ((entries.take 4).filter TurnLogEntry.signalsIdentity).take 3 ++
        ((entries.drop 4).filter TurnLogEntry.signalsIdentity).take
          (3 - ((entries.take 4).filter TurnLogEntry.signalsIdentity).length) := by
    rw [← List.take_append, ← List.filter_append, List.take_append_drop]
    rfl
  simp only [cited_citationsFromEntries, hsplit, List.forall_mem_append]
  refine ⟨fun h => h.2, fun h => ⟨fun entry hentry => ?_, h⟩⟩
  have hearly := List.mem_of_mem_filter (List.mem_of_mem_take hentry)
  exact ⟨entry, hearly, rfl⟩

/-! ### What a pass reports -/

section Reports

variable [Clock] {draft : FactDraft}

/-- The fact a write leaves has its citations, and is reported. -/
theorem exists_cited_upsertFact (spec : FactSpec) (draft : FactDraft) :
    ∃ fact ∈ factsAt (upsertFact spec draft).facts spec.subject, spec.same fact = true ∧
      fact.citations = spec.citations ∧ fact.id ∈ (upsertFact spec draft).updatedFactIds := by
  have hwritten := factsAt_upsertFact_self spec draft
  have hfind := find?_liveAt draft.facts spec.subject
  cases hfacts : factsAt draft.facts spec.subject with
  | nil =>
      rw [hfacts, Records.push] at hwritten
      rw [hfacts, List.head?_nil] at hfind
      refine ⟨_, by rw [hwritten]; exact List.mem_singleton_self _, FactSpec.same_stored _ _, rfl, ?_⟩
      simp [upsertFact, hfind, FactSpec.stored]
  | cons first rest =>
      rw [hfacts, Records.push] at hwritten
      rw [hfacts, List.head?_cons] at hfind
      by_cases hsame : spec.same first = true
      · rw [if_pos hsame] at hwritten
        refine ⟨spec.refresh first, by rw [hwritten]; exact List.mem_cons_self, hsame, rfl, ?_⟩
        simp [upsertFact, hfind, hsame, FactSpec.refresh]
      · rw [if_neg hsame] at hwritten
        refine ⟨spec.stored draft.ids.nextMemoryFactId.1,
          by rw [hwritten]; exact List.mem_append_right _ (List.mem_singleton_self _),
          FactSpec.same_stored _ _, rfl, ?_⟩
        simp [upsertFact, hfind, hsame, FactSpec.stored]

/-- What is reported stays reported. -/
theorem updatedFactIds_upsertFacts {id : MemoryFactId} (specs : List FactSpec)
    (h : id ∈ draft.updatedFactIds) : id ∈ (upsertFacts specs draft).updatedFactIds := by
  induction specs generalizing draft with
  | nil => exact h
  | cons spec rest ih =>
      refine ih ?_
      unfold upsertFact
      split
      · split
        · exact List.mem_append_left _ h
        · exact List.mem_append_left _ h
      · exact List.mem_append_left _ h

variable [Unicode]

/-- The identity that a heuristic pass writes is stored with the citations of the pass and
reported. -/
theorem CompilationPass.exists_identity_compileFacts (pass : CompilationPass) {update : String}
    (hcandidates : pass.delta.invalidationCandidates = []) (hdurable : pass.delta.durableFacts = [])
    (hupdate : pass.delta.identitySummaryUpdate = some update) (draft : FactDraft) :
    ∃ fact ∈ factsAt (pass.compileFacts draft).facts identitySubject, fact.kind = .identity ∧
      fact.value = update ∧ fact.citations = pass.citations ∧
      fact.id ∈ (pass.compileFacts draft).updatedFactIds := by
  have hmiddle : pass.middleSpecs =
      pass.commitmentSpecs ++ [pass.spec .identity identitySubject update] := by
    simp [middleSpecs, identitySpecs, durableSpecs, hdurable, hupdate]
  have hprocedures : ∀ spec ∈ pass.procedureSpecs, spec.subject ≠ identitySubject := fun spec hspec =>
    subject_ne_identity_of_mem_ownSpecs (List.mem_append_right _ hspec)
  rw [pass.compileFacts_eq, hmiddle, upsertFacts_append]
  generalize upsertFacts pass.commitmentSpecs _ = reached
  obtain ⟨fact, hfact, hsame, hcitations, hid⟩ :=
    exists_cited_upsertFact (pass.spec .identity identitySubject update) reached
  obtain ⟨hvalue, hkind⟩ := FactSpec.same_iff.mp hsame
  refine ⟨fact, ?_, hkind, hvalue, hcitations, updatedFactIds_upsertFacts _ hid⟩
  rw [factsAt_upsertFacts_of_ne hprocedures,
    factsAt_invalidateFacts_givenUp (hcandidates ▸ List.not_mem_nil)]
  exact hfact

variable [Disk]

/-- What a compilation stores and what it reports come from one pass. -/
theorem compileWith_reports
    (compile : MemoryCompilationInput → Except RuntimeError MemoryCompilationDelta)
    (threadId : ThreadId) (runtime : TurnRuntime) :
    wp (compileWith compile threadId)
      (fun summary t => ∃ snapshot later pass,
        storedMemory runtime.stores = some snapshot ∧ storedMemory t.stores = some later ∧
        passFor compile threadId runtime snapshot.facts = some pass ∧
        later = pass.snapshotAfter snapshot (pass.compileFacts
          (.start snapshot.facts runtime.ids.nowTimestamp.2)) ∧
        summary.updatedFactIds = (pass.compileFacts
          (.start snapshot.facts runtime.ids.nowTimestamp.2)).updatedFactIds)
      (fun _ _ => True) runtime := by
  unfold compileWith
  rw [wp_bind]
  refine wp_buildCompilationInput (fun thread entries snapshot operations hthread hlog hsnapshot => ?_)
    (fun _ _ => trivial)
  cases hdelta : compile (compilationInput threadId thread entries snapshot.facts) with
  | error e => trivial
  | ok delta =>
      have hpass := passFor_eq_some hthread hlog hdelta
      simp only []
      unfold applyCompilationDelta
      rw [wp_bind, wp_stored]
      refine wp_readGlobalMemory (fun again hagain => ?_) (fun _ => trivial)
      obtain rfl : snapshot = again := Option.some.inj (hsnapshot.symm.trans hagain)
      rw [wp_bind, wp_drawn, wp_bind, wp_drawn, wp_bind, wp_stored]
      exact wp_writeGlobalMemory ⟨snapshot, _, _, hsnapshot, rfl, hpass, rfl, rfl⟩
        (fun _ => trivial) (fun _ _ => trivial)

end Reports

/-! ### Compilations -/

section Compilations

variable [Disk] [Clock] [Unicode]

/-- A compilation that derives an identity stores it as a live fact that it reports, and this fact
cites every entry the identity is made of if and only if those behind the first four of the recent
entries repeat one of the four. -/
theorem identity_cited_iff {runtime : TurnRuntime} {threadId : ThreadId}
    {summary : MemoryCompilationSummary} {thread : Thread} {entries : List TurnLogEntry}
    {before : GlobalMemorySnapshot} {update : String}
    (hcompiled : result (compileThread threadId) runtime = some summary)
    (hthread : runtime.stores.threads.lookup threadId = some (.intact thread))
    (hlog : (runtime.stores.turnLog threadId).read = .ok entries)
    (hbefore : storedMemory runtime.stores = some before)
    (hupdate : deriveIdentitySummaryUpdate
      (compilationInput threadId thread entries before.facts) = some update) :
    ∃ later, storedMemory (after (compileThread threadId) runtime).stores = some later ∧
      later.identitySummary = some update ∧
      ∃ fact ∈ later.facts, fact.kind = .identity ∧ fact.subject = "owner:identity_summary" ∧
        fact.live = true ∧ fact.value = update ∧ fact.id ∈ summary.updatedFactIds ∧
        ((∀ entry ∈ identityEntries (recentEntries entries),
          ∃ citation ∈ fact.citations, citation.note = entry.summary) ↔
          RepeatsEarly (recentEntries entries)) := by
  obtain ⟨snapshot, later, pass, hsnapshot, hlater, hpass, hafter, hids⟩ :=
    wp_of_result (compileWith_reports _ threadId runtime) hcompiled
  obtain rfl : before = snapshot := Option.some.inj (hbefore.symm.trans hsnapshot)
  rw [passFor_eq_some hthread hlog rfl, Option.some.injEq] at hpass
  have hcandidates : pass.delta.invalidationCandidates = [] := by rw [← hpass]; rfl
  have hdurable : pass.delta.durableFacts = [] := by rw [← hpass]; rfl
  have hsummary : pass.delta.identitySummaryUpdate = some update := by rw [← hpass]; exact hupdate
  have hcited : pass.citations = citationsFromEntries threadId (recentEntries entries) := by
    rw [← hpass]
    rfl
  obtain ⟨fact, hfact, hkind, hvalue, hcitations, hid⟩ :=
    pass.exists_identity_compileFacts hcandidates hdurable hsummary
      (.start before.facts runtime.ids.nowTimestamp.2)
  obtain ⟨hmem, hsubject, hlive⟩ := mem_factsAt.mp hfact
  refine ⟨later, hlater, ?_, fact, ?_, hkind, hsubject, hlive, hvalue, ?_, ?_⟩
  · rw [hafter]
    show pass.delta.identitySummaryUpdate.or before.identitySummary = some update
    rw [hsummary]
    rfl
  · rw [hafter]
    exact hmem
  · rw [hids]
    exact hid
  · rw [hcitations, hcited]
    exact identityEntries_cited_iff threadId (recentEntries entries)

end Compilations

/-- A log of completed turns with these summaries, and its thread. -/
def loggedRuntime (summaries : List String) : TurnRuntime :=
  let entries := summaries.zipIdx.map fun summary =>
    { threadId := "t", sequence := summary.2 + 1, turnId := some "turn_0_1",
      recordedAt := "unix:0.000000000", event := "turn_completed", summary := summary.1,
      artifactIds := [] : TurnLogEntry }
  { TurnRuntime.fresh with
    stores := { RuntimeStores.blank with
      threads := threadTable (Thread.blank "t")
      turnLogs := (∅ : Table ThreadId TurnLogFile).insert "t" { entries := entries, tail := .closed } } }

/-- The owner's name is the last of three lines. -/
def shortLog : List String := ["Planned the release", "Built the release", "My name is Ada"]

/-- The owner's name is the last of five lines. -/
def longLog : List String :=
  ["Planned the release", "Built the release", "Tested the release", "Shipped the release",
    "My name is Ada"]

/-- What is logged for the thread. -/
def loggedEntries (summaries : List String) : List TurnLogEntry :=
  ((loggedRuntime summaries).stores.turnLog "t").entries

theorem name_in_short_log_cited :
    ∃ later, storedMemory (after (@compileThread calmDisk stoppedClock asciiTable "t")
        (loggedRuntime shortLog)).stores = some later ∧
      ∃ fact ∈ later.facts, fact.value = "My name is Ada" ∧
        ∀ entry ∈ identityEntries (recentEntries (loggedEntries shortLog)),
          ∃ citation ∈ fact.citations, citation.note = entry.summary := by
  obtain ⟨summary, hsummary⟩ : ∃ summary, result (@compileThread calmDisk stoppedClock asciiTable
      "t") (loggedRuntime shortLog) = some summary := Option.isSome_iff_exists.mp (by decide +kernel)
  obtain ⟨later, hlater, -, fact, hfact, -, -, -, hvalue, -, hcited⟩ :=
    @identity_cited_iff calmDisk stoppedClock asciiTable (loggedRuntime shortLog) "t" summary
      (Thread.blank "t") (loggedEntries shortLog) .empty "My name is Ada" hsummary
      (by decide +kernel) rfl rfl (by decide +kernel)
  exact ⟨later, hlater, fact, hfact, hvalue, hcited.mpr (by decide +kernel)⟩

/-- The name that the identity is made of is not among the first four entries, and is not cited. -/
theorem name_in_long_log_not_cited :
    ¬ ∀ (_ : Disk) (_ : Clock) (_ : Unicode) (runtime : TurnRuntime) (threadId : ThreadId)
      (summary : MemoryCompilationSummary) (thread : Thread) (entries : List TurnLogEntry)
      (before : GlobalMemorySnapshot) (update : String),
      result (compileThread threadId) runtime = some summary →
      runtime.stores.threads.lookup threadId = some (.intact thread) →
      (runtime.stores.turnLog threadId).read = .ok entries →
      storedMemory runtime.stores = some before →
      deriveIdentitySummaryUpdate (compilationInput threadId thread entries before.facts) =
        some update →
      ∃ later, storedMemory (after (compileThread threadId) runtime).stores = some later ∧
        ∃ fact ∈ later.facts, fact.kind = .identity ∧ fact.subject = "owner:identity_summary" ∧
          fact.live = true ∧ fact.value = update ∧
          ∀ entry ∈ identityEntries (recentEntries entries),
            ∃ citation ∈ fact.citations, citation.note = entry.summary := by
  intro h
  obtain ⟨summary, hsummary⟩ : ∃ summary, result (@compileThread calmDisk stoppedClock asciiTable
      "t") (loggedRuntime longLog) = some summary := Option.isSome_iff_exists.mp (by decide +kernel)
  obtain ⟨later, hlater, fact, hfact, hkind, -, -, -, hcited⟩ :=
    h calmDisk stoppedClock asciiTable (loggedRuntime longLog) "t" summary (Thread.blank "t")
      (loggedEntries longLog) .empty "My name is Ada" hsummary (by decide +kernel) rfl rfl
      (by decide +kernel)
  have hnone : ((storedMemory (after (@compileThread calmDisk stoppedClock asciiTable "t")
      (loggedRuntime longLog)).stores).map fun later => later.facts.all fun fact =>
        fact.kind ≠ .identity || !decide (∀ entry ∈ identityEntries
          (recentEntries (loggedEntries longLog)),
            ∃ citation ∈ fact.citations, citation.note = entry.summary)) = some true := by
    decide +kernel
  rw [hlater, Option.map_some, Option.some.injEq, List.all_eq_true] at hnone
  have hfact := hnone fact hfact
  simp only [Bool.or_eq_true, decide_eq_true_eq, Bool.not_eq_true', decide_eq_false_iff_not] at hfact
  exact hfact.elim (fun hne => hne hkind) fun hno => hno hcited

end Liz
