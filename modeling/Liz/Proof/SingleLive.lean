import Liz.Base.Runs
import Liz.Proof.MemoryRuns

/-!
# One live fact for each subject

Compilations write by subject alone, so they never leave two live facts where there was one. An
About You update looks for a fact about the owner under the key of an item and does not see a fact
of another kind there, so it can put a second live fact beside it. Over runs whose updates stay away
from such keys no subject ever has two live facts.
-/

namespace Liz

/-! ### Items -/

/-- The item is about this subject; the row of the summary and blank keys are about none. -/
def AboutYouItem.names (subject : String) (item : AboutYouItem) : Bool :=
  item.key ≠ "identity_summary" && Text.trim item.key = subject && !subject.isEmpty

/-- What an update says last about a subject. -/
def lastItem (items : List AboutYouItem) (subject : String) : Option AboutYouItem :=
  (items.filter (AboutYouItem.names subject)).getLast?

theorem trim_key_of_names {item : AboutYouItem} {subject : String}
    (h : item.names subject = true) :
    Text.trim item.key = subject ∧ item.key ≠ "identity_summary" ∧ subject.isEmpty = false := by
  simp only [AboutYouItem.names, Bool.and_eq_true, decide_eq_true_eq, Bool.not_eq_true'] at h
  exact ⟨h.1.2, h.1.1, h.2⟩

theorem lastItem_cons (item : AboutYouItem) (rest : List AboutYouItem) (subject : String) :
    lastItem (item :: rest) subject =
      (lastItem rest subject).or (if item.names subject then some item else none) := by
  rw [show item :: rest = [item] ++ rest from rfl, lastItem, List.filter_append,
    List.getLast?_append, lastItem]
  congr 1
  cases hnames : item.names subject <;> simp [hnames]

/-- The live facts of a subject that are not about the owner. -/
def othersAt (facts : List StoredMemoryFact) (subject : String) : List StoredMemoryFact :=
  (factsAt facts subject).filter fun fact => fact.kind ≠ .identity

def identitiesAt (facts : List StoredMemoryFact) (subject : String) : List StoredMemoryFact :=
  facts.filter (StoredMemoryFact.identityAt subject)

theorem length_factsAt (facts : List StoredMemoryFact) (subject : String) :
    (factsAt facts subject).length =
      (identitiesAt facts subject).length + (othersAt facts subject).length := by
  have hidentities : identitiesAt facts subject =
      (factsAt facts subject).filter fun fact => fact.kind = .identity := by
    rw [factsAt, List.filter_filter]
    rfl
  rw [hidentities, othersAt, List.length_eq_length_filter_add fun fact : StoredMemoryFact =>
    decide (fact.kind = .identity)]
  simp

theorem othersAt_eq (facts : List StoredMemoryFact) (subject : String) :
    othersAt facts subject =
      facts.filter fun fact => fact.kind ≠ .identity && fact.liveAt subject := by
  rw [othersAt, factsAt, List.filter_filter]

section Items

variable [Clock] [Unicode] [UnicodeCase] (now : Timestamp)

/-- Facts that are not about the owner stay. -/
theorem length_othersAt_updateItem (item : AboutYouItem) (facts : List StoredMemoryFact)
    (ids : IdGenerator) (subject : String) :
    (othersAt (updateItem now item (facts, ids)).1 subject).length =
      (othersAt facts subject).length := by
  simp only [othersAt_eq]
  unfold updateItem
  dsimp only
  split
  · rfl
  · split
    · refine Records.length_filter_map_of_stable (fun fact => ?_) facts
      split
      next hidentity =>
        simp only [StoredMemoryFact.identityAt, Bool.and_eq_true, decide_eq_true_eq] at hidentity
        simp [hidentity.1]
      next => rfl
    · split
      · exact Records.length_filter_modifyFirst fun _ _ => rfl
      · simp [aboutYouFact]

omit [Clock] in
/-- Editing the value of a fact about the owner leaves it where it is counted. -/
theorem length_identitiesAt_edited (subject key value : String) (facts : List StoredMemoryFact) :
    (identitiesAt (Records.modifyFirst (StoredMemoryFact.identityAt key)
      (StoredMemoryFact.edited key value now) facts) subject).length =
      (identitiesAt facts subject).length :=
  Records.length_filter_modifyFirst fun _ _ => rfl

/-- An item about another subject is not seen at this one. -/
theorem length_identitiesAt_updateItem_of_not_names {item : AboutYouItem} {subject : String}
    (h : item.names subject = false) (facts : List StoredMemoryFact) (ids : IdGenerator) :
    (identitiesAt (updateItem now item (facts, ids)).1 subject).length =
      (identitiesAt facts subject).length := by
  unfold updateItem identitiesAt
  dsimp only
  split
  · rfl
  next hnamed =>
    push Not at hnamed
    have hne : Text.trim item.key ≠ subject := by
      rintro rfl
      simp [AboutYouItem.names, hnamed.1, hnamed.2] at h
    split
    · refine Records.length_filter_map_of_stable (fun fact => ?_) facts
      split
      next hidentity =>
        simp only [StoredMemoryFact.identityAt, StoredMemoryFact.liveAt, Bool.and_eq_true,
          decide_eq_true_eq] at hidentity
        simp [StoredMemoryFact.identityAt, StoredMemoryFact.liveAt, hidentity.2.1, hne]
      next => rfl
    · split
      · exact length_identitiesAt_edited now subject _ _ facts
      · simp [aboutYouFact, StoredMemoryFact.identityAt, StoredMemoryFact.liveAt, hne]

/-- A blank item takes the facts about the owner at its subject back. -/
theorem identitiesAt_updateItem_of_blank {item : AboutYouItem} {subject : String}
    (h : item.names subject = true) (hblank : (Text.trim item.value).isEmpty = true)
    (facts : List StoredMemoryFact) (ids : IdGenerator) :
    identitiesAt (updateItem now item (facts, ids)).1 subject = [] := by
  obtain ⟨rfl, hkey, hsubject⟩ := trim_key_of_names h
  unfold updateItem identitiesAt
  simp only [hkey, hsubject, Bool.false_eq_true, or_self, if_false, hblank, if_true]
  rw [List.filter_eq_nil_iff]
  intro fact hfact
  obtain ⟨old, -, rfl⟩ := List.mem_map.mp hfact
  split
  next => simp [StoredMemoryFact.identityAt, StoredMemoryFact.liveAt, StoredMemoryFact.live]
  next hother => exact hother

/-- An item never makes a second fact about the owner. -/
theorem length_identitiesAt_updateItem {item : AboutYouItem} {subject : String}
    {facts : List StoredMemoryFact} {ids : IdGenerator}
    (hone : (identitiesAt facts subject).length ≤ 1) :
    (identitiesAt (updateItem now item (facts, ids)).1 subject).length ≤ 1 := by
  cases hnames : item.names subject with
  | false => rwa [length_identitiesAt_updateItem_of_not_names now hnames]
  | true =>
      by_cases hblank : (Text.trim item.value).isEmpty = true
      · rw [identitiesAt_updateItem_of_blank now hnames hblank]
        exact Nat.zero_le 1
      · obtain ⟨rfl, hkey, hsubject⟩ := trim_key_of_names hnames
        unfold updateItem
        simp only [hkey, hsubject, Bool.false_eq_true, or_self, if_false, hblank]
        split
        · exact (length_identitiesAt_edited now _ _ _ facts).trans_le hone
        next hnone =>
          have hempty : identitiesAt facts (Text.trim item.key) = [] := by
            simpa [identitiesAt, List.filter_eq_nil_iff] using hnone
          rw [identitiesAt] at hempty
          rw [identitiesAt, List.filter_append, hempty, List.nil_append]
          exact List.length_filter_le _ [_]

/-- An item with a value leaves a fact about the owner at its subject. -/
theorem length_identitiesAt_updateItem_pos {item : AboutYouItem} {subject : String}
    (h : item.names subject = true) (hvalue : (Text.trim item.value).isEmpty = false)
    (facts : List StoredMemoryFact) (ids : IdGenerator) :
    0 < (identitiesAt (updateItem now item (facts, ids)).1 subject).length := by
  obtain ⟨rfl, hkey, hsubject⟩ := trim_key_of_names h
  unfold updateItem
  simp only [hkey, hsubject, Bool.false_eq_true, or_self, if_false, hvalue]
  split
  next hany =>
    rw [length_identitiesAt_edited]
    obtain ⟨fact, hfact, hidentity⟩ := List.any_eq_true.mp hany
    exact List.length_pos_of_mem (List.mem_filter.mpr ⟨hfact, hidentity⟩)
  next =>
    refine List.length_pos_of_mem (a := aboutYouFact ids.nextMemoryFactId.1 (Text.trim item.key)
      (Text.trim item.value) now) (List.mem_filter.mpr ⟨by simp, ?_⟩)
    simp [aboutYouFact, StoredMemoryFact.identityAt, StoredMemoryFact.liveAt,
      StoredMemoryFact.live]

/-! ### Updates -/

theorem length_othersAt_updateItems (items : List AboutYouItem)
    (state : List StoredMemoryFact × IdGenerator) (subject : String) :
    (othersAt (updateItems now items state).1 subject).length = (othersAt state.1 subject).length := by
  unfold updateItems
  induction items generalizing state with
  | nil => rfl
  | cons item rest ih =>
      exact (ih _).trans (length_othersAt_updateItem now item state.1 state.2 subject)

theorem length_identitiesAt_updateItems (items : List AboutYouItem) {subject : String}
    (state : List StoredMemoryFact × IdGenerator)
    (hone : (identitiesAt state.1 subject).length ≤ 1) :
    (identitiesAt (updateItems now items state).1 subject).length ≤ 1 := by
  unfold updateItems
  induction items generalizing state with
  | nil => exact hone
  | cons item rest ih => exact ih _ (length_identitiesAt_updateItem now hone)

theorem length_identitiesAt_updateItems_of_none {items : List AboutYouItem} {subject : String}
    (h : lastItem items subject = none) (state : List StoredMemoryFact × IdGenerator) :
    (identitiesAt (updateItems now items state).1 subject).length =
      (identitiesAt state.1 subject).length := by
  unfold updateItems
  induction items generalizing state with
  | nil => rfl
  | cons item rest ih =>
      rw [lastItem_cons, Option.or_eq_none_iff] at h
      refine (ih h.1 _).trans ?_
      cases hnames : item.names subject with
      | false => exact length_identitiesAt_updateItem_of_not_names now hnames state.1 state.2
      | true => simp [hnames] at h

theorem identitiesAt_updateItems_of_blank {items : List AboutYouItem} {subject : String}
    {last : AboutYouItem} (h : lastItem items subject = some last)
    (hblank : (Text.trim last.value).isEmpty = true)
    (state : List StoredMemoryFact × IdGenerator) :
    identitiesAt (updateItems now items state).1 subject = [] := by
  induction items generalizing state with
  | nil => simp [lastItem] at h
  | cons item rest ih =>
      rw [lastItem_cons] at h
      cases hrest : lastItem rest subject with
      | some other =>
          rw [hrest, Option.some_or] at h
          exact ih (hrest.trans h) _
      | none =>
          -- the later items say nothing about the subject, so what this one does stays
          have hnames : item.names subject = true ∧ item = last := by
            simpa [hrest] using h
          obtain ⟨hnames, rfl⟩ := hnames
          have hitem := identitiesAt_updateItem_of_blank now hnames hblank state.1 state.2
          have hlength := length_identitiesAt_updateItems_of_none now hrest
            (updateItem now item state)
          rw [hitem, List.length_nil] at hlength
          exact List.eq_nil_of_length_eq_zero hlength

theorem length_identitiesAt_updateItems_pos {items : List AboutYouItem} {subject : String}
    {last : AboutYouItem} (h : lastItem items subject = some last)
    (hvalue : (Text.trim last.value).isEmpty = false)
    (state : List StoredMemoryFact × IdGenerator) :
    0 < (identitiesAt (updateItems now items state).1 subject).length := by
  induction items generalizing state with
  | nil => simp [lastItem] at h
  | cons item rest ih =>
      rw [lastItem_cons] at h
      cases hrest : lastItem rest subject with
      | some other =>
          rw [hrest, Option.some_or] at h
          exact ih (hrest.trans h) _
      | none =>
          have hnames : item.names subject = true ∧ item = last := by
            simpa [hrest] using h
          obtain ⟨hnames, rfl⟩ := hnames
          have hitem := length_identitiesAt_updateItem_pos now hnames hvalue state.1 state.2
          exact hitem.trans_eq (length_identitiesAt_updateItems_of_none now hrest
            (updateItem now item state)).symm

/-- Every subject of a live fact of another kind is left alone in the end: nothing is said about it,
or what is said last is blank. -/
def AboutYouUpdate.Stands (update : AboutYouUpdate) (facts : List StoredMemoryFact) : Prop :=
  ∀ fact ∈ facts, fact.live = true → fact.kind ≠ .identity →
    ∀ item ∈ lastItem update.items fact.subject, (Text.trim item.value).isEmpty = true

instance (update : AboutYouUpdate) (facts : List StoredMemoryFact) :
    Decidable (update.Stands facts) :=
  inferInstanceAs (Decidable (∀ fact ∈ facts, _ → _ → ∀ item ∈ lastItem _ _, _))

/-- An update leaves one live fact to each subject exactly when it stays away from the facts of
other kinds. -/
theorem updateItems_singleLive_iff {update : AboutYouUpdate} {facts : List StoredMemoryFact}
    (h : SingleLive facts) (ids : IdGenerator) :
    SingleLive (updateItems now update.items (facts, ids)).1 ↔ update.Stands facts := by
  constructor
  · intro hafter fact hfact hlive hkind item hitem
    by_contra hvalue
    rw [Bool.not_eq_true] at hvalue
    have hpos := length_identitiesAt_updateItems_pos now hitem hvalue (facts, ids)
    have hothers := length_othersAt_updateItems now update.items (facts, ids) fact.subject
    have hmem : fact ∈ othersAt facts fact.subject :=
      List.mem_filter.mpr ⟨mem_factsAt.mpr ⟨hfact, rfl, hlive⟩, by simp [hkind]⟩
    have hother := List.length_pos_of_mem hmem
    have htotal := hafter fact.subject
    rw [length_factsAt] at htotal
    dsimp only at hothers
    omega
  · intro hstands subject
    have hbefore := h subject
    have hothers := length_othersAt_updateItems now update.items (facts, ids) subject
    rw [length_factsAt] at hbefore ⊢
    cases hcase : othersAt facts subject with
    | nil =>
        have hidentities := length_identitiesAt_updateItems now update.items (facts, ids)
          (show (identitiesAt facts subject).length ≤ 1 by omega)
        simp only [hcase, List.length_nil] at hothers
        omega
    | cons fact rest =>
        obtain ⟨hfact, hkind⟩ := List.mem_filter.mp (hcase ▸ List.mem_cons_self : fact ∈ _)
        obtain ⟨hmem, rfl, hlive⟩ := mem_factsAt.mp hfact
        simp only [hcase, List.length_cons] at hbefore hothers
        cases hitem : lastItem update.items fact.subject with
        | none =>
            have hsame := length_identitiesAt_updateItems_of_none now hitem (facts, ids)
            dsimp only at hsame
            omega
        | some item =>
            have hblank := hstands fact hmem hlive (by simpa using hkind) item hitem
            rw [identitiesAt_updateItems_of_blank now hitem hblank]
            simp only [List.length_nil]
            omega

end Items

/-! ### Runs -/

section Runs

variable [Disk] [Clock] [Unicode] [UnicodeCase] [JsonText]

/-- Unless the request is an update that gives a value to the subject of a live fact that is not
about the owner. -/
def MemoryRequest.StandsAside (stores : RuntimeStores) : MemoryRequest → Prop
  | updateAboutYou update => ∀ snapshot ∈ storedMemory stores, update.Stands snapshot.facts
  | _ => True

instance (stores : RuntimeStores) : ∀ request : MemoryRequest,
    Decidable (request.StandsAside stores)
  | .updateAboutYou update =>
      inferInstanceAs (Decidable (∀ snapshot ∈ storedMemory stores, update.Stands snapshot.facts))
  | .compile _ => inferInstanceAs (Decidable True)
  | .compileFromLlmOutput _ _ => inferInstanceAs (Decidable True)
  | .correctKnowledge _ => inferInstanceAs (Decidable True)

omit [Disk] [Clock] [Unicode] [UnicodeCase] [JsonText] in
theorem corrected_singleLive {facts : List StoredMemoryFact} (h : SingleLive facts)
    (id : MemoryFactId) (value : String) (now : Timestamp) :
    SingleLive (Records.modifyFirst (StoredMemoryFact.hasId id) (.corrected value now) facts) := by
  intro subject
  have hlength : ((Records.modifyFirst (StoredMemoryFact.hasId id) (.corrected value now)
      facts).filter (StoredMemoryFact.liveAt subject)).length =
      (facts.filter (StoredMemoryFact.liveAt subject)).length :=
    Records.length_filter_modifyFirst fun _ _ => rfl
  exact hlength.trans_le (h subject)

omit [Disk] in
theorem changes_singleLive {runtime : TurnRuntime} {input : MemoryInput}
    {snapshot after : GlobalMemorySnapshot} {ids : IdGenerator} (h : SingleLive snapshot.facts)
    (hsnapshot : storedMemory runtime.stores = some snapshot)
    (haside : input.request.StandsAside runtime.stores)
    (hchanges : input.request.Changes (input.arrival runtime) snapshot after ids) :
    SingleLive after.facts := by
  have hcompiled : ∀ compile threadId,
      CompiledBy compile threadId (input.arrival runtime) snapshot after ids →
        SingleLive after.facts := by
    rintro compile threadId ⟨thread, entries, delta, -, -, -, rfl, -⟩
    exact CompilationPass.compileFacts_singleLive _ h
  generalize input.request = request at haside hchanges
  cases request with
  | compile threadId => exact hcompiled (fun input => .ok (heuristicDelta input)) threadId hchanges
  | compileFromLlmOutput threadId rawJson =>
      exact hcompiled (parseLlmMemoryDelta rawJson) threadId hchanges
  | updateAboutYou update =>
      obtain ⟨rfl, -⟩ := hchanges
      exact (updateItems_singleLive_iff _ h _).mpr (haside snapshot hsnapshot)
  | correctKnowledge correction =>
      obtain ⟨rfl, -⟩ := hchanges
      exact corrected_singleLive h _ _ _

/-- In a run whose updates all stand aside, no subject ever has two live facts. -/
theorem single_live_along_runs (inputs : List MemoryInput)
    (haside : Runs.AllSteps memoryStep
      (fun runtime input => input.request.StandsAside runtime.stores) .fresh inputs) :
    ∀ runtime ∈ Runs.states memoryStep .fresh inputs, ∀ snapshot,
      storedMemory runtime.stores = some snapshot → SingleLive snapshot.facts := by
  have hsteps : ∀ runtime input, Remembers (fun _ facts => SingleLive facts) runtime →
      input.request.StandsAside runtime.stores →
      Remembers (fun _ facts => SingleLive facts) (memoryStep runtime input) := by
    intro runtime input h hstep
    exact memoryStep_remembers (fun _ _ _ _ h => h) h
      fun snapshot after ids hsnapshot hsingle hchanges =>
        changes_singleLive hsingle hsnapshot hstep hchanges
  refine Runs.invariant hsteps ?_ haside
  intro snapshot hsnapshot subject
  obtain rfl : GlobalMemorySnapshot.empty = snapshot := Option.some.inj hsnapshot
  exact Nat.zero_le 1

end Runs

/-- The owner gives a value to this key. -/
def updateOf (key value : String) : AboutYouUpdate :=
  { identitySummary := none
    items :=
      [{ key := key, label := key, value := value, confirmed := true, sourceFactId := none }] }

/-- The thread is compiled, and then the owner edits this key. -/
def compiledThenEdited (key : String) : List MemoryInput :=
  [MemoryRequest.over (.compile "t") (threadWithGoal "ship"),
    MemoryRequest.over (.updateAboutYou (updateOf key "later")) (threadWithGoal "ship")]

theorem single_live_after_edit :
    compiledThenEdited "owner:name" ≠ [] ∧
      ∀ runtime ∈ @Runs.states _ _ (@memoryStep calmDisk stoppedClock asciiTable asciiCase noJson)
        .fresh (compiledThenEdited "owner:name"), ∀ snapshot,
        storedMemory runtime.stores = some snapshot → SingleLive snapshot.facts :=
  ⟨by simp [compiledThenEdited],
    @single_live_along_runs calmDisk stoppedClock asciiTable asciiCase noJson
      (compiledThenEdited "owner:name") (by decide +kernel)⟩

/-- The key of the update is the subject of the thread's goal, which is live and a decision. -/
theorem about_you_doubles_subject :
    ¬ ∀ (disk : Disk) (clock : Clock) (unicode : Unicode) (letters : UnicodeCase) (json : JsonText)
      (inputs : List MemoryInput),
      ∀ runtime ∈ @Runs.states _ _ (@memoryStep disk clock unicode letters json) .fresh inputs,
      ∀ snapshot, storedMemory runtime.stores = some snapshot → SingleLive snapshot.facts := by
  intro h
  have hrun := h calmDisk stoppedClock asciiTable asciiCase noJson
    (compiledThenEdited "thread:t:current_goal") _ (Runs.final_mem_states _ _)
  have hcount : (storedMemory (@Runs.final _ _
      (@memoryStep calmDisk stoppedClock asciiTable asciiCase noJson) .fresh
      (compiledThenEdited "thread:t:current_goal")).stores).map (fun snapshot =>
        (factsAt snapshot.facts "thread:t:current_goal").length) = some 2 := by decide +kernel
  obtain ⟨snapshot, hsnapshot, htwo⟩ := Option.map_eq_some_iff.mp hcount
  have hone := hrun snapshot hsnapshot "thread:t:current_goal"
  omega

end Liz
