import Liz.Base.Edits
import Liz.Proof.OwnerSubjects
import Liz.Proof.SingleLive

/-!
# What the owner reads back

An About You update is a list of items that is meant to replace what is stored about the owner. The
loop over the items edits the facts subject by subject: what an item does to the live values under
its key is an edit in the sense of the library, so the values that are read back are those that the
last items say exactly when no live fact is left out of the update, and none is left behind another
one of its subject.
-/

namespace Liz

open Program

/-! ### Values -/

/-- The live values about the owner under a subject, in the order of the file. -/
def valuesAt (facts : List StoredMemoryFact) (subject : String) : List String :=
  (identitiesAt facts subject).map StoredMemoryFact.value

/-- The values that are shown under a key. -/
def AboutYouSurface.valuesOf (surface : AboutYouSurface) (key : String) : List String :=
  (surface.items.filter fun item => item.key = key).map AboutYouItem.value

/-- What is read of a snapshot. -/
def aboutYouSurface (snapshot : GlobalMemorySnapshot) : AboutYouSurface :=
  { identitySummary := snapshot.identitySummary, items := aboutYouItems snapshot }

/-- The row of the summary. -/
def summaryItem (summary : String) : AboutYouItem :=
  { key := "identity_summary"
    label := "How liz understands you"
    value := summary
    confirmed := true
    sourceFactId := none }

/-- The row of a fact. -/
def factItem (fact : StoredMemoryFact) : AboutYouItem :=
  { key := fact.subject
    label := humanizeKey fact.subject
    value := fact.value
    confirmed := true
    sourceFactId := some fact.id }

/-- An update with what has been read. -/
def AboutYouSurface.update (surface : AboutYouSurface) : AboutYouUpdate :=
  { identitySummary := surface.identitySummary, items := surface.items }

/-- The trimmed value of an item; a blank one takes the key back. -/
def AboutYouItem.edit (item : AboutYouItem) : Option String :=
  if Text.isBlank item.value then none else some (Text.trim item.value)

/-- The map from trimmed keys to trimmed values that an update stands for: the last item of a key
counts, blank keys do not, and a blank value removes the key. -/
def AboutYouUpdate.replacement (update : AboutYouUpdate) : Table String String :=
  Edits.table ((update.items.filter fun item => !Text.isBlank item.key).map fun item =>
    (Text.trim item.key, item.edit))

/-- The update names every subject of a live fact about the owner, and takes a subject back that has
more than one. -/
def AboutYouUpdate.Covers (update : AboutYouUpdate) (facts : List StoredMemoryFact) : Prop :=
  ∀ fact ∈ facts, fact.kind = .identity → fact.live = true → fact.subject ≠ "identity_summary" →
    (∃ item ∈ update.items, item.names fact.subject = true) ∧
      ((identitiesAt facts fact.subject).length ≤ 1 ∨
        ∃ item ∈ update.items, item.names fact.subject = true ∧ Text.isBlank item.value = true)

/-- No live value about the owner is blank, and the last one under a key, trimmed, is the first
one. -/
def SettledValues (facts : List StoredMemoryFact) : Prop :=
  ∀ key, key ≠ "identity_summary" →
    (∀ value ∈ valuesAt facts key, Text.isBlank value = false) ∧
      (valuesAt facts key).getLast?.map Text.trim = (valuesAt facts key).head?

instance (update : AboutYouUpdate) (facts : List StoredMemoryFact) :
    Decidable (update.Covers facts) :=
  inferInstanceAs (Decidable (∀ fact ∈ facts, _ → _ → _ →
    (∃ item ∈ update.items, _) ∧ (_ ∨ ∃ item ∈ update.items, _)))

theorem identityAt_iff {fact : StoredMemoryFact} {subject : String} :
    fact.identityAt subject = true ↔
      fact.kind = .identity ∧ fact.subject = subject ∧ fact.live = true := by
  rw [StoredMemoryFact.identityAt, Bool.and_eq_true, decide_eq_true_eq,
    StoredMemoryFact.liveAt_iff]

theorem mem_identitiesAt {facts : List StoredMemoryFact} {subject : String}
    {fact : StoredMemoryFact} : fact ∈ identitiesAt facts subject ↔
      fact ∈ facts ∧ fact.kind = .identity ∧ fact.subject = subject ∧ fact.live = true := by
  rw [identitiesAt, List.mem_filter, identityAt_iff]

/-- What is asked of the subjects of the live facts about the owner is asked of every key that has
values. -/
theorem forall_identity_iff {facts : List StoredMemoryFact} {P : String → Prop} :
    (∀ fact ∈ facts, fact.kind = .identity → fact.live = true →
      fact.subject ≠ "identity_summary" → P fact.subject) ↔
    ∀ key, key ≠ "identity_summary" → valuesAt facts key = [] ∨ P key := by
  constructor
  · intro h key hkey
    cases hvalues : identitiesAt facts key with
    | nil => exact Or.inl (by rw [valuesAt, hvalues, List.map_nil])
    | cons fact rest =>
        have hmem : fact ∈ identitiesAt facts key := hvalues ▸ List.mem_cons_self
        obtain ⟨hfact, hkind, rfl, hlive⟩ := mem_identitiesAt.mp hmem
        exact Or.inr (h fact hfact hkind hlive hkey)
  · intro h fact hfact hkind hlive hsubject
    rcases h fact.subject hsubject with hnone | hP
    · have hmem := mem_identitiesAt.mpr ⟨hfact, hkind, rfl, hlive⟩
      rw [valuesAt, List.map_eq_nil_iff] at hnone
      rw [hnone] at hmem
      exact absurd hmem List.not_mem_nil
    · exact hP

/-! ### One item -/

section Items

variable [Clock] [Unicode] [UnicodeCase] (now : Timestamp)

omit [Clock] [Unicode] [UnicodeCase] in
/-- A fact about the owner is found under its own subject only. -/
theorem identityAt_of_ne {fact : StoredMemoryFact} {key subject : String}
    (h : fact.identityAt key = true) (hkey : key ≠ subject) : fact.identityAt subject = false := by
  rw [Bool.eq_false_iff]
  intro hother
  exact hkey ((identityAt_iff.mp h).2.1.symm.trans (identityAt_iff.mp hother).2.1)

omit [Clock] [Unicode] [UnicodeCase] in
/-- The values under a key are taken back. -/
theorem valuesAt_takenBack (facts : List StoredMemoryFact) (key subject : String) :
    valuesAt (facts.map fun fact =>
        if fact.identityAt key then { fact with invalidatedAt := some now } else fact) subject =
      if key = subject then [] else valuesAt facts subject := by
  have hdead : ∀ (fact : StoredMemoryFact) subject,
      ({ fact with invalidatedAt := some now } : StoredMemoryFact).identityAt subject = false := by
    intro fact subject
    simp [StoredMemoryFact.identityAt, StoredMemoryFact.liveAt, StoredMemoryFact.live]
  by_cases hkey : key = subject
  · subst hkey
    rw [if_pos rfl, valuesAt, identitiesAt, List.map_eq_nil_iff, List.filter_eq_nil_iff]
    intro fact hfact
    obtain ⟨old, -, rfl⟩ := List.mem_map.mp hfact
    by_cases hold : old.identityAt key = true
    · simp [hold, hdead]
    · simp [hold]
  · rw [if_neg hkey]
    apply Records.map_filter_map
    intro fact
    by_cases hfact : fact.identityAt key = true
    · simp [hfact, hdead, identityAt_of_ne hfact hkey]
    · simp [hfact]

omit [Clock] in
/-- The first value under a key is replaced. -/
theorem valuesAt_edited {facts : List StoredMemoryFact} {key : String}
    (h : facts.any (StoredMemoryFact.identityAt key) = true) (value subject : String) :
    valuesAt (Records.modifyFirst (StoredMemoryFact.identityAt key) (.edited key value now) facts)
        subject =
      if key = subject then value :: (valuesAt facts subject).tail else valuesAt facts subject := by
  unfold valuesAt identitiesAt
  by_cases hkey : key = subject
  · subst hkey
    rw [if_pos rfl, Records.filter_modifyFirst_self]
    obtain ⟨fact, hfact, hidentity⟩ := List.any_eq_true.mp h
    have hmem := List.mem_filter.mpr ⟨hfact, hidentity⟩
    cases hvalues : facts.filter (StoredMemoryFact.identityAt key) with
    | nil =>
        rw [hvalues] at hmem
        exact absurd hmem List.not_mem_nil
    | cons first rest =>
        have hfirst : first ∈ facts.filter (StoredMemoryFact.identityAt key) :=
          hvalues ▸ List.mem_cons_self
        have hedited : (first.edited key value now).identityAt key = true :=
          (List.mem_filter.mp hfirst).2
        simp only [hedited, if_true, List.map_cons, List.tail_cons]
        rfl
  · rw [if_neg hkey]
    refine congrArg (List.map _) (Records.filter_modifyFirst_of_disjoint fun fact hfact => ?_)
    have hother := identityAt_of_ne hfact hkey
    exact ⟨hother, hother⟩

omit [Clock] in
/-- A value is put under a key that has none. -/
theorem valuesAt_appended {facts : List StoredMemoryFact} {key : String}
    (h : facts.any (StoredMemoryFact.identityAt key) = false) (id : MemoryFactId)
    (value subject : String) :
    valuesAt (facts ++ [aboutYouFact id key value now]) subject =
      if key = subject then value :: (valuesAt facts subject).tail else valuesAt facts subject := by
  have hnew : ∀ subject, (aboutYouFact id key value now).identityAt subject =
      decide (key = subject) := by
    intro subject
    rw [Bool.eq_iff_iff, identityAt_iff, decide_eq_true_eq]
    exact ⟨fun hnew => hnew.2.1, fun hkey => ⟨rfl, hkey, rfl⟩⟩
  unfold valuesAt identitiesAt
  rw [List.filter_append, List.filter_singleton, hnew]
  by_cases hkey : key = subject
  · subst hkey
    have hnone : facts.filter (StoredMemoryFact.identityAt key) = [] := by
      rw [List.filter_eq_nil_iff]
      intro fact hfact hidentity
      rw [List.any_eq_true.mpr ⟨fact, hfact, hidentity⟩] at h
      exact absurd h (by simp)
    simp [hnone, aboutYouFact]
  · simp [hkey]

omit [Clock] [Unicode] [UnicodeCase] in
/-- The keys that the loop does not skip name their trimmed form. -/
theorem names_of_not_ignored {item : AboutYouItem}
    (h : ¬ (item.key = "identity_summary" ∨ (Text.trim item.key).isEmpty = true))
    (subject : String) : item.names subject = decide (Text.trim item.key = subject) := by
  push Not at h
  by_cases hkey : Text.trim item.key = subject
  · subst hkey
    simp [AboutYouItem.names, h.1, h.2]
  · simp [AboutYouItem.names, hkey]

/-- An item edits the values under its key and leaves the others. -/
theorem valuesAt_updateItem (item : AboutYouItem) (facts : List StoredMemoryFact)
    (ids : IdGenerator) (subject : String) :
    valuesAt (updateItem now item (facts, ids)).1 subject =
      if item.names subject then Edits.apply item.edit (valuesAt facts subject)
      else valuesAt facts subject := by
  unfold updateItem
  dsimp only
  by_cases hignored : item.key = "identity_summary" ∨ (Text.trim item.key).isEmpty = true
  · have hnames : item.names subject = false := by
      rw [Bool.eq_false_iff]
      intro h
      obtain ⟨hkey, hne, hempty⟩ := trim_key_of_names h
      rcases hignored with hsummary | hblank
      · exact hne hsummary
      · rw [hkey, hempty] at hblank
        exact Bool.false_ne_true hblank
    rw [if_pos hignored, hnames, if_neg Bool.false_ne_true]
  · rw [if_neg hignored, names_of_not_ignored hignored]
    by_cases hblank : (Text.trim item.value).isEmpty = true
    · have hedit : item.edit = none := by rw [AboutYouItem.edit, Text.isBlank, if_pos hblank]
      rw [if_pos hblank, valuesAt_takenBack, hedit]
      simp only [decide_eq_true_eq]
      rfl
    · have hedit : item.edit = some (Text.trim item.value) := by
        rw [AboutYouItem.edit, Text.isBlank, if_neg hblank]
      rw [if_neg hblank, hedit]
      simp only [decide_eq_true_eq]
      by_cases hany : facts.any (StoredMemoryFact.identityAt (Text.trim item.key)) = true
      · rw [if_pos hany, valuesAt_edited now hany]
        rfl
      · rw [if_neg hany, valuesAt_appended now (Bool.eq_false_iff.mpr hany)]
        rfl

/-- An update edits the values under a key with the items of the key, one after the other. -/
theorem valuesAt_updateItems (items : List AboutYouItem)
    (state : List StoredMemoryFact × IdGenerator) (subject : String) :
    valuesAt (updateItems now items state).1 subject =
      Edits.applyAll ((items.filter (AboutYouItem.names subject)).map AboutYouItem.edit)
        (valuesAt state.1 subject) := by
  unfold updateItems
  induction items generalizing state with
  | nil => rfl
  | cons item rest ih =>
      rw [List.foldl_cons, ih, List.filter_cons]
      have hitem := valuesAt_updateItem now item state.1 state.2 subject
      rw [hitem]
      split
      · rw [List.map_cons, Edits.applyAll_cons]
      · rfl

end Items

/-! ### Reading back -/

/-- What an update stands for, key by key. -/
theorem lookup_replacement (update : AboutYouUpdate) {key : String}
    (hkey : key ≠ "identity_summary") :
    update.replacement.lookup key =
      ((update.items.filter (AboutYouItem.names key)).map AboutYouItem.edit).getLast?.join := by
  have hsummary : Text.trim "identity_summary" = "identity_summary" := by decide
  have hnamed : ∀ item : AboutYouItem,
      (decide (Text.trim item.key = key) && !Text.isBlank item.key) = item.names key := by
    intro item
    by_cases hsame : Text.trim item.key = key
    · have hne : item.key ≠ "identity_summary" := by
        intro heq
        rw [heq, hsummary] at hsame
        exact hkey hsame.symm
      simp [AboutYouItem.names, Text.isBlank, hsame, hne]
    · simp [AboutYouItem.names, hsame]
  have hunder : ∀ items : List AboutYouItem,
      Edits.under ((items.filter fun item => !Text.isBlank item.key).map fun item =>
        (Text.trim item.key, item.edit)) key =
      (items.filter (AboutYouItem.names key)).map AboutYouItem.edit := by
    intro items
    simp only [Edits.under, List.filter_map, List.map_map, List.filter_filter, Function.comp_def,
      hnamed]
  rw [AboutYouUpdate.replacement, Edits.lookup_table, hunder]

/-- Readers see the live facts about the owner. -/
theorem aboutYouItems_eq {snapshot : GlobalMemorySnapshot}
    (htidy : ∀ fact ∈ snapshot.facts, fact.Tidy) :
    aboutYouItems snapshot = snapshot.identitySummary.toList.map summaryItem ++
      (identityFacts snapshot.facts).map factItem := by
  have hshown : (snapshot.facts.filter fun fact =>
      fact.kind = .identity && fact.live && fact.invalidatedBy.isNone) =
      identityFacts snapshot.facts := by
    apply List.filter_congr
    intro fact hfact
    have hfact := htidy fact hfact
    unfold StoredMemoryFact.Tidy at hfact
    unfold StoredMemoryFact.live
    cases hat : fact.invalidatedAt with
    | some now => simp
    | none =>
        cases hby : fact.invalidatedBy with
        | none => simp
        | some id => simp [hat, hby] at hfact
  rw [aboutYouItems, hshown]
  rfl

theorem map_value_identityFacts (facts : List StoredMemoryFact) (key : String) :
    ((identityFacts facts).filter fun fact => fact.subject = key).map StoredMemoryFact.value =
      valuesAt facts key := by
  rw [identityFacts, List.filter_filter, valuesAt, identitiesAt]
  refine congrArg (List.map _) (List.filter_congr fun fact _ => ?_)
  rw [Bool.eq_iff_iff, identityAt_iff]
  simp only [Bool.and_eq_true, decide_eq_true_eq]
  exact ⟨fun h => ⟨h.2.1, h.1, h.2.2⟩, fun h => ⟨h.2.1, h.1, h.2.2⟩⟩

theorem valuesOf_aboutYouSurface {snapshot : GlobalMemorySnapshot}
    (htidy : ∀ fact ∈ snapshot.facts, fact.Tidy) {key : String} (hkey : key ≠ "identity_summary") :
    (aboutYouSurface snapshot).valuesOf key = valuesAt snapshot.facts key := by
  have hsummary : (snapshot.identitySummary.toList.map summaryItem).filter
      (fun item => item.key = key) = [] := by
    rw [List.filter_eq_nil_iff]
    intro item hitem
    obtain ⟨summary, -, rfl⟩ := List.mem_map.mp hitem
    simp [summaryItem, Ne.symm hkey]
  rw [← map_value_identityFacts, AboutYouSurface.valuesOf, aboutYouSurface, aboutYouItems_eq htidy,
    List.filter_append, hsummary, List.nil_append, List.filter_map, List.map_map]
  rfl

/-! ### The same again -/

/-- How the value of a row reads as an edit. -/
def readValue (value : String) : Option String :=
  if Text.isBlank value then none else some (Text.trim value)

/-- The rows of a surface name the live facts about the owner, the one under the key of the summary
excepted. -/
theorem edits_of_surface {snapshot : GlobalMemorySnapshot}
    (htidy : ∀ fact ∈ snapshot.facts, fact.Tidy) (hnameable : NameableFacts snapshot.facts)
    (key : String) :
    ((aboutYouSurface snapshot).items.filter (AboutYouItem.names key)).map AboutYouItem.edit =
      if key = "identity_summary" then [] else (valuesAt snapshot.facts key).map readValue := by
  have hsummary : (snapshot.identitySummary.toList.map summaryItem).filter
      (AboutYouItem.names key) = [] := by
    rw [List.filter_eq_nil_iff]
    intro item hitem
    obtain ⟨summary, -, rfl⟩ := List.mem_map.mp hitem
    simp [AboutYouItem.names, summaryItem]
  have hnames : ∀ fact ∈ identityFacts snapshot.facts, (factItem fact).names key =
      (decide (fact.subject = key) && decide (key ≠ "identity_summary")) := by
    intro fact hfact
    obtain ⟨hmem, hidentity⟩ := List.mem_filter.mp hfact
    simp only [Bool.and_eq_true, decide_eq_true_eq] at hidentity
    obtain ⟨htrim, hempty⟩ := hnameable fact hmem hidentity.1
    by_cases hkey : fact.subject = key
    · subst hkey
      by_cases hsummary : fact.subject = "identity_summary"
      · simp [AboutYouItem.names, factItem, hsummary]
      · simp [AboutYouItem.names, factItem, htrim, hempty, hsummary]
    · simp [AboutYouItem.names, factItem, htrim, hkey]
  have hrows : ((identityFacts snapshot.facts).map factItem).filter (AboutYouItem.names key) =
      ((identityFacts snapshot.facts).filter fun fact =>
        decide (fact.subject = key) && decide (key ≠ "identity_summary")).map factItem := by
    rw [List.filter_map]
    exact congrArg (List.map factItem) (List.filter_congr hnames)
  rw [aboutYouSurface, aboutYouItems_eq htidy, List.filter_append, hsummary, List.nil_append, hrows,
    List.map_map]
  by_cases hkey : key = "identity_summary"
  · simp [hkey]
  · rw [if_neg hkey, ← map_value_identityFacts, List.map_map]
    simp only [hkey, ne_eq, not_false_eq_true, decide_true, Bool.and_true]
    rfl

/-- Another record of a fact that readers do not tell from it but for the value. -/
structure StoredMemoryFact.SameRow (fact later : StoredMemoryFact) : Prop where
  id : later.id = fact.id
  kind : later.kind = fact.kind
  subject : later.subject = fact.subject
  live : later.live = fact.live

theorem StoredMemoryFact.SameRow.refl (fact : StoredMemoryFact) : fact.SameRow fact :=
  ⟨rfl, rfl, rfl, rfl⟩

theorem StoredMemoryFact.SameRow.trans (fact middle later : StoredMemoryFact)
    (h : fact.SameRow middle) (h' : middle.SameRow later) : fact.SameRow later :=
  ⟨h'.id.trans h.id, h'.kind.trans h.kind, h'.subject.trans h.subject, h'.live.trans h.live⟩

theorem StoredMemoryFact.SameRow.identityAt {fact later : StoredMemoryFact}
    (h : fact.SameRow later) (subject : String) :
    later.identityAt subject = fact.identityAt subject := by
  rw [Bool.eq_iff_iff, identityAt_iff, identityAt_iff, h.kind, h.subject, h.live]

/-- Values that are settled are put back as they are. -/
theorem settledValues_iff {facts : List StoredMemoryFact} :
    SettledValues facts ↔ ∀ key, key ≠ "identity_summary" →
      Edits.applyAll ((valuesAt facts key).map readValue) (valuesAt facts key) =
        valuesAt facts key := by
  refine forall_congr' fun key => imp_congr_right fun _ => ?_
  generalize valuesAt facts key = values
  have hread : ∀ value, Text.isBlank value = false ↔ (readValue value).isSome = true := by
    intro value
    unfold readValue
    cases Text.isBlank value <;> simp
  rw [Edits.applyAll_map_eq_self_iff]
  simp only [hread]
  refine and_congr_right fun hall => ?_
  have hlast : values.getLast?.bind readValue = values.getLast?.map Text.trim := by
    cases hvalue : values.getLast? with
    | none => rfl
    | some value =>
        have hsome := (hread value).mpr (hall value (List.mem_of_getLast? hvalue))
        rw [Option.bind_some, Option.map_some, readValue, hsome, if_neg Bool.false_ne_true]
  rw [hlast]

/-! ### Updates -/

section Updates

variable [Clock] [Unicode] [UnicodeCase]

/-- The values that are read back are those of the update exactly when it covers what was stored. -/
theorem values_replaced_iff {update : AboutYouUpdate} {runtime : TurnRuntime}
    {snapshot after : GlobalMemorySnapshot} {ids : IdGenerator}
    (hupdated : UpdatedBy update runtime snapshot after ids)
    (htidy : ∀ fact ∈ after.facts, fact.Tidy) :
    (∀ key, key ≠ "identity_summary" → (aboutYouSurface after).valuesOf key =
      (update.replacement.lookup key).toList) ↔ update.Covers snapshot.facts := by
  have hvalues : ∀ key, valuesAt after.facts key = Edits.applyAll
      ((update.items.filter (AboutYouItem.names key)).map AboutYouItem.edit)
      (valuesAt snapshot.facts key) := by
    intro key
    rw [hupdated.1]
    exact valuesAt_updateItems _ update.items (snapshot.facts, _) key
  have hkeys : ∀ key, key ≠ "identity_summary" →
      ((aboutYouSurface after).valuesOf key = (update.replacement.lookup key).toList ↔
        valuesAt snapshot.facts key = [] ∨
          ((∃ item ∈ update.items, item.names key = true) ∧
            ((identitiesAt snapshot.facts key).length ≤ 1 ∨
              ∃ item ∈ update.items, item.names key = true ∧ Text.isBlank item.value = true))) := by
    intro key hkey
    rw [valuesOf_aboutYouSurface htidy hkey, lookup_replacement update hkey, hvalues,
      Edits.applyAll_eq_last_iff]
    have hnamed : (update.items.filter (AboutYouItem.names key)).map AboutYouItem.edit ≠ [] ↔
        ∃ item ∈ update.items, item.names key = true := by
      simp [List.filter_eq_nil_iff]
    have hblank : ((update.items.filter (AboutYouItem.names key)).map AboutYouItem.edit).any
        Option.isNone = true ↔
        ∃ item ∈ update.items, item.names key = true ∧ Text.isBlank item.value = true := by
      simp [AboutYouItem.edit]
    rw [hnamed, hblank, valuesAt, List.length_map]
  rw [AboutYouUpdate.Covers, forall_identity_iff (P := fun key =>
    (∃ item ∈ update.items, item.names key = true) ∧
      ((identitiesAt snapshot.facts key).length ≤ 1 ∨
        ∃ item ∈ update.items, item.names key = true ∧ Text.isBlank item.value = true))]
  exact forall_congr' fun key => imp_congr_right fun hkey => hkeys key hkey

omit [Clock] in
theorem StoredMemoryFact.SameRow.edited (subject value : String) (now : Timestamp)
    (fact : StoredMemoryFact) : fact.SameRow (fact.edited subject value now) :=
  ⟨rfl, rfl, rfl, rfl⟩

/-- Items with values for facts that are there change no row but for its value. -/
theorem sameRow_updateItems (now : Timestamp) {items : List AboutYouItem}
    {facts : List StoredMemoryFact} (ids : IdGenerator)
    (h : ∀ item ∈ items, item.key = "identity_summary" ∨
      (Text.isBlank item.value = false ∧ facts.any (StoredMemoryFact.identityAt (Text.trim item.key)))) :
    List.Forall₂ StoredMemoryFact.SameRow facts (updateItems now items (facts, ids)).1 := by
  unfold updateItems
  induction items generalizing facts with
  | nil => exact List.forall₂_same.mpr fun fact _ => .refl fact
  | cons item rest ih =>
      rw [List.forall_mem_cons] at h
      rw [List.foldl_cons]
      have hitem : ∃ changed, updateItem now item (facts, ids) = (changed, ids) ∧
          List.Forall₂ StoredMemoryFact.SameRow facts changed := by
        have hsame : List.Forall₂ StoredMemoryFact.SameRow facts facts :=
          List.forall₂_same.mpr fun fact _ => .refl fact
        unfold updateItem
        dsimp only
        split
        · exact ⟨facts, rfl, hsame⟩
        next hnamed =>
          obtain ⟨hvalue, hany⟩ := h.1.resolve_left fun hkey => hnamed (Or.inl hkey)
          rw [Text.isBlank] at hvalue
          rw [if_neg (by rw [hvalue]; exact Bool.false_ne_true), if_pos hany]
          exact ⟨_, rfl, Records.forall₂_modifyFirst .refl fun fact _ => .edited _ _ _ fact⟩
      obtain ⟨changed, hchanged, hrows⟩ := hitem
      rw [hchanged]
      refine Records.forall₂_comp StoredMemoryFact.SameRow.trans hrows (ih fun other hother => ?_)
      refine (h.2 other hother).imp_right fun hvalue => ⟨hvalue.1, ?_⟩
      obtain ⟨fact, hfact, hidentity⟩ := List.any_eq_true.mp hvalue.2
      obtain ⟨later, hlater, hrow⟩ := Records.exists_after hrows hfact
      exact List.any_eq_true.mpr ⟨later, hlater, (hrow.identityAt _).trans hidentity⟩

/-- An update with what was read changes nothing in what is read exactly when the values are
settled. -/
theorem surface_unchanged_iff {runtime : TurnRuntime} {snapshot after : GlobalMemorySnapshot}
    {ids : IdGenerator} (hupdated : UpdatedBy (aboutYouSurface snapshot).update runtime snapshot
      after ids) (htidy : ∀ fact ∈ snapshot.facts, fact.Tidy)
    (hlater : ∀ fact ∈ after.facts, fact.Tidy) (hnameable : NameableFacts snapshot.facts) :
    aboutYouSurface after = aboutYouSurface snapshot ↔ SettledValues snapshot.facts := by
  have hvalues : ∀ key, valuesAt after.facts key = Edits.applyAll
      (if key = "identity_summary" then [] else (valuesAt snapshot.facts key).map readValue)
      (valuesAt snapshot.facts key) := by
    intro key
    rw [← edits_of_surface htidy hnameable key, hupdated.1]
    exact valuesAt_updateItems _ (aboutYouSurface snapshot).items (snapshot.facts, _) key
  rw [settledValues_iff]
  constructor
  · intro hsame key hkey
    have hshown := congrArg (fun surface => surface.valuesOf key) hsame
    rw [valuesOf_aboutYouSurface hlater hkey, valuesOf_aboutYouSurface htidy hkey, hvalues,
      if_neg hkey] at hshown
    exact hshown
  · intro hsettled
    have hstay : ∀ key, valuesAt after.facts key = valuesAt snapshot.facts key := by
      intro key
      rw [hvalues]
      by_cases hkey : key = "identity_summary"
      · rw [if_pos hkey]
        rfl
      · rw [if_neg hkey]
        exact hsettled key hkey
    have hitems : ∀ item ∈ (aboutYouSurface snapshot).items, item.key = "identity_summary" ∨
        (Text.isBlank item.value = false ∧
          snapshot.facts.any (StoredMemoryFact.identityAt (Text.trim item.key))) := by
      intro item hitem
      rw [aboutYouSurface, aboutYouItems_eq htidy] at hitem
      rcases List.mem_append.mp hitem with hitem | hitem
      · obtain ⟨summary, -, rfl⟩ := List.mem_map.mp hitem
        exact Or.inl rfl
      · obtain ⟨fact, hfact, rfl⟩ := List.mem_map.mp hitem
        obtain ⟨hmem, hidentity⟩ := List.mem_filter.mp hfact
        simp only [Bool.and_eq_true, decide_eq_true_eq] at hidentity
        by_cases hkey : fact.subject = "identity_summary"
        · exact Or.inl hkey
        · have hat := identityAt_iff.mpr ⟨hidentity.1, rfl, hidentity.2⟩
          have hvalue : fact.value ∈ valuesAt snapshot.facts fact.subject :=
            List.mem_map_of_mem (List.mem_filter.mpr ⟨hmem, hat⟩)
          refine Or.inr ⟨(settledValues_iff.mpr hsettled fact.subject hkey).1 _ hvalue, ?_⟩
          rw [factItem, (hnameable fact hmem hidentity.1).1]
          exact List.any_eq_true.mpr ⟨fact, hmem, hat⟩
    have hrows : List.Forall₂ StoredMemoryFact.SameRow snapshot.facts after.facts := by
      rw [hupdated.1]
      exact sameRow_updateItems _ _ hitems
    -- the rows are the live facts about the owner, and under every subject their values are the same
    have hidentity : List.Forall₂ StoredMemoryFact.SameRow (identityFacts snapshot.facts)
        (identityFacts after.facts) := by
      refine Records.forall₂_filter hrows fun fact later hrow => ?_
      rw [hrow.kind, hrow.live]
    have hgroups := Records.forall₂_value_of_groups hidentity
      (fun fact later hrow => hrow.subject) fun key => by
        rw [map_value_identityFacts, map_value_identityFacts]
        exact hstay key
    have hmap : (identityFacts after.facts).map factItem =
        (identityFacts snapshot.facts).map factItem := by
      refine Records.map_eq_of_forall₂ hgroups fun fact later hrow => ?_
      rw [factItem, factItem, hrow.1.subject, hrow.2, hrow.1.id]
    have hsummary : after.identitySummary = snapshot.identitySummary := by
      rw [hupdated.1]
      rfl
    rw [aboutYouSurface, aboutYouSurface, aboutYouItems_eq hlater, aboutYouItems_eq htidy, hmap,
      hsummary]

end Updates

/-! ### Requests -/

section Requests

variable [Disk]

theorem buildAboutYouSurface_reads (s : TurnRuntime) :
    wp buildAboutYouSurface
      (fun read t => (∃ snapshot, storedMemory s.stores = some snapshot ∧
        read = aboutYouSurface snapshot) ∧ storedMemory t.stores = storedMemory s.stores)
      (fun _ _ => True) s := by
  unfold buildAboutYouSurface
  rw [wp_bind, wp_stored]
  apply wp_readGlobalMemory
  · intro snapshot hsnapshot
    exact ⟨⟨snapshot, hsnapshot, rfl⟩, rfl⟩
  · exact fun _ => trivial

variable [Clock] [Unicode] [UnicodeCase] [JsonText]

/-- After an update that succeeds the summary that is read is the one of the update, and the values
under every other key are those of the update exactly when the update covers what was stored. An
update with what was read changes nothing exactly when the stored values are settled. -/
theorem about_you_replaced_iff (inputs : List MemoryInput) (input : MemoryInput) :
    ∀ runtime ∈ Runs.states memoryStep .fresh inputs, ∀ snapshot,
      storedMemory runtime.stores = some snapshot →
      (∀ update, (result (updateAboutYouSurface update) (input.arrival runtime)).isSome →
        ∀ read, result buildAboutYouSurface
          (after (updateAboutYouSurface update) (input.arrival runtime)) = some read →
        read.identitySummary = update.identitySummary ∧
          ((∀ key, key ≠ "identity_summary" →
            read.valuesOf key = (update.replacement.lookup key).toList) ↔
            update.Covers snapshot.facts)) ∧
      ∀ before, result buildAboutYouSurface (input.arrival runtime) = some before →
        (result (updateAboutYouSurface before.update)
          (after buildAboutYouSurface (input.arrival runtime))).isSome →
        ∀ read, result buildAboutYouSurface (after (updateAboutYouSurface before.update)
          (after buildAboutYouSurface (input.arrival runtime))) = some read →
        (read = before ↔ SettledValues snapshot.facts) := by
  intro runtime hruntime snapshot hsnapshot
  obtain ⟨-, htidy⟩ := grown_from_nothing inputs runtime hruntime snapshot hsnapshot
  have hnameable := nameable_along_runs inputs runtime hruntime snapshot hsnapshot
  -- what an update leaves, wherever the snapshot is stored
  have hupdate : ∀ (s : TurnRuntime) update, storedMemory s.stores = some snapshot →
      (result (updateAboutYouSurface update) s).isSome → ∀ read, result buildAboutYouSurface
        (after (updateAboutYouSurface update) s) = some read →
      ∃ later, read = aboutYouSurface later ∧ (∀ fact ∈ later.facts, fact.Tidy) ∧
        ∃ ids, UpdatedBy update s snapshot later ids := by
    intro s update hs hsome read hread
    obtain ⟨written, hwritten⟩ := Option.isSome_iff_exists.mp hsome
    have hchanged := wp_of_result (updateAboutYouSurface_changes update s) hwritten
    obtain ⟨before, later, hbefore, hlater, hupdated⟩ := hchanged.applied
    obtain rfl : snapshot = before := Option.some.inj (hs.symm.trans hbefore)
    obtain ⟨⟨shown, hshown, hreadback⟩, -⟩ := wp_of_result (buildAboutYouSurface_reads _) hread
    obtain rfl : later = shown := Option.some.inj (hlater.symm.trans hshown)
    have hchanges : (MemoryRequest.updateAboutYou update).Changes s snapshot later _ := hupdated
    have hgrows := MemoryRequest.changes_grows hchanges
    exact ⟨later, hreadback, hgrows.tidy htidy, _, hupdated⟩
  constructor
  · intro update hsome read hread
    obtain ⟨later, rfl, hlater, ids, hupdated⟩ := hupdate (input.arrival runtime) update hsnapshot hsome read hread
    refine ⟨?_, values_replaced_iff hupdated hlater⟩
    rw [hupdated.1]
    rfl
  · intro before hbefore hsome read hread
    obtain ⟨⟨shown, hshown, rfl⟩, hkept⟩ := wp_of_result (buildAboutYouSurface_reads _) hbefore
    obtain rfl : snapshot = shown := Option.some.inj (hsnapshot.symm.trans hshown)
    obtain ⟨later, rfl, hlater, ids, hupdated⟩ :=
      hupdate _ _ (hkept.trans hsnapshot) hsome read hread
    exact surface_unchanged_iff hupdated htidy hlater hnameable

end Requests

/-- The owner's name has been stored. -/
def nameStored : List MemoryInput :=
  [MemoryRequest.over (.updateAboutYou (updateOf "owner:name" "Ada")) (Thread.blank "t")]

/-- The owner gives another name and a summary. -/
def newName : AboutYouUpdate :=
  { updateOf " owner:name" "Grace " with identitySummary := some "Grace is the owner" }

/-- An update without items. -/
def emptyUpdate : AboutYouUpdate := { identitySummary := none, items := [] }

/-- What is read after an update of the server where the name is stored. -/
def readAfter (update : AboutYouUpdate) : Option AboutYouSurface :=
  result (@buildAboutYouSurface calmDisk) (after (@updateAboutYouSurface calmDisk stoppedClock
    asciiTable asciiCase update) (Runs.final (@memoryStep calmDisk stoppedClock asciiTable asciiCase
      noJson) .fresh nameStored))

theorem new_name_is_read_back :
    ∃ read, readAfter newName = some read ∧ read.identitySummary = some "Grace is the owner" ∧
      ∀ key, key ≠ "identity_summary" →
        read.valuesOf key = (newName.replacement.lookup key).toList := by
  obtain ⟨snapshot, hsnapshot⟩ : ∃ snapshot, storedMemory (Runs.final (@memoryStep calmDisk
      stoppedClock asciiTable asciiCase noJson) .fresh nameStored).stores = some snapshot :=
    Option.isSome_iff_exists.mp (by decide +kernel)
  obtain ⟨read, hread⟩ : ∃ read, readAfter newName = some read :=
    Option.isSome_iff_exists.mp (by decide +kernel)
  have hcovers : ((storedMemory (Runs.final (@memoryStep calmDisk stoppedClock asciiTable asciiCase
      noJson) .fresh nameStored).stores).map fun snapshot =>
        decide (newName.Covers snapshot.facts)) = some true := by decide +kernel
  rw [hsnapshot, Option.map_some, Option.some.injEq, decide_eq_true_eq] at hcovers
  have harrival : ∀ s : TurnRuntime,
      ({ threads := s.stores.threads, turnLogs := s.stores.turnLogs, operations := 0,
         identifiers := 0, readings := 0, request := .updateAboutYou newName } :
        MemoryInput).arrival s = s := fun _ => rfl
  obtain ⟨hupdate, -⟩ := @about_you_replaced_iff calmDisk stoppedClock asciiTable asciiCase noJson
    nameStored _ _ (Runs.final_mem_states _ _) snapshot hsnapshot
  have hreplaced := hupdate newName (by rw [harrival]; decide +kernel) read
    (by rw [harrival]; exact hread)
  exact ⟨read, hread, hreplaced.1, hreplaced.2.mpr hcovers⟩

/-- The item that the update leaves out is still there. -/
theorem omitted_item_stays :
    ¬ ∀ (disk : Disk) (clock : Clock) (unicode : Unicode) (letters : UnicodeCase) (json : JsonText)
      (inputs : List MemoryInput) (update : AboutYouUpdate),
      ∀ runtime ∈ @Runs.states _ _ (@memoryStep disk clock unicode letters json) .fresh inputs,
      (result (@updateAboutYouSurface disk clock unicode letters update) runtime).isSome →
      ∀ read, result (@buildAboutYouSurface disk) (after (@updateAboutYouSurface disk clock unicode
        letters update) runtime) = some read →
      ∀ key, key ≠ "identity_summary" →
        read.valuesOf key = (update.replacement.lookup key).toList := by
  intro h
  have hvalues : (readAfter emptyUpdate).map (fun read => read.valuesOf "owner:name") =
      some ["Ada"] := by decide +kernel
  obtain ⟨read, hread, hname⟩ := Option.map_eq_some_iff.mp hvalues
  have hreplaced := h calmDisk stoppedClock asciiTable asciiCase noJson nameStored emptyUpdate _
    (Runs.final_mem_states _ _) (by decide +kernel) read hread "owner:name" (by decide)
  rw [hname] at hreplaced
  exact absurd hreplaced (by decide)

end Liz
