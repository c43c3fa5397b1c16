import Mathlib.Data.List.AList

/-!
# Tables read as finite maps

What a table holds is what it answers to each key; the order of its entries means nothing. A table
whose values carry their own key can be written out as a list of values in any order and filled
again from that list.
-/

namespace Tables

variable {κ ν : Type} [DecidableEq κ] {key : ν → κ} {table later : AList fun _ : κ => ν}

/-- Every value stands under its own key. -/
def WellKeyed (key : ν → κ) (table : AList fun _ : κ => ν) : Prop :=
  ∀ k v, table.lookup k = some v → key v = k

/-- The two tables answer alike. -/
def Same (table later : AList fun _ : κ => ν) : Prop := ∀ k, later.lookup k = table.lookup k

theorem Same.refl (table : AList fun _ : κ => ν) : Same table table := fun _ => rfl

theorem Same.symm (h : Same table later) : Same later table := fun k => (h k).symm

theorem Same.trans {last : AList fun _ : κ => ν} (h : Same table later) (h' : Same later last) :
    Same table last :=
  fun k => (h' k).trans (h k)

theorem Same.mem_iff (h : Same table later) (k : κ) : k ∈ later ↔ k ∈ table := by
  rw [← AList.lookup_isSome, h k, AList.lookup_isSome]

theorem Same.perm (h : Same table later) : later.entries.Perm table.entries := by
  apply List.lookup_ext later.nodupKeys table.nodupKeys
  intro k v
  show v ∈ later.lookup k ↔ v ∈ table.lookup k
  rw [h k]

theorem Same.length_eq (h : Same table later) : later.entries.length = table.entries.length :=
  h.perm.length_eq

/-! ### The values of a table -/

theorem mem_values_iff {v : ν} :
    v ∈ table.entries.map Sigma.snd ↔ ∃ k, table.lookup k = some v := by
  constructor
  · intro hv
    obtain ⟨⟨k, w⟩, hw, rfl⟩ := List.mem_map.mp hv
    exact ⟨k, AList.mem_lookup_iff.mpr hw⟩
  · intro ⟨k, hv⟩
    exact List.mem_map.mpr ⟨⟨k, v⟩, AList.mem_lookup_iff.mp hv, rfl⟩

/-- What is left once a key is gone was there before. -/
theorem mem_values_of_erase {k : κ} {v : ν} (h : v ∈ (table.erase k).entries.map Sigma.snd) :
    v ∈ table.entries.map Sigma.snd := by
  obtain ⟨j, hj⟩ := mem_values_iff.mp h
  by_cases hjk : j = k
  · rw [hjk, AList.lookup_erase] at hj
    cases hj
  · rw [AList.lookup_erase_ne hjk] at hj
    exact mem_values_iff.mpr ⟨j, hj⟩

theorem wellKeyed_empty : WellKeyed key (∅ : AList fun _ : κ => ν) := by
  intro k v hv
  simp at hv

theorem WellKeyed.insert (h : WellKeyed key table) {v : ν} :
    WellKeyed key (table.insert (key v) v) := by
  intro k w hw
  by_cases hk : k = key v
  · subst hk
    rw [AList.lookup_insert] at hw
    rw [Option.some.inj hw]
  · rw [AList.lookup_insert_ne hk] at hw
    exact h k w hw

theorem WellKeyed.erase (h : WellKeyed key table) (k : κ) : WellKeyed key (table.erase k) := by
  intro j v hv
  by_cases hj : j = k
  · subst hj
    simp at hv
  · rw [AList.lookup_erase_ne hj] at hv
    exact h j v hv

/-- A table has one entry fewer once a key of it is gone. -/
theorem length_erase {k : κ} (h : k ∈ table) :
    (table.erase k).entries.length + 1 = table.entries.length := by
  have hkeys := congrArg List.length (AList.keys_erase k table)
  rw [List.length_erase_of_mem (AList.mem_keys.mp h)] at hkeys
  have hpos := List.length_pos_of_mem (AList.mem_keys.mp h)
  simp only [AList.keys, List.keys, List.length_map] at hkeys hpos
  omega

theorem length_insert {k : κ} {v : ν} (h : k ∉ table) :
    (table.insert k v).entries.length = table.entries.length + 1 := by
  rw [AList.entries_insert_of_notMem h, List.length_cons]

/-! ### Filling a table from a list -/

/-- The last value under a key is the one that stays. -/
theorem lookup_foldl_insert (values : List ν) (table : AList fun _ : κ => ν) (k : κ) :
    (values.foldl (fun table v => table.insert (key v) v) table).lookup k =
      (values.reverse.find? fun v => decide (key v = k)).or (table.lookup k) := by
  induction values generalizing table with
  | nil => rfl
  | cons v rest ih =>
      rw [List.foldl_cons, ih, List.reverse_cons, List.find?_append]
      by_cases hk : key v = k
      · subst hk
        simp
      · rw [AList.lookup_insert_ne (Ne.symm hk)]
        simp [hk]

theorem wellKeyed_foldl_insert (values : List ν) {table : AList fun _ : κ => ν}
    (h : WellKeyed key table) :
    WellKeyed key (values.foldl (fun table v => table.insert (key v) v) table) := by
  induction values generalizing table with
  | nil => exact h
  | cons v rest ih => exact ih h.insert

/-- A table is filled again from its values in any order. -/
theorem same_refilled (h : WellKeyed key table) {values : List ν}
    (hvalues : values.Perm (table.entries.map Sigma.snd)) :
    Same table (values.foldl (fun table v => table.insert (key v) v) ∅) := by
  intro k
  rw [lookup_foldl_insert, AList.lookup_empty, Option.or_none]
  cases hfound : values.reverse.find? fun v => decide (key v = k) with
  | some v =>
      have hv : v ∈ values := List.mem_reverse.mp (List.mem_of_find?_eq_some hfound)
      obtain ⟨j, hj⟩ := mem_values_iff.mp (hvalues.mem_iff.mp hv)
      have hk : key v = k := by simpa using List.find?_some hfound
      rw [← hk, h j v hj, hj]
  | none =>
      cases hlookup : table.lookup k with
      | none => rfl
      | some v =>
          have hv : v ∈ values := hvalues.mem_iff.mpr (mem_values_iff.mpr ⟨k, hlookup⟩)
          have hno := List.find?_eq_none.mp hfound v (List.mem_reverse.mpr hv)
          rw [h k v hlookup] at hno
          simp at hno

/-! ### Entries as pairs -/

/-- The last entry under a key is the one that stays. -/
theorem lookup_foldl_entries (entries : List (κ × ν)) (table : AList fun _ : κ => ν) (k : κ) :
    (entries.foldl (fun table entry => table.insert entry.1 entry.2) table).lookup k =
      (entries.reverse.lookup k).or (table.lookup k) := by
  induction entries generalizing table with
  | nil => rfl
  | cons entry rest ih =>
      rw [List.foldl_cons, ih, List.reverse_cons, List.lookup_append]
      by_cases hk : entry.1 = k
      · subst hk
        have hsame : [entry].lookup entry.1 = some entry.2 := List.lookup_cons_self
        rw [hsame, AList.lookup_insert, Option.or_assoc]
        rfl
      · have hne : (k == entry.1) = false := by simpa using Ne.symm hk
        rw [AList.lookup_insert_ne (Ne.symm hk), List.lookup_cons, hne]
        simp

theorem lookup_eq_some_iff_mem {entries : List (κ × ν)} (h : (entries.map Prod.fst).Nodup) {k : κ}
    {v : ν} : entries.lookup k = some v ↔ (k, v) ∈ entries := by
  induction entries with
  | nil => simp
  | cons entry rest ih =>
      rw [List.map_cons, List.nodup_cons] at h
      rw [List.lookup_cons]
      by_cases hk : k = entry.1
      · subst hk
        have hrest : (entry.1, v) ∉ rest := fun hmem => h.1 (List.mem_map.mpr ⟨_, hmem, rfl⟩)
        simp only [beq_self_eq_true, Option.some.injEq, List.mem_cons, hrest, or_false]
        exact ⟨fun hv => by rw [← hv], fun hv => by rw [← hv]⟩
      · have hne : (k == entry.1) = false := by simpa using hk
        rw [hne]
        show rest.lookup k = some v ↔ _
        rw [ih h.2, List.mem_cons]
        exact ⟨.inr, fun hmem => hmem.resolve_left fun heq => hk (congrArg Prod.fst heq)⟩

/-- Each key stands once: the order of the entries means nothing. -/
theorem lookup_perm {entries others : List (κ × ν)} (h : entries.Perm others)
    (hnodup : (others.map Prod.fst).Nodup) (k : κ) : entries.lookup k = others.lookup k := by
  apply Option.ext
  intro v
  have hsame : (entries.map Prod.fst).Nodup := (h.map Prod.fst).nodup_iff.mpr hnodup
  rw [lookup_eq_some_iff_mem hsame, lookup_eq_some_iff_mem hnodup, h.mem_iff]

omit [DecidableEq κ] in
theorem keys_nodup (table : AList fun _ : κ => ν) : (table.entries.map Sigma.fst).Nodup :=
  table.nodupKeys

/-- The entries of a table as pairs, each value put in another form. -/
theorem lookup_pairs {μ : Type} (f : ν → μ) (table : AList fun _ : κ => ν) (k : κ) :
    (table.entries.map fun entry => (entry.1, f entry.2)).lookup k = (table.lookup k).map f := by
  have hnodup : ((table.entries.map fun entry => (entry.1, f entry.2)).map Prod.fst).Nodup := by
    rw [List.map_map]
    exact keys_nodup table
  apply Option.ext
  intro w
  rw [lookup_eq_some_iff_mem hnodup, Option.map_eq_some_iff]
  constructor
  · intro hw
    obtain ⟨entry, hentry, heq⟩ := List.mem_map.mp hw
    obtain ⟨rfl, rfl⟩ := Prod.mk.inj heq
    exact ⟨entry.2, AList.mem_lookup_iff.mpr hentry, rfl⟩
  · intro hw
    obtain ⟨v, hv, heq⟩ := hw
    rw [← heq]
    exact List.mem_map.mpr ⟨⟨k, v⟩, AList.mem_lookup_iff.mp hv, rfl⟩

/-- The table with every value put in another form. -/
def mapValues {μ : Type} (f : ν → μ) (table : AList fun _ : κ => ν) : AList fun _ : κ => μ :=
  (table.entries.map fun entry => (entry.1, f entry.2)).foldl
    (fun table entry => table.insert entry.1 entry.2) ∅

@[simp] theorem lookup_mapValues {μ : Type} (f : ν → μ) (table : AList fun _ : κ => ν) (k : κ) :
    (mapValues f table).lookup k = (table.lookup k).map f := by
  have hnodup : ((table.entries.map fun entry => (entry.1, f entry.2)).map Prod.fst).Nodup := by
    rw [List.map_map]
    exact keys_nodup table
  rw [mapValues, lookup_foldl_entries, AList.lookup_empty, Option.or_none,
    lookup_perm (List.reverse_perm _) hnodup, lookup_pairs]

end Tables
