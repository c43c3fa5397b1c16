import Mathlib.Data.List.Sort
import Mathlib.Logic.Function.Basic

/-!
# Lists in the order of their keys

A list whose values stand in the strict order of their keys is a finite map written down. Putting a
value in place of the one with its key, or behind the list when there is none, and sorting the list
again is updating the map; leaving out a key is undefining it there.
-/

namespace KeyedLists

variable {κ ν : Type}

/-- The first value with the key gives way to the new one, which goes last if there is none. -/
def put [DecidableEq κ] (key : ν → κ) (v : ν) : List ν → List ν
  | [] => [v]
  | w :: rest => if key w = key v then v :: rest else w :: put key v rest

/-- The list holds the bindings of the map, each once. -/
structure Holds (key : ν → κ) (l : List ν) (m : κ → Option ν) : Prop where
  distinct : (l.map key).Nodup
  bound : ∀ k v, m k = some v ↔ v ∈ l ∧ key v = k

/-- It holds them in increasing order. -/
structure Lists [LT κ] (key : ν → κ) (l : List ν) (m : κ → Option ν) : Prop where
  increasing : l.Pairwise fun v w => key v < key w
  bound : ∀ k v, m k = some v ↔ v ∈ l ∧ key v = k

section Keys

variable {key : ν → κ} {l : List ν} {m : κ → Option ν}

theorem holds_nil : Holds key [] fun _ => none := ⟨List.nodup_nil, fun _ _ => by simp⟩

theorem Holds.mem_iff (h : Holds key l m) {v : ν} : v ∈ l ↔ m (key v) = some v := by
  rw [h.bound]
  exact ⟨fun hv => ⟨hv, rfl⟩, And.left⟩

theorem Holds.key_eq (h : Holds key l m) {k : κ} {v : ν} (hv : m k = some v) : key v = k :=
  ((h.bound k v).mp hv).2

theorem Holds.eq_of_key (h : Holds key l m) {v w : ν} (hv : v ∈ l) (hw : w ∈ l)
    (hkey : key v = key w) : v = w := by
  have hvw := (h.mem_iff.mp hv).symm.trans ((congrArg m hkey).trans (h.mem_iff.mp hw))
  exact Option.some.inj hvw

theorem Holds.perm (h : Holds key l m) {l' : List ν} (hl : l'.Perm l) : Holds key l' m := by
  refine ⟨(hl.map key).nodup_iff.mpr h.distinct, fun k v => ?_⟩
  rw [h.bound, hl.mem_iff]

theorem Holds.filter (h : Holds key l m) (p : ν → Bool) :
    Holds key (l.filter p) fun k => (m k).filter p := by
  refine ⟨h.distinct.sublist (List.filter_sublist.map key), fun k v => ?_⟩
  rw [Option.filter_eq_some_iff, h.bound, List.mem_filter]
  exact ⟨fun hv => ⟨⟨hv.1.1, hv.2⟩, hv.1.2⟩, fun hv => ⟨⟨hv.1.1, hv.2⟩, hv.1.2⟩⟩

theorem Holds.map {ω : Type} {f : ν → ω} {key' : ω → κ} (hf : ∀ v, key' (f v) = key v)
    (h : Holds key l m) : Holds key' (l.map f) fun k => (m k).map f := by
  refine ⟨?_, fun k w => ?_⟩
  · have hkeys : key' ∘ f = key := funext hf
    rw [List.map_map, hkeys]
    exact h.distinct
  · rw [Option.map_eq_some_iff, List.mem_map]
    constructor
    · rintro ⟨v, hv, rfl⟩
      obtain ⟨hmem, hkey⟩ := (h.bound k v).mp hv
      exact ⟨⟨v, hmem, rfl⟩, (hf v).trans hkey⟩
    · rintro ⟨⟨v, hmem, rfl⟩, hkey⟩
      exact ⟨v, (h.bound k v).mpr ⟨hmem, (hf v).symm.trans hkey⟩, rfl⟩

variable [DecidableEq κ]

/-- The values with a key are the one that is bound to it. -/
theorem Holds.filter_key (h : Holds key l m) (k : κ) :
    (l.filter fun v => key v = k) = (m k).toList := by
  have hmem : ∀ v, v ∈ l.filter (fun v => key v = k) ↔ m k = some v := by
    intro v
    rw [h.bound, List.mem_filter, decide_eq_true_iff]
  have hnodup : (l.filter fun v => key v = k).Nodup := (List.Nodup.of_map key h.distinct).filter _
  cases hk : m k with
  | none =>
      rw [Option.toList_none, List.eq_nil_iff_forall_not_mem]
      intro v hv
      exact absurd ((hmem v).mp hv) (by simp [hk])
  | some v =>
      refine List.perm_singleton.mp ((List.perm_ext_iff_of_nodup hnodup
        (List.nodup_singleton v)).mpr fun w => ?_)
      rw [hmem, hk, Option.some.injEq, List.mem_singleton, eq_comm]

theorem mem_put {v w : ν} (h : (l.map key).Nodup) :
    w ∈ put key v l ↔ w = v ∨ (w ∈ l ∧ key w ≠ key v) := by
  induction l with
  | nil => simp [put]
  | cons u rest ih =>
      rw [List.map_cons, List.nodup_cons] at h
      rw [put]
      split
      next hu =>
        rw [List.mem_cons, List.mem_cons]
        constructor
        · intro hw
          refine hw.imp_right fun hw => ⟨.inr hw, fun heq => ?_⟩
          exact h.1 (List.mem_map.mpr ⟨w, hw, heq.trans hu.symm⟩)
        · intro hw
          refine hw.imp_right fun hw => hw.1.resolve_left fun heq => ?_
          exact hw.2 (heq ▸ hu)
      next hu =>
        rw [List.mem_cons, List.mem_cons, ih h.2]
        constructor
        · intro hw
          rcases hw with rfl | rfl | hw
          · exact .inr ⟨.inl rfl, hu⟩
          · exact .inl rfl
          · exact .inr ⟨.inr hw.1, hw.2⟩
        · intro hw
          rcases hw with rfl | ⟨rfl | hw, hne⟩
          · exact .inr (.inl rfl)
          · exact .inl rfl
          · exact .inr (.inr ⟨hw, hne⟩)

theorem nodup_put (v : ν) (h : (l.map key).Nodup) : ((put key v l).map key).Nodup := by
  induction l with
  | nil => simp [put]
  | cons u rest ih =>
      have hcons := h
      rw [List.map_cons, List.nodup_cons] at hcons
      rw [put]
      split
      next hu =>
        rw [List.map_cons, ← hu]
        exact h
      next hu =>
        rw [List.map_cons, List.nodup_cons]
        refine ⟨fun hin => ?_, ih hcons.2⟩
        obtain ⟨w, hw, heq⟩ := List.mem_map.mp hin
        rcases (mem_put hcons.2).mp hw with rfl | hw
        · exact hu heq.symm
        · exact hcons.1 (List.mem_map.mpr ⟨w, hw.1, heq⟩)

theorem Holds.put (h : Holds key l m) (v : ν) :
    Holds key (put key v l) (Function.update m (key v) (some v)) := by
  refine ⟨nodup_put v h.distinct, fun k w => ?_⟩
  rw [mem_put h.distinct]
  by_cases hk : k = key v
  · subst hk
    rw [Function.update_self, Option.some.injEq]
    constructor
    · intro heq
      exact ⟨.inl heq.symm, by rw [heq]⟩
    · intro hw
      exact (hw.1.resolve_right fun hother => hother.2 hw.2).symm
  · rw [Function.update_of_ne hk, h.bound]
    constructor
    · intro hw
      exact ⟨.inr ⟨hw.1, fun heq => hk (hw.2.symm.trans heq)⟩, hw.2⟩
    · intro hw
      rcases hw.1 with rfl | hold
      · exact absurd hw.2.symm hk
      · exact ⟨hold.1, hw.2⟩

theorem Holds.erase (h : Holds key l m) (k : κ) :
    Holds key (l.filter fun v => key v ≠ k) (Function.update m k none) := by
  have hfiltered := h.filter fun v => decide (key v ≠ k)
  refine ⟨hfiltered.distinct, fun j v => ?_⟩
  rw [← hfiltered.bound, Option.filter_eq_some_iff]
  by_cases hj : j = k
  · subst hj
    rw [Function.update_self]
    refine iff_of_false (by simp) fun hv => ?_
    exact absurd (h.key_eq hv.1) (by simpa using hv.2)
  · rw [Function.update_of_ne hj]
    exact ⟨fun hv => ⟨hv, by simpa [h.key_eq hv] using hj⟩, And.left⟩

/-- Something is left out if and only if the key is bound. -/
theorem Holds.length_erase_iff (h : Holds key l m) (k : κ) :
    (l.filter fun v => key v ≠ k).length = l.length ↔ m k = none := by
  rw [List.length_filter_eq_length_iff]
  constructor
  · intro hall
    by_contra hbound
    obtain ⟨v, hv⟩ := Option.ne_none_iff_exists'.mp hbound
    obtain ⟨hmem, hkey⟩ := (h.bound k v).mp hv
    exact absurd hkey (by simpa using hall v hmem)
  · intro hnone v hv
    have hne : key v ≠ k := by
      rintro rfl
      rw [h.mem_iff.mp hv] at hnone
      cases hnone
    simpa using hne

end Keys

/-! ### Sorting -/

section Sorted

variable [LinearOrder κ] {key : ν → κ} {l : List ν} {m : κ → Option ν}

theorem Lists.holds (h : Lists key l m) : Holds key l m := by
  refine ⟨?_, h.bound⟩
  rw [List.Nodup, List.pairwise_map]
  exact h.increasing.imp fun hlt => ne_of_lt hlt

theorem lists_nil : Lists key [] fun _ => none := ⟨List.Pairwise.nil, fun _ _ => by simp⟩

theorem Lists.filter (h : Lists key l m) (p : ν → Bool) :
    Lists key (l.filter p) fun k => (m k).filter p :=
  ⟨h.increasing.filter p, (h.holds.filter p).bound⟩

theorem Lists.erase (h : Lists key l m) (k : κ) :
    Lists key (l.filter fun v => key v ≠ k) (Function.update m k none) :=
  ⟨h.increasing.filter _, (h.holds.erase k).bound⟩

theorem Holds.lists_sorted (h : Holds key l m) :
    Lists key (l.insertionSort fun v w => key v ≤ key w) m := by
  have hperm := List.perm_insertionSort (fun v w => key v ≤ key w) l
  have hsorted := h.perm hperm
  refine ⟨?_, hsorted.bound⟩
  have : Std.Total fun v w : ν => key v ≤ key w := ⟨fun v w => le_total (key v) (key w)⟩
  have : IsTrans ν fun v w => key v ≤ key w := ⟨fun _ _ _ => le_trans⟩
  have hdistinct := hsorted.distinct
  rw [List.Nodup, List.pairwise_map] at hdistinct
  exact (List.pairwise_insertionSort _ l).imp₂ (fun _ _ => lt_of_le_of_ne) hdistinct

/-- What stands first has the smallest key. -/
theorem Lists.head_le (h : Lists key l m) {first v : ν} (hfirst : l.head? = some first)
    (hv : v ∈ l) : key first ≤ key v := by
  obtain ⟨rest, rfl⟩ := List.head?_eq_some_iff.mp hfirst
  rcases List.mem_cons.mp hv with rfl | hv
  · exact le_rfl
  · exact le_of_lt (List.rel_of_pairwise_cons h.increasing hv)

end Sorted

end KeyedLists
