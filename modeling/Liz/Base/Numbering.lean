import Liz.Base.Tables
import Mathlib.Data.List.Nodup
import Mathlib.Data.List.Perm.Subperm

/-!
# Numbers drawn from the size of a table

A new entry of a table is named by a number: the first free one behind the number of entries the
table has. While entries only come, the numbers go up one by one. An entry that goes leaves the next
number alone as long as its own number is small; otherwise the next number falls back to one that
has been used before.
-/

namespace Numbering

open Tables

variable {κ ν : Type} [DecidableEq κ] {name : Nat → κ} {table later : AList fun _ : κ => ν}
  {n k : Nat}

/-- The first free number behind the number of entries. -/
structure Next (name : Nat → κ) (table : AList fun _ : κ => ν) (n : Nat) : Prop where
  behind : table.entries.length < n
  free : name n ∉ table
  taken : ∀ k, table.entries.length < k → k < n → name k ∈ table

/-- Every key is the name of a number below `n`. -/
def Below (name : Nat → κ) (table : AList fun _ : κ => ν) (n : Nat) : Prop :=
  ∀ key ∈ table, ∃ k, 0 < k ∧ k < n ∧ key = name k

/-- Among one more number than there are entries one is free. -/
theorem exists_free (hname : Function.Injective name) (table : AList fun _ : κ => ν) :
    ∃ k, table.entries.length < k ∧ k ≤ 2 * table.entries.length + 1 ∧ name k ∉ table := by
  by_contra hnone
  let numbers := List.range' (table.entries.length + 1) (table.entries.length + 1)
  have hall : ∀ key ∈ numbers.map name, key ∈ table.keys := by
    intro key hkey
    obtain ⟨k, hk, rfl⟩ := List.mem_map.mp hkey
    rw [List.mem_range'_1] at hk
    by_contra hfree
    exact hnone ⟨k, by omega, by omega, fun hmem => hfree (AList.mem_keys.mp hmem)⟩
  have hnodup : (numbers.map name).Nodup := List.Nodup.map hname List.nodup_range'
  have hlength := (List.subperm_of_subset hnodup hall).length_le
  simp only [numbers, List.length_map, List.length_range', AList.keys, List.keys] at hlength
  omega

omit [DecidableEq κ] in
theorem Next.unique (h : Next name table n) {m : Nat} (h' : Next name table m) : n = m := by
  by_contra hne
  rcases Nat.lt_or_gt_of_ne hne with hlt | hgt
  · exact h.free (h'.taken n h.behind hlt)
  · exact h'.free (h.taken m h'.behind hgt)

theorem Next.same (h : Next name table n) (hsame : Same table later) : Next name later n where
  behind := hsame.length_eq ▸ h.behind
  free := by
    rw [hsame.mem_iff]
    exact h.free
  taken k hk hkn := by
    rw [hsame.length_eq] at hk
    exact (hsame.mem_iff _).mpr (h.taken k hk hkn)

theorem Below.same (h : Below name table n) (hsame : Same table later) : Below name later n :=
  fun key hkey => h key ((hsame.mem_iff key).mp hkey)

omit [DecidableEq κ] in
theorem Below.mono (h : Below name table n) {m : Nat} (hnm : n ≤ m) : Below name table m := by
  intro key hkey
  obtain ⟨k, hpos, hk, rfl⟩ := h key hkey
  exact ⟨k, hpos, by omega, rfl⟩

theorem Below.erase (h : Below name table n) (key : κ) : Below name (table.erase key) n :=
  fun _ hmem => h _ (AList.mem_erase.mp hmem).2

/-! ### An entry that comes -/

theorem Below.insert (h : Below name table n) (hpos : 0 < n) (v : ν) :
    Below name (table.insert (name n) v) (n + 1) := by
  intro key hkey
  rcases (AList.mem_insert table).mp hkey with rfl | hkey
  · exact ⟨n, hpos, by omega, rfl⟩
  · exact h.mono (by omega) key hkey

/-- The next number is one more. -/
theorem Next.insert (h : Next name table n) (hname : Function.Injective name)
    (hbelow : Below name table n) (v : ν) : Next name (table.insert (name n) v) (n + 1) where
  behind := by
    rw [length_insert h.free]
    have := h.behind
    omega
  free := by
    intro hmem
    rcases (AList.mem_insert table).mp hmem with heq | hmem
    · have := hname heq
      omega
    · obtain ⟨k, -, hk, heq⟩ := hbelow _ hmem
      have := hname heq
      omega
  taken k hk hkn := by
    rw [length_insert h.free] at hk
    apply (AList.mem_insert table).mpr
    rcases Nat.lt_or_ge k n with hlt | hge
    · exact .inr (h.taken k (by omega) hlt)
    · exact .inl (congrArg name (by omega))

/-! ### An entry that goes -/

/-- A small number may go while the number of entries is itself in use. -/
theorem Next.erase (h : Next name table n) (hname : Function.Injective name)
    (hmem : name k ∈ table) (hlow : k < table.entries.length)
    (hcount : name table.entries.length ∈ table) : Next name (table.erase (name k)) n := by
  have hlength := length_erase hmem
  have hbehind := h.behind
  constructor
  · omega
  · exact fun hn => h.free (AList.mem_erase.mp hn).2
  · intro j hj hjn
    apply AList.mem_erase.mpr
    constructor
    · intro heq
      have := hname heq
      omega
    · rcases Nat.lt_or_ge table.entries.length j with hlt | hge
      · exact h.taken j hlt hjn
      · have hjeq : j = table.entries.length := by omega
        rw [hjeq]
        exact hcount

/-- Otherwise the next number falls back. -/
theorem Next.erase_falls (h : Next name table n) (hname : Function.Injective name)
    (hmem : name k ∈ table) (hkn : k < n)
    (hhigh : ¬ (k < table.entries.length ∧ name table.entries.length ∈ table)) :
    ∃ m, 0 < m ∧ m < n ∧ Next name (table.erase (name k)) m := by
  have hlength := length_erase hmem
  have hbehind := h.behind
  by_cases hcount : name table.entries.length ∈ table
  · have hk : table.entries.length ≤ k := by
      by_contra hlow
      exact hhigh ⟨by omega, hcount⟩
    refine ⟨k, by omega, hkn, by omega, ?_, ?_⟩
    · simp
    · intro j hj hjk
      apply AList.mem_erase.mpr
      constructor
      · intro heq
        have := hname heq
        omega
      · rcases Nat.lt_or_ge table.entries.length j with hlt | hge
        · exact h.taken j hlt (by omega)
        · have hjeq : j = table.entries.length := by omega
          rw [hjeq]
          exact hcount
  · refine ⟨table.entries.length, by omega, by omega, by omega, ?_, ?_⟩
    · exact fun hn => hcount (AList.mem_erase.mp hn).2
    · intro j hj hjn
      omega

end Numbering

/-! ### Items with a name of their own and items without

Some items bring a name along and the others are given one. When no name is brought along twice, the
names differ exactly when the given ones differ, from each other and from those brought along.
-/

namespace Naming

variable {α κ : Type} (own : α → Option κ) (given : α → κ)

/-- The item's own name, or else the one that it is given. -/
def name (item : α) : κ := (own item).getD (given item)

/-- The items without a name of their own. -/
def unnamed (items : List α) : List α := items.filter fun item => (own item).isNone

/-- The names are the own ones and the given ones. -/
theorem names_perm (items : List α) :
    (items.map (name own given)).Perm (items.filterMap own ++ (unnamed own items).map given) := by
  induction items with
  | nil => exact .nil
  | cons item rest ih =>
      cases hown : own item with
      | some key =>
          have hname : name own given item = key := by
            rw [name, hown]
            rfl
          have hunnamed : unnamed own (item :: rest) = unnamed own rest := by
            simp [unnamed, hown]
          rw [List.map_cons, hname, List.filterMap_cons_some hown, hunnamed, List.cons_append]
          exact ih.cons key
      | none =>
          have hname : name own given item = given item := by
            rw [name, hown]
            rfl
          have hunnamed : unnamed own (item :: rest) = item :: unnamed own rest := by
            simp [unnamed, hown]
          rw [List.map_cons, hname, List.filterMap_cons_none hown, hunnamed, List.map_cons]
          exact (ih.cons (given item)).trans List.perm_middle.symm

theorem names_nodup_iff {items : List α} (hown : (items.filterMap own).Nodup) :
    (items.map (name own given)).Nodup ↔
      ((unnamed own items).map given).Nodup ∧
        ∀ item ∈ unnamed own items, given item ∉ items.filterMap own := by
  rw [(names_perm own given items).nodup_iff, List.nodup_append]
  constructor
  · intro ⟨_, hgiven, hapart⟩
    refine ⟨hgiven, fun item hitem hmem => ?_⟩
    exact hapart _ hmem _ (List.mem_map_of_mem hitem) rfl
  · intro ⟨hgiven, hapart⟩
    refine ⟨hown, hgiven, fun key hkey other hother => ?_⟩
    obtain ⟨item, hitem, rfl⟩ := List.mem_map.mp hother
    rintro rfl
    exact hapart item hitem hkey

end Naming
