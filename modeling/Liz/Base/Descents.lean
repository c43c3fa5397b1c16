import Mathlib.Data.Finite.Defs
import Mathlib.Data.Fintype.Card
import Mathlib.Data.List.Nodup
import Mathlib.Data.List.Pairwise
import Mathlib.Data.List.ReduceOption
import Mathlib.Data.Set.Finite.Basic
import Mathlib.Logic.Relation
import Mathlib.Order.WellFounded

/-!
# Descents

Every place has entries, and an entry leads to another place or to none. A descent visits what the
entries lead to in their order, below each place before what comes after it, and remembers nothing. It
has visited every place once when it ends if and only if the places it comes to form a tree: no entry
leads to none, and every place has one entry, the place at the top none. In a finite tree a descent
does end.
-/

namespace Descents

variable {α : Type} (next : α → List (Option α))

/-- An entry of the first place leads to the second. -/
def Child (a b : α) : Prop := some b ∈ next a

/-- Entries lead from the first place to the second. -/
abbrev Reaches : α → α → Prop := Relation.ReflTransGen (Child next)

/-- What the entries of a place lead to. -/
def children (a : α) : List α := (next a).reduceOption

/-- A descent through these entries visits these places. It may stop anywhere if it may be cut off. -/
inductive Walk (cut : Prop) : List (Option α) → List α → Prop
  | done : Walk cut [] []
  | stop (entries : List (Option α)) : cut → Walk cut entries []
  | enter {a : α} {rest : List (Option α)} {below after : List α} :
      Walk cut (next a) below → Walk cut rest after →
        Walk cut (some a :: rest) (a :: (below ++ after))

/-- The places below this one form a tree. -/
structure Treelike (a : α) : Prop where
  present : ∀ b, Reaches next a b → none ∉ next b
  distinct : ∀ b, Reaches next a b → (next b).Nodup
  single : ∀ b c d, Reaches next a b → Reaches next a c → Child next b d → Child next c d → b = c
  top : ∀ b, Reaches next a b → ¬ Child next b a

variable {next} {a : α} {cut : Prop}

theorem mem_children {b : α} : b ∈ children next a ↔ Child next a b := List.reduceOption_mem_iff

theorem map_children (h : none ∉ next a) : (children next a).map some = next a := by
  rw [children]
  generalize next a = entries at h
  induction entries with
  | nil => rfl
  | cons entry rest ih =>
      cases entry with
      | none => simp at h
      | some b => simpa using ih (by simpa using h)

/-! ### What a descent visits -/

theorem Walk.reaches {entries : List (Option α)} {visited : List α}
    (h : Walk next cut entries visited) {x : α} (hx : x ∈ visited) :
    ∃ a, some a ∈ entries ∧ Reaches next a x := by
  induction h with
  | done => simp at hx
  | stop entries hcut => simp at hx
  | @enter a rest below after hbelow hafter ihBelow ihAfter =>
      rcases List.mem_cons.mp hx with rfl | hx
      · exact ⟨x, List.mem_cons_self, .refl⟩
      · rcases List.mem_append.mp hx with hx | hx
        · obtain ⟨b, hb, hreaches⟩ := ihBelow hx
          exact ⟨a, List.mem_cons_self, .head hb hreaches⟩
        · obtain ⟨b, hb, hreaches⟩ := ihAfter hx
          exact ⟨b, List.mem_cons_of_mem _ hb, hreaches⟩

/-- The places visited from a place on are reached from it. -/
theorem Walk.reaches_top {visited : List α} (h : Walk next cut (next a) visited) {x : α}
    (hx : x ∈ a :: visited) : Reaches next a x := by
  rcases List.mem_cons.mp hx with rfl | hx
  · exact .refl
  · obtain ⟨b, hb, hreaches⟩ := h.reaches hx
    exact .head hb hreaches

/-- A descent that ends has met no entry that leads to none. -/
theorem Walk.present {entries : List (Option α)} {visited : List α}
    (h : Walk next False entries visited) :
    none ∉ entries ∧ ∀ x ∈ visited, none ∉ next x := by
  induction h with
  | done => simp
  | stop entries hcut => exact hcut.elim
  | enter hbelow hafter ihBelow ihAfter =>
      refine ⟨by simpa using ihAfter.1, ?_⟩
      intro x hx
      rcases List.mem_cons.mp hx with rfl | hx
      · exact ihBelow.1
      · rcases List.mem_append.mp hx with hx | hx
        · exact ihBelow.2 x hx
        · exact ihAfter.2 x hx

section Count

variable [DecidableEq α]

/-- Every visit comes from an entry of its own. -/
theorem Walk.count_le {entries : List (Option α)} {visited : List α}
    (h : Walk next cut entries visited) (x : α) :
    visited.count x ≤ entries.reduceOption.count x + (visited.flatMap (children next)).count x := by
  induction h with
  | done => simp
  | stop entries hcut => simp
  | @enter a rest below after hbelow hafter ihBelow ihAfter =>
      have hchildren : (next a).reduceOption = children next a := rfl
      simp only [List.reduceOption_cons_of_some, List.count_cons, List.count_append,
        List.flatMap_cons, List.flatMap_append, hchildren] at ihBelow ⊢
      omega

/-- A descent that ends visits what every entry leads to. -/
theorem Walk.count_eq {entries : List (Option α)} {visited : List α}
    (h : Walk next False entries visited) (x : α) :
    visited.count x = entries.reduceOption.count x + (visited.flatMap (children next)).count x := by
  induction h with
  | done => simp
  | stop entries hcut => exact hcut.elim
  | @enter a rest below after hbelow hafter ihBelow ihAfter =>
      have hchildren : (next a).reduceOption = children next a := rfl
      simp only [List.reduceOption_cons_of_some, List.count_cons, List.count_append,
        List.flatMap_cons, List.flatMap_append, hchildren] at ihBelow ⊢
      omega

theorem count_flatMap_le {f : α → List α} {x p : α} {l : List α} (hx : (f p).count x ≤ 1)
    (hparent : ∀ b ∈ l, x ∈ f b → b = p) : (l.flatMap f).count x ≤ l.count p := by
  induction l with
  | nil => simp
  | cons b rest ih =>
      have hrest := ih (fun c hc => hparent c (List.mem_cons_of_mem b hc))
      rw [List.flatMap_cons, List.count_append]
      by_cases hb : x ∈ f b
      · obtain rfl := hparent b List.mem_cons_self hb
        rw [List.count_cons_self]
        omega
      · rw [List.count_eq_zero_of_not_mem hb]
        have hmore : rest.count p ≤ (b :: rest).count p := List.count_le_count_cons
        omega

end Count

/-! ### Trees -/

/-- In a tree no place is visited twice, wherever the descent stops. -/
theorem Treelike.nodup (h : Treelike next a) {visited : List α}
    (hwalk : Walk next cut (next a) visited) : (a :: visited).Nodup := by
  classical
  have hcount : ∀ x, (a :: visited).count x ≤
      [a].count x + ((a :: visited).flatMap (children next)).count x := by
    intro x
    have hle : visited.count x ≤ (children next a).count x + _ := hwalk.count_le x
    rw [List.flatMap_cons, List.count_append, ← List.singleton_append, List.count_append]
    omega
  have honce : ∀ x, Reaches next a x → (a :: visited).count x ≤ 1 := by
    intro x hreaches
    induction hreaches with
    | refl =>
        have hnone : a ∉ (a :: visited).flatMap (children next) := by
          intro hmem
          obtain ⟨b, hb, hchild⟩ := List.mem_flatMap.mp hmem
          exact h.top b (hwalk.reaches_top hb) (mem_children.mp hchild)
        have hle := hcount a
        rw [List.count_eq_zero_of_not_mem hnone] at hle
        simpa using hle
    | @tail p x hp hx ih =>
        have hne : a ≠ x := by
          rintro rfl
          exact h.top p hp hx
        have hdistinct : ((children next p).map some).Nodup :=
          map_children (h.present p hp) ▸ h.distinct p hp
        have hchildren : (children next p).count x ≤ 1 :=
          List.nodup_iff_count_le_one.mp (List.Nodup.of_map _ hdistinct) x
        have hparent := count_flatMap_le hchildren (fun b hb hchild =>
          h.single b p x (hwalk.reaches_top hb) hp (mem_children.mp hchild) hx)
        have hle := hcount x
        rw [List.count_singleton, if_neg (by simpa using hne)] at hle
        omega
  refine List.nodup_iff_count_le_one.mpr (fun x => ?_)
  by_cases hx : x ∈ a :: visited
  · exact honce x (hwalk.reaches_top hx)
  · exact (List.count_eq_zero_of_not_mem hx).trans_le (Nat.zero_le 1)

/-- No way in a tree leads back. -/
theorem Treelike.no_return (h : Treelike next a) {b : α} (hb : Reaches next a b) :
    ¬ Relation.TransGen (Child next) b b := by
  induction hb with
  | refl =>
      intro hreturn
      obtain ⟨p, hp, hchild⟩ := Relation.TransGen.tail'_iff.mp hreturn
      exact h.top p hp hchild
  | @tail p b hp hb ih =>
      intro hreturn
      obtain ⟨q, hq, hchild⟩ := Relation.TransGen.tail'_iff.mp hreturn
      have hreach : Reaches next a q := hp.trans (.head hb hq)
      obtain rfl := h.single q p b hreach hp hchild hb
      exact ih (Relation.TransGen.head'_iff.mpr ⟨b, hb, hq⟩)

/-- An induction from the places without entries up to the top of a finite tree. -/
theorem Treelike.induction (h : Treelike next a) (hfinite : {b | Reaches next a b}.Finite)
    {motive : α → Prop}
    (step : ∀ b, Reaches next a b → (∀ c, Child next b c → motive c) → motive b) : motive a := by
  let below (c b : {b // Reaches next a b}) : Prop := Relation.TransGen (Child next) b.1 c.1
  have hfin : Finite {b // Reaches next a b} := hfinite.to_subtype
  have htrans : IsTrans _ below := ⟨fun _ _ _ hcb hba => hba.trans hcb⟩
  have hirrefl : Std.Irrefl below := ⟨fun b => h.no_return b.2⟩
  have hwf : WellFounded below := Finite.wellFounded_of_trans_of_irrefl below
  have hall : ∀ b : {b // Reaches next a b}, motive b.1 := by
    intro b
    induction b using hwf.induction with
    | h b ih =>
        refine step b.1 b.2 (fun c hc => ?_)
        exact ih ⟨c, b.2.tail hc⟩ (Relation.TransGen.single hc)
  exact hall ⟨a, .refl⟩

/-- A descent that ends and has visited every place once has been in a tree. -/
theorem Walk.treelike {visited : List α} (hwalk : Walk next False (next a) visited)
    (hnodup : (a :: visited).Nodup) : Treelike next a := by
  classical
  have hcount : ∀ x, (a :: visited).count x =
      (a :: (a :: visited).flatMap (children next)).count x := by
    intro x
    have heq : visited.count x = (children next a).count x + _ := hwalk.count_eq x
    simp only [List.count_cons, List.flatMap_cons, List.count_append]
    omega
  have hperm : (a :: visited).Perm (a :: (a :: visited).flatMap (children next)) :=
    List.perm_iff_count.mpr hcount
  have hentries := List.nodup_cons.mp (hperm.nodup_iff.mp hnodup)
  obtain ⟨hdistinct, hapart⟩ := List.nodup_flatMap.mp hentries.2
  have hvisited : ∀ b, Reaches next a b → b ∈ a :: visited := by
    intro b hb
    induction hb with
    | refl => exact List.mem_cons_self
    | @tail b c hb hc ih =>
        refine hperm.mem_iff.mpr (List.mem_cons_of_mem a ?_)
        exact List.mem_flatMap.mpr ⟨b, ih, mem_children.mpr hc⟩
  have hpresent : ∀ b, Reaches next a b → none ∉ next b := by
    intro b hb
    rcases List.mem_cons.mp (hvisited b hb) with rfl | hmem
    · exact hwalk.present.1
    · exact hwalk.present.2 b hmem
  exact
    { present := hpresent
      distinct := by
        intro b hb
        rw [← map_children (hpresent b hb)]
        exact (hdistinct b (hvisited b hb)).map (Option.some_injective α)
      single := by
        intro b c d hb hc hbd hcd
        by_contra hne
        have hsymm : Std.Symm (Function.onFun List.Disjoint (children next)) :=
          ⟨fun _ _ hdisjoint => hdisjoint.symm⟩
        exact hapart.forall (hvisited b hb) (hvisited c hc) hne (mem_children.mpr hbd)
          (mem_children.mpr hcd)
      top := by
        intro b hb hchild
        exact hentries.1 (List.mem_flatMap.mpr ⟨b, hvisited b hb, mem_children.mpr hchild⟩) }

end Descents
