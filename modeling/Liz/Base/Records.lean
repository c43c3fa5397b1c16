import Mathlib.Data.List.Forall2
import Mathlib.Data.List.Infix

/-!
# Records that are changed in place and never removed

A store keeps its records in a list: one may be changed where it stands, and new ones go behind the
others. A write looks for the first record that answers to it; it refreshes a record that says the
same already, and otherwise retires it and appends a new one. The records that satisfy a predicate,
taken in order, are all that most users of such a store look at, so each operation has a rule that
says what it makes of them.
-/

namespace Records

variable {ρ : Type} {p q same : ρ → Bool} {f refresh retire : ρ → ρ} {new : ρ}

/-- Changes the first record that satisfies `p`. -/
def modifyFirst (p : ρ → Bool) (f : ρ → ρ) : List ρ → List ρ
  | [] => []
  | r :: rest => if p r then f r :: rest else r :: modifyFirst p f rest

/-- Refreshes the first record that satisfies `p` when it says the same as the new one, and
otherwise retires it and appends the new one. -/
def write (p same : ρ → Bool) (refresh retire : ρ → ρ) (new : ρ) (records : List ρ) : List ρ :=
  match records.find? p with
  | none => records ++ [new]
  | some r =>
      if same r then modifyFirst p refresh records else modifyFirst p retire records ++ [new]

/-- What a write makes of the records that answer to it. -/
def push (same : ρ → Bool) (refresh : ρ → ρ) (new : ρ) : List ρ → List ρ
  | [] => [new]
  | r :: rest => if same r then refresh r :: rest else rest ++ [new]

/-! ### Records that stand where they stood -/

theorem exists_before {R : ρ → ρ → Prop} {records later : List ρ}
    (h : List.Forall₂ R records later) {r' : ρ} (hr' : r' ∈ later) : ∃ r ∈ records, R r r' := by
  induction h with
  | nil => exact absurd hr' List.not_mem_nil
  | cons hhead _ ih =>
      rcases List.mem_cons.mp hr' with rfl | hr'
      · exact ⟨_, List.mem_cons_self, hhead⟩
      · obtain ⟨r, hr, hR⟩ := ih hr'
        exact ⟨r, List.mem_cons_of_mem _ hr, hR⟩

theorem forall₂_comp {R : ρ → ρ → Prop} (hR : ∀ r s t, R r s → R s t → R r t)
    {records middle later : List ρ} (h : List.Forall₂ R records middle)
    (h' : List.Forall₂ R middle later) : List.Forall₂ R records later := by
  induction h generalizing later with
  | nil => exact h'
  | cons hhead _ ih =>
      cases h' with
      | cons hhead' htail' => exact .cons (hR _ _ _ hhead hhead') (ih htail')

theorem exists_after {R : ρ → ρ → Prop} {records later : List ρ}
    (h : List.Forall₂ R records later) {r : ρ} (hr : r ∈ records) : ∃ r' ∈ later, R r r' :=
  exists_before (R := flip R) h.flip hr

/-- Every record stands where it stood, changed as `R` allows, and `appended` stands behind. -/
def GrownBy (R : ρ → ρ → Prop) (appended records later : List ρ) : Prop :=
  ∃ changed, List.Forall₂ R records changed ∧ later = changed ++ appended

theorem GrownBy.of_changed {R : ρ → ρ → Prop} {records later : List ρ}
    (h : List.Forall₂ R records later) : GrownBy R [] records later :=
  ⟨later, h, (List.append_nil later).symm⟩

/-- Records that have grown twice: those that came first may have changed since. -/
theorem GrownBy.trans {R : ρ → ρ → Prop} (hR : ∀ r s t, R r s → R s t → R r t)
    {first second records middle later : List ρ} (h : GrownBy R first records middle)
    (h' : GrownBy R second middle later) :
    ∃ kept, List.Forall₂ R first kept ∧ GrownBy R (kept ++ second) records later := by
  obtain ⟨changed, hchanged, rfl⟩ := h
  obtain ⟨both, hboth, rfl⟩ := h'
  have hhead := List.forall₂_take changed.length hboth
  have htail := List.forall₂_drop changed.length hboth
  rw [List.take_left] at hhead
  rw [List.drop_left] at htail
  refine ⟨both.drop changed.length, htail, both.take changed.length, ?_, ?_⟩
  · exact forall₂_comp hR hchanged hhead
  · rw [← List.append_assoc, List.take_append_drop]

/-- Whatever stands somewhere stands there afterwards, changed as `R` allows. -/
theorem GrownBy.getElem?_later {R : ρ → ρ → Prop} {appended records later : List ρ}
    (h : GrownBy R appended records later) {i : Nat} {r : ρ} (hi : records[i]? = some r) :
    ∃ r', later[i]? = some r' ∧ R r r' := by
  obtain ⟨changed, hchanged, rfl⟩ := h
  obtain ⟨hbound, rfl⟩ := List.getElem?_eq_some_iff.mp hi
  have hlater : i < changed.length := hchanged.length_eq ▸ hbound
  refine ⟨changed[i], ?_, hchanged.get hbound hlater⟩
  rw [List.getElem?_append_left hlater, List.getElem?_eq_getElem hlater]

/-- Whatever stands somewhere has stood there before, or has been appended. -/
theorem GrownBy.getElem?_before {R : ρ → ρ → Prop} {appended records later : List ρ}
    (h : GrownBy R appended records later) {i : Nat} {r' : ρ} (hi : later[i]? = some r') :
    (∃ r, records[i]? = some r ∧ R r r') ∨ r' ∈ appended := by
  obtain ⟨changed, hchanged, rfl⟩ := h
  by_cases hbound : i < changed.length
  · have hbefore : i < records.length := hchanged.length_eq ▸ hbound
    rw [List.getElem?_append_left hbound, List.getElem?_eq_getElem hbound] at hi
    obtain rfl := Option.some.inj hi
    exact .inl ⟨records[i], List.getElem?_eq_getElem hbefore, hchanged.get hbefore hbound⟩
  · rw [List.getElem?_append_right (Nat.le_of_not_lt hbound)] at hi
    exact .inr (List.mem_of_getElem? hi)

theorem map_eq_of_forall₂ {γ : Type} {g : ρ → γ} {R : ρ → ρ → Prop} {records later : List ρ}
    (h : List.Forall₂ R records later) (hg : ∀ r r', R r r' → g r' = g r) :
    later.map g = records.map g := by
  induction h with
  | nil => rfl
  | cons hhead _ ih => rw [List.map_cons, List.map_cons, hg _ _ hhead, ih]

/-- Of records that answer to `p` when their later records do. -/
theorem forall₂_filter {R : ρ → ρ → Prop} {records later : List ρ}
    (h : List.Forall₂ R records later) (hp : ∀ r r', R r r' → p r' = p r) :
    List.Forall₂ R (records.filter p) (later.filter p) := by
  induction h with
  | nil => exact .nil
  | cons hhead _ ih =>
      rw [List.filter_cons, List.filter_cons, hp _ _ hhead]
      split
      · exact .cons hhead ih
      · exact ih

/-- Records that keep their keys hold the same values in order when they do under every key. -/
theorem forall₂_value_of_groups {κ ν : Type} [DecidableEq κ] {R : ρ → ρ → Prop} {key : ρ → κ}
    {value : ρ → ν} {records later : List ρ} (h : List.Forall₂ R records later)
    (hkey : ∀ r r', R r r' → key r' = key r)
    (hgroups : ∀ k, (later.filter fun r => key r = k).map value =
      (records.filter fun r => key r = k).map value) :
    List.Forall₂ (fun r r' => R r r' ∧ value r' = value r) records later := by
  induction h with
  | nil => exact .nil
  | @cons r r' records later hhead _ ih =>
      have hsame := hkey r r' hhead
      have hvalue := hgroups (key r)
      simp only [List.filter_cons, hsame, decide_true, if_true, List.map_cons,
        List.cons.injEq] at hvalue
      refine .cons ⟨hhead, hvalue.1⟩ (ih fun k => ?_)
      have hgroup := hgroups k
      by_cases hk : key r = k
      · rw [← hk]
        exact hvalue.2
      · simpa [List.filter_cons, hsame, hk] using hgroup

/-! ### The first record -/

theorem length_modifyFirst (records : List ρ) :
    (modifyFirst p f records).length = records.length := by
  induction records with
  | nil => rfl
  | cons r rest ih =>
      unfold modifyFirst
      split
      · rfl
      · simp [ih]

/-- Every record stands where it stood, changed only if it is the first that satisfies `p`. -/
theorem forall₂_modifyFirst {R : ρ → ρ → Prop} (hrefl : ∀ r, R r r) {records : List ρ}
    (hf : ∀ r, records.find? p = some r → R r (f r)) :
    List.Forall₂ R records (modifyFirst p f records) := by
  induction records with
  | nil => exact .nil
  | cons r rest ih =>
      rw [List.find?_cons] at hf
      cases hr : p r with
      | true =>
          simp only [modifyFirst, hr, if_true]
          exact .cons (hf r (by simp [hr])) (List.forall₂_same.mpr fun x _ => hrefl x)
      | false =>
          rw [hr] at hf
          simp only [modifyFirst, hr, Bool.false_eq_true, if_false]
          exact .cons (hrefl r) (ih hf)

theorem mem_of_mem_modifyFirst {records : List ρ} {r' : ρ} (h : r' ∈ modifyFirst p f records) :
    ∃ r ∈ records, r' = r ∨ r' = f r := by
  obtain ⟨r, hr, hsame⟩ := exists_before (forall₂_modifyFirst (R := fun r r' => r' = r ∨ r' = f r)
    (fun _ => Or.inl rfl) fun _ _ => Or.inr rfl) h
  exact ⟨r, hr, hsame⟩

/-- The first record that is meant is there afterwards, changed. -/
theorem mem_modifyFirst_of_find? {records : List ρ} {r : ρ} (h : records.find? p = some r) :
    f r ∈ modifyFirst p f records := by
  induction records with
  | nil => cases h
  | cons r' rest ih =>
      unfold modifyFirst
      rw [List.find?_cons] at h
      cases hr : p r' with
      | true =>
          rw [hr] at h
          rw [if_pos rfl, Option.some.inj h]
          exact List.mem_cons_self
      | false =>
          rw [hr] at h
          rw [if_neg Bool.false_ne_true]
          exact List.mem_cons_of_mem _ (ih h)

/-- Only the first record that is meant is another one afterwards. -/
theorem mem_modifyFirst_cases {records : List ρ} {r' : ρ} (h : r' ∈ modifyFirst p f records) :
    r' ∈ records ∨ ∃ r, records.find? p = some r ∧ r' = f r := by
  induction records with
  | nil => exact absurd h List.not_mem_nil
  | cons r rest ih =>
      unfold modifyFirst at h
      rw [List.find?_cons]
      cases hr : p r with
      | true =>
          rw [hr, if_pos rfl] at h
          rcases List.mem_cons.mp h with rfl | h
          · exact Or.inr ⟨r, rfl, rfl⟩
          · exact Or.inl (List.mem_cons_of_mem _ h)
      | false =>
          rw [hr, if_neg Bool.false_ne_true] at h
          rcases List.mem_cons.mp h with rfl | h
          · exact Or.inl List.mem_cons_self
          · exact (ih h).imp_left (List.mem_cons_of_mem _)

/-- Where the records have keys of their own, a change of one key changes its only record. -/
theorem mem_modifyFirst_of_nodup {κ : Type} {key : ρ → κ} {k : κ} {records : List ρ}
    (hp : ∀ r ∈ records, (p r = true ↔ key r = k)) (hnodup : (records.map key).Nodup) {r' : ρ}
    (h : r' ∈ modifyFirst p f records) :
    (key r' ≠ k ∧ r' ∈ records) ∨ ∃ r ∈ records, key r = k ∧ r' = f r := by
  induction records with
  | nil => exact absurd h List.not_mem_nil
  | cons r rest ih =>
      obtain ⟨hfresh, hrest⟩ := List.nodup_cons.mp hnodup
      have hhead := hp r List.mem_cons_self
      unfold modifyFirst at h
      cases hr : p r with
      | true =>
          have hkey : key r = k := hhead.mp hr
          rw [hr, if_pos rfl] at h
          rcases List.mem_cons.mp h with rfl | hmem
          · exact .inr ⟨r, List.mem_cons_self, hkey, rfl⟩
          · refine .inl ⟨fun heq => hfresh ?_, List.mem_cons_of_mem _ hmem⟩
            rw [hkey, ← heq]
            exact List.mem_map_of_mem hmem
      | false =>
          have hkey : key r ≠ k := fun heq => by rw [hhead.mpr heq] at hr; cases hr
          rw [hr, if_neg Bool.false_ne_true] at h
          rcases List.mem_cons.mp h with rfl | hmem
          · exact .inl ⟨hkey, List.mem_cons_self⟩
          · rcases ih (fun s hs => hp s (List.mem_cons_of_mem _ hs)) hrest hmem with
              ⟨hne, hold⟩ | ⟨s, hs, hsame⟩
            · exact .inl ⟨hne, List.mem_cons_of_mem _ hold⟩
            · exact .inr ⟨s, List.mem_cons_of_mem _ hs, hsame⟩

theorem map_modifyFirst {γ : Type} {g : ρ → γ} {records : List ρ}
    (h : ∀ r, records.find? p = some r → g (f r) = g r) :
    (modifyFirst p f records).map g = records.map g := by
  have hall := forall₂_modifyFirst (R := fun r r' => g r = g r') (fun _ => rfl)
    fun r hr => (h r hr).symm
  have hmap : List.Forall₂ Eq (records.map g) ((modifyFirst p f records).map g) := by
    simpa [List.forall₂_map_left_iff, List.forall₂_map_right_iff] using hall
  exact (List.forall₂_eq_eq_eq ▸ hmap : records.map g = _).symm

theorem filter_modifyFirst_self (records : List ρ) :
    (modifyFirst p f records).filter p =
      match records.filter p with
      | [] => []
      | r :: rest => if p (f r) then f r :: rest else rest := by
  induction records with
  | nil => rfl
  | cons r rest ih =>
      cases hr : p r with
      | true => simp only [modifyFirst, hr, if_true, List.filter_cons]
      | false => simpa only [modifyFirst, hr, Bool.false_eq_true, if_false, List.filter_cons] using ih

/-- Records that the change neither reaches nor makes. -/
theorem filter_modifyFirst_of_disjoint {records : List ρ}
    (h : ∀ r, p r = true → q r = false ∧ q (f r) = false) :
    (modifyFirst p f records).filter q = records.filter q := by
  induction records with
  | nil => rfl
  | cons r rest ih =>
      cases hr : p r with
      | true => simp [modifyFirst, hr, h r hr]
      | false => simp [modifyFirst, hr, List.filter_cons, ih]

/-- A change that nobody notices who looks at `g` of the records that satisfy `q`. -/
theorem map_filter_modifyFirst {γ : Type} {g : ρ → γ} {records : List ρ}
    (h : ∀ r, p r = true → q (f r) = q r ∧ g (f r) = g r) :
    ((modifyFirst p f records).filter q).map g = (records.filter q).map g := by
  induction records with
  | nil => rfl
  | cons r rest ih =>
      cases hr : p r with
      | true =>
          simp only [modifyFirst, hr, if_true, List.filter_cons, (h r hr).1]
          split
          · simp [(h r hr).2]
          · rfl
      | false =>
          simp only [modifyFirst, hr, Bool.false_eq_true, if_false, List.filter_cons]
          split
          · simp [ih]
          · exact ih

/-- A change that leaves it open who satisfies `q` leaves as many who do. -/
theorem length_filter_modifyFirst {records : List ρ} (h : ∀ r, p r = true → q (f r) = q r) :
    ((modifyFirst p f records).filter q).length = (records.filter q).length := by
  have hmap : ((modifyFirst p f records).filter q).map (fun _ => ()) =
      (records.filter q).map fun _ => () := map_filter_modifyFirst fun r hr => ⟨h r hr, rfl⟩
  simpa only [List.length_map] using congrArg List.length hmap

/-- A change of every record that nobody notices who looks at `v` of the records that satisfy
`q`. -/
theorem map_filter_map {γ : Type} {v : ρ → γ} {g : ρ → ρ}
    (h : ∀ r, q (g r) = q r ∧ (q r = true → v (g r) = v r)) (records : List ρ) :
    ((records.map g).filter q).map v = (records.filter q).map v := by
  induction records with
  | nil => rfl
  | cons r rest ih =>
      rw [List.map_cons, List.filter_cons, List.filter_cons, (h r).1]
      split
      next hq => rw [List.map_cons, List.map_cons, (h r).2 hq, ih]
      next => exact ih

theorem length_filter_map_of_stable {g : ρ → ρ} (h : ∀ r, q (g r) = q r) (records : List ρ) :
    ((records.map g).filter q).length = (records.filter q).length := by
  have hq : q ∘ g = q := funext h
  rw [List.filter_map, List.length_map, hq]

/-! ### Writes -/

/-- What a write makes of the records it looks at. -/
theorem filter_write_self {records : List ρ} (hrefresh : ∀ r, p r = true → p (refresh r) = true)
    (hretire : ∀ r, p (retire r) = false) (hnew : p new = true) :
    (write p same refresh retire new records).filter p =
      push same refresh new (records.filter p) := by
  unfold write
  cases hfind : records.find? p with
  | none =>
      have hnone : records.filter p = [] := by
        simpa [List.filter_eq_nil_iff] using hfind
      simp [push, hnone, hnew]
  | some r =>
      obtain ⟨rest, hrest⟩ : ∃ rest, records.filter p = r :: rest := by
        have hhead : (records.filter p).head? = some r := by rw [List.head?_filter, hfind]
        exact ⟨_, (List.eq_cons_of_mem_head? hhead)⟩
      have hr : p r = true := List.find?_some hfind
      by_cases hsame : same r
      · simp only [hsame, if_true, filter_modifyFirst_self, hrest, push, hrefresh r hr]
      · simp [hsame, List.filter_append, filter_modifyFirst_self, hrest, push, hretire r, hnew]

/-- What is there after a write is the new record or has been there before. -/
theorem mem_of_mem_write {records : List ρ} {r' : ρ}
    (h : r' ∈ write p same refresh retire new records) :
    r' = new ∨ ∃ r ∈ records, r' = r ∨ r' = refresh r ∨ r' = retire r := by
  unfold write at h
  split at h
  · rcases List.mem_append.mp h with h | h
    · exact Or.inr ⟨r', h, Or.inl rfl⟩
    · exact Or.inl (List.mem_singleton.mp h)
  · split at h
    · obtain ⟨r, hr, hchanged⟩ := mem_of_mem_modifyFirst h
      exact Or.inr ⟨r, hr, hchanged.imp_right Or.inl⟩
    · rcases List.mem_append.mp h with h | h
      · obtain ⟨r, hr, hchanged⟩ := mem_of_mem_modifyFirst h
        exact Or.inr ⟨r, hr, hchanged.imp_right Or.inr⟩
      · exact Or.inl (List.mem_singleton.mp h)

/-- A write does nothing to records it does not look at. -/
theorem filter_write_of_disjoint {records : List ρ}
    (h : ∀ r, p r = true → q r = false ∧ q (refresh r) = false ∧ q (retire r) = false)
    (hnew : q new = false) :
    (write p same refresh retire new records).filter q = records.filter q := by
  unfold write
  split
  · simp [hnew]
  · split
    · exact filter_modifyFirst_of_disjoint fun r hr => ⟨(h r hr).1, (h r hr).2.1⟩
    · rw [List.filter_append, filter_modifyFirst_of_disjoint fun r hr => ⟨(h r hr).1, (h r hr).2.2⟩]
      simp [hnew]

/-- Changing the one record that satisfies `p` takes it from those who count it. -/
theorem filter_modifyFirst_of_single {records : List ρ} (hsingle : (records.filter p).length ≤ 1)
    (hf : ∀ r, records.find? p = some r → q (f r) = false) :
    (modifyFirst p f records).filter q = (records.filter q).filter fun r => !p r := by
  induction records with
  | nil => rfl
  | cons r rest ih =>
      cases hr : p r with
      | true =>
          have hfirst : q (f r) = false := hf r (by simp [hr])
          have hrest : rest.filter p = [] := by
            simpa [List.filter_cons, hr] using hsingle
          have hclean : (rest.filter q).filter (fun r => !p r) = rest.filter q := by
            rw [List.filter_eq_self]
            intro other hother
            simpa using List.filter_eq_nil_iff.mp hrest other (List.mem_of_mem_filter hother)
          cases hq : q r <;> simp [modifyFirst, hr, hfirst, hq, hclean]
      | false =>
          have hih := ih (by simpa [List.filter_cons, hr] using hsingle)
            fun r hr' => hf r (by simpa [hr] using hr')
          cases hq : q r <;> simp [modifyFirst, hr, hq, hih]

/-- A write under a name that one record has at most takes this record from those who count it and
adds none to them. -/
theorem filter_write_of_single {records : List ρ} (hsingle : (records.filter p).length ≤ 1)
    (hsame : ∀ r, records.find? p = some r → same r = true → q (refresh r) = false)
    (hretire : ∀ r, q (retire r) = false) (hnew : q new = false) :
    (write p same refresh retire new records).filter q =
      (records.filter q).filter fun r => !p r := by
  unfold write
  cases hfind : records.find? p with
  | none =>
      have hnone := List.find?_eq_none.mp hfind
      have hclean : (records.filter q).filter (fun r => !p r) = records.filter q := by
        rw [List.filter_eq_self]
        intro r hr
        simpa using hnone r (List.mem_of_mem_filter hr)
      rw [hclean]
      simp [hnew]
  | some r =>
      by_cases hr : same r
      · simp only [hr, if_true]
        refine filter_modifyFirst_of_single hsingle fun first hfirst => ?_
        obtain rfl : r = first := Option.some.inj (hfind.symm.trans hfirst)
        exact hsame r hfind hr
      · have hretired := filter_modifyFirst_of_single hsingle (q := q) (f := retire)
          fun first _ => hretire first
        simp only [hr, Bool.false_eq_true, if_false, List.filter_append, hretired]
        simp [hnew]

theorem length_push_le {records : List ρ} (h : records.length ≤ 1) :
    (push same refresh new records).length ≤ 1 := by
  match records, h with
  | [], _ => simp [push]
  | [r], _ => by_cases hsame : same r <;> simp [push, hsame]

end Records
