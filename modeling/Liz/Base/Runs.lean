import Mathlib.Data.List.Infix

/-!
# Runs of a machine

A machine is a function from a state and an input to the next state; a run feeds it a list of
inputs. What one step preserves under a condition on the state and the input, every run whose steps
all meet the condition preserves, and a reflexive and transitive relation that such steps respect
relates any two states of the run in the order they are reached.
-/

namespace Runs

variable {σ ι : Type} (step : σ → ι → σ)

/-- The states of a run, the first one included. -/
def states : σ → List ι → List σ
  | s, [] => [s]
  | s, i :: rest => s :: states (step s i) rest

/-- The last state of a run. -/
def final : σ → List ι → σ
  | s, [] => s
  | s, i :: rest => final (step s i) rest

/-- Every step of the run meets the condition. -/
def AllSteps (C : σ → ι → Prop) : σ → List ι → Prop
  | _, [] => True
  | s, i :: rest => C s i ∧ AllSteps C (step s i) rest

/-- The steps of a run, each with the state it is taken in. -/
def moments : σ → List ι → List (σ × ι)
  | _, [] => []
  | s, i :: rest => (s, i) :: moments (step s i) rest

instance (C : σ → ι → Prop) [∀ s i, Decidable (C s i)] :
    ∀ (s : σ) (inputs : List ι), Decidable (AllSteps step C s inputs)
  | _, [] => inferInstanceAs (Decidable True)
  | s, i :: rest =>
      have : Decidable (AllSteps step C (step s i) rest) := instDecidableAllSteps C (step s i) rest
      inferInstanceAs (Decidable (C s i ∧ AllSteps step C (step s i) rest))

variable {step}

theorem final_mem_states (s : σ) (inputs : List ι) : final step s inputs ∈ states step s inputs := by
  induction inputs generalizing s with
  | nil => exact List.mem_singleton_self s
  | cons i rest ih => exact List.mem_cons_of_mem s (ih (step s i))

/-- An invariant that every step meeting the condition preserves holds in every state of a run
whose steps all meet it. -/
theorem invariant {C : σ → ι → Prop} {Inv : σ → Prop}
    (hstep : ∀ s i, Inv s → C s i → Inv (step s i)) {s : σ} {inputs : List ι} (hs : Inv s)
    (hall : AllSteps step C s inputs) : ∀ t ∈ states step s inputs, Inv t := by
  induction inputs generalizing s with
  | nil =>
      intro t ht
      rwa [List.mem_singleton.mp ht]
  | cons i rest ih =>
      intro t ht
      rcases List.mem_cons.mp ht with rfl | ht
      · exact hs
      · exact ih (hstep s i hs hall.1) hall.2 t ht

/-- Where a step keeps the invariant exactly under the condition, a run keeps it exactly when all of
its steps meet the condition. -/
theorem invariant_iff {D C : σ → ι → Prop} {Base Inv : σ → Prop}
    (hbase : ∀ s i, Base s → Base (step s i))
    (hstep : ∀ s i, Base s → Inv s → D s i → (Inv (step s i) ↔ C s i)) {s : σ} {inputs : List ι}
    (hs : Base s) (hinv : Inv s) (hall : AllSteps step D s inputs) :
    (∀ t ∈ states step s inputs, Inv t) ↔ AllSteps step C s inputs := by
  induction inputs generalizing s with
  | nil => simpa [states, AllSteps] using hinv
  | cons i rest ih =>
      have hnext := hstep s i hs hinv hall.1
      have hfirst : step s i ∈ states step (step s i) rest := by cases rest <;> simp [states]
      simp only [states, List.forall_mem_cons, AllSteps]
      constructor
      · rintro ⟨-, hrest⟩
        have hi := hrest _ hfirst
        exact ⟨hnext.mp hi, (ih (hbase s i hs) hi hall.2).mp hrest⟩
      · rintro ⟨hi, hrest⟩
        exact ⟨hinv, (ih (hbase s i hs) (hnext.mpr hi) hall.2).mpr hrest⟩

/-- Where a step keeps the invariant and does well exactly under the condition, a run keeps it and
does well in every step exactly when all of its steps meet the condition. -/
theorem invariant_and_iff {A C : σ → ι → Prop} {Base Inv : σ → Prop}
    (hbase : ∀ s i, Base s → Base (step s i))
    (hstep : ∀ s i, Base s → Inv s → (Inv (step s i) ∧ A s i ↔ C s i)) {s : σ} {inputs : List ι}
    (hs : Base s) (hinv : Inv s) :
    ((∀ t ∈ states step s inputs, Inv t) ∧ AllSteps step A s inputs) ↔
      AllSteps step C s inputs := by
  induction inputs generalizing s with
  | nil => simpa [states, AllSteps] using hinv
  | cons i rest ih =>
      have hnext := hstep s i hs hinv
      have hfirst : step s i ∈ states step (step s i) rest := by cases rest <;> simp [states]
      simp only [states, List.forall_mem_cons, AllSteps]
      constructor
      · intro ⟨⟨_, hrest⟩, hi, hall⟩
        have hkept := hrest _ hfirst
        exact ⟨hnext.mp ⟨hkept, hi⟩, (ih (hbase s i hs) hkept).mp ⟨hrest, hall⟩⟩
      · intro ⟨hi, hrest⟩
        obtain ⟨hkept, hdone⟩ := hnext.mpr hi
        obtain ⟨hall, hrest⟩ := (ih (hbase s i hs) hkept).mpr hrest
        exact ⟨⟨hinv, hall⟩, hdone, hrest⟩

/-- A relation that every step respects relates the states of the run in order. -/
theorem pairwise {C : σ → ι → Prop} {Inv : σ → Prop} {R : σ → σ → Prop}
    (hrefl : ∀ s, R s s) (htrans : ∀ {s t u}, R s t → R t u → R s u)
    (hinv : ∀ s i, Inv s → C s i → Inv (step s i))
    (hstep : ∀ s i, Inv s → C s i → R s (step s i)) {s : σ} {inputs : List ι} (hs : Inv s)
    (hall : AllSteps step C s inputs) :
    (∀ t ∈ states step s inputs, R s t) ∧ (states step s inputs).Pairwise R := by
  induction inputs generalizing s with
  | nil =>
      refine ⟨fun t ht => ?_, List.pairwise_singleton R s⟩
      rw [List.mem_singleton.mp ht]
      exact hrefl s
  | cons i rest ih =>
      obtain ⟨hfirst, hrest⟩ := ih (hinv s i hs hall.1) hall.2
      have hlater : ∀ t ∈ states step (step s i) rest, R s t := fun t ht =>
        htrans (hstep s i hs hall.1) (hfirst t ht)
      refine ⟨fun t ht => ?_, List.pairwise_cons.mpr ⟨hlater, hrest⟩⟩
      rcases List.mem_cons.mp ht with rfl | ht
      · exact hrefl t
      · exact hlater t ht

/-- What a step returns is known from then on, and it answers to whatever a later step returns. -/
theorem pairwise_moments {α : Type} {C : σ → ι → Prop} {Inv : σ → Prop}
    {Returns : σ → ι → α → Prop} {Known : σ → α → Prop} {Q : α → α → Prop}
    (hinv : ∀ s i, Inv s → C s i → Inv (step s i))
    (hgain : ∀ s i a, Inv s → C s i → Returns s i a → Known (step s i) a)
    (hkeep : ∀ s i a, Inv s → C s i → Known s a → Known (step s i) a)
    (hmeet : ∀ s i a b, Inv s → Known s a → Returns s i b → Q a b) {s : σ} {inputs : List ι}
    (hs : Inv s) (hall : AllSteps step C s inputs) :
    (∀ a, Known s a → ∀ m ∈ moments step s inputs, ∀ b, Returns m.1 m.2 b → Q a b) ∧
      (moments step s inputs).Pairwise fun m m' =>
        ∀ a b, Returns m.1 m.2 a → Returns m'.1 m'.2 b → Q a b := by
  induction inputs generalizing s with
  | nil => exact ⟨fun _ _ m hm => absurd hm List.not_mem_nil, List.Pairwise.nil⟩
  | cons i rest ih =>
      obtain ⟨hknown, hrest⟩ := ih (hinv s i hs hall.1) hall.2
      constructor
      · intro a ha m hm b hb
        rcases List.mem_cons.mp hm with rfl | hm
        · exact hmeet s i a b hs ha hb
        · exact hknown a (hkeep s i a hs hall.1 ha) m hm b hb
      · apply List.pairwise_cons.mpr
        constructor
        · intro m hm a b ha hb
          exact hknown a (hgain s i a hs hall.1 ha) m hm b hb
        · exact hrest

theorem fst_mem_states {s : σ} {inputs : List ι} {m : σ × ι} (h : m ∈ moments step s inputs) :
    m.1 ∈ states step s inputs := by
  induction inputs generalizing s with
  | nil => exact absurd h List.not_mem_nil
  | cons i rest ih =>
      rcases List.mem_cons.mp h with rfl | h
      · exact List.mem_cons_self
      · exact List.mem_cons_of_mem _ (ih h)

theorem moments_append (s : σ) (inputs more : List ι) :
    moments step s (inputs ++ more) =
      moments step s inputs ++ moments step (final step s inputs) more := by
  induction inputs generalizing s with
  | nil => rfl
  | cons i rest ih => exact congrArg ((s, i) :: ·) (ih (step s i))

/-- A run with a step that fails the condition, split at that step. -/
theorem exists_split_of_not_allSteps {C : σ → ι → Prop} {s : σ} {inputs : List ι}
    (h : ¬ AllSteps step C s inputs) :
    ∃ before i later, inputs = before ++ i :: later ∧ ¬ C (final step s before) i := by
  induction inputs generalizing s with
  | nil => exact absurd trivial h
  | cons i rest ih =>
      by_cases hi : C s i
      · obtain ⟨before, j, later, rfl, hj⟩ := ih fun hrest => h ⟨hi, hrest⟩
        exact ⟨i :: before, j, later, rfl, hj⟩
      · exact ⟨[], i, rest, rfl, hi⟩

/-- A condition that every step meets. -/
theorem allSteps_of_forall {C : σ → ι → Prop} (h : ∀ s i, C s i) (s : σ) (inputs : List ι) :
    AllSteps step C s inputs := by
  induction inputs generalizing s with
  | nil => trivial
  | cons i rest ih => exact ⟨h s i, ih (step s i)⟩

/-- Steps without a condition. -/
theorem allSteps_true (s : σ) (inputs : List ι) : AllSteps step (fun _ _ => True) s inputs :=
  allSteps_of_forall (fun _ _ => trivial) s inputs

/-- Where the steps that meet one condition keep an invariant and meet another condition, so do the
steps of a run. -/
theorem allSteps_of_invariant {C D : σ → ι → Prop} {Inv : σ → Prop}
    (hstep : ∀ s i, Inv s → C s i → Inv (step s i)) (h : ∀ s i, Inv s → C s i → D s i) {s : σ}
    {inputs : List ι} (hs : Inv s) (hall : AllSteps step C s inputs) :
    AllSteps step D s inputs := by
  induction inputs generalizing s with
  | nil => trivial
  | cons i rest ih => exact ⟨h s i hs hall.1, ih (hstep s i hs hall.1) hall.2⟩

/-- Conditions that say the same of every state of an invariant say the same of a run. -/
theorem allSteps_iff {C D : σ → ι → Prop} {Inv : σ → Prop} (hinv : ∀ s i, Inv s → Inv (step s i))
    (h : ∀ s i, Inv s → (C s i ↔ D s i)) {s : σ} (hs : Inv s) (inputs : List ι) :
    AllSteps step C s inputs ↔ AllSteps step D s inputs := by
  induction inputs generalizing s with
  | nil => exact Iff.rfl
  | cons i rest ih => exact and_congr (h s i hs) (ih (hinv s i hs))

theorem allSteps_congr {C D : σ → ι → Prop} (h : ∀ s i, C s i ↔ D s i) (s : σ) (inputs : List ι) :
    AllSteps step C s inputs ↔ AllSteps step D s inputs := by
  induction inputs generalizing s with
  | nil => exact Iff.rfl
  | cons i rest ih => exact and_congr (h s i) (ih (step s i))

/-! ### Where a run can lead -/

theorem final_append (s : σ) (inputs more : List ι) :
    final step s (inputs ++ more) = final step (final step s inputs) more := by
  induction inputs generalizing s with
  | nil => rfl
  | cons i rest ih => exact ih (step s i)

variable (step) in
/-- Inputs that meet the condition can lead from the state to one with the property. -/
def Leads (C : ι → Prop) (s : σ) (P : σ → Prop) : Prop :=
  ∃ inputs, (∀ i ∈ inputs, C i) ∧ P (final step s inputs)

namespace Leads

variable {C : ι → Prop} {s : σ} {P Q : σ → Prop}

theorem refl (h : P s) : Leads step C s P := ⟨[], fun _ hi => absurd hi List.not_mem_nil, h⟩

theorem head {i : ι} (hi : C i) (h : Leads step C (step s i) P) : Leads step C s P := by
  obtain ⟨inputs, hall, hP⟩ := h
  exact ⟨i :: inputs, List.forall_mem_cons.mpr ⟨hi, hall⟩, hP⟩

theorem trans (h : Leads step C s P) (hnext : ∀ t, P t → Leads step C t Q) : Leads step C s Q := by
  obtain ⟨inputs, hall, hP⟩ := h
  obtain ⟨more, hmore, hQ⟩ := hnext _ hP
  refine ⟨inputs ++ more, List.forall_mem_append.mpr ⟨hall, hmore⟩, ?_⟩
  rw [final_append]
  exact hQ

end Leads

end Runs
