import Liz.Base.Runs

/-!
# Monitors

A monitor reads a stream of events and moves from phase to phase; an event that it does not expect
in its phase is refused. What the phases exclude never happens in a stream that is read to its end,
and a machine whose steps the monitor can follow has only such streams.
-/

namespace Monitors

variable {φ ε : Type} (next : φ → ε → Option φ)

/-- The phase after a stream of events, unless one of them is refused. -/
def run (phase : φ) (events : List ε) : Option φ := events.foldlM next phase

variable {next} {p q : φ} {event : ε} {events before later : List ε}

@[simp] theorem run_nil : run next p [] = some p := rfl

@[simp] theorem run_cons : run next p (event :: events) = (next p event).bind (run next · events) :=
  List.foldlM_cons

theorem run_append : run next p (before ++ later) = (run next p before).bind (run next · later) :=
  List.foldlM_append

/-- The stream is read up to an event, past it, and to its end. -/
theorem run_split (h : run next p (before ++ event :: later) = some q) :
    ∃ r r', run next p before = some r ∧ next r event = some r' ∧ run next r' later = some q := by
  rw [run_append] at h
  obtain ⟨r, hbefore, h⟩ := Option.bind_eq_some_iff.mp h
  rw [run_cons] at h
  obtain ⟨r', hevent, hlater⟩ := Option.bind_eq_some_iff.mp h
  exact ⟨r, r', hbefore, hevent, hlater⟩

/-- Events that leave the phase as it is. -/
theorem run_eq_self (h : ∀ event ∈ events, next p event = some p) : run next p events = some p := by
  induction events with
  | nil => rfl
  | cons event rest ih =>
      rw [run_cons, h event List.mem_cons_self]
      exact ih fun other hother => h other (List.mem_cons_of_mem event hother)

section Phases

variable {S : φ → Prop}

/-- Phases that no event leaves are not left. -/
theorem stays (hstays : ∀ p event q, S p → next p event = some q → S q)
    (h : run next p events = some q) (hp : S p) : S q := by
  induction events generalizing p with
  | nil => exact Option.some.inj h ▸ hp
  | cons event rest ih =>
      rw [run_cons] at h
      obtain ⟨r, hevent, hrest⟩ := Option.bind_eq_some_iff.mp h
      exact ih hrest (hstays p event r hp hevent)

/-- Where phases that are not left refuse an event, it does not happen any more. -/
theorem never {Refused : ε → Prop} (hstays : ∀ p event q, S p → next p event = some q → S q)
    (hrefused : ∀ p event, S p → Refused event → next p event = none)
    (h : run next p events = some q) (hp : S p) : ∀ event ∈ events, ¬ Refused event := by
  intro event hmem hevent
  obtain ⟨before, later, rfl⟩ := List.append_of_mem hmem
  obtain ⟨r, r', hbefore, hread, -⟩ := run_split h
  rw [hrefused r event (stays hstays hbefore hp) hevent] at hread
  cases hread

/-- A phase that is reached is entered by some event. -/
theorem exists_entry (h : run next p events = some q) (hp : ¬ S p) (hq : S q) :
    ∃ r, ∃ event ∈ events, ∃ r', ¬ S r ∧ next r event = some r' ∧ S r' := by
  induction events generalizing p with
  | nil => exact absurd (Option.some.inj h ▸ hq) hp
  | cons event rest ih =>
      rw [run_cons] at h
      obtain ⟨r, hevent, hrest⟩ := Option.bind_eq_some_iff.mp h
      by_cases hr : S r
      · exact ⟨p, event, List.mem_cons_self, r, hp, hevent, hr⟩
      · obtain ⟨r', other, hother, hentry⟩ := ih hrest hr
        exact ⟨r', other, List.mem_cons_of_mem event hother, hentry⟩

/-- An event that leads to phases where it is refused happens once at most. -/
theorem countP_le_one {once : ε → Bool} (hstays : ∀ p event q, S p → next p event = some q → S q)
    (hrefused : ∀ p event, S p → once event = true → next p event = none)
    (hleads : ∀ p event q, once event = true → next p event = some q → S q)
    (h : run next p events = some q) : events.countP once ≤ 1 := by
  induction events generalizing p with
  | nil => exact Nat.zero_le 1
  | cons event rest ih =>
      rw [run_cons] at h
      obtain ⟨r, hevent, hrest⟩ := Option.bind_eq_some_iff.mp h
      rw [List.countP_cons]
      split
      next honce =>
        have hnever := never hstays hrefused hrest (hleads p event r honce hevent)
        rw [List.countP_eq_zero.mpr hnever]
      next => exact ih hrest

end Phases

/-! ### Machines under a monitor -/

/-- A machine whose steps the monitor follows has streams that the monitor reads to their end. -/
theorem follows_run {σ ι : Type} {step : σ → ι → σ} {out : σ → ι → List ε} {C : σ → ι → Prop}
    {Fits : σ → φ → Prop}
    (hstep : ∀ s i p, C s i → Fits s p → ∃ q, run next p (out s i) = some q ∧ Fits (step s i) q)
    {s : σ} {inputs : List ι} (hs : Fits s p) (hall : Runs.AllSteps step C s inputs) :
    ∃ q, run next p ((Runs.moments step s inputs).flatMap fun m => out m.1 m.2) = some q ∧
      Fits (Runs.final step s inputs) q := by
  induction inputs generalizing s p with
  | nil => exact ⟨p, rfl, hs⟩
  | cons i rest ih =>
      obtain ⟨r, hout, hr⟩ := hstep s i p hall.1 hs
      obtain ⟨q, hrest, hq⟩ := ih hr hall.2
      refine ⟨q, ?_, hq⟩
      rw [Runs.moments, List.flatMap_cons, run_append, hout]
      exact hrest

end Monitors
