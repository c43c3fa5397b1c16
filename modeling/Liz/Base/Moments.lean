import Liz.Base.Program

/-!
# What a program meets on its way

The places a program passes are a list that depends on the state it starts in. A list in the state
that only grows, such as a trace, is accounted for by them when what it gains on the way is what it
gains at each place. A program that meets one place at most is described by where it leads.
-/

namespace Program

variable {ε σ α β μ ν ρ : Type}

/-- The places met after `p` has returned. -/
def onward (p : EStateM ε σ α) (later : α → σ → List μ) (s : σ) : List μ :=
  match p s with
  | .ok a t => later a t
  | .error _ _ => []

theorem onward_of_ok {p : EStateM ε σ α} {s t : σ} {a : α} (h : p s = .ok a t)
    (later : α → σ → List μ) : onward p later s = later a t := by
  rw [onward, h]

/-- What the list gains while `p` runs is what it gains at the places that `p` meets. -/
def Accounts (view : σ → List ρ) (gain : μ → List ρ) (p : EStateM ε σ α) (places : σ → List μ) :
    Prop :=
  ∀ s, view (after p s) = view s ++ (places s).flatMap gain

/-- The list is as it was. -/
def Leaves (view : σ → List ρ) (s t : σ) : Prop := view t = view s

variable {view : σ → List ρ} {gain : μ → List ρ}

theorem Leaves.refl (s : σ) : Leaves view s s := rfl

theorem Leaves.trans ⦃s t u : σ⦄ (h : Leaves view s t) (h' : Leaves view t u) : Leaves view s u :=
  Eq.trans h' h

/-- A program that leaves the list alone meets nothing. -/
theorem Accounts.nothing {p : EStateM ε σ α} (h : Guarantees (Leaves view) p) :
    Accounts view gain p fun _ => [] := by
  intro s
  have hleaves : Leaves view s (after p s) := wp_after.mp (h s)
  rw [hleaves, List.flatMap_nil, List.append_nil]

/-- Where a program leads that does not fail. -/
theorem after_of_always {p : EStateM ε σ α} {R : σ → Prop} {s : σ}
    (h : wp p (fun _ => R) (fun _ _ => False) s) : R (after p s) :=
  wp_after.mp (wp_mono h (fun _ _ hR => hR) fun _ _ hno => hno.elim)

theorem after_bind (p : EStateM ε σ β) (next : β → EStateM ε σ α) (s : σ) :
    after (p >>= next) s = match p s with
      | .ok b t => after (next b) t
      | .error _ t => t := by
  change (match EStateM.bind p next s with | .ok _ t => t | .error _ t => t) = _
  unfold EStateM.bind after
  cases p s <;> rfl

theorem Accounts.bind {p : EStateM ε σ β} {next : β → EStateM ε σ α} {first : σ → List μ}
    {later : β → σ → List μ} (hp : Accounts view gain p first)
    (hnext : ∀ b, Accounts view gain (next b) (later b)) :
    Accounts view gain (p >>= next) fun s => first s ++ onward p later s := by
  intro s
  have hfirst := hp s
  rw [after_bind, List.flatMap_append, ← List.append_assoc, ← hfirst]
  unfold onward after
  cases p s with
  | ok b t => exact hnext b t
  | error e t => exact (List.append_nil _).symm

/-- A program that meets nothing comes first. -/
theorem Accounts.bind_of_nothing {p : EStateM ε σ β} {next : β → EStateM ε σ α}
    {later : β → σ → List μ} (hp : Guarantees (Leaves view) p)
    (hnext : ∀ b, Accounts view gain (next b) (later b)) :
    Accounts view gain (p >>= next) (onward p later) := Accounts.bind (.nothing hp) hnext

/-- A program that meets nothing comes last. -/
theorem Accounts.bind_nothing {p : EStateM ε σ β} {next : β → EStateM ε σ α} {first : σ → List μ}
    (hp : Accounts view gain p first) (hnext : ∀ b, Guarantees (Leaves view) (next b)) :
    Accounts view gain (p >>= next) first := by
  intro s
  have hfirst := hp s
  rw [← hfirst, after_bind, after]
  cases p s with
  | ok b t => exact wp_after.mp (hnext b t)
  | error e t => rfl

/-! ### One place at most -/

/-- The place that is met after `p` has returned. -/
def leading (p : EStateM ε σ α) (later : α → σ → Option μ) (s : σ) : Option μ :=
  match p s with
  | .ok a t => later a t
  | .error _ _ => none

/-- A place that is met is met after what the program guarantees where it returns. -/
theorem exists_of_leading {p : EStateM ε σ α} {later : α → σ → Option μ} {s : σ} {m : μ}
    {Q : α → σ → Prop} {E : ε → σ → Prop} (hp : wp p Q E s) (h : leading p later s = some m) :
    ∃ a t, Q a t ∧ later a t = some m := by
  unfold wp at hp
  unfold leading at h
  cases hrun : p s with
  | ok a t =>
      rw [hrun] at hp h
      exact ⟨a, t, hp, h⟩
  | error e t =>
      rw [hrun] at h
      exact absurd h.symm (Option.some_ne_none m)

/-- From one state to the other within `R`, or within `R` to the start of the place and on to its
end. -/
def Arrives (R : σ → σ → Prop) (start finish : μ → σ) (s t : σ) : Option μ → Prop
  | none => R s t
  | some m => R s (start m) ∧ t = finish m

/-- The program keeps to `R`, or it comes to one place within `R` and ends where the place does. -/
def LeadsTo (R : σ → σ → Prop) (start finish : μ → σ) (p : EStateM ε σ α)
    (place : σ → Option μ) : Prop :=
  ∀ s, Arrives R start finish s (after p s) (place s)

section LeadsTo

variable {R : σ → σ → Prop} {start finish : μ → σ}

theorem Arrives.after_step (htrans : ∀ ⦃s t u⦄, R s t → R t u → R s u) {s t u : σ}
    {place : Option μ} (h : R s t) (h' : Arrives R start finish t u place) :
    Arrives R start finish s u place := by
  cases place with
  | none => exact htrans h h'
  | some m => exact ⟨htrans h h'.1, h'.2⟩

theorem Arrives.mono {R' : σ → σ → Prop} (hR : ∀ s t, R s t → R' s t) {s t : σ}
    {place : Option μ} (h : Arrives R start finish s t place) : Arrives R' start finish s t place := by
  cases place with
  | none => exact hR _ _ h
  | some m => exact ⟨hR _ _ h.1, h.2⟩

theorem LeadsTo.nowhere {p : EStateM ε σ α} (h : Guarantees R p) :
    LeadsTo R start finish p fun _ => none := fun s => wp_after.mp (h s)

/-- The program is itself the place. -/
theorem LeadsTo.here (hrefl : ∀ s, R s s) {p : EStateM ε σ α} {place : σ → μ}
    (hstart : ∀ s, start (place s) = s) (hfinish : ∀ s, finish (place s) = after p s) :
    LeadsTo R start finish p fun s => some (place s) := by
  intro s
  show R s (start (place s)) ∧ after p s = finish (place s)
  rw [hstart, hfinish]
  exact ⟨hrefl s, rfl⟩

theorem LeadsTo.bind (htrans : ∀ ⦃s t u⦄, R s t → R t u → R s u) {p : EStateM ε σ β}
    {next : β → EStateM ε σ α} {later : β → σ → Option μ} (hp : Guarantees R p)
    (hnext : ∀ b, LeadsTo R start finish (next b) (later b)) :
    LeadsTo R start finish (p >>= next) (leading p later) := by
  intro s
  have hfirst : R s (after p s) := wp_after.mp (hp s)
  rw [after_bind]
  unfold leading
  unfold after at hfirst
  cases hrun : p s with
  | ok b t =>
      rw [hrun] at hfirst
      exact (hnext b t).after_step htrans hfirst
  | error e t =>
      rw [hrun] at hfirst
      exact hfirst

/-- What comes last changes nothing. -/
theorem LeadsTo.bind_pure {p : EStateM ε σ β} {place : σ → Option μ} {a : α}
    (hp : LeadsTo R start finish p place) :
    LeadsTo R start finish (p >>= fun _ => pure a) place := by
  intro s
  have hafter : after (p >>= fun _ => pure a : EStateM ε σ α) s = after p s := by
    rw [after_bind, after]
    cases p s <;> rfl
  rw [hafter]
  exact hp s

/-- Where the place leads on to another one. -/
theorem Arrives.onward (htrans : ∀ ⦃s t u⦄, R s t → R t u → R s u) {start' finish' : ν → σ}
    {further : μ → Option ν}
    (hfurther : ∀ m, Arrives R start' finish' (start m) (finish m) (further m)) {s t : σ}
    {place : Option μ} (h : Arrives R start finish s t place) :
    Arrives R start' finish' s t (place.bind further) := by
  cases place with
  | none => exact h
  | some m =>
      obtain ⟨hstart, rfl⟩ := h
      exact (hfurther m).after_step htrans hstart

end LeadsTo

end Program
