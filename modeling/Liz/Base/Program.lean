import Mathlib.Logic.Function.Basic

/-!
# Programs whose state survives a failure

A method that borrows its receiver mutably and returns a result is a program in `EStateM`: when it
fails, what it did to the state before stays done. This file gives such programs their weakest
preconditions, one rule for each way of building a program, and the two ways of using a program in
a larger one: on a part of the state (`zoom`), and with the failure turned into a value (`attempt`).
-/

namespace Program

variable {ε δ σ τ α β : Type}

/-- The outcome of `p` started in `s` is a value with `Q` or a failure with `E`. -/
def wp (p : EStateM ε σ α) (Q : α → σ → Prop) (E : ε → σ → Prop) (s : σ) : Prop :=
  match p s with
  | .ok a s' => Q a s'
  | .error e s' => E e s'

/-- The state `p` leaves, whatever its outcome. -/
def after (p : EStateM ε σ α) (s : σ) : σ :=
  match p s with
  | .ok _ s' => s'
  | .error _ s' => s'

/-- The value `p` returns, when it does. -/
def result (p : EStateM ε σ α) (s : σ) : Option α :=
  match p s with
  | .ok a _ => some a
  | .error _ _ => none

/-- The value `p` returns, or its failure. -/
def outcome (p : EStateM ε σ α) (s : σ) : Except ε α :=
  match p s with
  | .ok a _ => .ok a
  | .error e _ => .error e

/-- A part of a larger state. -/
structure Part (τ σ : Type) where
  get : τ → σ
  set : σ → τ → τ
  get_set : ∀ s t, get (set s t) = s
  set_get : ∀ t, set (get t) t = t

/-- Runs a program on a part of the state. -/
def zoom (part : Part τ σ) (p : EStateM ε σ α) : EStateM ε τ α := fun t =>
  match p (part.get t) with
  | .ok a s => .ok a (part.set s t)
  | .error e s => .error e (part.set s t)

/-- Runs a program and hands its failure over as a value. -/
def attempt (p : EStateM ε σ α) : EStateM δ σ (Except ε α) := fun s =>
  match p s with
  | .ok a s' => .ok (.ok a) s'
  | .error e s' => .ok (.error e) s'

/-! ### Rules -/

variable {Q : α → σ → Prop} {E : ε → σ → Prop} {s : σ}

@[simp] theorem wp_pure (a : α) : wp (pure a : EStateM ε σ α) Q E s ↔ Q a s := Iff.rfl

@[simp] theorem wp_throw (e : ε) : wp (throw e : EStateM ε σ α) Q E s ↔ E e s := Iff.rfl

@[simp] theorem wp_get {Q : σ → σ → Prop} : wp (get : EStateM ε σ σ) Q E s ↔ Q s s := Iff.rfl

@[simp] theorem wp_set {Q : PUnit → σ → Prop} (t : σ) :
    wp (set t : EStateM ε σ PUnit) Q E s ↔ Q ⟨⟩ t := Iff.rfl

@[simp] theorem wp_modify {Q : PUnit → σ → Prop} (f : σ → σ) :
    wp (modify f : EStateM ε σ PUnit) Q E s ↔ Q ⟨⟩ (f s) := Iff.rfl

@[simp] theorem wp_modifyGet (f : σ → α × σ) :
    wp (modifyGet f : EStateM ε σ α) Q E s ↔ Q (f s).1 (f s).2 := Iff.rfl

@[simp] theorem wp_bind (p : EStateM ε σ β) (next : β → EStateM ε σ α) :
    wp (p >>= next) Q E s ↔ wp p (fun b => wp (next b) Q E) E s := by
  change (match EStateM.bind p next s with | .ok a s' => Q a s' | .error e s' => E e s') ↔ _
  unfold EStateM.bind wp
  cases p s <;> rfl

@[simp] theorem wp_map (f : β → α) (p : EStateM ε σ β) :
    wp (f <$> p) Q E s ↔ wp p (fun b => Q (f b)) E s := by
  change (match EStateM.map f p s with | .ok a s' => Q a s' | .error e s' => E e s') ↔ _
  unfold EStateM.map wp
  cases p s <;> rfl

@[simp] theorem wp_adaptExcept (f : ε → δ) {E : δ → σ → Prop} (p : EStateM ε σ α) :
    wp (EStateM.adaptExcept f p) Q E s ↔ wp p Q (fun e => E (f e)) s := by
  unfold EStateM.adaptExcept wp
  dsimp only
  cases p s <;> rfl

@[simp] theorem wp_zoom (part : Part τ σ) {Q : α → τ → Prop} {E : ε → τ → Prop}
    (p : EStateM ε σ α) (t : τ) :
    wp (zoom part p) Q E t
      ↔ wp p (fun a s => Q a (part.set s t)) (fun e s => E e (part.set s t)) (part.get t) := by
  unfold zoom wp
  dsimp only
  cases p (part.get t) <;> rfl

@[simp] theorem wp_attempt {Q : Except ε α → σ → Prop} {E : δ → σ → Prop} (p : EStateM ε σ α) :
    wp (attempt p : EStateM δ σ (Except ε α)) Q E s
      ↔ wp p (fun a => Q (.ok a)) (fun e => Q (.error e)) s := by
  unfold attempt wp
  dsimp only
  cases p s <;> rfl

theorem wp_mono {Q' : α → σ → Prop} {E' : ε → σ → Prop} {p : EStateM ε σ α}
    (h : wp p Q E s) (hQ : ∀ a t, Q a t → Q' a t) (hE : ∀ e t, E e t → E' e t) : wp p Q' E' s := by
  unfold wp at h ⊢
  cases hp : p s with
  | ok a t => rw [hp] at h; exact hQ a t h
  | error e t => rw [hp] at h; exact hE e t h

theorem wp_congr {Q' : α → σ → Prop} {E' : ε → σ → Prop} {p : EStateM ε σ α}
    (hQ : ∀ a t, Q a t ↔ Q' a t) (hE : ∀ e t, E e t ↔ E' e t) : wp p Q E s ↔ wp p Q' E' s :=
  ⟨fun h => wp_mono h (fun a t => (hQ a t).mp) fun e t => (hE e t).mp,
    fun h => wp_mono h (fun a t => (hQ a t).mpr) fun e t => (hE e t).mpr⟩

theorem wp_iff_of_ok {p : EStateM ε σ α} {t : σ} {a : α} (h : p s = .ok a t) :
    wp p Q E s ↔ Q a t := by
  rw [wp, h]

theorem wp_iff_of_error {p : EStateM ε σ α} {t : σ} {e : ε} (h : p s = .error e t) :
    wp p Q E s ↔ E e t := by
  rw [wp, h]

theorem wp_and {Q' : α → σ → Prop} {E' : ε → σ → Prop} {p : EStateM ε σ α}
    (h : wp p Q E s) (h' : wp p Q' E' s) :
    wp p (fun a t => Q a t ∧ Q' a t) (fun e t => E e t ∧ E' e t) s := by
  unfold wp at h h' ⊢
  cases hp : p s with
  | ok a t => rw [hp] at h h'; exact ⟨h, h'⟩
  | error e t => rw [hp] at h h'; exact ⟨h, h'⟩

theorem wp_of_result {p : EStateM ε σ α} {a : α} (h : wp p Q E s) (hresult : result p s = some a) :
    Q a (after p s) := by
  unfold wp at h
  unfold result at hresult
  unfold after
  cases hp : p s with
  | ok b t =>
      rw [hp] at h hresult
      exact Option.some.inj hresult ▸ h
  | error e t =>
      rw [hp] at hresult
      exact absurd hresult (by simp)

theorem wp_of_failed {p : EStateM ε σ α} (h : wp p Q E s) (hresult : result p s = none) :
    ∃ e, E e (after p s) := by
  unfold wp at h
  unfold result at hresult
  unfold after
  cases hp : p s with
  | ok b t =>
      rw [hp] at hresult
      exact absurd hresult (by simp)
  | error e t =>
      rw [hp] at h
      exact ⟨e, h⟩

theorem isSome_result_of_wp {p : EStateM ε σ α} (h : wp p Q (fun _ _ => False) s) :
    (result p s).isSome := by
  unfold wp at h
  unfold result
  cases hp : p s with
  | ok b t => rfl
  | error e t =>
      rw [hp] at h
      exact h.elim

/-- What a program returns and where it leads, in one statement. -/
theorem wp_run {p : EStateM ε σ α} {R : Option α → σ → Prop} :
    wp p (fun a => R (some a)) (fun _ => R none) s ↔ R (result p s) (after p s) := by
  unfold wp result after
  cases p s <;> rfl

theorem wp_trivial (p : EStateM ε σ α) : wp p (fun _ _ => True) (fun _ _ => True) s := by
  unfold wp
  cases p s <;> trivial

/-- A program whose value is not used leads where the program leads. -/
theorem after_ignored (p : EStateM ε σ α) :
    after (do let _ ← p : EStateM ε σ Unit) s = after p s := by
  show after (EStateM.bind p fun _ => EStateM.pure ()) s = after p s
  unfold after EStateM.bind
  cases p s <;> rfl

theorem isSome_result_ignored (p : EStateM ε σ α) :
    (result (do let _ ← p : EStateM ε σ Unit) s).isSome = (result p s).isSome := by
  show (result (EStateM.bind p fun _ => EStateM.pure ()) s).isSome = (result p s).isSome
  unfold result EStateM.bind
  cases p s <;> rfl

/-- A program that does not fail returns something. -/
theorem exists_ok_of_wp {p : EStateM ε σ α} (h : wp p Q (fun _ _ => False) s) :
    ∃ a t, p s = .ok a t ∧ Q a t := by
  unfold wp at h
  cases hp : p s with
  | ok a t => rw [hp] at h; exact ⟨a, t, rfl, h⟩
  | error e t => rw [hp] at h; exact h.elim

theorem wp_after {p : EStateM ε σ α} {R : σ → Prop} :
    wp p (fun _ => R) (fun _ => R) s ↔ R (after p s) := by
  unfold wp after
  cases p s <;> rfl

/-- A condition that is decided on the way: when what follows `p` meets `Q` exactly under `C`, the
whole program meets `Q` exactly when `p` leads to `C`. -/
theorem wp_bind_iff {p : EStateM ε σ β} {next : β → EStateM ε σ α} {Reached C : β → σ → Prop}
    {Failed D : ε → σ → Prop} (hp : wp p Reached Failed s)
    (hnext : ∀ b t, Reached b t → wp (next b) (fun a u => Q a u ↔ C b t) E t)
    (hfailed : ∀ e t, Failed e t → E e t) :
    wp (p >>= next) (fun a u => Q a u ↔ wp p C D s) E s := by
  rw [wp_bind]
  unfold wp at hp ⊢
  cases hrun : p s with
  | ok b t => rw [hrun] at hp; exact hnext b t hp
  | error e t => rw [hrun] at hp; exact hfailed e t hp

instance [∀ a t, Decidable (Q a t)] [∀ e t, Decidable (E e t)] (p : EStateM ε σ α) :
    Decidable (wp p Q E s) :=
  match h : p s with
  | .ok a t => decidable_of_iff (Q a t) (by rw [wp, h])
  | .error e t => decidable_of_iff (E e t) (by rw [wp, h])

/-! ### What every run of a program guarantees

A relation between the state before and the state after that every step of a program respects holds
of the whole program when it is reflexive and transitive. -/

/-- Whatever the outcome, the state before and the state after are related. -/
def Guarantees (R : σ → σ → Prop) (p : EStateM ε σ α) : Prop :=
  ∀ s, wp p (fun _ => R s) (fun _ => R s) s

section Guarantees

variable {R : σ → σ → Prop}

theorem Guarantees.pure (hrefl : ∀ s, R s s) (a : α) : Guarantees R (pure a : EStateM ε σ α) :=
  fun s => hrefl s

theorem Guarantees.throw (hrefl : ∀ s, R s s) (e : ε) :
    Guarantees R (throw e : EStateM ε σ α) := fun s => hrefl s

theorem Guarantees.get (hrefl : ∀ s, R s s) : Guarantees R (get : EStateM ε σ σ) :=
  fun s => hrefl s

theorem Guarantees.modify {f : σ → σ} (h : ∀ s, R s (f s)) :
    Guarantees R (modify f : EStateM ε σ PUnit) := fun s => h s

theorem Guarantees.modifyGet {f : σ → α × σ} (h : ∀ s, R s (f s).2) :
    Guarantees R (modifyGet f : EStateM ε σ α) := fun s => h s

theorem Guarantees.bind (htrans : ∀ ⦃s t u⦄, R s t → R t u → R s u) {p : EStateM ε σ β}
    {next : β → EStateM ε σ α} (hp : Guarantees R p) (hnext : ∀ b, Guarantees R (next b)) :
    Guarantees R (p >>= next) := by
  intro s
  rw [wp_bind]
  refine wp_mono (hp s) (fun b t hst => ?_) (fun _ _ h => h)
  exact wp_mono (hnext b t) (fun _ _ h => htrans hst h) (fun _ _ h => htrans hst h)

theorem Guarantees.attempt {p : EStateM ε σ α} (hp : Guarantees R p) :
    Guarantees R (attempt p : EStateM δ σ (Except ε α)) := by
  intro s
  rw [wp_attempt]
  exact hp s

theorem Guarantees.zoom {R : τ → τ → Prop} (part : Part τ σ) {p : EStateM ε σ α}
    (h : ∀ t s, R t (part.set s t)) : Guarantees R (Program.zoom part p) := by
  intro t
  rw [wp_zoom]
  unfold wp
  split
  · exact h t _
  · exact h t _

theorem Guarantees.mono {R' : σ → σ → Prop} {p : EStateM ε σ α} (hp : Guarantees R p)
    (h : ∀ s t, R s t → R' s t) : Guarantees R' p := fun s =>
  wp_mono (hp s) (fun _ t => h s t) (fun _ t => h s t)

end Guarantees

/-! ### Programs that do not fail -/

/-- The program returns, and the state before and the state after are related. -/
def Always (R : σ → σ → Prop) (p : EStateM ε σ α) : Prop :=
  ∀ s, wp p (fun _ => R s) (fun _ _ => False) s

section Always

variable {R : σ → σ → Prop}

theorem Always.guarantees {p : EStateM ε σ α} (hp : Always R p) : Guarantees R p := fun s =>
  wp_mono (hp s) (fun _ _ h => h) (fun _ _ h => h.elim)

theorem Always.pure (hrefl : ∀ s, R s s) (a : α) : Always R (pure a : EStateM ε σ α) :=
  fun s => hrefl s

theorem Always.get (hrefl : ∀ s, R s s) : Always R (get : EStateM ε σ σ) :=
  fun s => hrefl s

theorem Always.modify {f : σ → σ} (h : ∀ s, R s (f s)) :
    Always R (modify f : EStateM ε σ PUnit) := fun s => h s

theorem Always.modifyGet {f : σ → α × σ} (h : ∀ s, R s (f s).2) :
    Always R (modifyGet f : EStateM ε σ α) := fun s => h s

theorem Always.bind (htrans : ∀ ⦃s t u⦄, R s t → R t u → R s u) {p : EStateM ε σ β}
    {next : β → EStateM ε σ α} (hp : Always R p) (hnext : ∀ b, Always R (next b)) :
    Always R (p >>= next) := by
  intro s
  rw [wp_bind]
  refine wp_mono (hp s) (fun b t hst => ?_) (fun _ _ h => h)
  exact wp_mono (hnext b t) (fun _ _ h => htrans hst h) (fun _ _ h => h)

end Always

/-! ### What a program returns -/

/-- The program returns, and its value has the property. -/
def Gives (P : α → Prop) (p : EStateM ε σ α) : Prop :=
  ∀ s, wp p (fun a _ => P a) (fun _ _ => False) s

section Gives

variable {P : α → Prop} {P' : β → Prop}

theorem Gives.pure {a : α} (h : P a) : Gives P (pure a : EStateM ε σ α) := fun _ => h

theorem Gives.of_always {R : σ → σ → Prop} {p : EStateM ε σ α} (h : Always R p) :
    Gives (fun _ => True) p := fun s =>
  wp_mono (h s) (fun _ _ _ => trivial) (fun _ _ h => h)

theorem Gives.mono {P' : α → Prop} {p : EStateM ε σ α} (h : Gives P' p) (himp : ∀ a, P' a → P a) :
    Gives P p := fun s => wp_mono (h s) (fun a _ ha => himp a ha) (fun _ _ h => h)

theorem Gives.bind {p : EStateM ε σ β} {next : β → EStateM ε σ α} (hp : Gives P' p)
    (hnext : ∀ b, P' b → Gives P (next b)) : Gives P (p >>= next) := by
  intro s
  rw [wp_bind]
  exact wp_mono (hp s) (fun b t hb => hnext b hb t) (fun _ _ h => h)

/-- What follows a program matters only for the values that the program returns. -/
theorem Gives.bind_congr {p : EStateM ε σ β} {next next' : β → EStateM ε σ α}
    (hp : Gives P' p) (h : ∀ b, P' b → next b = next' b) : p >>= next = p >>= next' := by
  funext s
  have hs := hp s
  show EStateM.bind p next s = EStateM.bind p next' s
  unfold EStateM.bind
  unfold wp at hs
  cases hrun : p s with
  | ok b t => rw [hrun] at hs; exact congrFun (h b hs) t
  | error e t => rfl

end Gives

end Program
