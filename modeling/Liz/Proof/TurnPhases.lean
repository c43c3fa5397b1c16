import Liz.Base.Monitors
import Liz.Server.Requests
import Mathlib.Logic.Function.Basic

/-!
# The protocol of a turn

A turn is unheard of until it is started, it runs until it ends, and then it is over. The events
that name a turn are read by a monitor that keeps the phases of all turns. A client's tool call is
published under any turn that the client names, so it may also come for a turn that is unheard of;
everything else is published by the processing of the turn itself.
-/

namespace Liz

inductive TurnPhase
  | unheard | running | closed
  deriving DecidableEq, Repr

/-- The phase after an event of the turn, which may be the turn's `own` or not. -/
def TurnPhase.next (own : Bool) : TurnPhase → TurnEventRole → Option TurnPhase
  | .unheard, .start => some .running
  | .unheard, .other => if own then none else some .unheard
  | .running, .stream => some .running
  | .running, .other => some .running
  | .running, .terminal => some .closed
  | .closed, .other => some .closed
  | _, _ => none

/-- The phases of all turns. -/
abbrev TurnPhases := TurnId → TurnPhase

/-- The phases after an event, unless it breaks the protocol of its turn. -/
def hear (own : Bool) (phases : TurnPhases) (event : PendingEvent) : Option TurnPhases :=
  match event.turnId with
  | none => some phases
  | some turnId =>
      ((phases turnId).next own event.payload.role).map (Function.update phases turnId)

/-- Whether the processing of a turn publishes what is published for the request. -/
def ClientRequest.own : ClientRequest → Bool
  | .toolCall _ => false
  | _ => true

/-- An event, with the request that was being handled when it was published. -/
structure Publication where
  request : ClientRequest
  event : PendingEvent

namespace Publication

def hear (phases : TurnPhases) (publication : Publication) : Option TurnPhases :=
  Liz.hear publication.request.own phases publication.event

/-- The event plays the part in the life of the turn. -/
def plays (publication : Publication) (turnId : TurnId) (role : TurnEventRole) : Bool :=
  publication.event.turnId = some turnId ∧ publication.event.payload.role = role

@[simp] theorem plays_eq_true {publication : Publication} {turnId : TurnId} {role : TurnEventRole} :
    publication.plays turnId role = true ↔
      publication.event.turnId = some turnId ∧ publication.event.payload.role = role :=
  decide_eq_true_iff

end Publication

section Runs

variable [World]

/-- The stream of what is published while requests are handled one after the other. -/
def AppServer.publications (s : AppServer) (inputs : List ServerInput) : List Publication :=
  (Runs.moments AppServer.step s inputs).flatMap fun m =>
    (m.1.newEvents m.2).map (Publication.mk m.2.request)

end Runs

/-- In the stream the turn starts once at most, all that it publishes itself comes after its start,
it ends once at most, and nothing of the model is streamed for it after its end. -/
structure TurnProtocol (turnId : TurnId) (stream : List Publication) : Prop where
  startsOnce : stream.countP (·.plays turnId .start) ≤ 1
  startsFirst : ∀ before publication later, stream = before ++ publication :: later →
    publication.request.own = true → publication.event.turnId = some turnId →
      publication.event.payload.role ≠ .start → ∃ start ∈ before, start.plays turnId .start
  endsOnce : stream.countP (·.plays turnId .terminal) ≤ 1
  silentAfterEnd : ∀ before publication later, stream = before ++ publication :: later →
    publication.plays turnId .terminal → ∀ other ∈ later, ¬ other.plays turnId .stream

theorem Publication.run_map (request : ClientRequest) (phases : TurnPhases)
    (events : List PendingEvent) :
    Monitors.run Publication.hear phases (events.map (Publication.mk request)) =
      Monitors.run (Liz.hear request.own) phases events :=
  List.foldlM_map ..

/-! ### One event -/

section Hearing

variable {own : Bool} {phases after : TurnPhases} {event : PendingEvent} {turnId : TurnId}

theorem hear_of_turnless (h : event.turnId = none) : hear own phases event = some phases := by
  rw [hear, h]

theorem hear_of_turn (h : event.turnId = some turnId) :
    hear own phases event =
      ((phases turnId).next own event.payload.role).map (Function.update phases turnId) := by
  rw [hear, h]

/-- An event that leaves the phase of its turn leaves all phases. -/
theorem hear_eq_self (h : event.turnId = some turnId)
    (hnext : (phases turnId).next own event.payload.role = some (phases turnId)) :
    hear own phases event = some phases := by
  rw [hear_of_turn h, hnext, Option.map_some, Function.update_eq_self]

/-- What happens to the phase of a turn when one of its events is heard. -/
theorem next_of_hear (h : hear own phases event = some after) (hturn : event.turnId = some turnId) :
    (phases turnId).next own event.payload.role = some (after turnId) := by
  rw [hear_of_turn hturn] at h
  obtain ⟨phase, hnext, rfl⟩ := Option.map_eq_some_iff.mp h
  rw [hnext, Function.update_self]

/-- An event of no turn or of another turn does not change the phase of this one. -/
theorem phase_of_hear (h : hear own phases event = some after)
    (hturn : event.turnId ≠ some turnId) : after turnId = phases turnId := by
  cases hevent : event.turnId with
  | none =>
      rw [hear_of_turnless hevent] at h
      rw [Option.some.inj h]
  | some other =>
      rw [hear_of_turn hevent] at h
      obtain ⟨phase, -, rfl⟩ := Option.map_eq_some_iff.mp h
      have hne : turnId ≠ other := fun heq => hturn (heq ▸ hevent)
      exact Function.update_of_ne hne _ _

/-- What holds of the next phase of every turn that was heard of before. -/
theorem phase_cases {P : TurnPhase → Prop} (h : hear own phases event = some after)
    (hP : P (phases turnId))
    (hnext : ∀ role phase, (phases turnId).next own role = some phase → P phase) :
    P (after turnId) := by
  by_cases hturn : event.turnId = some turnId
  · exact hnext _ _ (next_of_hear h hturn)
  · rwa [phase_of_hear h hturn]

end Hearing

/-! ### What a monitored stream is like -/

section Monitored

variable {turnId : TurnId} {stream : List Publication} {phases after : TurnPhases}

/-- A turn that has been heard of stays so. -/
theorem stays_heard (phases : TurnPhases) (publication : Publication) (after : TurnPhases)
    (hphase : phases turnId ≠ .unheard) (h : publication.hear phases = some after) :
    after turnId ≠ .unheard := by
  apply phase_cases (P := (· ≠ .unheard)) h hphase
  intro role phase hnext hunheard
  rw [hunheard] at hnext
  cases hbefore : phases turnId with
  | unheard => exact hphase hbefore
  | running | closed =>
      rw [hbefore] at hnext
      cases role <;> cases hnext

/-- A turn that is over stays so. -/
theorem stays_over (phases : TurnPhases) (publication : Publication) (after : TurnPhases)
    (hphase : phases turnId = .closed) (h : publication.hear phases = some after) :
    after turnId = .closed := by
  apply phase_cases (P := (· = .closed)) h hphase
  intro role phase hnext
  rw [hphase] at hnext
  cases role <;> cases hnext
  rfl

/-- An event of the turn that its phase does not expect is refused. -/
theorem refused {publication : Publication} {role : TurnEventRole} (h : publication.plays turnId role)
    (hnext : (phases turnId).next publication.request.own role = none) :
    publication.hear phases = none := by
  obtain ⟨hturn, rfl⟩ := Publication.plays_eq_true.mp h
  rw [Publication.hear, hear_of_turn hturn, hnext, Option.map_none]

theorem next_of_plays {publication : Publication} {role : TurnEventRole}
    (hplays : publication.plays turnId role) (h : publication.hear phases = some after) :
    (phases turnId).next publication.request.own role = some (after turnId) := by
  obtain ⟨hturn, rfl⟩ := Publication.plays_eq_true.mp hplays
  exact next_of_hear h hturn

/-- A turn that is started was unheard of, and runs. -/
theorem start_of_hear {publication : Publication} (hplays : publication.plays turnId .start)
    (h : publication.hear phases = some after) :
    phases turnId = .unheard ∧ after turnId = .running := by
  have hnext := next_of_plays hplays h
  cases hphase : phases turnId <;> simp_all [TurnPhase.next]

/-- A turn that ends was running, and is over. -/
theorem terminal_of_hear {publication : Publication} (hplays : publication.plays turnId .terminal)
    (h : publication.hear phases = some after) :
    phases turnId = .running ∧ after turnId = .closed := by
  have hnext := next_of_plays hplays h
  cases hphase : phases turnId <;> simp_all [TurnPhase.next]

/-- An event that its turn publishes itself is its start, or the turn has been heard of. -/
theorem heard_of_own {publication : Publication} (hown : publication.request.own = true)
    (hturn : publication.event.turnId = some turnId)
    (hrole : publication.event.payload.role ≠ .start) (h : publication.hear phases = some after) :
    phases turnId ≠ .unheard := by
  intro hphase
  have hnext := next_of_hear h hturn
  rw [hphase, hown] at hnext
  cases hplayed : publication.event.payload.role <;> simp_all [TurnPhase.next]

/-- A turn that is heard of for the first time is started. -/
theorem plays_start_of_entry {publication : Publication} (hbefore : ¬ phases turnId ≠ .unheard)
    (h : publication.hear phases = some after) (hafter : after turnId ≠ .unheard) :
    publication.plays turnId .start := by
  have hphase := Decidable.not_not.mp hbefore
  have hturn : publication.event.turnId = some turnId := by
    by_contra hother
    exact hafter ((phase_of_hear h hother).trans hphase)
  have hnext := next_of_hear h hturn
  rw [hphase] at hnext
  apply Publication.plays_eq_true.mpr
  cases hrole : publication.event.payload.role <;> simp_all [TurnPhase.next]

/-- A stream that the monitor reads to its end, from no turn heard of, keeps the protocol. -/
theorem turnProtocol_of_run
    (h : Monitors.run Publication.hear (fun _ => .unheard) stream = some after) (turnId : TurnId) :
    TurnProtocol turnId stream where
  startsOnce := by
    apply Monitors.countP_le_one (S := fun phases => phases turnId ≠ .unheard) stays_heard _ _ h
    · intro phases publication hphase hplays
      apply refused hplays
      cases hp : phases turnId <;> simp_all [TurnPhase.next]
    · intro phases publication next hplays hhear
      rw [(start_of_hear hplays hhear).2]
      decide
  startsFirst := by
    intro before publication later heq hown hturn hrole
    rw [heq] at h
    obtain ⟨phases, next, hbefore, hhear, -⟩ := Monitors.run_split h
    have hheard := heard_of_own hown hturn hrole hhear
    obtain ⟨_, start, hstart, _, hunheard, hfirst, hentered⟩ :=
      Monitors.exists_entry (S := fun phases => phases turnId ≠ .unheard) hbefore (· rfl) hheard
    exact ⟨start, hstart, plays_start_of_entry hunheard hfirst hentered⟩
  endsOnce := by
    apply Monitors.countP_le_one (S := fun phases => phases turnId = .closed) stays_over _ _ h
    · intro phases publication hphase hplays
      apply refused hplays
      rw [hphase]
      rfl
    · intro phases publication next hplays hhear
      exact (terminal_of_hear hplays hhear).2
  silentAfterEnd := by
    intro before publication later heq hplays
    rw [heq] at h
    obtain ⟨phases, next, -, hhear, hlater⟩ := Monitors.run_split h
    apply Monitors.never (S := fun phases => phases turnId = .closed) stays_over _ hlater
      (terminal_of_hear hplays hhear).2
    intro phases other hphase hstream
    apply refused hstream
    rw [hphase]
    rfl

end Monitored

end Liz
