import Liz.Proof.ConnectionStreams
import Liz.Proof.ServerAnswers

/-!
# Requests are answered

A loop that waits for the server waits for another loop, and that one waits for nobody: it has the
server, and only the gateway can keep it. So a request that has been read can be answered at any
time, whatever the clients do.
-/

namespace Liz

/-- The loop has the server, which waits for its gateway. -/
def LoopPhase.stalled : LoopPhase → Bool
  | .handling _ none | .publishing _ _ none => true
  | _ => false

/-- The loop has the server handle a request. -/
def LoopPhase.handles : LoopPhase → Bool
  | .handling _ _ => true
  | _ => false

/-- No client sends anything in the step. -/
def ConnectionStep.isQuiet : ConnectionStep → Bool
  | .read _ _ => false
  | _ => true

namespace WebSocketServer

/-- Who has the server is at work with it, and events are sent only by a loop that has it. -/
structure Manned (s : WebSocketServer) : Prop where
  held : ∀ c, s.lock = some c → (s.connections c).phase.holds = true
  sending : ∀ delivery, s.bus.sending = some delivery →
    ∃ c, s.lock = some c ∧ (s.connections c).phase.handles = true

section Manned

variable {s : WebSocketServer} {c : ConnectionId} {connection : Connection}

theorem manned_new (server : AppServer) (start : Nat) :
    (WebSocketServer.new server start).Manned where
  held c hlock := by cases hlock
  sending delivery hsending := by cases hsending

theorem Manned.idle (h : s.Manned) (hfree : s.lock = none) : s.bus.sending = none := by
  cases hsending : s.bus.sending with
  | none => rfl
  | some delivery =>
      obtain ⟨c, hlock, -⟩ := h.sending delivery hsending
      rw [hfree] at hlock
      cases hlock

theorem update_self : (s.update c connection).connections c = connection := by
  show Function.update s.connections c connection c = connection
  exact Function.update_self c connection s.connections

theorem update_of_ne {d : ConnectionId} (h : d ≠ c) :
    (s.update c connection).connections d = s.connections d := by
  show Function.update s.connections c connection d = s.connections d
  exact Function.update_of_ne h connection s.connections

theorem update_field {α : Type} (f : Connection → α) (h : f connection = f (s.connections c))
    (d : ConnectionId) : f ((s.update c connection).connections d) = f (s.connections d) := by
  by_cases hd : d = c
  · subst hd
    rw [update_self, h]
  · rw [update_of_ne hd]

theorem deliver_field {α : Type} (f : Connection → α) (event : NumberedEvent) (d : ConnectionId)
    (left : List ConnectionId)
    (h : ∀ connection queue, f { connection with queue := queue } = f connection)
    (e : ConnectionId) : f ((s.deliver event d left).connections e) = f (s.connections e) := by
  unfold WebSocketServer.deliver
  split
  · exact update_field f (h (s.connections d) ((s.connections d).queue ++ [event])) e
  · rfl

theorem deliver_phase (event : NumberedEvent) (d : ConnectionId) (left : List ConnectionId)
    (e : ConnectionId) :
    ((s.deliver event d left).connections e).phase = (s.connections e).phase :=
  deliver_field Connection.phase event d left (fun _ _ => rfl) e

/-- A step that no loop takes. -/
theorem Manned.of_phases (h : s.Manned) {t : WebSocketServer}
    (hphases : ∀ d, (t.connections d).phase = (s.connections d).phase) (hlock : t.lock = s.lock)
    (hsending : t.bus.sending.isSome = true → s.bus.sending.isSome = true) : t.Manned where
  held d hd := by
    rw [hphases]
    exact h.held d (hlock ▸ hd)
  sending delivery hdelivery := by
    obtain ⟨before, hbefore⟩ := Option.isSome_iff_exists.mp (hsending (by rw [hdelivery]; rfl))
    obtain ⟨d, hd, hphase⟩ := h.sending before hbefore
    exact ⟨d, hlock.trans hd, (hphases d).symm ▸ hphase⟩

/-- A step while the bus sends nothing. -/
theorem Manned.of_silent {t : WebSocketServer} (hsending : t.bus.sending = none)
    (hheld : ∀ d, t.lock = some d → (t.connections d).phase.holds = true) : t.Manned where
  held := hheld
  sending delivery hdelivery := by
    rw [hsending] at hdelivery
    cases hdelivery

/-- A loop that takes the server, or that has it, goes on with it. -/
theorem held_update (hnext : connection.phase.holds = true) {lock : Option ConnectionId}
    (hothers : ∀ d, d ≠ c → lock = some d → (s.connections d).phase.holds = true)
    (d : ConnectionId) (hlock : lock = some d) :
    ((s.update c connection).connections d).phase.holds = true := by
  by_cases hd : d = c
  · subst hd
    rw [update_self, hnext]
  · rw [update_of_ne hd]
    exact hothers d hd hlock

theorem holds_of_handles {phase : LoopPhase} (h : phase.handles = true) : phase.holds = true := by
  cases phase <;> first | rfl | cases h

/-- A loop without the server takes its next step. -/
theorem Manned.alone (h : s.Manned) (hidle : (s.connections c).phase.holds = false) :
    (s.update c connection).Manned where
  held d hlock := by
    have hholds := h.held d hlock
    have hd : d ≠ c := by
      rintro rfl
      rw [hidle] at hholds
      cases hholds
    rw [update_of_ne hd, hholds]
  sending delivery hsending := by
    obtain ⟨d, hlock, hphase⟩ := h.sending delivery hsending
    have hd : d ≠ c := by
      rintro rfl
      rw [holds_of_handles hphase] at hidle
      cases hidle
    refine ⟨d, hlock, ?_⟩
    rw [update_of_ne hd, hphase]

variable [World] {start : Nat}

theorem Manned.act (h : s.Manned) (hsound : s.Sound start) {next : ConnectionStep}
    {t : WebSocketServer} (hact : s.act c next = some t) : t.Manned := by
  have htaken : ∀ d, d ≠ c → some c = some d → (s.connections d).phase.holds = true :=
    fun d hd hlock => absurd (Option.some.inj hlock).symm hd
  cases acts_of_act hact with
  | accept hphase | flushed hphase | flush hphase | wait hphase | read hphase | disconnect hphase
  | respond hphase => exact h.alone (by rw [hphase]; rfl)
  | join hfree | begin hfree => exact .of_silent (h.idle hfree) (held_update rfl htaken)
  | subscribe hsending | number hsending =>
      exact .of_silent hsending (held_update rfl fun d _ => h.held d)
  | publish hsending hphase =>
      have hlock : s.lock = some c := hsound.holder c (by rw [hphase]; rfl)
      refine ⟨held_update rfl fun d _ => h.held d, fun _ _ => ⟨c, hlock, ?_⟩⟩
      show ((s.update c _).connections c).phase.handles = true
      rw [update_self]
      rfl
  | @deliver event d left _ _ hsending =>
      apply h.of_phases (deliver_phase event d left)
      · unfold WebSocketServer.deliver
        split <;> rfl
      · intro _
        rw [hsending]
        rfl
  | delivered => exact .of_silent rfl h.held
  | leave hsending | unlock hsending => exact .of_silent hsending fun d hlock => by cases hlock
  | receive | drop | pass | stop => exact h.of_phases (update_field Connection.phase rfl) rfl id

end Manned

/-! ### What can be done next -/

/-- What holds between any two steps. -/
structure Kept [World] (start : Nat) (s : WebSocketServer) : Prop where
  sound : s.Sound start
  manned : s.Manned

section Progress

variable [World] {start : Nat} {s t : WebSocketServer} {c d : ConnectionId}

theorem Kept.act (h : s.Kept start) {next : ConnectionStep} (hact : s.act c next = some t) :
    t.Kept start := ⟨h.sound.act hact, h.manned.act h.sound hact⟩

theorem Kept.step (h : s.Kept start) (next : ConnectionId × ConnectionStep) :
    (s.step next).Kept start := by
  unfold WebSocketServer.step
  cases hact : s.act next.1 next.2 with
  | none => exact h
  | some t => exact h.act hact

theorem kept_new (server : AppServer) : (WebSocketServer.new server start).Kept start :=
  ⟨sound_new server, manned_new server start⟩

/-- The threads can get to a state with the property while no client sends anything. -/
abbrev Can (s : WebSocketServer) (P : WebSocketServer → Prop) : Prop :=
  Runs.Leads WebSocketServer.step (fun next => next.2.isQuiet = true) s P

/-- A thread takes a step that it can take. -/
theorem Can.act {P : WebSocketServer → Prop} {next : ConnectionStep}
    (hact : s.act c next = some t) (hquiet : next.isQuiet = true) (h : t.Can P) : s.Can P := by
  apply Runs.Leads.head (i := (c, next)) hquiet
  rw [WebSocketServer.step, hact]
  exact h

/-- The loops of other connections are where they were. -/
def Others (c : ConnectionId) (s t : WebSocketServer) : Prop :=
  ∀ d, d ≠ c → (t.connections d).phase = (s.connections d).phase

omit [World] in
theorem others_update {connection : Connection} : Others c s (s.update c connection) := by
  intro d hd
  rw [update_of_ne hd]

omit [World] in
theorem Others.trans {u : WebSocketServer} (h : Others c s t) (h' : Others c t u) :
    Others c s u := fun d hd => (h' d hd).trans (h d hd)

/-- An event that is being sent gets to all subscribers. -/
theorem can_deliver {remaining : List PendingEvent} {response : Option ServerResponseEnvelope}
    {event : NumberedEvent} (left : List ConnectionId) (h : s.Kept start)
    (hsending : s.bus.sending = some (event, left))
    (hphase : (s.connections c).phase = .handling remaining response) :
    s.Can fun t => t.Kept start ∧ Others c s t ∧ t.bus.sending = none ∧
      (t.connections c).phase = .handling remaining response := by
  induction left generalizing s with
  | nil =>
      have hact : s.act c .deliver = some { s with bus := { s.bus with sending := none } } := by
        simp only [WebSocketServer.act, hsending, hphase]
      exact .act hact rfl (.refl ⟨h.act hact, fun _ _ => rfl, rfl, hphase⟩)
  | cons d left ih =>
      have hact : s.act c .deliver = some (s.deliver event d left) := by
        simp only [WebSocketServer.act, hsending, hphase]
      have hnext : (s.deliver event d left).bus.sending = some (event, left) := by
        unfold WebSocketServer.deliver
        split <;> rfl
      apply Can.act hact rfl
      apply (ih (h.act hact) hnext ((deliver_phase event d left c).trans hphase)).trans
      rintro t ⟨hkept, hothers, hrest⟩
      exact .refl ⟨hkept, fun e he => (hothers e he).trans (deliver_phase event d left e), hrest⟩

/-- An event that has its number is published. -/
theorem can_publish {event : NumberedEvent} {remaining : List PendingEvent}
    {response : Option ServerResponseEnvelope} (h : s.Kept start) (hsending : s.bus.sending = none)
    (hphase : (s.connections c).phase = .publishing event remaining response) :
    s.Can fun t => t.Kept start ∧ Others c s t ∧ t.bus.sending = none ∧
      (t.connections c).phase = .handling remaining response := by
  let after : WebSocketServer :=
    { s.update c ((s.connections c).to (.handling remaining response)) with
      bus := { s.bus with
        sending := some (event, s.bus.subscribers), published := s.bus.published ++ [event] } }
  have hact : s.act c .publish = some after := by
    simp only [WebSocketServer.act, hsending, hphase, after]
  have hself : (after.connections c).phase = .handling remaining response := by
    show ((s.update c _).connections c).phase = _
    rw [update_self]
    rfl
  apply Can.act hact rfl
  apply (can_deliver s.bus.subscribers (h.act hact) rfl hself).trans
  rintro t ⟨hkept, hothers, hrest⟩
  have hfirst : Others c s after := others_update
  exact .refl ⟨hkept, hfirst.trans hothers, hrest⟩

/-- A request whose response is there is handled to its end. -/
theorem can_handle {response : ServerResponseEnvelope} (remaining : List PendingEvent)
    (h : s.Kept start) (hsending : s.bus.sending = none)
    (hphase : (s.connections c).phase = .handling remaining (some response)) :
    s.Can fun t => t.Kept start ∧ Others c s t ∧ t.lock = none ∧
      (t.connections c).phase = .responding response := by
  induction remaining generalizing s with
  | nil =>
      have hact : s.act c .unlock =
          some { s.update c ((s.connections c).to (.responding response)) with lock := none } := by
        simp only [WebSocketServer.act, hsending, hphase]
      refine .act hact rfl (.refl ⟨h.act hact, others_update, rfl, ?_⟩)
      show ((s.update c _).connections c).phase = _
      rw [update_self]
      rfl
  | cons event remaining ih =>
      let numbered : NumberedEvent := { event with sequence := s.bus.sequence + 1 }
      let after : WebSocketServer :=
        { s.update c ((s.connections c).to (.publishing numbered remaining (some response))) with
          bus := { s.bus with sequence := s.bus.sequence + 1 } }
      have hact : s.act c .number = some after := by
        simp only [WebSocketServer.act, hsending, hphase, after, numbered]
      have hself : (after.connections c).phase = .publishing numbered remaining (some response) := by
        show ((s.update c _).connections c).phase = _
        rw [update_self]
        rfl
      have hfirst : Others c s after := others_update
      apply Can.act hact rfl
      apply (can_publish (h.act hact) hsending hself).trans
      rintro t ⟨hkept, hothers, hidle, hhandling⟩
      apply (ih hkept hidle hhandling).trans
      rintro u ⟨hlast, hlater, hrest⟩
      exact .refl ⟨hlast, hfirst.trans (hothers.trans hlater), hrest⟩

/-- While the bus sends an event, the loop that has the server handles a request. -/
theorem Kept.idle (h : s.Kept start) (hholds : (s.connections c).phase.holds = true)
    (hphase : (s.connections c).phase.handles = false) : s.bus.sending = none := by
  cases hsending : s.bus.sending with
  | none => rfl
  | some delivery =>
      obtain ⟨d, hlock, hhandles⟩ := h.manned.sending delivery hsending
      have hsame : c = d := Option.some.inj ((h.sound.holder c hholds).symm.trans hlock)
      rw [hsame, hhandles] at hphase
      cases hphase

/-- Unless it waits for the gateway, a loop that handles a request gets to its response. -/
theorem can_finish (h : s.Kept start) {remaining : List PendingEvent}
    {response : ServerResponseEnvelope}
    (hphase : (s.connections c).phase = .handling remaining (some response)) :
    s.Can fun t => t.Kept start ∧ Others c s t ∧ t.lock = none ∧
      (t.connections c).phase = .responding response := by
  cases hsending : s.bus.sending with
  | none => exact can_handle remaining h hsending hphase
  | some delivery =>
      apply (can_deliver delivery.2 h hsending hphase).trans
      rintro t ⟨hkept, hothers, hidle, hhandling⟩
      apply (can_handle remaining hkept hidle hhandling).trans
      rintro u ⟨hlast, hlater, hrest⟩
      exact .refl ⟨hlast, hothers.trans hlater, hrest⟩

/-- The same for a loop that publishes. -/
theorem can_finish_publishing (h : s.Kept start) {event : NumberedEvent}
    {remaining : List PendingEvent} {response : ServerResponseEnvelope}
    (hphase : (s.connections c).phase = .publishing event remaining (some response)) :
    s.Can fun t => t.Kept start ∧ Others c s t ∧ t.lock = none ∧
      (t.connections c).phase = .responding response := by
  have hsending := h.idle (by rw [hphase]; rfl) (by rw [hphase]; rfl)
  apply (can_publish h hsending hphase).trans
  rintro t ⟨hkept, hothers, hidle, hhandling⟩
  apply (can_handle remaining hkept hidle hhandling).trans
  rintro u ⟨hlast, hlater, hrest⟩
  exact .refl ⟨hlast, hothers.trans hlater, hrest⟩

/-- A loop that has subscribed lets go of the server. -/
theorem can_leave (h : s.Kept start) (hphase : (s.connections c).phase = .subscribed) :
    s.Can fun t => t.Kept start ∧ Others c s t ∧ t.lock = none := by
  have hsending := h.idle (by rw [hphase]; rfl) (by rw [hphase]; rfl)
  have hact : s.act c .unlock =
      some { s.update c ((s.connections c).to .flushing) with lock := none } := by
    simp only [WebSocketServer.act, hsending, hphase]
  exact .act hact rfl (.refl ⟨h.act hact, others_update, rfl⟩)

/-- Whatever loop has the server, unless it waits for the gateway it can let go of it. -/
theorem can_release (h : s.Kept start) (hholds : (s.connections c).phase.holds = true)
    (hanswered : (s.connections c).phase.stalled = false) :
    s.Can fun t => t.Kept start ∧ Others c s t ∧ t.lock = none := by
  cases hphase : (s.connections c).phase with
  | subscribing =>
      have hsending := h.idle hholds (by rw [hphase]; rfl)
      let after : WebSocketServer :=
        { s.update c { s.connections c with
            phase := .subscribed, listening := true, subscribedAt := s.bus.published.length } with
          bus := { s.bus with subscribers := s.bus.subscribers ++ [c] } }
      have hact : s.act c .subscribe = some after := by
        simp only [WebSocketServer.act, hsending, hphase, after]
      have hself : (after.connections c).phase = .subscribed := by
        show ((s.update c _).connections c).phase = _
        rw [update_self]
      have hfirst : Others c s after := others_update
      apply Can.act hact rfl
      apply (can_leave (h.act hact) hself).trans
      rintro t ⟨hkept, hothers, hfree⟩
      exact .refl ⟨hkept, hfirst.trans hothers, hfree⟩
  | subscribed => exact can_leave h hphase
  | handling remaining response =>
      rw [hphase] at hanswered
      cases response with
      | none => cases hanswered
      | some response =>
          apply (can_finish h hphase).trans
          rintro t ⟨hkept, hothers, hfree, _⟩
          exact .refl ⟨hkept, hothers, hfree⟩
  | publishing event remaining response =>
      rw [hphase] at hanswered
      cases response with
      | none => cases hanswered
      | some response =>
          apply (can_finish_publishing h hphase).trans
          rintro t ⟨hkept, hothers, hfree, _⟩
          exact .refl ⟨hkept, hothers, hfree⟩
  | _ =>
      rw [hphase] at hholds
      cases hholds

/-- A response is sent. -/
theorem can_respond (h : s.Kept start) {response : ServerResponseEnvelope}
    (hphase : (s.connections c).phase = .responding response) :
    s.Can fun t => t.Kept start ∧ (t.connections c).phase = .flushing := by
  have hact : s.act c (.respond true) =
      some (s.update c ((s.connections c).sendOrClose true (.text (.response response)))) := by
    simp only [WebSocketServer.act, hphase]
  refine .act hact rfl (.refl ⟨h.act hact, ?_⟩)
  rw [update_self]
  rfl

/-- A request gets to its response once the server is free. -/
theorem can_begin (h : s.Kept start) (hfree : s.lock = none) {envelope : ClientRequestEnvelope}
    (hphase : (s.connections c).phase = .requested envelope) :
    s.Can fun t => t.Kept start ∧ (t.connections c).phase = .flushing := by
  have hact : s.act c (.lock failedGateway) = some (s.begin c envelope failedGateway) := by
    simp only [WebSocketServer.act, hfree, hphase]
  obtain ⟨response, hresponse⟩ := Option.isSome_iff_exists.mp
    (s.server.response_isSome envelope.request)
  have hself : ((s.begin c envelope failedGateway).connections c).phase =
      .handling (s.server.newEvents { request := envelope.request, answers := failedGateway })
        (some ⟨envelope.requestId, response⟩) := by
    show ((s.update c _).connections c).phase = _
    rw [update_self]
    show LoopPhase.handling _ (Option.map _ (s.server.response _)) = _
    rw [hresponse]
    rfl
  apply Can.act hact rfl
  apply (can_finish (h.act hact) hself).trans
  exact fun t ht => can_respond ht.1 ht.2.2.2

/-- What the connections have been asked is the same after a step in which no client sends
anything. -/
theorem requests_act {next : ConnectionStep} (hquiet : next.isQuiet = true)
    (hact : s.act c next = some t) (d : ConnectionId) :
    (t.connections d).requests = (s.connections d).requests := by
  have hsent : ∀ (connection : Connection) (sent : Bool) (frame : ServerFrame),
      (connection.sendOrClose sent frame).requests = connection.requests := by
    intro connection sent frame
    cases sent <;> rfl
  have hupdate : ∀ connection : Connection, connection.requests = (s.connections c).requests →
      ((s.update c connection).connections d).requests = (s.connections d).requests :=
    fun _ hsame => update_field Connection.requests hsame d
  cases acts_of_act hact with
  | wait | read => cases hquiet
  | deliver => exact deliver_field Connection.requests _ _ _ (fun _ _ => rfl) d
  | delivered => rfl
  | flush | respond =>
      apply hupdate
      exact hsent _ _ _
  | _ =>
      apply hupdate
      rfl

theorem requests_step {next : ConnectionId × ConnectionStep} (hquiet : next.2.isQuiet = true)
    (d : ConnectionId) : ((s.step next).connections d).requests = (s.connections d).requests := by
  unfold WebSocketServer.step
  cases hact : s.act next.1 next.2 with
  | none => rfl
  | some t => exact requests_act hquiet hact d

theorem Can.same_requests {P : WebSocketServer → Prop} (h : s.Can P) (d : ConnectionId) :
    s.Can fun t => P t ∧ (t.connections d).requests = (s.connections d).requests := by
  obtain ⟨more, hquiet, hP⟩ := h
  refine ⟨more, hquiet, hP, ?_⟩
  clear hP
  induction more generalizing s with
  | nil => rfl
  | cons next rest ih =>
      obtain ⟨hnext, hrest⟩ := List.forall_mem_cons.mp hquiet
      exact (ih hrest).trans (requests_step hnext d)

/-! ### Every request -/

/-- Unless the server waits for its gateway, an open connection can get all its responses. -/
theorem Kept.can_answer (h : s.Kept start) (hopen : (s.connections c).phase.isOpen = true)
    (hanswered : ∀ d, (s.connections d).phase.stalled = false) :
    s.Can fun t => (t.connections c).responses.length = (t.connections c).requests.length := by
  have hflushing : ∀ t : WebSocketServer, t.Kept start ∧ (t.connections c).phase = .flushing →
      t.Can fun u => (u.connections c).responses.length = (u.connections c).requests.length := by
    rintro t ⟨hkept, hphase⟩
    apply Runs.Leads.refl
    apply (hkept.sound.streams c).all_answered
    intro pending current howes
    rw [hphase] at howes
    exact howes
  have hself := hanswered c
  cases hphase : (s.connections c).phase with
  | subscribed | flushing | reading =>
      apply Runs.Leads.refl
      apply (h.sound.streams c).all_answered
      intro pending current howes
      rw [hphase] at howes
      exact howes
  | requested envelope =>
      cases hlock : s.lock with
      | none => exact (can_begin h hlock hphase).trans hflushing
      | some d =>
          have hholds := h.manned.held d hlock
          have hne : c ≠ d := by
            rintro rfl
            rw [hphase] at hholds
            cases hholds
          apply (can_release h hholds (hanswered d)).trans
          rintro t ⟨hkept, hothers, hfree⟩
          exact (can_begin hkept hfree ((hothers c hne).trans hphase)).trans hflushing
  | handling remaining response =>
      rw [hphase] at hself
      cases response with
      | none => cases hself
      | some response =>
          apply (can_finish h hphase).trans
          exact fun t ht => (can_respond ht.1 ht.2.2.2).trans hflushing
  | publishing event remaining response =>
      rw [hphase] at hself
      cases response with
      | none => cases hself
      | some response =>
          apply (can_finish_publishing h hphase).trans
          exact fun t ht => (can_respond ht.1 ht.2.2.2).trans hflushing
  | responding response => exact (can_respond h hphase).trans hflushing
  | _ =>
      rw [hphase] at hopen
      cases hopen

end Progress

end WebSocketServer

/-- However the threads of any number of connections take turns, every connection sees its stream in
order, and the events carry consecutive numbers in the order of their publication. Unless the server
waits for its gateway, an open connection can get the responses to all of its requests, without any
client sending anything more. -/
theorem connections_in_order [World] (server : AppServer) (sequence : Nat)
    (schedule : List (ConnectionId × ConnectionStep)) :
    let s := Runs.final WebSocketServer.step (.new server sequence) schedule
    s.bus.published.map NumberedEvent.sequence =
        List.range' (sequence + 1) s.bus.published.length ∧
      ∀ c, InOrder s.bus.published (s.connections c) ∧
        ((s.connections c).phase.isOpen = true →
          (∀ d, (s.connections d).phase.stalled = false) →
            s.Can fun t =>
              (t.connections c).responses.length = (t.connections c).requests.length ∧
                (t.connections c).requests = (s.connections c).requests) := by
  intro s
  have hkept : s.Kept sequence :=
    Runs.invariant (C := fun _ _ => True) (fun _ next hkept _ => hkept.step next)
      (WebSocketServer.kept_new server) (Runs.allSteps_true _ schedule) s
      (Runs.final_mem_states _ schedule)
  refine ⟨hkept.sound.numbered, fun c => ⟨(hkept.sound.streams c).inOrder, ?_⟩⟩
  intro hopen hanswered
  exact (hkept.can_answer hopen hanswered).same_requests c

end Liz
