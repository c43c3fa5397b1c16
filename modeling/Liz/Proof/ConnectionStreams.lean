import Liz.Base.Runs
import Liz.Server.WebSocket

/-!
# What the connections get to see

An event is on its way to a connection from the bus over two channels to the socket, and it keeps
its place on this way. The loop of a connection reads no further frame and sends no waiting event
before it has answered a request. So each connection gets the published events in their order, its
responses in the order of its requests, and a response before what was published for it.
-/

namespace Liz

/-! ### The order of a stream -/

def Connection.events (connection : Connection) : List NumberedEvent :=
  connection.sent.filterMap ServerFrame.event

def Connection.responses (connection : Connection) : List ServerResponseEnvelope :=
  connection.sent.filterMap ServerFrame.response

/-- The events that have been sent are an initial segment of those published after the subscription;
the requests are answered one after the other, all of them when the loop turns to its next frame;
and what has been published since the server began to handle a request comes after the response. -/
structure InOrder [World] (published : List NumberedEvent) (connection : Connection) : Prop where
  events : connection.events <+: published.drop connection.subscribedAt
  responses : ∃ answered pending, answered <+: connection.handlings ∧
    connection.requests = answered.map Handling.envelope ++ pending ∧
    connection.responses.map some = answered.map Handling.response ∧ pending.length ≤ 1 ∧
    (connection.phase = .flushing ∨ connection.phase = .reading → pending = [])
  responseFirst : ∀ n handling, connection.handlings[n]? = some handling →
    ∀ before event later, connection.sent = before ++ .text (.event event) :: later →
      handling.since < event.sequence → n < (before.filterMap ServerFrame.response).length

/-! ### What holds between the steps -/

/-- The loop has not subscribed yet. -/
def LoopPhase.joins : LoopPhase → Bool
  | .offline | .accepted | .subscribing => true
  | _ => false

/-- The loop has subscribed and has not returned. -/
def LoopPhase.isOpen : LoopPhase → Bool
  | .offline | .accepted | .subscribing | .closed => false
  | _ => true

/-- The loop has the server. -/
def LoopPhase.holds : LoopPhase → Bool
  | .subscribing | .subscribed | .handling _ _ | .publishing _ _ _ => true
  | _ => false

/-- The event that has its number and is not published yet. -/
def LoopPhase.drawn : LoopPhase → Option NumberedEvent
  | .publishing event _ _ => some event
  | _ => none

/-- What the loop owes its client: requests that nobody handles yet, and responses to come. -/
def LoopPhase.Owes (pending : List ClientRequestEnvelope)
    (current : List (Option ServerResponseEnvelope)) : LoopPhase → Prop
  | .requested envelope => pending = [envelope] ∧ current = []
  | .handling _ response => pending = [] ∧ current = [response]
  | .publishing _ _ response => pending = [] ∧ current = [response]
  | .responding response => pending = [] ∧ current = [some response]
  | .closed => pending.length + current.length ≤ 1
  | _ => pending = [] ∧ current = []

/-- The event that the bus is sending, when the connection has yet to get it. -/
def EventBus.awaited (bus : EventBus) (c : ConnectionId) : List NumberedEvent :=
  match bus.sending with
  | some (event, left) => if c ∈ left then [event] else []
  | none => []

/-- Before the response to a request, no event is sent that was published since the server began to
handle it. -/
def ResponsesFirst (handlings : List Handling) (sent : List ServerFrame) : Prop :=
  ∀ n handling, handlings[n]? = some handling → ∀ before, before <+: sent →
    (before.filterMap ServerFrame.response).length ≤ n →
      ∀ event ∈ before.filterMap ServerFrame.event, event.sequence ≤ handling.since

/-- What holds of a connection between any two steps. Where the loop is open, all that was published
since the subscription has been sent or is on its way. -/
structure Streams [World] (bus : EventBus) (c : ConnectionId) (connection : Connection) : Prop where
  joining : connection.phase.joins = true →
    c ∉ bus.subscribers ∧ connection = { Connection.offline with phase := connection.phase }
  within : connection.subscribedAt ≤ bus.published.length
  begun : connection.events <+: bus.published.drop connection.subscribedAt
  subscribed : connection.phase.isOpen = true → c ∈ bus.subscribers ∧ connection.listening = true
  underway : connection.phase.isOpen = true → connection.events ++ (connection.outbound ++
    (connection.hand.toList ++ (connection.queue ++ bus.awaited c))) =
      bus.published.drop connection.subscribedAt
  owed : ∃ pending current, connection.phase.Owes pending current ∧
    connection.requests = connection.handlings.map Handling.envelope ++ pending ∧
    connection.handlings.map Handling.response = connection.responses.map some ++ current
  first : ResponsesFirst connection.handlings connection.sent

/-! ### Sent frames -/

section Frames

variable {handlings : List Handling} {sent : List ServerFrame}

theorem filterMap_concat {α β : Type} (f : α → Option β) (items : List α) (item : α) :
    (items ++ [item]).filterMap f = items.filterMap f ++ (f item).toList := by
  rw [List.filterMap_append, List.filterMap_cons]
  cases f item <;> rfl

/-- A frame that is sent while no response is owed beside it. -/
theorem ResponsesFirst.send (h : ResponsesFirst handlings sent) {frame : ServerFrame}
    (hanswered : handlings.length ≤ ((sent ++ [frame]).filterMap ServerFrame.response).length) :
    ResponsesFirst handlings (sent ++ [frame]) := by
  intro n handling hn before hbefore hle event hevent
  rcases List.prefix_concat_iff.mp hbefore with rfl | hprefix
  · obtain ⟨hlt, -⟩ := List.getElem?_eq_some_iff.mp hn
    omega
  · exact h n handling hn before hprefix hle event hevent

/-- The server begins to handle a request after all that has been sent was published. -/
theorem ResponsesFirst.begin (h : ResponsesFirst handlings sent) {handling : Handling}
    (hsince : ∀ event ∈ sent.filterMap ServerFrame.event, event.sequence ≤ handling.since) :
    ResponsesFirst (handlings ++ [handling]) sent := by
  intro n found hn before hbefore hle event hevent
  by_cases hlt : n < handlings.length
  · rw [List.getElem?_append_left hlt] at hn
    exact h n found hn before hbefore hle event hevent
  · have hfound : found ∈ [handling] := by
      rw [List.getElem?_append_right (Nat.le_of_not_lt hlt)] at hn
      exact List.mem_of_getElem? hn
    rw [List.mem_singleton.mp hfound]
    exact hsince event ((hbefore.sublist.filterMap _).subset hevent)

end Frames

/-! ### What a connection does by itself -/

section Connections

variable [World] {bus : EventBus} {c : ConnectionId} {connection : Connection}

omit [World] in
theorem joins_of_isOpen {phase : LoopPhase} (h : phase.isOpen = true) : phase.joins = false := by
  cases phase <;> first | rfl | cases h

omit [World] in
theorem LoopPhase.Owes.length_le {pending : List ClientRequestEnvelope}
    {current : List (Option ServerResponseEnvelope)} {phase : LoopPhase}
    (h : phase.Owes pending current) : pending.length + current.length ≤ 1 := by
  cases phase with
  | closed => exact h
  | _ =>
      obtain ⟨rfl, rfl⟩ := h
      simp

/-- The loop goes on to a phase in which it owes the same. -/
theorem Streams.to (h : Streams bus c connection) {before phase : LoopPhase}
    (hphase : connection.phase = before) (hopen : before.isOpen = true)
    (hnext : phase.isOpen = true)
    (howes : ∀ pending current, before.Owes pending current → phase.Owes pending current) :
    Streams bus c (connection.to phase) where
  joining hjoins := by
    rw [show (connection.to phase).phase = phase from rfl, joins_of_isOpen hnext] at hjoins
    cases hjoins
  within := h.within
  begun := h.begun
  subscribed _ := h.subscribed (hphase ▸ hopen)
  underway _ := h.underway (hphase ▸ hopen)
  owed := by
    obtain ⟨pending, current, howed, hrequests, hresponses⟩ := h.owed
    exact ⟨pending, current, howes pending current (hphase ▸ howed), hrequests, hresponses⟩
  first := h.first

/-- The loop returns. -/
theorem Streams.close (h : Streams bus c connection) : Streams bus c connection.close where
  joining hjoins := by cases hjoins
  within := h.within
  begun := h.begun
  subscribed hopen := by cases hopen
  underway hopen := by cases hopen
  owed := by
    obtain ⟨pending, current, howed, hrequests, hresponses⟩ := h.owed
    exact ⟨pending, current, howed.length_le, hrequests, hresponses⟩
  first := h.first

/-- The next thing that waits is sent, and after that the loop owes nothing. -/
theorem Streams.send (h : Streams bus c connection) {before : LoopPhase} {frame : ServerFrame}
    {rest : List NumberedEvent} (hphase : connection.phase = before) (hbefore : before.isOpen = true)
    (houtbound : connection.outbound = frame.event.toList ++ rest)
    (howed : ∀ pending current, before.Owes pending current →
      pending = [] ∧ current = frame.response.toList.map some) :
    Streams bus c { connection with
      outbound := rest, sent := connection.sent ++ [frame], phase := .flushing } := by
  have hopen : connection.phase.isOpen = true := hphase ▸ hbefore
  obtain ⟨pending, current, howes, hrequests, hresponses⟩ := h.owed
  obtain ⟨rfl, rfl⟩ := howed pending current (hphase ▸ howes)
  have hunderway : connection.events ++ frame.event.toList ++ (rest ++
      (connection.hand.toList ++ (connection.queue ++ bus.awaited c))) =
        bus.published.drop connection.subscribedAt := by
    rw [← h.underway hopen, houtbound]
    simp only [List.append_assoc]
  have hall : connection.handlings.map Handling.response =
      ((connection.sent ++ [frame]).filterMap ServerFrame.response).map some := by
    rw [hresponses, filterMap_concat, List.map_append]
    rfl
  refine ⟨fun hjoins => (by cases hjoins), h.within, ?_, fun _ => h.subscribed hopen,
    fun _ => ?_, ?_, ?_⟩
  · show List.filterMap _ _ <+: _
    rw [filterMap_concat, ← hunderway]
    exact List.prefix_append _ _
  · show List.filterMap _ _ ++ _ = _
    rw [filterMap_concat]
    exact hunderway
  · exact ⟨[], [], ⟨rfl, rfl⟩, hrequests, hall.trans (List.append_nil _).symm⟩
  · apply h.first.send
    have hlength := congrArg List.length hall
    rw [List.length_map, List.length_map] at hlength
    exact hlength.le

/-- The next thing that waits is sent, or the socket fails and the loop returns. -/
theorem Streams.sendOrClose (h : Streams bus c connection) {before : LoopPhase}
    {frame : ServerFrame} {rest : List NumberedEvent} (hphase : connection.phase = before)
    (hopen : before.isOpen = true) (houtbound : connection.outbound = frame.event.toList ++ rest)
    (howed : ∀ pending current, before.Owes pending current →
      pending = [] ∧ current = frame.response.toList.map some) (sent : Bool) :
    Streams bus c ({ connection with outbound := rest }.sendOrClose sent frame) := by
  cases sent with
  | true => exact h.send hphase hopen houtbound howed
  | false => exact h.close

/-- A request is read. -/
theorem Streams.request (h : Streams bus c connection) (hreading : connection.phase = .reading)
    (envelope : ClientRequestEnvelope) :
    Streams bus c { connection with
      phase := .requested envelope, requests := connection.requests ++ [envelope] } := by
  have hopen : connection.phase.isOpen = true := by rw [hreading]; rfl
  obtain ⟨pending, current, howes, hrequests, hresponses⟩ := h.owed
  rw [hreading] at howes
  obtain ⟨rfl, rfl⟩ := howes
  refine ⟨fun hjoins => (by cases hjoins), h.within, h.begun, fun _ => h.subscribed hopen,
    fun _ => h.underway hopen, ⟨[envelope], [], ⟨rfl, rfl⟩, ?_, hresponses⟩, h.first⟩
  show connection.requests ++ [envelope] = _
  rw [hrequests, List.append_nil]

/-- The server begins to handle the request that has been read. -/
theorem Streams.begin (h : Streams bus c connection) {handling : Handling}
    (hrequested : connection.phase = .requested handling.envelope)
    (hsince : ∀ event ∈ bus.published, event.sequence ≤ handling.since)
    (remaining : List PendingEvent) :
    Streams bus c { connection with
      phase := .handling remaining handling.response
      handlings := connection.handlings ++ [handling] } := by
  have hopen : connection.phase.isOpen = true := by rw [hrequested]; rfl
  obtain ⟨pending, current, howes, hrequests, hresponses⟩ := h.owed
  rw [hrequested] at howes
  obtain ⟨rfl, rfl⟩ := howes
  refine ⟨fun hjoins => (by cases hjoins), h.within, h.begun, fun _ => h.subscribed hopen,
    fun _ => h.underway hopen, ⟨[], [handling.response], ⟨rfl, rfl⟩, ?_, ?_⟩, ?_⟩
  · show connection.requests = _
    rw [hrequests, List.map_append, List.append_nil]
    rfl
  · show List.map Handling.response (connection.handlings ++ [handling]) = _
    rw [List.map_append, hresponses, List.append_nil]
    rfl
  · apply h.first.begin
    intro event hevent
    exact hsince event (List.mem_of_mem_drop (h.begun.subset hevent))

omit [World] in
theorem owes_of_joins {phase : LoopPhase} (h : phase.joins = true)
    {pending : List ClientRequestEnvelope} {current : List (Option ServerResponseEnvelope)} :
    phase.Owes pending current ↔ pending = [] ∧ current = [] := by
  cases phase <;> first | exact Iff.rfl | cases h

/-- The loop goes on without having subscribed. -/
theorem Streams.join (h : Streams bus c connection) {phase : LoopPhase}
    (hjoins : connection.phase.joins = true) (hnext : phase.joins = true) :
    Streams bus c (connection.to phase) where
  joining _ := by
    obtain ⟨hnot, hconnection⟩ := h.joining hjoins
    refine ⟨hnot, ?_⟩
    rw [hconnection]
    rfl
  within := h.within
  begun := h.begun
  subscribed hopen := by
    have hno : phase.joins = false := joins_of_isOpen hopen
    rw [hno] at hnext
    cases hnext
  underway hopen := by
    have hno : phase.joins = false := joins_of_isOpen hopen
    rw [hno] at hnext
    cases hnext
  owed := by
    obtain ⟨pending, current, howed, hrest⟩ := h.owed
    exact ⟨pending, current, (owes_of_joins hnext).mpr ((owes_of_joins hjoins).mp howed), hrest⟩
  first := h.first

/-- The loop subscribes while the bus sends nothing. -/
theorem Streams.subscribe (h : Streams bus c connection) (hphase : connection.phase = .subscribing)
    (hidle : bus.sending = none) :
    Streams { bus with subscribers := bus.subscribers ++ [c] } c { connection with
      phase := .subscribed, listening := true, subscribedAt := bus.published.length } := by
  obtain ⟨-, hconnection⟩ := h.joining (by rw [hphase]; rfl)
  rw [hphase] at hconnection
  have hdrop : bus.published.drop bus.published.length = [] := List.drop_length
  have hawaited : EventBus.awaited { bus with subscribers := bus.subscribers ++ [c] } c = [] := by
    rw [EventBus.awaited, hidle]
  rw [hconnection]
  refine ⟨fun hjoins => (by cases hjoins), le_rfl, List.nil_prefix, fun _ => ⟨?_, rfl⟩,
    fun _ => ?_, ⟨[], [], ⟨rfl, rfl⟩, rfl, rfl⟩, ?_⟩
  · exact List.mem_append_right _ (List.mem_singleton_self c)
  · show [] ++ ([] ++ ([] ++ ([] ++ EventBus.awaited _ c))) = bus.published.drop _
    rw [hawaited, hdrop]
    rfl
  · intro n handling hn
    cases hn

/-- The forwarder takes the next event from the bus. -/
theorem Streams.receive (h : Streams bus c connection) {event : NumberedEvent}
    {rest : List NumberedEvent} (hhand : connection.hand = none) (hqueue : connection.queue = event :: rest) :
    Streams bus c { connection with hand := some event, queue := rest } where
  joining hjoins := by
    obtain ⟨-, hconnection⟩ := h.joining hjoins
    rw [hconnection] at hqueue
    cases hqueue
  within := h.within
  begun := h.begun
  subscribed := h.subscribed
  underway hopen := by
    rw [← h.underway hopen, hhand, hqueue]
    rfl
  owed := h.owed
  first := h.first

/-- The forwarder passes its event on to the loop. -/
theorem Streams.pass (h : Streams bus c connection) {event : NumberedEvent}
    (hhand : connection.hand = some event) :
    Streams bus c { connection with
      hand := none, outbound := connection.outbound ++ [event] } where
  joining hjoins := by
    obtain ⟨-, hconnection⟩ := h.joining hjoins
    rw [hconnection] at hhand
    cases hhand
  within := h.within
  begun := h.begun
  subscribed := h.subscribed
  underway hopen := by
    rw [← h.underway hopen, hhand]
    show connection.events ++ (connection.outbound ++ [event] ++ _) = _
    rw [List.append_assoc]
    rfl
  owed := h.owed
  first := h.first

/-- Once the loop has returned, the forwarder stops. -/
theorem Streams.stop (h : Streams bus c connection) (hclosed : connection.phase = .closed) :
    Streams bus c { connection with hand := none, listening := false } where
  joining hjoins := by
    change connection.phase.joins = true at hjoins
    rw [hclosed] at hjoins
    cases hjoins
  within := h.within
  begun := h.begun
  subscribed hopen := by
    change connection.phase.isOpen = true at hopen
    rw [hclosed] at hopen
    cases hopen
  underway hopen := by
    change connection.phase.isOpen = true at hopen
    rw [hclosed] at hopen
    cases hopen
  owed := h.owed
  first := h.first

end Connections

/-! ### What the bus does to a connection -/

section Buses

variable [World] {bus bus' : EventBus} {c d : ConnectionId} {connection : Connection}
  {event : NumberedEvent} {left : List ConnectionId}

/-- The bus has published more, and a connection that is served is about to get it. -/
theorem Streams.of_bus {more : List NumberedEvent} (h : Streams bus c connection)
    (hpublished : bus'.published = bus.published ++ more)
    (hjoins : c ∉ bus.subscribers → connection.phase.joins = true → c ∉ bus'.subscribers)
    (hopen : connection.phase.isOpen = true → c ∈ bus.subscribers →
      c ∈ bus'.subscribers ∧ bus'.awaited c = bus.awaited c ++ more) :
    Streams bus' c connection := by
  have hdrop : bus'.published.drop connection.subscribedAt =
      bus.published.drop connection.subscribedAt ++ more := by
    rw [hpublished, List.drop_append_of_le_length h.within]
  refine ⟨?_, ?_, ?_, ?_, ?_, h.owed, h.first⟩
  · intro hphase
    obtain ⟨hnot, hconnection⟩ := h.joining hphase
    exact ⟨hjoins hnot hphase, hconnection⟩
  · rw [hpublished, List.length_append]
    exact h.within.trans (Nat.le_add_right _ _)
  · rw [hdrop]
    exact h.begun.trans (List.prefix_append _ _)
  · intro hphase
    obtain ⟨hin, hlistening⟩ := h.subscribed hphase
    exact ⟨(hopen hphase hin).1, hlistening⟩
  · intro hphase
    rw [hdrop, ← h.underway hphase, (hopen hphase (h.subscribed hphase).1).2]
    simp only [List.append_assoc]

/-- The bus has published nothing. -/
theorem Streams.of_silent_bus (h : Streams bus c connection)
    (hpublished : bus'.published = bus.published)
    (hjoins : c ∉ bus.subscribers → connection.phase.joins = true → c ∉ bus'.subscribers)
    (hopen : connection.phase.isOpen = true → c ∈ bus.subscribers →
      c ∈ bus'.subscribers ∧ bus'.awaited c = bus.awaited c) : Streams bus' c connection := by
  apply h.of_bus (hpublished.trans (List.append_nil _).symm) hjoins
  intro hphase hin
  obtain ⟨hin', hawaited⟩ := hopen hphase hin
  exact ⟨hin', hawaited.trans (List.append_nil _).symm⟩

omit [World] in
theorem awaited_idle (h : bus.sending = none) : bus.awaited c = [] := by
  rw [EventBus.awaited, h]

omit [World] in
theorem awaited_sending (h : bus.sending = some (event, left)) :
    bus.awaited c = if c ∈ left then [event] else [] := by
  rw [EventBus.awaited, h]

/-- An event gets to the forwarder of the subscriber whose turn it is. -/
theorem Streams.arrive (h : Streams bus c connection)
    (hsending : bus.sending = some (event, c :: left)) (hnodup : (c :: left).Nodup)
    (hlistening : connection.listening = true) :
    Streams { bus with sending := some (event, left) } c
      { connection with queue := connection.queue ++ [event] } := by
  have hbefore : bus.awaited c = [event] := by
    rw [awaited_sending hsending, if_pos List.mem_cons_self]
  have hafter : EventBus.awaited { bus with sending := some (event, left) } c = [] :=
    if_neg (List.nodup_cons.mp hnodup).1
  refine ⟨?_, h.within, h.begun, h.subscribed, ?_, h.owed, h.first⟩
  · intro hjoins
    obtain ⟨-, hconnection⟩ := h.joining hjoins
    rw [hconnection] at hlistening
    cases hlistening
  · intro hopen
    rw [← h.underway hopen, hbefore, hafter]
    show connection.events ++ (_ ++ (_ ++ (connection.queue ++ [event] ++ []))) = _
    rw [List.append_nil]

/-- The event gets to another subscriber, or that one is dropped. -/
theorem Streams.pass_by (h : Streams bus c connection)
    (hsending : bus.sending = some (event, d :: left)) (hne : c ≠ d)
    {subscribers : List ConnectionId} (hkept : c ∈ subscribers ↔ c ∈ bus.subscribers) :
    Streams { bus with subscribers := subscribers, sending := some (event, left) } c
      connection := by
  have hafter : EventBus.awaited
      { bus with subscribers := subscribers, sending := some (event, left) } c = bus.awaited c := by
    rw [awaited_sending hsending]
    simp only [EventBus.awaited, List.mem_cons, hne, false_or]
  apply h.of_silent_bus
  · rfl
  · exact fun hnot _ hin => hnot (hkept.mp hin)
  · exact fun _ hin => ⟨hkept.mpr hin, hafter⟩

end Buses

/-! ### The steps of the threads -/

/-- A step, with what has to hold before it. -/
inductive WebSocketServer.Acts [World] (s : WebSocketServer) (c : ConnectionId) :
    ConnectionStep → WebSocketServer → Prop
  | accept (hphase : (s.connections c).phase = .offline) :
      s.Acts c .accept (s.update c ((s.connections c).to .accepted))
  | join {answers : List GatewayAnswer} (hfree : s.lock = none)
      (hphase : (s.connections c).phase = .accepted) :
      s.Acts c (.lock answers)
        { s.update c ((s.connections c).to .subscribing) with lock := some c }
  | begin {answers : List GatewayAnswer} {envelope : ClientRequestEnvelope} (hfree : s.lock = none)
      (hphase : (s.connections c).phase = .requested envelope) :
      s.Acts c (.lock answers) (s.begin c envelope answers)
  | subscribe (hsending : s.bus.sending = none) (hphase : (s.connections c).phase = .subscribing) :
      s.Acts c .subscribe
        { s.update c { s.connections c with
            phase := .subscribed, listening := true, subscribedAt := s.bus.published.length } with
          bus := { s.bus with subscribers := s.bus.subscribers ++ [c] } }
  | number {event : PendingEvent} {remaining : List PendingEvent}
      {response : Option ServerResponseEnvelope} (hsending : s.bus.sending = none)
      (hphase : (s.connections c).phase = .handling (event :: remaining) response) :
      s.Acts c .number
        { s.update c ((s.connections c).to
            (.publishing { event with sequence := s.bus.sequence + 1 } remaining response)) with
          bus := { s.bus with sequence := s.bus.sequence + 1 } }
  | publish {event : NumberedEvent} {remaining : List PendingEvent}
      {response : Option ServerResponseEnvelope} (hsending : s.bus.sending = none)
      (hphase : (s.connections c).phase = .publishing event remaining response) :
      s.Acts c .publish
        { s.update c ((s.connections c).to (.handling remaining response)) with
          bus := { s.bus with
            sending := some (event, s.bus.subscribers)
            published := s.bus.published ++ [event] } }
  | deliver {event : NumberedEvent} {d : ConnectionId} {left : List ConnectionId}
      {remaining : List PendingEvent} {response : Option ServerResponseEnvelope}
      (hsending : s.bus.sending = some (event, d :: left))
      (hphase : (s.connections c).phase = .handling remaining response) :
      s.Acts c .deliver (s.deliver event d left)
  | delivered {event : NumberedEvent} {remaining : List PendingEvent}
      {response : Option ServerResponseEnvelope} (hsending : s.bus.sending = some (event, []))
      (hphase : (s.connections c).phase = .handling remaining response) :
      s.Acts c .deliver { s with bus := { s.bus with sending := none } }
  | leave (hsending : s.bus.sending = none) (hphase : (s.connections c).phase = .subscribed) :
      s.Acts c .unlock { s.update c ((s.connections c).to .flushing) with lock := none }
  | unlock {response : ServerResponseEnvelope} (hsending : s.bus.sending = none)
      (hphase : (s.connections c).phase = .handling [] (some response)) :
      s.Acts c .unlock { s.update c ((s.connections c).to (.responding response)) with lock := none }
  | flushed {sent : Bool} (hphase : (s.connections c).phase = .flushing) :
      s.Acts c (.flush sent) (s.update c ((s.connections c).to .reading))
  | flush {sent : Bool} {event : NumberedEvent} {rest : List NumberedEvent}
      (hphase : (s.connections c).phase = .flushing)
      (houtbound : (s.connections c).outbound = event :: rest) :
      s.Acts c (.flush sent)
        (s.update c ({ s.connections c with outbound := rest }.sendOrClose sent
          (.text (.event event))))
  | wait {sent : Bool} (hphase : (s.connections c).phase = .reading) :
      s.Acts c (.read none sent) (s.update c ((s.connections c).to .flushing))
  | read {message : ClientFrame} {sent : Bool} (hphase : (s.connections c).phase = .reading) :
      s.Acts c (.read (some message) sent)
        (s.update c ((s.connections c).handleIncomingMessage sent message))
  | disconnect (hphase : (s.connections c).phase = .reading) :
      s.Acts c .disconnect (s.update c (s.connections c).close)
  | respond {response : ServerResponseEnvelope} {sent : Bool}
      (hphase : (s.connections c).phase = .responding response) :
      s.Acts c (.respond sent)
        (s.update c ((s.connections c).sendOrClose sent (.text (.response response))))
  | receive {event : NumberedEvent} {rest : List NumberedEvent} (hhand : (s.connections c).hand = none)
      (hqueue : (s.connections c).queue = event :: rest) :
      s.Acts c .receive (s.update c { s.connections c with hand := some event, queue := rest })
  | drop {event : NumberedEvent} (hhand : (s.connections c).hand = some event)
      (hphase : (s.connections c).phase = .closed) :
      s.Acts c .pass (s.update c { s.connections c with hand := none, listening := false })
  | pass {event : NumberedEvent} (hhand : (s.connections c).hand = some event) :
      s.Acts c .pass
        (s.update c { s.connections c with
          hand := none, outbound := (s.connections c).outbound ++ [event] })
  | stop (hhand : (s.connections c).hand = none) (hphase : (s.connections c).phase = .closed) :
      s.Acts c .stop (s.update c { s.connections c with listening := false })

/-- A thread that can take a step takes one of these. -/
theorem WebSocketServer.acts_of_act [World] {s t : WebSocketServer} {c : ConnectionId}
    {next : ConnectionStep} (h : s.act c next = some t) : s.Acts c next t := by
  cases next with
  | accept =>
      simp only [act] at h
      split at h <;> cases h
      exact .accept ‹_›
  | lock answers =>
      simp only [act] at h
      split at h <;> cases h
      · exact .join ‹_› ‹_›
      · exact .begin ‹_› ‹_›
  | subscribe =>
      simp only [act] at h
      split at h <;> cases h
      exact .subscribe ‹_› ‹_›
  | number =>
      simp only [act] at h
      split at h <;> cases h
      exact .number ‹_› ‹_›
  | publish =>
      simp only [act] at h
      split at h <;> cases h
      exact .publish ‹_› ‹_›
  | deliver =>
      simp only [act] at h
      split at h <;> cases h
      · exact .deliver ‹_› ‹_›
      · exact .delivered ‹_› ‹_›
  | unlock =>
      simp only [act] at h
      split at h <;> cases h
      · exact .leave ‹_› ‹_›
      · exact .unlock ‹_› ‹_›
  | flush sent =>
      simp only [act] at h
      split at h <;> cases h
      · exact .flushed ‹_›
      · exact .flush ‹_› ‹_›
  | read incoming sent =>
      simp only [act] at h
      split at h <;> cases h
      · exact .wait ‹_›
      · exact .read ‹_›
  | disconnect =>
      simp only [act] at h
      split at h <;> cases h
      exact .disconnect ‹_›
  | respond sent =>
      simp only [act] at h
      split at h <;> cases h
      exact .respond ‹_›
  | receive =>
      simp only [act] at h
      split at h <;> cases h
      exact .receive ‹_› ‹_›
  | pass =>
      simp only [act] at h
      split at h <;> cases h
      · exact .drop ‹_› ‹_›
      · exact .pass ‹_›
  | stop =>
      simp only [act] at h
      split at h <;> cases h
      exact .stop ‹_› ‹_›

/-! ### What holds of the server -/

/-- Between any two steps every connection has its stream, at most one loop has the server, and the
events are published in the order of their numbers, which follow each other. -/
structure WebSocketServer.Sound [World] (start : Nat) (s : WebSocketServer) : Prop where
  streams : ∀ c, Streams s.bus c (s.connections c)
  holder : ∀ c, (s.connections c).phase.holds = true → s.lock = some c
  numbered : s.bus.published.map NumberedEvent.sequence =
    List.range' (start + 1) s.bus.published.length
  drawn : ∀ c event, (s.connections c).phase.drawn = some event →
    event.sequence = s.bus.sequence ∧ s.bus.sequence = start + s.bus.published.length + 1
  undrawn : (∀ c, (s.connections c).phase.drawn = none) →
    s.bus.sequence = start + s.bus.published.length
  subscribers : s.bus.subscribers.Nodup
  receivers : ∀ event left, s.bus.sending = some (event, left) → left.Nodup

namespace WebSocketServer

section Sound

variable [World] {start : Nat} {s : WebSocketServer} {c : ConnectionId} {connection : Connection}

omit [World] in
theorem update_forall {P : ConnectionId → Connection → Prop} (hself : P c connection)
    (hothers : ∀ d, d ≠ c → P d (s.connections d)) (d : ConnectionId) :
    P d ((s.update c connection).connections d) := by
  show P d (Function.update s.connections c connection d)
  by_cases hd : d = c
  · rw [hd, Function.update_self]
    exact hself
  · rw [Function.update_of_ne hd]
    exact hothers d hd

omit [World] in
theorem update_drawn (h : connection.phase.drawn = (s.connections c).phase.drawn)
    (d : ConnectionId) :
    ((s.update c connection).connections d).phase.drawn = (s.connections d).phase.drawn :=
  update_forall (P := fun d other => other.phase.drawn = (s.connections d).phase.drawn) h
    (fun _ _ => rfl) d

omit [World] in
theorem drawn_of_idle {phase : LoopPhase} (h : phase.holds = false) : phase.drawn = none := by
  cases phase <;> first | rfl | cases h

/-- Where one loop has the server, no other has. -/
theorem Sound.exclusive (h : s.Sound start) (hholds : (s.connections c).phase.holds = true)
    {d : ConnectionId} (hd : d ≠ c) : (s.connections d).phase.holds = false := by
  apply Bool.eq_false_iff.mpr
  intro hother
  exact hd (Option.some.inj ((h.holder d hother).symm.trans (h.holder c hholds)))

/-- Where nobody has the server, no number is drawn that is not published. -/
theorem Sound.idle (h : s.Sound start) (hfree : s.lock = none) (d : ConnectionId) :
    (s.connections d).phase.holds = false := by
  apply Bool.eq_false_iff.mpr
  intro hholds
  rw [h.holder d hholds] at hfree
  cases hfree

theorem Sound.published_le (h : s.Sound start) (hfree : s.lock = none) :
    ∀ event ∈ s.bus.published, event.sequence ≤ s.bus.sequence := by
  intro event hevent
  have hmem := List.mem_map_of_mem (f := NumberedEvent.sequence) hevent
  rw [h.numbered, List.mem_range'_1] at hmem
  rw [h.undrawn fun d => drawn_of_idle (h.idle hfree d)]
  omega

/-- A step that leaves the bus alone. -/
theorem Sound.update (h : s.Sound start) (hstreams : Streams s.bus c connection)
    (hdrawn : connection.phase.drawn = (s.connections c).phase.drawn) (server : AppServer)
    {lock : Option ConnectionId} (hself : connection.phase.holds = true → lock = some c)
    (hothers : ∀ d, d ≠ c → (s.connections d).phase.holds = true → lock = some d) :
    Sound start { s.update c connection with server := server, lock := lock } where
  streams := update_forall hstreams fun d _ => h.streams d
  holder := update_forall (P := fun d other => other.phase.holds = true → lock = some d) hself
    hothers
  numbered := h.numbered
  drawn d event hevent := h.drawn d event ((update_drawn hdrawn d).symm.trans hevent)
  undrawn hnone := h.undrawn fun d => (update_drawn hdrawn d).symm.trans (hnone d)
  subscribers := h.subscribers
  receivers := h.receivers

/-- A step of a loop or a forwarder that does not have to do with the server. -/
theorem Sound.alone (h : s.Sound start) (hstreams : Streams s.bus c connection)
    (hphase : (s.connections c).phase.holds = false) (hnext : connection.phase.holds = false) :
    Sound start (s.update c connection) := by
  apply h.update hstreams
  · rw [drawn_of_idle hphase, drawn_of_idle hnext]
  · intro hholds
    rw [hnext] at hholds
    cases hholds
  · exact fun d _ => h.holder d

/-- A step of a forwarder. -/
theorem Sound.forward (h : s.Sound start) (hstreams : Streams s.bus c connection)
    (hphase : connection.phase = (s.connections c).phase) :
    Sound start (s.update c connection) := by
  apply h.update hstreams (by rw [hphase]) s.server
  · rw [hphase]
    exact h.holder c
  · exact fun d _ => h.holder d

/-- A loop takes the server. -/
theorem Sound.lock (h : s.Sound start) (hfree : s.lock = none)
    (hstreams : Streams s.bus c connection) (hnext : connection.phase.drawn = none)
    (server : AppServer) :
    Sound start { s.update c connection with server := server, lock := some c } := by
  apply h.update hstreams
  · rw [hnext, drawn_of_idle (h.idle hfree c)]
  · exact fun _ => rfl
  · intro d _ hholds
    rw [h.idle hfree d] at hholds
    cases hholds

/-- The loop that has the server lets go of it. -/
theorem Sound.unlock (h : s.Sound start) (hstreams : Streams s.bus c connection)
    (hphase : (s.connections c).phase.holds = true)
    (hdrawn : (s.connections c).phase.drawn = none) (hnext : connection.phase.holds = false) :
    Sound start { s.update c connection with lock := none } := by
  apply h.update hstreams
  · rw [hdrawn, drawn_of_idle hnext]
  · intro hholds
    rw [hnext] at hholds
    cases hholds
  · intro d hd hholds
    rw [h.exclusive hphase hd] at hholds
    cases hholds

theorem Sound.holder_update (h : s.Sound start)
    (hholds : connection.phase.holds = true → (s.connections c).phase.holds = true)
    (d : ConnectionId) :
    ((s.update c connection).connections d).phase.holds = true → s.lock = some d :=
  update_forall (P := fun d other => other.phase.holds = true → s.lock = some d)
    (fun hself => h.holder c (hholds hself)) (fun d _ => h.holder d) d

/-- While one loop has the server and has drawn no number, all numbers are of published events. -/
theorem Sound.undrawn_of_holder (h : s.Sound start)
    (hholds : (s.connections c).phase.holds = true)
    (hdrawn : (s.connections c).phase.drawn = none) :
    s.bus.sequence = start + s.bus.published.length := by
  apply h.undrawn
  intro d
  by_cases hd : d = c
  · rw [hd, hdrawn]
  · exact drawn_of_idle (h.exclusive hholds hd)

theorem Sound.subscribe (h : s.Sound start) (hphase : (s.connections c).phase = .subscribing)
    (hsending : s.bus.sending = none) :
    Sound start { s.update c { s.connections c with
        phase := .subscribed, listening := true, subscribedAt := s.bus.published.length } with
      bus := { s.bus with subscribers := s.bus.subscribers ++ [c] } } := by
  have hdrawn : LoopPhase.subscribed.drawn = (s.connections c).phase.drawn := by rw [hphase]; rfl
  have hnew : c ∉ s.bus.subscribers := ((h.streams c).joining (by rw [hphase]; rfl)).1
  refine ⟨?_, ?_, h.numbered, ?_, ?_, ?_, h.receivers⟩
  · refine update_forall ((h.streams c).subscribe hphase hsending) ?_
    intro d hd
    have hmem : d ∈ s.bus.subscribers ++ [c] ↔ d ∈ s.bus.subscribers := by simp [hd]
    apply (h.streams d).of_silent_bus
    · rfl
    · exact fun hnot _ hin => hnot (hmem.mp hin)
    · exact fun _ hin => ⟨hmem.mpr hin, rfl⟩
  · exact h.holder_update fun _ => by rw [hphase]; rfl
  · exact fun d event hevent => h.drawn d event ((update_drawn hdrawn d).symm.trans hevent)
  · exact fun hnone => h.undrawn fun d => (update_drawn hdrawn d).symm.trans (hnone d)
  · exact h.subscribers.append (List.nodup_singleton c) (by simpa using hnew)

/-- The next event of the request that is handled gets its number. -/
theorem Sound.number (h : s.Sound start) {event : PendingEvent} {remaining : List PendingEvent}
    {response : Option ServerResponseEnvelope}
    (hphase : (s.connections c).phase = .handling (event :: remaining) response) :
    Sound start { s.update c ((s.connections c).to
        (.publishing { event with sequence := s.bus.sequence + 1 } remaining response)) with
      bus := { s.bus with sequence := s.bus.sequence + 1 } } := by
  have hholds : (s.connections c).phase.holds = true := by rw [hphase]; rfl
  have hsequence := h.undrawn_of_holder hholds (by rw [hphase]; rfl)
  have hstream : Streams s.bus c ((s.connections c).to
      (.publishing { event with sequence := s.bus.sequence + 1 } remaining response)) :=
    (h.streams c).to hphase rfl rfl fun _ _ howes => howes
  refine ⟨?_, ?_, h.numbered, ?_, ?_, h.subscribers, h.receivers⟩
  · refine update_forall ⟨hstream.joining, hstream.within, hstream.begun, hstream.subscribed,
      hstream.underway, hstream.owed, hstream.first⟩ ?_
    intro d _
    have hother := h.streams d
    exact ⟨hother.joining, hother.within, hother.begun, hother.subscribed, hother.underway,
      hother.owed, hother.first⟩
  · exact h.holder_update fun _ => hholds
  · intro d
    refine update_forall (P := fun _ other => ∀ drawn, other.phase.drawn = some drawn →
      drawn.sequence = s.bus.sequence + 1 ∧ s.bus.sequence + 1 =
        start + s.bus.published.length + 1) ?_ ?_ d
    · intro drawn heq
      rw [← Option.some.inj heq, hsequence]
      exact ⟨rfl, rfl⟩
    · intro other hother drawn heq
      rw [drawn_of_idle (h.exclusive hholds hother)] at heq
      cases heq
  · intro hnone
    have hself := hnone c
    change LoopPhase.drawn (Function.update s.connections c _ c).phase = none at hself
    rw [Function.update_self] at hself
    cases hself

/-- The event that has got its number is published. -/
theorem Sound.publish (h : s.Sound start) {event : NumberedEvent} {remaining : List PendingEvent}
    {response : Option ServerResponseEnvelope} (hsending : s.bus.sending = none)
    (hphase : (s.connections c).phase = .publishing event remaining response) :
    Sound start { s.update c ((s.connections c).to (.handling remaining response)) with
      bus := { s.bus with
        sending := some (event, s.bus.subscribers)
        published := s.bus.published ++ [event] } } := by
  have hholds : (s.connections c).phase.holds = true := by rw [hphase]; rfl
  obtain ⟨hevent, hsequence⟩ := h.drawn c event (by rw [hphase]; rfl)
  have hstream : Streams s.bus c ((s.connections c).to (.handling remaining response)) :=
    (h.streams c).to hphase rfl rfl fun _ _ howes => howes
  have hpublished : ∀ d connection, Streams s.bus d connection → Streams { s.bus with
      sending := some (event, s.bus.subscribers)
      published := s.bus.published ++ [event] } d connection := by
    intro d connection hd
    apply hd.of_bus rfl
    · exact fun hnot _ => hnot
    · intro _ hin
      refine ⟨hin, ?_⟩
      rw [awaited_idle hsending]
      exact if_pos hin
  have hnone : ∀ d, (Function.update s.connections c ((s.connections c).to
      (.handling remaining response)) d).phase.drawn = none :=
    update_forall (s := s) (P := fun _ other => other.phase.drawn = none) rfl
      fun d hd => drawn_of_idle (h.exclusive hholds hd)
  refine ⟨update_forall (hpublished c _ hstream) fun d _ => hpublished d _ (h.streams d),
    h.holder_update fun _ => hholds, ?_, ?_, ?_, h.subscribers, ?_⟩
  · show List.map _ (s.bus.published ++ [event]) = List.range' _ (s.bus.published ++ [event]).length
    rw [List.map_append, h.numbered, List.length_append, List.length_singleton,
      List.range'_1_concat, List.map_singleton, hevent, hsequence, Nat.add_right_comm]
  · intro d drawn hdrawn
    have hno := (hnone d).symm.trans hdrawn
    cases hno
  · intro _
    show s.bus.sequence = start + (s.bus.published ++ [event]).length
    rw [hsequence, List.length_append]
    rfl
  · intro other left heq
    obtain ⟨-, rfl⟩ := Prod.ext_iff.mp (Option.some.inj heq)
    exact h.subscribers

/-- The event gets to the subscriber whose turn it is. -/
theorem Sound.deliver (h : s.Sound start) {event : NumberedEvent} {d : ConnectionId}
    {left : List ConnectionId} (hsending : s.bus.sending = some (event, d :: left)) :
    Sound start (s.deliver event d left) := by
  have hnodup := h.receivers event (d :: left) hsending
  have hrest : ∀ other receivers, some (event, left) = some (other, receivers) →
      receivers.Nodup := by
    intro other receivers heq
    obtain ⟨-, rfl⟩ := Prod.ext_iff.mp (Option.some.inj heq)
    exact (List.nodup_cons.mp hnodup).2
  unfold WebSocketServer.deliver
  split
  · next hlistening =>
      let target : Connection :=
        { s.connections d with queue := (s.connections d).queue ++ [event] }
      have hdrawn : target.phase.drawn = (s.connections d).phase.drawn := rfl
      refine ⟨?_, ?_, h.numbered, ?_, ?_, h.subscribers, hrest⟩
      · refine update_forall ((h.streams d).arrive hsending hnodup hlistening) ?_
        exact fun e he => (h.streams e).pass_by hsending he Iff.rfl
      · exact h.holder_update fun hholds => hholds
      · exact fun e other hother => h.drawn e other ((update_drawn hdrawn e).symm.trans hother)
      · exact fun hnone => h.undrawn fun e => (update_drawn hdrawn e).symm.trans (hnone e)
  · next hlistening =>
      refine ⟨?_, h.holder, h.numbered, h.drawn, h.undrawn, h.subscribers.filter _, hrest⟩
      intro e
      by_cases he : e = d
      · subst he
        have hstream := h.streams e
        have hclosed : (s.connections e).phase.isOpen = true → False := fun hopen =>
          hlistening (hstream.subscribed hopen).2
        apply hstream.of_silent_bus
        · rfl
        · exact fun hnot _ hin => hnot (List.mem_filter.mp hin).1
        · exact fun hopen _ => (hclosed hopen).elim
      · exact (h.streams e).pass_by hsending he (by simp [he])

/-- Every subscriber has got the event. -/
theorem Sound.finish (h : s.Sound start) {event : NumberedEvent}
    (hsending : s.bus.sending = some (event, [])) :
    Sound start { s with bus := { s.bus with sending := none } } := by
  refine ⟨?_, h.holder, h.numbered, h.drawn, h.undrawn, h.subscribers, fun _ _ heq => by cases heq⟩
  intro d
  apply (h.streams d).of_silent_bus
  · rfl
  · exact fun hnot _ => hnot
  · intro _ hin
    refine ⟨hin, ?_⟩
    rw [awaited_sending hsending, if_neg List.not_mem_nil]
    rfl

theorem Sound.begin (h : s.Sound start) (hfree : s.lock = none)
    {envelope : ClientRequestEnvelope} (hphase : (s.connections c).phase = .requested envelope)
    (answers : List GatewayAnswer) : Sound start (s.begin c envelope answers) :=
  h.lock hfree ((h.streams c).begin hphase (h.published_le hfree) _) rfl _

/-- A frame that is read is handled. -/
theorem Sound.read (h : s.Sound start) (hphase : (s.connections c).phase = .reading)
    (message : ClientFrame) (sent : Bool) :
    Sound start (s.update c ((s.connections c).handleIncomingMessage sent message)) := by
  have hstream := h.streams c
  have hidle : (s.connections c).phase.holds = false := by rw [hphase]; rfl
  have hflushing : Sound start (s.update c ((s.connections c).to .flushing)) :=
    h.alone (hstream.to hphase rfl rfl fun _ _ howes => howes) hidle rfl
  have hclosed : Sound start (s.update c (s.connections c).close) :=
    h.alone hstream.close hidle rfl
  have hsent : ∀ frame : ServerFrame, frame.event = none → frame.response = none →
      Streams s.bus c (((s.connections c).send frame).to .flushing) := by
    intro frame hevent hresponse
    apply hstream.send hphase rfl (by rw [hevent]; rfl)
    intro pending current howes
    rw [hresponse]
    exact howes
  cases message with
  | text request =>
      cases request with
      | none => exact hclosed
      | some envelope => exact h.alone (hstream.request hphase envelope) hidle rfl
  | binary | pong | frame => exact hflushing
  | ping payload =>
      cases sent with
      | true => exact h.alone (hsent (.pong payload) rfl rfl) hidle rfl
      | false => exact hclosed
  | close =>
      cases sent with
      | true => exact h.alone (hsent .close rfl rfl).close hidle rfl
      | false => exact hclosed

omit [World] in
theorem holds_sendOrClose (connection : Connection) (sent : Bool) (frame : ServerFrame) :
    (connection.sendOrClose sent frame).phase.holds = false := by
  cases sent <;> rfl

/-- Whatever thread takes its next step. -/
theorem Sound.act (h : s.Sound start) {next : ConnectionStep} {t : WebSocketServer}
    (hact : s.act c next = some t) : t.Sound start := by
  have hstream := h.streams c
  cases acts_of_act hact with
  | accept hphase =>
      exact h.alone (hstream.join (by rw [hphase]; rfl) rfl) (by rw [hphase]; rfl) rfl
  | join hfree hphase => exact h.lock hfree (hstream.join (by rw [hphase]; rfl) rfl) rfl s.server
  | begin hfree hphase => exact h.begin hfree hphase _
  | subscribe hsending hphase => exact h.subscribe hphase hsending
  | number hsending hphase => exact h.number hphase
  | publish hsending hphase => exact h.publish hsending hphase
  | deliver hsending hphase => exact h.deliver hsending
  | delivered hsending hphase => exact h.finish hsending
  | leave hsending hphase =>
      exact h.unlock (hstream.to hphase rfl rfl fun _ _ howes => howes) (by rw [hphase]; rfl)
        (by rw [hphase]; rfl) rfl
  | unlock hsending hphase =>
      exact h.unlock (hstream.to hphase rfl rfl fun _ _ howes => howes) (by rw [hphase]; rfl)
        (by rw [hphase]; rfl) rfl
  | flushed hphase =>
      exact h.alone (hstream.to hphase rfl rfl fun _ _ howes => howes) (by rw [hphase]; rfl) rfl
  | flush hphase houtbound =>
      refine h.alone (hstream.sendOrClose hphase rfl ?_ ?_ _) (by rw [hphase]; rfl)
        (holds_sendOrClose _ _ _)
      · exact houtbound
      · exact fun _ _ howes => howes
  | wait hphase =>
      exact h.alone (hstream.to hphase rfl rfl fun _ _ howes => howes) (by rw [hphase]; rfl) rfl
  | read hphase => exact h.read hphase _ _
  | disconnect hphase => exact h.alone hstream.close (by rw [hphase]; rfl) rfl
  | respond hphase =>
      refine h.alone (hstream.sendOrClose hphase rfl ?_ ?_ _) (by rw [hphase]; rfl)
        (holds_sendOrClose _ _ _)
      · rfl
      · exact fun _ _ howes => howes
  | receive hhand hqueue => exact h.forward (hstream.receive hhand hqueue) rfl
  | drop hhand hphase => exact h.forward (hstream.stop hphase) rfl
  | pass hhand => exact h.forward (hstream.pass hhand) rfl
  | stop hhand hphase =>
      have hstopped := hstream.stop hphase
      rw [← hhand] at hstopped
      exact h.forward hstopped rfl

theorem sound_new (server : AppServer) : (WebSocketServer.new server start).Sound start where
  streams c := by
    refine ⟨fun _ => ⟨List.not_mem_nil, rfl⟩, le_rfl, List.nil_prefix, fun hopen => (by cases hopen),
      fun hopen => (by cases hopen), ⟨[], [], ⟨rfl, rfl⟩, rfl, rfl⟩, ?_⟩
    intro n handling hn
    cases hn
  holder c hholds := by cases hholds
  numbered := rfl
  drawn c event hevent := by cases hevent
  undrawn _ := rfl
  subscribers := List.nodup_nil
  receivers event left heq := by cases heq

end Sound

end WebSocketServer

/-! ### The streams of all connections -/

section Streams

variable [World] {bus : EventBus} {c : ConnectionId} {connection : Connection}

/-- Whatever has not been answered yet is one request at most. -/
theorem Streams.answered (h : Streams bus c connection) :
    ∃ answered pending, answered <+: connection.handlings ∧
      connection.requests = answered.map Handling.envelope ++ pending ∧
      connection.responses.map some = answered.map Handling.response ∧ pending.length ≤ 1 ∧
      (connection.phase = .flushing ∨ connection.phase = .reading → pending = []) := by
  obtain ⟨pending, current, howes, hrequests, hresponses⟩ := h.owed
  let n := connection.responses.length
  have hlength : (connection.handlings.drop n).length = current.length := by
    have htotal := congrArg List.length hresponses
    simp only [List.length_map, List.length_append] at htotal
    rw [List.length_drop, htotal]
    exact Nat.add_sub_cancel_left n current.length
  refine ⟨connection.handlings.take n, (connection.handlings.drop n).map Handling.envelope ++ pending,
    List.take_prefix n _, ?_, ?_, ?_, ?_⟩
  · rw [← List.append_assoc, ← List.map_append, List.take_append_drop]
    exact hrequests
  · rw [List.map_take, hresponses, List.take_left' (List.length_map some)]
  · rw [List.length_append, List.length_map, hlength, Nat.add_comm]
    exact howes.length_le
  · intro hphase
    have hnothing : pending = [] ∧ current = [] := by
      rcases hphase with hphase | hphase <;> rw [hphase] at howes <;> exact howes
    rw [hnothing.2] at hlength
    rw [List.eq_nil_of_length_eq_zero hlength, hnothing.1]
    rfl

/-- A loop that owes nothing has answered every request. -/
theorem Streams.all_answered (h : Streams bus c connection) (hnothing : ∀ pending current,
      connection.phase.Owes pending current → pending = [] ∧ current = []) :
    connection.responses.length = connection.requests.length := by
  obtain ⟨pending, current, howes, hrequests, hresponses⟩ := h.owed
  obtain ⟨rfl, rfl⟩ := hnothing pending current howes
  have hlength := congrArg List.length hresponses
  rw [List.append_nil, List.length_map, List.length_map] at hlength
  rw [hrequests, List.append_nil, List.length_map, hlength]

theorem Streams.inOrder (h : Streams bus c connection) : InOrder bus.published connection where
  events := h.begun
  responses := h.answered
  responseFirst := by
    intro n handling hn before event later hsent hsince
    by_contra hle
    have hprefix : before ++ [.text (.event event)] <+: connection.sent := by
      rw [hsent]
      exact ⟨later, List.append_assoc ..⟩
    have hfirst := h.first n handling hn _ hprefix
    rw [filterMap_concat, filterMap_concat, List.length_append] at hfirst
    have hbefore := hfirst (Nat.le_of_not_lt hle) event
      (List.mem_append_right _ (List.mem_singleton_self event))
    omega

end Streams

end Liz
