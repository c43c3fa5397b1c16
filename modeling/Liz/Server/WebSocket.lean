import Liz.Server.Requests
import Mathlib.Logic.Function.Basic

/-!
# The websocket transport

Every connection is served by two threads: a loop that sends the events waiting for the connection,
reads a frame and handles it, and a forwarder that takes events from the bus to the loop. The app
server is behind a mutex, and so are the subscribers of the event bus. What the threads do is cut
into steps between which any other thread may take its own; a thread that cannot take a step waits.
-/

namespace Liz

abbrev ConnectionId := Nat

structure ClientRequestEnvelope where
  requestId : String
  request : ClientRequest

structure ServerResponseEnvelope where
  requestId : String
  response : ServerResponse

/-- A published event, with the number that its identifier is made of. -/
structure NumberedEvent extends PendingEvent where
  sequence : Nat

inductive ServerTransportMessage
  | response (envelope : ServerResponseEnvelope)
  | event (event : NumberedEvent)

/-- A frame from a client. A text is a request, when it can be decoded. -/
inductive ClientFrame
  | text (request : Option ClientRequestEnvelope)
  | binary
  | ping (payload : List UInt8)
  | pong
  | close
  | frame

/-- A frame from the server. -/
inductive ServerFrame
  | text (message : ServerTransportMessage)
  | pong (payload : List UInt8)
  | close

def ServerFrame.event : ServerFrame → Option NumberedEvent
  | .text (.event event) => some event
  | _ => none

def ServerFrame.response : ServerFrame → Option ServerResponseEnvelope
  | .text (.response envelope) => some envelope
  | _ => none

/-! ### States -/

structure EventBus where
  subscribers : List ConnectionId
  sequence : Nat
  /-- The event that is being sent while the subscribers are locked, and those still to get it. -/
  sending : Option (NumberedEvent × List ConnectionId)
  /-- All that has been published, in order: a history that no thread reads. -/
  published : List NumberedEvent

/-- Where the loop of a connection is. -/
inductive LoopPhase
  | offline
  /-- The handshake is done, and the loop waits for the server in order to subscribe. -/
  | accepted
  /-- The loop has the server and is about to subscribe. -/
  | subscribing
  /-- The loop still has the server. -/
  | subscribed
  | flushing
  | reading
  /-- A request has been read, and the loop waits for the server. -/
  | requested (envelope : ClientRequestEnvelope)
  /-- The loop has the server, which has these events yet to publish. Without a response the server
  waits for its gateway after that. -/
  | handling (remaining : List PendingEvent) (response : Option ServerResponseEnvelope)
  /-- The next event has got its number and waits for the subscribers. -/
  | publishing (event : NumberedEvent) (remaining : List PendingEvent)
      (response : Option ServerResponseEnvelope)
  | responding (response : ServerResponseEnvelope)
  | closed

/-- A request that the server has begun to handle: in which state it did, what the gateway answers
meanwhile, and the number of the last event before. -/
structure Handling where
  server : AppServer
  envelope : ClientRequestEnvelope
  answers : List GatewayAnswer
  since : Nat

/-- The response to the request, when it comes. -/
def Handling.response [World] (handling : Handling) : Option ServerResponseEnvelope :=
  (handling.server.response { request := handling.envelope.request, answers := handling.answers }).map
    (ServerResponseEnvelope.mk handling.envelope.requestId)

structure Connection where
  phase : LoopPhase
  /-- The channel from the bus to the forwarder. -/
  queue : List NumberedEvent
  /-- The event that the forwarder has taken and not passed on yet. -/
  hand : Option NumberedEvent
  /-- The channel from the forwarder to the loop. -/
  outbound : List NumberedEvent
  /-- Whether the receiving end of the channel from the bus exists. -/
  listening : Bool
  sent : List ServerFrame
  /-- How many events had been published when the connection subscribed. -/
  subscribedAt : Nat
  /-- The requests that have been read. -/
  requests : List ClientRequestEnvelope
  handlings : List Handling

structure WebSocketServer where
  server : AppServer
  /-- The connection whose loop has the server. -/
  lock : Option ConnectionId
  bus : EventBus
  connections : ConnectionId → Connection

def Connection.offline : Connection :=
  { phase := .offline, queue := [], hand := none, outbound := [], listening := false, sent := [],
    subscribedAt := 0, requests := [], handlings := [] }

/-- A server without connections, whose bus has numbered events up to `sequence`. -/
def WebSocketServer.new (server : AppServer) (sequence : Nat) : WebSocketServer :=
  { server := server
    lock := none
    bus := { subscribers := [], sequence := sequence, sending := none, published := [] }
    connections := fun _ => .offline }

def WebSocketServer.update (s : WebSocketServer) (c : ConnectionId) (connection : Connection) :
    WebSocketServer :=
  { s with connections := Function.update s.connections c connection }

def Connection.send (connection : Connection) (frame : ServerFrame) : Connection :=
  { connection with sent := connection.sent ++ [frame] }

def Connection.to (connection : Connection) (phase : LoopPhase) : Connection :=
  { connection with phase := phase }

/-- The loop returns and drops its end of the channel from the forwarder. -/
def Connection.close (connection : Connection) : Connection :=
  { connection with phase := .closed, outbound := [] }

/-! ### Steps -/

/-- What one of the threads of a connection does next. Where it sends a frame, the socket may fail. -/
inductive ConnectionStep
  | accept
  | lock (answers : List GatewayAnswer)
  | subscribe
  | number
  | publish
  | deliver
  | unlock
  | flush (sent : Bool)
  /-- A frame is read, or none in time. -/
  | read (frame : Option ClientFrame) (sent : Bool)
  | disconnect
  | respond (sent : Bool)
  | receive
  | pass
  | stop

/-- A frame is sent before the loop goes on, or the loop returns. -/
def Connection.sendOrClose (connection : Connection) (sent : Bool) (frame : ServerFrame) :
    Connection :=
  if sent then (connection.send frame).to .flushing else connection.close

/-- Handles a frame that has been read. -/
def Connection.handleIncomingMessage (connection : Connection) (sent : Bool) :
    ClientFrame → Connection
  | .text none => connection.close
  | .text (some envelope) =>
      { connection with
        phase := .requested envelope
        requests := connection.requests ++ [envelope] }
  | .binary => connection.to .flushing
  | .ping payload => connection.sendOrClose sent (.pong payload)
  | .pong => connection.to .flushing
  | .close => (if sent then connection.send .close else connection).close
  | .frame => connection.to .flushing

/-- The forwarder runs once the loop has let go of the server. -/
def LoopPhase.forwards : LoopPhase → Bool
  | .offline | .accepted | .subscribing | .subscribed => false
  | _ => true

/-- The next event gets to a subscriber, or the subscriber is dropped. -/
def WebSocketServer.deliver (s : WebSocketServer) (event : NumberedEvent) (d : ConnectionId)
    (left : List ConnectionId) : WebSocketServer :=
  if (s.connections d).listening then
    { s.update d { s.connections d with queue := (s.connections d).queue ++ [event] } with
      bus := { s.bus with sending := some (event, left) } }
  else
    { s with bus := { s.bus with
        subscribers := s.bus.subscribers.filter (· ≠ d), sending := some (event, left) } }

section Steps

variable [World]

/-- The server begins to handle a request of the connection. -/
def WebSocketServer.begin (s : WebSocketServer) (c : ConnectionId)
    (envelope : ClientRequestEnvelope) (answers : List GatewayAnswer) : WebSocketServer :=
  let input : ServerInput := { request := envelope.request, answers := answers }
  let handling : Handling :=
    { server := s.server, envelope := envelope, answers := answers, since := s.bus.sequence }
  { s.update c { s.connections c with
      phase := .handling (s.server.newEvents input) handling.response
      handlings := (s.connections c).handlings ++ [handling] } with
    server := s.server.step input
    lock := some c }

/-- A step of a thread of the connection, when the thread can take it. -/
def WebSocketServer.act (s : WebSocketServer) (c : ConnectionId) :
    ConnectionStep → Option WebSocketServer
  | .accept =>
      match (s.connections c).phase with
      | .offline => some (s.update c ((s.connections c).to .accepted))
      | _ => none
  | .lock answers =>
      match s.lock, (s.connections c).phase with
      | none, .accepted =>
          some { s.update c ((s.connections c).to .subscribing) with lock := some c }
      | none, .requested envelope => some (s.begin c envelope answers)
      | _, _ => none
  | .subscribe =>
      match s.bus.sending, (s.connections c).phase with
      | none, .subscribing =>
          some { s.update c { s.connections c with
              phase := .subscribed, listening := true, subscribedAt := s.bus.published.length } with
            bus := { s.bus with subscribers := s.bus.subscribers ++ [c] } }
      | _, _ => none
  | .number =>
      match s.bus.sending, (s.connections c).phase with
      | none, .handling (event :: remaining) response =>
          let sequence := s.bus.sequence + 1
          some { s.update c ((s.connections c).to
              (.publishing { event with sequence := sequence } remaining response)) with
            bus := { s.bus with sequence := sequence } }
      | _, _ => none
  | .publish =>
      match s.bus.sending, (s.connections c).phase with
      | none, .publishing event remaining response =>
          some { s.update c ((s.connections c).to (.handling remaining response)) with
            bus := { s.bus with
              sending := some (event, s.bus.subscribers)
              published := s.bus.published ++ [event] } }
      | _, _ => none
  | .deliver =>
      match s.bus.sending, (s.connections c).phase with
      | some (event, d :: left), .handling _ _ => some (s.deliver event d left)
      | some (_, []), .handling _ _ => some { s with bus := { s.bus with sending := none } }
      | _, _ => none
  | .unlock =>
      match s.bus.sending, (s.connections c).phase with
      | none, .subscribed =>
          some { s.update c ((s.connections c).to .flushing) with lock := none }
      | none, .handling [] (some response) =>
          some { s.update c ((s.connections c).to (.responding response)) with lock := none }
      | _, _ => none
  | .flush sent =>
      match (s.connections c).phase, (s.connections c).outbound with
      | .flushing, [] => some (s.update c ((s.connections c).to .reading))
      | .flushing, event :: rest =>
          some (s.update c ({ s.connections c with outbound := rest }.sendOrClose sent
            (.text (.event event))))
      | _, _ => none
  | .read incoming sent =>
      match (s.connections c).phase, incoming with
      | .reading, none => some (s.update c ((s.connections c).to .flushing))
      | .reading, some message =>
          some (s.update c ((s.connections c).handleIncomingMessage sent message))
      | _, _ => none
  | .disconnect =>
      match (s.connections c).phase with
      | .reading => some (s.update c (s.connections c).close)
      | _ => none
  | .respond sent =>
      match (s.connections c).phase with
      | .responding response =>
          some (s.update c ((s.connections c).sendOrClose sent (.text (.response response))))
      | _ => none
  | .receive =>
      match (s.connections c).phase.forwards && (s.connections c).listening,
        (s.connections c).hand, (s.connections c).queue with
      | true, none, event :: rest =>
          some (s.update c { s.connections c with hand := some event, queue := rest })
      | _, _, _ => none
  | .pass =>
      match (s.connections c).hand, (s.connections c).phase with
      | some _, .closed => some (s.update c { s.connections c with hand := none, listening := false })
      | some event, _ =>
          some (s.update c { s.connections c with
            hand := none, outbound := (s.connections c).outbound ++ [event] })
      | none, _ => none
  | .stop =>
      match (s.connections c).hand, (s.connections c).phase with
      | none, .closed => some (s.update c { s.connections c with listening := false })
      | _, _ => none

/-- The server after a step, which is left as it is when the thread has to wait. -/
def WebSocketServer.step (s : WebSocketServer) (next : ConnectionId × ConnectionStep) :
    WebSocketServer :=
  (s.act next.1 next.2).getD s

end Steps

end Liz
