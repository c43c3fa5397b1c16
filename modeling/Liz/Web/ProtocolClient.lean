import Liz.Protocol.Json
import Liz.Protocol.Resources

/-!
# The connection of the web client

A client of the protocol keeps one socket, the requests that wait for their response, and a flag that
tells a wanted end of the connection from a lost one. It lives on a page of the browser, which runs
its timers and keeps every socket it ever made. Moments are counted in steps. What listeners do with
the events they are handed is left out.
-/

namespace Liz.Web

inductive ConnectionState
  | idle | connecting | connected | reconnecting | closed
  deriving DecidableEq, Repr

inductive ReadyState
  | connecting | opened | closing | closed
  deriving DecidableEq, Repr

structure ResponseError where
  code : String
  message : String
  retryable : Bool
  deriving DecidableEq, Repr

namespace ResponseError

def clientClosed : ResponseError :=
  { code := "client_closed"
    message := "The WebSocket connection closed before the request completed."
    retryable := true }

def notConnected : ResponseError :=
  { code := "not_connected"
    message := "Connect to the Liz app server before sending requests."
    retryable := true }

def requestTimeout : ResponseError :=
  { code := "request_timeout"
    message := "The Liz app server did not respond before the request timed out."
    retryable := true }

def sendFailed : ResponseError :=
  { code := "send_failed"
    message := "The request could not be written to the WebSocket."
    retryable := true }

def connectionClosed : ResponseError :=
  { code := "connection_closed"
    message := "The Liz app server connection closed before the request completed."
    retryable := true }

end ResponseError

structure WebSocket where
  url : String
  readyState : ReadyState
  openedAt : Option Nat
  deriving DecidableEq, Repr

/-- The socket stays closing until its close event comes. -/
def WebSocket.close (socket : WebSocket) : WebSocket :=
  match socket.readyState with
  | .connecting | .opened => { socket with readyState := .closing }
  | .closing | .closed => socket

/-- A socket that has been closed is opened no more. -/
def WebSocket.opens (now : Nat) (socket : WebSocket) : WebSocket :=
  if socket.readyState = .connecting then
    { socket with readyState := .opened, openedAt := some now }
  else socket

def WebSocket.ends (socket : WebSocket) : WebSocket := { socket with readyState := .closed }

/-- The moment of the call stands for its promise and for the timer that rejects it. -/
structure PendingRequest where
  calledAt : Nat
  deriving DecidableEq, Repr

structure RequestTimer where
  calledAt : Nat
  requestId : String
  deriving DecidableEq, Repr

structure SentRequest where
  socket : Nat
  requestId : String
  method : String
  params : Json
  calledAt : Nat

inductive Settlement
  | resolved (response : Json)
  | rejected (error : ResponseError)

/-- What arrives as a message: data that is no text, a text that is no JSON, or a value. -/
inductive Frame
  | data
  | malformed
  | value (message : Json)

/-- The response a frame carries; frames of other kinds go to listeners. -/
def Frame.response? : Frame → Option Json
  | .value message => if message.textAt "kind" = some "response" then message.get? "payload" else none
  | _ => none

structure ProtocolClient where
  state : ConnectionState
  url : Option String
  /-- The position of its socket among those that were made. -/
  socket : Option Nat
  pending : Table String PendingRequest
  closedByClient : Bool

structure ClientPage extends ProtocolClient where
  sockets : List WebSocket
  /-- When the running reconnect timers were set. -/
  reconnectTimers : List Nat
  requestTimers : List RequestTimer
  sent : List SentRequest
  settled : List (Nat × Settlement)
  time : Nat

namespace ClientPage

def new : ClientPage :=
  { state := .idle, url := none, socket := none, pending := ∅, closedByClient := false,
    sockets := [], reconnectTimers := [], requestTimers := [], sent := [], settled := [], time := 0 }

def readyState (page : ClientPage) (socket : Nat) : Option ReadyState :=
  page.sockets[socket]?.map WebSocket.readyState

def updateSocket (page : ClientPage) (socket : Nat) (f : WebSocket → WebSocket) : ClientPage :=
  { page with sockets := page.sockets.modify socket f }

/-- The client's own socket is closed, when it has one. -/
def closeSocket (page : ClientPage) : ClientPage :=
  match page.socket with
  | some socket => page.updateSocket socket WebSocket.close
  | none => page

def setState (page : ClientPage) (state : ConnectionState) : ClientPage :=
  { page with state := state }

def settle (page : ClientPage) (calledAt : Nat) (settlement : Settlement) : ClientPage :=
  { page with settled := page.settled ++ [(calledAt, settlement)] }

def clearRequestTimer (page : ClientPage) (calledAt : Nat) : ClientPage :=
  { page with requestTimers := page.requestTimers.filter (·.calledAt != calledAt) }

def deletePending (page : ClientPage) (requestId : String) : ClientPage :=
  { page with pending := page.pending.erase requestId }

def pendingRequests (page : ClientPage) : List PendingRequest :=
  page.pending.entries.map Sigma.snd

def rejectPending (page : ClientPage) (error : ResponseError) : ClientPage :=
  { page with
    requestTimers := page.requestTimers.filter fun timer =>
      !page.pendingRequests.any (·.calledAt == timer.calledAt)
    settled := page.settled ++
      page.pendingRequests.map fun pending => (pending.calledAt, Settlement.rejected error)
    pending := ∅ }

/-- The address a socket is made for; an empty one counts as none. -/
def givenUrl (page : ClientPage) : Option String := page.url.filter fun url => !url.isEmpty

/-- The browser makes no socket for an address that it cannot read. -/
def openSocket (page : ClientPage) (state : ConnectionState) (made : Bool) : ClientPage :=
  match page.givenUrl with
  | none => page
  | some url =>
      let page := page.closeSocket.setState state
      if made then
        let socket : WebSocket := { url := url, readyState := .connecting, openedAt := none }
        { page with socket := some page.sockets.length, sockets := page.sockets ++ [socket] }
      else page

def connect (page : ClientPage) (url : String) (made : Bool) : ClientPage :=
  { page with url := some url, closedByClient := false }.openSocket .connecting made

def loseSocket (page : ClientPage) (error : ResponseError) : ClientPage :=
  { page with socket := none }.rejectPending error

def close (page : ClientPage) : ClientPage :=
  ({ page with closedByClient := true }.closeSocket.loseSocket .clientClosed).setState .closed

/-- The socket is there and open. -/
def ready (page : ClientPage) : Option Nat :=
  page.socket.filter fun socket => page.readyState socket = some .opened

/-- A request with the identifier that has been made for it. The socket can fail to write it. -/
def request (page : ClientPage) (requestId method : String) (params : Json) (writes : Bool) :
    ClientPage :=
  match page.ready with
  | none => page.settle page.time (.rejected .notConnected)
  | some socket =>
      let timer : RequestTimer := { calledAt := page.time, requestId := requestId }
      let pending : PendingRequest := { calledAt := page.time }
      let page := { page with
        requestTimers := page.requestTimers ++ [timer]
        pending := page.pending.insert requestId pending }
      if writes then
        let sent : SentRequest :=
          { socket := socket, requestId := requestId, method := method, params := params,
            calledAt := page.time }
        { page with sent := page.sent ++ [sent] }
      else
        let page := (page.clearRequestTimer page.time).deletePending requestId
        page.settle page.time (.rejected .sendFailed)

/-- The timer of a request runs out. -/
def requestDue (page : ClientPage) (timer : RequestTimer) : ClientPage :=
  if timer ∈ page.requestTimers then
    let page := (page.clearRequestTimer timer.calledAt).deletePending timer.requestId
    page.settle timer.calledAt (.rejected .requestTimeout)
  else page

def handleOpen (page : ClientPage) (socket : Nat) : ClientPage :=
  if (page.readyState socket).isSome then
    (page.updateSocket socket (WebSocket.opens page.time)).setState .connected
  else page

def handleError (page : ClientPage) (socket : Nat) : ClientPage :=
  if (page.readyState socket).isSome ∧ page.state = .connected then page.setState .reconnecting
  else page

def handleClose (page : ClientPage) (socket : Nat) : ClientPage :=
  let page := page.updateSocket socket WebSocket.ends
  if page.socket = some socket then
    let page := page.loseSocket .connectionClosed
    if page.closedByClient then page.setState .closed
    else
      { page.setState .reconnecting with reconnectTimers := page.reconnectTimers ++ [page.time] }
  else page

def dropReconnectTimer (page : ClientPage) (setAt : Nat) : ClientPage :=
  { page with reconnectTimers := page.reconnectTimers.erase setAt }

/-- A reconnect timer runs out. -/
def reconnectDue (page : ClientPage) (setAt : Nat) (made : Bool) : ClientPage :=
  if setAt ∈ page.reconnectTimers then
    let page := page.dropReconnectTimer setAt
    if page.closedByClient then page else page.openSocket .reconnecting made
  else page

def resolveResponse (page : ClientPage) (response : Json) : ClientPage :=
  match response.textAt "request_id" with
  | none => page
  | some requestId =>
      match page.pending.lookup requestId with
      | none => page
      | some pending =>
          ((page.clearRequestTimer pending.calledAt).deletePending requestId).settle
            pending.calledAt (.resolved response)

def handleMessage (page : ClientPage) (frame : Frame) : ClientPage :=
  match frame.response? with
  | some response => page.resolveResponse response
  | none => page

end ClientPage

/-- What happens on the page of a client. -/
inductive ClientStep
  | connect (url : String) (made : Bool)
  | close
  | request (requestId method : String) (params : Json) (writes : Bool)
  | opened (socket : Nat)
  | errored (socket : Nat)
  | closed (socket : Nat)
  | message (socket : Nat) (frame : Frame)
  | requestDue (timer : RequestTimer)
  | reconnectDue (setAt : Nat) (made : Bool)

namespace ClientPage

def act (page : ClientPage) : ClientStep → ClientPage
  | .connect url made => page.connect url made
  | .close => page.close
  | .request requestId method params writes => page.request requestId method params writes
  | .opened socket => page.handleOpen socket
  | .errored socket => page.handleError socket
  | .closed socket => page.handleClose socket
  | .message _ frame => page.handleMessage frame
  | .requestDue timer => page.requestDue timer
  | .reconnectDue setAt made => page.reconnectDue setAt made

def step (page : ClientPage) (step : ClientStep) : ClientPage :=
  { page.act step with time := page.time + 1 }

end ClientPage

end Liz.Web
