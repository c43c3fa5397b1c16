import Liz.Base.Runs
import Liz.Base.Tables
import Liz.Web.ProtocolClient

/-!
# The reconnect timers of the web client

A lost connection sets a timer, and nothing ever takes one back. When it runs out it closes the
socket the client has by then and makes a new one. So a timer does harm exactly when a socket comes
to be open while it is running, and the requests of an open socket wait undisturbed in every case.
-/

namespace Liz.Web

/-- The socket is open, or on its way to it. -/
def WebSocket.Live (socket : WebSocket) : Prop :=
  socket.readyState = .connecting ∨ socket.readyState = .opened

@[simp] theorem WebSocket.not_live_close (socket : WebSocket) : ¬ socket.close.Live := by
  obtain ⟨url, readyState, openedAt⟩ := socket
  cases readyState <;> simp [WebSocket.close, WebSocket.Live]

@[simp] theorem WebSocket.not_live_ends (socket : WebSocket) : ¬ socket.ends.Live := by
  simp [WebSocket.ends, WebSocket.Live]

theorem WebSocket.live_of_opens {now : Nat} {socket : WebSocket} (h : (socket.opens now).Live) :
    socket.Live ∧ (socket.opens now = socket ∨
      ((socket.opens now).openedAt = some now ∧ socket.readyState = .connecting)) := by
  unfold WebSocket.opens at h ⊢
  split
  · exact ⟨.inl ‹_›, .inr ⟨rfl, ‹_›⟩⟩
  · rw [if_neg ‹_›] at h
    exact ⟨h, .inl rfl⟩

namespace ClientPage

variable {page after : ClientPage} {opens : Nat → Prop}

/-- The socket has been open since a moment. -/
def OpenSince (page : ClientPage) (k openedAt : Nat) : Prop :=
  ∃ socket, page.sockets[k]? = some socket ∧ socket.readyState = .opened ∧
    socket.openedAt = some openedAt

/-- A timer that was set before the open socket was opened leaves it alone when it runs out. -/
def Harmless (page : ClientPage) : Prop :=
  ∀ setAt ∈ page.reconnectTimers, ∀ k openedAt, page.OpenSince k openedAt → setAt < openedAt →
    ∀ made, (page.step (.reconnectDue setAt made)).OpenSince k openedAt ∧
      (page.step (.reconnectDue setAt made)).socket = page.socket

/-- A socket is opened when no reconnect timer is running, as long as the client has an address to
connect to. -/
def OpensUndisturbed (page : ClientPage) : ClientStep → Prop
  | .opened k =>
      page.readyState k = some .connecting → page.givenUrl.isSome → page.reconnectTimers = []
  | _ => True

/-- The identifier that is made for a request is not one of those that wait. -/
def NewId (page : ClientPage) : ClientStep → Prop
  | .request requestId _ _ _ => page.pending.lookup requestId = none
  | _ => True

/-- The step brings the response to a request. -/
def Answers (request : SentRequest) : ClientStep → Prop
  | .message _ frame =>
      ∃ response, frame.response? = some response ∧
        response.textAt "request_id" = some request.requestId
  | _ => False

/-- The request waits for its response. -/
def Waits (page : ClientPage) (request : SentRequest) : Prop :=
  page.pending.lookup request.requestId = some ⟨request.calledAt⟩

/-- A request that waits, sent on a socket that is still open after the step, goes on waiting unless
it is answered or its time is up. -/
def KeepsRequests (page : ClientPage) (step : ClientStep) : Prop :=
  ∀ request ∈ page.sent, page.Waits request →
    (page.step step).readyState request.socket = some .opened →
    (page.step step).Waits request ∨ Answers request step ∨
      step = .requestDue ⟨request.calledAt, request.requestId⟩

/-! ### The sockets of a run -/

/-- Only the client's own socket is live. -/
def OnlyOwn (page : ClientPage) : Prop :=
  ∀ (k : Nat) (socket : WebSocket), page.sockets[k]? = some socket → socket.Live →
    page.socket = some k

/-- Only the client's own socket is live, the client wants the one it has, and what is kept of
moments lies in the past. -/
structure WellKept (page : ClientPage) : Prop where
  current : page.OnlyOwn
  wanted : ∀ k, page.socket = some k → page.closedByClient = false
  timers : ∀ setAt ∈ page.reconnectTimers, setAt < page.time
  opened : ∀ (k : Nat) (socket : WebSocket), page.sockets[k]? = some socket →
    socket.readyState = .opened →
    ∃ openedAt, socket.openedAt = some openedAt ∧ openedAt < page.time

theorem wellKept_new : new.WellKept := by
  constructor <;> simp [new, OnlyOwn]

/-- What an operation may do to sockets and timers, and which sockets it may open. -/
structure Follows (opens : Nat → Prop) (page after : ClientPage) : Prop where
  live : ∀ (k : Nat) (socket : WebSocket), after.sockets[k]? = some socket → socket.Live →
    after.socket = some k ∧ (page.sockets[k]? = some socket ∨ socket.readyState = .connecting ∨
      (socket.openedAt = some page.time ∧ opens k))
  wanted : ∀ k, after.socket = some k → after.closedByClient = false
  timers : ∀ setAt ∈ after.reconnectTimers, setAt ∈ page.reconnectTimers ∨ setAt = page.time

/-- An operation that has nothing to do with sockets. -/
structure Untouched (page after : ClientPage) : Prop where
  sockets : after.sockets = page.sockets
  socket : after.socket = page.socket
  wanted : after.closedByClient = page.closedByClient
  url : after.url = page.url
  timers : after.reconnectTimers = page.reconnectTimers

theorem WellKept.next (h : page.WellKept) (hfollows : Follows opens page after) :
    ({ after with time := page.time + 1 } : ClientPage).WellKept := by
  constructor
  · intro k socket hk hlive
    exact (hfollows.live k socket hk hlive).1
  · exact hfollows.wanted
  · intro setAt hset
    rcases hfollows.timers setAt hset with hold | hnow
    · exact Nat.lt_succ_of_lt (h.timers setAt hold)
    · exact hnow ▸ Nat.lt_succ_self page.time
  · intro k socket hk hopened
    rcases (hfollows.live k socket hk (.inr hopened)).2 with hold | hconnecting | hnow
    · obtain ⟨openedAt, hat, hlt⟩ := h.opened k socket hold hopened
      exact ⟨openedAt, hat, Nat.lt_succ_of_lt hlt⟩
    · rw [hopened] at hconnecting
      cases hconnecting
    · exact ⟨page.time, hnow.1, Nat.lt_succ_self page.time⟩

theorem Untouched.follows (h : Untouched page after) (hpage : page.WellKept) :
    Follows opens page after := by
  constructor
  · intro k socket hk hlive
    rw [h.sockets] at hk
    exact ⟨h.socket ▸ hpage.current k socket hk hlive, .inl hk⟩
  · intro k hk
    rw [h.wanted]
    exact hpage.wanted k (h.socket ▸ hk)
  · intro setAt hset
    exact .inl (h.timers ▸ hset)

theorem untouched_request (page : ClientPage) (requestId method : String) (params : Json)
    (writes : Bool) : Untouched page (page.request requestId method params writes) := by
  unfold request
  split
  · exact ⟨rfl, rfl, rfl, rfl, rfl⟩
  · cases writes <;> exact ⟨rfl, rfl, rfl, rfl, rfl⟩

theorem untouched_requestDue (page : ClientPage) (timer : RequestTimer) :
    Untouched page (page.requestDue timer) := by
  unfold requestDue
  split <;> exact ⟨rfl, rfl, rfl, rfl, rfl⟩

theorem untouched_handleError (page : ClientPage) (k : Nat) :
    Untouched page (page.handleError k) := by
  unfold handleError
  split <;> exact ⟨rfl, rfl, rfl, rfl, rfl⟩

theorem untouched_handleMessage (page : ClientPage) (frame : Frame) :
    Untouched page (page.handleMessage frame) := by
  unfold handleMessage
  split
  · unfold resolveResponse
    split
    · exact ⟨rfl, rfl, rfl, rfl, rfl⟩
    · split <;> exact ⟨rfl, rfl, rfl, rfl, rfl⟩
  · exact ⟨rfl, rfl, rfl, rfl, rfl⟩

/-- What is live after a socket was closed or ended was live before, and is another one. -/
theorem live_of_updateSocket {i k : Nat} {f : WebSocket → WebSocket} {socket : WebSocket}
    (hf : ∀ s, ¬ (f s).Live) (hk : (page.updateSocket i f).sockets[k]? = some socket)
    (hlive : socket.Live) : k ≠ i ∧ page.sockets[k]? = some socket := by
  rw [updateSocket, List.getElem?_modify] at hk
  obtain ⟨before, hbefore, rfl⟩ := Option.map_eq_some_iff.mp hk
  by_cases hik : i = k
  · rw [if_pos hik] at hlive
    exact absurd hlive (hf before)
  · rw [if_neg hik]
    exact ⟨fun h => hik h.symm, hbefore⟩

/-- Once the client has closed its socket, none is live. -/
theorem not_live_closeSocket (h : page.OnlyOwn) {k : Nat} {socket : WebSocket}
    (hk : page.closeSocket.sockets[k]? = some socket) : ¬ socket.Live := by
  intro hlive
  unfold closeSocket at hk
  split at hk
  · rename_i i hi
    obtain ⟨hne, hbefore⟩ := live_of_updateSocket WebSocket.not_live_close hk hlive
    have hcurrent := h k socket hbefore hlive
    rw [hi] at hcurrent
    exact hne (Option.some.inj hcurrent).symm
  · rename_i hnone
    have hcurrent := h k socket hk hlive
    rw [hnone] at hcurrent
    cases hcurrent

theorem follows_openSocket (h : page.WellKept) (hwanted : page.closedByClient = false)
    (state : ConnectionState) (made : Bool) : Follows opens page (page.openSocket state made) := by
  unfold openSocket
  split
  · exact ⟨fun k socket hk hlive => ⟨h.current k socket hk hlive, .inl hk⟩, h.wanted,
      fun setAt hset => .inl hset⟩
  · rename_i url _
    have hclosed : page.closeSocket.closedByClient = false ∧
        page.closeSocket.reconnectTimers = page.reconnectTimers := by
      unfold closeSocket
      split <;> exact ⟨hwanted, rfl⟩
    cases made with
    | false =>
        refine ⟨fun k socket hk hlive => ?_, fun _ _ => hclosed.1, fun setAt hset => ?_⟩
        · exact absurd hlive (not_live_closeSocket h.current hk)
        · exact .inl (hclosed.2 ▸ hset)
    | true =>
        refine ⟨fun k socket hk hlive => ?_, fun _ _ => hclosed.1, fun setAt hset => ?_⟩
        · have hmade : (page.closeSocket.sockets ++ [⟨url, .connecting, none⟩])[k]? = some socket := hk
          rw [List.getElem?_append] at hmade
          split at hmade
          · exact absurd hlive (not_live_closeSocket h.current hmade)
          · rename_i hge
            obtain ⟨hzero, rfl⟩ := List.getElem?_eq_some_iff.mp hmade
            have hlast : page.closeSocket.sockets.length = k := by
              rw [List.length_singleton] at hzero
              omega
            exact ⟨congrArg some hlast, .inr (.inl (by simp))⟩
        · exact .inl (hclosed.2 ▸ hset)

theorem follows_connect (h : page.WellKept) (url : String) (made : Bool) :
    Follows opens page (page.connect url made) := by
  have hpage : ({ page with url := some url, closedByClient := false } : ClientPage).WellKept :=
    ⟨h.current, fun _ _ => rfl, h.timers, h.opened⟩
  have hfollows : Follows opens _ _ := follows_openSocket hpage rfl .connecting made
  exact ⟨hfollows.live, hfollows.wanted, hfollows.timers⟩

theorem follows_close (h : page.WellKept) : Follows opens page page.close := by
  have htimers : ({ page with closedByClient := true } : ClientPage).closeSocket.reconnectTimers =
      page.reconnectTimers := by
    unfold closeSocket
    split <;> rfl
  refine ⟨fun k socket hk hlive => ?_, fun k hk => ?_, fun setAt hset => .inl (htimers ▸ hset)⟩
  · have hpage : ({ page with closedByClient := true } : ClientPage).OnlyOwn := h.current
    exact absurd hlive (not_live_closeSocket hpage hk)
  · cases hk

theorem follows_handleOpen (h : page.WellKept) (i : Nat) :
    Follows (fun k => i = k ∧ page.readyState k = some .connecting) page (page.handleOpen i) := by
  unfold handleOpen
  split
  · refine ⟨fun k socket hk hlive => ?_, h.wanted, fun setAt hset => .inl hset⟩
    simp only [setState, updateSocket, List.getElem?_modify] at hk
    obtain ⟨before, hbefore, rfl⟩ := Option.map_eq_some_iff.mp hk
    split at hlive
    · rename_i hik
      obtain ⟨hlive, hsame | ⟨hnow, hconnecting⟩⟩ := WebSocket.live_of_opens hlive
      · exact ⟨h.current k before hbefore hlive, .inl (by rw [if_pos hik, hsame, hbefore])⟩
      · have hready : page.readyState k = some .connecting := by
          rw [readyState, hbefore, Option.map_some, hconnecting]
        exact ⟨h.current k before hbefore hlive,
          .inr (.inr ⟨by rw [if_pos hik, hnow], hik, hready⟩)⟩
    · rename_i hik
      exact ⟨h.current k before hbefore hlive, .inl (by rw [if_neg hik, hbefore])⟩
  · exact ⟨fun k socket hk hlive => ⟨h.current k socket hk hlive, .inl hk⟩, h.wanted,
      fun setAt hset => .inl hset⟩

theorem follows_handleClose (h : page.WellKept) (i : Nat) :
    Follows opens page (page.handleClose i) := by
  have hother : ∀ (k : Nat) (socket : WebSocket),
      (page.updateSocket i WebSocket.ends).sockets[k]? = some socket → socket.Live →
        k ≠ i ∧ page.sockets[k]? = some socket :=
    fun k socket hk hlive => live_of_updateSocket WebSocket.not_live_ends hk hlive
  unfold handleClose
  dsimp only
  split
  · rename_i hi
    have hsilent : ∀ (k : Nat) (socket : WebSocket),
        (page.updateSocket i WebSocket.ends).sockets[k]? = some socket → ¬ socket.Live := by
      intro k socket hk hlive
      obtain ⟨hne, hbefore⟩ := hother k socket hk hlive
      exact hne (Option.some.inj ((h.current k socket hbefore hlive).symm.trans hi))
    split
    · exact ⟨fun k socket hk hlive => absurd hlive (hsilent k socket hk), fun k hk => (by cases hk),
        fun setAt hset => .inl hset⟩
    · exact ⟨fun k socket hk hlive => absurd hlive (hsilent k socket hk), fun k hk => (by cases hk),
        fun setAt hset => (List.mem_append.mp hset).imp_right List.mem_singleton.mp⟩
  · refine ⟨fun k socket hk hlive => ?_, h.wanted, fun setAt hset => .inl hset⟩
    obtain ⟨_, hbefore⟩ := hother k socket hk hlive
    exact ⟨h.current k socket hbefore hlive, .inl hbefore⟩

theorem follows_reconnectDue (h : page.WellKept) (setAt : Nat) (made : Bool) :
    Follows opens page (page.reconnectDue setAt made) := by
  unfold reconnectDue
  split
  · have hpage : (page.dropReconnectTimer setAt).WellKept :=
      ⟨h.current, h.wanted, fun t ht => h.timers t (List.mem_of_mem_erase ht), h.opened⟩
    dsimp only
    split
    · exact ⟨fun k socket hk hlive => ⟨h.current k socket hk hlive, .inl hk⟩, h.wanted,
        fun t ht => .inl (List.mem_of_mem_erase ht)⟩
    · rename_i hwanted
      have hfollows : Follows opens _ _ :=
        follows_openSocket hpage (Bool.not_eq_true _ ▸ hwanted) .reconnecting made
      exact ⟨hfollows.live, hfollows.wanted,
        fun t ht => (hfollows.timers t ht).imp_left List.mem_of_mem_erase⟩
  · exact ⟨fun k socket hk hlive => ⟨h.current k socket hk hlive, .inl hk⟩, h.wanted,
      fun t ht => .inl ht⟩

/-- A step opens the socket whose open event it is. -/
def Opens (page : ClientPage) (step : ClientStep) (k : Nat) : Prop :=
  step = .opened k ∧ page.readyState k = some .connecting

theorem follows_act (h : page.WellKept) (step : ClientStep) :
    Follows (page.Opens step) page (page.act step) := by
  cases step with
  | connect url made => exact follows_connect h url made
  | close => exact follows_close h
  | request requestId method params writes =>
      exact (untouched_request page requestId method params writes).follows h
  | opened i =>
      have hfollows := follows_handleOpen h i
      refine ⟨fun k socket hk hlive => ?_, hfollows.wanted, hfollows.timers⟩
      obtain ⟨hcurrent, hold | hconnecting | ⟨hnow, rfl, hready⟩⟩ := hfollows.live k socket hk hlive
      · exact ⟨hcurrent, .inl hold⟩
      · exact ⟨hcurrent, .inr (.inl hconnecting)⟩
      · exact ⟨hcurrent, .inr (.inr ⟨hnow, rfl, hready⟩)⟩
  | errored k => exact (untouched_handleError page k).follows h
  | closed k => exact follows_handleClose h k
  | message k frame => exact (untouched_handleMessage page frame).follows h
  | requestDue timer => exact (untouched_requestDue page timer).follows h
  | reconnectDue setAt made => exact follows_reconnectDue h setAt made

theorem WellKept.step (h : page.WellKept) (step : ClientStep) : (page.step step).WellKept :=
  h.next (follows_act h step)

/-! ### Harm -/

theorem openSocket_of_noUrl (h : page.givenUrl = none) (state : ConnectionState) (made : Bool) :
    page.openSocket state made = page := by
  rw [openSocket, h]

/-- A client that makes a socket has no open one. -/
theorem not_open_openSocket (h : page.OnlyOwn) (hurl : page.givenUrl ≠ none)
    (state : ConnectionState) (made : Bool) (k openedAt : Nat) :
    ¬ (page.openSocket state made).OpenSince k openedAt := by
  obtain ⟨url, hurl⟩ := Option.ne_none_iff_exists'.mp hurl
  intro ⟨socket, hk, hopened, _⟩
  rw [openSocket, hurl] at hk
  cases made with
  | false => exact not_live_closeSocket h hk (.inr hopened)
  | true =>
      have hmade : (page.closeSocket.sockets ++ [⟨url, .connecting, none⟩])[k]? = some socket := hk
      rcases List.mem_append.mp (List.mem_of_getElem? hmade) with hold | hnew
      · obtain ⟨i, hi⟩ := List.getElem?_of_mem hold
        exact not_live_closeSocket h hi (.inr hopened)
      · rw [List.mem_singleton.mp hnew] at hopened
        cases hopened

theorem reconnectDue_eq {setAt : Nat} (hset : setAt ∈ page.reconnectTimers)
    (hwanted : page.closedByClient = false) (made : Bool) :
    page.reconnectDue setAt made =
      (page.dropReconnectTimer setAt).openSocket .reconnecting made := by
  have hkept : (page.dropReconnectTimer setAt).closedByClient = false := hwanted
  simp only [reconnectDue, if_pos hset, hkept, Bool.false_eq_true, if_false]

/-- A timer is harmless when it comes after every open socket, or when the client would not know
where to connect to. -/
theorem harmless_iff (h : page.WellKept) :
    page.Harmless ↔ ∀ setAt ∈ page.reconnectTimers, ∀ k openedAt, page.OpenSince k openedAt →
      setAt < openedAt → page.givenUrl = none := by
  have hwanted : ∀ k openedAt, page.OpenSince k openedAt → page.closedByClient = false := by
    intro k openedAt ⟨socket, hk, hopened, _⟩
    exact h.wanted k (h.current k socket hk (.inr hopened))
  constructor
  · intro hharmless setAt hset k openedAt hopen hlt
    by_contra hurl
    have hkept : (page.reconnectDue setAt true).OpenSince k openedAt :=
      (hharmless setAt hset k openedAt hopen hlt true).1
    have hown : (page.dropReconnectTimer setAt).OnlyOwn := h.current
    rw [reconnectDue_eq hset (hwanted k openedAt hopen)] at hkept
    exact not_open_openSocket hown hurl .reconnecting true k openedAt hkept
  · intro hnone setAt hset k openedAt hopen hlt made
    have hurl : (page.dropReconnectTimer setAt).givenUrl = none :=
      hnone setAt hset k openedAt hopen hlt
    have hdue : page.reconnectDue setAt made = page.dropReconnectTimer setAt := by
      rw [reconnectDue_eq hset (hwanted k openedAt hopen)]
      exact openSocket_of_noUrl hurl .reconnecting made
    rw [step, act, hdue]
    exact ⟨hopen, rfl⟩

/-- What is open after a step was open before it, unless the step opened it. -/
theorem openSince_act (h : page.WellKept) {step : ClientStep} {k openedAt : Nat}
    (hopen : (page.act step).OpenSince k openedAt) :
    page.OpenSince k openedAt ∨ page.Opens step k := by
  obtain ⟨socket, hk, hopened, hat⟩ := hopen
  rcases ((follows_act h step).live k socket hk (.inr hopened)).2 with hold | hconnecting | hnow
  · exact .inl ⟨socket, hold, hopened, hat⟩
  · rw [hopened] at hconnecting
    cases hconnecting
  · exact .inr hnow.2

theorem url_openSocket (page : ClientPage) (state : ConnectionState) (made : Bool) :
    (page.openSocket state made).url = page.url := by
  unfold openSocket closeSocket
  cases page.givenUrl <;> cases page.socket <;> cases made <;> rfl

/-- Only connecting gives another address. -/
theorem url_act (page : ClientPage) {step : ClientStep}
    (hstep : ∀ url made, step ≠ .connect url made) : (page.act step).url = page.url := by
  cases step with
  | connect url made => exact absurd rfl (hstep url made)
  | close =>
      simp only [act, close, closeSocket]
      split <;> rfl
  | request requestId method params writes =>
      exact (untouched_request page requestId method params writes).url
  | opened i =>
      simp only [act, handleOpen]
      split <;> rfl
  | errored i => exact (untouched_handleError page i).url
  | closed i =>
      simp only [act, handleClose]
      split
      · split <;> rfl
      · rfl
  | message i frame => exact (untouched_handleMessage page frame).url
  | requestDue timer => exact (untouched_requestDue page timer).url
  | reconnectDue setAt made =>
      simp only [act, reconnectDue]
      split
      · split
        · rfl
        · exact url_openSocket (page.dropReconnectTimer setAt) .reconnecting made
      · rfl

/-- While a socket is open the client keeps its address, or loses it. -/
theorem givenUrl_act (h : page.WellKept) {step : ClientStep} {k openedAt : Nat}
    (hopen : (page.act step).OpenSince k openedAt) (hnone : page.givenUrl = none) :
    (page.act step).givenUrl = none := by
  by_cases hstep : ∀ url made, step ≠ .connect url made
  · rw [givenUrl, url_act page hstep]
    exact hnone
  · obtain ⟨url, made, rfl⟩ : ∃ url made, step = .connect url made := by
      by_contra hother
      exact hstep fun url made heq => hother ⟨url, made, heq⟩
    let connecting : ClientPage := { page with url := some url, closedByClient := false }
    have hown : connecting.OnlyOwn := h.current
    have hurl : (page.act (.connect url made)).givenUrl = connecting.givenUrl := by
      rw [givenUrl, givenUrl, ← url_openSocket connecting .connecting made]
      rfl
    rw [hurl]
    by_contra hgiven
    exact not_open_openSocket hown hgiven .connecting made k openedAt hopen

/-- A step that opens a socket does no more than that. -/
theorem act_opens {step : ClientStep} {k : Nat} (hopens : page.Opens step k) :
    (page.act step).OpenSince k page.time ∧
      (page.act step).reconnectTimers = page.reconnectTimers := by
  obtain ⟨rfl, hready⟩ := hopens
  obtain ⟨socket, hk, hconnecting⟩ := Option.map_eq_some_iff.mp hready
  have hact : page.act (.opened k) =
      (page.updateSocket k (WebSocket.opens page.time)).setState .connected := by
    rw [act, handleOpen, if_pos (by rw [hready]; rfl)]
  rw [hact]
  refine ⟨⟨socket.opens page.time, ?_, ?_, ?_⟩, rfl⟩
  · simp [setState, updateSocket, hk]
  · simp [WebSocket.opens, hconnecting]
  · simp [WebSocket.opens, hconnecting]

theorem givenUrl_act_opens {step : ClientStep} {k : Nat} (hopens : page.Opens step k) :
    (page.act step).givenUrl = page.givenUrl := by
  have hurl := @url_act page step fun url made heq => by
    rw [hopens.1] at heq
    cases heq
  rw [givenUrl, givenUrl, hurl]

/-- A step leaves every timer harmless exactly when it opens no socket while one is running. -/
theorem harmless_step (h : page.WellKept) (hharmless : page.Harmless) (step : ClientStep) :
    (page.step step).Harmless ↔ page.OpensUndisturbed step := by
  rw [harmless_iff h] at hharmless
  rw [harmless_iff (h.step step)]
  constructor
  · intro hnone
    cases step with
    | opened k =>
        intro hready hurl
        have hopens : page.Opens (.opened k) k := ⟨rfl, hready⟩
        obtain ⟨hopen, htimers⟩ := act_opens hopens
        apply List.eq_nil_iff_forall_not_mem.mpr
        intro setAt hset
        have hset' : setAt ∈ (page.act (.opened k)).reconnectTimers := htimers ▸ hset
        have hlost := hnone setAt hset' k page.time hopen (h.timers setAt hset)
        have hsame : (page.step (.opened k)).givenUrl = page.givenUrl := givenUrl_act_opens hopens
        rw [← hsame, hlost] at hurl
        cases hurl
    | _ => trivial
  · intro hundisturbed setAt hset k openedAt hopen hlt
    show (page.act step).givenUrl = none
    rcases openSince_act h hopen with hold | hopens
    · rcases (follows_act h step).timers setAt hset with hearlier | rfl
      · exact givenUrl_act h hopen (hharmless setAt hearlier k openedAt hold hlt)
      · -- a timer that is set by the step is later than everything that is open
        obtain ⟨socket, hk, hopened, hat⟩ := hold
        obtain ⟨moment, hmoment, hpast⟩ := h.opened k socket hk hopened
        rw [hat] at hmoment
        cases hmoment
        exact absurd hlt (Nat.lt_asymm hpast)
    · have htimers : setAt ∈ page.reconnectTimers := (act_opens hopens).2 ▸ hset
      rw [givenUrl_act_opens hopens]
      obtain ⟨rfl, hready⟩ := hopens
      by_contra hurl
      rw [hundisturbed hready (Option.isSome_iff_ne_none.mpr hurl)] at htimers
      cases htimers

/-! ### Requests -/

/-- The timer of a request belongs to the request that waits under its identifier. -/
def TimersMatch (page : ClientPage) : Prop :=
  ∀ timer ∈ page.requestTimers, page.pending.lookup timer.requestId = some ⟨timer.calledAt⟩

/-- A timer that is still running is the one of a request under another identifier. -/
theorem TimersMatch.settled (h : page.TimersMatch) {requestId : String} {calledAt : Nat}
    (hpending : page.pending.lookup requestId = some ⟨calledAt⟩) :
    ((page.clearRequestTimer calledAt).deletePending requestId).TimersMatch := by
  intro timer htimer
  obtain ⟨hrunning, hother⟩ := List.mem_filter.mp htimer
  have hne : timer.requestId ≠ requestId := by
    intro hsame
    have hmatch := h timer hrunning
    rw [hsame, hpending] at hmatch
    cases hmatch
    simp at hother
  show (page.pending.erase requestId).lookup timer.requestId = _
  rw [AList.lookup_erase_ne hne]
  exact h timer hrunning

theorem timersMatch_loseSocket (h : page.TimersMatch) (error : ResponseError) :
    (page.loseSocket error).TimersMatch := by
  intro timer htimer
  obtain ⟨hrunning, hother⟩ := List.mem_filter.mp htimer
  have hwaits : (⟨timer.calledAt⟩ : PendingRequest) ∈ page.pendingRequests :=
    Tables.mem_values_iff.mpr ⟨timer.requestId, h timer hrunning⟩
  have hnone : page.pendingRequests.any (·.calledAt == timer.calledAt) = false :=
    (Bool.not_eq_true' _).mp hother
  exact absurd (List.any_eq_false.mp hnone ⟨timer.calledAt⟩ hwaits) (by simp)

theorem timersMatch_request (h : page.TimersMatch) {requestId : String}
    (hnew : page.pending.lookup requestId = none) (method : String) (params : Json)
    (writes : Bool) : (page.request requestId method params writes).TimersMatch := by
  have hne : ∀ timer ∈ page.requestTimers, timer.requestId ≠ requestId := by
    intro timer htimer hsame
    have hmatch := h timer htimer
    rw [hsame, hnew] at hmatch
    cases hmatch
  unfold request
  split
  · exact h
  · have hcalled : ({ page with
        requestTimers := page.requestTimers ++ [⟨page.time, requestId⟩]
        pending := page.pending.insert requestId ⟨page.time⟩ } : ClientPage).TimersMatch := by
      intro timer htimer
      rcases List.mem_append.mp htimer with hold | hnow
      · show (page.pending.insert requestId _).lookup timer.requestId = _
        rw [AList.lookup_insert_ne (hne timer hold)]
        exact h timer hold
      · obtain rfl := List.mem_singleton.mp hnow
        exact AList.lookup_insert page.pending
    cases writes with
    | true => exact hcalled
    | false => exact hcalled.settled (AList.lookup_insert page.pending)

/-- Nothing happens to the requests that wait. -/
structure SameRequests (page after : ClientPage) : Prop where
  pending : after.pending = page.pending
  timers : after.requestTimers = page.requestTimers

theorem TimersMatch.of_same (h : page.TimersMatch) (hsame : SameRequests page after) :
    after.TimersMatch := by
  intro timer htimer
  rw [hsame.pending]
  exact h timer (hsame.timers ▸ htimer)

theorem sameRequests_closeSocket (page : ClientPage) : SameRequests page page.closeSocket := by
  unfold closeSocket
  split <;> exact ⟨rfl, rfl⟩

theorem sameRequests_openSocket (page : ClientPage) (state : ConnectionState) (made : Bool) :
    SameRequests page (page.openSocket state made) := by
  have hclosed := sameRequests_closeSocket page
  unfold openSocket
  split
  · exact ⟨rfl, rfl⟩
  · cases made <;> exact ⟨hclosed.pending, hclosed.timers⟩

theorem sameRequests_handleOpen (page : ClientPage) (i : Nat) :
    SameRequests page (page.handleOpen i) := by
  unfold handleOpen
  split <;> exact ⟨rfl, rfl⟩

theorem sameRequests_handleError (page : ClientPage) (i : Nat) :
    SameRequests page (page.handleError i) := by
  unfold handleError
  split <;> exact ⟨rfl, rfl⟩

theorem sameRequests_reconnectDue (page : ClientPage) (setAt : Nat) (made : Bool) :
    SameRequests page (page.reconnectDue setAt made) := by
  unfold reconnectDue
  split
  · dsimp only
    split
    · exact ⟨rfl, rfl⟩
    · have hopened := sameRequests_openSocket (page.dropReconnectTimer setAt) .reconnecting made
      exact ⟨hopened.pending, hopened.timers⟩
  · exact ⟨rfl, rfl⟩

theorem sameRequests_connect (page : ClientPage) (url : String) (made : Bool) :
    SameRequests page (page.connect url made) := by
  have hopened := sameRequests_openSocket { page with url := some url, closedByClient := false }
    .connecting made
  exact ⟨hopened.pending, hopened.timers⟩

/-- A client whose own socket ends has none, and rejects every request. -/
theorem handleClose_cases (page : ClientPage) (i : Nat) :
    SameRequests page (page.handleClose i) ∨
      ((page.handleClose i).socket = none ∧
        (page.TimersMatch → (page.handleClose i).TimersMatch)) := by
  have hlost : page.TimersMatch →
      ((page.updateSocket i WebSocket.ends).loseSocket .connectionClosed).TimersMatch :=
    fun h => timersMatch_loseSocket (h.of_same ⟨rfl, rfl⟩) .connectionClosed
  unfold handleClose
  dsimp only
  split
  · right
    split <;> exact ⟨rfl, hlost⟩
  · exact .inl ⟨rfl, rfl⟩

theorem timersMatch_close (h : page.TimersMatch) : page.close.TimersMatch := by
  have hclosed := sameRequests_closeSocket { page with closedByClient := true }
  have hsame : SameRequests page ({ page with closedByClient := true } : ClientPage).closeSocket :=
    ⟨hclosed.pending, hclosed.timers⟩
  exact timersMatch_loseSocket (h.of_same hsame) .clientClosed

theorem timersMatch_requestDue (h : page.TimersMatch) (timer : RequestTimer) :
    (page.requestDue timer).TimersMatch := by
  unfold requestDue
  split
  · exact h.settled (h timer ‹_›)
  · exact h

theorem timersMatch_handleMessage (h : page.TimersMatch) (frame : Frame) :
    (page.handleMessage frame).TimersMatch := by
  unfold handleMessage
  split
  · unfold resolveResponse
    split
    · exact h
    · split
      · exact h
      · rename_i hpending
        exact h.settled hpending
  · exact h

theorem timersMatch_act (h : page.TimersMatch) {step : ClientStep} (hnew : page.NewId step) :
    (page.act step).TimersMatch := by
  cases step with
  | connect url made => exact h.of_same (sameRequests_connect page url made)
  | close => exact timersMatch_close h
  | request requestId method params writes => exact timersMatch_request h hnew method params writes
  | opened i => exact h.of_same (sameRequests_handleOpen page i)
  | errored i => exact h.of_same (sameRequests_handleError page i)
  | closed i =>
      rcases handleClose_cases page i with hsame | hlost
      · exact h.of_same hsame
      · exact hlost.2 h
  | message i frame => exact timersMatch_handleMessage h frame
  | requestDue timer => exact timersMatch_requestDue h timer
  | reconnectDue setAt made => exact h.of_same (sameRequests_reconnectDue page setAt made)

theorem SameRequests.waits (h : SameRequests page after) {request : SentRequest}
    (hwaits : page.Waits request) : after.Waits request := by
  rw [Waits, h.pending]
  exact hwaits

/-- Whatever is done about another identifier, the request waits on. -/
theorem waits_deletePending {request : SentRequest} {requestId : String}
    (hne : request.requestId ≠ requestId) (hwaits : page.Waits request) :
    (page.deletePending requestId).Waits request := by
  rw [Waits, deletePending, AList.lookup_erase_ne hne]
  exact hwaits

theorem waits_request {request : SentRequest} (hwaits : page.Waits request) {requestId : String}
    (hnew : page.pending.lookup requestId = none) (method : String) (params : Json)
    (writes : Bool) : (page.request requestId method params writes).Waits request := by
  have hne : request.requestId ≠ requestId := by
    intro hsame
    rw [Waits, hsame, hnew] at hwaits
    cases hwaits
  have hadded : (page.pending.insert requestId ⟨page.time⟩).lookup request.requestId =
      some ⟨request.calledAt⟩ := by
    rw [AList.lookup_insert_ne hne]
    exact hwaits
  unfold ClientPage.request
  split
  · exact hwaits
  · cases writes with
    | true => exact hadded
    | false =>
        show ((page.pending.insert requestId ⟨page.time⟩).erase requestId).lookup _ = _
        rw [AList.lookup_erase_ne hne]
        exact hadded

theorem requestDue_cases {request : SentRequest} (hwaits : page.Waits request)
    (h : page.TimersMatch) (timer : RequestTimer) :
    (page.requestDue timer).Waits request ∨ timer = ⟨request.calledAt, request.requestId⟩ := by
  unfold requestDue
  split
  · by_cases hsame : request.requestId = timer.requestId
    · have hmatch := h timer ‹_›
      rw [← hsame, hwaits] at hmatch
      cases timer
      cases hmatch
      exact .inr (congrArg _ hsame.symm)
    · exact .inl (@waits_deletePending (page.clearRequestTimer timer.calledAt) _ _ hsame hwaits)
  · exact .inl hwaits

theorem handleMessage_cases {request : SentRequest} (hwaits : page.Waits request) (frame : Frame) :
    (page.handleMessage frame).Waits request ∨
      ∃ response, frame.response? = some response ∧
        response.textAt "request_id" = some request.requestId := by
  unfold handleMessage
  split
  · rename_i response hresponse
    unfold resolveResponse
    split
    · exact .inl hwaits
    · rename_i requestId hid
      split
      · exact .inl hwaits
      · rename_i pending _
        by_cases hsame : request.requestId = requestId
        · exact .inr ⟨response, hresponse, hsame ▸ hid⟩
        · exact .inl (@waits_deletePending (page.clearRequestTimer pending.calledAt) _ _ hsame hwaits)
  · exact .inl hwaits

/-- A step keeps the requests of an open socket. -/
theorem keepsRequests_step (h : page.WellKept) (hmatch : page.TimersMatch) {step : ClientStep}
    (hnew : page.NewId step) : page.KeepsRequests step := by
  intro request _ hwaits hopen
  have hsocket : (page.act step).socket = some request.socket := by
    obtain ⟨socket, hk, hopened⟩ := Option.map_eq_some_iff.mp hopen
    exact ((follows_act h step).live request.socket socket hk (.inr hopened)).1
  cases step with
  | connect url made => exact .inl ((sameRequests_connect page url made).waits hwaits)
  | close => cases hsocket
  | request requestId method params writes =>
      exact .inl (waits_request hwaits hnew method params writes)
  | opened i => exact .inl ((sameRequests_handleOpen page i).waits hwaits)
  | errored i => exact .inl ((sameRequests_handleError page i).waits hwaits)
  | closed i =>
      rcases handleClose_cases page i with hsame | hlost
      · exact .inl (hsame.waits hwaits)
      · have hnone : (page.act (.closed i)).socket = none := hlost.1
        rw [hnone] at hsocket
        cases hsocket
  | message i frame => exact (handleMessage_cases hwaits frame).imp_right .inl
  | requestDue timer =>
      exact (requestDue_cases hwaits hmatch timer).imp_right fun heq => .inr (congrArg _ heq)
  | reconnectDue setAt made => exact .inl ((sameRequests_reconnectDue page setAt made).waits hwaits)

theorem keepsRequests_run {steps : List ClientStep} (h : page.WellKept) (hmatch : page.TimersMatch)
    (hnew : Runs.AllSteps ClientPage.step NewId page steps) :
    Runs.AllSteps ClientPage.step KeepsRequests page steps := by
  induction steps generalizing page with
  | nil => trivial
  | cons step rest ih =>
      exact ⟨keepsRequests_step h hmatch hnew.1,
        ih (h.step step) (timersMatch_act hmatch hnew.1) hnew.2⟩

end ClientPage

/-- In a run of a new client no timer can close or replace a socket that was opened after it was set,
and no request of an open socket is given up, exactly when every socket is opened at a time when no
reconnect timer is running. -/
theorem reconnects_do_no_harm_iff {steps : List ClientStep}
    (hnew : Runs.AllSteps ClientPage.step ClientPage.NewId ClientPage.new steps) :
    ((∀ page ∈ Runs.states ClientPage.step ClientPage.new steps, page.Harmless) ∧
        Runs.AllSteps ClientPage.step ClientPage.KeepsRequests ClientPage.new steps) ↔
      Runs.AllSteps ClientPage.step ClientPage.OpensUndisturbed ClientPage.new steps := by
  have hwell := ClientPage.wellKept_new
  have hmatch : ClientPage.new.TimersMatch := fun timer htimer => by cases htimer
  have hharmless : ClientPage.new.Harmless := fun setAt hset => by cases hset
  rw [and_iff_left (ClientPage.keepsRequests_run hwell hmatch hnew)]
  exact Runs.invariant_iff (fun _ step h => h.step step)
    (fun _ step h hinv _ => ClientPage.harmless_step h hinv step) hwell hharmless
    (Runs.allSteps_true ClientPage.new steps)

/-- A connection is lost and made again by its timer. -/
def regainedConnection : List ClientStep :=
  [.connect "ws://127.0.0.1:7777" true, .opened 0, .closed 0, .reconnectDue 2 true, .opened 1,
    .request "request_1" "thread/list" .null true]

theorem reconnects_do_no_harm_regained :
    (∀ page ∈ Runs.states ClientPage.step ClientPage.new regainedConnection, page.Harmless) ∧
      Runs.AllSteps ClientPage.step ClientPage.KeepsRequests ClientPage.new regainedConnection := by
  have hnew : Runs.AllSteps ClientPage.step ClientPage.NewId ClientPage.new regainedConnection :=
    ⟨trivial, trivial, trivial, trivial, trivial, rfl, trivial⟩
  exact (reconnects_do_no_harm_iff hnew).mpr
    ⟨trivial, fun _ _ => rfl, trivial, trivial, fun _ _ => rfl, trivial, trivial⟩

/-- The owner connects again before the timer of the lost connection runs out. -/
def reconnectedByHand : List ClientStep :=
  [.connect "ws://127.0.0.1:7777" true, .opened 0, .closed 0, .connect "ws://127.0.0.1:7777" true,
    .opened 1]

/-- The timer is still running when the new socket opens, and replaces it. -/
theorem reconnects_replace_open_socket :
    ¬ ∀ page ∈ Runs.states ClientPage.step ClientPage.new reconnectedByHand, page.Harmless := by
  intro hharmless
  have hlast := hharmless _ (Runs.final_mem_states ClientPage.new reconnectedByHand)
  have hopen : (Runs.final ClientPage.step ClientPage.new reconnectedByHand).OpenSince 1 4 :=
    ⟨⟨"ws://127.0.0.1:7777", .opened, some 4⟩, by decide +kernel, rfl, rfl⟩
  have hkept := (hlast 2 (by decide +kernel) 1 4 hopen (by decide) true).2
  exact absurd hkept (by decide +kernel)

end Liz.Web
