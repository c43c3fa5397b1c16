import Liz.Proof.ReconnectTimers

/-!
# What the client says about its connection

Every socket the client ever made writes the one state that the client shows. The listener for the
end of a socket asks whether the socket is still the client's own; the listener for its open event
does not.
-/

namespace Liz.Web

/-- A page with what its sockets have told: those that are open as far as their events go, and
whether the client has been closed since it was last told to connect. -/
structure WatchedPage where
  page : ClientPage
  told : List Nat
  ended : Bool

namespace WatchedPage

def new : WatchedPage := { page := ClientPage.new, told := [], ended := false }

/-- The sockets that are open by their events, an open event being followed by no other. -/
def tell (watched : WatchedPage) : ClientStep → List Nat
  | .opened socket =>
      if (watched.page.readyState socket).isSome then socket :: watched.told else watched.told
  | .errored socket | .closed socket =>
      if (watched.page.readyState socket).isSome then watched.told.filter (· != socket)
      else watched.told
  | _ => watched.told

def step (watched : WatchedPage) (step : ClientStep) : WatchedPage :=
  { page := watched.page.step step
    told := watched.tell step
    ended :=
      match step with
      | .close => true
      | .connect _ _ => false
      | _ => watched.ended }

/-- The client's own socket is open by its events. -/
def Open (watched : WatchedPage) : Prop :=
  ∃ socket, watched.page.socket = some socket ∧ socket ∈ watched.told

/-- The client is connected only if its own socket is open, and a closed client is shown as closed. -/
structure Truthful (watched : WatchedPage) : Prop where
  connected : watched.page.state = .connected → watched.Open
  closed : watched.ended = true → watched.page.state = .closed

/-- An open event comes from the client's own socket, or while this socket is open already. -/
def OwnOpening (watched : WatchedPage) : ClientStep → Prop
  | .opened socket =>
      (watched.page.readyState socket).isSome → watched.page.socket = some socket ∨ watched.Open
  | _ => True

/-- The flag of the client says whether it has been closed. -/
structure Flagged (watched : WatchedPage) : Prop where
  kept : watched.page.WellKept
  flag : watched.page.closedByClient = watched.ended

variable {watched : WatchedPage}

/-! ### One step -/

theorem closedByClient_openSocket (page : ClientPage) (state : ConnectionState) (made : Bool) :
    (page.openSocket state made).closedByClient = page.closedByClient := by
  unfold ClientPage.openSocket ClientPage.closeSocket
  cases page.givenUrl <;> cases page.socket <;> cases made <;> rfl

/-- A client that makes a socket says so, and one without an address does nothing. -/
theorem openSocket_cases (page : ClientPage) (state : ConnectionState) (made : Bool) :
    (page.openSocket state made).state = state ∨ page.openSocket state made = page := by
  unfold ClientPage.openSocket
  split
  · exact .inr rfl
  · cases made <;> exact .inl rfl

theorem closedByClient_act (page : ClientPage) {step : ClientStep}
    (hclose : step ≠ .close) (hconnect : ∀ url made, step ≠ .connect url made) :
    (page.act step).closedByClient = page.closedByClient := by
  cases step with
  | connect url made => exact absurd rfl (hconnect url made)
  | close => exact absurd rfl hclose
  | request requestId method params writes =>
      exact (ClientPage.untouched_request page requestId method params writes).wanted
  | opened socket =>
      simp only [ClientPage.act, ClientPage.handleOpen]
      split <;> rfl
  | errored socket => exact (ClientPage.untouched_handleError page socket).wanted
  | closed socket =>
      simp only [ClientPage.act, ClientPage.handleClose]
      split
      · split <;> rfl
      · rfl
  | message socket frame => exact (ClientPage.untouched_handleMessage page frame).wanted
  | requestDue timer => exact (ClientPage.untouched_requestDue page timer).wanted
  | reconnectDue setAt made =>
      simp only [ClientPage.act, ClientPage.reconnectDue]
      split
      · split
        · rfl
        · exact closedByClient_openSocket (page.dropReconnectTimer setAt) .reconnecting made
      · rfl

theorem Flagged.step (h : watched.Flagged) (step : ClientStep) : (watched.step step).Flagged := by
  constructor
  · exact h.kept.step step
  · cases step with
    | connect url made =>
        exact closedByClient_openSocket
          { watched.page with url := some url, closedByClient := false } .connecting made
    | close =>
        show watched.page.close.closedByClient = true
        simp only [ClientPage.close, ClientPage.closeSocket]
        split <;> rfl
    | _ => exact (closedByClient_act watched.page (by simp) (by simp)).trans h.flag

/-- Steps that leave the state and the sockets of the client alone. -/
theorem Truthful.of_untouched (h : watched.Truthful) {step : ClientStep}
    (hstate : (watched.page.act step).state = watched.page.state)
    (hsocket : (watched.page.act step).socket = watched.page.socket)
    (htold : watched.tell step = watched.told)
    (hended : (watched.step step).ended = watched.ended) : (watched.step step).Truthful := by
  constructor
  · intro hconnected
    obtain ⟨socket, hown, hopen⟩ := h.connected (hstate ▸ hconnected)
    refine ⟨socket, hsocket.trans hown, ?_⟩
    show socket ∈ watched.tell step
    rw [htold]
    exact hopen
  · intro hclosed
    exact hstate.trans (h.closed (hended ▸ hclosed))

theorem state_request (page : ClientPage) (requestId method : String) (params : Json)
    (writes : Bool) : (page.request requestId method params writes).state = page.state := by
  unfold ClientPage.request
  split
  · rfl
  · cases writes <;> rfl

theorem state_requestDue (page : ClientPage) (timer : RequestTimer) :
    (page.requestDue timer).state = page.state := by
  unfold ClientPage.requestDue
  split <;> rfl

theorem state_handleMessage (page : ClientPage) (frame : Frame) :
    (page.handleMessage frame).state = page.state := by
  unfold ClientPage.handleMessage
  split
  · unfold ClientPage.resolveResponse
    split
    · rfl
    · split <;> rfl
  · rfl

/-- The state and the socket of the client after a step whose result is known. -/
theorem after_act {step : ClientStep} {page : ClientPage} (h : watched.page.act step = page) :
    (watched.step step).page.state = page.state ∧
      (watched.step step).page.socket = page.socket := by
  subst h
  exact ⟨rfl, rfl⟩

theorem truthful_connect (h : watched.Truthful) (url : String) (made : Bool) :
    (watched.step (.connect url made)).Truthful := by
  refine ⟨fun hconnected => ?_, fun hended => by cases hended⟩
  let connecting : ClientPage := { watched.page with url := some url, closedByClient := false }
  rcases openSocket_cases connecting .connecting made with hstate | hsame
  · have hother : (connecting.openSocket .connecting made).state = .connected := hconnected
    rw [hstate] at hother
    cases hother
  · have hact : watched.page.act (.connect url made) = connecting := hsame
    obtain ⟨hstate, hsocket⟩ := after_act hact
    obtain ⟨socket, hown, hopen⟩ := h.connected (hstate.symm.trans hconnected)
    exact ⟨socket, hsocket.trans hown, hopen⟩

/-- An open event leaves the state true exactly when the client's own socket is open by then. -/
theorem truthful_opened_iff (hflagged : watched.Flagged) (h : watched.Truthful) (socket : Nat) :
    (watched.step (.opened socket)).Truthful ↔ watched.OwnOpening (.opened socket) := by
  by_cases hknown : (watched.page.readyState socket).isSome
  · have hact : watched.page.act (.opened socket) =
        (watched.page.updateSocket socket (WebSocket.opens watched.page.time)).setState
          .connected := if_pos hknown
    have hstate : (watched.step (.opened socket)).page.state = .connected := (after_act hact).1
    have hsocket : (watched.step (.opened socket)).page.socket = watched.page.socket :=
      (after_act hact).2
    have htold : (watched.step (.opened socket)).told = socket :: watched.told := if_pos hknown
    constructor
    · intro hafter _
      obtain ⟨own, hown, hopen⟩ := hafter.connected hstate
      rw [hsocket] at hown
      rw [htold] at hopen
      rcases List.mem_cons.mp hopen with rfl | hopen
      · exact .inl hown
      · exact .inr ⟨own, hown, hopen⟩
    · intro hown
      obtain ⟨own, hsame, hopen⟩ : ∃ own, watched.page.socket = some own ∧
          own ∈ socket :: watched.told := by
        rcases hown hknown with hcurrent | ⟨own, hcurrent, hopen⟩
        · exact ⟨socket, hcurrent, List.mem_cons_self⟩
        · exact ⟨own, hcurrent, List.mem_cons_of_mem socket hopen⟩
      refine ⟨fun _ => ⟨own, hsocket.trans hsame, htold.symm ▸ hopen⟩, fun hended => ?_⟩
      -- a client that has a socket has not been closed
      have hwanted := hflagged.kept.wanted own hsame
      have hclosed : watched.ended = true := hended
      rw [← hflagged.flag, hwanted] at hclosed
      cases hclosed
  · refine iff_of_true ?_ (fun hexists => absurd hexists hknown)
    have hact : watched.page.act (.opened socket) = watched.page := if_neg hknown
    exact h.of_untouched (after_act hact).1 (after_act hact).2 (if_neg hknown) rfl

theorem truthful_errored (h : watched.Truthful) (socket : Nat) :
    (watched.step (.errored socket)).Truthful := by
  by_cases hlost : (watched.page.readyState socket).isSome ∧ watched.page.state = .connected
  · have hact : watched.page.act (.errored socket) = watched.page.setState .reconnecting :=
      if_pos hlost
    have hstate : (watched.step (.errored socket)).page.state = .reconnecting := (after_act hact).1
    constructor
    · intro hconnected
      rw [hstate] at hconnected
      cases hconnected
    · intro hended
      have hclosed := h.closed hended
      rw [hlost.2] at hclosed
      cases hclosed
  · have hact : watched.page.act (.errored socket) = watched.page := if_neg hlost
    obtain ⟨hstate, hsocket⟩ := after_act hact
    constructor
    · intro hconnected
      rw [hstate] at hconnected
      obtain ⟨own, hown, hopen⟩ := h.connected hconnected
      refine ⟨own, hsocket.trans hown, ?_⟩
      show own ∈ watched.tell (.errored socket)
      rw [tell, if_neg fun hknown => hlost ⟨hknown, hconnected⟩]
      exact hopen
    · intro hended
      exact hstate.trans (h.closed hended)

theorem truthful_closed (hflagged : watched.Flagged) (h : watched.Truthful) (socket : Nat) :
    (watched.step (.closed socket)).Truthful := by
  by_cases hown : watched.page.socket = some socket
  · have hstate : (watched.step (.closed socket)).page.state =
        if watched.page.closedByClient then .closed else .reconnecting := by
      have hupdated : (watched.page.updateSocket socket WebSocket.ends).socket = some socket := hown
      have hflag : ((watched.page.updateSocket socket WebSocket.ends).loseSocket
          .connectionClosed).closedByClient = watched.page.closedByClient := rfl
      show (watched.page.handleClose socket).state = _
      rw [ClientPage.handleClose, if_pos hupdated]
      simp only [hflag]
      cases watched.page.closedByClient <;> rfl
    constructor
    · intro hconnected
      rw [hstate] at hconnected
      split at hconnected <;> cases hconnected
    · intro hended
      rw [hstate, hflagged.flag]
      exact if_pos hended
  · have hact : watched.page.act (.closed socket) =
        watched.page.updateSocket socket WebSocket.ends := if_neg hown
    obtain ⟨hstate, hsocket⟩ := after_act hact
    constructor
    · intro hconnected
      rw [hstate] at hconnected
      obtain ⟨own, hcurrent, hopen⟩ := h.connected hconnected
      refine ⟨own, hsocket.trans hcurrent, ?_⟩
      have hother : own ∈ watched.told.filter (· != socket) := by
        refine List.mem_filter.mpr ⟨hopen, bne_iff_ne.mpr ?_⟩
        rintro rfl
        exact hown hcurrent
      show own ∈ watched.tell (.closed socket)
      rw [tell]
      split
      · exact hother
      · exact hopen
    · intro hended
      exact hstate.trans (h.closed hended)

theorem truthful_reconnectDue (hflagged : watched.Flagged) (h : watched.Truthful) (setAt : Nat)
    (made : Bool) : (watched.step (.reconnectDue setAt made)).Truthful := by
  have hkept : ∀ page : ClientPage, watched.page.act (.reconnectDue setAt made) = page →
      page.state = watched.page.state → page.socket = watched.page.socket →
        (watched.step (.reconnectDue setAt made)).Truthful := by
    intro page hact hstate hsocket
    exact h.of_untouched (hact ▸ hstate) (hact ▸ hsocket) rfl rfl
  by_cases hset : setAt ∈ watched.page.reconnectTimers
  · cases hflag : watched.page.closedByClient with
    | true =>
        have hact : watched.page.act (.reconnectDue setAt made) =
            watched.page.dropReconnectTimer setAt := (if_pos hset).trans (if_pos hflag)
        exact hkept _ hact rfl rfl
    | false =>
        have hact : watched.page.act (.reconnectDue setAt made) =
            (watched.page.dropReconnectTimer setAt).openSocket .reconnecting made :=
          ClientPage.reconnectDue_eq hset hflag made
        rcases openSocket_cases (watched.page.dropReconnectTimer setAt) .reconnecting made with
          hstate | hsame
        · constructor
          · intro hconnected
            have hother := hconnected.symm.trans ((after_act hact).1.trans hstate)
            cases hother
          · intro hended
            have hended' : watched.ended = true := hended
            rw [← hflagged.flag, hflag] at hended'
            cases hended'
        · exact hkept _ (hact.trans hsame) rfl rfl
  · exact hkept watched.page (if_neg hset) rfl rfl

theorem truthful_step_iff (hflagged : watched.Flagged) (h : watched.Truthful) (step : ClientStep) :
    (watched.step step).Truthful ↔ watched.OwnOpening step := by
  cases step with
  | opened socket => exact truthful_opened_iff hflagged h socket
  | connect url made => exact iff_of_true (truthful_connect h url made) trivial
  | close =>
      refine iff_of_true ⟨fun hconnected => ?_, fun _ => rfl⟩ trivial
      cases hconnected
  | request requestId method params writes =>
      exact iff_of_true (h.of_untouched (state_request _ _ _ _ _)
        (ClientPage.untouched_request _ _ _ _ _).socket rfl rfl) trivial
  | errored socket => exact iff_of_true (truthful_errored h socket) trivial
  | closed socket => exact iff_of_true (truthful_closed hflagged h socket) trivial
  | message socket frame =>
      exact iff_of_true (h.of_untouched (state_handleMessage _ _)
        (ClientPage.untouched_handleMessage _ _).socket rfl rfl) trivial
  | requestDue timer =>
      exact iff_of_true (h.of_untouched (state_requestDue _ _)
        (ClientPage.untouched_requestDue _ _).socket rfl rfl) trivial
  | reconnectDue setAt made =>
      exact iff_of_true (truthful_reconnectDue hflagged h setAt made) trivial

end WatchedPage

/-- The client tells the truth about its connection all the time if and only if no other socket's
open event arrives while the client's own socket is not open. -/
theorem connection_state_truthful_iff (steps : List ClientStep) :
    (∀ watched ∈ Runs.states WatchedPage.step WatchedPage.new steps, watched.Truthful) ↔
      Runs.AllSteps WatchedPage.step WatchedPage.OwnOpening WatchedPage.new steps := by
  have hflagged : WatchedPage.new.Flagged := ⟨ClientPage.wellKept_new, rfl⟩
  have hnew : WatchedPage.new.Truthful := by
    constructor <;> intro h <;> cases h
  exact Runs.invariant_iff (fun _ step h => h.step step)
    (fun _ step hflagged h _ => WatchedPage.truthful_step_iff hflagged h step) hflagged hnew
    (Runs.allSteps_true WatchedPage.new steps)

/-- The client connects again before its first socket is open, and the open event of the first socket
comes late. -/
def connectedTwice : List ClientStep :=
  [.connect "ws://127.0.0.1:7777" true, .connect "ws://127.0.0.1:8888" true, .opened 0]

/-- The client is closed before its socket is open, and the open event comes late. -/
def closedBeforeOpen : List ClientStep :=
  [.connect "ws://127.0.0.1:7777" true, .close, .opened 0]

/-- The client says that it is connected, while the socket it has is not open, or while it has none
and has been closed. -/
theorem late_open_untruthful :
    let twice := Runs.final WatchedPage.step WatchedPage.new connectedTwice
    let closed := Runs.final WatchedPage.step WatchedPage.new closedBeforeOpen
    (twice.page.state = .connected ∧ twice.page.socket = some 1 ∧ twice.told = [0]) ∧
      (closed.page.state = .connected ∧ closed.ended = true) ∧
      (¬ ∀ watched ∈ Runs.states WatchedPage.step WatchedPage.new connectedTwice,
        watched.Truthful) ∧
      ¬ ∀ watched ∈ Runs.states WatchedPage.step WatchedPage.new closedBeforeOpen,
        watched.Truthful := by
  refine ⟨by decide +kernel, by decide +kernel, fun h => ?_, fun h => ?_⟩
  · obtain ⟨socket, hsocket, htold⟩ := (h _ (Runs.final_mem_states _ _)).connected rfl
    obtain rfl : socket = 1 := (Option.some.inj hsocket).symm
    revert htold
    decide +kernel
  · have hclosed := (h _ (Runs.final_mem_states _ _)).closed rfl
    cases hclosed

end Liz.Web
