import Liz.Proof.ReconnectTimers

/-!
# The requests of the web client

A request waits in the table of pending requests until it is answered, its time is up, or the client
loses its socket. Each of these takes it out of the table and settles its promise in the same step,
so no promise is settled twice and none is forgotten. The position of a call in the run stands for
its promise.
-/

namespace Liz.Web

/-- The step is a call of `request`. -/
def ClientStep.IsCall : ClientStep → Prop
  | .request _ _ _ _ => True
  | _ => False

/-- The step brings the response to the request with this identifier. -/
def ClientStep.Brings (step : ClientStep) (requestId : String) (response : Json) : Prop :=
  ∃ socket frame, step = .message socket frame ∧ frame.response? = some response ∧
    response.textAt "request_id" = some requestId

/-- The call at the position is answered by a later frame, which carries the identifier of the
request. -/
def AnsweredBy (run : List ClientStep) (n : Nat) (response : Json) : Prop :=
  ∃ requestId method params writes, run[n]? = some (.request requestId method params writes) ∧
    ∃ m step, run[m]? = some step ∧ n < m ∧ step.Brings requestId response

/-- The run makes the call that has sent the request. -/
def Sends (run : List ClientStep) (request : SentRequest) : Prop :=
  run[request.calledAt]? =
    some (.request request.requestId request.method request.params true)

section LongerRun

variable {run : List ClientStep} {step : ClientStep} {n : Nat}

theorem getElem?_concat_of_some {earlier : ClientStep} (h : run[n]? = some earlier)
    (step : ClientStep) : (run ++ [step])[n]? = some earlier := by
  rw [List.getElem?_append_left (List.getElem?_eq_some_iff.mp h).1]
  exact h

theorem getElem?_of_concat {earlier : ClientStep} (h : (run ++ [step])[n]? = some earlier) :
    run[n]? = some earlier ∨ n = run.length ∧ earlier = step := by
  rw [List.getElem?_append] at h
  split at h
  · exact .inl h
  · obtain ⟨hzero, hstep⟩ := List.getElem?_eq_some_iff.mp h
    rw [List.length_singleton] at hzero
    have hlength : n = run.length := by omega
    subst hlength
    simp only [Nat.sub_self, List.getElem_cons_zero] at hstep
    exact .inr ⟨rfl, hstep.symm⟩

theorem AnsweredBy.concat {response : Json} (h : AnsweredBy run n response) (step : ClientStep) :
    AnsweredBy (run ++ [step]) n response := by
  obtain ⟨requestId, method, params, writes, hcall, m, earlier, hm, hlt, hbrings⟩ := h
  exact ⟨requestId, method, params, writes, getElem?_concat_of_some hcall step, m, earlier,
    getElem?_concat_of_some hm step, hlt, hbrings⟩

theorem Sends.concat {request : SentRequest} (h : Sends run request) (step : ClientStep) :
    Sends (run ++ [step]) request :=
  getElem?_concat_of_some h step

/-- One call sends one request. -/
theorem Sends.same {first second : SentRequest} (hfirst : Sends run first)
    (hsecond : Sends run second) (h : first.calledAt = second.calledAt) :
    first.requestId = second.requestId := by
  unfold Sends at hfirst hsecond
  rw [h, hsecond] at hfirst
  injection hfirst with hcall
  injection hcall with hid
  exact hid.symm

end LongerRun

namespace ClientPage

/-- The positions of the calls whose promises have been settled. -/
def settledCalls (page : ClientPage) : List Nat := page.settled.map Prod.fst

/-- The step ends the connection of the client, by its own wish or not. -/
def EndsConnection (page : ClientPage) : ClientStep → Prop
  | .close => True
  | .closed socket => page.socket = some socket
  | _ => False

/-- What is known of the promises after a run. -/
structure RequestBooks (run : List ClientStep) (page : ClientPage) : Prop where
  time : page.time = run.length
  once : page.settledCalls.Nodup
  calls : ∀ n ∈ page.settledCalls, ∃ step, run[n]? = some step ∧ step.IsCall
  own : ∀ n response, (n, .resolved response) ∈ page.settled → AnsweredBy run n response
  sends : ∀ request ∈ page.sent, Sends run request
  pending : ∀ requestId pending, page.pending.lookup requestId = some pending ↔
    pending.calledAt ∉ page.settledCalls ∧
      ∃ request ∈ page.sent, request.requestId = requestId ∧ request.calledAt = pending.calledAt
  kept : ∀ n step, run[n]? = some step → step.IsCall →
    n ∈ page.settledCalls ∨ ∃ request ∈ page.sent, request.calledAt = n

/-- A request that waits, with what comes of it. -/
structure RequestOutcome where
  requestId : String
  calledAt : Nat
  settlement : Settlement

/-- An operation settles requests that wait, and takes them out of the table. -/
structure Settles (step : ClientStep) (page after : ClientPage)
    (outcomes : List RequestOutcome) : Prop where
  sent : after.sent = page.sent
  settled : after.settled = page.settled ++ outcomes.map fun o => (o.calledAt, o.settlement)
  waiting : ∀ o ∈ outcomes, page.pending.lookup o.requestId = some ⟨o.calledAt⟩
  distinct : (outcomes.map RequestOutcome.requestId).Nodup
  pending : ∀ requestId, after.pending.lookup requestId =
    if requestId ∈ outcomes.map RequestOutcome.requestId then none
    else page.pending.lookup requestId
  brings : ∀ o ∈ outcomes, ∀ response, o.settlement = .resolved response →
    step.Brings o.requestId response

variable {page after : ClientPage} {run : List ClientStep} {step : ClientStep}
  {outcomes : List RequestOutcome}

/-! ### What the steps settle -/

theorem Settles.settledCalls (h : Settles step page after outcomes) :
    after.settledCalls = page.settledCalls ++ outcomes.map RequestOutcome.calledAt := by
  rw [ClientPage.settledCalls, h.settled, List.map_append, List.map_map]
  rfl

theorem settles_nothing (hsent : after.sent = page.sent) (hsettled : after.settled = page.settled)
    (hpending : after.pending = page.pending) : Settles step page after [] := by
  constructor
  · exact hsent
  · simpa using hsettled
  · simp
  · exact List.nodup_nil
  · simp [hpending]
  · simp

/-- One request is settled. -/
theorem settles_one {requestId : String} {calledAt : Nat} {settlement : Settlement}
    (hwaits : page.pending.lookup requestId = some ⟨calledAt⟩)
    (hbrings : ∀ response, settlement = .resolved response → step.Brings requestId response) :
    Settles step page
      (((page.clearRequestTimer calledAt).deletePending requestId).settle calledAt settlement)
      [⟨requestId, calledAt, settlement⟩] := by
  constructor
  · rfl
  · rfl
  · simpa using hwaits
  · simp
  · intro other
    show (page.pending.erase requestId).lookup other = _
    by_cases hother : other = requestId
    · subst hother
      rw [AList.lookup_erase]
      simp
    · simp [hother, AList.lookup_erase_ne hother]
  · simpa using hbrings

theorem settles_loseSocket (page : ClientPage) (error : ResponseError) :
    Settles step page (page.loseSocket error)
      (page.pending.entries.map fun entry => ⟨entry.1, entry.2.calledAt, .rejected error⟩) := by
  have hids : (page.pending.entries.map fun entry =>
      (⟨entry.1, entry.2.calledAt, .rejected error⟩ : RequestOutcome)).map
        RequestOutcome.requestId = page.pending.keys := by
    rw [List.map_map]
    rfl
  constructor
  · rfl
  · simp [loseSocket, rejectPending, pendingRequests]
  · intro o ho
    obtain ⟨entry, hentry, rfl⟩ := List.mem_map.mp ho
    exact AList.mem_lookup_iff.mpr hentry
  · rw [hids]
    exact page.pending.nodupKeys
  · intro requestId
    rw [hids]
    show (∅ : Table String PendingRequest).lookup requestId = _
    rw [AList.lookup_empty]
    split
    · rfl
    · rename_i hkey
      exact (AList.lookup_eq_none.mpr hkey).symm
  · intro o ho response hresolved
    obtain ⟨entry, -, rfl⟩ := List.mem_map.mp ho
    cases hresolved

theorem settles_openSocket (page : ClientPage) (state : ConnectionState) (made : Bool) :
    Settles step page (page.openSocket state made) [] := by
  unfold openSocket closeSocket
  split
  · exact settles_nothing rfl rfl rfl
  · cases made <;> cases page.socket <;> exact settles_nothing rfl rfl rfl

theorem settles_connect (page : ClientPage) (url : String) (made : Bool) :
    Settles step page (page.connect url made) [] := by
  have h : Settles step _ _ _ := settles_openSocket
    { page with url := some url, closedByClient := false } .connecting made
  exact ⟨h.sent, h.settled, h.waiting, h.distinct, h.pending, h.brings⟩

theorem settles_reconnectDue (page : ClientPage) (setAt : Nat) (made : Bool) :
    Settles step page (page.reconnectDue setAt made) [] := by
  unfold reconnectDue
  split
  · dsimp only
    split
    · exact settles_nothing rfl rfl rfl
    · have h : Settles step _ _ _ :=
        settles_openSocket (page.dropReconnectTimer setAt) .reconnecting made
      exact ⟨h.sent, h.settled, h.waiting, h.distinct, h.pending, h.brings⟩
  · exact settles_nothing rfl rfl rfl

theorem settles_close (page : ClientPage) :
    ∃ outcomes, Settles step page page.close outcomes ∧ page.close.pending = ∅ := by
  let closing : ClientPage := ({ page with closedByClient := true } : ClientPage).closeSocket
  have hclosing : closing.sent = page.sent ∧ closing.settled = page.settled ∧
      closing.pending = page.pending := by
    simp only [closing, closeSocket]
    split <;> exact ⟨rfl, rfl, rfl⟩
  have h : Settles step closing (closing.loseSocket .clientClosed) _ :=
    settles_loseSocket closing .clientClosed
  refine ⟨_, ⟨h.sent.trans hclosing.1, h.settled.trans (by rw [hclosing.2.1]), ?_, h.distinct, ?_,
    h.brings⟩, rfl⟩
  · rw [← hclosing.2.2]
    exact h.waiting
  · rw [← hclosing.2.2]
    exact h.pending

theorem settles_handleClose (page : ClientPage) (socket : Nat) :
    ∃ outcomes, Settles step page (page.handleClose socket) outcomes ∧
      (page.socket = some socket → (page.handleClose socket).pending = ∅) := by
  unfold handleClose
  dsimp only
  split
  · have h : Settles step _ _ _ :=
      settles_loseSocket (page.updateSocket socket WebSocket.ends) .connectionClosed
    split
    · exact ⟨_, ⟨h.sent, h.settled, h.waiting, h.distinct, h.pending, h.brings⟩, fun _ => rfl⟩
    · exact ⟨_, ⟨h.sent, h.settled, h.waiting, h.distinct, h.pending, h.brings⟩, fun _ => rfl⟩
  · rename_i hother
    exact ⟨[], settles_nothing rfl rfl rfl, fun hown => absurd hown hother⟩

theorem settles_requestDue (hmatch : page.TimersMatch) (timer : RequestTimer) :
    ∃ outcomes, Settles step page (page.requestDue timer) outcomes := by
  unfold requestDue
  split
  · refine ⟨_, settles_one (hmatch timer ‹_›) fun response hresolved => ?_⟩
    cases hresolved
  · exact ⟨[], settles_nothing rfl rfl rfl⟩

theorem settles_message (socket : Nat) (frame : Frame) :
    ∃ outcomes, Settles (.message socket frame) page (page.handleMessage frame) outcomes := by
  unfold handleMessage
  split
  · rename_i response hresponse
    unfold resolveResponse
    split
    · exact ⟨[], settles_nothing rfl rfl rfl⟩
    · rename_i requestId hid
      split
      · exact ⟨[], settles_nothing rfl rfl rfl⟩
      · rename_i pending hpending
        refine ⟨_, settles_one hpending fun other hresolved => ?_⟩
        obtain rfl := Settlement.resolved.inj hresolved
        exact ⟨socket, frame, rfl, hresponse, hid⟩
  · exact ⟨[], settles_nothing rfl rfl rfl⟩

/-- Every step that is no call settles some requests that wait. -/
theorem settles_act (hmatch : page.TimersMatch) (hcall : ¬ step.IsCall) :
    ∃ outcomes, Settles step page (page.act step) outcomes := by
  cases step with
  | connect url made => exact ⟨[], settles_connect page url made⟩
  | close =>
      obtain ⟨outcomes, h, -⟩ := @settles_close .close page
      exact ⟨outcomes, h⟩
  | request requestId method params writes => exact absurd trivial hcall
  | opened socket =>
      refine ⟨[], ?_⟩
      simp only [act, handleOpen]
      split <;> exact settles_nothing rfl rfl rfl
  | errored socket =>
      refine ⟨[], ?_⟩
      simp only [act, handleError]
      split <;> exact settles_nothing rfl rfl rfl
  | closed socket =>
      obtain ⟨outcomes, h, -⟩ := @settles_handleClose (.closed socket) page socket
      exact ⟨outcomes, h⟩
  | message socket frame => exact settles_message socket frame
  | requestDue timer => exact settles_requestDue hmatch timer
  | reconnectDue setAt made => exact ⟨[], settles_reconnectDue page setAt made⟩

/-! ### The books -/

namespace RequestBooks

theorem new : RequestBooks [] ClientPage.new := by
  constructor <;> simp [ClientPage.new, settledCalls]

theorem pending_sent (h : RequestBooks run page) {requestId : String} {calledAt : Nat}
    (hwaits : page.pending.lookup requestId = some ⟨calledAt⟩) :
    calledAt ∉ page.settledCalls ∧
      ∃ request ∈ page.sent, request.requestId = requestId ∧ request.calledAt = calledAt :=
  (h.pending requestId ⟨calledAt⟩).mp hwaits

/-- Two requests that wait since the same call are one. -/
theorem pending_inj (h : RequestBooks run page) {first second : String} {calledAt : Nat}
    (hfirst : page.pending.lookup first = some ⟨calledAt⟩)
    (hsecond : page.pending.lookup second = some ⟨calledAt⟩) : first = second := by
  obtain ⟨-, sent, hsent, rfl, hat⟩ := h.pending_sent hfirst
  obtain ⟨-, other, hother, rfl, hsame⟩ := h.pending_sent hsecond
  exact (h.sends sent hsent).same (h.sends other hother) (hat.trans hsame.symm)

theorem calledAt_lt (h : RequestBooks run page) {request : SentRequest}
    (hsent : request ∈ page.sent) : request.calledAt < run.length :=
  (List.getElem?_eq_some_iff.mp (h.sends request hsent)).1

theorem settled_lt (h : RequestBooks run page) {n : Nat} (hn : n ∈ page.settledCalls) :
    n < run.length := by
  obtain ⟨step, hstep, -⟩ := h.calls n hn
  exact (List.getElem?_eq_some_iff.mp hstep).1

theorem calls_distinct (h : RequestBooks run page) (hsettles : Settles step page after outcomes) :
    (outcomes.map RequestOutcome.calledAt).Nodup := by
  have hpairs := List.pairwise_map.mp hsettles.distinct
  apply List.pairwise_map.mpr
  apply hpairs.imp_of_mem
  intro first second hfirst hsecond hne hsame
  have hwaits := hsettles.waiting second hsecond
  rw [← hsame] at hwaits
  exact hne (h.pending_inj (hsettles.waiting first hfirst) hwaits)

/-- A request waits no longer exactly when it is one of those that have been settled. -/
theorem mem_outcomes_iff (h : RequestBooks run page) (hsettles : Settles step page after outcomes)
    {requestId : String} {calledAt : Nat}
    (hwaits : page.pending.lookup requestId = some ⟨calledAt⟩) :
    requestId ∈ outcomes.map RequestOutcome.requestId ↔
      calledAt ∈ outcomes.map RequestOutcome.calledAt := by
  simp only [List.mem_map]
  constructor
  · intro ⟨o, ho, hid⟩
    have hother := hsettles.waiting o ho
    rw [hid, hwaits] at hother
    injection hother with hpending
    injection hpending with hat
    exact ⟨o, ho, hat.symm⟩
  · intro ⟨o, ho, hat⟩
    have hother := hsettles.waiting o ho
    rw [hat] at hother
    exact ⟨o, ho, h.pending_inj hother hwaits⟩

theorem settle (h : RequestBooks run page) (hsettles : Settles step page after outcomes)
    (hcall : ¬ step.IsCall) :
    RequestBooks (run ++ [step]) { after with time := page.time + 1 } := by
  have hcalls : ({ after with time := page.time + 1 } : ClientPage).settledCalls =
      page.settledCalls ++ outcomes.map RequestOutcome.calledAt := hsettles.settledCalls
  constructor
  · simp [h.time]
  · rw [hcalls]
    refine List.nodup_append.mpr ⟨h.once, h.calls_distinct hsettles, ?_⟩
    rintro n hn _ hm rfl
    obtain ⟨o, ho, rfl⟩ := List.mem_map.mp hm
    exact (h.pending_sent (hsettles.waiting o ho)).1 hn
  · intro n hn
    rw [hcalls, List.mem_append] at hn
    rcases hn with hn | hn
    · obtain ⟨earlier, hearlier, hwas⟩ := h.calls n hn
      exact ⟨earlier, getElem?_concat_of_some hearlier step, hwas⟩
    · obtain ⟨o, ho, rfl⟩ := List.mem_map.mp hn
      obtain ⟨-, request, hsent, -, hat⟩ := h.pending_sent (hsettles.waiting o ho)
      have hcalled := (h.sends request hsent).concat step
      rw [Sends, hat] at hcalled
      exact ⟨_, hcalled, trivial⟩
  · intro n response hresolved
    replace hresolved : (n, Settlement.resolved response) ∈ after.settled := hresolved
    rw [hsettles.settled, List.mem_append] at hresolved
    rcases hresolved with hold | hnow
    · exact (h.own n response hold).concat step
    · obtain ⟨o, ho, heq⟩ := List.mem_map.mp hnow
      obtain ⟨rfl, hsettlement⟩ := Prod.mk.inj heq
      obtain ⟨-, request, hsent, hid, hat⟩ := h.pending_sent (hsettles.waiting o ho)
      have hcalled := (h.sends request hsent).concat step
      rw [Sends, hat, hid] at hcalled
      refine ⟨_, _, _, _, hcalled, run.length, step, List.getElem?_concat_length, ?_,
        hsettles.brings o ho response hsettlement⟩
      rw [← hat]
      exact h.calledAt_lt hsent
  · intro request hsent
    exact (h.sends request (hsettles.sent ▸ hsent)).concat step
  · intro requestId pending
    have hlookup : ({ after with time := page.time + 1 } : ClientPage).pending.lookup requestId =
        if requestId ∈ outcomes.map RequestOutcome.requestId then none
        else page.pending.lookup requestId := hsettles.pending requestId
    have hsent : ({ after with time := page.time + 1 } : ClientPage).sent = page.sent :=
      hsettles.sent
    rw [hlookup, hcalls, hsent, List.mem_append]
    constructor
    · intro hwaits
      split at hwaits
      · cases hwaits
      · rename_i hout
        obtain ⟨hunsettled, hrequest⟩ := (h.pending requestId pending).mp hwaits
        refine ⟨fun hmem => ?_, hrequest⟩
        rcases hmem with hold | hnow
        · exact hunsettled hold
        · exact hout ((h.mem_outcomes_iff hsettles hwaits).mpr hnow)
    · intro ⟨hunsettled, hrequest⟩
      have hwaits : page.pending.lookup requestId = some pending :=
        (h.pending requestId pending).mpr ⟨fun hold => hunsettled (.inl hold), hrequest⟩
      rw [if_neg]
      · exact hwaits
      · exact fun hout => hunsettled (.inr ((h.mem_outcomes_iff hsettles hwaits).mp hout))
  · intro n earlier hn hwas
    rcases getElem?_of_concat hn with hold | ⟨-, rfl⟩
    · rw [hcalls, List.mem_append]
      rcases h.kept n earlier hold hwas with hsettled | ⟨request, hsent, hat⟩
      · exact .inl (.inl hsettled)
      · exact .inr ⟨request, hsettles.sent.symm ▸ hsent, hat⟩
    · exact absurd hwas hcall

/-- A call whose promise is rejected at once. -/
theorem reject (h : RequestBooks run page) {requestId method : String} {params : Json}
    {writes : Bool} {error : ResponseError} (hsent : after.sent = page.sent)
    (hsettled : after.settled = page.settled ++ [(page.time, .rejected error)])
    (hpending : ∀ id, after.pending.lookup id = page.pending.lookup id) :
    RequestBooks (run ++ [.request requestId method params writes])
      { after with time := page.time + 1 } := by
  have hcalls : ({ after with time := page.time + 1 } : ClientPage).settledCalls =
      page.settledCalls ++ [run.length] := by
    rw [settledCalls, ← h.time]
    simp [hsettled, settledCalls]
  constructor
  · simp [h.time]
  · rw [hcalls]
    refine List.nodup_append.mpr ⟨h.once, List.nodup_singleton _, ?_⟩
    rintro n hn _ hm rfl
    rw [List.mem_singleton] at hm
    exact absurd (h.settled_lt hn) (by omega)
  · intro n hn
    rw [hcalls, List.mem_append, List.mem_singleton] at hn
    rcases hn with hn | rfl
    · obtain ⟨earlier, hearlier, hwas⟩ := h.calls n hn
      exact ⟨earlier, getElem?_concat_of_some hearlier _, hwas⟩
    · exact ⟨_, List.getElem?_concat_length, trivial⟩
  · intro n response hresolved
    replace hresolved : (n, Settlement.resolved response) ∈ after.settled := hresolved
    rw [hsettled, List.mem_append, List.mem_singleton] at hresolved
    rcases hresolved with hold | hnow
    · exact (h.own n response hold).concat _
    · cases (Prod.mk.inj hnow).2
  · intro request hrequest
    exact (h.sends request (hsent ▸ hrequest)).concat _
  · intro id pending
    have hlookup : ({ after with time := page.time + 1 } : ClientPage).pending.lookup id =
        page.pending.lookup id := hpending id
    have hsame : ({ after with time := page.time + 1 } : ClientPage).sent = page.sent := hsent
    rw [hlookup, hcalls, hsame, h.pending id pending, List.mem_append, List.mem_singleton]
    constructor
    · intro ⟨hunsettled, request, hrequest, hid, hat⟩
      refine ⟨fun hmem => hmem.elim hunsettled fun hnow => ?_, request, hrequest, hid, hat⟩
      have hlt := h.calledAt_lt hrequest
      omega
    · intro ⟨hunsettled, hrequest⟩
      exact ⟨fun hold => hunsettled (.inl hold), hrequest⟩
  · intro n earlier hn hwas
    rw [hcalls, List.mem_append, List.mem_singleton]
    rcases getElem?_of_concat hn with hold | ⟨rfl, -⟩
    · rcases h.kept n earlier hold hwas with hsettled | ⟨request, hrequest, hat⟩
      · exact .inl (.inl hsettled)
      · exact .inr ⟨request, hsent.symm ▸ hrequest, hat⟩
    · exact .inl (.inr rfl)

/-- A call that sends its request. -/
theorem send (h : RequestBooks run page) {requestId method : String} {params : Json}
    (hnew : page.pending.lookup requestId = none) {socket : Nat}
    (hsent : after.sent = page.sent ++ [⟨socket, requestId, method, params, page.time⟩])
    (hsettled : after.settled = page.settled)
    (hpending : after.pending = page.pending.insert requestId ⟨page.time⟩) :
    RequestBooks (run ++ [.request requestId method params true])
      { after with time := page.time + 1 } := by
  have hcalls : ({ after with time := page.time + 1 } : ClientPage).settledCalls =
      page.settledCalls := congrArg (List.map Prod.fst) hsettled
  have hmem : ∀ request, request ∈ ({ after with time := page.time + 1 } : ClientPage).sent ↔
      request ∈ page.sent ∨ request = ⟨socket, requestId, method, params, page.time⟩ := by
    intro request
    show request ∈ after.sent ↔ _
    rw [hsent, List.mem_append, List.mem_singleton]
  constructor
  · simp [h.time]
  · rw [hcalls]
    exact h.once
  · intro n hn
    rw [hcalls] at hn
    obtain ⟨earlier, hearlier, hwas⟩ := h.calls n hn
    exact ⟨earlier, getElem?_concat_of_some hearlier _, hwas⟩
  · intro n response hresolved
    exact (h.own n response (hsettled ▸ hresolved)).concat _
  · intro request hrequest
    rcases (hmem request).mp hrequest with hold | rfl
    · exact (h.sends request hold).concat _
    · rw [Sends, h.time]
      exact List.getElem?_concat_length
  · intro id pending
    have hlookup : ({ after with time := page.time + 1 } : ClientPage).pending.lookup id =
        (page.pending.insert requestId ⟨page.time⟩).lookup id := by
      rw [← hpending]
    rw [hlookup, hcalls]
    by_cases hid : id = requestId
    · subst hid
      rw [AList.lookup_insert]
      constructor
      · intro hnow
        obtain rfl := Option.some.inj hnow
        refine ⟨fun hold => ?_, _, (hmem _).mpr (.inr rfl), rfl, rfl⟩
        exact absurd (h.settled_lt hold) (by rw [← h.time]; exact Nat.lt_irrefl _)
      · intro ⟨hunsettled, request, hrequest, hown, hat⟩
        rcases (hmem request).mp hrequest with hold | rfl
        · have hwaits := (h.pending id pending).mpr ⟨hunsettled, request, hold, hown, hat⟩
          rw [hnew] at hwaits
          cases hwaits
        · exact congrArg some (congrArg PendingRequest.mk hat)
    · rw [AList.lookup_insert_ne hid, h.pending id pending]
      constructor
      · intro ⟨hunsettled, request, hrequest, hown⟩
        exact ⟨hunsettled, request, (hmem request).mpr (.inl hrequest), hown⟩
      · intro ⟨hunsettled, request, hrequest, hown, hat⟩
        rcases (hmem request).mp hrequest with hold | rfl
        · exact ⟨hunsettled, request, hold, hown, hat⟩
        · exact absurd hown.symm hid
  · intro n earlier hn hwas
    rw [hcalls]
    rcases getElem?_of_concat hn with hold | ⟨rfl, -⟩
    · rcases h.kept n earlier hold hwas with hdone | ⟨request, hrequest, hat⟩
      · exact .inl hdone
      · exact .inr ⟨request, (hmem request).mpr (.inl hrequest), hat⟩
    · exact .inr ⟨_, (hmem _).mpr (.inr rfl), h.time⟩

theorem next (h : RequestBooks run page) (hmatch : page.TimersMatch) (step : ClientStep)
    (hnew : page.NewId step) : RequestBooks (run ++ [step]) (page.step step) := by
  by_cases hcall : step.IsCall
  · cases step with
    | request requestId method params writes =>
        replace hnew : page.pending.lookup requestId = none := hnew
        unfold ClientPage.step act request
        cases hready : page.ready with
        | none => exact h.reject rfl rfl fun _ => rfl
        | some socket =>
            cases writes with
            | true => exact h.send hnew rfl rfl rfl
            | false =>
                refine h.reject rfl rfl fun id => ?_
                show ((page.pending.insert requestId ⟨page.time⟩).erase requestId).lookup id = _
                by_cases hid : id = requestId
                · subst hid
                  rw [AList.lookup_erase, hnew]
                · rw [AList.lookup_erase_ne hid, AList.lookup_insert_ne hid]
    | _ => exact absurd hcall id
  · obtain ⟨outcomes, hsettles⟩ := settles_act hmatch hcall
    exact h.settle hsettles hcall

theorem of_run {earlier steps : List ClientStep} (h : RequestBooks earlier page)
    (hmatch : page.TimersMatch) (hall : Runs.AllSteps ClientPage.step NewId page steps) :
    RequestBooks (earlier ++ steps) (Runs.final ClientPage.step page steps) ∧
      (Runs.final ClientPage.step page steps).TimersMatch := by
  induction steps generalizing earlier page with
  | nil => exact ⟨by simpa [Runs.final] using h, hmatch⟩
  | cons first rest ih =>
      have hafter : (page.step first).TimersMatch := timersMatch_act hmatch hall.1
      rw [List.append_cons]
      exact ih (h.next hmatch first hall.1) hafter hall.2

end RequestBooks

end ClientPage

/-! ### Every request -/

open ClientPage

/-- The promises after a run. -/
structure SettlesOnce (run : List ClientStep) : Prop where
  once : (Runs.final ClientPage.step new run).settledCalls.Nodup
  calls : ∀ n ∈ (Runs.final ClientPage.step new run).settledCalls,
    ∃ step, run[n]? = some step ∧ step.IsCall
  own : ∀ n response,
    (n, .resolved response) ∈ (Runs.final ClientPage.step new run).settled →
      AnsweredBy run n response
  sends : ∀ request ∈ (Runs.final ClientPage.step new run).sent, Sends run request
  pending : ∀ requestId, requestId ∈ (Runs.final ClientPage.step new run).pending ↔
    ∃ request ∈ (Runs.final ClientPage.step new run).sent, request.requestId = requestId ∧
      request.calledAt ∉ (Runs.final ClientPage.step new run).settledCalls
  ended : ∀ before last, run = before ++ [last] →
    (Runs.final ClientPage.step new before).EndsConnection last →
      ∀ n step, run[n]? = some step → step.IsCall →
        n ∈ (Runs.final ClientPage.step new run).settledCalls

theorem pending_of_endsConnection {page : ClientPage} {step : ClientStep}
    (h : page.EndsConnection step) : (page.step step).pending = ∅ := by
  cases step with
  | close =>
      obtain ⟨outcomes, -, hempty⟩ := @settles_close .close page
      exact hempty
  | closed socket =>
      obtain ⟨outcomes, -, hempty⟩ := @settles_handleClose (.closed socket) page socket
      exact hempty h
  | _ => exact absurd h id

/-- As long as the identifier made for a request is not one that waits, every promise is settled at
most once, by its own response if by any, and the end of the connection leaves none behind. -/
theorem requests_settle_once (run : List ClientStep)
    (hnew : Runs.AllSteps ClientPage.step NewId new run) : SettlesOnce run := by
  have hmatch : ClientPage.new.TimersMatch := by simp [TimersMatch, new]
  obtain ⟨hbooks, -⟩ := RequestBooks.new.of_run hmatch hnew
  rw [List.nil_append] at hbooks
  constructor
  · exact hbooks.once
  · exact hbooks.calls
  · exact hbooks.own
  · exact hbooks.sends
  · intro requestId
    rw [← AList.lookup_isSome, Option.isSome_iff_exists]
    constructor
    · rintro ⟨pending, hwaits⟩
      obtain ⟨hunsettled, request, hsent, hid, hat⟩ := (hbooks.pending requestId pending).mp hwaits
      exact ⟨request, hsent, hid, hat ▸ hunsettled⟩
    · rintro ⟨request, hsent, hid, hunsettled⟩
      exact ⟨⟨request.calledAt⟩,
        (hbooks.pending requestId ⟨request.calledAt⟩).mpr ⟨hunsettled, request, hsent, hid, rfl⟩⟩
  · intro before last hrun hends n step hn hcall
    have hempty : (Runs.final ClientPage.step new run).pending = ∅ := by
      rw [hrun, Runs.final_append]
      exact pending_of_endsConnection hends
    rcases hbooks.kept n step hn hcall with hdone | ⟨request, hsent, hat⟩
    · exact hdone
    · by_contra hunsettled
      have hwaits := (hbooks.pending request.requestId ⟨n⟩).mpr
        ⟨hunsettled, request, hsent, rfl, hat⟩
      rw [hempty, AList.lookup_empty] at hwaits
      cases hwaits

/-- The response to the first request comes twice, and the client is closed while the second request
waits. -/
def answeredThenClosed : List ClientStep :=
  let response : Json :=
    .object [("kind", .string "response"), ("payload", .object [("request_id", .string "r1")])]
  [.connect "ws://127.0.0.1:7777" true, .opened 0, .request "r1" "thread/list" .null true,
    .message 0 (.value response), .request "r2" "thread/list" .null true,
    .message 0 (.value response), .close]

theorem requests_settle_once_closed :
    SettlesOnce answeredThenClosed ∧
      (Runs.final ClientPage.step new answeredThenClosed).settledCalls = [2, 4] := by
  have hnew : Runs.AllSteps ClientPage.step NewId new answeredThenClosed :=
    ⟨trivial, trivial, rfl, trivial, rfl, trivial, trivial, trivial⟩
  exact ⟨requests_settle_once answeredThenClosed hnew, by decide +kernel⟩

end Liz.Web
