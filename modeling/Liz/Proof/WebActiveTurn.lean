import Liz.Base.Runs
import Liz.Web.Workbench

/-!
# The turn the page takes for active

The start of a turn reaches the page twice, by the response and by an event, and so does a
cancellation. Each of these notices overwrites the active turn of the thread, whatever turn it is
about, so a notice that comes late is enough to make it wrong.
-/

namespace Liz.Web

/-- What an action says about the course of a turn. -/
inductive Notice
  | started (turn : Turn)
  | ended (turn : Turn)

def noticeOfPayload : ServerEventPayload → Option Notice
  | .turnStarted turn => some (.started turn)
  | .turnCompleted turn | .turnCancelled turn => some (.ended turn)
  | .turnFailed turn _ => some (.ended turn)
  | _ => none

def noticeOf : WorkbenchAction → Option Notice
  | .turnStarted turn => some (.started turn)
  | .serverEvent event => noticeOfPayload event.payload
  | _ => none

/-- The active turn of a thread. -/
def activeTurn (state : WorkbenchState) (threadId : ThreadId) : Option TurnId :=
  (state.runtimeByThread.lookup threadId).bind ThreadRuntime.activeTurnId

/-! ### What the page has been told -/

/-- The turns of each thread that the page knows to have started and to have ended. -/
structure Heard where
  started : List (ThreadId × TurnId)
  ended : List (ThreadId × TurnId)
  deriving DecidableEq

def Heard.nothing : Heard := { started := [], ended := [] }

def Heard.note (heard : Heard) : Option Notice → Heard
  | some (.started turn) => { heard with started := (turn.threadId, turn.id) :: heard.started }
  | some (.ended turn) => { heard with ended := (turn.threadId, turn.id) :: heard.ended }
  | none => heard

/-- The latest turn of the thread that the page knows of, in the order in which the server has
started them. -/
def latestKnown (order : ThreadId → List TurnId) (heard : Heard) (threadId : ThreadId) :
    Option TurnId :=
  (order threadId).reverse.find? fun turnId => decide ((threadId, turnId) ∈ heard.started)

/-- It is active unless the page knows that it has ended. -/
def knownActive (order : ThreadId → List TurnId) (heard : Heard) (threadId : ThreadId) :
    Option TurnId :=
  (latestKnown order heard threadId).filter fun turnId =>
    decide ((threadId, turnId) ∉ heard.ended)

structure Page where
  state : WorkbenchState
  heard : Heard

def Page.blank : Page := { state := initialWorkbenchState, heard := Heard.nothing }

/-- An action at some time on the page; one that throws changes nothing. -/
def Page.step [Collation] (page : Page) (action : PageTime × WorkbenchAction) : Page :=
  match workbenchReducer action.1 page.state action.2 with
  | some state => { state := state, heard := page.heard.note (noticeOf action.2) }
  | none => page

/-- The page shows the active turn of every thread. -/
def Page.ShowsActive (order : ThreadId → List TurnId) (page : Page) : Prop :=
  ∀ threadId, activeTurn page.state threadId = knownActive order page.heard threadId

/-- A notice comes in time: a start is that of the latest turn known, which is not known to have
ended, and an end comes when no other turn is known to be active. -/
def InTime (order : ThreadId → List TurnId) (page : Page)
    (action : PageTime × WorkbenchAction) : Prop :=
  match noticeOf action.2 with
  | some (.started turn) =>
      latestKnown order (page.heard.note (noticeOf action.2)) turn.threadId = some turn.id ∧
        (turn.threadId, turn.id) ∉ page.heard.ended
  | some (.ended turn) =>
      knownActive order page.heard turn.threadId = none ∨
        knownActive order page.heard turn.threadId = some turn.id
  | none => True

/-! ### One action -/

section Reducer

variable {state : WorkbenchState}

theorem runtimeByThread_updateToolCall (threadId : ThreadId) (callId : Option String)
    (update : ToolCallProjection → ToolCallProjection) :
    (updateToolCall state threadId callId update).runtimeByThread = state.runtimeByThread := by
  unfold updateToolCall
  split
  · rfl
  · split <;> rfl

theorem activeTurn_setRuntime (threadId other : ThreadId) (runtime : ThreadRuntime) :
    activeTurn (state.setRuntime threadId runtime) other =
      if other = threadId then runtime.activeTurnId else activeTurn state other := by
  unfold activeTurn WorkbenchState.setRuntime
  by_cases h : other = threadId
  · subst h
    rw [if_pos rfl, AList.lookup_insert]
    rfl
  · rw [if_neg h, AList.lookup_insert_ne h]

variable [Collation]

/-- An event without a notice leaves the runtimes as they are. -/
theorem runtimeByThread_projectServerEvent (now : PageTime) {event : ServerEvent}
    (h : noticeOfPayload event.payload = none) :
    (projectServerEvent now state event).runtimeByThread = state.runtimeByThread := by
  unfold projectServerEvent
  cases hpayload : event.payload with
  | turnStarted _ | turnCompleted _ | turnCancelled _ | turnFailed _ _ =>
      rw [hpayload] at h
      cases h
  | toolCallUpdated _ _ _ _ | toolCallCommitted _ _ _ _ _ _ | toolCompleted _ _ _ _ _
  | toolFailed _ _ _ _ | executorOutputChunk _ _ _ _ _ =>
      exact runtimeByThread_updateToolCall _ _ _
  | _ => rfl

omit [Collation] in
theorem activeTurn_turnStarted (turn : Turn) (threadId : ThreadId) :
    activeTurn (turnStarted state turn) threadId =
      if threadId = turn.threadId then some turn.id else activeTurn state threadId :=
  activeTurn_setRuntime _ _ _

omit [Collation] in
theorem activeTurn_finishTurn (turn : Turn) (status : AssistantStatus) (threadId : ThreadId) :
    activeTurn (finishTurn state turn status) threadId =
      if threadId = turn.threadId then none else activeTurn state threadId :=
  activeTurn_setRuntime _ _ _

/-- The active turn after a notice, whatever it was before. -/
def noted (notice : Option Notice) (threadId : ThreadId) (active : Option TurnId) :
    Option TurnId :=
  match notice with
  | some (.started turn) => if threadId = turn.threadId then some turn.id else active
  | some (.ended turn) => if threadId = turn.threadId then none else active
  | none => active

theorem activeTurn_projectServerEvent (now : PageTime) (event : ServerEvent)
    (threadId : ThreadId) :
    activeTurn (projectServerEvent now state event) threadId =
      noted (noticeOfPayload event.payload) threadId (activeTurn state threadId) := by
  cases hnotice : noticeOfPayload event.payload with
  | none =>
      show activeTurn _ threadId = activeTurn state threadId
      rw [activeTurn, runtimeByThread_projectServerEvent now hnotice]
      rfl
  | some notice =>
      unfold projectServerEvent
      cases hpayload : event.payload with
      | turnStarted turn =>
          rw [hpayload] at hnotice
          obtain rfl := Option.some.inj hnotice
          exact activeTurn_turnStarted turn threadId
      | turnCompleted turn | turnCancelled turn =>
          rw [hpayload] at hnotice
          obtain rfl := Option.some.inj hnotice
          exact activeTurn_finishTurn turn _ threadId
      | turnFailed turn message =>
          rw [hpayload] at hnotice
          obtain rfl := Option.some.inj hnotice
          exact activeTurn_finishTurn turn .failed threadId
      | _ =>
          rw [hpayload] at hnotice
          cases hnotice

theorem activeTurn_workbenchReducer {now : PageTime} {action : WorkbenchAction}
    {next : WorkbenchState} (h : workbenchReducer now state action = some next)
    (threadId : ThreadId) :
    activeTurn next threadId = noted (noticeOf action) threadId (activeTurn state threadId) := by
  cases action with
  | turnStarted turn =>
      obtain rfl := Option.some.inj h
      exact activeTurn_turnStarted turn threadId
  | serverEvent event =>
      obtain rfl := Option.some.inj h
      exact activeTurn_projectServerEvent now event threadId
  | threadError failed message =>
      obtain rfl := Option.some.inj h
      refine (activeTurn_setRuntime failed threadId _).trans ?_
      split
      next heq => exact congrArg (activeTurn state) heq.symm
      next => rfl
  | providerProfilesSet profiles | providerProfileUpsert profile =>
      obtain ⟨sanitized, -, hnext⟩ := Option.bind_eq_some_iff.mp h
      obtain rfl := Option.some.inj hnext
      rfl
  | _ =>
      obtain rfl := Option.some.inj h
      rfl

/-- Only an action without a notice can throw. -/
theorem exists_next_of_notice (now : PageTime) {action : WorkbenchAction}
    (h : noticeOf action ≠ none) : ∃ next, workbenchReducer now state action = some next := by
  cases action with
  | turnStarted turn => exact ⟨_, rfl⟩
  | serverEvent event => exact ⟨_, rfl⟩
  | _ => exact absurd rfl h

end Reducer

/-! ### Notices in time -/

section InTime

variable {order : ThreadId → List TurnId}

theorem knownActive_started_other {heard : Heard} {turn : Turn} {threadId : ThreadId}
    (h : threadId ≠ turn.threadId) :
    knownActive order (heard.note (some (.started turn))) threadId =
      knownActive order heard threadId := by
  have hmem : ∀ turnId, (threadId, turnId) ∈ (turn.threadId, turn.id) :: heard.started ↔
      (threadId, turnId) ∈ heard.started := by
    intro turnId
    simp [h]
  unfold knownActive latestKnown Heard.note
  simp only [hmem]

theorem knownActive_ended_other {heard : Heard} {turn : Turn} {threadId : ThreadId}
    (h : threadId ≠ turn.threadId) :
    knownActive order (heard.note (some (.ended turn))) threadId =
      knownActive order heard threadId := by
  have hmem : ∀ turnId, (threadId, turnId) ∉ (turn.threadId, turn.id) :: heard.ended ↔
      (threadId, turnId) ∉ heard.ended := by
    intro turnId
    simp [h]
  unfold knownActive latestKnown Heard.note
  simp only [hmem]

theorem knownActive_started (heard : Heard) (turn : Turn) :
    knownActive order (heard.note (some (.started turn))) turn.threadId = some turn.id ↔
      latestKnown order (heard.note (some (.started turn))) turn.threadId = some turn.id ∧
        (turn.threadId, turn.id) ∉ heard.ended := by
  rw [knownActive, Option.filter_eq_some_iff, decide_eq_true_eq]
  rfl

theorem knownActive_ended (heard : Heard) (turn : Turn) :
    knownActive order (heard.note (some (.ended turn))) turn.threadId = none ↔
      knownActive order heard turn.threadId = none ∨
        knownActive order heard turn.threadId = some turn.id := by
  have hsame : latestKnown order (heard.note (some (.ended turn))) turn.threadId =
      latestKnown order heard turn.threadId := rfl
  unfold knownActive
  rw [hsame]
  cases latestKnown order heard turn.threadId with
  | none => simp
  | some turnId =>
      by_cases hended : (turn.threadId, turnId) ∈ heard.ended
      · simp [Heard.note, hended]
      · simp only [Heard.note, Option.filter_some, List.mem_cons, Prod.mk.injEq, true_and, hended]
        by_cases hid : turnId = turn.id
        · simp [hid]
        · simp [hid]

/-- One action keeps the active turns right if and only if it comes in time. -/
theorem showsActive_step_iff [Collation] {page : Page} (h : page.ShowsActive order)
    (action : PageTime × WorkbenchAction) :
    (page.step action).ShowsActive order ↔ InTime order page action := by
  unfold Page.step InTime
  cases hnext : workbenchReducer action.1 page.state action.2 with
  | none =>
      have hnotice : noticeOf action.2 = none := by
        by_contra hsome
        obtain ⟨next, hsome⟩ := exists_next_of_notice action.1 hsome
        rw [hnext] at hsome
        cases hsome
      rw [hnotice]
      exact iff_of_true h trivial
  | some next =>
      have hactive := activeTurn_workbenchReducer hnext
      cases hnotice : noticeOf action.2 with
      | none =>
          rw [hnotice] at hactive
          refine iff_of_true (fun threadId => ?_) trivial
          exact (hactive threadId).trans (h threadId)
      | some notice =>
          rw [hnotice] at hactive
          cases notice with
          | started turn =>
              refine Iff.trans ?_ (@knownActive_started order page.heard turn)
              constructor
              · intro hshows
                rw [← hshows turn.threadId]
                exact (hactive turn.threadId).trans (if_pos rfl)
              · intro hstarted threadId
                by_cases hthread : threadId = turn.threadId
                · rw [hthread]
                  exact ((hactive turn.threadId).trans (if_pos rfl)).trans hstarted.symm
                · refine (hactive threadId).trans ((if_neg hthread).trans ?_)
                  exact (h threadId).trans (knownActive_started_other hthread).symm
          | ended turn =>
              refine Iff.trans ?_ (@knownActive_ended order page.heard turn)
              constructor
              · intro hshows
                rw [← hshows turn.threadId]
                exact (hactive turn.threadId).trans (if_pos rfl)
              · intro hended threadId
                by_cases hthread : threadId = turn.threadId
                · rw [hthread]
                  exact ((hactive turn.threadId).trans (if_pos rfl)).trans hended.symm
                · refine (hactive threadId).trans ((if_neg hthread).trans ?_)
                  exact (h threadId).trans (knownActive_ended_other hthread).symm

end InTime

/-- The page shows the active turns all the time if and only if every notice comes in time. -/
theorem shows_active_iff [Collation] (order : ThreadId → List TurnId)
    (actions : List (PageTime × WorkbenchAction)) :
    (∀ page ∈ Runs.states Page.step Page.blank actions, page.ShowsActive order) ↔
      Runs.AllSteps Page.step (InTime order) Page.blank actions := by
  have hstep : ∀ (page : Page) (action : PageTime × WorkbenchAction), True →
      page.ShowsActive order → True →
        ((page.step action).ShowsActive order ↔ InTime order page action) :=
    fun page action _ h _ => showsActive_step_iff h action
  have hblank : Page.blank.ShowsActive order := by
    intro threadId
    have hnothing : latestKnown order Heard.nothing threadId = none := by
      simp [latestKnown, Heard.nothing]
    show none = (latestKnown order Heard.nothing threadId).filter _
    rw [hnothing]
    rfl
  exact Runs.invariant_iff (fun _ _ _ => trivial) hstep trivial hblank
    (Runs.allSteps_true Page.blank actions)

/-! ### A notice that comes late -/

/-- A request that the server has handled: what the page makes of its response, and the events that
were published meanwhile. -/
structure HandledRequest where
  response : List WorkbenchAction
  events : List ServerEvent

/-- Actions that can come from these requests, with the events that are still on their way: the
responses come in order, the events come in order, and no event comes before the response of its
request. -/
inductive Delivers : List HandledRequest → List ServerEvent → List WorkbenchAction → Prop
  | pause (requests : List HandledRequest) (pending : List ServerEvent) :
      Delivers requests pending []
  | respond {request : HandledRequest} {requests : List HandledRequest}
      {pending : List ServerEvent} {actions : List WorkbenchAction}
      (h : Delivers requests (pending ++ request.events) actions) :
      Delivers (request :: requests) pending (request.response ++ actions)
  | deliver {requests : List HandledRequest} {event : ServerEvent} {pending : List ServerEvent}
      {actions : List WorkbenchAction} (h : Delivers requests pending actions) :
      Delivers requests (event :: pending) (.serverEvent event :: actions)

/-- The turns of the thread follow one another, the first of them being active if one is given. -/
def OneByOne (threadId : ThreadId) : Option TurnId → List ServerEvent → Prop
  | _, [] => True
  | active, event :: rest =>
      match noticeOfPayload event.payload with
      | some (.started turn) =>
          if turn.threadId = threadId then active = none ∧ OneByOne threadId (some turn.id) rest
          else OneByOne threadId active rest
      | some (.ended turn) =>
          if turn.threadId = threadId then
            active = some turn.id ∧ OneByOne threadId none rest
          else OneByOne threadId active rest
      | none => OneByOne threadId active rest

/-- The turns of the thread in the order of their starts. -/
def startOrder (events : List ServerEvent) (threadId : ThreadId) : List TurnId :=
  events.filterMap fun event =>
    match noticeOfPayload event.payload with
    | some (.started turn) => if turn.threadId = threadId then some turn.id else none
    | _ => none

def turnAt (id : TurnId) (status : TurnStatus) : Turn :=
  { id := id, threadId := "thread_1", kind := .user, status := status, startedAt := "unix:1.0",
    endedAt := none, goal := none, summary := none, checkpointBefore := none,
    checkpointAfter := none }

def eventOf (turn : Turn) (payload : Turn → ServerEventPayload) : ServerEvent :=
  { threadId := turn.threadId, turnId := some turn.id, payload := payload turn,
    createdAt := "unix:1.0" }

/-- A turn is started and cancelled, and the next one is started. -/
def cancelledThenStarted : List HandledRequest :=
  [{ response := [.turnStarted (turnAt "turn_1" .running)]
     events := [eventOf (turnAt "turn_1" .running) .turnStarted] },
   { response := [.serverEvent (eventOf (turnAt "turn_1" .cancelled) .turnCancelled)]
     events := [eventOf (turnAt "turn_1" .cancelled) .turnCancelled] },
   { response := [.turnStarted (turnAt "turn_2" .running)]
     events := [eventOf (turnAt "turn_2" .running) .turnStarted] }]

/-- The event of the cancellation comes after the response to the next start. -/
def lateCancellation : List WorkbenchAction :=
  [.turnStarted (turnAt "turn_1" .running),
   .serverEvent (eventOf (turnAt "turn_1" .running) .turnStarted),
   .serverEvent (eventOf (turnAt "turn_1" .cancelled) .turnCancelled),
   .turnStarted (turnAt "turn_2" .running),
   .serverEvent (eventOf (turnAt "turn_1" .cancelled) .turnCancelled)]

/-- The second turn runs, and the page takes no turn for active. -/
theorem late_cancellation_clears :
    letI := codePointOrder
    let published := cancelledThenStarted.flatMap HandledRequest.events
    let page := Runs.final Page.step Page.blank (lateCancellation.map (⟨0, ""⟩, ·))
    OneByOne "thread_1" none published ∧ Delivers cancelledThenStarted [] lateCancellation ∧
      activeTurn page.state "thread_1" = none ∧
      knownActive (startOrder published) page.heard "thread_1" = some "turn_2" ∧
      ¬ page.ShowsActive (startOrder published) := by
  let _ : Collation := codePointOrder
  let published := cancelledThenStarted.flatMap HandledRequest.events
  let page := Runs.final Page.step Page.blank (lateCancellation.map (⟨0, ""⟩, ·))
  have hactive : activeTurn page.state "thread_1" = none := by decide +kernel
  have hknown : knownActive (startOrder published) page.heard "thread_1" = some "turn_2" := by
    decide +kernel
  refine ⟨?_, ?_, hactive, hknown, fun h => ?_⟩
  · simp [cancelledThenStarted, OneByOne, noticeOfPayload, eventOf, turnAt]
  · exact .respond (.deliver (.respond (.respond (.deliver (.pause _ _)))))
  · have hboth := h "thread_1"
    rw [hactive, hknown] at hboth
    cases hboth

end Liz.Web
