import Liz.Proof.Lifecycle
import Liz.Proof.TurnPhases

/-!
# The events of turns over whole runs

Which turns are active and which of them approvals name is what keeps a turn to its protocol. A turn
gets a new identifier, so it has not been heard of before it is started; the model is called for a
turn that was just started or resumed, so it runs; and a turn ends only if it leaves the table of
active turns.
-/

namespace Liz

open Program

/-- Active turns run, the turns that approvals name have been heard of, and the identifiers of all
turns that have been heard of are taken. -/
structure Fits (s : RuntimeCoordinator) (phases : TurnPhases) : Prop where
  filed : Filed s.toTurnRuntime
  active : ∀ id turn, s.turnManager.activeTurns.lookup id = some turn → phases id = .running
  named : ∀ id approval, s.approvals.lookup id = some approval → phases approval.turnId ≠ .unheard
  issued : ∀ id, phases id ≠ .unheard → s.ids.Issued id

/-- What was published between `s` and `t` leads from the phases `before` to the phases `after`. -/
structure Follows (own : Bool) (s : AppServer) (before : TurnPhases) (t : AppServer)
    (after : TurnPhases) : Prop where
  fits : Fits t.runtime after
  heard : ∃ events, t.publishedEvents = s.publishedEvents ++ events ∧
    Monitors.run (hear own) before events = some after

/-- The protocol is kept by all that the program publishes. -/
def Followed {α : Type} (own : Bool) (p : ServerM α) (s : AppServer) (phases : TurnPhases) : Prop :=
  wp p (fun _ t => ∃ after, Follows own s phases t after)
    (fun _ t => ∃ after, Follows own s phases t after) s

/-- An observation that the monitor does not notice. -/
def Neutral (own : Bool) (phases : TurnPhases) (observation : Observation) : Prop :=
  ∀ event, observation = .published event → hear own phases event = some phases

/-! ### Published events -/

section Published

variable {s t : AppServer}

theorem publishedEvents_append (s : AppServer) (events : List PendingEvent) :
    AppServer.publishedEvents { s with trace := s.trace ++ events.map .published } =
      s.publishedEvents ++ events := by
  show List.filterMap Observation.event _ = _
  rw [List.filterMap_append, List.filterMap_map]
  exact congrArg _ List.filterMap_some

/-- What is added to a trace adds the events among it. -/
theorem Adds.events {O : Observation → Prop} (h : Adds O s t) :
    ∃ events, t.publishedEvents = s.publishedEvents ++ events ∧
      ∀ event ∈ events, O (.published event) := by
  obtain ⟨more, htrace, hmore⟩ := h
  refine ⟨more.filterMap Observation.event, ?_, ?_⟩
  · show List.filterMap Observation.event t.trace = _
    rw [htrace, List.filterMap_append]
    rfl
  · intro event hevent
    obtain ⟨observation, hobservation, hpublished⟩ := List.mem_filterMap.mp hevent
    cases observation with
    | published other => exact Option.some.inj hpublished ▸ hmore _ hobservation
    | modelCalled | toolExecuted => cases hpublished

theorem Adds.silent (h : Adds (fun observation => observation.event = none) s t) :
    t.publishedEvents = s.publishedEvents := by
  obtain ⟨events, hevents, hnone⟩ := h.events
  have hempty : events = [] := List.eq_nil_iff_forall_not_mem.mpr fun event hevent =>
    Option.some_ne_none event (hnone event hevent)
  rw [hevents, hempty, List.append_nil]

end Published

/-! ### Phases that fit -/

section Fits

variable {s t : RuntimeCoordinator} {phases : TurnPhases} {turnId : TurnId}

theorem Fits.of_changesOnly {P : TurnId → Prop} (h : Fits s phases)
    (hturns : ChangesOnly P s.toTurnRuntime t.toTurnRuntime) (happrovals : t.approvals = s.approvals) :
    Fits t phases where
  filed := by
    intro id turn hturn
    obtain ⟨before, hbefore, hid, -⟩ := hturns.known id turn hturn
    exact hid.trans (h.filed id before hbefore)
  active := by
    intro id turn hturn
    obtain ⟨before, hbefore, -⟩ := hturns.known id turn hturn
    exact h.active id before hbefore
  named := happrovals ▸ h.named
  issued := fun id hid => (h.issued id hid).mono hturns.sequence

theorem Fits.of_quiet (h : Fits s phases) (hquiet : Quiet s t) : Fits t phases :=
  h.of_changesOnly (P := fun _ => False) hquiet.turns.changesOnly hquiet.approvals

/-- A turn that runs and has left the table may be over. -/
theorem Fits.ended (h : Fits s phases) (hrunning : phases turnId = .running)
    (hnone : s.turnManager.activeTurns.lookup turnId = none) :
    Fits s (Function.update phases turnId .closed) := by
  have hother : ∀ {id : TurnId}, id ≠ turnId →
      Function.update phases turnId TurnPhase.closed id = phases id := fun hne =>
    Function.update_of_ne hne _ _
  refine ⟨h.filed, ?_, ?_, ?_⟩
  · intro id turn hturn
    have hne : id ≠ turnId := by
      rintro rfl
      rw [hnone] at hturn
      cases hturn
    exact (hother hne).trans (h.active id turn hturn)
  · intro id approval hfound
    by_cases hne : approval.turnId = turnId
    · rw [hne, Function.update_self]
      decide
    · rw [hother hne]
      exact h.named id approval hfound
  · intro id hid
    by_cases hne : id = turnId
    · exact h.issued id (by rw [hne, hrunning]; decide)
    · exact h.issued id (hother hne ▸ hid)

/-- A turn that is started has not been heard of, and runs. -/
theorem Fits.started {turn : Turn} (h : Fits s phases)
    (hstarts : Starts turn s.toTurnRuntime t.toTurnRuntime) (happrovals : t.approvals = s.approvals) :
    phases turn.id = .unheard ∧ Fits t (Function.update phases turn.id .running) := by
  have hunheard : phases turn.id = .unheard := by
    by_contra hheard
    exact hstarts.fresh (h.issued turn.id hheard)
  have hother : ∀ {id : TurnId}, id ≠ turn.id →
      Function.update phases turn.id TurnPhase.running id = phases id := fun hne =>
    Function.update_of_ne hne _ _
  refine ⟨hunheard, ?_, ?_, ?_, ?_⟩
  · intro id found hfound
    rcases hstarts.lookup hfound with ⟨rfl, rfl⟩ | ⟨-, hbefore⟩
    · rfl
    · exact h.filed id found hbefore
  · intro id found hfound
    rcases hstarts.lookup hfound with ⟨rfl, -⟩ | ⟨hne, hbefore⟩
    · exact Function.update_self ..
    · exact (hother hne).trans (h.active id found hbefore)
  · intro id approval hfound
    rw [happrovals] at hfound
    have hne : approval.turnId ≠ turn.id := fun heq => h.named id approval hfound (heq ▸ hunheard)
    rw [hother hne]
    exact h.named id approval hfound
  · intro id hid
    by_cases hne : id = turn.id
    · exact hne ▸ hstarts.issued
    · exact (h.issued id (hother hne ▸ hid)).mono hstarts.sequence

/-- An approval is asked for a turn that has been heard of. -/
theorem Fits.asked {approval : ApprovalRequest} (h : Fits s phases)
    (hasks : Asks turnId approval s t) (hheard : phases turnId ≠ .unheard) : Fits t phases := by
  have hbase : Fits { t with approvals := s.approvals } phases := h.of_changesOnly hasks.turns rfl
  refine ⟨hbase.filed, hbase.active, ?_, hbase.issued⟩
  intro id found hfound
  rw [hasks.approvals] at hfound
  by_cases hid : id = approval.id
  · rw [hid, AList.lookup_insert, Option.some.injEq] at hfound
    rw [← hfound, hasks.names]
    exact hheard
  · rw [AList.lookup_insert_ne hid] at hfound
    exact h.named id found hfound

/-- An answered approval names the turn it named before. -/
theorem Fits.answered {approvalId : ApprovalId} {approval : ApprovalRequest}
    {decision : ApprovalDecision} (h : Fits s phases)
    (hfound : s.approvals.lookup approvalId = some approval) :
    Fits (s.withApproval approvalId (RuntimeCoordinator.answered decision approval)) phases := by
  refine ⟨h.filed, h.active, ?_, h.issued⟩
  intro id found hafter
  rw [lookup_withApproval] at hafter
  split at hafter
  · rw [← Option.some.inj hafter]
    exact h.named approvalId approval hfound
  · exact h.named id found hafter

end Fits

/-! ### Programs that keep the protocol -/

section Programs

variable {own : Bool} {s t u : AppServer} {phases middle after : TurnPhases} {P : TurnId → Prop}

theorem Follows.refl (h : Fits s.runtime phases) : Follows own s phases s phases :=
  ⟨h, [], (List.append_nil _).symm, rfl⟩

theorem Follows.trans (h : Follows own s phases t middle) (h' : Follows own t middle u after) :
    Follows own s phases u after := by
  obtain ⟨events, hevents, hrun⟩ := h.heard
  obtain ⟨more, hmore, hrun'⟩ := h'.heard
  refine ⟨h'.fits, events ++ more, ?_, ?_⟩
  · rw [hmore, hevents, List.append_assoc]
  · rw [Monitors.run_append, hrun]
    exact hrun'

theorem Does.follows (h : Does P (Neutral own phases) s t) (hfits : Fits s.runtime phases) :
    Follows own s phases t phases := by
  obtain ⟨events, hevents, hneutral⟩ := h.trace.events
  exact ⟨hfits.of_changesOnly h.turns h.approvals, events, hevents,
    Monitors.run_eq_self fun event hevent => hneutral event hevent event rfl⟩

/-- The runtime has changed to one that the phases fit, and nothing was published. -/
theorem follows_runtime {runtime : RuntimeCoordinator} (hfits : Fits runtime phases) :
    Follows own s phases { s with runtime := runtime } phases :=
  ⟨hfits, [], (List.append_nil _).symm, rfl⟩

/-- Events that lead to phases that fit. -/
theorem follows_published {events : List PendingEvent} (hfits : Fits s.runtime after)
    (hrun : Monitors.run (hear own) phases events = some after) :
    Follows own s phases { s with trace := s.trace ++ events.map .published } after :=
  ⟨hfits, events, publishedEvents_append s events, hrun⟩

variable {α β : Type} {p : ServerM β} {next : β → ServerM α}

theorem followed_pure (hfits : Fits s.runtime phases) (a : α) :
    Followed own (pure a) s phases :=
  ⟨phases, .refl hfits⟩

/-- What is followed from a later server on is followed from an earlier one. -/
theorem followed_after (h : Follows own s phases t middle) {p : ServerM α}
    (h' : Followed own p t middle) :
    wp p (fun _ u => ∃ after, Follows own s phases u after)
      (fun _ u => ∃ after, Follows own s phases u after) t :=
  wp_mono h' (fun _ _ ⟨after, hafter⟩ => ⟨after, h.trans hafter⟩)
    (fun _ _ ⟨after, hafter⟩ => ⟨after, h.trans hafter⟩)

/-- A program that leads to phases from which the rest is followed. -/
theorem followed_bind
    (hp : wp p (fun b t => ∃ middle, Follows own s phases t middle ∧ Followed own (next b) t middle)
      (fun _ t => ∃ after, Follows own s phases t after) s) :
    Followed own (p >>= next) s phases := by
  show wp _ _ _ _
  rw [wp_bind]
  exact wp_mono hp (fun b t ⟨_, hmiddle, hnext⟩ => followed_after hmiddle hnext) (fun _ _ h => h)

/-- A program that the monitor does not notice. -/
theorem followed_bind_does (hp : Guarantees (Does P (Neutral own phases)) p)
    (hfits : Fits s.runtime phases)
    (hnext : ∀ b t, Fits t.runtime phases → Followed own (next b) t phases) :
    Followed own (p >>= next) s phases := by
  apply followed_bind
  apply wp_mono (hp s)
  · intro b t hdoes
    have hfollows := hdoes.follows hfits
    exact ⟨phases, hfollows, hnext b t hfollows.fits⟩
  · exact fun _ t hdoes => ⟨phases, hdoes.follows hfits⟩

theorem followed_of_does (hp : Guarantees (Does P (Neutral own phases)) p)
    (hfits : Fits s.runtime phases) : Followed own p s phases :=
  wp_mono (hp s) (fun _ _ h => ⟨phases, h.follows hfits⟩) (fun _ _ h => ⟨phases, h.follows hfits⟩)

/-- An event that leads to phases that fit, and what follows it. -/
theorem followed_publish_bind {threadId : ThreadId} {turnId : Option TurnId}
    {payload : ServerEventPayload} {next : Unit → ServerM α}
    (hhear : hear own phases ⟨threadId, turnId, payload⟩ = some after) (hfits : Fits s.runtime after)
    (hnext : ∀ t, Fits t.runtime after → Followed own (next ()) t after) :
    Followed own (publish threadId turnId payload >>= next) s phases := by
  apply followed_bind
  rw [wp_publish]
  have hrun : Monitors.run (hear own) phases [⟨threadId, turnId, payload⟩] = some after := by
    rw [Monitors.run_cons, hhear]
    rfl
  exact ⟨after, follows_published hfits hrun, hnext _ hfits⟩

end Programs

/-! ### Events that change no phase -/

section Neutral

variable {own : Bool} {phases : TurnPhases} {turnId : TurnId}

theorem neutral_executed (caller : ToolCaller) (request : ToolCallRequest) :
    Neutral own phases (.toolExecuted caller request) := fun _ h => by cases h

theorem neutral_called (request : ModelTurnRequest) (outputContext : Option InteractionContext) :
    Neutral own phases (.modelCalled request outputContext) := fun _ h => by cases h

theorem neutral_published {event : PendingEvent} (h : hear own phases event = some phases) :
    Neutral own phases (.published event) := fun _ heq => Observation.published.inj heq ▸ h

/-- While a turn runs, what the model says and what becomes of it leaves the turn running. -/
theorem hear_of_running {event : PendingEvent} (hrunning : phases turnId = .running)
    (hturn : event.turnId = some turnId)
    (hrole : event.payload.role = .stream ∨ event.payload.role = .other) :
    hear own phases event = some phases := by
  apply hear_eq_self hturn
  rcases hrole with hrole | hrole <;> rw [hrunning, hrole] <;> rfl

/-- Once a turn has been heard of, its other events leave it as it is. -/
theorem hear_of_heard {event : PendingEvent} (hheard : phases turnId ≠ .unheard)
    (hturn : event.turnId = some turnId) (hrole : event.payload.role = .other) :
    hear own phases event = some phases := by
  apply hear_eq_self hturn
  rw [hrole]
  cases hphase : phases turnId with
  | unheard => exact absurd hphase hheard
  | running => rfl
  | closed => rfl

/-- What a client's tool call publishes is heard at any time. -/
theorem hear_of_foreign {event : PendingEvent} (hrole : event.payload.role = .other) :
    hear false phases event = some phases := by
  cases hturn : event.turnId with
  | none => exact hear_of_turnless hturn
  | some turnId =>
      apply hear_eq_self hturn
      rw [hrole]
      cases phases turnId <;> rfl

end Neutral

/-! ### The model loop -/

section Loop

variable [World] {own : Bool} {phases : TurnPhases} {turnId : TurnId} {s : AppServer}
  {P : TurnId → Prop}

/-- The rounds of a turn that runs leave it running. -/
theorem runRounds_neutral {baseRequest : ModelTurnRequest}
    (hrunning : phases baseRequest.turn.id = .running) (outputContext : Option InteractionContext)
    (answers : List GatewayAnswer) (results : List ToolResultInjection) (fingerprint : String)
    (repeatedToolRounds : Nat) :
    Guarantees (Does P (Neutral own phases))
      (runRounds baseRequest outputContext answers results fingerprint repeatedToolRounds) := by
  have htold : ∀ payload : ServerEventPayload, payload.role = .stream ∨ payload.role = .other →
      Always (Does P (Neutral own phases))
        (publish baseRequest.thread.id (some baseRequest.turn.id) payload) := fun payload hrole =>
    observe_does (neutral_published (hear_of_running hrunning rfl hrole))
  have hfailed : ∀ toolCall toolName message nodeId mountId summary,
      Always (Does P (Neutral own phases)) (toolCallFailed baseRequest.thread.id
        baseRequest.turn.id toolCall toolName message nodeId mountId summary) := by
    intro toolCall toolName message nodeId mountId summary
    exact Always.bind Does.trans (htold _ (Or.inr rfl)) fun _ => Always.pure Does.refl _
  have hrecorded : ∀ mountId nodeId executed artifactRefs,
      (∀ artifact ∈ artifactRefs, artifact.turnId = baseRequest.turn.id) →
        Always (Does P (Neutral own phases)) (publishAll (toolExecutionEvents
          baseRequest.thread.id baseRequest.turn.id nodeId mountId executed artifactRefs)) := by
    intro mountId nodeId executed artifactRefs hartifacts
    apply publishAll_does
    intro event hevent
    obtain ⟨hrole, hnames⟩ := mem_toolExecutionEvents hevent
    have hturn : event.turnId = some baseRequest.turn.id := by
      rcases hnames with hturn | ⟨artifact, hartifact, hturn⟩
      · exact hturn
      · rw [hturn, hartifacts artifact hartifact]
    exact neutral_published (hear_of_running hrunning hturn (Or.inr hrole))
  apply runRounds_guarantees Does.refl Does.trans
  · exact fun _ => observe_does (neutral_called _ _)
  · exact handleModelEvents_always Does.refl Does.trans (localThreadExecutionScope_does _)
      (fun payload hstream => htold payload (Or.inl hstream)) _
  · intro _ _ summary _
    apply executeModelToolCalls_always Does.refl Does.trans
    intro toolCall _
    apply executeModelToolCall_always Does.trans (localThreadExecutionScope_does _)
      (hfailed toolCall)
    · exact fun _ _ => executeTool_does (neutral_executed _ _)
    · intro mountId nodeId executed
      apply recordModelToolCall_always Does.trans
      · exact fun _ _ _ => onTurns_does (recordToolExecution_keepsTurns _ _ _ _ _ _ _)
      · exact hfailed toolCall
      · exact hrecorded mountId nodeId executed
  · exact loopDiagnostics_does

/-- What is published about memory leaves a turn that has been heard of as it is. -/
theorem compileMemoryForThread_neutral (threadId : ThreadId) {turnId : Option TurnId}
    (hheard : ∀ id, turnId = some id → phases id ≠ .unheard) :
    Always (Does P (Neutral own phases)) (compileMemoryForThread threadId turnId) := by
  apply compileMemoryForThread_always Does.refl Does.trans
  · exact fun _ _ => .of_quiet ⟨⟨rfl, Nat.le_add_right _ _⟩, rfl⟩ rfl
  · intro payload hother
    apply observe_does
    apply neutral_published
    cases turnId with
    | none => exact hear_of_turnless rfl
    | some id => exact hear_of_heard (hheard id rfl) rfl hother

omit [World] in
/-- A turn is closed only if it runs, and then it has left the table. -/
theorem closing_followed {α : Type} {closing : TurnM Turn} {Why : TurnRuntime → Prop}
    {next : Except RuntimeError Turn → ServerM α}
    (hclosing : wp closing (ClosedFrom turnId s.runtime.toTurnRuntime)
      (fun _ t => Erases turnId s.runtime.toTurnRuntime t ∨
        (KeepsTurns s.runtime.toTurnRuntime t ∧ Why t)) s.runtime.toTurnRuntime)
    (hfits : Fits s.runtime phases)
    (hok : ∀ turn t, turn.id = turnId → phases turnId = .running →
      Fits t.runtime (Function.update phases turnId .closed) → Followed own (next (.ok turn)) t phases)
    (herror : ∀ e t, Fits t.runtime phases → Followed own (next (.error e)) t phases) :
    Followed own (onRuntime (onTurns closing) >>= next) s phases := by
  have hleft : ∀ {turns}, ChangesOnly (fun _ => True) s.runtime.toTurnRuntime turns →
      Follows own s phases { s with runtime := { s.runtime with toTurnRuntime := turns } } phases :=
    fun hturns => follows_runtime (hfits.of_changesOnly hturns rfl)
  apply followed_bind
  rw [wp_onRuntime, wp_onTurns]
  apply wp_mono hclosing
  · intro closed turns ⟨herased, turn, hturn, hid⟩
    have hfollows := hleft (herased.changesOnly trivial)
    have hrunning := hfits.active turnId turn hturn
    refine ⟨phases, hfollows, hok closed _ ?_ hrunning ?_⟩
    · exact hid.trans (hfits.filed turnId turn hturn)
    · exact hfollows.fits.ended hrunning herased.lookup_self
  · intro e turns hopen
    have hfollows : Follows own s phases
        { s with runtime := { s.runtime with toTurnRuntime := turns } } phases := by
      rcases hopen with herased | ⟨hkept, -⟩
      · exact hleft (herased.changesOnly trivial)
      · exact hleft hkept.changesOnly
    exact ⟨phases, hfollows, herror e _ hfollows.fits⟩

omit [World] in
/-- A turn that runs may end. -/
theorem hear_terminal {threadId : ThreadId} {turn : Turn} {payload : ServerEventPayload}
    (hrole : payload.role = .terminal) (hid : turn.id = turnId)
    (hrunning : phases turnId = .running) :
    hear own phases ⟨threadId, some turn.id, payload⟩ =
      some (Function.update phases turnId .closed) := by
  have hheard : (⟨threadId, some turn.id, payload⟩ : PendingEvent).turnId = some turnId := by rw [hid]
  rw [hear_of_turn hheard, hrunning, hrole]
  rfl

omit [World] in
/-- A turn that is over has been heard of. -/
theorem heard_over : Function.update phases turnId .closed turnId ≠ .unheard := by
  rw [Function.update_self]
  decide

theorem finishModelTurn_followed (threadId : ThreadId) (outputContext : Option InteractionContext)
    (ending : Except ModelError (Option String)) (hfits : Fits s.runtime phases) :
    Followed own (finishModelTurn threadId turnId outputContext ending) s phases := by
  have hclosed : ∀ (payload : Turn → ServerEventPayload) (turn : Turn) (t : AppServer),
      (payload turn).role = .terminal → turn.id = turnId → phases turnId = .running →
        Fits t.runtime (Function.update phases turnId .closed) → Followed own (do
          publish threadId (some turn.id) (payload turn)
          compileMemoryForThread threadId (some turnId)) t phases := by
    intro payload turn t hrole hid hrunning hover
    apply followed_publish_bind (hear_terminal hrole hid hrunning) hover
    intro u hu
    apply followed_of_does (compileMemoryForThread_neutral threadId ?_).guarantees hu
    · exact fun _ => False
    · exact fun id heq => Option.some.inj heq ▸ heard_over
  cases ending with
  | error error =>
      apply closing_followed (failTurn_erases threadId turnId error.display) hfits
      · exact fun turn t hid hrunning hover => hclosed (.turnFailed · error.display) turn t rfl hid
          hrunning hover
      · exact fun _ _ ht => followed_pure ht ()
  | ok assistantMessage =>
      apply closing_followed (completeTurn_erases threadId turnId _) hfits
      · exact fun turn t hid hrunning hover => hclosed .turnCompleted turn t rfl hid hrunning hover
      · exact fun _ _ ht => followed_pure ht ()

/-- A turn that runs is streamed to its end. -/
theorem streamModelTurn_followed (thread : Thread) {turn : Turn}
    (hrunning : phases turn.id = .running) (systemPrompt developerPrompt userPrompt : String)
    (outputContext : Option InteractionContext) (answers : List GatewayAnswer)
    (hfits : Fits s.runtime phases) :
    Followed own (streamModelTurn thread turn systemPrompt developerPrompt userPrompt outputContext
      answers) s phases := by
  apply followed_bind_does (P := fun _ => False) (runRounds_neutral hrunning _ _ _ _ _) hfits
  intro ending t ht
  exact finishModelTurn_followed thread.id outputContext ending ht

end Loop

/-! ### What follows a response -/

section Continuations

variable [World] {own : Bool} {phases : TurnPhases} {turnId : TurnId} {s : AppServer}

theorem requestApproval_followed (threadId : ThreadId) (decision : PolicyDecision)
    (hheard : phases turnId ≠ .unheard) (hfits : Fits s.runtime phases) :
    Followed own (requestApproval threadId turnId decision) s phases := by
  apply followed_bind
  rw [wp_onRuntime]
  apply wp_mono (requireApprovalForTurn_asks threadId turnId decision s.runtime)
  · intro asked runtime hasks
    have hasked : Fits runtime phases := hfits.asked hasks hheard
    refine ⟨phases, follows_runtime hasked, followed_of_does (P := fun _ => False)
      (publishAll_does ?_).guarantees hasked⟩
    intro event hevent
    apply neutral_published
    rcases List.mem_append.mp hevent with hcheckpoint | happroval
    · obtain ⟨checkpoint, -, rfl⟩ := List.mem_map.mp hcheckpoint
      exact hear_of_heard hheard rfl rfl
    · rw [List.mem_singleton.mp happroval]
      exact hear_of_heard hheard rfl rfl
  · intro e runtime habandons
    have hkept := hfits.of_changesOnly habandons.turns habandons.approvals
    exact ⟨phases, follows_runtime hkept, followed_pure hkept ()⟩

theorem decideTurn_followed (request : TurnStartRequest) (answers : List GatewayAnswer)
    {turn : Turn} (thread : Thread) (context : AssembledContext)
    (hrunning : phases turn.id = .running) (hfits : Fits s.runtime phases) :
    Followed own (decideTurn request answers turn thread context) s phases := by
  unfold decideTurn
  apply followed_bind_does (P := fun _ => False) (Guarantees.get Does.refl) hfits
  intro server t ht
  generalize evaluatePolicy request.input context = decision
  split
  · exact requestApproval_followed thread.id decision (by rw [hrunning]; decide) ht
  · exact streamModelTurn_followed thread hrunning _ _ _ _ answers ht

/-- What the server does with the thread it has read and the context assembled for it. -/
theorem followed_read {threadId : ThreadId} {assembled : Thread → TurnM AssembledContext}
    {go : Thread → AssembledContext → ServerM Unit} (hfits : Fits s.runtime phases)
    (hassembled : ∀ thread, Guarantees KeepsTurns (assembled thread))
    (hgo : ∀ thread context t, Fits t.runtime phases → Followed own (go thread context) t phases) :
    Followed own
      (do
        match ← onRuntime (onTurns (readThread threadId)) with
        | .ok (some thread) => do
            match ← onRuntime (onTurns (assembled thread)) with
            | .ok context => go thread context
            | .error _ => pure ()
        | _ => pure ()) s phases := by
  apply followed_bind_does (P := fun _ => False)
    (onTurns_does (readThread_keepsTurns threadId)).guarantees hfits
  intro read t ht
  rcases read with _ | _ | thread
  · exact followed_pure ht ()
  · exact followed_pure ht ()
  · apply followed_bind_does (P := fun _ => False) (onTurns_does (hassembled thread)).guarantees ht
    intro context u hu
    cases context with
    | error _ => exact followed_pure hu ()
    | ok context => exact hgo thread context u hu

theorem continueTurnAfterPolicy_followed (request : TurnStartRequest)
    (answers : List GatewayAnswer) {turn : Turn} (hrunning : phases turn.id = .running)
    (hfits : Fits s.runtime phases) :
    Followed own (continueTurnAfterPolicy request answers turn) s phases :=
  followed_read hfits (fun _ => assembleContextForInteraction_keepsTurns _ _ _ _)
    fun thread context _ ht => decideTurn_followed request answers thread context hrunning ht

theorem runResumedTurn_followed (approval : ApprovalRequest) (answers : List GatewayAnswer)
    {turn : Turn} (hrunning : phases turn.id = .running) (hfits : Fits s.runtime phases) :
    Followed own (runResumedTurn approval answers turn) s phases :=
  followed_read hfits (fun _ => assembleContextForInteraction_keepsTurns _ _ _ _)
    fun thread _ _ ht => streamModelTurn_followed thread hrunning _ _ _ _ answers ht

/-- Only an active turn is resumed, and that one runs. -/
theorem resumeAfterApproval_followed (approval : ApprovalRequest) (answers : List GatewayAnswer)
    (hfits : Fits s.runtime phases) :
    Followed own (resumeAfterApproval approval answers) s phases := by
  apply followed_bind
  rw [RuntimeCoordinator.resumeApprovedTurn, wp_onRuntime, wp_onTurns]
  apply wp_mono markTurn_marks
  · intro resumed turns ⟨found, hfound, heq, hmarks⟩
    have hturns := hmarks.changesOnly (P := fun _ => True) hfound rfl rfl trivial
    have hresumed := hfits.of_changesOnly (t := { s.runtime with toTurnRuntime := turns }) hturns rfl
    have hid : resumed.id = approval.turnId := by
      rw [heq]
      exact hfits.filed approval.turnId found hfound
    have hrunning : phases resumed.id = .running := by
      rw [hid]
      exact hfits.active approval.turnId found hfound
    exact ⟨phases, follows_runtime hresumed, runResumedTurn_followed approval answers hrunning hresumed⟩
  · intro e turns hkept
    have hfits' : Fits { s.runtime with toTurnRuntime := turns } phases := by
      rcases hkept with hkept | ⟨found, hfound, hmarks⟩
      · exact hfits.of_quiet ⟨hkept, rfl⟩
      · exact hfits.of_changesOnly (hmarks.changesOnly (P := fun _ => True) hfound rfl rfl trivial) rfl
    exact ⟨phases, follows_runtime hfits', followed_pure hfits' ()⟩

/-- The events that carry a stored thread name the turn they are published for. -/
theorem threadEvent_gives (threadId : ThreadId) (turnId : TurnId)
    (payload : Thread → ServerEventPayload) :
    Gives (fun events => ∀ event ∈ events, event.turnId = some turnId ∧
      ∃ thread, event.payload = payload thread) (threadEvent threadId turnId payload) := by
  have hread : Gives (fun _ => True) (onRuntime (onTurns (readThread threadId))) := fun s => by
    rw [wp_onRuntime]
    exact wp_trivial _
  apply Gives.bind hread
  intro read _
  rcases read with _ | _ | thread
  · exact Gives.pure fun _ h => absurd h List.not_mem_nil
  · exact Gives.pure fun _ h => absurd h List.not_mem_nil
  · apply Gives.pure
    intro event hevent
    rw [List.mem_singleton.mp hevent]
    exact ⟨rfl, thread, rfl⟩

/-- Reading a thread for an event is not noticed, and the event will not be when the turn has been
heard of. -/
theorem threadEvent_bind_followed {α : Type} {threadId : ThreadId}
    {payload : Thread → ServerEventPayload} {next : List PendingEvent → ServerM α}
    (hfits : Fits s.runtime phases) (hrole : ∀ thread, (payload thread).role = .other)
    (hnext : ∀ events t, (∀ event ∈ events, event.turnId = some turnId ∧
      event.payload.role = .other) → Fits t.runtime phases → Followed own (next events) t phases) :
    Followed own (threadEvent threadId turnId payload >>= next) s phases := by
  apply followed_bind
  apply wp_mono (wp_and (threadEvent_quiet threadId turnId payload s)
    (threadEvent_gives threadId turnId payload s))
  · intro events t ⟨⟨runtime, hquiet, heq⟩, hevents⟩
    have hkept := hfits.of_quiet hquiet
    refine ⟨phases, heq ▸ follows_runtime hkept, hnext events t ?_ (heq ▸ hkept)⟩
    intro event hevent
    obtain ⟨hturn, thread, hpayload⟩ := hevents event hevent
    exact ⟨hturn, hpayload ▸ hrole thread⟩
  · exact fun _ _ hno => hno.1.elim

theorem cancelAfterDenial_followed (approval : ApprovalRequest) (hfits : Fits s.runtime phases) :
    Followed own (cancelAfterDenial approval) s phases := by
  apply closing_followed (cancelTurn_erases _) hfits
  · intro turn t hid hrunning hover
    apply followed_publish_bind (hear_terminal rfl hid hrunning) hover
    intro u hu
    rw [show turn.id = approval.turnId from hid]
    apply threadEvent_bind_followed hu (fun _ => rfl)
    intro events v hevents hv
    apply followed_bind_does (P := fun _ => False) (publishAll_does ?_).guarantees hv
    · intro _ w hw
      apply followed_of_does (compileMemoryForThread_neutral _ ?_).guarantees hw
      · exact fun _ => False
      · exact fun id heq => Option.some.inj heq ▸ heard_over
    · intro event hevent
      obtain ⟨hturn, hrole⟩ := hevents event hevent
      exact neutral_published (hear_of_heard heard_over hturn hrole)
  · exact fun _ _ ht => followed_pure ht ()

theorem continueAfterApproval_followed (decision : ApprovalDecision)
    (answers : List GatewayAnswer) (approval : ApprovalRequest) (hfits : Fits s.runtime phases) :
    Followed own (continueAfterApproval decision answers approval) s phases := by
  cases decision with
  | approveOnce => exact resumeAfterApproval_followed approval answers hfits
  | approveAndPersist => exact resumeAfterApproval_followed approval answers hfits
  | deny => exact cancelAfterDenial_followed approval hfits

end Continuations

/-! ### Requests -/

section Requests

variable [World] {own : Bool} {phases : TurnPhases} {s : AppServer}

/-- The events of a dispatched request have not been published. They lead to phases that fit the
server, and from there on what follows the response is followed. -/
structure Dispatched (own : Bool) (s : AppServer) (phases : TurnPhases)
    (answers : List GatewayAnswer) (request : ClientRequest)
    (handled : ServerResponse × List PendingEvent) (t : AppServer) (middle : TurnPhases) : Prop where
  silent : t.publishedEvents = s.publishedEvents
  fits : Fits t.runtime middle
  heard : Monitors.run (hear own) phases handled.2 = some middle
  followed : ∀ u, Fits u.runtime middle →
    Followed own (continueAfter answers request handled.1) u middle

theorem handleRequest_followed_of {request : ClientRequest} {answers : List GatewayAnswer}
    (hdispatch : wp (dispatch request)
      (fun handled t => ∃ middle, Dispatched own s phases answers request handled t middle)
      (fun _ t => ∃ after, Follows own s phases t after) s) :
    Followed own (handleRequest request answers) s phases := by
  show wp _ _ _ _
  unfold handleRequest
  rw [wp_bind]
  apply wp_mono hdispatch
  · intro handled t ⟨middle, h⟩
    have hfollows : Follows own s phases
        { t with trace := t.trace ++ handled.2.map .published } middle := by
      refine ⟨h.fits, handled.2, ?_, h.heard⟩
      rw [publishedEvents_append, h.silent]
    have hcontinued : Followed own (continueAfter answers request handled.1)
        { t with trace := t.trace ++ handled.2.map .published } middle := h.followed _ h.fits
    rw [wp_bind, wp_publishAll]
    apply followed_after hfollows
    apply followed_bind
    apply wp_mono hcontinued
    · exact fun _ u ⟨after, hafter⟩ => ⟨after, hafter, followed_pure hafter.fits _⟩
    · exact fun _ _ hafter => hafter
  · exact fun _ _ h => h

/-- Nothing follows an error. -/
theorem continueAfter_error (answers : List GatewayAnswer) (request : ClientRequest)
    (e : RuntimeError) : continueAfter answers request (errorEnvelope e) = pure () := by
  cases request <;> rfl

theorem dispatched_error {answers : List GatewayAnswer} {request : ClientRequest}
    {runtime : RuntimeCoordinator} (e : RuntimeError) (hfits : Fits runtime phases) :
    Dispatched own s phases answers request (errorEnvelope e, []) { s with runtime := runtime }
      phases where
  silent := rfl
  fits := hfits
  heard := rfl
  followed := by
    intro u hu
    rw [continueAfter_error]
    exact followed_pure hu ()

theorem turnStart_followed (request : TurnStartRequest) (answers : List GatewayAnswer)
    (hfits : Fits s.runtime phases) :
    Followed own (handleRequest (.turnStart request) answers) s phases := by
  apply handleRequest_followed_of
  unfold dispatch
  rw [wp_respond]
  apply wp_mono (startTurn_quiet request s.runtime)
  · intro turn runtime ⟨hstarts, happrovals⟩
    obtain ⟨hunheard, hstarted⟩ := hfits.started hstarts happrovals
    have hrunning : Function.update phases turn.id TurnPhase.running turn.id = .running :=
      Function.update_self ..
    have hstart : hear own phases ⟨turn.threadId, some turn.id, .turnStarted turn⟩ =
        some (Function.update phases turn.id .running) := by
      rw [hear_of_turn rfl, hunheard]
      rfl
    rw [wp_bind]
    apply wp_mono (wp_and (threadEvent_quiet turn.threadId turn.id .threadUpdated _)
      (threadEvent_gives turn.threadId turn.id .threadUpdated _))
    · intro updated t ⟨⟨after, hquiet, heq⟩, hupdated⟩
      subst heq
      refine ⟨Function.update phases turn.id .running, rfl, hstarted.of_quiet hquiet, ?_, ?_⟩
      · show Monitors.run (hear own) phases (_ :: updated) = _
        rw [Monitors.run_cons, hstart]
        apply Monitors.run_eq_self
        intro event hevent
        obtain ⟨hturn, thread, hpayload⟩ := hupdated event hevent
        exact hear_of_running hrunning hturn (Or.inr (by rw [hpayload]; rfl))
      · exact fun u hu => continueTurnAfterPolicy_followed request answers hrunning hu
    · exact fun _ _ hno => hno.1.elim
  · exact fun e runtime hquiet => ⟨phases, dispatched_error e (hfits.of_quiet hquiet)⟩

theorem turnCancel_followed (request : TurnCancelRequest) (answers : List GatewayAnswer)
    (hfits : Fits s.runtime phases) :
    Followed own (handleRequest (.turnCancel request) answers) s phases := by
  apply handleRequest_followed_of
  unfold dispatch
  rw [wp_respond, wp_onTurns]
  apply wp_mono (cancelTurn_erases request)
  · intro turn turns ⟨herased, found, hfound, hid⟩
    have hrunning := hfits.active request.turnId found hfound
    have hname : turn.id = request.turnId := hid.trans (hfits.filed request.turnId found hfound)
    have hleft : Fits { s.runtime with toTurnRuntime := turns } phases :=
      hfits.of_changesOnly (herased.changesOnly (P := fun _ => True) trivial) rfl
    have hover := hleft.ended hrunning herased.lookup_self
    rw [wp_bind]
    apply wp_mono (wp_and (threadEvent_quiet turn.threadId turn.id .threadInterrupted _)
      (threadEvent_gives turn.threadId turn.id .threadInterrupted _))
    · intro interrupted t ⟨⟨after, hquiet, heq⟩, hinterrupted⟩
      subst heq
      refine ⟨Function.update phases request.turnId .closed, rfl, hover.of_quiet hquiet, ?_, ?_⟩
      · show Monitors.run (hear own) phases (_ :: interrupted) = _
        rw [Monitors.run_cons, hear_terminal rfl hname hrunning]
        apply Monitors.run_eq_self
        intro event hevent
        obtain ⟨hturn, thread, hpayload⟩ := hinterrupted event hevent
        exact hear_of_heard heard_over (hname ▸ hturn) (by rw [hpayload]; rfl)
      · intro u hu
        apply followed_of_does (compileMemoryForThread_neutral _ ?_).guarantees hu
        · exact fun _ => False
        · exact fun id heq => by cases heq
    · exact fun _ _ hno => hno.1.elim
  · intro e turns hopen
    have hkept : Fits { s.runtime with toTurnRuntime := turns } phases := by
      rcases hopen with herased | ⟨hkept, -⟩
      · exact hfits.of_changesOnly (herased.changesOnly (P := fun _ => True) trivial) rfl
      · exact hfits.of_quiet ⟨hkept, rfl⟩
    exact ⟨phases, dispatched_error e hkept⟩

theorem approvalRespond_followed (request : ApprovalRespondRequest) (answers : List GatewayAnswer)
    (hfits : Fits s.runtime phases) :
    Followed own (handleRequest (.approvalRespond request) answers) s phases := by
  apply handleRequest_followed_of
  unfold dispatch RuntimeCoordinator.respondApproval
  simp only [wp_respond, wp_bind, wp_get]
  cases hfound : s.runtime.approvals.lookup request.approvalId with
  | none => exact ⟨phases, dispatched_error _ hfits⟩
  | some approval =>
      simp only [wp_bind, wp_modify, wp_pure]
      refine ⟨phases, rfl, hfits.answered hfound, ?_, ?_⟩
      · apply Monitors.run_eq_self
        intro event hevent
        rw [List.mem_singleton.mp hevent]
        exact hear_of_heard (hfits.named request.approvalId approval hfound) rfl rfl
      · exact fun u hu => continueAfterApproval_followed request.decision answers _ hu

omit [World] in
theorem respond_gives {α : Type} {p : RuntimeM α} {E : PendingEvent → Prop}
    {success : α → ServerM (ResponsePayload × List PendingEvent)}
    (h : ∀ value, Gives (fun answer => ∀ event ∈ answer.2, E event) (success value)) :
    Gives (fun handled => ∀ event ∈ handled.2, E event) (respond p success) := by
  intro s
  rw [wp_respond]
  exact wp_mono (wp_trivial p) (fun value runtime _ => h value _)
    (fun _ _ _ _ hevent => absurd hevent List.not_mem_nil)

/-- What is published of a client's tool call are events of that call. -/
theorem handleToolCall_gives (request : ToolCallRequest) :
    Gives (fun handled => ∀ event ∈ handled.2, event.payload.role = .other)
      (handleToolCall request) := by
  have hcalled : ∀ {α : Type} (p : RuntimeM α), Gives (fun _ => True) (onRuntime p) := by
    intro α p s
    rw [wp_onRuntime]
    exact wp_trivial p
  apply Gives.bind (hcalled (normalizeToolCallNode request))
  intro normalized _
  cases normalized with
  | error _ => exact Gives.pure fun _ h => absurd h List.not_mem_nil
  | ok request =>
      have hexecuted : Always (Does (fun _ => True) (fun _ => True)) (executeTool .client request) :=
        executeTool_does trivial
      apply Gives.bind (Gives.of_always hexecuted)
      intro execution _
      cases execution with
      | error _ => exact Gives.pure fun _ h => absurd h List.not_mem_nil
      | ok execution =>
          apply respond_gives
          intro recorded
          exact Gives.pure fun event hevent => (mem_toolExecutionEvents hevent).1

/-- What an ordinary request publishes belongs to no turn, or it comes of a client's tool call. -/
theorem dispatch_gives {request : ClientRequest} (h : request.ordinary = true) :
    Gives (fun handled => ∀ event ∈ handled.2,
      event.turnId = none ∨ request.own = false ∧ event.payload.role = .other)
      (dispatch request) := by
  have hnothing : ∀ event ∈ ([] : List PendingEvent),
      event.turnId = none ∨ request.own = false ∧ event.payload.role = .other :=
    fun _ hevent => absurd hevent List.not_mem_nil
  have hget : Gives (fun _ => True) (get : ServerM AppServer) := fun _ => trivial
  have hmodify : ∀ f : AppServer → AppServer, Gives (fun _ => True) (modify f : ServerM Unit) :=
    fun _ _ => trivial
  cases request with
  | runtimeConfigGet => exact Gives.bind hget fun _ _ => Gives.pure hnothing
  | runtimeConfigUpdate sandbox approvalPolicy =>
      exact Gives.bind (hmodify _) fun _ _ => Gives.bind hget fun _ _ => Gives.pure hnothing
  | threadStart request =>
      apply respond_gives
      intro thread
      exact Gives.pure fun event hevent => Or.inl (by rw [List.mem_singleton.mp hevent])
  | threadResume request =>
      apply respond_gives
      intro thread
      apply Gives.bind hget
      intro server _
      apply Gives.pure
      intro event hevent
      rcases List.mem_cons.mp hevent with rfl | hwakeup
      · exact Or.inl rfl
      · obtain ⟨wakeup, -, rfl⟩ := List.mem_map.mp hwakeup
        exact Or.inl rfl
  | threadFork request =>
      apply respond_gives
      intro thread
      exact Gives.pure fun event hevent => Or.inl (by rw [List.mem_singleton.mp hevent])
  | turnStart _ => exact absurd h (by simp [ClientRequest.ordinary])
  | turnCancel _ => exact absurd h (by simp [ClientRequest.ordinary])
  | approvalRespond _ => exact absurd h (by simp [ClientRequest.ordinary])
  | toolCall request =>
      exact fun s => wp_mono (handleToolCall_gives request s)
        (fun _ _ hevents event hevent => Or.inr ⟨rfl, hevents event hevent⟩) (fun _ _ hno => hno)
  | threadRollback => exact Gives.pure hnothing
  | other method outcome =>
      apply Gives.bind (hmodify _)
      intro _ _
      apply Gives.pure
      intro event hevent
      obtain ⟨told, -, rfl⟩ := List.mem_map.mp hevent
      exact Or.inl rfl

/-- An ordinary request changes no phase. -/
theorem ordinary_followed {request : ClientRequest} (h : request.ordinary = true)
    (answers : List GatewayAnswer) (hfits : Fits s.runtime phases) :
    Followed request.own (handleRequest request answers) s phases := by
  have hdoes : Guarantees (Does (fun _ => False) (fun observation => observation.event = none))
      (dispatch request) := dispatch_does h fun _ => rfl
  apply handleRequest_followed_of
  apply wp_mono (wp_and (hdoes s) (dispatch_gives h s))
  · intro handled t ⟨ht, hevents⟩
    refine ⟨phases, ht.trace.silent, hfits.of_changesOnly ht.turns ht.approvals, ?_, ?_⟩
    · apply Monitors.run_eq_self
      intro event hevent
      rcases hevents event hevent with hturn | ⟨hforeign, hrole⟩
      · exact hear_of_turnless hturn
      · rw [hforeign]
        exact hear_of_foreign hrole
    · intro u hu
      rw [continueAfter_ordinary h]
      exact followed_pure hu ()
  · exact fun _ _ hno => hno.2.elim

/-- Every request is followed. -/
theorem handleRequest_followed (request : ClientRequest) (answers : List GatewayAnswer)
    (hfits : Fits s.runtime phases) :
    Followed request.own (handleRequest request answers) s phases := by
  by_cases hordinary : request.ordinary = true
  · exact ordinary_followed hordinary answers hfits
  · cases request with
    | turnStart request => exact turnStart_followed request answers hfits
    | turnCancel request => exact turnCancel_followed request answers hfits
    | approvalRespond request => exact approvalRespond_followed request answers hfits
    | _ => exact absurd rfl hordinary

end Requests

/-! ### Runs -/

section Runs

variable [World] {phases : TurnPhases} {s : AppServer}

theorem step_follows (hfits : Fits s.runtime phases) (input : ServerInput) :
    ∃ after, Follows input.request.own s phases (s.step input) after :=
  wp_after.mp (handleRequest_followed input.request input.answers hfits)

theorem Follows.newEvents {own : Bool} {input : ServerInput} {after : TurnPhases}
    (h : Follows own s phases (s.step input) after) :
    (s.step input).publishedEvents = s.publishedEvents ++ s.newEvents input ∧
      Monitors.run (hear own) phases (s.newEvents input) = some after := by
  obtain ⟨events, hevents, hrun⟩ := h.heard
  have hnew : s.newEvents input = events := by
    rw [AppServer.newEvents, hevents, List.drop_left]
  rw [hnew]
  exact ⟨hevents, hrun⟩

/-- The stream of a run is all that is published in it. -/
theorem publishedEvents_final (hfits : Fits s.runtime phases) (inputs : List ServerInput) :
    (Runs.final AppServer.step s inputs).publishedEvents =
      s.publishedEvents ++ (s.publications inputs).map Publication.event := by
  induction inputs generalizing s phases with
  | nil => exact (List.append_nil _).symm
  | cons input rest ih =>
      obtain ⟨after, hfollows⟩ := step_follows hfits input
      have hmap : ((s.newEvents input).map (Publication.mk input.request)).map Publication.event =
          s.newEvents input := by
        rw [List.map_map]
        exact List.map_id _
      rw [Runs.final, ih hfollows.fits, hfollows.newEvents.1, List.append_assoc]
      show _ = _ ++ (_ ++ AppServer.publications (s.step input) rest).map Publication.event
      rw [List.map_append, hmap]

theorem fits_new (host : HostInfo) (sandbox : ShellSandboxRequest) (stores : RuntimeStores) :
    Fits (AppServer.new host sandbox stores).runtime fun _ => .unheard := by
  refine ⟨(orderly_new host sandbox stores).filed, ?_, ?_, ?_⟩
  · intro id turn hturn
    rw [activeTurns_new, AList.lookup_empty] at hturn
    cases hturn
  · intro id approval hfound
    rw [approvals_new, AList.lookup_empty] at hfound
    cases hfound
  · exact fun _ hheard => absurd rfl hheard

/-- Whatever is requested, and whatever the gateway, the disk and the tools do, every turn keeps its
protocol in the stream of what the server publishes. -/
theorem turns_keep_protocol (host : HostInfo) (sandbox : ShellSandboxRequest)
    (stores : RuntimeStores) (inputs : List ServerInput) :
    let server := AppServer.new host sandbox stores
    (Runs.final AppServer.step server inputs).publishedEvents =
        (server.publications inputs).map Publication.event ∧
      ∀ turnId, TurnProtocol turnId (server.publications inputs) := by
  intro server
  have hnew : Fits server.runtime fun _ => .unheard := fits_new host sandbox stores
  have hstep : ∀ (s : AppServer) (input : ServerInput) (phases : TurnPhases), True →
      Fits s.runtime phases → ∃ after,
        Monitors.run Publication.hear phases
            ((s.newEvents input).map (Publication.mk input.request)) = some after ∧
          Fits (s.step input).runtime after := by
    intro s input phases _ hfits
    obtain ⟨after, hfollows⟩ := step_follows hfits input
    refine ⟨after, ?_, hfollows.fits⟩
    rw [Publication.run_map]
    exact hfollows.newEvents.2
  obtain ⟨after, hrun, -⟩ := Monitors.follows_run hstep hnew (Runs.allSteps_true server inputs)
  exact ⟨publishedEvents_final hnew inputs, fun turnId => turnProtocol_of_run hrun turnId⟩

end Runs

end Liz
