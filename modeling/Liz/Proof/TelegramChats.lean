import Liz.Proof.RiskyRuns
import Liz.Proof.TelegramAnswers

/-!
# The chats of a Telegram channel

Every chat has a thread of its own and keeps it, and what a chat gets was said in its own thread,
whatever updates of other chats and requests of other clients come in between. A thread that is
started has an identifier which the generator has not given out before, and this is all that keeps
the chats apart.
-/

namespace Liz

open Program

/-! ### Threads of their own -/

section Threads

variable [Disk] [Clock]

omit [Clock] in
theorem storeThread_returns (record : Thread) (s : TurnRuntime) :
    wp (do
        stored (RuntimeStores.putThread record)
        syncActiveThreadIds record.id true
        pure record)
      (fun thread t => thread = record ∧ KeepsTurns s t) (fun _ _ => True) s := by
  have hreturns : wp (do
      stored (RuntimeStores.putThread record)
      syncActiveThreadIds record.id true
      pure record) (fun thread _ => thread = record) (fun _ _ => True) s := by
    rw [wp_bind]
    refine wp_mono (wp_trivial _) (fun _ _ _ => ?_) fun _ _ h => h
    rw [wp_bind]
    exact wp_mono (wp_trivial _) (fun _ _ _ => rfl) fun _ _ h => h
  exact wp_mono (wp_and hreturns (storeThread_keepsTurns record s)) (fun _ _ h => h)
    fun _ _ h => h.1

/-- A thread that is started has an identifier of its own. -/
theorem startThread_issues (request : ThreadStartRequest) (s : TurnRuntime) :
    wp (startThread request) (fun thread t => ¬ s.ids.Issued thread.id ∧ t.ids.Issued thread.id)
      (fun _ _ => True) s := by
  unfold startThread
  rw [wp_bind, wp_drawn]
  dsimp only
  rw [wp_bind, wp_drawn]
  refine wp_mono (storeThread_returns _ _) (fun thread t ht => ?_) fun _ _ h => h
  obtain ⟨rfl, hkeeps⟩ := ht
  exact ⟨fun hissued => not_issued_nextValue _ _ (hissued.mono le_rfl),
    (issued_nextValue _ _).mono hkeeps.sequence⟩

end Threads

/-! ### Requests of any client -/

section Requests

variable [World]

/-- What one request leaves behind of the order of the server. -/
structure Onward (s t : AppServer) : Prop where
  orderly : Orderly t.runtime
  sequence : s.runtime.ids.sequence ≤ t.runtime.ids.sequence
  trace : s.trace <+: t.trace

omit [World] in
theorem Adds.begins {O : Observation → Prop} {s t : AppServer} (h : Adds O s t) :
    s.trace <+: t.trace := by
  obtain ⟨more, hmore, -⟩ := h
  exact ⟨more, hmore.symm⟩

/-- A request takes back nothing that has been observed. -/
theorem trace_step {s : AppServer} (h : Orderly s.runtime) (input : ServerInput) :
    s.trace <+: (s.step input).trace := by
  obtain ⟨request, answers⟩ := input
  have heffect : StepEffect s (s.step ⟨request, answers⟩) request := step_effect h.filed _
  cases heffect with
  | idle hworks => exact hworks.trace.begins
  | cancelled hworks => exact hworks.trace.begins
  | started hbegins hcontinues =>
      cases hcontinues with
      | worked hworks => exact hbegins.trace.begins.trans hworks.trace.begins
      | asked approval hasks htrace => exact hbegins.trace.begins.trans htrace.begins
  | answered hanswers hworks => exact hanswers.trace.begins.trans hworks.trace.begins

theorem onward_step {s : AppServer} (h : Orderly s.runtime) (input : ServerInput) :
    Onward s (s.step input) :=
  ⟨orderly_step h input, sequence_step h input, trace_step h input⟩

theorem handleRequest_onward {s : AppServer} (h : Orderly s.runtime) (request : ClientRequest)
    (answers : List GatewayAnswer) :
    wp (handleRequest request answers) (fun _ t => Onward s t) (fun _ t => Onward s t) s :=
  wp_after.mpr (onward_step h ⟨request, answers⟩)

/-- The thread that a client is told of is a new one. -/
theorem handleRequest_threadStart_issues (request : ThreadStartRequest)
    (answers : List GatewayAnswer) (s : AppServer) :
    wp (handleRequest (.threadStart request) answers)
      (fun response t => ∀ thread, response = .success (.threadStart thread) →
        ¬ s.runtime.ids.Issued thread.id ∧ t.runtime.ids.Issued thread.id)
      (fun _ _ => True) s := by
  unfold handleRequest dispatch respond
  rw [wp_bind, wp_bind, wp_onRuntime]
  unfold RuntimeCoordinator.startThread
  rw [wp_bind]
  refine wp_mono (resolveThreadWorkspaceMount_quiet request s.runtime) (fun resolved m hm => ?_)
    fun e m _ thread hthread => ?_
  · rw [wp_onTurns]
    refine wp_mono (startThread_issues resolved m.toTurnRuntime) (fun thread t ht => ?_)
      fun e t _ thread hthread => ?_
    · dsimp only
      rw [wp_bind, wp_pure, wp_pure, wp_bind, wp_publishAll]
      intro other hother
      obtain rfl : thread = other := by
        have hpayload := ServerResponse.success.inj hother
        exact ResponsePayload.threadStart.inj hpayload
      exact ⟨fun hissued => ht.1 (hissued.mono hm.turns.sequence), ht.2⟩
    · cases hthread
  · cases hthread

end Requests

/-! ### Runs of a channel -/

/-- What happens to the channel: an update arrives, or another client has a request handled. -/
inductive TelegramStep
  | update (update : TelegramUpdate) (answers : List GatewayAnswer)
  | request (input : ServerInput)

/-- A channel that has just been opened at the server. -/
def TelegramChannel.new (server : AppServer) : TelegramChannel :=
  { server := server, adapter := .new, outbox := .empty }

def TelegramChannel.step [World] [TelegramWorld] (channel : TelegramChannel) :
    TelegramStep → TelegramChannel
  | .update update answers => after (handleUpdate update answers) channel
  | .request input => { channel with server := channel.server.step input }

/-- What the adapter sends for an event of the chat's thread. -/
def PendingEvent.telegramText (event : PendingEvent) : Option String :=
  match event.payload with
  | .assistantChunk text _ _ | .assistantCompleted text => some text
  | .turnFailed _ message => some ("liz could not finish that turn: " ++ message)
  | _ => none

/-- Something that was said in the thread. -/
def SaidIn (events : List PendingEvent) (threadId : ThreadId) (text : String) : Prop :=
  ∃ event ∈ events, event.threadId = threadId ∧ event.telegramText = some text

/-- Chats have threads of their own, which the generator knows, and have got what was said there. -/
structure Apart (channel : TelegramChannel) : Prop where
  orderly : Orderly channel.server.runtime
  issued : ∀ chatId threadId, channel.adapter.chatThreads.lookup chatId = some threadId →
    channel.server.runtime.ids.Issued threadId
  own : ∀ chatId chatId' threadId, channel.adapter.chatThreads.lookup chatId = some threadId →
    channel.adapter.chatThreads.lookup chatId' = some threadId → chatId = chatId'
  said : ∀ sent ∈ channel.outbox.sent, ∃ threadId,
    channel.adapter.chatThreads.lookup sent.1 = some threadId ∧
      SaidIn channel.server.publishedEvents threadId sent.2

/-- The chats that have a thread keep it. -/
def KeepsChats (before after : TelegramChannel) : Prop :=
  ∀ chatId threadId, before.adapter.chatThreads.lookup chatId = some threadId →
    after.adapter.chatThreads.lookup chatId = some threadId

theorem KeepsChats.refl (channel : TelegramChannel) : KeepsChats channel channel :=
  fun _ _ h => h

theorem KeepsChats.trans ⦃s t u : TelegramChannel⦄ (h : KeepsChats s t) (h' : KeepsChats t u) :
    KeepsChats s u :=
  fun chatId threadId hfound => h' chatId threadId (h chatId threadId hfound)

theorem SaidIn.mono {events later : List PendingEvent} {threadId : ThreadId} {text : String}
    (h : SaidIn events threadId text) (hlater : events <+: later) : SaidIn later threadId text := by
  obtain ⟨event, hevent, hsaid⟩ := h
  exact ⟨event, hlater.subset hevent, hsaid⟩

theorem Onward.publishedEvents {s t : AppServer} (h : Onward s t) :
    s.publishedEvents <+: t.publishedEvents := by
  obtain ⟨more, hmore⟩ := h.trace
  rw [AppServer.publishedEvents, AppServer.publishedEvents, ← hmore, List.filterMap_append]
  exact List.prefix_append _ _

theorem Apart.onward {channel : TelegramChannel} {server : AppServer} (h : Apart channel)
    (hserver : Onward channel.server server) : Apart { channel with server := server } where
  orderly := hserver.orderly
  issued chatId threadId hfound := (h.issued chatId threadId hfound).mono hserver.sequence
  own := h.own
  said sent hsent := by
    obtain ⟨threadId, hfound, hsaid⟩ := h.said sent hsent
    exact ⟨threadId, hfound, hsaid.mono hserver.publishedEvents⟩

/-- A chat without a thread gets one that is new. -/
theorem Apart.insert {channel : TelegramChannel} {chatId : Int} {threadId : ThreadId}
    (h : Apart channel) (hissued : channel.server.runtime.ids.Issued threadId)
    (hnew : ∀ other, channel.adapter.chatThreads.lookup other ≠ some threadId)
    (hnone : channel.adapter.chatThreads.lookup chatId = none) :
    Apart { channel with adapter := { channel.adapter with
        chatThreads := channel.adapter.chatThreads.insert chatId threadId } } ∧
      KeepsChats channel { channel with adapter := { channel.adapter with
        chatThreads := channel.adapter.chatThreads.insert chatId threadId } } := by
  have hkept : ∀ other found, channel.adapter.chatThreads.lookup other = some found →
      (channel.adapter.chatThreads.insert chatId threadId).lookup other = some found := by
    intro other found hfound
    rw [AList.lookup_insert_ne, hfound]
    rintro rfl
    rw [hnone] at hfound
    cases hfound
  have hcases : ∀ other found,
      (channel.adapter.chatThreads.insert chatId threadId).lookup other = some found →
        (other = chatId ∧ found = threadId) ∨
          channel.adapter.chatThreads.lookup other = some found := by
    intro other found hfound
    by_cases hsame : other = chatId
    · subst hsame
      rw [AList.lookup_insert, Option.some.injEq] at hfound
      exact .inl ⟨rfl, hfound.symm⟩
    · rw [AList.lookup_insert_ne hsame] at hfound
      exact .inr hfound
  refine ⟨⟨h.orderly, fun other found hfound => ?_, fun chat chat' found hfound hfound' => ?_,
    fun sent hsent => ?_⟩, hkept⟩
  · rcases hcases other found hfound with ⟨-, rfl⟩ | hbefore
    · exact hissued
    · exact h.issued other found hbefore
  · rcases hcases chat found hfound with ⟨rfl, rfl⟩ | hbefore
    · rcases hcases chat' found hfound' with ⟨rfl, -⟩ | hbefore'
      · rfl
      · exact absurd hbefore' (hnew chat')
    · rcases hcases chat' found hfound' with ⟨rfl, rfl⟩ | hbefore'
      · exact absurd hbefore (hnew chat)
      · exact h.own chat chat' found hbefore hbefore'
  · obtain ⟨found, hfound, hsaid⟩ := h.said sent hsent
    exact ⟨found, hkept sent.1 found hfound, hsaid⟩

/-! ### Updates -/

/-- What is sent on top goes to the chat and was said in the thread. -/
def SendsSaid (events : List PendingEvent) (threadId : ThreadId) (chatId : Int)
    (before after : Outbox) : Prop :=
  ∀ sent ∈ after.sent, sent ∈ before.sent ∨ (sent.1 = chatId ∧ SaidIn events threadId sent.2)

section Forwarding

variable {events : List PendingEvent} {threadId : ThreadId} {chatId : Int}

theorem SendsSaid.refl (outbox : Outbox) : SendsSaid events threadId chatId outbox outbox :=
  fun _ hsent => .inl hsent

theorem SendsSaid.trans ⦃s t u : Outbox⦄ (h : SendsSaid events threadId chatId s t)
    (h' : SendsSaid events threadId chatId t u) : SendsSaid events threadId chatId s u := by
  intro sent hsent
  rcases h' sent hsent with hbefore | hsaid
  · exact h sent hbefore
  · exact .inr hsaid

/-- What was said in a chat's own thread may be sent to it. -/
theorem Apart.sends {channel : TelegramChannel} {outbox : Outbox} (h : Apart channel)
    (hthread : channel.adapter.chatThreads.lookup chatId = some threadId)
    (hsends : SendsSaid channel.server.publishedEvents threadId chatId channel.outbox outbox) :
    Apart { channel with outbox := outbox } where
  orderly := h.orderly
  issued := h.issued
  own := h.own
  said sent hsent := by
    rcases hsends sent hsent with hbefore | ⟨hchat, hsaid⟩
    · exact h.said sent hbefore
    · exact ⟨threadId, hchat ▸ hthread, hsaid⟩

variable [TelegramWorld]

theorem sendMarkdown_sendsSaid {text : String} (hsaid : SaidIn events threadId text) :
    Guarantees (SendsSaid events threadId chatId) (sendMarkdown chatId text) := by
  intro outbox
  unfold sendMarkdown wp
  dsimp only
  cases TelegramWorld.failure outbox.attempts with
  | some error => exact SendsSaid.refl outbox
  | none =>
      intro sent hsent
      rcases List.mem_append.mp hsent with hbefore | hadded
      · exact .inl hbefore
      · rw [List.mem_singleton.mp hadded]
        exact .inr ⟨rfl, hsaid⟩

/-- Going through the polls, the adapter sends what they bring of the thread and nothing else. -/
theorem forward_sendsSaid {timeout : Nat} {polls : List EventPoll}
    (hpolls : ∀ poll ∈ polls, ∀ event, poll.received = some event → event ∈ events)
    (messagesSent : Nat) :
    Guarantees (SendsSaid events threadId chatId)
      (forwardAssistantEvents timeout threadId chatId messagesSent polls) := by
  induction polls generalizing messagesSent with
  | nil => exact .pure SendsSaid.refl _
  | cons poll rest ih =>
      rw [List.forall_mem_cons] at hpolls
      have hgoes := ih hpolls.2
      have hsend : ∀ {text : String} {next : OutboxM Nat}, SaidIn events threadId text →
          Guarantees (SendsSaid events threadId chatId) next →
            Guarantees (SendsSaid events threadId chatId) (do sendMarkdown chatId text; next) :=
        fun hsaid hnext => .bind SendsSaid.trans (sendMarkdown_sendsSaid hsaid) fun _ => hnext
      rw [forwardAssistantEvents]
      split
      next =>
        split
        next => exact hgoes messagesSent
        next event hreceived =>
          have hevent := hpolls.1 event hreceived
          split
          next => exact hgoes messagesSent
          next hthread =>
            have hsaid : ∀ {text : String}, event.telegramText = some text →
                SaidIn events threadId text := fun htext =>
              ⟨event, hevent, not_not.mp hthread, htext⟩
            split
            next hpayload =>
              split
              next => exact hgoes messagesSent
              next => exact hsend (hsaid (by rw [PendingEvent.telegramText, hpayload])) (hgoes _)
            next hpayload =>
              split
              next => exact hgoes messagesSent
              next => exact hsend (hsaid (by rw [PendingEvent.telegramText, hpayload])) (hgoes _)
            next => exact .pure SendsSaid.refl _
            next hpayload =>
              exact hsend (hsaid (by rw [PendingEvent.telegramText, hpayload]))
                (.pure SendsSaid.refl _)
            next => exact hgoes messagesSent
      next => exact .pure SendsSaid.refl _

theorem received_of_mem_pollsOf {poll : EventPoll} {event : PendingEvent}
    (hpoll : poll ∈ pollsOf events) (hevent : poll.received = some event) : event ∈ events := by
  obtain ⟨n, hn, rfl⟩ := List.mem_mapIdx.mp hpoll
  rw [← Option.some.inj hevent]
  exact List.getElem_mem hn

end Forwarding

section Updates

variable [World]

/-- What a part of handling an update leaves behind. -/
def KeepsApart (before after : TelegramChannel) : Prop := Apart after ∧ KeepsChats before after

theorem onServer_keepsApart {channel : TelegramChannel} (h : Apart channel)
    (request : ClientRequest) (answers : List GatewayAnswer) :
    wp (onServer (handleRequest request answers))
      (fun _ t => KeepsApart channel t ∧ t.adapter = channel.adapter)
      (fun _ t => KeepsApart channel t) channel := by
  rw [onServer, wp_zoom, wp_adaptExcept]
  exact wp_mono (handleRequest_onward h.orderly request answers)
    (fun _ _ hserver => ⟨⟨h.onward hserver, KeepsChats.refl channel⟩, rfl⟩)
    fun _ _ hserver => ⟨h.onward hserver, KeepsChats.refl channel⟩

theorem onServer_issues (channel : TelegramChannel) (request : ThreadStartRequest)
    (answers : List GatewayAnswer) :
    wp (onServer (handleRequest (.threadStart request) answers))
      (fun response t => ∀ thread, response = .success (.threadStart thread) →
        ¬ channel.server.runtime.ids.Issued thread.id ∧ t.server.runtime.ids.Issued thread.id)
      (fun _ _ => True) channel := by
  rw [onServer, wp_zoom, wp_adaptExcept]
  exact wp_mono (handleRequest_threadStart_issues _ _ _) (fun _ _ hissues => hissues)
    fun _ _ _ => trivial

theorem startThreadForMessage_keepsApart {channel : TelegramChannel} (h : Apart channel)
    (message : TelegramIncomingMessage) :
    wp (startThreadForMessage message)
      (fun threadId t => KeepsApart channel t ∧ t.adapter = channel.adapter ∧
        ¬ channel.server.runtime.ids.Issued threadId ∧ t.server.runtime.ids.Issued threadId)
      (fun _ t => KeepsApart channel t) channel := by
  unfold startThreadForMessage
  rw [wp_bind]
  refine wp_mono (wp_and (onServer_keepsApart h _ _) (onServer_issues channel _ _))
    (fun response t ht => ?_) fun _ _ ht => ht.1
  obtain ⟨⟨hkeeps, hadapter⟩, hissues⟩ := ht
  split
  next thread => exact ⟨hkeeps, hadapter, hissues thread rfl⟩
  next => exact hkeeps

/-- After an update the chat has a thread. -/
theorem threadForMessage_keepsApart {channel : TelegramChannel} (h : Apart channel)
    (message : TelegramIncomingMessage) :
    wp (threadForMessage message)
      (fun threadId t => KeepsApart channel t ∧
        t.adapter.chatThreads.lookup message.chatId = some threadId)
      (fun _ t => KeepsApart channel t) channel := by
  unfold threadForMessage
  rw [wp_bind, wp_get]
  cases hfound : channel.adapter.chatThreads.lookup message.chatId with
  | some threadId => exact ⟨⟨h, KeepsChats.refl channel⟩, hfound⟩
  | none =>
      dsimp only
      rw [wp_bind]
      refine wp_mono (startThreadForMessage_keepsApart h message) (fun threadId t ht => ?_)
        fun _ _ ht => ht
      obtain ⟨⟨hapart, hkeeps⟩, hadapter, hnew, hissued⟩ := ht
      rw [wp_bind, wp_modify, wp_pure]
      have hnone : t.adapter.chatThreads.lookup message.chatId = none := by rwa [hadapter]
      have hunused : ∀ other, t.adapter.chatThreads.lookup other ≠ some threadId := by
        intro other hother
        rw [hadapter] at hother
        exact hnew (h.issued other threadId hother)
      obtain ⟨hinserted, hlater⟩ := hapart.insert hissued hunused hnone
      exact ⟨⟨hinserted, hkeeps.trans hlater⟩, AList.lookup_insert _⟩

theorem startTurnForMessage_keepsApart {channel : TelegramChannel} (h : Apart channel)
    (message : TelegramIncomingMessage) (threadId : ThreadId) (answers : List GatewayAnswer) :
    wp (startTurnForMessage message threadId answers) (fun _ t => KeepsApart channel t)
      (fun _ t => KeepsApart channel t) channel := by
  unfold startTurnForMessage
  rw [wp_bind]
  refine wp_mono (onServer_keepsApart h _ _) (fun response t ht => ?_) fun _ _ ht => ht
  split
  next => exact ht.1
  next => exact ht.1

variable [TelegramWorld]

theorem handleUpdate_keepsApart {channel : TelegramChannel} (h : Apart channel)
    (update : TelegramUpdate) (answers : List GatewayAnswer) :
    wp (handleUpdate update answers) (fun _ t => KeepsApart channel t)
      (fun _ t => KeepsApart channel t) channel := by
  unfold handleUpdate
  cases TelegramIncomingMessage.fromUpdate update with
  | none => exact ⟨h, KeepsChats.refl channel⟩
  | some message =>
      dsimp only
      rw [wp_bind, wp_get, wp_bind]
      refine wp_mono (threadForMessage_keepsApart h message) (fun threadId m hm => ?_)
        fun _ _ hm => hm
      obtain ⟨⟨hapart, hkeeps⟩, hthread⟩ := hm
      rw [wp_bind]
      refine wp_mono (startTurnForMessage_keepsApart hapart message threadId answers)
        (fun _ t ht => ?_) fun _ _ ht => ⟨ht.1, hkeeps.trans ht.2⟩
      rw [wp_bind, wp_get, wp_bind, onOutbox, wp_zoom, wp_adaptExcept]
      have hpolls : ∀ poll ∈ pollsOf (t.server.publishedEvents.drop
          channel.server.publishedEvents.length), ∀ event, poll.received = some event →
            event ∈ t.server.publishedEvents := fun poll hpoll event hevent =>
        List.mem_of_mem_drop (received_of_mem_pollsOf hpoll hevent)
      have hsends : ∀ outbox, SendsSaid t.server.publishedEvents threadId message.chatId t.outbox
          outbox → KeepsApart channel { t with outbox := outbox } := fun outbox hsends =>
        ⟨ht.1.sends (ht.2 _ _ hthread) hsends, hkeeps.trans ht.2⟩
      exact wp_mono (forward_sendsSaid hpolls 0 t.outbox) (fun _ outbox => hsends outbox)
        fun _ outbox => hsends outbox

theorem keepsApart_step {channel : TelegramChannel} (h : Apart channel) (step : TelegramStep) :
    KeepsApart channel (channel.step step) := by
  cases step with
  | update update answers => exact wp_after.mp (handleUpdate_keepsApart h update answers)
  | request input => exact ⟨h.onward (onward_step h.orderly input), KeepsChats.refl channel⟩

omit [TelegramWorld] in
theorem apart_new (host : HostInfo) (sandbox : ShellSandboxRequest) (stores : RuntimeStores) :
    Apart (.new (AppServer.new host sandbox stores)) where
  orderly := orderly_new host sandbox stores
  issued chatId threadId hfound := by
    rw [TelegramChannel.new, TelegramAdapter.new, AList.lookup_empty] at hfound
    cases hfound
  own chatId _ threadId hfound := by
    rw [TelegramChannel.new, TelegramAdapter.new, AList.lookup_empty] at hfound
    cases hfound
  said sent hsent := absurd hsent List.not_mem_nil

/-- The channel after some steps, over a server that found the stores as they are. -/
def TelegramChannel.reached (host : HostInfo) (sandbox : ShellSandboxRequest)
    (stores : RuntimeStores) (steps : List TelegramStep) : TelegramChannel :=
  Runs.final TelegramChannel.step (.new (AppServer.new host sandbox stores)) steps

/-- In every run of a channel, with requests of other clients in between, no two chats share a
thread, a chat keeps the thread it has, and whatever a chat has got was said in its own thread. -/
theorem telegram_chats_apart (host : HostInfo) (sandbox : ShellSandboxRequest)
    (stores : RuntimeStores) (earlier later : List TelegramStep) :
    (∀ chatId chatId' threadId,
      (TelegramChannel.reached host sandbox stores earlier).adapter.chatThreads.lookup chatId =
        some threadId →
      (TelegramChannel.reached host sandbox stores earlier).adapter.chatThreads.lookup chatId' =
        some threadId → chatId = chatId') ∧
    (∀ chatId threadId,
      (TelegramChannel.reached host sandbox stores earlier).adapter.chatThreads.lookup chatId =
        some threadId →
      (TelegramChannel.reached host sandbox stores
        (earlier ++ later)).adapter.chatThreads.lookup chatId = some threadId) ∧
    ∀ chatId text,
      (chatId, text) ∈ (TelegramChannel.reached host sandbox stores earlier).outbox.sent →
      ∃ threadId,
        (TelegramChannel.reached host sandbox stores earlier).adapter.chatThreads.lookup chatId =
          some threadId ∧
        SaidIn (TelegramChannel.reached host sandbox stores earlier).server.publishedEvents threadId
          text := by
  have hstep : ∀ (channel : TelegramChannel) (step : TelegramStep), Apart channel → True →
      Apart (channel.step step) := fun _ step h _ => (keepsApart_step h step).1
  have hapart : Apart (TelegramChannel.reached host sandbox stores earlier) :=
    Runs.invariant hstep (apart_new host sandbox stores) (Runs.allSteps_true _ earlier) _
      (Runs.final_mem_states _ earlier)
  have hrespects : ∀ (channel : TelegramChannel) (step : TelegramStep), Apart channel → True →
      KeepsChats channel (channel.step step) := fun _ step h _ => (keepsApart_step h step).2
  have hkeeps := (Runs.pairwise KeepsChats.refl (fun h h' => KeepsChats.trans h h') hstep hrespects
    hapart (Runs.allSteps_true _ later)).1 _ (Runs.final_mem_states _ later)
  refine ⟨hapart.own, fun chatId threadId hfound => ?_,
    fun chatId text hsent => hapart.said (chatId, text) hsent⟩
  rw [TelegramChannel.reached, Runs.final_append]
  exact hkeeps chatId threadId hfound

end Updates

/-! ### What a chat shows -/

/-- What is shown of a text in which no character may stand for markup. -/
def readMarkdownV2 (spelled : String) : Option String :=
  (Quoting.unescape isMarkdownV2Reserved false spelled.toList).map String.ofList

theorem readMarkdownV2_eq_some {spelled text : String} :
    readMarkdownV2 spelled = some text ↔
      Quoting.unescape isMarkdownV2Reserved false spelled.toList = some text.toList := by
  rw [readMarkdownV2, Option.map_eq_some_iff]
  refine ⟨fun h => ?_, fun h => ⟨_, h, String.ofList_toList⟩⟩
  obtain ⟨chars, hchars, rfl⟩ := h
  rw [hchars, String.toList_ofList]

theorem escapeMarkdownV2_join (texts : List String) :
    String.join (texts.map escapeMarkdownV2) = escapeMarkdownV2 (String.join texts) := by
  apply String.toList_inj.mp
  rw [escapeMarkdownV2, String.toList_ofList, String.toList_join, String.toList_join,
    Quoting.escape, List.flatMap_assoc, List.flatMap_map]
  exact List.flatMap_congr fun text _ => by rw [escapeMarkdownV2, String.toList_ofList,
    Quoting.escape]

/-- The text of the source's own test. -/
example : escapeMarkdownV2 "hello_world [x](y) a+b=c! \\done." =
    "hello\\_world \\[x\\]\\(y\\) a\\+b\\=c\\! \\\\done\\." := by decide

end Liz
