import Liz.Server.Telegram

/-!
# Answers in a Telegram chat

A round of a turn is published twice, in chunks and then as a whole, and the adapter forwards either
form. A chat gets an answer once only if it comes without chunks.
-/

namespace Liz

/-! ### Rounds -/

/-- A text of the assistant: a piece of a round, or the whole of it. -/
inductive AssistantText
  | chunk (text : String)
  | completed (text : String)

def assistantText (threadId : ThreadId) (event : PendingEvent) : Option AssistantText :=
  if event.threadId = threadId then
    match event.payload with
    | .assistantChunk text _ _ => some (.chunk text)
    | .assistantCompleted text => some (.completed text)
    | _ => none
  else none

/-- The adapter stops at this event. -/
def EndsForwarding (threadId : ThreadId) (event : PendingEvent) : Prop :=
  event.threadId = threadId ∧
    match event.payload with
    | .turnCompleted _ | .turnFailed _ _ => True
    | _ => False

/-- A round of a turn of the thread, as it is polled: of this thread's assistant come any number of
chunks and then at most one message, all of it in time. -/
structure TelegramRound (timeout : Nat) (threadId : ThreadId) where
  polls : List EventPoll
  chunks : List String
  completed : Option String
  texts : (polls.filterMap EventPoll.received).filterMap (assistantText threadId) =
    chunks.map .chunk ++ completed.toList.map .completed
  ongoing : ∀ poll ∈ polls, ∀ event, poll.received = some event → ¬ EndsForwarding threadId event
  inTime : ∀ poll ∈ polls, poll.elapsed < timeout

def pollsOfRounds {timeout : Nat} {threadId : ThreadId}
    (rounds : List (TelegramRound timeout threadId)) : List EventPoll :=
  rounds.flatMap TelegramRound.polls

section Forwarding

variable [TelegramWorld] {timeout : Nat} {threadId : ThreadId}

/-- The texts that the chat gets while the polls are gone through. -/
def forwarded (timeout : Nat) (threadId : ThreadId) (chatId : Int) (polls : List EventPoll) :
    List String :=
  (Program.after (forwardAssistantEvents timeout threadId chatId 0 polls) Outbox.empty).sent.map
    Prod.snd

/-- What the chat gets during a round with an answer is, put together, this answer. -/
def DeliversAnswers (chatId : Int) (rounds : List (TelegramRound timeout threadId))
    (rest : List EventPoll) : Prop :=
  ∀ before round after, rounds = before ++ round :: after →
    ∀ message, round.completed = some message → Text.isBlank message = false →
      ∃ texts later,
        forwarded timeout threadId chatId (pollsOfRounds (before ++ [round])) =
          forwarded timeout threadId chatId (pollsOfRounds before) ++ texts ∧
        forwarded timeout threadId chatId (pollsOfRounds rounds ++ rest) =
          forwarded timeout threadId chatId (pollsOfRounds (before ++ [round])) ++ later ∧
        String.join texts = message

/-! ### What is forwarded -/

def AssistantText.forwardedText : AssistantText → List String
  | chunk text | completed text => if Text.isBlank text then [] else [text]

/-- The texts that are sent for a poll at which the adapter goes on. -/
def textsOf (threadId : ThreadId) (poll : EventPoll) : List String :=
  (poll.received.bind (assistantText threadId)).toList.flatMap AssistantText.forwardedText

def Outbox.sending (outbox : Outbox) (chatId : Int) (texts : List String) : Outbox :=
  { attempts := outbox.attempts + texts.length, sent := outbox.sent ++ texts.map (chatId, ·) }

omit [TelegramWorld] in
@[simp] theorem Outbox.sending_nil (outbox : Outbox) (chatId : Int) :
    outbox.sending chatId [] = outbox := by
  simp [Outbox.sending]

omit [TelegramWorld] in
theorem Outbox.sending_append (outbox : Outbox) (chatId : Int) (texts more : List String) :
    outbox.sending chatId (texts ++ more) =
      (outbox.sending chatId texts).sending chatId more := by
  simp only [Outbox.sending, List.length_append, List.map_append, List.append_assoc,
    Nat.add_assoc]

/-- A text is sent unless it is blank. -/
theorem forward_text (hsends : ∀ n, TelegramWorld.failure n = none) (chatId : Int) (text : String)
    (rest : List EventPoll) (messagesSent : Nat) (outbox : Outbox) :
    (if Text.isBlank text then forwardAssistantEvents timeout threadId chatId messagesSent rest
      else do
        sendMarkdown chatId text
        forwardAssistantEvents timeout threadId chatId (messagesSent + 1) rest) outbox =
      forwardAssistantEvents timeout threadId chatId
        (messagesSent + (AssistantText.chunk text).forwardedText.length) rest
        (outbox.sending chatId (AssistantText.chunk text).forwardedText) := by
  unfold AssistantText.forwardedText
  by_cases hblank : Text.isBlank text = true
  · simp only [if_pos hblank, Outbox.sending_nil]
    rfl
  · simp only [if_neg hblank]
    show EStateM.bind (sendMarkdown chatId text) _ outbox = _
    have hsend : sendMarkdown chatId text outbox =
        .ok () (outbox.sending chatId [text]) := by
      unfold sendMarkdown
      rw [hsends]
      rfl
    unfold EStateM.bind
    rw [hsend]
    rfl

/-- One poll at which the adapter goes on. -/
theorem forward_poll (hsends : ∀ n, TelegramWorld.failure n = none) (chatId : Int)
    {poll : EventPoll}
    (hgoes : ∀ event, poll.received = some event → ¬ EndsForwarding threadId event)
    (hinTime : poll.elapsed < timeout) (rest : List EventPoll) (messagesSent : Nat)
    (outbox : Outbox) :
    forwardAssistantEvents timeout threadId chatId messagesSent (poll :: rest) outbox =
      forwardAssistantEvents timeout threadId chatId
        (messagesSent + (textsOf threadId poll).length) rest
        (outbox.sending chatId (textsOf threadId poll)) := by
  have hnothing : textsOf threadId poll = [] →
      forwardAssistantEvents timeout threadId chatId messagesSent rest outbox =
        forwardAssistantEvents timeout threadId chatId
          (messagesSent + (textsOf threadId poll).length) rest
          (outbox.sending chatId (textsOf threadId poll)) := by
    intro hnone
    rw [hnone, Outbox.sending_nil]
    rfl
  rw [forwardAssistantEvents, if_pos hinTime]
  cases hreceived : poll.received with
  | none =>
      apply hnothing
      rw [textsOf, hreceived]
      rfl
  | some event =>
      have hends := hgoes event hreceived
      have htexts : textsOf threadId poll =
          (assistantText threadId event).toList.flatMap AssistantText.forwardedText := by
        rw [textsOf, hreceived]
        rfl
      unfold EndsForwarding at hends
      unfold assistantText at htexts
      dsimp only
      by_cases hthread : event.threadId = threadId
      · rw [if_neg (not_not.mpr hthread)]
        rw [if_pos hthread] at htexts
        cases hpayload : event.payload with
        | assistantChunk text _ _ | assistantCompleted text =>
            rw [hpayload, Option.toList_some, List.flatMap_singleton] at htexts
            rw [htexts]
            exact forward_text hsends chatId text rest messagesSent outbox
        | turnCompleted _ | turnFailed _ _ =>
            rw [hpayload] at hends
            exact absurd ⟨hthread, trivial⟩ hends
        | _ =>
            apply hnothing
            rw [htexts, hpayload]
            rfl
      · rw [if_pos hthread]
        apply hnothing
        rw [htexts, if_neg hthread]
        rfl

/-- Polls at which the adapter goes on are done with before the ones behind them. -/
theorem forward_append (hsends : ∀ n, TelegramWorld.failure n = none) (chatId : Int)
    {before : List EventPoll}
    (hgoes : ∀ poll ∈ before, ∀ event, poll.received = some event →
      ¬ EndsForwarding threadId event)
    (hinTime : ∀ poll ∈ before, poll.elapsed < timeout) (rest : List EventPoll)
    (messagesSent : Nat) (outbox : Outbox) :
    forwardAssistantEvents timeout threadId chatId messagesSent (before ++ rest) outbox =
      forwardAssistantEvents timeout threadId chatId
        (messagesSent + (before.flatMap (textsOf threadId)).length) rest
        (outbox.sending chatId (before.flatMap (textsOf threadId))) := by
  induction before generalizing messagesSent outbox with
  | nil => simp
  | cons poll before ih =>
      rw [List.cons_append, forward_poll hsends chatId (hgoes poll List.mem_cons_self)
        (hinTime poll List.mem_cons_self), ih (fun poll hpoll => hgoes poll
        (List.mem_cons_of_mem _ hpoll)) fun poll hpoll => hinTime poll (List.mem_cons_of_mem _ hpoll),
        List.flatMap_cons, List.length_append, Outbox.sending_append, Nat.add_assoc]

/-! ### Rounds and their answers -/

/-- Nothing that was sent before is taken back. -/
def Outbox.Extends (before after : Outbox) : Prop := before.sent <+: after.sent

omit [TelegramWorld] in
theorem Outbox.Extends.refl (outbox : Outbox) : outbox.Extends outbox := List.prefix_rfl

omit [TelegramWorld] in
theorem Outbox.Extends.trans ⦃s t u : Outbox⦄ (h : s.Extends t) (h' : t.Extends u) :
    s.Extends u :=
  List.IsPrefix.trans h h'

theorem sendMarkdown_extends (chatId : Int) (text : String) :
    Program.Guarantees Outbox.Extends (sendMarkdown chatId text) := by
  intro outbox
  unfold sendMarkdown Program.wp
  dsimp only
  cases TelegramWorld.failure outbox.attempts with
  | none => exact List.prefix_append _ _
  | some error => exact List.prefix_rfl

theorem forward_extends (chatId : Int) (polls : List EventPoll) (messagesSent : Nat) :
    Program.Guarantees Outbox.Extends
      (forwardAssistantEvents timeout threadId chatId messagesSent polls) := by
  induction polls generalizing messagesSent with
  | nil => exact .pure Outbox.Extends.refl _
  | cons poll rest ih =>
      have hsend : ∀ text (next : OutboxM Nat), Program.Guarantees Outbox.Extends next →
          Program.Guarantees Outbox.Extends (do sendMarkdown chatId text; next) :=
        fun text next hnext => .bind Outbox.Extends.trans (sendMarkdown_extends chatId text)
          fun _ => hnext
      rw [forwardAssistantEvents]
      split
      next =>
        split
        next => exact ih messagesSent
        next event hreceived =>
          split
          next => exact ih messagesSent
          next =>
            split
            next =>
              split
              next => exact ih messagesSent
              next => exact hsend _ _ (ih _)
            next =>
              split
              next => exact ih messagesSent
              next => exact hsend _ _ (ih _)
            next => exact .pure Outbox.Extends.refl _
            next => exact hsend _ _ (.pure Outbox.Extends.refl _)
            next => exact ih messagesSent
      next => exact .pure Outbox.Extends.refl _

omit [TelegramWorld] in
theorem TelegramRound.textsSent (round : TelegramRound timeout threadId) :
    round.polls.flatMap (textsOf threadId) =
      (round.chunks.filter fun text => !Text.isBlank text) ++
        round.completed.toList.filter fun text => !Text.isBlank text := by
  have hflat : ∀ texts : List String,
      texts.flatMap (fun text => (AssistantText.chunk text).forwardedText) =
        texts.filter fun text => !Text.isBlank text := by
    intro texts
    induction texts with
    | nil => rfl
    | cons text texts ih =>
        rw [List.flatMap_cons, ih, List.filter_cons, AssistantText.forwardedText]
        cases Text.isBlank text <;> rfl
  have hreceived : ∀ polls : List EventPoll, polls.flatMap (textsOf threadId) =
      ((polls.filterMap EventPoll.received).filterMap (assistantText threadId)).flatMap
        AssistantText.forwardedText := by
    intro polls
    rw [List.filterMap_filterMap]
    induction polls with
    | nil => rfl
    | cons poll polls ih =>
        rw [List.flatMap_cons, ih, textsOf, List.filterMap_cons]
        cases poll.received.bind (assistantText threadId) <;> simp
  rw [hreceived, round.texts, List.flatMap_append, List.flatMap_map, List.flatMap_map, ← hflat,
    ← hflat]
  rfl

omit [TelegramWorld] in
theorem pollsOfRounds_ongoing {rounds : List (TelegramRound timeout threadId)} :
    ∀ poll ∈ pollsOfRounds rounds, ∀ event, poll.received = some event →
      ¬ EndsForwarding threadId event := by
  intro poll hpoll
  obtain ⟨round, -, hround⟩ := List.mem_flatMap.mp hpoll
  exact round.ongoing poll hround

omit [TelegramWorld] in
theorem pollsOfRounds_inTime {rounds : List (TelegramRound timeout threadId)} :
    ∀ poll ∈ pollsOfRounds rounds, poll.elapsed < timeout := by
  intro poll hpoll
  obtain ⟨round, -, hround⟩ := List.mem_flatMap.mp hpoll
  exact round.inTime poll hround

omit [TelegramWorld] in
theorem sent_sending (chatId : Int) (texts : List String) :
    (Outbox.empty.sending chatId texts).sent.map Prod.snd = texts := by
  simp [Outbox.empty, Outbox.sending, Function.comp_def]

theorem forwarded_rounds (hsends : ∀ n, TelegramWorld.failure n = none) (chatId : Int)
    (rounds : List (TelegramRound timeout threadId)) :
    forwarded timeout threadId chatId (pollsOfRounds rounds) =
      (pollsOfRounds rounds).flatMap (textsOf threadId) := by
  have happend := forward_append hsends chatId pollsOfRounds_ongoing
    (@pollsOfRounds_inTime timeout threadId rounds) [] 0 Outbox.empty
  rw [List.append_nil] at happend
  rw [forwarded, Program.after, happend]
  exact sent_sending chatId _

/-- What comes behind some rounds adds to what the chat has got. -/
theorem forwarded_behind (hsends : ∀ n, TelegramWorld.failure n = none) (chatId : Int)
    (rounds : List (TelegramRound timeout threadId)) (rest : List EventPoll) :
    ∃ later, forwarded timeout threadId chatId (pollsOfRounds rounds ++ rest) =
      (pollsOfRounds rounds).flatMap (textsOf threadId) ++ later := by
  have happend := forward_append hsends chatId pollsOfRounds_ongoing
    (@pollsOfRounds_inTime timeout threadId rounds) rest 0 Outbox.empty
  let texts := (pollsOfRounds rounds).flatMap (textsOf threadId)
  let behind := forwardAssistantEvents timeout threadId chatId (0 + texts.length) rest
  have hsame : Program.after (forwardAssistantEvents timeout threadId chatId 0
      (pollsOfRounds rounds ++ rest)) Outbox.empty =
        Program.after behind (Outbox.empty.sending chatId texts) := by
    unfold Program.after
    rw [happend]
  have hextends : (Outbox.empty.sending chatId texts).Extends
      (Program.after behind (Outbox.empty.sending chatId texts)) :=
    Program.wp_after.mp (forward_extends chatId rest _ _)
  obtain ⟨later, hlater⟩ := hextends
  refine ⟨later.map Prod.snd, ?_⟩
  rw [forwarded, hsame, ← hlater, List.map_append, sent_sending]

omit [TelegramWorld] in
/-- The pieces in front of an answer add nothing to it exactly when there are none. -/
theorem join_filter_append {chunks : List String} {message : String} :
    String.join ((chunks.filter fun text => !Text.isBlank text) ++ [message]) = message ↔
      ∀ chunk ∈ chunks, Text.isBlank chunk = true := by
  rw [← String.toList_inj, String.toList_join, List.flatMap_append, List.flatMap_singleton,
    List.append_left_eq_self, List.flatMap_eq_nil_iff]
  constructor
  · intro hempty chunk hchunk
    by_contra hblank
    have hnil := hempty chunk (List.mem_filter.mpr ⟨hchunk, by simpa using hblank⟩)
    have hchunk : chunk = "" := String.toList_eq_nil_iff.mp hnil
    exact hblank (by rw [hchunk]; decide)
  · intro hblank chunk hchunk
    obtain ⟨hmem, hnot⟩ := List.mem_filter.mp hchunk
    rw [hblank chunk hmem] at hnot
    cases hnot

/-- A chat gets the answers of a turn once if and only if no round with an answer has a chunk that
is not blank. -/
theorem telegram_delivers_answers_iff (hsends : ∀ n, TelegramWorld.failure n = none)
    (chatId : Int) (rounds : List (TelegramRound timeout threadId)) (rest : List EventPoll) :
    DeliversAnswers chatId rounds rest ↔
      ∀ round ∈ rounds, ∀ message, round.completed = some message →
        Text.isBlank message = false → ∀ chunk ∈ round.chunks, Text.isBlank chunk = true := by
  have hround : ∀ before (round : TelegramRound timeout threadId),
      forwarded timeout threadId chatId (pollsOfRounds (before ++ [round])) =
        forwarded timeout threadId chatId (pollsOfRounds before) ++
          round.polls.flatMap (textsOf threadId) := by
    intro before round
    rw [forwarded_rounds hsends, forwarded_rounds hsends, pollsOfRounds, List.flatMap_append,
      List.flatMap_append, List.flatMap_singleton]
    rfl
  have htexts : ∀ {round : TelegramRound timeout threadId} {message : String},
      round.completed = some message → Text.isBlank message = false →
        round.polls.flatMap (textsOf threadId) =
          (round.chunks.filter fun text => !Text.isBlank text) ++ [message] := by
    intro round message hmessage hblank
    rw [round.textsSent, hmessage, Option.toList_some, List.filter_cons, hblank]
    rfl
  constructor
  · intro h round hmem message hmessage hblank
    obtain ⟨before, after, hsplit⟩ := List.append_of_mem hmem
    obtain ⟨texts, later, hsent, -, hjoin⟩ := h before round after hsplit message hmessage hblank
    rw [hround, List.append_cancel_left_eq, htexts hmessage hblank] at hsent
    rw [← hsent] at hjoin
    exact join_filter_append.mp hjoin
  · intro h before round after hsplit message hmessage hblank
    have hmem : round ∈ rounds := by simp [hsplit]
    have hrest : pollsOfRounds rounds ++ rest =
        pollsOfRounds (before ++ [round]) ++ (pollsOfRounds after ++ rest) := by
      rw [hsplit]
      simp [pollsOfRounds]
    obtain ⟨later, hlater⟩ := forwarded_behind hsends chatId (before ++ [round])
      (pollsOfRounds after ++ rest)
    refine ⟨round.polls.flatMap (textsOf threadId), later, hround before round, ?_, ?_⟩
    · rw [hrest, hlater, forwarded_rounds hsends]
    · rw [htexts hmessage hblank]
      exact join_filter_append.mpr (h round hmem message hmessage hblank)

end Forwarding

/-! ### Updates -/

section Updates

variable [World] [TelegramWorld]

/-- The requests to the server send nothing. -/
def SendsNothing (before after : TelegramChannel) : Prop :=
  after.outbox = before.outbox ∧ after.adapter.eventTimeout = before.adapter.eventTimeout

omit [World] [TelegramWorld] in
theorem SendsNothing.refl (channel : TelegramChannel) : SendsNothing channel channel := ⟨rfl, rfl⟩

omit [World] [TelegramWorld] in
theorem SendsNothing.trans ⦃s t u : TelegramChannel⦄ (h : SendsNothing s t)
    (h' : SendsNothing t u) : SendsNothing s u :=
  ⟨h'.1.trans h.1, h'.2.trans h.2⟩

omit [World] [TelegramWorld] in
theorem onServer_sendsNothing {α : Type} (p : ServerM α) :
    Program.Guarantees SendsNothing (onServer p) :=
  .zoom TelegramChannel.serverPart fun _ _ => ⟨rfl, rfl⟩

omit [TelegramWorld] in
theorem threadForMessage_sendsNothing (message : TelegramIncomingMessage) :
    Program.Guarantees SendsNothing (threadForMessage message) := by
  refine .bind SendsNothing.trans (.get SendsNothing.refl) fun channel => ?_
  split
  next => exact .pure SendsNothing.refl _
  next =>
    refine .bind SendsNothing.trans ?_ fun threadId => ?_
    · refine .bind SendsNothing.trans (onServer_sendsNothing _) fun response => ?_
      split
      next => exact .pure SendsNothing.refl _
      next => exact .throw SendsNothing.refl _
    · exact .bind SendsNothing.trans (.modify fun _ => ⟨rfl, rfl⟩) fun _ =>
        .pure SendsNothing.refl _

omit [TelegramWorld] in
theorem startTurnForMessage_sendsNothing (message : TelegramIncomingMessage) (threadId : ThreadId)
    (answers : List GatewayAnswer) :
    Program.Guarantees SendsNothing (startTurnForMessage message threadId answers) := by
  refine .bind SendsNothing.trans (onServer_sendsNothing _) fun response => ?_
  split
  next => exact .pure SendsNothing.refl _
  next => exact .throw SendsNothing.refl _

/-- An update that is handled sends what is forwarded of the events that the server has published
meanwhile. -/
theorem handleUpdate_forwards (update : TelegramUpdate) (answers : List GatewayAnswer)
    (channel : TelegramChannel) :
    Program.wp (handleUpdate update answers)
      (fun handled later => ∀ result, handled = some result → ∃ chatId,
        later.outbox = Program.after
          (forwardAssistantEvents channel.adapter.eventTimeout result.threadId chatId 0
            (pollsOf (later.server.publishedEvents.drop
              channel.server.publishedEvents.length))) channel.outbox)
      (fun _ _ => True) channel := by
  unfold handleUpdate
  cases TelegramIncomingMessage.fromUpdate update with
  | none =>
      intro result hresult
      cases hresult
  | some message =>
      dsimp only
      rw [Program.wp_bind, Program.wp_get, Program.wp_bind]
      refine Program.wp_mono (threadForMessage_sendsNothing message channel)
        (fun threadId between hbetween => ?_) fun _ _ _ => trivial
      rw [Program.wp_bind]
      refine Program.wp_mono (startTurnForMessage_sendsNothing message threadId answers between)
        (fun _ later hlater => ?_) fun _ _ _ => trivial
      obtain ⟨houtbox, htimeout⟩ := hbetween.trans hlater
      rw [Program.wp_bind, Program.wp_get, Program.wp_bind, onOutbox, Program.wp_zoom,
        Program.wp_adaptExcept]
      let forwarding := forwardAssistantEvents later.adapter.eventTimeout threadId message.chatId 0
        (pollsOf (later.server.publishedEvents.drop channel.server.publishedEvents.length))
      have hrun : Program.wp forwarding
          (fun _ outbox => outbox = Program.after forwarding later.outbox)
          (fun _ outbox => outbox = Program.after forwarding later.outbox) later.outbox :=
        Program.wp_after.mpr rfl
      refine Program.wp_mono hrun (fun messagesSent outbox hsent => ?_) fun _ _ _ => trivial
      intro result hresult
      obtain rfl := Option.some.inj hresult
      refine ⟨message.chatId, hsent.trans ?_⟩
      rw [houtbox, ← htimeout]
      rfl

end Updates

/-- A chunk and the message that holds the whole of it. -/
def greetingPolls : List EventPoll :=
  [⟨0, some ⟨"thread_1", some "turn_1", .assistantChunk "Hello" (some "primary") false⟩⟩,
   ⟨0, some ⟨"thread_1", some "turn_1", .assistantCompleted "Hello"⟩⟩]

def streamedGreeting : TelegramRound 5000 "thread_1" where
  polls := greetingPolls
  chunks := ["Hello"]
  completed := some "Hello"
  texts := rfl
  ongoing := by simp [greetingPolls, EndsForwarding]
  inTime := by simp [greetingPolls]

/-- The same message without chunks. -/
def plainGreeting : TelegramRound 5000 "thread_1" where
  polls := greetingPolls.drop 1
  chunks := []
  completed := some "Hello"
  texts := rfl
  ongoing := by simp [greetingPolls, EndsForwarding]
  inTime := by simp [greetingPolls]

/-- The answer that comes without chunks is delivered once. -/
theorem plain_greeting_delivered :
    letI := swiftTelegram
    DeliversAnswers 42 [plainGreeting] [] :=
  (@telegram_delivers_answers_iff swiftTelegram _ _ (fun _ => rfl) 42 [plainGreeting] []).mpr
    (by simp [plainGreeting])

/-- The answer that was streamed comes twice. -/
theorem greeting_sent_twice :
    letI := swiftTelegram
    forwarded 5000 "thread_1" 42 (pollsOfRounds [streamedGreeting]) = ["Hello", "Hello"] ∧
      ¬ DeliversAnswers 42 [streamedGreeting] [] := by
  let _ : TelegramWorld := swiftTelegram
  have hsent : forwarded 5000 "thread_1" 42 (pollsOfRounds [streamedGreeting]) =
      ["Hello", "Hello"] := by decide +kernel
  have hnothing : forwarded 5000 "thread_1" 42
      (pollsOfRounds ([] : List (TelegramRound 5000 "thread_1"))) = [] := by decide +kernel
  refine ⟨hsent, fun h => ?_⟩
  obtain ⟨texts, later, htexts, -, hjoin⟩ := h [] streamedGreeting [] rfl "Hello" rfl (by decide)
  rw [List.nil_append, hsent, hnothing, List.nil_append] at htexts
  rw [← htexts] at hjoin
  exact absurd hjoin (by decide)

end Liz
