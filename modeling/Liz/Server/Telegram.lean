import Liz.Base.Quoting
import Liz.Server.Requests

/-!
# The Telegram channel

The adapter turns an update into a turn of the chat's thread and then forwards what the server has
published about this thread to the chat, one message for each event that has a text, until the turn
ends or its time is up.
-/

namespace Liz

structure TelegramUser where
  id : Int
  firstName : Option String
  lastName : Option String
  username : Option String
  deriving DecidableEq, Repr

structure TelegramMessage where
  messageId : Int
  chatId : Int
  user : Option TelegramUser
  text : Option String
  deriving DecidableEq, Repr

structure TelegramUpdate where
  updateId : Int
  message : Option TelegramMessage
  deriving DecidableEq, Repr

structure TelegramIncomingMessage where
  updateId : Int
  messageId : Int
  chatId : Int
  text : String
  participant : ParticipantRef
  deriving DecidableEq, Repr

structure TelegramHandledUpdate where
  threadId : ThreadId
  messagesSent : Nat
  deriving DecidableEq, Repr

/-- Why an update is given up: an answer of the server that is not the expected one, or a message
that could not be sent. -/
inductive TelegramError
  | protocol (response : ServerResponse)
  | http (message : String)

/-- What the adapter meets outside: whether its n-th message can be sent, and how many milliseconds
it has been forwarding when it looks for the n-th event. -/
class TelegramWorld where
  failure : Nat → Option TelegramError
  elapsed : Nat → Nat

/-- Everything is sent at once. -/
@[reducible] def swiftTelegram : TelegramWorld := ⟨fun _ => none, fun _ => 0⟩

/-- The messages that the chats have got. -/
structure Outbox where
  attempts : Nat
  sent : List (Int × String)
  deriving DecidableEq, Repr

def Outbox.empty : Outbox := { attempts := 0, sent := [] }

/-- One look for an event: the time that has passed before it, and the event if one has come. -/
structure EventPoll where
  elapsed : Nat
  received : Option PendingEvent
  deriving DecidableEq, Repr

abbrev OutboxM := EStateM TelegramError Outbox

/-- The characters that are escaped, the backslash among them. -/
def isMarkdownV2Reserved (c : Char) : Bool :=
  ['_', '*', '[', ']', '(', ')', '~', '\x60', '>', '#', '+', '-', '=', '|', '{', '}', '.', '!',
    '\\'].contains c

/-- A text as it is put into the request that sends it. -/
def escapeMarkdownV2 (text : String) : String :=
  String.ofList (Quoting.escape isMarkdownV2Reserved text.toList)

section Forwarding

variable [TelegramWorld]

def sendMarkdown (chatId : Int) (text : String) : OutboxM Unit := fun outbox =>
  match TelegramWorld.failure outbox.attempts with
  | none => .ok () { attempts := outbox.attempts + 1, sent := outbox.sent ++ [(chatId, text)] }
  | some error => .error error { outbox with attempts := outbox.attempts + 1 }

/-- Forwards what is polled; no poll is made after the last one. -/
def forwardAssistantEvents (timeout : Nat) (threadId : ThreadId) (chatId : Int) :
    Nat → List EventPoll → OutboxM Nat
  | messagesSent, [] => pure messagesSent
  | messagesSent, poll :: rest =>
      if poll.elapsed < timeout then
        match poll.received with
        | none => forwardAssistantEvents timeout threadId chatId messagesSent rest
        | some event =>
            if event.threadId ≠ threadId then
              forwardAssistantEvents timeout threadId chatId messagesSent rest
            else
              match event.payload with
              | .assistantChunk text _ _ | .assistantCompleted text =>
                  if Text.isBlank text then
                    forwardAssistantEvents timeout threadId chatId messagesSent rest
                  else do
                    sendMarkdown chatId text
                    forwardAssistantEvents timeout threadId chatId (messagesSent + 1) rest
              | .turnCompleted _ => pure messagesSent
              | .turnFailed _ message => do
                  sendMarkdown chatId ("liz could not finish that turn: " ++ message)
                  pure (messagesSent + 1)
              | _ => forwardAssistantEvents timeout threadId chatId messagesSent rest
      else pure messagesSent

end Forwarding

/-! ### Updates -/

def displayNameForUser (user : TelegramUser) : Option String :=
  let name := Text.join (user.firstName.toList ++ user.lastName.toList) " "
  if Text.isBlank name then user.username else some name

def TelegramIncomingMessage.fromUpdate (update : TelegramUpdate) :
    Option TelegramIncomingMessage := do
  let message ← update.message
  let text := Text.trim (← message.text)
  if text.isEmpty then none
  else
    some
      { updateId := update.updateId
        messageId := message.messageId
        chatId := message.chatId
        text := text
        participant :=
          { externalParticipantId :=
              match message.user with
              | some user => toString user.id
              | none => s!"telegram_chat_{message.chatId}"
            displayName := message.user.bind displayNameForUser } }

def TelegramIncomingMessage.channel (message : TelegramIncomingMessage) : ChannelRef :=
  { kind := .telegram, externalConversationId := toString message.chatId }

structure TelegramAdapter where
  chatThreads : Table Int ThreadId
  /-- In milliseconds. -/
  eventTimeout : Nat

/-- An adapter that has just been created. -/
def TelegramAdapter.new : TelegramAdapter := { chatThreads := ∅, eventTimeout := 5000 }

/-- The adapter with the server it serves and the messages it has sent. -/
structure TelegramChannel where
  server : AppServer
  adapter : TelegramAdapter
  outbox : Outbox

/-- The server may still wait for its gateway when an update is looked at. -/
inductive TelegramStop
  | unanswered (reason : Unanswered)
  | failed (error : TelegramError)

abbrev TelegramM := EStateM TelegramStop TelegramChannel

def TelegramChannel.serverPart : Program.Part TelegramChannel AppServer where
  get := TelegramChannel.server
  set server channel := { channel with server := server }
  get_set _ _ := rfl
  set_get _ := rfl

def TelegramChannel.outboxPart : Program.Part TelegramChannel Outbox where
  get := TelegramChannel.outbox
  set outbox channel := { channel with outbox := outbox }
  get_set _ _ := rfl
  set_get _ := rfl

def onServer {α : Type} (p : ServerM α) : TelegramM α :=
  Program.zoom TelegramChannel.serverPart (EStateM.adaptExcept .unanswered p)

def onOutbox {α : Type} (p : OutboxM α) : TelegramM α :=
  Program.zoom TelegramChannel.outboxPart (EStateM.adaptExcept .failed p)

section Updates

variable [World] [TelegramWorld]

def startThreadForMessage (message : TelegramIncomingMessage) : TelegramM ThreadId := do
  let response ← onServer (handleRequest (.threadStart
    { title := some s!"Telegram chat {message.chatId}", initialGoal := some message.text,
      workspaceRef := none, workspaceMountId := none }) [])
  match response with
  | .success (.threadStart thread) => pure thread.id
  | other => throw (.failed (.protocol other))

def startTurnForMessage (message : TelegramIncomingMessage) (threadId : ThreadId)
    (answers : List GatewayAnswer) : TelegramM Unit := do
  let response ← onServer (handleRequest (.turnStart
    { threadId := threadId, input := message.text, inputKind := .userMessage,
      channel := some message.channel, participant := some message.participant,
      interactionContext := none }) answers)
  match response with
  | .success (.turnStart _) => pure ()
  | other => throw (.failed (.protocol other))

/-- The thread of the chat, which is started when there is none. -/
def threadForMessage (message : TelegramIncomingMessage) : TelegramM ThreadId := do
  match (← get).adapter.chatThreads.lookup message.chatId with
  | some threadId => pure threadId
  | none => do
      let threadId ← startThreadForMessage message
      modify fun channel =>
        { channel with adapter := { channel.adapter with
            chatThreads := channel.adapter.chatThreads.insert message.chatId threadId } }
      pure threadId

/-- What the adapter polls: the events published since it subscribed have come already, and after
them nothing comes. -/
def pollsOf (events : List PendingEvent) : List EventPoll :=
  events.mapIdx fun n event => { elapsed := TelegramWorld.elapsed n, received := some event }

/-- Handles one update; the gateway answers from the list. -/
def handleUpdate (update : TelegramUpdate) (answers : List GatewayAnswer) :
    TelegramM (Option TelegramHandledUpdate) := do
  match TelegramIncomingMessage.fromUpdate update with
  | none => pure none
  | some message => do
      let subscribed := (← get).server.publishedEvents.length
      let threadId ← threadForMessage message
      startTurnForMessage message threadId answers
      let channel ← get
      let events := channel.server.publishedEvents.drop subscribed
      let messagesSent ← onOutbox (forwardAssistantEvents channel.adapter.eventTimeout threadId
        message.chatId 0 (pollsOf events))
      pure (some { threadId := threadId, messagesSent := messagesSent })

end Updates

end Liz
