import Liz.Cli.ViewModel

/-!
# The terminal client

What the composer submits and what responses lead to. The first message of a conversation waits in
one place until the thread is there. Left out are the overlays, and the commands and answers that
send neither threads nor messages.
-/

namespace Liz

/-- The requests of the composer and of what follows a response. -/
inductive CliRequest
  | threadStart (title initialGoal : String)
  | turnStart (threadId : ThreadId) (input : String)
  | threadList
  | memoryReadWakeup (threadId : ThreadId)
  | memoryOpenSession (threadId : ThreadId)
  | memoryListTopics
  deriving DecidableEq, Repr

structure CliApp where
  viewModel : ViewModel
  pendingNewThreadInput : Option String

namespace CliApp

def new : CliApp := { viewModel := ViewModel.default, pendingNewThreadInput := none }

def setStatus (app : CliApp) (statusLine : String) : CliApp :=
  { app with viewModel := { app.viewModel with statusLine := statusLine } }

def startThreadFromMessage (app : CliApp) (input : String) : CliApp × List CliRequest :=
  let title := String.ofList (input.toList.take 48)
  let app := { app with
    pendingNewThreadInput := some input
    viewModel := app.viewModel.pushPendingThreadStartMessage input }
  (app.setStatus "Starting conversation", [.threadStart title input])

def startNewThread (app : CliApp) (argument : String) : CliApp × List CliRequest :=
  if argument.isEmpty then
    let app := { app with
      pendingNewThreadInput := none
      viewModel := { app.viewModel with transcriptEntries := [] } }
    (app.setStatus "New conversation ready. Type the first message when you are ready.", [])
  else app.startThreadFromMessage argument

/-- The word of a command, and what comes after it. -/
def splitCommand (input : String) : String × String :=
  let trimmed := (Text.trim input).toList
  let rest := (trimmed.dropWhile fun c => !Text.isWhitespace c).drop 1
  (String.ofList (trimmed.takeWhile fun c => !Text.isWhitespace c), Text.trim (String.ofList rest))

/-- The other commands open overlays or send requests of other kinds. -/
def handleSlashCommand (app : CliApp) (input : String) : CliApp × List CliRequest :=
  let (command, argument) := splitCommand input
  if command = "/new" then app.startNewThread argument
  else if command = "/clear" then app.startNewThread ""
  else (app, [])

/-- Enter in the composer. -/
def submitInput (app : CliApp) (inputBuffer : String) : CliApp × List CliRequest :=
  let input := Text.trim inputBuffer
  if input.isEmpty then (app.setStatus "Composer is empty", [])
  else if input.toList.head? = some '/' then app.handleSlashCommand input
  else
    match app.viewModel.selectedThreadId with
    | none => app.startThreadFromMessage input
    | some threadId =>
        let app := { app with viewModel := app.viewModel.pushUserMessage input }
        (app.setStatus "Message sent", [.turnStart threadId input])

def loadThreadSurfaces (threadId : ThreadId) : List CliRequest :=
  [.memoryReadWakeup threadId, .memoryOpenSession threadId, .memoryListTopics]

/-- What a response leads to once the view model has taken it. -/
def followUpAfterResponse (app : CliApp) (response : ViewResponse) : CliApp × List CliRequest :=
  match response with
  | .threadStart thread =>
      ({ app with pendingNewThreadInput := none },
        .threadList :: loadThreadSurfaces thread.id ++
          (app.pendingNewThreadInput.map fun input => CliRequest.turnStart thread.id input).toList)
  | .threadResume thread => (app, .threadList :: loadThreadSurfaces thread.id)
  | .threadFork thread => (app, .threadList :: loadThreadSurfaces thread.id)
  | .memoryCompileNow _ => (app, [.memoryListTopics])
  | _ => (app, [])

def receiveResponse (app : CliApp) (response : ViewResponse) : CliApp × List CliRequest :=
  { app with viewModel := app.viewModel.applyResponse response }.followUpAfterResponse response

def receiveEvent (app : CliApp) (event : ServerEvent) : CliApp × List CliRequest :=
  ({ app with viewModel := app.viewModel.applyEvent event },
    match event.payload with
    | .memoryCompilationApplied _ => [.memoryListTopics]
    | _ => [])

/-- Enter in the list of conversations. -/
def loadSelectedThreadSurfaces (app : CliApp) : CliApp × List CliRequest :=
  match app.viewModel.selectedThread with
  | none => (app, [])
  | some thread =>
      ({ app with
        viewModel := { app.viewModel with activeThreadId := some thread.id }.syncVisibleTranscript },
        loadThreadSurfaces thread.id)

end CliApp

/-- What happens to the client. -/
inductive CliStep
  | submit (inputBuffer : String)
  | response (response : ViewResponse)
  | event (event : ServerEvent)
  | openSelected
  deriving DecidableEq

def CliApp.step (app : CliApp) : CliStep → CliApp × List CliRequest
  | .submit inputBuffer => app.submitInput inputBuffer
  | .response response => app.receiveResponse response
  | .event event => app.receiveEvent event
  | .openSelected => app.loadSelectedThreadSurfaces

/-- What happens to the client, the keys that move through the list of conversations included. -/
inductive TerminalStep
  | client (step : CliStep)
  | selectPrevious
  | selectNext
  deriving DecidableEq

def CliApp.shell (app : CliApp) : TerminalStep → CliApp
  | .client step => (app.step step).1
  | .selectPrevious => { app with viewModel := app.viewModel.selectPreviousThread }
  | .selectNext => { app with viewModel := app.viewModel.selectNextThread }

end Liz
