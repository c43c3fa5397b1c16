import Mathlib.Data.String.Basic
import Liz.Cli.App
import Liz.Cli.Renderer

/-!
# The composer of the terminal client

Keys edit the input, move through what was sent before, complete slash commands, answer approvals
and go to the panel that has taken the focus. What a key leads to is a new state and the requests it
sends; a request that cannot be sent ends the client and is left out. Topics, sessions and evidence
in the memory panel are left out too, as no key reads them, and so is whether the screen has to be
drawn anew.
-/

namespace Liz

/-! ### The input -/

/-- The view model with the messages that can be recalled. -/
structure ShellView extends TerminalView where
  inputHistory : List String
  inputHistoryIndex : Option Nat

def maxInputHistoryEntries : Nat := 100

def trimStart (text : String) : String := String.ofList (text.toList.dropWhile Text.isWhitespace)

/-- The rest of a text behind its first white space, without the white space in front. -/
def remainderOf (text : String) : String :=
  trimStart (String.ofList ((text.toList.dropWhile fun c => !Text.isWhitespace c).drop 1))

/-- The command that is typed so far, without the slash. -/
def slashQueryOf (input : String) : Option String :=
  match (trimStart input).toList with
  | '/' :: rest =>
      some (String.ofList ((rest.dropWhile Text.isWhitespace).takeWhile fun c =>
        !Text.isWhitespace c))
  | _ => none

def SlashCommandSpec.hasPrefix (spec : SlashCommandSpec) (query : String) : Bool :=
  query.toList.isPrefixOf spec.name.toList

/-- Commands whose names start with the query come first, the exact one in front of them. -/
def SlashCommandSpec.before (query : String) (left right : SlashCommandSpec) : Bool :=
  if left.hasPrefix query != right.hasPrefix query then left.hasPrefix query
  else if (left.name == query) != (right.name == query) then left.name == query
  else decide (left.name ≤ right.name)

def slashSuggestions (query : String) : List SlashCommandSuggestion :=
  let normalized := Text.toAsciiLowercase (Text.trim query)
  let suggestions : List SlashCommandSuggestion :=
    slashCommands.pmap SlashCommandSuggestion.mk fun _ builtin => builtin
  (suggestions.filter fun suggestion => normalized.isEmpty ||
    suggestion.spec.hasPrefix normalized ||
    Text.contains (Text.toAsciiLowercase suggestion.spec.description) normalized).insertionSort
      fun left right => left.spec.before normalized right.spec = true

/-- The row above in a list of so many rows. -/
def previousRow (rows index : Nat) : Nat := if index = 0 then rows - 1 else index - 1

def nextRow (rows index : Nat) : Nat := (index + 1) % rows

namespace ShellView

def default : ShellView :=
  { ViewModel.default with
    topics := [], recallHits := [], sessionView := none, evidenceView := none, modelStatus := none
    runtimeSandbox := none, runtimeApprovalPolicy := none, inputBuffer := "", activeOverlay := none
    commandSuggestions := [], selectedCommandIndex := 0, selectedSandboxIndex := 0
    selectedPermissionIndex := 0, configPath := "", configDraft := .default, authProfiles := []
    slashMode := false, inputHistory := [], inputHistoryIndex := none }

variable (view : ShellView)

def setStatus (statusLine : String) : ShellView := { view with statusLine := statusLine }

def activeThread : Option Thread :=
  view.activeThreadId.bind fun threadId => view.threads.find? (·.id == threadId)

def slashQuery : Option String := slashQueryOf view.inputBuffer

def selectedCommandSuggestion : Option SlashCommandSuggestion :=
  view.commandSuggestions[view.selectedCommandIndex]?

def hasExactSlashCommand : Bool :=
  view.slashQuery.any fun query => slashCommands.any (·.name == query)

def commandPaletteIsOpen : Bool := view.activeOverlay == some .commandPalette

def selectPreviousCommand : ShellView :=
  { view with
    selectedCommandIndex :=
      if view.commandSuggestions.isEmpty then 0
      else previousRow view.commandSuggestions.length view.selectedCommandIndex }

def selectNextCommand : ShellView :=
  { view with
    selectedCommandIndex :=
      if view.commandSuggestions.isEmpty then 0
      else nextRow view.commandSuggestions.length view.selectedCommandIndex }

def selectedSandboxMode : SandboxMode :=
  sandboxModes[view.selectedSandboxIndex]?.getD .workspaceWrite

def setSelectedSandboxMode (mode : SandboxMode) : ShellView :=
  { view with selectedSandboxIndex := (sandboxModes.findIdx? (· == mode)).getD 1 }

def selectPreviousSandboxMode : ShellView :=
  { view with selectedSandboxIndex := previousRow sandboxModes.length view.selectedSandboxIndex }

def selectNextSandboxMode : ShellView :=
  { view with selectedSandboxIndex := nextRow sandboxModes.length view.selectedSandboxIndex }

def selectedPermissionPolicy : ApprovalPolicy :=
  permissionPolicies[view.selectedPermissionIndex]?.getD .onRequest

def setSelectedPermissionPolicy (policy : ApprovalPolicy) : ShellView :=
  { view with selectedPermissionIndex := (permissionPolicies.findIdx? (· == policy)).getD 0 }

def selectPreviousPermissionPolicy : ShellView :=
  { view with
    selectedPermissionIndex := previousRow permissionPolicies.length view.selectedPermissionIndex }

def selectNextPermissionPolicy : ShellView :=
  { view with
    selectedPermissionIndex := nextRow permissionPolicies.length view.selectedPermissionIndex }

def openOverlay (panel : OverlayPanel) : ShellView := { view with activeOverlay := some panel }

/-- The palette is not open any more when the source asks whether it is. -/
def closeOverlay : ShellView := { view with activeOverlay := none }

def clearInputHistorySelection : ShellView := { view with inputHistoryIndex := none }

/-- Brings the completions up to date with the input. -/
def refreshComposerAffordances : ShellView :=
  let slashMode := (trimStart view.inputBuffer).toList.head? == some '/'
  let suggestions := (view.slashQuery.map slashSuggestions).getD []
  if suggestions.isEmpty then
    { view with
      slashMode := slashMode
      commandSuggestions := []
      selectedCommandIndex := 0
      activeOverlay :=
        if view.activeOverlay = some .commandPalette then none else view.activeOverlay }
  else
    { view with
      slashMode := slashMode
      commandSuggestions := suggestions
      selectedCommandIndex :=
        if suggestions.length ≤ view.selectedCommandIndex then 0 else view.selectedCommandIndex
      activeOverlay := if slashMode then some .commandPalette else view.activeOverlay }

/-- The input is edited by a key. -/
def edit (inputBuffer : String) : ShellView :=
  { view.clearInputHistorySelection with inputBuffer := inputBuffer }.refreshComposerAffordances

/-- The input is taken to be submitted. -/
def takeInput : ShellView :=
  let view := { view with inputBuffer := "" }.refreshComposerAffordances
  if view.activeOverlay = some .commandPalette then view.closeOverlay else view

def recordInputHistory (input : String) : ShellView :=
  let trimmed := Text.trim input
  if trimmed.isEmpty then view
  else if view.inputHistory.getLast? = some trimmed then view.clearInputHistorySelection
  else
    let history := view.inputHistory ++ [trimmed]
    { view with
      inputHistory := if maxInputHistoryEntries < history.length then history.drop 1 else history
    }.clearInputHistorySelection

/-- The index names an entry whenever this is called; otherwise the source would panic. -/
def recallPreviousInput : Option ShellView :=
  if view.inputHistory.isEmpty then none
  else
    let index := match view.inputHistoryIndex with
      | some 0 => 0
      | some (index + 1) => index
      | none => view.inputHistory.length - 1
    view.inputHistory[index]?.map fun entry =>
      { view with
        inputHistoryIndex := some index
        inputBuffer := entry }.refreshComposerAffordances

def acceptCommandSuggestion : Option ShellView :=
  view.selectedCommandSuggestion.map fun suggestion =>
    let remainder := remainderOf (trimStart view.inputBuffer)
    { { view with
        inputBuffer :=
          if remainder.isEmpty then "/" ++ suggestion.spec.name ++ " "
          else "/" ++ suggestion.spec.name ++ " " ++ remainder }.refreshComposerAffordances with
      activeOverlay := none }

end ShellView

/-! ### Commands -/

def parseSandboxMode (value : String) : Option SandboxMode :=
  match Text.toAsciiLowercase value with
  | "read-only" | "readonly" => some .readOnly
  | "workspace-write" | "workspace" => some .workspaceWrite
  | "external-sandbox" | "external" => some .externalSandbox
  | _ => none

def parseApprovalPolicy (value : String) : Option ApprovalPolicy :=
  match Text.toAsciiLowercase value with
  | "on-request" | "ask" | "prompt" => some .onRequest
  | "danger-full-access" | "danger" | "full-access" => some .dangerFullAccess
  | _ => none

/-- What the client asks the server for. -/
inductive TerminalRequest
  | client (request : CliRequest)
  | threadResume (threadId : ThreadId)
  | threadFork (threadId : ThreadId) (title forkReason : Option String)
  | turnCancel (threadId : ThreadId) (turnId : TurnId)
  | approvalRespond (approvalId : ApprovalId) (decision : ApprovalDecision)
  | memorySearch (query : String)
  | memoryOpenEvidence (request : MemoryOpenEvidenceRequest)
  | memoryCompileNow (threadId : ThreadId)
  | modelStatus
  | runtimeConfigGet
  | runtimeConfigUpdate (sandbox : Option ShellSandboxRequest)
      (approvalPolicy : Option ApprovalPolicy)
  | providerAuthList

/-- The client with the configuration file as it finds it. -/
structure TerminalApp where
  view : ShellView
  pendingNewThreadInput : Option String
  shouldExit : Bool
  config : LizConfigFile

/-- What a step leads to. -/
abbrev TerminalOutcome := TerminalApp × List TerminalRequest

namespace TerminalApp

def new (config : LizConfigFile) : TerminalApp :=
  { view := ShellView.default.setStatus "Connecting…", pendingNewThreadInput := none
    shouldExit := false, config := config }

variable (app : TerminalApp)

def withView (view : ShellView) : TerminalApp := { app with view := view }

def setStatus (statusLine : String) : TerminalApp := app.withView (app.view.setStatus statusLine)

/-- The conversations of the client. -/
def conversations : CliApp :=
  { viewModel := app.view.toViewModel, pendingNewThreadInput := app.pendingNewThreadInput }

/-- A step that concerns the conversations only. -/
def onConversations (outcome : CliApp × List CliRequest) : TerminalOutcome :=
  ({ app with
    view := { app.view with toViewModel := outcome.1.viewModel }
    pendingNewThreadInput := outcome.1.pendingNewThreadInput }, outcome.2.map .client)

/-- A step that needs a conversation. -/
def withSelected (send : ThreadId → TerminalOutcome) : TerminalOutcome :=
  match app.view.selectedThreadId with
  | none => (app.setStatus "No conversation selected", [])
  | some threadId => send threadId

def startNewThread (argument : String) : TerminalOutcome :=
  let outcome := app.onConversations (app.conversations.startNewThread argument)
  if argument.isEmpty then (outcome.1.withView outcome.1.view.closeOverlay, outcome.2) else outcome

def requestSelectedWakeup : TerminalOutcome :=
  app.withSelected fun threadId =>
    (app.setStatus "Refreshing wake-up", [.client (.memoryReadWakeup threadId)])

def openMemoryOverlay : TerminalOutcome :=
  let requests : List CliRequest := match app.view.selectedThreadId with
    | some threadId => [.memoryReadWakeup threadId, .memoryOpenSession threadId]
    | none => []
  ((app.withView (app.view.openOverlay .memory)).setStatus "Memory opened",
    .client .memoryListTopics :: requests.map .client)

def compileSelectedThreadMemory : TerminalOutcome :=
  app.withSelected fun threadId =>
    (app.setStatus "Compiling memory", [.memoryCompileNow threadId])

/-- The one command for the conversation that the picker points at. -/
def resumeSelectedThread : TerminalOutcome :=
  match app.view.selectedThread with
  | none => (app.setStatus "No conversation selected", [])
  | some thread => (app.setStatus "Resuming conversation", [.threadResume thread.id])

def forkSelectedThread (argument : String) : TerminalOutcome :=
  app.withSelected fun threadId =>
    (app.setStatus "Forking conversation",
      [.threadFork threadId (if argument.isEmpty then none else some argument)
        (some "Forked from liz-cli")])

def cancelSelectedTurn : TerminalOutcome :=
  match app.view.activeThread with
  | none => (app.setStatus "No conversation selected", [])
  | some thread =>
      match thread.latestTurnId with
      | none => (app.setStatus "No active turn to cancel", [])
      | some turnId => (app.setStatus "Cancelling turn", [.turnCancel thread.id turnId])

def searchMemory (argument : String) : TerminalOutcome :=
  if argument.isEmpty then (app.setStatus "Use /search <query>", [])
  else
    ((app.withView (app.view.openOverlay .memory)).setStatus "Searching memory",
      [.memorySearch argument])

def setSandboxMode (mode : SandboxMode) : TerminalOutcome :=
  (app.setStatus ("Setting shell sandbox to " ++ mode.asStr),
    [.runtimeConfigUpdate (some { mode := mode, networkAccess := .restricted }) none])

def setApprovalPolicy (approvalPolicy : ApprovalPolicy) : TerminalOutcome :=
  (app.setStatus ("Setting permissions to " ++ approvalPolicy.asStr),
    [.runtimeConfigUpdate none (some approvalPolicy)])

def openSandboxOverlay : TerminalOutcome :=
  let currentMode := (app.view.runtimeSandbox.map ShellSandboxSummary.mode).getD .workspaceWrite
  let view := (app.view.setSelectedSandboxMode currentMode).openOverlay .sandbox
  ((app.withView view).setStatus "Sandbox picker opened", [.runtimeConfigGet])

def openPermissionsOverlay : TerminalOutcome :=
  let currentPolicy := app.view.runtimeApprovalPolicy.getD .onRequest
  let view := (app.view.setSelectedPermissionPolicy currentPolicy).openOverlay .permissions
  ((app.withView view).setStatus "Permissions picker opened", [.runtimeConfigGet])

/-- The first word of an argument. -/
def firstWord (argument : String) : String := (splitWhitespace argument).headD ""

def configureSandbox (argument : String) : TerminalOutcome :=
  let rawMode := firstWord argument
  if rawMode.isEmpty then app.openSandboxOverlay
  else
    match parseSandboxMode rawMode with
    | some mode => app.setSandboxMode mode
    | none =>
        if (parseApprovalPolicy rawMode).isSome then
          (app.setStatus "Use /permissions danger-full-access for approval policy", [])
        else (app.setStatus ("Unknown sandbox mode " ++ rawMode), [])

def configurePermissions (argument : String) : TerminalOutcome :=
  let rawPolicy := firstWord argument
  if rawPolicy.isEmpty then app.openPermissionsOverlay
  else
    match parseApprovalPolicy rawPolicy with
    | some policy => app.setApprovalPolicy policy
    | none => (app.setStatus ("Unknown permissions policy " ++ rawPolicy), [])

def respondToFirstApproval (decision : ApprovalDecision) : TerminalOutcome :=
  match app.view.pendingApprovals.head? with
  | none => (app.setStatus "No pending approvals", [])
  | some approval =>
      (app.setStatus "Approval response sent", [.approvalRespond approval.id decision])

def openConfigOverlay : TerminalOutcome :=
  let draft := Cli.ConfigPanel.loadFrom app.config app.view.authProfiles
    (app.view.modelStatus.map ModelStatusResponse.providerId)
  let view := { app.view with configDraft := draft }.openOverlay .config
  ((app.withView view).setStatus "Config opened", [.providerAuthList, .modelStatus])

def opened (panel : OverlayPanel) (statusLine : String) : TerminalApp :=
  (app.withView (app.view.openOverlay panel)).setStatus statusLine

def runCommand (command argument : String) : TerminalOutcome :=
  match command with
  | "/help" => (app.opened .help "Help opened", [])
  | "/config" | "/settings" => app.openConfigOverlay
  | "/status" => (app.opened .status "Status opened", [.modelStatus, .runtimeConfigGet])
  | "/memory" => app.openMemoryOverlay
  | "/threads" => (app.opened .threads "Conversation picker opened", [])
  | "/new" => app.startNewThread argument
  | "/clear" => app.startNewThread ""
  | "/resume" => app.resumeSelectedThread
  | "/fork" => app.forkSelectedThread argument
  | "/search" => app.searchMemory argument
  | "/wakeup" => app.requestSelectedWakeup
  | "/compile" => app.compileSelectedThreadMemory
  | "/sandbox" => app.configureSandbox argument
  | "/permissions" => app.configurePermissions argument
  | "/approve" => app.respondToFirstApproval .approveOnce
  | "/deny" => app.respondToFirstApproval .deny
  | "/cancel" => app.cancelSelectedTurn
  | "/exit" | "/quit" => ({ app with shouldExit := true }.setStatus "Closing liz-cli", [])
  | _ => (app.opened .help ("Unknown command " ++ command), [])

def handleSlashCommand (input : String) : TerminalOutcome :=
  app.runCommand (CliApp.splitCommand input).1 (CliApp.splitCommand input).2

/-- A message goes to the conversation that is open, or starts one. -/
def sendMessage (input : String) : TerminalOutcome :=
  match app.view.selectedThreadId with
  | none => app.onConversations (app.conversations.startThreadFromMessage input)
  | some threadId =>
      let view := { app.view with toViewModel := app.view.toViewModel.pushUserMessage input }
      ((app.withView view).setStatus "Message sent", [.client (.turnStart threadId input)])

def submitInput : TerminalOutcome :=
  let input := Text.trim app.view.inputBuffer
  if input.isEmpty then (app.setStatus "Composer is empty", [])
  else if input.toList.head? = some '/' then
    (app.withView app.view.takeInput).handleSlashCommand input
  else (app.withView (app.view.takeInput.recordInputHistory input)).sendMessage input

/-! ### Keys -/

end TerminalApp

inductive KeyCode
  | esc | up | down | left | right | tab | enter | backspace
  | char (character : Char)
  | other
  deriving DecidableEq, Repr

structure KeyModifiers where
  shift : Bool
  control : Bool
  /-- Alt and the others. -/
  more : Bool
  deriving DecidableEq, Repr

structure KeyEvent where
  code : KeyCode
  modifiers : KeyModifiers
  /-- Releases and repeats are events too. -/
  press : Bool
  deriving DecidableEq, Repr

/-- No modifier but shift. -/
def KeyModifiers.types (modifiers : KeyModifiers) : Bool := !modifiers.control && !modifiers.more

namespace TerminalApp

variable (app : TerminalApp)

/-- A panel is left by escape. -/
def closed (statusLine : String) : TerminalApp :=
  (app.withView app.view.closeOverlay).setStatus statusLine

def onDraft (f : Cli.ConfigPanel → Cli.ConfigPanel) : TerminalApp :=
  app.withView { app.view with configDraft := f app.view.configDraft }

def saveConfigDraft : TerminalOutcome :=
  if (Text.trim app.view.configDraft.providerId).isEmpty then
    (app.setStatus "Provider cannot be empty", [])
  else
    let saved := Cli.ConfigSession.save { panel := app.view.configDraft, file := app.config }
    let view := { app.view with configDraft := saved.panel }.setStatus "Config saved"
    ({ app with view := view, config := saved.file }, [.modelStatus])

def handleConfigKey (key : KeyEvent) : TerminalOutcome :=
  match key.code with
  | .esc => (app.closed "Config closed", [])
  | .tab | .down => (app.onDraft Cli.ConfigPanel.focusNext, [])
  | .up => (app.onDraft Cli.ConfigPanel.focusPrevious, [])
  | .left => (app.onDraft (·.cycleProvider true), [])
  | .right => (app.onDraft (·.cycleProvider false), [])
  | .backspace => (app.onDraft Cli.ConfigPanel.popChar, [])
  | .char character =>
      if character = 's' ∧ key.modifiers.control = true then app.saveConfigDraft
      else if key.modifiers.types then (app.onDraft (·.pushChar character), [])
      else (app, [])
  | _ => (app, [])

def handleThreadsOverlayKey (key : KeyEvent) : TerminalOutcome :=
  match key.code with
  | .esc => (app.closed "Conversation picker closed", [])
  | .up =>
      let view := { app.view with toViewModel := app.view.toViewModel.selectPreviousThread }
      (app.withView view, [])
  | .down =>
      let view := { app.view with toViewModel := app.view.toViewModel.selectNextThread }
      (app.withView view, [])
  | .enter =>
      let closed := app.withView app.view.closeOverlay
      let outcome := closed.onConversations closed.conversations.loadSelectedThreadSurfaces
      (outcome.1.setStatus "Conversation opened", outcome.2)
  | _ => (app, [])

def handleSandboxOverlayKey (key : KeyEvent) : TerminalOutcome :=
  match key.code with
  | .esc => (app.closed "Sandbox picker closed", [])
  | .up => (app.withView app.view.selectPreviousSandboxMode, [])
  | .tab | .down => (app.withView app.view.selectNextSandboxMode, [])
  | .enter => (app.withView app.view.closeOverlay).setSandboxMode app.view.selectedSandboxMode
  | _ => (app, [])

def handlePermissionsOverlayKey (key : KeyEvent) : TerminalOutcome :=
  match key.code with
  | .esc => (app.closed "Permissions picker closed", [])
  | .up => (app.withView app.view.selectPreviousPermissionPolicy, [])
  | .tab | .down => (app.withView app.view.selectNextPermissionPolicy, [])
  | .enter =>
      (app.withView app.view.closeOverlay).setApprovalPolicy app.view.selectedPermissionPolicy
  | _ => (app, [])

/-- Enter completes a command that is not one yet, answers an approval where nothing is typed, and
submits what is typed otherwise. -/
def handleEnter : TerminalOutcome :=
  if app.view.commandPaletteIsOpen ∧ app.view.commandSuggestions.isEmpty = false ∧
      (Text.trim app.view.inputBuffer).toList.head? = some '/' ∧
      app.view.hasExactSlashCommand = false then
    (app.withView (app.view.acceptCommandSuggestion.getD app.view), [])
  else if app.view.pendingApprovals.isEmpty = false ∧ Text.isBlank app.view.inputBuffer = true then
    app.respondToFirstApproval .approveOnce
  else app.submitInput

def handleComposerKey (key : KeyEvent) : TerminalOutcome :=
  match key.code with
  | .esc =>
      if app.view.pendingApprovals.isEmpty = false then app.respondToFirstApproval .deny
      else if app.view.activeOverlay.isSome then (app.closed "Overlay closed", [])
      else if app.view.inputBuffer.isEmpty = false then
        ((app.withView (app.view.edit "")).setStatus "Composer cleared", [])
      else (app, [])
  | .up =>
      if app.view.commandPaletteIsOpen then (app.withView app.view.selectPreviousCommand, [])
      else
        match app.view.recallPreviousInput with
        | some view => ((app.withView view).setStatus "Recalled previous message", [])
        | none => (app.setStatus "No previous messages", [])
  | .down =>
      if app.view.commandPaletteIsOpen then (app.withView app.view.selectNextCommand, [])
      else (app, [])
  | .tab =>
      match (if app.view.slashMode then app.view.acceptCommandSuggestion else none) with
      | some view => ((app.withView view).setStatus "Command completed", [])
      | none => (app, [])
  | .enter =>
      if key.modifiers.shift then
        (app.withView (app.view.edit (app.view.inputBuffer.push '\n')), [])
      else app.handleEnter
  | .backspace =>
      (app.withView (app.view.edit (String.ofList app.view.inputBuffer.toList.dropLast)), [])
  | .char character =>
      if character = '?' ∧ app.view.inputBuffer.isEmpty then (app.opened .help "Help opened", [])
      else if key.modifiers.types then
        (app.withView (app.view.edit (app.view.inputBuffer.push character)), [])
      else (app, [])
  | _ => (app, [])

def handleKey (key : KeyEvent) : TerminalOutcome :=
  if key.press = false then (app, [])
  else if key.modifiers.control = true ∧ key.code = .char 'c' then
    ({ app with shouldExit := true }, [])
  else
    match app.view.activeOverlay with
    | some .config => app.handleConfigKey key
    | some .threads => app.handleThreadsOverlayKey key
    | some .sandbox => app.handleSandboxOverlayKey key
    | some .permissions => app.handlePermissionsOverlayKey key
    | _ => app.handleComposerKey key

/-! ### What the server sends -/

end TerminalApp

/-- A response as the terminal takes it: what the conversations read of it, or what concerns a
panel. -/
inductive TerminalResponse
  | view (response : ViewResponse)
  | memorySearch (hits : List MemorySearchHit)
  | modelStatus (status : ModelStatusResponse)
  | runtimeConfig (sandbox : ShellSandboxSummary) (approvalPolicy : ApprovalPolicy)
  | providerAuthList (profiles : List ProviderAuthProfile)

namespace TerminalApp

variable (app : TerminalApp)

/-- The first hit is opened at once. -/
def expandSearchHit (hit : MemorySearchHit) : List TerminalRequest :=
  match hit.threadId with
  | none => []
  | some threadId =>
      match hit.kind with
      | .session | .topic => [.client (.memoryOpenSession threadId)]
      | .fact | .artifact =>
          [.memoryOpenEvidence
            { threadId := threadId, turnId := hit.turnId, artifactId := hit.artifactId
              factId := hit.factId }]

def statusOf (status : ModelStatusResponse) : String :=
  let displayName := status.displayName.getD status.providerId
  if status.ready then
    displayName ++ " ready" ++ ((status.modelId.map fun model => " on " ++ model).getD "")
  else displayName ++ " needs configuration"

def receiveResponse : TerminalResponse → TerminalOutcome
  | .view response => app.onConversations (app.conversations.receiveResponse response)
  | .memorySearch hits =>
      ((app.withView { app.view with recallHits := hits, activeOverlay := some .memory }).setStatus
        s!"Search found {hits.length} result(s)", (hits.head?.map expandSearchHit).getD [])
  | .modelStatus status =>
      ((app.withView { app.view with modelStatus := some status }).setStatus (statusOf status), [])
  | .runtimeConfig sandbox approvalPolicy =>
      let view := { app.view with
        runtimeSandbox := some sandbox, runtimeApprovalPolicy := some approvalPolicy }
      ((app.withView view).setStatus ("Shell sandbox " ++ sandbox.mode.asStr ++ " via " ++
        sandbox.backend.asStr ++ "; permissions " ++ approvalPolicy.asStr), [])
  | .providerAuthList profiles =>
      ((app.withView { app.view with authProfiles := profiles }).setStatus
        (match profiles.length with
        | 0 => "No saved provider profiles"
        | 1 => "Loaded 1 provider profile"
        | count => s!"Loaded {count} provider profiles"), [])

def receiveEvent (event : ServerEvent) : TerminalOutcome :=
  app.onConversations (app.conversations.receiveEvent event)

end TerminalApp

/-- What happens to the terminal. -/
inductive TerminalInput
  | key (key : KeyEvent)
  | response (response : TerminalResponse)
  | event (event : ServerEvent)
  /-- Another program writes the configuration file. -/
  | configWritten (config : LizConfigFile)

def TerminalApp.act (app : TerminalApp) : TerminalInput → TerminalOutcome
  | .key key => app.handleKey key
  | .response response => app.receiveResponse response
  | .event event => app.receiveEvent event
  | .configWritten config => ({ app with config := config }, [])

def TerminalApp.step (app : TerminalApp) (input : TerminalInput) : TerminalApp := (app.act input).1

end Liz
