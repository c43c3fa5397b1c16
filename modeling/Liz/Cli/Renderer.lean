import Liz.Base.Cells
import Liz.Base.Prefixes
import Liz.Cli.ConfigPanel
import Liz.Cli.ViewModel
import Liz.Protocol.ToolOutputs
import Liz.Runtime.MemorySearch

/-!
# The renderer of the terminal client

Entries of the transcript go to the scrollback, which is only ever appended to. The renderer keeps
the entries it has rendered last and writes what comes behind the prefix they share with the present
ones. Below them is the live region: a preview of the reply, a panel, the approvals and the composer.
It is drawn anew each time, from the lines of the composer up. The welcome block, the layout of an
entry in the scrollback and the colors are left out.
-/

namespace Liz

structure TerminalRenderState where
  activeThreadId : Option ThreadId
  renderedEntries : List TranscriptEntry
  deriving DecidableEq

namespace TerminalRenderState

def default : TerminalRenderState := { activeThreadId := none, renderedEntries := [] }

end TerminalRenderState

def commonTranscriptPrefix (left right : List TranscriptEntry) : Nat := Prefixes.common left right

/-- Another thread is projected from its beginning, unless its entries have been written already. -/
def syncRenderProjection (state : TerminalRenderState) (selectedThreadId : Option ThreadId)
    (transcriptEntries : List TranscriptEntry) : TerminalRenderState :=
  if selectedThreadId = state.activeThreadId then state
  else
    { activeThreadId := selectedThreadId
      renderedEntries :=
        if state.renderedEntries = transcriptEntries then state.renderedEntries else [] }

/-- The entries that are written to the scrollback, and the next state. -/
def renderIncremental (view : ViewModel) (state : TerminalRenderState) :
    List TranscriptEntry × TerminalRenderState :=
  let state := syncRenderProjection state view.selectedThreadId view.transcriptEntries
  (view.transcriptEntries.drop
      (commonTranscriptPrefix state.renderedEntries view.transcriptEntries),
    { state with renderedEntries := view.transcriptEntries })

/-! ### Text in cells -/

def isSingleCellSymbol (c : Char) : Bool :=
  ['─', '│', '╭', '╮', '╰', '╯', '├', '┤', '┬', '┴', '┼', '›', '·', '…', '⏎', '⎿', '●', '※', '‼',
    '⌕', '❯'].contains c

def charWidth (c : Char) : Nat := if c.toNat < 128 || isSingleCellSymbol c then 1 else 2

def displayWidth (text : String) : Nat := Cells.width charWidth text.toList

def truncate (text : String) (width : Nat) : String :=
  String.ofList (Cells.cut charWidth '…' width text.toList)

def repeatChar (c : Char) (count : Nat) : String := String.ofList (List.replicate count c)

/-- A text with spaces behind it up to a number of characters. -/
def padEnd (text : String) (count : Nat) : String := text ++ repeatChar ' ' (count - text.length)

def splitWhitespace (text : String) : List String :=
  (Text.splitOn Text.isWhitespace text).filter fun word => !word.isEmpty

/-- The words behind the current line. -/
def wrapWords (width : Nat) : String → List String → List String
  | current, [] => if current.isEmpty then [] else [current]
  | current, word :: rest =>
      if current.isEmpty then wrapWords width word rest
      else if displayWidth current + 1 + displayWidth word ≤ max width 20 then
        wrapWords width (current ++ " " ++ word) rest
      else current :: wrapWords width word rest

def wrapText (text : String) (width : Nat) : List String :=
  if text.isEmpty then [""] else wrapWords width "" (splitWhitespace text)

def firstNonEmptyLine (text : String) : String :=
  Text.trim (((Text.lines text).find? fun line => !Text.isBlank line).getD "")

/-- A line of the screen, as the texts of its segments. -/
abbrev ScreenLine := List String

def appendMarkedBlock (marker body : String) (width : Nat) : List ScreenLine :=
  let contentWidth := max (width - displayWidth marker) 20
  match (Text.lines body).flatMap fun paragraph => wrapText paragraph contentWidth with
  | [] => []
  | first :: rest => [marker, first] :: rest.map fun wrapped => ["  ", wrapped]

/-! ### What the live region shows -/

inductive OverlayPanel
  | help | memory | config | status | threads | commandPalette | sandbox | permissions
  deriving DecidableEq, Repr

structure SlashCommandSpec where
  name : String
  description : String
  deriving DecidableEq, Repr

def slashCommands : List SlashCommandSpec :=
  [⟨"help", "Open command reference"⟩, ⟨"config", "Open config panel"⟩,
    ⟨"status", "Open runtime status"⟩, ⟨"memory", "Open memory panel"⟩,
    ⟨"threads", "Browse conversations"⟩, ⟨"new", "Start a new conversation"⟩,
    ⟨"resume", "Resume selected conversation"⟩, ⟨"fork", "Fork selected conversation"⟩,
    ⟨"search", "Search memory"⟩, ⟨"wakeup", "Refresh wake-up"⟩,
    ⟨"compile", "Compile memory for this conversation"⟩, ⟨"sandbox", "Set shell sandbox mode"⟩,
    ⟨"permissions", "Set approval policy"⟩, ⟨"approve", "Approve the current request"⟩,
    ⟨"deny", "Deny the current request"⟩, ⟨"cancel", "Cancel the running turn"⟩,
    ⟨"clear", "Clear visible transcript and start fresh"⟩, ⟨"exit", "Leave liz-cli"⟩]

/-- A suggestion is one of the commands. -/
structure SlashCommandSuggestion where
  spec : SlashCommandSpec
  builtin : spec ∈ slashCommands

def sandboxModes : List SandboxMode := [.readOnly, .workspaceWrite, .externalSandbox]

def permissionPolicies : List ApprovalPolicy := [.onRequest, .dangerFullAccess]

structure ModelStatusResponse where
  providerId : String
  displayName : Option String
  modelId : Option String
  ready : Bool
  credentialConfigured : Bool
  notes : List String
  deriving DecidableEq, Repr

/-- What is shown of a topic. -/
structure MemoryTopicSummary where
  name : String
  summary : String
  deriving DecidableEq, Repr

/-- The view model with its composer, its panels and what they show. -/
structure TerminalView extends ViewModel where
  topics : List MemoryTopicSummary
  recallHits : List MemorySearchHit
  sessionView : Option MemorySessionView
  evidenceView : Option MemoryEvidenceView
  modelStatus : Option ModelStatusResponse
  runtimeSandbox : Option ShellSandboxSummary
  runtimeApprovalPolicy : Option ApprovalPolicy
  inputBuffer : String
  activeOverlay : Option OverlayPanel
  commandSuggestions : List SlashCommandSuggestion
  selectedCommandIndex : Nat
  selectedSandboxIndex : Nat
  selectedPermissionIndex : Nat
  configPath : String
  configDraft : Cli.ConfigPanel
  authProfiles : List ProviderAuthProfile
  slashMode : Bool

/-- What a line of a panel is made of: a text of the program, or a label with a value behind it, which
may be cut to the room there is. -/
inductive PanelRow
  | blank
  | fixed (text : String)
  | labelled (label value : String)
  | shortened (label value : String) (room : Nat)
  /-- The label is a name with two spaces. -/
  | named (name value : String) (room : Nat)
  deriving DecidableEq, Repr

def PanelRow.line : PanelRow → ScreenLine
  | blank => []
  | fixed text => [text]
  | labelled label value => [label ++ value]
  | shortened label value room => [label ++ truncate value room]
  | named name value room => [name ++ "  " ++ truncate value room]

/-! ### The panels -/

def SandboxMode.description : SandboxMode → String
  | .readOnly => "read files only"
  | .workspaceWrite => "write inside the workspace"
  | .dangerFullAccess => "legacy compatibility mode"
  | .externalSandbox => "trust the parent sandbox"

def ApprovalPolicy.asStr : ApprovalPolicy → String
  | .onRequest => "on-request"
  | .dangerFullAccess => "danger-full-access"

def ApprovalPolicy.description : ApprovalPolicy → String
  | .onRequest => "ask before high-risk actions"
  | .dangerFullAccess => "continue without approval prompts"

def MemorySearchHitKind.debugText : MemorySearchHitKind → String
  | .topic => "Topic"
  | .session => "Session"
  | .fact => "Fact"
  | .artifact => "Artifact"

def Cli.ConfigFocus.label : Cli.ConfigFocus → String
  | .provider => "Provider"
  | .baseUrl => "Base URL"
  | .apiKey => "API key"
  | .model => "Model"

namespace TerminalView

variable (view : TerminalView)

def commandPaletteLines (width : Nat) : List PanelRow :=
  let suggestions :=
    if view.commandSuggestions.isEmpty then
      slashCommands.attach.map fun spec => { spec := spec.1, builtin := spec.2 }
    else view.commandSuggestions
  (suggestions.take 6).mapIdx fun index suggestion =>
    let marker := if index = view.selectedCommandIndex then "›" else " "
    let usage := "/" ++ padEnd suggestion.spec.name 10 ++ " " ++ suggestion.spec.description
    .fixed (marker ++ " " ++ truncate usage (width - 2))

def configLines : List PanelRow :=
  let draft := view.configDraft
  let row := fun (focus : Cli.ConfigFocus) (value : String) =>
    PanelRow.labelled
      ((if focus = draft.focus then ">" else " ") ++ " " ++ padEnd focus.label 10 ++ " ")
      (if value.isEmpty then "not set" else value)
  [.fixed "Configure provider defaults for this workspace", .blank,
    .labelled "Config file  " view.configPath, .blank,
    row .provider draft.providerId, row .baseUrl draft.baseUrl,
    row .apiKey (if draft.apiKey.isEmpty then "" else "********"), row .model draft.modelId, .blank,
    .labelled "Saved auth profiles  " (toString view.authProfiles.length),
    .fixed (if draft.dirty then "Tab move   Ctrl+S save   unsaved changes"
      else "Tab move   Ctrl+S save   saved")]

/-- A choice of a picker. -/
def pickerRow (selected : Bool) (name description : String) (width : Nat) : PanelRow :=
  .fixed (truncate ((if selected then "›" else " ") ++ " " ++ padEnd name 20 ++ " " ++ description)
    width)

def sandboxLines (width : Nat) : List PanelRow :=
  (match view.runtimeSandbox with
    | some sandbox =>
        [.fixed ("Current " ++ sandbox.mode.asStr ++ " via " ++ sandbox.backend.asStr), .blank]
    | none => []) ++
  sandboxModes.mapIdx (fun index mode =>
    pickerRow (index = view.selectedSandboxIndex) mode.asStr mode.description width) ++
  [.blank, .fixed "Enter apply · Esc cancel"]

def permissionsLines (width : Nat) : List PanelRow :=
  (match view.runtimeApprovalPolicy with
    | some policy => [.fixed ("Current " ++ policy.asStr), .blank]
    | none => []) ++
  permissionPolicies.mapIdx (fun index policy =>
    pickerRow (index = view.selectedPermissionIndex) policy.asStr policy.description width) ++
  [.blank, .fixed "Enter apply · Esc cancel"]

def statusLines : List PanelRow :=
  [.fixed "Current provider readiness", .blank] ++
  (match view.modelStatus with
    | some status =>
        [.labelled "Provider  " (status.displayName.getD status.providerId),
          .labelled "Model     " (status.modelId.getD "unknown"),
          .fixed ("Ready     " ++ if status.ready then "yes" else "no"),
          .fixed ("Credential " ++ if status.credentialConfigured then "configured" else "missing")] ++
        status.notes.map (.labelled "- ")
    | none => [.fixed "Provider status has not loaded yet."]) ++
  [.blank, .fixed "Runtime execution"] ++
  (match view.runtimeSandbox with
    | some sandbox =>
        [.fixed ("Sandbox  " ++ sandbox.mode.asStr), .fixed ("Backend   " ++ sandbox.backend.asStr),
          .fixed ("Network   " ++ sandbox.networkAccess.asStr)] ++
        (view.runtimeApprovalPolicy.map fun policy =>
          PanelRow.fixed ("Approval  " ++ policy.asStr)).toList
    | none => [.fixed "Runtime config has not loaded yet."])

def helpLines : List PanelRow :=
  .fixed "Commands" ::
    (slashCommands.map fun spec =>
      PanelRow.fixed ("/" ++ padEnd spec.name 10 ++ " " ++ spec.description)) ++
  [.blank, .fixed "Keys  Enter send, Shift+Enter newline, Tab overlays, Esc close"]

/-- A section of the memory panel, if it has something to show. -/
def panelSection (title : PanelRow) (rows : List PanelRow) (shown : Bool) : List PanelRow :=
  if shown then .blank :: title :: rows else []

def memoryLines (width : Nat) : List PanelRow :=
  [.fixed "Wake-up, recent topics, and compiled context", .blank, .fixed "Wake-up"] ++
  (match view.wakeup with
    | some wakeup =>
        (wakeup.activeState.map fun activeState =>
          PanelRow.shortened "Active  " activeState (width - 8)).toList ++
        if wakeup.openCommitments.isEmpty then []
        else [.shortened "Open    " (Text.join wakeup.openCommitments ", ") (width - 8)]
    | none => [.fixed "No wake-up loaded."]) ++
  [.blank, .fixed "Topics"] ++
  ((view.topics.take 4).map fun topic =>
    PanelRow.named topic.name topic.summary (width - (topic.name.utf8ByteSize + 2))) ++
  panelSection (.fixed "Recall")
    ((view.recallHits.take 3).flatMap fun hit =>
      [.shortened (hit.kind.debugText ++ "  ") hit.title (width - 10),
        .shortened "  " hit.summary (width - 2)])
    (!view.recallHits.isEmpty) ++
  (match view.sessionView with
    | some session => panelSection (.labelled "Session  " session.title)
        ((session.recentEntries.take 3).map fun entry => .shortened "  " entry.summary (width - 2)) true
    | none => []) ++
  (match view.evidenceView with
    | some evidence => panelSection (.fixed "Evidence")
        ((evidence.threadTitle.map fun title =>
            PanelRow.shortened "Thread  " title (width - 8)).toList ++
          (evidence.turnSummary.map fun summary =>
            PanelRow.shortened "Turn    " summary (width - 8)).toList ++
          (evidence.factValue.map fun value =>
            PanelRow.shortened "Fact    " value (width - 8)).toList) true
    | none => []) ++
  panelSection (.fixed "Compiled experience")
    ((view.candidateProcedures.take 3).map fun procedure => .shortened "- " procedure (width - 2))
    (!view.candidateProcedures.isEmpty) ++
  panelSection (.fixed "Dreaming / reflection")
    ((view.dreamingSummaries.take 3).map fun summary => .shortened "- " summary (width - 2))
    (!view.dreamingSummaries.isEmpty) ++
  (match view.diffPreview with
    | some diff => [.blank, .labelled "Diff  " (firstNonEmptyLine diff)]
    | none => [])

def threadLines : List PanelRow :=
  [.fixed "Recent conversations", .blank] ++
  (if view.threads.isEmpty then [.fixed "No conversations yet."]
  else
    ((view.threads.take 10).mapIdx fun index thread =>
      PanelRow.labelled ((if index = view.selectedThreadIndex then ">" else " ") ++ " ") thread.title ::
        ((thread.activeSummary.or thread.activeGoal).map (PanelRow.labelled "  ")).toList).flatten) ++
  [.blank, .fixed "Enter open   Esc close"]

def overlayLines (panel : OverlayPanel) (width : Nat) : List PanelRow :=
  match panel with
  | .commandPalette => view.commandPaletteLines width
  | .config => view.configLines
  | .status => view.statusLines
  | .help => helpLines
  | .memory => view.memoryLines width
  | .threads => view.threadLines
  | .sandbox => view.sandboxLines width
  | .permissions => view.permissionsLines width

end TerminalView

def slashPageHeader : OverlayPanel → String
  | .config => "   Config   Status   Usage   Stats"
  | .status => "   Status   Config   Usage   Stats"
  | .help => "   Help"
  | .memory => "   Memory"
  | .threads => "   Conversations"
  | .commandPalette => "   Commands"
  | .sandbox => "   Sandbox"
  | .permissions => "   Permissions"

/-! ### The live region -/

namespace TerminalView

variable (view : TerminalView)

/-- The rows of a panel that are drawn. The palette draws all it has, the others as many as there is
room for. -/
def panelRows (panel : OverlayPanel) (width terminalHeight : UInt16) : List PanelRow :=
  let rows := view.overlayLines panel (width.toNat - 4)
  if panel = .commandPalette then rows
  else rows.take (min (max (terminalHeight.toNat - 6) 3) 12)

def approvalNotice : String :=
  "Approval required: Enter approves once, Esc denies · " ++ toString view.pendingApprovals.length ++
    " pending"

/-- What the composer shows of the input. -/
def shownInput : String := Text.replace view.inputBuffer "\n" "⏎ "

def composerInputLine (width : Nat) : ScreenLine :=
  let inputWidth := width - displayWidth "❯ "
  ["❯ ",
    truncate (if view.inputBuffer.isEmpty then "Try \"how does <filepath> work?\"" else view.shownInput)
      inputWidth]

/-- What the status bar shows on its left and on its right. -/
def statusLeft : String := if view.statusLine.isEmpty then "? for shortcuts" else view.statusLine

def statusRight : String :=
  if view.slashMode then "/ commands"
  else (view.modelStatus.bind ModelStatusResponse.modelId).getD "/model"

def statusBar (width : Nat) : ScreenLine :=
  let left := truncate view.statusLeft (width - 2)
  let right := truncate view.statusRight (width - 4)
  let used := min (displayWidth left) width
  [left, repeatChar ' ' (width - (used + displayWidth right)), right]

def composerLines (width : Nat) : List ScreenLine :=
  [[repeatChar '─' width], view.composerInputLine width, [repeatChar '─' width],
    view.statusBar width]

/-- What is drawn above the composer. -/
def aboveComposer (width terminalHeight : UInt16) : List ScreenLine :=
  (match view.assistantStreaming with
    | some streaming => (appendMarkedBlock "● " streaming width.toNat).take 6 ++ [[]]
    | none => []) ++
  (match view.activeOverlay with
    | some panel =>
        [if panel = .commandPalette then "Commands" else slashPageHeader panel] ::
          ((view.panelRows panel width terminalHeight).map PanelRow.line ++ [[]])
    | none => []) ++
  if view.pendingApprovals.isEmpty then [] else [[view.approvalNotice]]

def liveRegionLines (width terminalHeight : UInt16) : List ScreenLine :=
  view.aboveComposer width terminalHeight ++ view.composerLines width.toNat

end TerminalView

/-- The first line with a segment that starts like the composer's. -/
def inputLineOffset (lines : List ScreenLine) : UInt16 :=
  UInt16.ofNat ((lines.findIdx? fun line =>
    line.any fun segment => "❯ ".toList.isPrefixOf segment.toList).getD 0)

namespace TerminalView

variable (view : TerminalView)

def liveRegionHeight (width terminalHeight : UInt16) : UInt16 :=
  UInt16.ofNat (view.liveRegionLines width terminalHeight).length

/-- The column that the cursor moves to. -/
def cursorColumn (width : UInt16) : UInt16 :=
  let cursorText := if view.inputBuffer.isEmpty then "" else view.shownInput
  UInt16.ofNat (min (displayWidth ("❯ " ++ cursorText)) (width.toNat - 1))

end TerminalView

end Liz
