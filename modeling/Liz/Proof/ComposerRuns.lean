import Liz.Cli.Composer

/-!
# Runs of the composer

Whatever is typed, recalled, completed or sent, and whatever the server sends in between, the
completions are those of the input and one of them is selected, and the message that is being
recalled is the one in the input. What can be recalled are the last messages that were sent.
-/

namespace Liz

/-! ### Texts -/

theorem toList_trimStart (text : String) :
    (trimStart text).toList = text.toList.dropWhile Text.isWhitespace := String.toList_ofList

theorem slashQueryOf_of_head? {input : String}
    (h : (trimStart input).toList.head? ≠ some '/') : slashQueryOf input = none := by
  unfold slashQueryOf
  split
  · rename_i rest hrest
    rw [hrest] at h
    exact absurd rfl h
  · rfl

/-- A text that is sent as a message: trimmed, and neither empty nor a command. -/
structure IsMessage (text : String) : Prop where
  trimmed : Text.trim text = text
  nonempty : text.isEmpty = false
  plain : text.toList.head? ≠ some '/'

/-- Nothing is trimmed in front of a message. -/
theorem IsMessage.toList_trimStart {text : String} (h : IsMessage text) :
    (trimStart text).toList = text.toList := by
  have hfront := List.dropWhile_suffix Text.isWhitespace (l := text.toList)
  have htext := congrArg (List.length ∘ String.toList) h.trimmed
  have hback := (List.dropWhile_suffix Text.isWhitespace
    (l := (text.toList.dropWhile Text.isWhitespace).reverse)).length_le
  rw [Function.comp_apply, Function.comp_apply, Text.trim, String.toList_ofList,
    List.length_reverse] at htext
  rw [List.length_reverse] at hback
  rw [Liz.toList_trimStart]
  exact hfront.eq_of_length_le (by omega)

-- the completions of a text are not computed where only their being the ones of the input matters
attribute [local irreducible] slashSuggestions slashQueryOf trimStart

namespace ShellView

/-! ### What the composer keeps -/

/-- The completions are those of the input, and one of them is selected. -/
structure Completes (view : ShellView) : Prop where
  slashMode : view.slashMode = ((trimStart view.inputBuffer).toList.head? == some '/')
  suggestions : view.commandSuggestions = (view.slashQuery.map slashSuggestions).getD []
  selected : view.commandSuggestions ≠ [] →
    view.selectedCommandIndex < view.commandSuggestions.length
  palette : view.activeOverlay = some .commandPalette → view.commandSuggestions ≠ []

/-- The messages can be recalled, and the one that has been recalled stands in the input. -/
structure Recalls (view : ShellView) : Prop where
  messages : ∀ entry ∈ view.inputHistory, IsMessage entry
  recalled : ∀ index, view.inputHistoryIndex = some index →
    view.inputHistory[index]? = some view.inputBuffer

/-- A row of each picker is selected. -/
structure Picks (view : ShellView) : Prop where
  sandbox : view.selectedSandboxIndex < sandboxModes.length
  permission : view.selectedPermissionIndex < permissionPolicies.length

structure Composed (view : ShellView) : Prop where
  completes : Completes view
  recalls : Recalls view
  picks : Picks view

theorem composed_default : Composed default where
  completes := by
    refine ⟨?_, ?_, fun h => absurd rfl h, fun h => by cases h⟩
    · rw [toList_trimStart]
      rfl
    · have hempty : (trimStart default.inputBuffer).toList.head? ≠ some '/' := by
        rw [toList_trimStart]
        exact (Option.some_ne_none _).symm
      rw [slashQuery, slashQueryOf_of_head? hempty]
      rfl
  recalls := ⟨fun _ h => absurd h List.not_mem_nil, fun _ h => by cases h⟩
  picks := ⟨by decide, by decide⟩

section Fields

variable {view : ShellView}

/-- What is not part of the composer does not matter. -/
theorem Composed.onConversations (h : Composed view) (viewModel : ViewModel) :
    Composed { view with toViewModel := viewModel } where
  completes := ⟨h.completes.slashMode, h.completes.suggestions, h.completes.selected,
    h.completes.palette⟩
  recalls := ⟨h.recalls.messages, h.recalls.recalled⟩
  picks := ⟨h.picks.sandbox, h.picks.permission⟩

theorem Composed.setStatus (h : Composed view) (statusLine : String) :
    Composed (view.setStatus statusLine) := h.onConversations _

/-- Any panel but the palette can be open. -/
theorem Composed.onOverlay (h : Composed view) {overlay : Option OverlayPanel}
    (hoverlay : overlay ≠ some .commandPalette) :
    Composed { view with activeOverlay := overlay } where
  completes := ⟨h.completes.slashMode, h.completes.suggestions, h.completes.selected,
    fun hpalette => absurd hpalette hoverlay⟩
  recalls := ⟨h.recalls.messages, h.recalls.recalled⟩
  picks := ⟨h.picks.sandbox, h.picks.permission⟩

theorem Composed.onPickers (h : Composed view) {sandboxIndex permissionIndex : Nat}
    (hsandbox : sandboxIndex < sandboxModes.length)
    (hpermission : permissionIndex < permissionPolicies.length) :
    Composed { view with
      selectedSandboxIndex := sandboxIndex, selectedPermissionIndex := permissionIndex } where
  completes := ⟨h.completes.slashMode, h.completes.suggestions, h.completes.selected,
    h.completes.palette⟩
  recalls := ⟨h.recalls.messages, h.recalls.recalled⟩
  picks := ⟨hsandbox, hpermission⟩

/-- What the panels show. -/
theorem Composed.onPanels (h : Composed view) (recallHits : List MemorySearchHit)
    (modelStatus : Option ModelStatusResponse) (runtimeSandbox : Option ShellSandboxSummary)
    (runtimeApprovalPolicy : Option ApprovalPolicy) (configDraft : Cli.ConfigPanel)
    (authProfiles : List ProviderAuthProfile) :
    Composed { view with
      recallHits := recallHits, modelStatus := modelStatus, runtimeSandbox := runtimeSandbox
      runtimeApprovalPolicy := runtimeApprovalPolicy, configDraft := configDraft
      authProfiles := authProfiles } where
  completes := ⟨h.completes.slashMode, h.completes.suggestions, h.completes.selected,
    h.completes.palette⟩
  recalls := ⟨h.recalls.messages, h.recalls.recalled⟩
  picks := ⟨h.picks.sandbox, h.picks.permission⟩

theorem Composed.onSelected (h : Composed view) {index : Nat}
    (hindex : view.commandSuggestions ≠ [] → index < view.commandSuggestions.length) :
    Composed { view with selectedCommandIndex := index } where
  completes := ⟨h.completes.slashMode, h.completes.suggestions, hindex, h.completes.palette⟩
  recalls := ⟨h.recalls.messages, h.recalls.recalled⟩
  picks := ⟨h.picks.sandbox, h.picks.permission⟩

end Fields

/-! ### Completions -/

section Steps

variable {view : ShellView}

/-- The completions of the input. -/
def completions (view : ShellView) : List SlashCommandSuggestion :=
  (view.slashQuery.map slashSuggestions).getD []

theorem refresh_of_none (h : view.completions.isEmpty = true) :
    view.refreshComposerAffordances = { view with
      slashMode := (trimStart view.inputBuffer).toList.head? == some '/'
      commandSuggestions := []
      selectedCommandIndex := 0
      activeOverlay :=
        if view.activeOverlay = some .commandPalette then none else view.activeOverlay } := by
  rw [completions] at h
  rw [refreshComposerAffordances, if_pos h]

theorem refresh_of_some (h : ¬ view.completions.isEmpty = true) :
    view.refreshComposerAffordances = { view with
      slashMode := (trimStart view.inputBuffer).toList.head? == some '/'
      commandSuggestions := view.completions
      selectedCommandIndex :=
        if view.completions.length ≤ view.selectedCommandIndex then 0
        else view.selectedCommandIndex
      activeOverlay :=
        if (trimStart view.inputBuffer).toList.head? == some '/' then some .commandPalette
        else view.activeOverlay } := by
  rw [completions] at h
  rw [refreshComposerAffordances, if_neg h]
  rfl

/-- Bringing the completions up to date leaves everything else alone. -/
theorem refresh_fields (view : ShellView) :
    (view.refreshComposerAffordances).inputBuffer = view.inputBuffer ∧
      (view.refreshComposerAffordances).inputHistory = view.inputHistory ∧
      (view.refreshComposerAffordances).inputHistoryIndex = view.inputHistoryIndex ∧
      (view.refreshComposerAffordances).selectedSandboxIndex = view.selectedSandboxIndex ∧
      (view.refreshComposerAffordances).selectedPermissionIndex = view.selectedPermissionIndex ∧
      (view.refreshComposerAffordances).toViewModel = view.toViewModel := by
  by_cases h : view.completions.isEmpty = true
  · rw [refresh_of_none h]
    exact ⟨rfl, rfl, rfl, rfl, rfl, rfl⟩
  · rw [refresh_of_some h]
    exact ⟨rfl, rfl, rfl, rfl, rfl, rfl⟩

theorem completes_refresh (view : ShellView) : Completes view.refreshComposerAffordances := by
  by_cases h : view.completions.isEmpty = true
  · rw [refresh_of_none h]
    refine ⟨rfl, (List.isEmpty_iff.mp h).symm, fun hsome => absurd rfl hsome, fun hpalette => ?_⟩
    by_cases hopen : view.activeOverlay = some .commandPalette
    · rw [if_pos hopen] at hpalette
      cases hpalette
    · rw [if_neg hopen] at hpalette
      exact absurd hpalette hopen
  · rw [refresh_of_some h]
    rw [Bool.not_eq_true, List.isEmpty_eq_false_iff] at h
    have hlength := List.length_pos_of_ne_nil h
    refine ⟨rfl, rfl, fun _ => ?_, fun _ => h⟩
    dsimp only
    split <;> omega

theorem Composed.refresh (hrecalls : Recalls view) (hpicks : Picks view) :
    Composed view.refreshComposerAffordances := by
  obtain ⟨hbuffer, hhistory, hindex, hsandbox, hpermission, -⟩ := refresh_fields view
  refine ⟨completes_refresh view, ⟨?_, ?_⟩, ⟨?_, ?_⟩⟩
  · rw [hhistory]
    exact hrecalls.messages
  · rw [hhistory, hindex, hbuffer]
    exact hrecalls.recalled
  · rw [hsandbox]
    exact hpicks.sandbox
  · rw [hpermission]
    exact hpicks.permission

/-- While nothing is recalled the input may be anything. -/
theorem Composed.refresh_input (h : Composed view) (hindex : view.inputHistoryIndex = none)
    (inputBuffer : String) :
    Composed { view with inputBuffer := inputBuffer }.refreshComposerAffordances :=
  .refresh ⟨h.recalls.messages, fun index hsome => by rw [hindex] at hsome; cases hsome⟩
    ⟨h.picks.sandbox, h.picks.permission⟩

theorem Composed.clearSelection (h : Composed view) : Composed view.clearInputHistorySelection where
  completes := ⟨h.completes.slashMode, h.completes.suggestions, h.completes.selected,
    h.completes.palette⟩
  recalls := ⟨h.recalls.messages, fun _ hsome => by cases hsome⟩
  picks := ⟨h.picks.sandbox, h.picks.permission⟩

theorem Composed.edit (h : Composed view) (inputBuffer : String) :
    Composed (view.edit inputBuffer) := h.clearSelection.refresh_input rfl inputBuffer

theorem previousRow_lt {rows index : Nat} (h : index < rows) : previousRow rows index < rows := by
  unfold previousRow
  split <;> omega

theorem nextRow_lt {rows : Nat} (h : 0 < rows) (index : Nat) : nextRow rows index < rows :=
  Nat.mod_lt _ h

theorem Composed.selectPreviousCommand (h : Composed view) :
    Composed view.selectPreviousCommand := by
  refine h.onSelected fun hsome => ?_
  rw [if_neg (by simpa using hsome)]
  exact previousRow_lt (h.completes.selected hsome)

theorem Composed.selectNextCommand (h : Composed view) : Composed view.selectNextCommand := by
  refine h.onSelected fun hsome => ?_
  rw [if_neg (by simpa using hsome)]
  exact nextRow_lt (List.length_pos_of_ne_nil hsome) _

/-! ### Recalling -/

/-- A message that is recalled is no command. -/
theorem Composed.not_recalling (h : Composed view) (hslash : view.slashMode = true) :
    view.inputHistoryIndex = none := by
  cases hindex : view.inputHistoryIndex with
  | none => rfl
  | some index =>
      have hmessage := h.recalls.messages _ (List.mem_of_getElem? (h.recalls.recalled index hindex))
      rw [h.completes.slashMode, beq_iff_eq, hmessage.toList_trimStart] at hslash
      exact absurd hslash hmessage.plain

/-- Completions are offered for commands only. -/
theorem Completes.slashMode_of_some (h : Completes view) (hsome : view.commandSuggestions ≠ []) :
    view.slashMode = true := by
  rw [h.suggestions, slashQuery] at hsome
  rw [h.slashMode, beq_iff_eq]
  by_contra hhead
  rw [slashQueryOf_of_head? hhead] at hsome
  exact hsome rfl

/-- The index that an arrow up goes to. -/
def recalledIndex (view : ShellView) : Nat :=
  match view.inputHistoryIndex with
  | some 0 => 0
  | some (index + 1) => index
  | none => view.inputHistory.length - 1

theorem recallPreviousInput_eq (hhistory : view.inputHistory ≠ []) :
    view.recallPreviousInput = view.inputHistory[view.recalledIndex]?.map fun entry =>
      { view with
        inputHistoryIndex := some view.recalledIndex
        inputBuffer := entry }.refreshComposerAffordances := by
  rw [recallPreviousInput, if_neg (by simpa using hhistory)]
  rfl

theorem Recalls.index_lt (h : Recalls view) {index : Nat}
    (hindex : view.inputHistoryIndex = some index) : index < view.inputHistory.length :=
  (List.getElem?_eq_some_iff.mp (h.recalled index hindex)).1

theorem Recalls.recalledIndex_lt (h : Recalls view) (hhistory : view.inputHistory ≠ []) :
    view.recalledIndex < view.inputHistory.length := by
  have hlength := List.length_pos_of_ne_nil hhistory
  unfold recalledIndex
  split
  · exact hlength
  · rename_i index hindex
    have := h.index_lt hindex
    omega
  · omega

theorem Composed.recall (h : Composed view) {recalled : ShellView}
    (hrecalled : view.recallPreviousInput = some recalled) : Composed recalled := by
  by_cases hhistory : view.inputHistory = []
  · rw [recallPreviousInput, if_pos (by simpa using hhistory)] at hrecalled
    cases hrecalled
  · rw [recallPreviousInput_eq hhistory, Option.map_eq_some_iff] at hrecalled
    obtain ⟨entry, hentry, rfl⟩ := hrecalled
    refine .refresh ⟨h.recalls.messages, fun index hindex => ?_⟩
      ⟨h.picks.sandbox, h.picks.permission⟩
    obtain rfl : view.recalledIndex = index := by simpa using hindex
    exact hentry

theorem Composed.accept (h : Composed view) (hslash : view.slashMode = true) {accepted : ShellView}
    (haccepted : view.acceptCommandSuggestion = some accepted) : Composed accepted := by
  rw [acceptCommandSuggestion, Option.map_eq_some_iff] at haccepted
  obtain ⟨suggestion, -, rfl⟩ := haccepted
  exact (h.refresh_input (h.not_recalling hslash) _).onOverlay (fun hnone => by cases hnone)

/-- What is sent as a message can be recalled. -/
theorem isMessage_trim {input : String} (hinput : (Text.trim input).isEmpty = false)
    (hplain : (Text.trim input).toList.head? ≠ some '/') : IsMessage (Text.trim input) :=
  ⟨Text.trim_trim input, hinput, hplain⟩

theorem Composed.record (hcompletes : Completes view) (hpicks : Picks view)
    (hmessages : ∀ entry ∈ view.inputHistory, IsMessage entry) {input : String}
    (hinput : IsMessage input) : Composed (view.recordInputHistory input) := by
  have htrim := hinput.trimmed
  rw [recordInputHistory, htrim, if_neg (by simpa using hinput.nonempty)]
  refine ⟨?_, ⟨fun entry hentry => ?_, ?_⟩, ?_⟩
  · split <;> exact ⟨hcompletes.slashMode, hcompletes.suggestions, hcompletes.selected,
      hcompletes.palette⟩
  · split at hentry
    · exact hmessages entry hentry
    · have hentry : entry ∈ view.inputHistory ++ [input] := by
        dsimp only [clearInputHistorySelection] at hentry
        split at hentry
        · exact List.mem_of_mem_drop hentry
        · exact hentry
      rcases List.mem_append.mp hentry with hold | hnew
      · exact hmessages entry hold
      · rw [List.mem_singleton.mp hnew]
        exact hinput
  · split <;> exact fun _ hsome => by cases hsome
  · split <;> exact ⟨hpicks.sandbox, hpicks.permission⟩

/-- Whatever was typed, completed or recalled is gone once it is submitted. -/
theorem takeInput_fields (view : ShellView) :
    Completes view.takeInput ∧ view.takeInput.inputBuffer = "" ∧
      view.takeInput.inputHistory = view.inputHistory ∧
      view.takeInput.inputHistoryIndex = view.inputHistoryIndex ∧
      view.takeInput.selectedSandboxIndex = view.selectedSandboxIndex ∧
      view.takeInput.selectedPermissionIndex = view.selectedPermissionIndex ∧
      view.takeInput.toViewModel = view.toViewModel := by
  have hcompletes := completes_refresh { view with inputBuffer := "" }
  obtain ⟨hbuffer, hhistory, hindex, hsandbox, hpermission, hviewModel⟩ :=
    refresh_fields { view with inputBuffer := "" }
  unfold takeInput
  dsimp only
  split
  · exact ⟨⟨hcompletes.slashMode, hcompletes.suggestions, hcompletes.selected,
      fun hnone => by cases hnone⟩, hbuffer, hhistory, hindex, hsandbox, hpermission, hviewModel⟩
  · exact ⟨hcompletes, hbuffer, hhistory, hindex, hsandbox, hpermission, hviewModel⟩

theorem Composed.takeInput (h : Composed view) (hindex : view.inputHistoryIndex = none) :
    Composed view.takeInput := by
  obtain ⟨hcompletes, -, hhistory, hindex', hsandbox, hpermission, -⟩ := takeInput_fields view
  refine ⟨hcompletes, ⟨?_, fun index hsome => ?_⟩, ⟨?_, ?_⟩⟩
  · rw [hhistory]
    exact h.recalls.messages
  · rw [hindex', hindex] at hsome
    cases hsome
  · rw [hsandbox]
    exact h.picks.sandbox
  · rw [hpermission]
    exact h.picks.permission

theorem Composed.takeInput_record (h : Composed view) {input : String} (hinput : IsMessage input) :
    Composed (view.takeInput.recordInputHistory input) := by
  obtain ⟨hcompletes, -, hhistory, -, hsandbox, hpermission, -⟩ := takeInput_fields view
  refine .record hcompletes ⟨?_, ?_⟩ ?_ hinput
  · rw [hsandbox]
    exact h.picks.sandbox
  · rw [hpermission]
    exact h.picks.permission
  · rw [hhistory]
    exact h.recalls.messages

end Steps

end ShellView

namespace TerminalApp

open ShellView

/-! ### What a step leaves alone -/

/-- Neither what can be recalled nor what waits for an answer changes, and the completions stay
those of the input. -/
structure Keeps (app next : TerminalApp) : Prop where
  history : next.view.inputHistory = app.view.inputHistory
  approvals : next.view.pendingApprovals = app.view.pendingApprovals
  composed : Composed app.view → Composed next.view

section Keeps

variable {app : TerminalApp}

@[simp] theorem withView_view (app : TerminalApp) (view : ShellView) :
    (app.withView view).view = view := rfl

theorem Keeps.refl (app : TerminalApp) : Keeps app app := ⟨rfl, rfl, id⟩

theorem Keeps.trans {first second third : TerminalApp} (h : Keeps first second)
    (hnext : Keeps second third) : Keeps first third :=
  ⟨hnext.history.trans h.history, hnext.approvals.trans h.approvals,
    fun hcomposed => hnext.composed (h.composed hcomposed)⟩

theorem Keeps.setStatus {next : TerminalApp} (h : Keeps app next) (statusLine : String) :
    Keeps app (next.setStatus statusLine) :=
  ⟨h.history, h.approvals, fun hcomposed => (h.composed hcomposed).setStatus _⟩

theorem keeps_setStatus (statusLine : String) : Keeps app (app.setStatus statusLine) :=
  (Keeps.refl app).setStatus _

theorem keeps_overlay {overlay : Option OverlayPanel} (h : overlay ≠ some .commandPalette) :
    Keeps app (app.withView { app.view with activeOverlay := overlay }) :=
  ⟨rfl, rfl, fun hcomposed => hcomposed.onOverlay h⟩

theorem keeps_closeOverlay : Keeps app (app.withView app.view.closeOverlay) :=
  keeps_overlay fun hnone => by cases hnone

theorem keeps_closed (statusLine : String) : Keeps app (app.closed statusLine) :=
  keeps_closeOverlay.setStatus _

theorem keeps_opened {panel : OverlayPanel} (hpanel : panel ≠ .commandPalette)
    (statusLine : String) : Keeps app (app.opened panel statusLine) :=
  (keeps_overlay fun hsome => hpanel (Option.some.inj hsome)).setStatus _

theorem keeps_draft (draft : Cli.ConfigPanel) :
    Keeps app (app.withView { app.view with configDraft := draft }) :=
  ⟨rfl, rfl, fun hcomposed => hcomposed.onPanels ..⟩

theorem keeps_withSelected {send : ThreadId → TerminalOutcome}
    (hsend : ∀ threadId, Keeps app (send threadId).1) : Keeps app (app.withSelected send).1 := by
  unfold withSelected
  split
  · exact keeps_setStatus _
  · exact hsend _

/-! ### Conversations -/

theorem keeps_onConversations {outcome : CliApp × List CliRequest}
    (h : outcome.1.viewModel.pendingApprovals = app.view.pendingApprovals) :
    Keeps app (app.onConversations outcome).1 :=
  ⟨rfl, h, fun hcomposed => hcomposed.onConversations _⟩

theorem pendingApprovals_pushThreadEntry (view : ViewModel) (threadId : ThreadId)
    (kind : TranscriptEntryKind) (body : String) :
    (view.pushThreadEntry threadId kind body).pendingApprovals = view.pendingApprovals := by
  unfold ViewModel.pushThreadEntry
  dsimp only
  split <;> rfl

theorem pendingApprovals_pushEntryForSelectedThread (view : ViewModel) (kind : TranscriptEntryKind)
    (body : String) :
    (view.pushEntryForSelectedThread kind body).pendingApprovals = view.pendingApprovals := by
  unfold ViewModel.pushEntryForSelectedThread
  split
  · exact pendingApprovals_pushThreadEntry _ _ _ _
  · rfl

theorem pendingApprovals_startThreadFromMessage (app : CliApp) (input : String) :
    (app.startThreadFromMessage input).1.viewModel.pendingApprovals =
      app.viewModel.pendingApprovals := by
  dsimp only [CliApp.startThreadFromMessage, CliApp.setStatus,
    ViewModel.pushPendingThreadStartMessage]

theorem pendingApprovals_loadSelectedThreadSurfaces (conversations : CliApp) :
    conversations.loadSelectedThreadSurfaces.1.viewModel.pendingApprovals =
      conversations.viewModel.pendingApprovals := by
  unfold CliApp.loadSelectedThreadSurfaces
  split <;> rfl

theorem keeps_startNewThread (argument : String) : Keeps app (app.startNewThread argument).1 := by
  have hstarted : Keeps app
      (app.onConversations (app.conversations.startNewThread argument)).1 := by
    refine keeps_onConversations ?_
    unfold CliApp.startNewThread
    split
    · rfl
    · exact pendingApprovals_startThreadFromMessage _ _
  unfold startNewThread
  dsimp only
  split
  · exact hstarted.trans keeps_closeOverlay
  · exact hstarted

theorem keeps_sendMessage (input : String) : Keeps app (app.sendMessage input).1 := by
  unfold sendMessage
  split
  · exact keeps_onConversations (pendingApprovals_startThreadFromMessage _ _)
  · refine ⟨?_, pendingApprovals_pushEntryForSelectedThread _ _ _,
      fun hcomposed => hcomposed.onConversations _⟩
    dsimp only [TerminalApp.setStatus, ShellView.setStatus, withView]

/-! ### Commands -/

theorem findIdx?_getD_lt {α : Type} {rows : List α} {row : α → Bool} {index : Nat}
    (h : index < rows.length) : (rows.findIdx? row).getD index < rows.length := by
  cases hfound : rows.findIdx? row with
  | none => exact h
  | some found => exact (List.findIdx?_eq_some_iff_findIdx_eq.mp hfound).1

theorem keeps_openSandboxOverlay : Keeps app app.openSandboxOverlay.1 :=
  ⟨rfl, rfl, fun hcomposed => ((hcomposed.onPickers (findIdx?_getD_lt (by decide))
    hcomposed.picks.permission).onOverlay (by decide)).setStatus _⟩

theorem keeps_openPermissionsOverlay : Keeps app app.openPermissionsOverlay.1 :=
  ⟨rfl, rfl, fun hcomposed => ((hcomposed.onPickers hcomposed.picks.sandbox
    (findIdx?_getD_lt (by decide))).onOverlay (by decide)).setStatus _⟩

theorem keeps_configureSandbox (argument : String) :
    Keeps app (app.configureSandbox argument).1 := by
  unfold configureSandbox
  dsimp only
  split
  · exact keeps_openSandboxOverlay
  · split
    · exact keeps_setStatus _
    · split <;> exact keeps_setStatus _

theorem keeps_configurePermissions (argument : String) :
    Keeps app (app.configurePermissions argument).1 := by
  unfold configurePermissions
  dsimp only
  split
  · exact keeps_openPermissionsOverlay
  · split <;> exact keeps_setStatus _

theorem keeps_respondToFirstApproval (decision : ApprovalDecision) :
    Keeps app (app.respondToFirstApproval decision).1 := by
  unfold respondToFirstApproval
  split <;> exact keeps_setStatus _

theorem keeps_openConfigOverlay : Keeps app app.openConfigOverlay.1 :=
  (keeps_draft _).trans (@keeps_opened (app.withView _) .config (by decide) _)

/-- No command touches the input. -/
theorem keeps_runCommand (command argument : String) :
    Keeps app (app.runCommand command argument).1 := by
  unfold runCommand
  split
  case h_1 | h_4 | h_5 | h_6 | h_21 => exact keeps_opened (by decide) _
  case h_2 | h_3 => exact keeps_openConfigOverlay
  case h_7 | h_8 => exact keeps_startNewThread _
  case h_9 =>
    unfold resumeSelectedThread
    split <;> exact keeps_setStatus _
  case h_10 | h_12 | h_13 => exact keeps_withSelected fun _ => keeps_setStatus _
  case h_11 =>
    unfold searchMemory
    split
    · exact keeps_setStatus _
    · exact keeps_opened (by decide) _
  case h_14 => exact keeps_configureSandbox argument
  case h_15 => exact keeps_configurePermissions argument
  case h_16 | h_17 => exact keeps_respondToFirstApproval _
  case h_18 =>
    unfold cancelSelectedTurn
    split
    · exact keeps_setStatus _
    · split <;> exact keeps_setStatus _
  case h_19 | h_20 => exact ⟨rfl, rfl, fun hcomposed => hcomposed.setStatus _⟩

/-! ### The input -/

theorem keeps_edit (inputBuffer : String) :
    Keeps app (app.withView (app.view.edit inputBuffer)) := by
  obtain ⟨-, hhistory, -, -, -, hviewModel⟩ := refresh_fields
    { app.view.clearInputHistorySelection with inputBuffer := inputBuffer }
  exact ⟨hhistory, congrArg ViewModel.pendingApprovals hviewModel,
    fun hcomposed => hcomposed.edit _⟩

theorem keeps_recall {recalled : ShellView} (h : app.view.recallPreviousInput = some recalled) :
    Keeps app (app.withView recalled) := by
  by_cases hhistory : app.view.inputHistory = []
  · rw [recallPreviousInput, if_pos (by simpa using hhistory)] at h
    cases h
  · have hrecalled := h
    rw [recallPreviousInput_eq hhistory, Option.map_eq_some_iff] at hrecalled
    obtain ⟨entry, -, rfl⟩ := hrecalled
    obtain ⟨-, hhistory, -, -, -, hviewModel⟩ := refresh_fields
      { app.view with inputHistoryIndex := some app.view.recalledIndex, inputBuffer := entry }
    exact ⟨hhistory, congrArg ViewModel.pendingApprovals hviewModel,
      fun hcomposed => hcomposed.recall h⟩

theorem keeps_accept (hslash : Composed app.view → app.view.slashMode = true) {accepted : ShellView}
    (h : app.view.acceptCommandSuggestion = some accepted) : Keeps app (app.withView accepted) := by
  have haccepted := h
  rw [acceptCommandSuggestion, Option.map_eq_some_iff] at haccepted
  obtain ⟨suggestion, -, rfl⟩ := haccepted
  obtain ⟨-, hhistory, -, -, -, hviewModel⟩ := refresh_fields
    { app.view with
      inputBuffer :=
        if (remainderOf (trimStart app.view.inputBuffer)).isEmpty then
          "/" ++ suggestion.spec.name ++ " "
        else "/" ++ suggestion.spec.name ++ " " ++ remainderOf (trimStart app.view.inputBuffer) }
  exact ⟨hhistory, congrArg ViewModel.pendingApprovals hviewModel,
    fun hcomposed => hcomposed.accept (hslash hcomposed) h⟩

/-- What has been recalled is a message and does not start with a slash. -/
theorem keeps_takeInput (hslash : (Text.trim app.view.inputBuffer).toList.head? = some '/') :
    Keeps app (app.withView app.view.takeInput) := by
  obtain ⟨-, -, hhistory, -, -, -, hviewModel⟩ := takeInput_fields app.view
  refine ⟨hhistory, congrArg ViewModel.pendingApprovals hviewModel, fun hcomposed => ?_⟩
  refine hcomposed.takeInput ?_
  cases hindex : app.view.inputHistoryIndex with
  | none => rfl
  | some index =>
      have hmessage := hcomposed.recalls.messages _
        (List.mem_of_getElem? (hcomposed.recalls.recalled index hindex))
      rw [hmessage.trimmed] at hslash
      exact absurd hslash hmessage.plain

/-! ### Panels -/

theorem keeps_handleConfigKey (key : KeyEvent) : Keeps app (app.handleConfigKey key).1 := by
  unfold handleConfigKey
  split
  case h_1 => exact keeps_closed _
  case h_8 =>
    split
    · unfold saveConfigDraft
      split
      · exact keeps_setStatus _
      · exact ⟨rfl, rfl, fun hcomposed => ShellView.Composed.setStatus (hcomposed.onPanels ..) _⟩
    · split
      · exact keeps_draft _
      · exact .refl _
  case h_9 => exact .refl _
  all_goals exact keeps_draft _

theorem keeps_handleThreadsOverlayKey (key : KeyEvent) :
    Keeps app (app.handleThreadsOverlayKey key).1 := by
  unfold handleThreadsOverlayKey
  split
  case h_1 => exact keeps_closed _
  case h_4 =>
    have hloaded := @keeps_onConversations (app.withView app.view.closeOverlay) _
      (pendingApprovals_loadSelectedThreadSurfaces (app.withView app.view.closeOverlay).conversations)
    exact (keeps_closeOverlay.trans hloaded).setStatus _
  case h_5 => exact .refl _
  all_goals exact ⟨rfl, rfl, fun hcomposed => hcomposed.onConversations _⟩

theorem keeps_handleSandboxOverlayKey (key : KeyEvent) :
    Keeps app (app.handleSandboxOverlayKey key).1 := by
  unfold handleSandboxOverlayKey
  split
  case h_1 => exact keeps_closed _
  case h_2 => exact ⟨rfl, rfl, fun hcomposed => hcomposed.onPickers
    (previousRow_lt hcomposed.picks.sandbox) hcomposed.picks.permission⟩
  case h_5 => exact keeps_closeOverlay.setStatus _
  case h_6 => exact .refl _
  all_goals exact ⟨rfl, rfl, fun hcomposed => hcomposed.onPickers
    (nextRow_lt (by decide) _) hcomposed.picks.permission⟩

theorem keeps_handlePermissionsOverlayKey (key : KeyEvent) :
    Keeps app (app.handlePermissionsOverlayKey key).1 := by
  unfold handlePermissionsOverlayKey
  split
  case h_1 => exact keeps_closed _
  case h_2 => exact ⟨rfl, rfl, fun hcomposed => hcomposed.onPickers
    hcomposed.picks.sandbox (previousRow_lt hcomposed.picks.permission)⟩
  case h_5 => exact keeps_closeOverlay.setStatus _
  case h_6 => exact .refl _
  all_goals exact ⟨rfl, rfl, fun hcomposed => hcomposed.onPickers
    hcomposed.picks.sandbox (nextRow_lt (by decide) _)⟩

/-! ### Messages -/

/-- No panel has taken the keys. -/
def composes (app : TerminalApp) : Bool :=
  match app.view.activeOverlay with
  | some .config | some .threads | some .sandbox | some .permissions => false
  | _ => true

/-- The message that a key sends. -/
def submitted (app : TerminalApp) : TerminalInput → Option String
  | .key key =>
      let input := Text.trim app.view.inputBuffer
      if key.press = true ∧ key.code = .enter ∧ key.modifiers.shift = false ∧
          app.composes = true ∧ input.isEmpty = false ∧ input.toList.head? ≠ some '/' then some input
      else none
  | _ => none

/-- The messages that are sent in a run. -/
def submissions (app : TerminalApp) : List TerminalInput → List String
  | [] => []
  | input :: rest => (app.submitted input).toList ++ (app.step input).submissions rest

theorem composes_of_not (hconfig : app.view.activeOverlay ≠ some .config)
    (hthreads : app.view.activeOverlay ≠ some .threads)
    (hsandbox : app.view.activeOverlay ≠ some .sandbox)
    (hpermissions : app.view.activeOverlay ≠ some .permissions) : app.composes = true := by
  unfold composes
  split
  · exact absurd ‹_› hconfig
  · exact absurd ‹_› hthreads
  · exact absurd ‹_› hsandbox
  · exact absurd ‹_› hpermissions
  · rfl

theorem handleKey_composes {key : KeyEvent} (hpress : key.press = true)
    (hcode : key.code ≠ .char 'c') (hcomposes : app.composes = true) :
    app.handleKey key = app.handleComposerKey key := by
  rw [handleKey, if_neg (by simp [hpress]), if_neg fun h => hcode h.2]
  cases hoverlay : app.view.activeOverlay with
  | none => rfl
  | some panel =>
      rw [composes, hoverlay] at hcomposes
      cases panel with
      | config | threads | sandbox | permissions => cases hcomposes
      | help | memory | status | commandPalette => rfl

/-- Enter sends the message, and it can be recalled from then on. -/
theorem handleKey_submitted {key : KeyEvent} {text : String}
    (h : app.submitted (.key key) = some text) :
    IsMessage text ∧ app.handleKey key =
      (app.withView (app.view.takeInput.recordInputHistory text)).sendMessage text := by
  rw [submitted, Option.ite_none_right_eq_some] at h
  obtain ⟨⟨hpress, hcode, hshift, hcomposes, hinput, hplain⟩, htext⟩ := h
  obtain rfl := Option.some.inj htext
  refine ⟨isMessage_trim hinput hplain, ?_⟩
  rw [handleKey_composes hpress (by simp [hcode]) hcomposes, handleComposerKey, hcode]
  dsimp only
  rw [if_neg (by simp [hshift]), handleEnter, if_neg fun h => hplain h.2.2.1,
    if_neg (by simp [Text.isBlank, hinput]), submitInput, if_neg (by simp [hinput]),
    if_neg hplain]

theorem keeps_submitInput
    (h : (Text.trim app.view.inputBuffer).isEmpty = false →
      (Text.trim app.view.inputBuffer).toList.head? = some '/') :
    Keeps app app.submitInput.1 := by
  unfold submitInput
  dsimp only
  split
  · exact keeps_setStatus _
  · rename_i hinput
    have hslash := h (by simpa using hinput)
    rw [if_pos hslash, handleSlashCommand]
    exact (keeps_takeInput hslash).trans (keeps_runCommand _ _)

theorem keeps_handleEnter
    (h : (Text.trim app.view.inputBuffer).isEmpty = false →
      (Text.trim app.view.inputBuffer).toList.head? = some '/') :
    Keeps app app.handleEnter.1 := by
  unfold handleEnter
  split
  · rename_i hcompleting
    cases haccepted : app.view.acceptCommandSuggestion with
    | none => exact .refl _
    | some accepted =>
        have hsome : app.view.commandSuggestions ≠ [] := by simpa using hcompleting.2.1
        exact keeps_accept (fun hcomposed => hcomposed.completes.slashMode_of_some hsome) haccepted
  · split
    · exact keeps_respondToFirstApproval _
    · exact keeps_submitInput h

theorem keeps_handleComposerKey {key : KeyEvent}
    (h : key.code = .enter → key.modifiers.shift = false →
      (Text.trim app.view.inputBuffer).isEmpty = false →
        (Text.trim app.view.inputBuffer).toList.head? = some '/') :
    Keeps app (app.handleComposerKey key).1 := by
  unfold handleComposerKey
  split
  · split
    · exact keeps_respondToFirstApproval _
    · split
      · exact keeps_closed _
      · split
        · exact (keeps_edit "").setStatus _
        · exact .refl _
  · split
    · exact ⟨rfl, rfl, fun hcomposed => hcomposed.selectPreviousCommand⟩
    · split
      · rename_i hrecalled
        exact (keeps_recall hrecalled).setStatus _
      · exact keeps_setStatus _
  · split
    · exact ⟨rfl, rfl, fun hcomposed => hcomposed.selectNextCommand⟩
    · exact .refl _
  · split
    · rename_i accepted haccepted
      rw [Option.ite_none_right_eq_some] at haccepted
      exact (keeps_accept (fun _ => haccepted.1) haccepted.2).setStatus _
    · exact .refl _
  · rename_i hcode
    split
    · exact keeps_edit _
    · rename_i hshift
      exact keeps_handleEnter (h hcode (by simpa using hshift))
  · exact keeps_edit _
  · split
    · exact keeps_opened (by decide) _
    · split
      · exact keeps_edit _
      · exact .refl _
  · exact .refl _

/-- Every key that sends no message leaves what can be recalled alone. -/
theorem keeps_handleKey {key : KeyEvent} (h : app.submitted (.key key) = none) :
    Keeps app (app.handleKey key).1 := by
  unfold handleKey
  split
  · exact .refl _
  rename_i hpress
  split
  · exact ⟨rfl, rfl, id⟩
  split
  · exact keeps_handleConfigKey key
  · exact keeps_handleThreadsOverlayKey key
  · exact keeps_handleSandboxOverlayKey key
  · exact keeps_handlePermissionsOverlayKey key
  · rename_i hconfig hthreads hsandbox hpermissions
    refine keeps_handleComposerKey fun hcode hshift hinput => ?_
    by_contra hplain
    have hcomposes := composes_of_not hconfig hthreads hsandbox hpermissions
    rw [submitted, if_pos ⟨by simpa using hpress, hcode, hshift, hcomposes, hinput, hplain⟩] at h
    cases h

end Keeps

/-! ### One step -/

theorem composed_receiveResponse {app : TerminalApp} (h : Composed app.view)
    (response : TerminalResponse) : Composed (app.receiveResponse response).1.view := by
  unfold receiveResponse
  split
  · exact h.onConversations _
  · rename_i hits
    have hhits : Composed { app.view with recallHits := hits } := h.onPanels ..
    have hopened : Composed { app.view with recallHits := hits, activeOverlay := some .memory } :=
      hhits.onOverlay (by decide)
    exact hopened.setStatus _
  · exact ShellView.Composed.setStatus (h.onPanels ..) _
  · exact ShellView.Composed.setStatus (h.onPanels ..) _
  · exact ShellView.Composed.setStatus (h.onPanels ..) _

theorem composed_step {app : TerminalApp} (h : Composed app.view) (input : TerminalInput) :
    Composed (app.step input).view := by
  cases input with
  | key key =>
      cases hsubmitted : app.submitted (.key key) with
      | none => exact (keeps_handleKey hsubmitted).composed h
      | some text =>
          obtain ⟨hmessage, hkey⟩ := handleKey_submitted hsubmitted
          rw [step, act, hkey]
          have htaken : Composed
              (app.withView (app.view.takeInput.recordInputHistory text)).view := by
            rw [withView_view]
            exact h.takeInput_record hmessage
          exact (keeps_sendMessage text).composed htaken
  | response response => exact composed_receiveResponse h response
  | event event => exact h.onConversations _
  | configWritten config => exact h

theorem composed_run (inputs : List TerminalInput) {app : TerminalApp} (h : Composed app.view) :
    Composed (inputs.foldl step app).view := by
  induction inputs generalizing app with
  | nil => exact h
  | cons input rest ih => exact ih (composed_step h input)

/-! ### What can be recalled -/

theorem inputHistory_receiveResponse (app : TerminalApp) (response : TerminalResponse) :
    (app.receiveResponse response).1.view.inputHistory = app.view.inputHistory := by
  unfold receiveResponse
  split <;> rfl

theorem toViewModel_recordInputHistory (view : ShellView) (input : String) :
    (view.recordInputHistory input).toViewModel = view.toViewModel := by
  unfold recordInputHistory
  dsimp only
  split
  · rfl
  · split <;> rfl

theorem recordInputHistory_inputHistory {view : ShellView} {input : String}
    (h : IsMessage input) : (view.recordInputHistory input).inputHistory =
      Recent.remember maxInputHistoryEntries view.inputHistory input := by
  rw [recordInputHistory, h.trimmed, if_neg (by simpa using h.nonempty), Recent.remember]
  split
  · rfl
  · rfl

theorem inputHistory_step (app : TerminalApp) (input : TerminalInput) :
    (app.step input).view.inputHistory = (app.submitted input).toList.foldl
      (Recent.remember maxInputHistoryEntries) app.view.inputHistory := by
  cases input with
  | key key =>
      cases hsubmitted : app.submitted (.key key) with
      | none => exact (keeps_handleKey hsubmitted).history
      | some text =>
          obtain ⟨hmessage, hkey⟩ := handleKey_submitted hsubmitted
          have hhistory : app.view.takeInput.inputHistory = app.view.inputHistory :=
            (takeInput_fields app.view).2.2.1
          rw [step, act, hkey, (keeps_sendMessage text).history, withView_view,
            recordInputHistory_inputHistory hmessage, hhistory]
          rfl
  | response response => exact inputHistory_receiveResponse app response
  | event event => rfl
  | configWritten config => rfl

theorem inputHistory_run (inputs : List TerminalInput) (app : TerminalApp) :
    (inputs.foldl step app).view.inputHistory = (app.submissions inputs).foldl
      (Recent.remember maxInputHistoryEntries) app.view.inputHistory := by
  induction inputs generalizing app with
  | nil => rfl
  | cons input rest ih =>
      rw [List.foldl_cons, ih, inputHistory_step, submissions, List.foldl_append]

/-! ### Runs -/

/-- The client after so much has happened. -/
def reached (config : LizConfigFile) (inputs : List TerminalInput) : TerminalApp :=
  inputs.foldl step (new config)

theorem composed_reached (config : LizConfigFile) (inputs : List TerminalInput) :
    Composed (reached config inputs).view :=
  composed_run inputs (composed_default.setStatus _)

theorem inputHistory_reached (config : LizConfigFile) (inputs : List TerminalInput) :
    (reached config inputs).view.inputHistory =
      (((new config).submissions inputs).foldl (Recent.push 1) []).rtake maxInputHistoryEntries := by
  rw [reached, inputHistory_run, ← Recent.foldl_remember (by decide)]
  rfl

/-- In every run the completions are those of the input and one of them is selected, the message
that is being recalled is the one in the input, and what can be recalled are the last hundred
messages without repetitions. An arrow never goes to a message that is not there, and a palette
that is open always completes. -/
theorem composer_runs (config : LizConfigFile) (inputs : List TerminalInput) :
    Composed (reached config inputs).view ∧
      (reached config inputs).view.inputHistory =
        (((new config).submissions inputs).foldl (Recent.push 1) []).rtake 100 ∧
      ((reached config inputs).view.recallPreviousInput = none ↔
        (reached config inputs).view.inputHistory = []) ∧
      ((reached config inputs).view.acceptCommandSuggestion = none ↔
        (reached config inputs).view.commandSuggestions = []) := by
  have hcomposed := composed_reached config inputs
  refine ⟨hcomposed, inputHistory_reached config inputs, ⟨fun hnone => ?_, fun hempty => ?_⟩,
    ⟨fun hnone => ?_, fun hempty => ?_⟩⟩
  · by_contra hhistory
    rw [recallPreviousInput_eq hhistory, List.getElem?_eq_getElem
      (hcomposed.recalls.recalledIndex_lt hhistory)] at hnone
    cases hnone
  · rw [recallPreviousInput, if_pos (by simp [hempty])]
  · by_contra hsome
    rw [acceptCommandSuggestion, Option.map_eq_none_iff, selectedCommandSuggestion,
      List.getElem?_eq_none_iff] at hnone
    have := hcomposed.completes.selected hsome
    omega
  · rw [acceptCommandSuggestion, Option.map_eq_none_iff, selectedCommandSuggestion, hempty]
    rfl

end TerminalApp

end Liz
