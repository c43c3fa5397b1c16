import Liz.Proof.ComposerRuns

/-!
# What the terminal decides

The terminal answers an approval and changes what the agent may do on a key only, and each of these
requests has one key that sends it. What it answers is the first request of those that the server
has sent and has not said to be resolved since.
-/

namespace Liz

/-- Answers an approval, or changes what the agent may do. -/
def TerminalRequest.decides : TerminalRequest → Bool
  | .approvalRespond .. | .runtimeConfigUpdate .. => true
  | _ => false

/-- The shell stays in a sandbox that restricts the network. -/
def TerminalRequest.confines : TerminalRequest → Bool
  | .runtimeConfigUpdate (some sandbox) _ =>
      sandbox.mode != .dangerFullAccess && sandbox.networkAccess == .restricted
  | _ => true

namespace TerminalApp

open ShellView

/-! ### Keys that decide -/

def sandboxRequest (mode : SandboxMode) : TerminalRequest :=
  .runtimeConfigUpdate (some { mode := mode, networkAccess := .restricted }) none

def permissionsRequest (policy : ApprovalPolicy) : TerminalRequest :=
  .runtimeConfigUpdate none (some policy)

section Decisions

variable (app : TerminalApp)

/-- The answer to the approval that has been waiting for the longest time. -/
def answer (decision : ApprovalDecision) : Option TerminalRequest :=
  app.view.pendingApprovals.head?.map fun approval => .approvalRespond approval.id decision

/-- Commands that decide something. -/
def commandDecision (command argument : String) : Option TerminalRequest :=
  match command with
  | "/approve" => app.answer .approveOnce
  | "/deny" => app.answer .deny
  | "/sandbox" => (parseSandboxMode (firstWord argument)).map sandboxRequest
  | "/permissions" => (parseApprovalPolicy (firstWord argument)).map permissionsRequest
  | _ => none

/-- Enter would complete the command first. -/
def completes : Prop :=
  app.view.commandPaletteIsOpen ∧ app.view.commandSuggestions.isEmpty = false ∧
    (Text.trim app.view.inputBuffer).toList.head? = some '/' ∧
      app.view.hasExactSlashCommand = false

instance : Decidable app.completes := inferInstanceAs (Decidable (_ ∧ _))

/-- Enter in the composer approves where nothing is typed, and runs a command. -/
def enterDecision : Option TerminalRequest :=
  let input := Text.trim app.view.inputBuffer
  if Text.isBlank app.view.inputBuffer then app.answer .approveOnce
  else if input.toList.head? = some '/' ∧ ¬ app.completes then
    app.commandDecision (CliApp.splitCommand input).1 (CliApp.splitCommand input).2
  else none

/-- Enter in a picker takes the row that is selected. -/
def pickerDecision : Option TerminalRequest :=
  match app.view.activeOverlay with
  | some .sandbox => some (sandboxRequest app.view.selectedSandboxMode)
  | some .permissions => some (permissionsRequest app.view.selectedPermissionPolicy)
  | _ => none

def keyDecision (key : KeyEvent) : Option TerminalRequest :=
  match key.code with
  | .esc => if app.composes then app.answer .deny else none
  | .enter =>
      if app.composes then if key.modifiers.shift then none else app.enterDecision
      else app.pickerDecision
  | _ => none

/-- What is decided by what happens to the terminal. -/
def decision : TerminalInput → Option TerminalRequest
  | .key key => if key.press then app.keyDecision key else none
  | _ => none

end Decisions

/-! ### Commands -/

/-- What is sent decides this, if anything. -/
def DecidesOnly (outcome : TerminalOutcome) (decision : Option TerminalRequest) : Prop :=
  outcome.2.filter TerminalRequest.decides = decision.toList

section Commands

variable {app : TerminalApp}

theorem routine_onConversations (outcome : CliApp × List CliRequest) :
    DecidesOnly (app.onConversations outcome) none := by
  refine List.filter_eq_nil_iff.mpr fun request hrequest => ?_
  obtain ⟨sent, -, rfl⟩ := List.mem_map.mp hrequest
  exact Bool.false_ne_true

theorem routine_startNewThread (argument : String) :
    DecidesOnly (app.startNewThread argument) none := by
  unfold startNewThread
  dsimp only
  split <;> exact @routine_onConversations app _

theorem routine_withSelected {send : ThreadId → TerminalOutcome}
    (hsend : ∀ threadId, DecidesOnly (send threadId) none) :
    DecidesOnly (app.withSelected send) none := by
  unfold withSelected
  split
  · rfl
  · exact hsend _

theorem routine_openMemoryOverlay : DecidesOnly app.openMemoryOverlay none :=
  @routine_onConversations app (app.conversations, .memoryListTopics :: _)

theorem answer_of_none {decision : ApprovalDecision}
    (h : ¬ app.view.pendingApprovals.isEmpty = false) : app.answer decision = none := by
  have hnone : app.view.pendingApprovals = [] := by simpa using h
  rw [answer, hnone]
  rfl

theorem decides_respondToFirstApproval (decision : ApprovalDecision) :
    DecidesOnly (app.respondToFirstApproval decision) (app.answer decision) := by
  unfold respondToFirstApproval answer
  cases app.view.pendingApprovals.head? <;> rfl

theorem decides_configureSandbox (argument : String) :
    DecidesOnly (app.configureSandbox argument)
      ((parseSandboxMode (firstWord argument)).map sandboxRequest) := by
  unfold configureSandbox
  dsimp only
  split
  · rename_i hempty
    have hnone : parseSandboxMode "" = none := by decide +kernel
    rw [String.isEmpty_iff.mp hempty, hnone]
    rfl
  · cases parseSandboxMode (firstWord argument) with
    | some mode => rfl
    | none =>
        dsimp only
        split <;> rfl

theorem decides_configurePermissions (argument : String) :
    DecidesOnly (app.configurePermissions argument)
      ((parseApprovalPolicy (firstWord argument)).map permissionsRequest) := by
  unfold configurePermissions
  dsimp only
  split
  · rename_i hempty
    have hnone : parseApprovalPolicy "" = none := by decide +kernel
    rw [String.isEmpty_iff.mp hempty, hnone]
    rfl
  · cases parseApprovalPolicy (firstWord argument) <;> rfl

/-- The other commands decide nothing. -/
theorem commandDecision_of_ne {command : String} (h : ¬ (command = "/approve" ∨
    command = "/deny" ∨ command = "/sandbox" ∨ command = "/permissions")) (argument : String) :
    app.commandDecision command argument = none := by
  unfold commandDecision
  split
  case h_5 => rfl
  all_goals exact absurd (by decide) h

theorem routine_command {outcome : TerminalOutcome} (hroutine : DecidesOnly outcome none)
    {command argument : String} (h : ¬ (command = "/approve" ∨ command = "/deny" ∨
      command = "/sandbox" ∨ command = "/permissions")) :
    DecidesOnly outcome (app.commandDecision command argument) := by
  rwa [commandDecision_of_ne h]

theorem decides_runCommand (command argument : String) :
    DecidesOnly (app.runCommand command argument) (app.commandDecision command argument) := by
  unfold runCommand
  split
  case h_5 => exact routine_command routine_openMemoryOverlay (by decide)
  case h_7 | h_8 => exact routine_command (routine_startNewThread _) (by decide)
  case h_9 =>
    refine routine_command ?_ (by decide)
    unfold resumeSelectedThread
    split <;> rfl
  case h_10 | h_12 | h_13 =>
    refine routine_command (routine_withSelected fun _ => ?_) (by decide)
    rfl
  case h_11 =>
    refine routine_command ?_ (by decide)
    unfold searchMemory
    split <;> rfl
  case h_14 => exact decides_configureSandbox argument
  case h_15 => exact decides_configurePermissions argument
  case h_16 | h_17 => exact decides_respondToFirstApproval _
  case h_18 =>
    refine routine_command ?_ (by decide)
    unfold cancelSelectedTurn
    split
    · rfl
    · split <;> rfl
  case h_21 =>
    refine routine_command ?_ ?_
    · rfl
    · rintro (rfl | rfl | rfl | rfl)
      all_goals simp_all
  all_goals
    refine routine_command ?_ (by decide)
    rfl

theorem commandDecision_congr {next : TerminalApp}
    (h : next.view.pendingApprovals = app.view.pendingApprovals) (command argument : String) :
    next.commandDecision command argument = app.commandDecision command argument := by
  unfold commandDecision answer
  rw [h]

end Commands

/-! ### Keys -/

section Keys

variable {app : TerminalApp}

theorem routine_sendMessage (input : String) : DecidesOnly (app.sendMessage input) none := by
  unfold sendMessage
  split
  · exact routine_onConversations _
  · rfl

theorem decides_handleEnter : DecidesOnly app.handleEnter app.enterDecision := by
  unfold handleEnter enterDecision
  dsimp only
  split
  · rename_i hcompletes
    rw [if_neg fun hempty => ?_, if_neg fun h => h.2 hcompletes]
    · rfl
    · have hslash := hcompletes.2.2.1
      rw [String.isEmpty_iff.mp hempty] at hslash
      cases hslash
  rename_i hcompletes
  split
  · rename_i hblank
    rw [if_pos hblank.2]
    exact decides_respondToFirstApproval _
  rename_i hblank
  unfold submitInput
  dsimp only
  by_cases hempty : Text.isBlank app.view.inputBuffer = true
  · rw [if_pos hempty, if_pos (by exact hempty),
      answer_of_none fun hwaits => hblank ⟨hwaits, hempty⟩]
    rfl
  rw [if_neg hempty, if_neg (by exact hempty)]
  split
  · rename_i hslash
    rw [if_pos ⟨hslash, hcompletes⟩, handleSlashCommand,
      ← commandDecision_congr (keeps_takeInput hslash).approvals]
    exact decides_runCommand _ _
  · rename_i hplain
    rw [if_neg fun h => hplain h.1]
    exact routine_sendMessage _

theorem routine_handleConfigKey (key : KeyEvent) : DecidesOnly (app.handleConfigKey key) none := by
  unfold handleConfigKey
  split
  case h_8 =>
    split
    · unfold saveConfigDraft
      split <;> rfl
    · split <;> rfl
  all_goals rfl

theorem routine_handleThreadsOverlayKey (key : KeyEvent) :
    DecidesOnly (app.handleThreadsOverlayKey key) none := by
  unfold handleThreadsOverlayKey
  split
  case h_4 => exact @routine_onConversations (app.withView app.view.closeOverlay) _
  all_goals rfl

/-- In the composer escape denies, and enter approves or runs a command. -/
theorem decides_handleComposerKey (hcomposes : app.composes = true) (key : KeyEvent) :
    DecidesOnly (app.handleComposerKey key) (app.keyDecision key) := by
  unfold handleComposerKey keyDecision
  cases key.code with
  | esc =>
      dsimp only
      rw [if_pos hcomposes]
      split
      · exact decides_respondToFirstApproval _
      · rename_i hwaits
        rw [answer_of_none hwaits]
        split
        · rfl
        · split <;> rfl
  | enter =>
      dsimp only
      rw [if_pos hcomposes]
      split
      · rfl
      · exact decides_handleEnter
  | up | char =>
      dsimp only
      split
      · rfl
      · split <;> rfl
  | down | tab =>
      dsimp only
      split <;> rfl
  | left | right | backspace | other => rfl

/-- A panel leaves escape to close it. -/
theorem keyDecision_of_panel (hpanel : app.composes = false) (key : KeyEvent) :
    app.keyDecision key = if key.code = .enter then app.pickerDecision else none := by
  unfold keyDecision
  cases key.code <;> simp [hpanel]

theorem decides_handleKey (key : KeyEvent) :
    DecidesOnly (app.handleKey key) (if key.press then app.keyDecision key else none) := by
  unfold handleKey
  split
  · rename_i hpress
    rw [hpress]
    rfl
  rename_i hpress
  have hpressed : key.press = true := by simpa using hpress
  rw [hpressed, if_pos rfl]
  split
  · rename_i hquit
    unfold keyDecision
    rw [hquit.2]
    rfl
  cases hoverlay : app.view.activeOverlay with
  | none =>
      exact decides_handleComposerKey (by rw [composes, hoverlay]) key
  | some panel =>
      cases panel with
      | help | memory | status | commandPalette =>
          exact decides_handleComposerKey (by rw [composes, hoverlay]) key
      | config =>
          rw [keyDecision_of_panel (by rw [composes, hoverlay]), pickerDecision, hoverlay,
            ite_self]
          exact routine_handleConfigKey key
      | threads =>
          rw [keyDecision_of_panel (by rw [composes, hoverlay]), pickerDecision, hoverlay,
            ite_self]
          exact routine_handleThreadsOverlayKey key
      | sandbox =>
          rw [keyDecision_of_panel (by rw [composes, hoverlay]), pickerDecision, hoverlay]
          dsimp only
          unfold handleSandboxOverlayKey
          cases key.code <;> rfl
      | permissions =>
          rw [keyDecision_of_panel (by rw [composes, hoverlay]), pickerDecision, hoverlay]
          dsimp only
          unfold handlePermissionsOverlayKey
          cases key.code <;> rfl

end Keys

theorem routine_receiveResponse (app : TerminalApp) (response : TerminalResponse) :
    DecidesOnly (app.receiveResponse response) none := by
  unfold receiveResponse
  split
  case h_1 => exact routine_onConversations _
  case h_2 hits =>
    cases hits with
    | nil => rfl
    | cons hit rest =>
        change (expandSearchHit hit).filter TerminalRequest.decides = []
        unfold expandSearchHit
        split
        · rfl
        · split <;> rfl
  all_goals rfl

/-- Only keys decide. -/
theorem decides_act (app : TerminalApp) (input : TerminalInput) :
    DecidesOnly (app.act input) (app.decision input) := by
  cases input with
  | key key => exact decides_handleKey key
  | response response => exact routine_receiveResponse app response
  | event event => exact routine_onConversations _
  | configWritten config => rfl

/-! ### The sandbox -/

theorem selectedSandboxMode_ne (view : ShellView) :
    view.selectedSandboxMode ≠ .dangerFullAccess := by
  rw [ShellView.selectedSandboxMode]
  cases hmode : sandboxModes[view.selectedSandboxIndex]? with
  | none => simp
  | some mode =>
      have hmem := List.mem_of_getElem? hmode
      rw [Option.getD_some]
      rintro rfl
      revert hmem
      decide

theorem parseSandboxMode_ne {value : String} {mode : SandboxMode}
    (h : parseSandboxMode value = some mode) : mode ≠ .dangerFullAccess := by
  unfold parseSandboxMode at h
  split at h <;> cases h <;> decide

theorem confines_commandDecision {app : TerminalApp} {command argument : String}
    {request : TerminalRequest} (h : app.commandDecision command argument = some request) :
    request.confines = true := by
  unfold commandDecision answer at h
  split at h
  case h_5 => cases h
  case h_3 =>
    obtain ⟨mode, hmode, rfl⟩ := Option.map_eq_some_iff.mp h
    simp [sandboxRequest, TerminalRequest.confines, parseSandboxMode_ne hmode]
  all_goals
    obtain ⟨_, -, rfl⟩ := Option.map_eq_some_iff.mp h
    rfl

theorem confines_answer {app : TerminalApp} {decision : ApprovalDecision}
    {request : TerminalRequest} (h : app.answer decision = some request) :
    request.confines = true := by
  obtain ⟨approval, -, rfl⟩ := Option.map_eq_some_iff.mp h
  rfl

theorem confines_keyDecision {app : TerminalApp} {key : KeyEvent} {request : TerminalRequest}
    (h : app.keyDecision key = some request) : request.confines = true := by
  unfold keyDecision at h
  split at h
  · exact confines_answer (Option.ite_none_right_eq_some.mp h).2
  · split at h
    · rw [Option.ite_none_left_eq_some] at h
      have hdecision := h.2
      unfold enterDecision at hdecision
      dsimp only at hdecision
      split at hdecision
      · exact confines_answer hdecision
      · exact confines_commandDecision (Option.ite_none_right_eq_some.mp hdecision).2
    · unfold pickerDecision at h
      split at h
      · obtain rfl := Option.some.inj h
        have hmode := selectedSandboxMode_ne app.view
        simp [sandboxRequest, TerminalRequest.confines, hmode]
      · obtain rfl := Option.some.inj h
        rfl
      · cases h
  · cases h

/-- No request leaves the shell without a sandbox or opens the network. -/
theorem confines_act (app : TerminalApp) (input : TerminalInput) :
    (app.act input).2.all TerminalRequest.confines = true := by
  rw [List.all_eq_true]
  intro request hrequest
  cases hdecides : request.decides with
  | false => cases request <;> first | rfl | cases hdecides
  | true =>
      have hmem := List.mem_filter.mpr ⟨hrequest, hdecides⟩
      rw [decides_act app input, Option.mem_toList] at hmem
      cases input with
      | key key => exact confines_keyDecision (Option.ite_none_right_eq_some.mp hmem).2
      | response | event | configWritten => cases hmem

/-! ### Approvals that wait -/

end TerminalApp

/-- The approval that an event asks for. -/
def TerminalInput.requested : TerminalInput → Option ApprovalRequest
  | .event received =>
      match received.payload with
      | .approvalRequested approval => some approval
      | _ => none
  | _ => none

/-- The approval that the server says to be resolved. -/
def TerminalInput.resolved : TerminalInput → Option ApprovalId
  | .event received =>
      match received.payload with
      | .approvalResolved approval _ => some approval.id
      | _ => none
  | .response (.view (.approvalRespond approval)) => some approval.id
  | _ => none

/-- Whether the server still waits for the answer after this. -/
def TerminalInput.leaves (input : TerminalInput) (approval : ApprovalRequest) : Bool :=
  input.resolved != some approval.id

/-- What was asked for and has not been resolved since, in the order in which it was asked for. -/
def unresolved : List TerminalInput → List ApprovalRequest
  | [] => []
  | input :: rest =>
      (input.requested.toList.filter fun approval => rest.all (·.leaves approval)) ++
        unresolved rest

namespace TerminalApp

theorem unresolved_concat (inputs : List TerminalInput) (input : TerminalInput) :
    unresolved (inputs ++ [input]) =
      (unresolved inputs).filter input.leaves ++ input.requested.toList := by
  induction inputs with
  | nil => simp [unresolved]
  | cons first rest ih =>
      rw [List.cons_append, unresolved, unresolved, ih, List.filter_append, List.append_assoc,
        List.filter_filter]
      congr 2
      funext approval
      rw [List.all_append, List.all_cons, List.all_nil, Bool.and_true, Bool.and_comm]

theorem filter_leaves {input : TerminalInput} (h : input.resolved = none)
    (approvals : List ApprovalRequest) : approvals.filter input.leaves = approvals := by
  refine List.filter_eq_self.mpr fun approval _ => ?_
  rw [TerminalInput.leaves, h]
  rfl

theorem filter_leaves_some {input : TerminalInput} {resolved : ApprovalId}
    (h : input.resolved = some resolved) (approvals : List ApprovalRequest) :
    approvals.filter input.leaves = approvals.filter (·.id != resolved) := by
  refine List.filter_congr fun approval _ => ?_
  rw [TerminalInput.leaves, h]
  simp [bne, eq_comm]

/-- A goal that is shown is no request for an approval. -/
theorem pendingApprovals_shown (view : ViewModel) (event : ServerEvent) (goal : Option String) :
    (match goal with
      | some goal => view.pushThreadEntry event.threadId .user goal
      | none => view).pendingApprovals = view.pendingApprovals := by
  split
  · exact pendingApprovals_pushThreadEntry _ _ _ _
  · rfl

theorem pendingApprovals_applyEvent (view : ViewModel) (event : ServerEvent) :
    (view.applyEvent event).pendingApprovals =
      view.pendingApprovals.filter (TerminalInput.event event).leaves ++
        (TerminalInput.event event).requested.toList := by
  have hquiet : ∀ {next : ViewModel}, next.pendingApprovals = view.pendingApprovals →
      (TerminalInput.event event).resolved = none → (TerminalInput.event event).requested = none →
        next.pendingApprovals = view.pendingApprovals.filter (TerminalInput.event event).leaves ++
          (TerminalInput.event event).requested.toList := by
    intro next hnext hresolved hrequested
    rw [hnext, filter_leaves hresolved, hrequested, Option.toList_none, List.append_nil]
  unfold ViewModel.applyEvent
  split
  case h_17 approval hpayload =>
    have hresolved : (TerminalInput.event event).resolved = none := by
      rw [TerminalInput.resolved, hpayload]
    have hrequested : (TerminalInput.event event).requested = some approval := by
      rw [TerminalInput.requested, hpayload]
    rw [filter_leaves hresolved, hrequested]
    exact pendingApprovals_pushThreadEntry _ _ _ _
  case h_18 approval decision hpayload =>
    have hresolved : (TerminalInput.event event).resolved = some approval.id := by
      rw [TerminalInput.resolved, hpayload]
    have hrequested : (TerminalInput.event event).requested = none := by
      rw [TerminalInput.requested, hpayload]
    rw [filter_leaves_some hresolved, hrequested, Option.toList_none, List.append_nil]
    exact pendingApprovals_pushThreadEntry _ _ _ _
  all_goals
    rename_i hpayload
    refine hquiet ?_ (by rw [TerminalInput.resolved, hpayload])
      (by rw [TerminalInput.requested, hpayload])
    first
    | rfl
    | exact pendingApprovals_pushThreadEntry _ _ _ _
    | exact pendingApprovals_shown view event _

theorem pendingApprovals_attachPendingEntriesToThread (view : ViewModel) (threadId : ThreadId) :
    (view.attachPendingEntriesToThread threadId).pendingApprovals = view.pendingApprovals := by
  unfold ViewModel.attachPendingEntriesToThread
  split <;> rfl

theorem pendingApprovals_replaceThreadHistory (view : ViewModel) (session : MemorySessionView) :
    (view.replaceThreadHistory session).pendingApprovals = view.pendingApprovals := by
  unfold ViewModel.replaceThreadHistory
  dsimp only
  split <;> rfl

theorem pendingApprovals_applyResponse (view : ViewModel) (response : ViewResponse) :
    (view.applyResponse response).pendingApprovals =
      view.pendingApprovals.filter (TerminalInput.response (.view response)).leaves := by
  unfold ViewModel.applyResponse
  split
  case h_8 approval => exact (filter_leaves_some rfl _).symm
  all_goals rw [filter_leaves rfl]
  case h_1 => exact pendingApprovals_attachPendingEntriesToThread _ _
  case h_6 => exact pendingApprovals_replaceThreadHistory _ _
  case h_13 => exact pendingApprovals_pushEntryForSelectedThread _ _ _
  all_goals rfl

theorem pendingApprovals_followUpAfterResponse (conversations : CliApp) (response : ViewResponse) :
    (conversations.followUpAfterResponse response).1.viewModel = conversations.viewModel := by
  unfold CliApp.followUpAfterResponse
  split <;> rfl

theorem pendingApprovals_step (app : TerminalApp) (input : TerminalInput) :
    (app.step input).view.pendingApprovals =
      app.view.pendingApprovals.filter input.leaves ++ input.requested.toList := by
  cases input with
  | key key =>
      have hkept : (app.handleKey key).1.view.pendingApprovals = app.view.pendingApprovals := by
        cases hsubmitted : app.submitted (.key key) with
        | none => exact (keeps_handleKey hsubmitted).approvals
        | some text =>
            rw [(handleKey_submitted hsubmitted).2, (keeps_sendMessage text).approvals,
              withView_view, toViewModel_recordInputHistory]
            exact congrArg ViewModel.pendingApprovals
              (ShellView.takeInput_fields app.view).2.2.2.2.2.2
      rw [filter_leaves rfl]
      exact hkept.trans (List.append_nil _).symm
  | response response =>
      cases response with
      | view response =>
          refine Eq.trans ?_ (List.append_nil _).symm
          refine Eq.trans ?_ (pendingApprovals_applyResponse app.view.toViewModel response)
          exact congrArg ViewModel.pendingApprovals
            (pendingApprovals_followUpAfterResponse _ response)
      | memorySearch | modelStatus | runtimeConfig | providerAuthList =>
          rw [filter_leaves rfl]
          exact (List.append_nil _).symm
  | event event => exact pendingApprovals_applyEvent app.view.toViewModel event
  | configWritten config =>
      rw [filter_leaves rfl]
      exact (List.append_nil _).symm

theorem pendingApprovals_reached (config : LizConfigFile) (inputs : List TerminalInput) :
    (reached config inputs).view.pendingApprovals = unresolved inputs := by
  induction inputs using List.reverseRecOn with
  | nil => rfl
  | append_singleton inputs input ih =>
      rw [unresolved_concat, ← ih, ← pendingApprovals_step, reached, List.foldl_concat, reached]

/-- In every run what is sent answers an approval or changes what the agent may do exactly where a
key means it. The approval is the first one that the server waits for, and the shell never loses its
sandbox. -/
theorem terminal_decisions (config : LizConfigFile) (inputs : List TerminalInput)
    (input : TerminalInput) :
    ((reached config inputs).act input).2.filter TerminalRequest.decides =
        ((reached config inputs).decision input).toList ∧
      (reached config inputs).view.pendingApprovals = unresolved inputs ∧
      ((reached config inputs).act input).2.all TerminalRequest.confines = true :=
  ⟨decides_act _ input, pendingApprovals_reached config inputs, confines_act _ input⟩

end TerminalApp

end Liz
