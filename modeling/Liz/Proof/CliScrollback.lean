import Liz.Cli.Renderer
import Liz.Proof.CliActiveThread
import Liz.Proof.CliTranscripts

/-!
# The scrollback of the terminal client

What is printed stays printed. So the scrollback is the transcript exactly when the transcript has
only grown at its end from one rendering to the next. Almost everything that happens to the client
makes it grow so; a session that is loaded puts its history in front.
-/

namespace Liz

/-- The client with what it has printed. -/
structure Screen where
  app : CliApp
  state : TerminalRenderState
  scrollback : List TranscriptEntry

inductive ScreenStep
  | change (step : TerminalStep)
  | render
  deriving DecidableEq

namespace Screen

/-- Nothing has been printed yet. -/
def fresh (app : CliApp) : Screen :=
  { app := app, state := TerminalRenderState.default, scrollback := [] }

def step (screen : Screen) : ScreenStep → Screen
  | .change step => { screen with app := screen.app.shell step }
  | .render =>
      let (written, state) := renderIncremental screen.app.viewModel screen.state
      { screen with state := state, scrollback := screen.scrollback ++ written }

/-- The selected thread does not change. -/
def KeepsThread (screen : Screen) : ScreenStep → Prop
  | .change step => (screen.app.shell step).active = screen.app.active
  | .render => True

end Screen

/-- The transcripts at the renderings of a run. -/
def drawnLists (app : CliApp) : List ScreenStep → List (List TranscriptEntry)
  | [] => []
  | .change step :: rest => drawnLists (app.shell step) rest
  | .render :: rest => app.viewModel.transcriptEntries :: drawnLists app rest

namespace Screen

variable {screen : Screen}

/-- The renderer is about the selected thread, or has rendered nothing. -/
def Projects (screen : Screen) : Prop :=
  screen.state.activeThreadId = screen.app.active ∨ screen.state.renderedEntries = []

def copy (screen : Screen) : Prefixes.Copy TranscriptEntry :=
  { written := screen.scrollback, last := screen.state.renderedEntries }

/-- The scrollback is a copy that a rendering brings up to date. -/
theorem copy_render (h : screen.Projects) :
    (screen.step .render).copy = screen.copy.update screen.app.viewModel.transcriptEntries := by
  have hsync : (syncRenderProjection screen.state screen.app.viewModel.selectedThreadId
      screen.app.viewModel.transcriptEntries).renderedEntries = screen.state.renderedEntries := by
    unfold syncRenderProjection
    split
    · rfl
    · rename_i hother
      have hempty := h.resolve_left fun heq => hother heq.symm
      simp [hempty]
  simp only [copy, Screen.step, renderIncremental, Prefixes.Copy.update, commonTranscriptPrefix,
    hsync]

theorem projects_step (h : screen.Projects) {step : ScreenStep} (hkeeps : screen.KeepsThread step) :
    (screen.step step).Projects := by
  cases step with
  | change step => exact h.imp_left fun hactive => hactive.trans hkeeps.symm
  | render =>
      refine .inl ?_
      simp only [Screen.step, renderIncremental, syncRenderProjection]
      split
      · rename_i hsame
        exact hsame.symm
      · rfl

theorem copy_run (h : screen.Projects) {steps : List ScreenStep}
    (hall : Runs.AllSteps Screen.step KeepsThread screen steps) :
    (Runs.final Screen.step screen steps).copy = screen.copy.updates (drawnLists screen.app steps) := by
  induction steps generalizing screen with
  | nil => rfl
  | cons step rest ih =>
      have hrest := ih (projects_step h hall.1) hall.2
      cases step with
      | change step => exact hrest
      | render =>
          rw [copy_render h] at hrest
          exact hrest

/-- What a run that ends with a rendering has rendered last is the transcript. -/
theorem last_render (screen : Screen) (steps : List ScreenStep) :
    (Runs.final Screen.step screen (steps ++ [.render])).copy.last =
      (Runs.final Screen.step screen (steps ++ [.render])).app.viewModel.transcriptEntries := by
  rw [Runs.final_append]
  rfl

end Screen

/-! ### Transcripts that grow -/

theorem prefix_pushDedupedEntry (entries : List TranscriptEntry) (entry : TranscriptEntry) :
    entries <+: pushDedupedEntry entries entry := by
  unfold pushDedupedEntry
  split
  · exact List.prefix_rfl
  · split
    · exact List.prefix_rfl
    · split
      · exact List.prefix_rfl
      · exact List.prefix_append entries [entry]

theorem prefix_foldl_pushDedupedEntry (pushed entries : List TranscriptEntry) :
    entries <+: pushed.foldl pushDedupedEntry entries := by
  induction pushed generalizing entries with
  | nil => exact List.prefix_rfl
  | cons entry rest ih =>
      have hrest := ih (pushDedupedEntry entries entry)
      rw [List.foldl_cons]
      exact (prefix_pushDedupedEntry entries entry).trans hrest

/-- The thread is the active one, its transcript is on the screen, and it begins with these
entries. -/
structure ShowsFrom (threadId : ThreadId) (entries : List TranscriptEntry) (view : ViewModel) :
    Prop where
  active : view.activeThreadId = some threadId
  visible : view.transcriptEntries = view.transcriptOf threadId
  grown : entries <+: view.transcriptOf threadId

namespace ShowsFrom

variable {threadId : ThreadId} {entries : List TranscriptEntry} {view : ViewModel}

theorem transcriptOf_setTranscript_ne (view : ViewModel) {other : ThreadId} (h : other ≠ threadId)
    (lines : List TranscriptEntry) :
    (view.setTranscript threadId lines).transcriptOf other = view.transcriptOf other := by
  rw [ViewModel.transcriptOf, ViewModel.setTranscript, AList.lookup_insert_ne h]
  rfl

/-- A view that differs in other fields. -/
theorem of_same (h : ShowsFrom threadId entries view) {after : ViewModel}
    (hactive : after.activeThreadId = view.activeThreadId)
    (htranscripts : after.threadTranscripts = view.threadTranscripts)
    (hvisible : after.transcriptEntries = view.transcriptEntries) :
    ShowsFrom threadId entries after := by
  have hkept : after.transcriptOf threadId = view.transcriptOf threadId := by
    rw [ViewModel.transcriptOf, htranscripts]
    rfl
  exact ⟨hactive.trans h.active, hvisible.trans (h.visible.trans hkept.symm), hkept ▸ h.grown⟩

/-- The transcript is brought to the screen. -/
theorem of_sync {after : ViewModel} (hactive : after.activeThreadId = some threadId)
    (hgrown : entries <+: after.transcriptOf threadId) :
    ShowsFrom threadId entries after.syncVisibleTranscript := by
  refine ⟨hactive, ?_, hgrown⟩
  show (after.selectedThreadId.map after.transcriptOf).getD [] = _
  rw [ViewModel.selectedThreadId, hactive]
  rfl

theorem pushThreadEntry (h : ShowsFrom threadId entries view) (other : ThreadId)
    (kind : TranscriptEntryKind) (body : String) :
    ShowsFrom threadId entries (view.pushThreadEntry other kind body) := by
  unfold ViewModel.pushThreadEntry
  dsimp only
  split
  · rename_i hselected
    have hown : view.activeThreadId = some other := hselected
    obtain rfl := Option.some.inj (h.active.symm.trans hown)
    refine of_sync h.active ?_
    rw [ViewModel.transcriptOf_setTranscript]
    exact h.grown.trans (prefix_pushDedupedEntry _ _)
  · rename_i hother
    have hne : threadId ≠ other := by
      rintro rfl
      exact hother h.active
    have hkept := transcriptOf_setTranscript_ne view hne
      (pushDedupedEntry (view.transcriptOf other) ⟨kind, body⟩)
    exact ⟨h.active, h.visible.trans hkept.symm, hkept ▸ h.grown⟩

theorem pushEntryForSelectedThread (h : ShowsFrom threadId entries view)
    (kind : TranscriptEntryKind) (body : String) :
    ShowsFrom threadId entries (view.pushEntryForSelectedThread kind body) := by
  rw [ViewModel.pushEntryForSelectedThread, ViewModel.selectedThreadId, h.active]
  exact h.pushThreadEntry threadId kind body

theorem upsertThread (h : ShowsFrom threadId entries view) (thread : Thread) :
    ShowsFrom threadId entries (view.upsertThread thread) := by
  refine of_sync ?_ h.grown
  show view.activeThreadId.or (some thread.id) = some threadId
  rw [h.active]
  rfl

theorem attachPendingEntriesToThread (h : ShowsFrom threadId entries view) :
    ShowsFrom threadId entries (view.attachPendingEntriesToThread threadId) := by
  unfold ViewModel.attachPendingEntriesToThread
  split
  · exact of_sync h.active h.grown
  · refine of_sync h.active ?_
    show _ <+: (view.setTranscript threadId _).transcriptOf threadId
    rw [ViewModel.transcriptOf_setTranscript]
    exact h.grown.trans (prefix_foldl_pushDedupedEntry _ _)

theorem replaceThreadHistory (h : ShowsFrom threadId entries view) {session : MemorySessionView}
    (hother : session.threadId ≠ threadId) :
    ShowsFrom threadId entries (view.replaceThreadHistory session) := by
  unfold ViewModel.replaceThreadHistory
  dsimp only
  split
  · rename_i hselected
    have hown : view.activeThreadId = some session.threadId := hselected
    exact absurd (Option.some.inj (hown.symm.trans h.active)) hother
  · have hkept := transcriptOf_setTranscript_ne view (Ne.symm hother)
      ((view.transcriptOf session.threadId).foldl pushDedupedEntry
        (session.recentEntries.filterMap entryFromSession))
    exact ⟨h.active, h.visible.trans hkept.symm, hkept ▸ h.grown⟩

theorem applyResponse (h : ShowsFrom threadId entries view) {response : ViewResponse}
    (hactive : (view.applyResponse response).activeThreadId = some threadId)
    (hother : ∀ session, response = .memoryOpenSession session → session.threadId ≠ threadId) :
    ShowsFrom threadId entries (view.applyResponse response) := by
  have hchosen : ∀ thread : Thread, thread.id = threadId →
      ShowsFrom threadId entries ({ view with activeThreadId := some thread.id }.upsertThread thread)
      := by
    intro thread hid
    have hchosen : ShowsFrom threadId entries { view with activeThreadId := some thread.id } := by
      rw [hid, ← h.active]
      exact h
    exact hchosen.upsertThread thread
  cases response with
  | threadStart thread =>
      have hid : thread.id = threadId := by
        simpa [ViewModel.applyResponse] using hactive
      have hattached := (hchosen thread hid).attachPendingEntriesToThread
      rw [← hid] at hattached ⊢
      exact hattached.of_same rfl rfl rfl
  | threadResume thread | threadFork thread =>
      have hid : thread.id = threadId := Option.some.inj hactive
      have hshown := hchosen thread hid
      exact (of_sync hshown.active hshown.grown).of_same rfl rfl rfl
  | threadList threads => exact (of_sync hactive h.grown).of_same rfl rfl rfl
  | memoryOpenSession session =>
      exact (h.replaceThreadHistory (hother session rfl)).of_same rfl rfl rfl
  | error message => exact (h.pushEntryForSelectedThread .system message).of_same rfl rfl rfl
  | _ => exact h.of_same rfl rfl rfl

theorem applyEvent (h : ShowsFrom threadId entries view) (event : ServerEvent) :
    ShowsFrom threadId entries (view.applyEvent event) := by
  unfold ViewModel.applyEvent
  cases event.payload with
  | threadStarted thread | threadResumed thread | threadUpdated thread | threadInterrupted thread
  | threadForked thread => exact h.upsertThread thread
  | turnStarted turn =>
      dsimp only
      split
      · exact (h.pushThreadEntry event.threadId .user _).of_same rfl rfl rfl
      · exact h.of_same rfl rfl rfl
  | turnFailed turn message => exact (h.pushThreadEntry event.threadId .system _).of_same rfl rfl rfl
  | turnCancelled turn => exact (h.pushThreadEntry event.threadId .system _).of_same rfl rfl rfl
  | assistantCompleted message =>
      have hidle : ShowsFrom threadId entries { view with assistantStreaming := none } :=
        h.of_same rfl rfl rfl
      exact (hidle.pushThreadEntry event.threadId .assistant message).of_same rfl rfl rfl
  | toolCompleted _ _ _ _ _ | toolFailed _ _ _ _ =>
      exact (h.pushThreadEntry event.threadId .tool _).of_same rfl rfl rfl
  | approvalRequested approval =>
      have hpending : ShowsFrom threadId entries
          { view with pendingApprovals := view.pendingApprovals ++ [approval] } :=
        h.of_same rfl rfl rfl
      exact (hpending.pushThreadEntry event.threadId .approval _).of_same rfl rfl rfl
  | approvalResolved approval decision =>
      have hresolved : ShowsFrom threadId entries
          { view with
            pendingApprovals := view.pendingApprovals.filter (·.id != approval.id) } :=
        h.of_same rfl rfl rfl
      exact (hresolved.pushThreadEntry event.threadId .system _).of_same rfl rfl rfl
  | memoryCompilationApplied compilation =>
      have hcompiled : ShowsFrom threadId entries
          { view with candidateProcedures := compilation.candidateProcedures } :=
        h.of_same rfl rfl rfl
      exact (hcompiled.pushThreadEntry event.threadId .system _).of_same rfl rfl rfl
  | _ => exact h.of_same rfl rfl rfl

end ShowsFrom

/-- The input clears the composer's place for a conversation, or asks for a new one. -/
def beginsConversation (inputBuffer : String) : Prop :=
  let input := Text.trim inputBuffer
  input.toList.head? = some '/' ∧
    ((CliApp.splitCommand input).1 = "/new" ∨ (CliApp.splitCommand input).1 = "/clear")

/-- The step does more than to go on with the thread: it loads the history of its session, or it
clears the screen for another conversation. -/
def TerminalStep.Rewrites (threadId : ThreadId) : TerminalStep → Prop
  | .client (.response (.memoryOpenSession session)) => session.threadId = threadId
  | .client (.submit inputBuffer) => beginsConversation inputBuffer
  | _ => False

theorem showsFrom_submitInput {app : CliApp} {threadId : ThreadId}
    {entries : List TranscriptEntry} (h : ShowsFrom threadId entries app.viewModel)
    {inputBuffer : String} (hgoes : ¬ beginsConversation inputBuffer) :
    ShowsFrom threadId entries (app.submitInput inputBuffer).1.viewModel := by
  simp only [beginsConversation, not_and, not_or] at hgoes
  simp only [CliApp.submitInput]
  split
  · exact h.of_same rfl rfl rfl
  · split
    · rename_i hcommand
      obtain ⟨hnew, hclear⟩ := hgoes hcommand
      simp only [CliApp.handleSlashCommand]
      rw [if_neg hnew, if_neg hclear]
      exact h
    · split
      · rename_i hnone
        exact absurd (h.active.symm.trans hnone) (by simp)
      · exact (h.pushEntryForSelectedThread .user _).of_same rfl rfl rfl

theorem showsFrom_shell {app : CliApp} {threadId : ThreadId} {entries : List TranscriptEntry}
    (h : ShowsFrom threadId entries app.viewModel) {step : TerminalStep}
    (hactive : (app.shell step).active = some threadId) (hgoes : ¬ step.Rewrites threadId) :
    ShowsFrom threadId entries (app.shell step).viewModel := by
  cases step with
  | client step =>
      cases step with
      | submit inputBuffer =>
          simp only [CliApp.shell, CliApp.step]
          exact showsFrom_submitInput h hgoes
      | response response =>
          have hview : (app.shell (.client (.response response))).viewModel =
              app.viewModel.applyResponse response := by
            cases response <;> rfl
          rw [hview]
          refine h.applyResponse ?_ ?_
          · rw [← hview]
            exact hactive
          · rintro session rfl hsame
            exact hgoes hsame
      | event event =>
          simp only [CliApp.shell, CliApp.step, CliApp.receiveEvent]
          exact h.applyEvent event
      | openSelected =>
          simp only [CliApp.active, CliApp.shell, CliApp.step,
            CliApp.loadSelectedThreadSurfaces] at hactive ⊢
          split
          · exact h
          · rename_i thread hthread
            rw [hthread] at hactive
            exact ShowsFrom.of_sync hactive h.grown
  | selectPrevious => exact h.of_same rfl rfl rfl
  | selectNext => exact h.of_same rfl rfl rfl

/-- The step only goes on with the thread. -/
def GoesOn (threadId : ThreadId) : ScreenStep → Prop
  | .change step => ¬ step.Rewrites threadId
  | .render => True

/-- A run that only goes on with its thread draws transcripts that grow at their end. -/
theorem drawn_of_goesOn {screen : Screen} {threadId : ThreadId} {entries : List TranscriptEntry}
    (h : ShowsFrom threadId entries screen.app.viewModel) {steps : List ScreenStep}
    (hkeeps : Runs.AllSteps Screen.step Screen.KeepsThread screen steps)
    (hgoes : ∀ step ∈ steps, GoesOn threadId step) :
    (entries :: drawnLists screen.app steps).IsChain (· <+: ·) := by
  induction steps generalizing screen entries with
  | nil => simp [drawnLists]
  | cons step rest ih =>
      have hrest : ∀ step ∈ rest, GoesOn threadId step :=
        fun step hstep => hgoes step (List.mem_cons_of_mem _ hstep)
      cases step with
      | change step =>
          have hactive : (screen.app.shell step).active = some threadId := hkeeps.1.trans h.active
          exact ih (showsFrom_shell h hactive (hgoes _ List.mem_cons_self)) hkeeps.2 hrest
      | render =>
          have hvisible : ShowsFrom threadId screen.app.viewModel.transcriptEntries
              (screen.step .render).app.viewModel :=
            ⟨h.active, h.visible, h.visible ▸ List.prefix_rfl⟩
          have hchain := ih hvisible hkeeps.2 hrest
          rw [drawnLists, List.isChain_cons_cons]
          exact ⟨h.visible ▸ h.grown, hchain⟩

/-- From an empty render state, the scrollback after the last rendering is the transcript if and
only if every transcript that was rendered begins with the one rendered before it. This is so in
every run that neither loads the session of its thread nor clears the screen for another
conversation. -/
theorem scrollback_mirrors_iff (app : CliApp) (steps : List ScreenStep)
    (hkeeps : Runs.AllSteps Screen.step Screen.KeepsThread (Screen.fresh app)
      (steps ++ [.render])) :
    ((Runs.final Screen.step (Screen.fresh app) (steps ++ [.render])).scrollback =
        (Runs.final Screen.step (Screen.fresh app)
          (steps ++ [.render])).app.viewModel.transcriptEntries ↔
      (drawnLists app (steps ++ [.render])).IsChain (· <+: ·)) ∧
    ∀ threadId, ShowsFrom threadId [] app.viewModel → (∀ step ∈ steps, GoesOn threadId step) →
      (drawnLists app (steps ++ [.render])).IsChain (· <+: ·) := by
  have hchain : ∀ lists : List (List TranscriptEntry),
      ([] :: lists).IsChain (· <+: ·) ↔ lists.IsChain (· <+: ·) := by
    intro lists
    cases lists with
    | nil => simp
    | cons list rest => rw [List.isChain_cons_cons, and_iff_right List.nil_prefix]
  constructor
  · rw [← Screen.last_render]
    show (Runs.final Screen.step (Screen.fresh app) (steps ++ [.render])).copy.written = _ ↔ _
    have hprojects : (Screen.fresh app).Projects := .inr rfl
    rw [Screen.copy_run hprojects hkeeps]
    have hwritten : (Screen.fresh app).copy.written = (Screen.fresh app).copy.last := rfl
    rw [Prefixes.Copy.written_eq_last_iff hwritten]
    exact hchain (drawnLists app (steps ++ [.render]))
  · intro threadId hshows hgoes
    refine (hchain _).mp (@drawn_of_goesOn (Screen.fresh app) _ _ hshows _ hkeeps ?_)
    intro step hstep
    rcases List.mem_append.mp hstep with hold | hlast
    · exact hgoes step hold
    · rw [List.mem_singleton.mp hlast]
      trivial

/-! ### A session that is loaded late -/

/-- A client whose thread has been started. -/
def startedApp : CliApp := CliApp.new.shell startsOwn

def earlierSession : MemorySessionView :=
  { threadId := "own", title := "", status := .active, activeSummary := none,
    pendingCommitments := [],
    recentEntries :=
      [{ recordedAt := "t1", event := "turn_completed", summary := "done", turnId := none,
         artifactIds := [] }],
    artifacts := [] }

/-- A message is printed twice, once before and once after the history of the session. -/
def loadedLate : List ScreenStep :=
  [.change (.client (.submit "hi")), .render,
    .change (.client (.response (.memoryOpenSession earlierSession)))]

theorem keepsThread_loadedLate :
    Runs.AllSteps Screen.step Screen.KeepsThread (Screen.fresh startedApp)
      (loadedLate ++ [.render]) := by
  refine ⟨?_, trivial, ?_, trivial, trivial⟩
  · exact CliApp.active_submitInput "hi"
  · exact ViewModel.activeThreadId_replaceThreadHistory _ earlierSession

/-- The first two steps print the message once. -/
theorem scrollback_mirrors_message :
    ((Runs.final Screen.step (Screen.fresh startedApp)
          ([.change (.client (.submit "hi"))] ++ [.render])).scrollback =
        (Runs.final Screen.step (Screen.fresh startedApp)
          ([.change (.client (.submit "hi"))] ++ [.render])).app.viewModel.transcriptEntries) ∧
      (drawnLists startedApp ([.change (.client (.submit "hi"))] ++ [.render])).IsChain (· <+: ·) := by
  have hkeeps : Runs.AllSteps Screen.step Screen.KeepsThread (Screen.fresh startedApp)
      ([.change (.client (.submit "hi"))] ++ [.render]) :=
    ⟨CliApp.active_submitInput "hi", trivial, trivial⟩
  have hchain : (drawnLists startedApp ([.change (.client (.submit "hi"))] ++ [.render])).IsChain
      (· <+: ·) := List.IsChain.singleton _
  exact ⟨(scrollback_mirrors_iff startedApp _ hkeeps).1.mpr hchain, hchain⟩

/-- The thread stays the same, and the scrollback has an entry more than the transcript. -/
theorem scrollback_repeats_message :
    let screen := Runs.final Screen.step (Screen.fresh startedApp) (loadedLate ++ [.render])
    Runs.AllSteps Screen.step Screen.KeepsThread (Screen.fresh startedApp)
        (loadedLate ++ [.render]) ∧
      screen.scrollback = [⟨.user, "hi"⟩, ⟨.assistant, "done"⟩, ⟨.user, "hi"⟩] ∧
      screen.app.viewModel.transcriptEntries = [⟨.assistant, "done"⟩, ⟨.user, "hi"⟩] ∧
      screen.scrollback ≠ screen.app.viewModel.transcriptEntries :=
  ⟨keepsThread_loadedLate, by decide +kernel, by decide +kernel, by decide +kernel⟩

end Liz
