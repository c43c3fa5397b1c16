import Mathlib.Data.String.Basic
import Liz.Base.KeyedLists
import Liz.Base.Runs
import Liz.Base.Tables
import Liz.Proof.CliActiveThread

/-!
# The list of conversations

The view model keeps a list of threads with a table of their statuses, the place of the one that is
selected, and the transcript on the screen. Responses and events change one thing after another in
them, and after each of them the fields fit together.
-/

namespace Liz

open KeyedLists

/-! ### What happens to the view model -/

/-- The selected thread becomes the active conversation. -/
def ViewModel.activateSelectedThread (view : ViewModel) : ViewModel × Option ThreadId :=
  match view.selectedThread with
  | none => (view, none)
  | some thread =>
      ({ view with activeThreadId := some thread.id }.syncVisibleTranscript, some thread.id)

/-- What is done to a view model. The event of an archived thread is no event of the server. -/
inductive ViewStep
  | response (response : ViewResponse)
  | event (event : ServerEvent)
  | threadArchived (thread : Thread)
  | pushUserMessage (message : String)
  | pushSystemMessage (message : String)
  | pushPendingThreadStartMessage (message : String)
  | selectPrevious
  | selectNext
  | activateSelected

def ViewModel.take (view : ViewModel) : ViewStep → ViewModel
  | .response response => view.applyResponse response
  | .event event => view.applyEvent event
  | .threadArchived thread => view.upsertThread thread
  | .pushUserMessage message => view.pushUserMessage message
  | .pushSystemMessage message => view.pushSystemMessage message
  | .pushPendingThreadStartMessage message => view.pushPendingThreadStartMessage message
  | .selectPrevious => view.selectPreviousThread
  | .selectNext => view.selectNextThread
  | .activateSelected => view.activateSelectedThread.1

/-- Distinct threads, the last updated one first. -/
structure RecentFirst (threads : List Thread) : Prop where
  distinct : (threads.map Thread.id).Nodup
  sorted : threads.Pairwise fun earlier later => later.updatedAt ≤ earlier.updatedAt

/-- A list of threads comes in order. -/
def ViewStep.Orderly : ViewStep → Prop
  | .response (.threadList threads) => RecentFirst threads
  | _ => True

/-! ### Threads, statuses and the selected place -/

/-- The fields of the list of conversations. -/
structure ThreadTable where
  threads : List Thread
  statuses : Table ThreadId ThreadStatus
  selected : Nat

namespace ThreadTable

/-- The threads are in order, the statuses are theirs, and the selected place is one of the list. -/
structure WellFormed (table : ThreadTable) : Prop where
  order : RecentFirst table.threads
  statuses : ∀ id status, table.statuses.lookup id = some status ↔
    ∃ thread ∈ table.threads, thread.id = id ∧ thread.status = status
  selected : table.selected < table.threads.length ∨ table.selected = 0

theorem wellFormed_empty : WellFormed ⟨[], ∅, 0⟩ :=
  ⟨⟨List.nodup_nil, List.Pairwise.nil⟩, by simp, .inr rfl⟩

/-- A place that has been looked up is one of the list. -/
theorem place_found (threads : List Thread) (found : Thread → Bool) :
    (threads.findIdx? found).getD 0 < threads.length ∨ (threads.findIdx? found).getD 0 = 0 := by
  cases hfound : threads.findIdx? found with
  | none => exact .inr rfl
  | some place => exact .inl (List.findIdx?_eq_some_iff_getElem.mp hfound).1

/-- The record of a thread takes the place of the one before, and the threads are sorted again. -/
def putInOrder (threads : List Thread) (thread : Thread) : List Thread :=
  (put Thread.id thread threads).insertionSort fun left right => right.updatedAt ≤ left.updatedAt

theorem mem_putInOrder {threads : List Thread} (h : (threads.map Thread.id).Nodup)
    (thread other : Thread) :
    other ∈ putInOrder threads thread ↔
      other = thread ∨ (other ∈ threads ∧ other.id ≠ thread.id) := by
  rw [putInOrder, List.mem_insertionSort, mem_put h]

theorem recentFirst_putInOrder {threads : List Thread} (h : (threads.map Thread.id).Nodup)
    (thread : Thread) : RecentFirst (putInOrder threads thread) := by
  have hperm := List.perm_insertionSort (fun left right : Thread => right.updatedAt ≤ left.updatedAt)
    (put Thread.id thread threads)
  have : Std.Total fun left right : Thread => right.updatedAt ≤ left.updatedAt :=
    ⟨fun left right => le_total right.updatedAt left.updatedAt⟩
  have : IsTrans Thread fun left right => right.updatedAt ≤ left.updatedAt :=
    ⟨fun _ _ _ hfirst hsecond => hsecond.trans hfirst⟩
  exact ⟨(hperm.map Thread.id).nodup_iff.mpr (nodup_put thread h), List.pairwise_insertionSort _ _⟩

/-- A record that is put into the table leaves it well formed, whichever thread is looked up. -/
theorem WellFormed.put {table : ThreadTable} (h : table.WellFormed) (thread : Thread)
    (found : Thread → Bool) :
    WellFormed ⟨putInOrder table.threads thread, table.statuses.insert thread.id thread.status,
      ((putInOrder table.threads thread).findIdx? found).getD 0⟩ := by
  have hmem := mem_putInOrder h.order.distinct thread
  refine ⟨recentFirst_putInOrder h.order.distinct thread, fun id status => ?_, place_found _ _⟩
  dsimp only
  by_cases hid : id = thread.id
  · subst hid
    rw [AList.lookup_insert, Option.some.injEq]
    constructor
    · intro hstatus
      exact ⟨thread, (hmem thread).mpr (.inl rfl), rfl, hstatus⟩
    · rintro ⟨other, hother, hsame, rfl⟩
      rcases (hmem other).mp hother with rfl | ⟨-, hne⟩
      · rfl
      · exact absurd hsame hne
  · rw [AList.lookup_insert_ne hid, h.statuses]
    constructor
    · rintro ⟨other, hother, rfl, hstatus⟩
      exact ⟨other, (hmem other).mpr (.inr ⟨hother, hid⟩), rfl, hstatus⟩
    · rintro ⟨other, hother, rfl, hstatus⟩
      rcases (hmem other).mp hother with rfl | ⟨hold, -⟩
      · exact absurd rfl hid
      · exact ⟨other, hold, rfl, hstatus⟩

/-- A whole list comes with its own statuses. -/
theorem WellFormed.listed {threads : List Thread} (h : RecentFirst threads) (chosen : Option ThreadId) :
    WellFormed ⟨threads,
      threads.foldl (fun statuses thread => statuses.insert thread.id thread.status) ∅,
      (chosen.bind fun id => threads.findIdx? (·.id == id)).getD 0⟩ := by
  have hentries : (threads.foldl (fun statuses thread => statuses.insert thread.id thread.status) ∅ :
      Table ThreadId ThreadStatus) = (threads.map fun thread => (thread.id, thread.status)).foldl
        (fun statuses entry => statuses.insert entry.1 entry.2) ∅ := by
    rw [List.foldl_map]
  have hnodup : ((threads.map fun thread => (thread.id, thread.status)).map Prod.fst).Nodup := by
    rw [List.map_map]
    exact h.distinct
  refine ⟨h, fun id status => ?_, ?_⟩
  · dsimp only
    rw [hentries, Tables.lookup_foldl_entries, AList.lookup_empty, Option.or_none,
      Tables.lookup_perm (List.reverse_perm _) hnodup, Tables.lookup_eq_some_iff_mem hnodup,
      List.mem_map]
    simp only [Prod.mk.injEq]
  · cases chosen with
    | none => exact .inr rfl
    | some id => exact place_found threads _

end ThreadTable

namespace ViewModel

variable (view : ViewModel)

def table : ThreadTable := ⟨view.threads, view.threadStatuses, view.selectedThreadIndex⟩

/-- The record with this id is replaced, or a new one goes last. -/
theorem replaced_eq_put (threads : List Thread) (thread : Thread) :
    (if threads.any (·.id == thread.id) then
      threads.replaceF fun existing => if existing.id = thread.id then some thread else none
    else threads ++ [thread]) = put Thread.id thread threads := by
  induction threads with
  | nil => rfl
  | cons first rest ih =>
      rw [put, List.any_cons, List.replaceF]
      by_cases hfirst : first.id = thread.id
      · simp [hfirst]
      · rw [if_neg hfirst, if_neg hfirst, ← ih, beq_eq_false_iff_ne.mpr hfirst, Bool.false_or]
        split <;> rfl

theorem wellFormed_upsertThread (h : view.table.WellFormed) (thread : Thread) :
    (view.upsertThread thread).table.WellFormed := by
  have hput := h.put thread fun item => item.id == (view.selectedThread.map Thread.id).getD thread.id
  unfold upsertThread
  rw [replaced_eq_put]
  exact hput

@[simp] theorem table_syncVisibleTranscript : view.syncVisibleTranscript.table = view.table := rfl

@[simp] theorem table_setTranscript (threadId : ThreadId) (entries : List TranscriptEntry) :
    (view.setTranscript threadId entries).table = view.table := rfl

/-- What is on the screen is no part of the list of conversations. -/
theorem table_screen (shown pending : List TranscriptEntry) :
    { view with transcriptEntries := shown, pendingThreadStartEntries := pending }.table =
      view.table := rfl

@[simp] theorem table_pushThreadEntry (threadId : ThreadId) (kind : TranscriptEntryKind)
    (body : String) : (view.pushThreadEntry threadId kind body).table = view.table := by
  unfold pushThreadEntry
  dsimp only
  split
  · rw [table_syncVisibleTranscript, table_setTranscript]
  · rw [table_setTranscript]

@[simp] theorem table_pushEntryForSelectedThread (kind : TranscriptEntryKind) (body : String) :
    (view.pushEntryForSelectedThread kind body).table = view.table := by
  unfold pushEntryForSelectedThread
  split
  · exact table_pushThreadEntry view _ kind body
  · exact table_screen view _ view.pendingThreadStartEntries

@[simp] theorem table_pushPendingThreadStartMessage (message : String) :
    (view.pushPendingThreadStartMessage message).table = view.table := table_screen view _ _

@[simp] theorem table_attachPendingEntriesToThread (threadId : ThreadId) :
    (view.attachPendingEntriesToThread threadId).table = view.table := by
  unfold attachPendingEntriesToThread
  split <;> rfl

@[simp] theorem table_replaceThreadHistory (session : MemorySessionView) :
    (view.replaceThreadHistory session).table = view.table := by
  unfold replaceThreadHistory
  dsimp only
  split <;> rfl

theorem wellFormed_selectPrevious (h : view.table.WellFormed) :
    view.selectPreviousThread.table.WellFormed := by
  refine ⟨h.order, h.statuses, ?_⟩
  have hselected := h.selected
  simp only [table] at hselected
  simp only [table, selectPreviousThread, List.isEmpty_iff]
  split
  next => exact .inr rfl
  next hne =>
    have hpos := List.length_pos_iff.mpr hne
    split <;> omega

theorem wellFormed_selectNext (h : view.table.WellFormed) :
    view.selectNextThread.table.WellFormed := by
  refine ⟨h.order, h.statuses, ?_⟩
  simp only [table, selectNextThread, List.isEmpty_iff]
  split
  next => exact .inr rfl
  next hne => exact .inl (Nat.mod_lt _ (List.length_pos_iff.mpr hne))

/-! ### The transcript on the screen -/

/-- What is shown while a thread is active is its transcript, or the messages of a conversation that
is being started. -/
def ShowsOwn : Prop :=
  ∀ threadId, view.activeThreadId = some threadId →
    view.transcriptEntries = view.transcriptOf threadId ∨
      view.transcriptEntries = view.pendingThreadStartEntries

theorem showsOwn_syncVisibleTranscript : view.syncVisibleTranscript.ShowsOwn := by
  intro threadId hactive
  have hselected : view.selectedThreadId = some threadId := hactive
  refine .inl ?_
  show (view.selectedThreadId.map view.transcriptOf).getD [] = view.transcriptOf threadId
  rw [hselected]
  rfl

variable {view}

/-- A transcript that is not on the screen may change. -/
theorem ShowsOwn.setTranscript (h : view.ShowsOwn) {threadId : ThreadId}
    (hother : view.activeThreadId ≠ some threadId) (entries : List TranscriptEntry) :
    (view.setTranscript threadId entries).ShowsOwn := by
  intro active hactive
  have hne : active ≠ threadId := fun heq => hother (heq ▸ hactive)
  have hkept : (view.setTranscript threadId entries).transcriptOf active = view.transcriptOf active := by
    rw [transcriptOf, ViewModel.setTranscript, AList.lookup_insert_ne hne, transcriptOf]
  rw [hkept]
  exact h active hactive

theorem ShowsOwn.pushThreadEntry (h : view.ShowsOwn) (threadId : ThreadId)
    (kind : TranscriptEntryKind) (body : String) :
    (view.pushThreadEntry threadId kind body).ShowsOwn := by
  unfold ViewModel.pushThreadEntry
  dsimp only
  split
  · exact showsOwn_syncVisibleTranscript _
  next hother => exact h.setTranscript hother _

theorem ShowsOwn.pushEntryForSelectedThread (h : view.ShowsOwn) (kind : TranscriptEntryKind)
    (body : String) : (view.pushEntryForSelectedThread kind body).ShowsOwn := by
  unfold ViewModel.pushEntryForSelectedThread
  split
  · exact h.pushThreadEntry _ kind body
  next hnone =>
    intro threadId hactive
    cases hnone.symm.trans hactive

theorem ShowsOwn.replaceThreadHistory (h : view.ShowsOwn) (session : MemorySessionView) :
    (view.replaceThreadHistory session).ShowsOwn := by
  unfold ViewModel.replaceThreadHistory
  dsimp only
  split
  · exact showsOwn_syncVisibleTranscript _
  next hother => exact h.setTranscript hother _

theorem showsOwn_attachPendingEntriesToThread (view : ViewModel) (threadId : ThreadId) :
    (view.attachPendingEntriesToThread threadId).ShowsOwn := by
  unfold attachPendingEntriesToThread
  split <;> exact showsOwn_syncVisibleTranscript _

/-! ### Every step -/

/-- The list of conversations is well formed, and the screen shows what it should. -/
structure Consistent (view : ViewModel) : Prop where
  table : view.table.WellFormed
  shown : view.ShowsOwn

theorem consistent_default : Consistent ViewModel.default :=
  ⟨ThreadTable.wellFormed_empty, fun _ hactive => by cases hactive⟩

theorem Consistent.pushEntryForSelectedThread (h : view.Consistent) (kind : TranscriptEntryKind)
    (body : String) : (view.pushEntryForSelectedThread kind body).Consistent := by
  refine ⟨?_, h.shown.pushEntryForSelectedThread kind body⟩
  rw [table_pushEntryForSelectedThread]
  exact h.table

theorem Consistent.applyResponse (h : view.Consistent) (response : ViewResponse)
    (horder : (ViewStep.response response).Orderly) : (view.applyResponse response).Consistent := by
  cases response with
  | threadStart thread =>
      refine ⟨?_, showsOwn_attachPendingEntriesToThread _ _⟩
      have hupserted := wellFormed_upsertThread { view with activeThreadId := some thread.id } h.table
        thread
      rwa [← table_attachPendingEntriesToThread _ thread.id] at hupserted
  | threadResume thread | threadFork thread =>
      exact ⟨wellFormed_upsertThread { view with activeThreadId := some thread.id } h.table thread,
        showsOwn_syncVisibleTranscript _⟩
  | threadList threads =>
      exact ⟨ThreadTable.WellFormed.listed horder _, showsOwn_syncVisibleTranscript _⟩
  | memoryOpenSession session =>
      have htable := h.table
      rw [← table_replaceThreadHistory view session] at htable
      exact ⟨htable, h.shown.replaceThreadHistory session⟩
  | error message =>
      have hpushed := h.pushEntryForSelectedThread .system message
      exact ⟨hpushed.table, hpushed.shown⟩
  | memoryReadWakeup | memoryCompileNow | approvalRespond | turnStart | turnCancel | toolCall | other =>
      exact ⟨h.table, h.shown⟩

theorem Consistent.pushThreadEntry (h : view.Consistent) (threadId : ThreadId)
    (kind : TranscriptEntryKind) (body : String) :
    (view.pushThreadEntry threadId kind body).Consistent := by
  refine ⟨?_, h.shown.pushThreadEntry threadId kind body⟩
  rw [table_pushThreadEntry]
  exact h.table

theorem Consistent.upsertThread (h : view.Consistent) (thread : Thread) :
    (view.upsertThread thread).Consistent :=
  ⟨wellFormed_upsertThread view h.table thread, showsOwn_syncVisibleTranscript _⟩

/-- What a line of a thread goes with does not matter. -/
theorem Consistent.noted (h : view.Consistent) {changed : ViewModel} (htable : changed.table = view.table)
    (hactive : changed.activeThreadId = view.activeThreadId)
    (hentries : changed.transcriptEntries = view.transcriptEntries)
    (htranscripts : changed.threadTranscripts = view.threadTranscripts)
    (hpending : changed.pendingThreadStartEntries = view.pendingThreadStartEntries) :
    changed.Consistent := by
  refine ⟨htable ▸ h.table, fun threadId hthread => ?_⟩
  rw [hentries, hpending, transcriptOf, htranscripts]
  exact h.shown threadId (hactive ▸ hthread)

theorem Consistent.applyEvent (h : view.Consistent) (event : ServerEvent) :
    (view.applyEvent event).Consistent := by
  unfold ViewModel.applyEvent
  cases event.payload with
  | threadStarted thread | threadResumed thread | threadUpdated thread | threadInterrupted thread
  | threadForked thread => exact h.upsertThread thread
  | turnStarted turn =>
      dsimp only
      cases turn.goal.filter fun goal => !Text.isBlank goal with
      | none => exact h.noted rfl rfl rfl rfl rfl
      | some goal => exact (h.pushThreadEntry event.threadId .user goal).noted rfl rfl rfl rfl rfl
  | turnFailed _ message =>
      exact (h.pushThreadEntry event.threadId .system _).noted rfl rfl rfl rfl rfl
  | turnCancelled _ =>
      exact (h.pushThreadEntry event.threadId .system _).noted rfl rfl rfl rfl rfl
  | assistantCompleted message =>
      have hcompleted : Consistent { view with assistantStreaming := none } :=
        h.noted rfl rfl rfl rfl rfl
      exact (hcompleted.pushThreadEntry event.threadId .assistant message).noted rfl rfl rfl rfl rfl
  | toolCompleted toolName summary | toolFailed toolName summary =>
      exact (h.pushThreadEntry event.threadId .tool _).noted rfl rfl rfl rfl rfl
  | approvalRequested approval =>
      have hpending : Consistent { view with
          pendingApprovals := view.pendingApprovals ++ [approval] } := h.noted rfl rfl rfl rfl rfl
      exact (hpending.pushThreadEntry event.threadId .approval _).noted rfl rfl rfl rfl rfl
  | approvalResolved approval decision =>
      have hresolved : Consistent { view with
          pendingApprovals := view.pendingApprovals.filter (·.id != approval.id) } :=
        h.noted rfl rfl rfl rfl rfl
      exact (hresolved.pushThreadEntry event.threadId .system _).noted rfl rfl rfl rfl rfl
  | memoryCompilationApplied compilation =>
      have hcompiled : Consistent { view with
          candidateProcedures := compilation.candidateProcedures } := h.noted rfl rfl rfl rfl rfl
      exact (hcompiled.pushThreadEntry event.threadId .system _).noted rfl rfl rfl rfl rfl
  | _ => exact h.noted rfl rfl rfl rfl rfl

theorem Consistent.activateSelectedThread (h : view.Consistent) :
    view.activateSelectedThread.1.Consistent := by
  unfold ViewModel.activateSelectedThread
  split
  · exact h
  · exact ⟨h.table, showsOwn_syncVisibleTranscript _⟩

/-- Every step keeps the fields together. -/
theorem Consistent.take (h : view.Consistent) {step : ViewStep} (horder : step.Orderly) :
    (view.take step).Consistent := by
  cases step with
  | response response => exact h.applyResponse response horder
  | event event => exact h.applyEvent event
  | threadArchived thread => exact h.upsertThread thread
  | pushUserMessage message => exact h.pushEntryForSelectedThread .user message
  | pushSystemMessage message => exact h.pushEntryForSelectedThread .system message
  | pushPendingThreadStartMessage message =>
      have htable := h.table
      rw [← table_pushPendingThreadStartMessage view message] at htable
      exact ⟨htable, fun _ _ => .inr rfl⟩
  | selectPrevious => exact ⟨wellFormed_selectPrevious view h.table, h.shown⟩
  | selectNext => exact ⟨wellFormed_selectNext view h.table, h.shown⟩
  | activateSelected => exact h.activateSelectedThread

/-- In every run from the default state in which lists of threads come in order, the fields of the
view model fit together. -/
theorem consistent_run (steps : List ViewStep)
    (horder : Runs.AllSteps ViewModel.take (fun _ step => step.Orderly) ViewModel.default steps) :
    ∀ view ∈ Runs.states ViewModel.take ViewModel.default steps, view.Consistent :=
  Runs.invariant (fun _ _ h hstep => h.take hstep) consistent_default horder

/-- Two threads are listed, the one below is opened, and it is the one that is updated last. -/
def opensEarlier : List ViewStep :=
  [.response (.threadList [namedThread "late", { namedThread "early" with updatedAt := "t1" }]),
    .selectNext, .activateSelected, .pushUserMessage "hello",
    .event
      { threadId := "early", turnId := none, createdAt := "t3"
        payload := .threadUpdated { namedThread "early" with updatedAt := "t3" } }]

theorem consistent_run_early :
    (Runs.final ViewModel.take ViewModel.default opensEarlier).Consistent :=
  consistent_run opensEarlier
    ⟨⟨by decide, List.pairwise_pair.mpr (by decide +kernel)⟩, trivial, trivial, trivial, trivial, trivial⟩
    _ (Runs.final_mem_states _ _)

end ViewModel

end Liz
