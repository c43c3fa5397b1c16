import Liz.Runtime.TurnManager

/-!
# When a failing transition changes nothing

A transition that fails should leave the active turns, the thread records and the logs as they were,
so that the caller can try again. Each of the six transitions touches them in its own order. What
can go wrong is always the same: a step fails after an earlier one has changed something, and
nothing is rolled back. This file says for each transition exactly when that cannot happen.
-/

namespace Liz

open Program

/-- The active turns, the thread records and the logs of two runtimes agree. -/
structure SameRecords (s t : TurnRuntime) : Prop where
  activeTurns : ∀ turnId, t.turnManager.activeTurns.lookup turnId =
    s.turnManager.activeTurns.lookup turnId
  threads : ∀ threadId, t.stores.threads.lookup threadId = s.stores.threads.lookup threadId
  turnLogs : ∀ threadId, t.stores.turnLog threadId = s.stores.turnLog threadId

theorem sameRecords_congr {base t u : TurnRuntime}
    (hturns : t.turnManager.activeTurns = u.turnManager.activeTurns)
    (hthreads : t.stores.threads = u.stores.threads)
    (hlogs : t.stores.turnLogs = u.stores.turnLogs) : SameRecords base t ↔ SameRecords base u := by
  have hlog : ∀ threadId, t.stores.turnLog threadId = u.stores.turnLog threadId := fun threadId => by
    rw [RuntimeStores.turnLog, RuntimeStores.turnLog, hlogs]
  constructor
  · rintro ⟨h₁, h₂, h₃⟩
    exact ⟨fun turnId => hturns ▸ h₁ turnId, fun threadId => hthreads ▸ h₂ threadId,
      fun threadId => hlog threadId ▸ h₃ threadId⟩
  · rintro ⟨h₁, h₂, h₃⟩
    exact ⟨fun turnId => hturns ▸ h₁ turnId, fun threadId => hthreads ▸ h₂ threadId,
      fun threadId => hlog threadId ▸ h₃ threadId⟩

theorem sameRecords_of_untouched {runtime t : TurnRuntime}
    (hturns : t.turnManager = runtime.turnManager)
    (hthreads : t.stores.threads = runtime.stores.threads)
    (hlogs : t.stores.turnLogs = runtime.stores.turnLogs) : SameRecords runtime t :=
  (sameRecords_congr (congrArg _ hturns) hthreads hlogs).mpr
    ⟨fun _ => rfl, fun _ => rfl, fun _ => rfl⟩

theorem sameRecords_setTurn {runtime : TurnRuntime} {turnId : TurnId} {turn marked : Turn}
    {ids : IdGenerator} (hturn : runtime.turnManager.activeTurns.lookup turnId = some turn) :
    SameRecords runtime ⟨runtime.stores.tick, ids, runtime.turnManager.setTurn turnId marked⟩ ↔
      marked = turn := by
  constructor
  · intro hsame
    have hmarked := hsame.activeTurns turnId
    rw [hturn] at hmarked
    simpa [TurnManager.setTurn] using hmarked
  · intro hmark
    refine ⟨fun id => ?_, fun _ => rfl, fun _ => rfl⟩
    by_cases hid : id = turnId
    · rw [hid, hturn, hmark]
      exact AList.lookup_insert _
    · simp [TurnManager.setTurn, hid]

section Conditions

variable [Disk]

/-! ### The condition -/

/-- The log is read, the entry appended and the thread record written. -/
def CommitSucceeds (stores : RuntimeStores) (threadId : ThreadId) : Prop :=
  (∃ entries, readLog stores threadId = .ok entries) ∧
    Disk.fault (stores.operations + 1) = none ∧ Disk.fault (stores.operations + 2) = none

/-- The log cannot be read, or the disk refuses the append before it writes anything. -/
def StopsBeforeWriting (stores : RuntimeStores) (threadId : ThreadId) : Prop :=
  (∃ e, readLog stores threadId = .error e) ∨
    ∃ message, Disk.fault (stores.operations + 1) = some (.refused message)

/-- The list of active threads in the memory file is read and written. -/
def SyncSucceeds (stores : RuntimeStores) : Prop :=
  (∃ snapshot, readOutcome (Disk.fault stores.operations) stores.globalMemory = .ok snapshot) ∧
    Disk.fault (stores.operations + 1) = none

/-- The thread cannot be found or the turn is not active. -/
def LookupFails (runtime : TurnRuntime) (threadId : ThreadId) (turnId : TurnId) : Prop :=
  (∃ e, foundThread runtime.stores threadId = .error e) ∨
    runtime.turnManager.activeTurns.lookup turnId = none

/-- Every storage operation behind the lookup of the thread succeeds. -/
def RestSucceeds (runtime : TurnRuntime) (threadId : ThreadId) : Prop :=
  ∃ thread, foundThread runtime.stores threadId = .ok thread ∧
    CommitSucceeds runtime.stores.tick thread.id

/-- The turn already has the mark, and the transition stops before it writes to the log. -/
def MarkIsIdle (runtime : TurnRuntime) (threadId : ThreadId) (turnId : TurnId)
    (mark : Turn → Turn) : Prop :=
  ∃ turn, runtime.turnManager.activeTurns.lookup turnId = some turn ∧ mark turn = turn ∧
    ∃ thread, foundThread runtime.stores threadId = .ok thread ∧
      StopsBeforeWriting runtime.stores.tick thread.id

/-- The state and the storage behaviour under which a failure of the operation changes nothing. -/
def TurnOperation.FailsCleanly (runtime : TurnRuntime) : TurnOperation → Prop
  | startTurn thread _ =>
      runtime.turnManager.threadHasRunningTurn thread.id = true ∨
        StopsBeforeWriting runtime.stores thread.id ∨
        (CommitSucceeds runtime.stores thread.id ∧ SyncSucceeds runtime.stores.tick.tick.tick)
  | cancelTurn request =>
      LookupFails runtime request.threadId request.turnId ∨
        (∃ turn, runtime.turnManager.activeTurns.lookup request.turnId = some turn ∧
          turn.threadId ≠ request.threadId) ∨
        RestSucceeds runtime request.threadId
  | markWaitingApproval threadId turnId reason =>
      LookupFails runtime threadId turnId ∨ RestSucceeds runtime threadId ∨
        MarkIsIdle runtime threadId turnId (Turn.waiting reason)
  | markRunning threadId turnId =>
      LookupFails runtime threadId turnId ∨ RestSucceeds runtime threadId ∨
        MarkIsIdle runtime threadId turnId Turn.resumed
  | completeTurn threadId turnId _ =>
      LookupFails runtime threadId turnId ∨ RestSucceeds runtime threadId
  | failTurn threadId turnId _ =>
      LookupFails runtime threadId turnId ∨ RestSucceeds runtime threadId

/-! ### The commit -/

theorem tail_of_readLog {stores : RuntimeStores} {threadId : ThreadId}
    {entries : List TurnLogEntry} (h : readLog stores threadId = .ok entries) :
    (stores.turnLog threadId).tail ≠ .torn := by
  intro htorn
  unfold readLog logOutcome at h
  cases hfault : Disk.fault stores.operations with
  | some fault => simp [hfault] at h
  | none => simp [hfault, TurnLogFile.read, htorn] at h

/-- Whatever follows, the records differ once an append has touched the log. -/
theorem not_sameRecords_of_appended {base runtime : TurnRuntime} {threadId : ThreadId}
    {stores : RuntimeStores} {entries : List TurnLogEntry} {entry : TurnLogEntry}
    {fault : Option Fault} (hbase : stores.turnLog threadId = base.stores.turnLog threadId)
    (hentry : entry.threadId = threadId) (hread : readLog stores threadId = .ok entries)
    (htouched : ∀ message, fault ≠ some (.refused message))
    (hlog : runtime.stores.turnLog threadId =
      (stores.tick.appended entry fault).turnLog threadId) :
    ¬ SameRecords base runtime := by
  intro hsame
  subst hentry
  have htail := tail_of_readLog hread
  have hne : (stores.tick.appended entry fault).turnLog entry.threadId ≠
      stores.tick.turnLog entry.threadId := turnLog_appended_ne htail htouched
  apply hne
  rw [← hlog, hsame.turnLogs]
  exact hbase.symm

/-- A program that begins with an append and leaves the log alone afterwards fails cleanly when it
stops before it writes and nothing had changed before, and otherwise only by not failing. -/
theorem append_clean {base runtime : TurnRuntime} {threadId : ThreadId} {turnId : TurnId}
    {recordedAt : Timestamp} {event summary : String} {next : Unit → TurnM Turn}
    (hlogs : runtime.stores.turnLog threadId = base.stores.turnLog threadId)
    (hnext : ∀ t, wp (next ()) (fun _ _ => True)
      (fun _ u => u.stores.turnLog threadId = t.stores.turnLog threadId) t) :
    wp (appendTransition threadId turnId recordedAt event summary >>= next)
        (fun _ _ => True) (fun _ t => SameRecords base t) runtime ↔
      (SameRecords base runtime ∧ StopsBeforeWriting runtime.stores threadId) ∨
        ∃ entries, readLog runtime.stores threadId = .ok entries ∧
          Disk.fault (runtime.stores.operations + 1) = none ∧
          wp (next ()) (fun _ _ => True) (fun _ _ => False)
            (runtime.logged ⟨threadId, runtime.allocated threadId entries, some turnId, recordedAt,
              event, summary, []⟩ none) := by
  rw [wp_bind, wp_appendTransition]
  unfold StopsBeforeWriting
  cases hread : readLog runtime.stores threadId with
  | error e =>
      simp only [reduceCtorEq, false_implies, implies_true, Except.error.injEq, forall_eq',
        exists_false, false_and, or_false, exists_eq', true_or, and_true, true_and]
      exact sameRecords_congr rfl rfl rfl
  | ok entries =>
      simp only [Except.ok.injEq, forall_eq', forall_eq, reduceCtorEq, false_implies, implies_true,
        and_true, exists_eq_left', exists_false, false_or]
      generalize hentry : (⟨threadId, runtime.allocated threadId entries, some turnId, recordedAt,
        event, summary, []⟩ : TurnLogEntry) = entry
      have hid : entry.threadId = threadId := by rw [← hentry]
      cases hfault : Disk.fault (runtime.stores.operations + 1) with
      | none =>
          simp only [forall_const, reduceCtorEq, false_implies, implies_true, and_true,
            exists_false, and_false, false_or, true_and]
          refine ⟨fun h => wp_mono (wp_and h (hnext _)) (fun _ _ _ => trivial) ?_,
            fun h => wp_mono h (fun _ _ _ => trivial) (fun _ _ hfalse => hfalse.elim)⟩
          rintro _ t ⟨hsame, hlog⟩
          exact not_sameRecords_of_appended hlogs hid hread (by simp) hlog hsame
      | some fault =>
          simp only [reduceCtorEq, false_implies, Option.some.injEq, forall_eq', true_and,
            false_and, or_false]
          rcases fault with message | message | message
          · simp only [Fault.refused.injEq, exists_eq', and_true]
            exact sameRecords_congr rfl rfl rfl
          · simp only [reduceCtorEq, exists_false, and_false, iff_false]
            exact not_sameRecords_of_appended hlogs hid hread (by simp) rfl
          · simp only [reduceCtorEq, exists_false, and_false, iff_false]
            exact not_sameRecords_of_appended hlogs hid hread (by simp) rfl

/-- Logging a transition and writing its thread record. -/
theorem commit_clean {base runtime : TurnRuntime} {thread : Thread} {turnId : TurnId}
    {recordedAt : Timestamp} {event summary : String} {turn : Turn}
    (hlogs : runtime.stores.turnLog thread.id = base.stores.turnLog thread.id) :
    wp (do
        appendTransition thread.id turnId recordedAt event summary
        stored (RuntimeStores.putThread thread)
        pure turn) (fun _ _ => True) (fun _ t => SameRecords base t) runtime ↔
      (SameRecords base runtime ∧ StopsBeforeWriting runtime.stores thread.id) ∨
        CommitSucceeds runtime.stores thread.id := by
  rw [append_clean hlogs]
  · simp only [wp_bind, wp_stored, wp_putThread, wp_pure, implies_true, true_and, imp_false, CommitSucceeds]
    refine or_congr_right ⟨?_, ?_⟩
    · rintro ⟨entries, hread, happend, hput⟩
      exact ⟨⟨entries, hread⟩, happend, Option.eq_none_iff_forall_ne_some.mpr hput⟩
    · rintro ⟨⟨entries, hread⟩, happend, hput⟩
      exact ⟨entries, hread, happend, Option.eq_none_iff_forall_ne_some.mp hput⟩
  · intro t
    rw [wp_bind]
    exact wp_mono (putThread_sameLogs thread t) (fun _ _ _ => trivial)
      (fun _ u hlogs => hlogs.turnLog thread.id)

/-- Closing a turn takes it out of the table first, so it can only fail cleanly by not failing. -/
theorem closeTurn_clean [Clock] {runtime : TurnRuntime} {thread : Thread} {turnId : TurnId}
    {turn : Turn} {event : String} {finish : Timestamp → Turn → Turn}
    {project : Timestamp → Turn → Thread → Thread}
    (hproject : ∀ endedAt turn thread, (project endedAt turn thread).id = thread.id)
    (hturn : runtime.turnManager.activeTurns.lookup turnId = some turn) :
    wp (closeTurn thread turnId turn event finish project) (fun _ _ => True)
        (fun _ t => SameRecords runtime t) { runtime with stores := runtime.stores.tick } ↔
      CommitSucceeds runtime.stores.tick thread.id := by
  unfold closeTurn
  rw [wp_bind, wp_modifyTurns, wp_bind, wp_drawn, commit_clean, hproject]
  · refine or_iff_right ?_
    rintro ⟨hsame, -⟩
    have hgone := hsame.activeTurns turnId
    rw [hturn] at hgone
    simp [TurnManager.removeTurn] at hgone
  · rfl

/-- Marking a turn changes the table first, unless the turn already has the mark. -/
theorem markTurn_clean [Clock] {runtime : TurnRuntime} {threadId : ThreadId} {turnId : TurnId}
    {event summary : String} {mark : Turn → Turn} {project : Timestamp → Turn → Thread → Thread}
    (hproject : ∀ recordedAt turn thread, (project recordedAt turn thread).id = thread.id) :
    wp (markTurn threadId turnId event summary mark project) (fun _ _ => True)
        (fun _ t => SameRecords runtime t) runtime ↔
      LookupFails runtime threadId turnId ∨ RestSucceeds runtime threadId ∨
        MarkIsIdle runtime threadId turnId mark := by
  unfold markTurn LookupFails RestSucceeds MarkIsIdle
  rw [wp_bind, wp_requireThread]
  cases hfound : foundThread runtime.stores threadId with
  | error e =>
      simp only [reduceCtorEq, false_implies, implies_true, Except.error.injEq, forall_eq',
        exists_eq', true_or, true_and, iff_true]
      exact sameRecords_of_untouched rfl rfl rfl
  | ok thread =>
      simp only [Except.ok.injEq, forall_eq', reduceCtorEq, false_implies, implies_true, and_true,
        exists_false, false_or, exists_eq_left', wp_bind, wp_drawn, wp_requireTurn, wp_modifyTurns]
      cases hturn : runtime.turnManager.activeTurns.lookup turnId with
      | none =>
          simp only [reduceCtorEq, false_implies, implies_true, true_implies, true_and, true_or,
            iff_true]
          exact sameRecords_of_untouched rfl rfl rfl
      | some turn =>
          simp only [Option.some.injEq, forall_eq', reduceCtorEq, false_implies, and_true, false_or,
            exists_eq_left']
          rw [← wp_bind, commit_clean, hproject, or_comm]
          · refine or_congr Iff.rfl (and_congr ?_ Iff.rfl)
            exact sameRecords_setTurn hturn
          · rfl

theorem updateThreadAfterTurn_clean {runtime : TurnRuntime} (thread : Thread)
    (turns : TurnManager → TurnManager) (turn : Turn) :
    wp (do
        updateThreadAfterTurn thread
        modifyTurns turns
        pure turn) (fun _ _ => True) (fun _ _ => False) runtime ↔
      Disk.fault runtime.stores.operations = none ∧ SyncSucceeds runtime.stores.tick := by
  simp only [updateThreadAfterTurn, syncActiveThreadIds, wp_bind, wp_putThread, wp_stored,
    RuntimeStores.readGlobalMemory, RuntimeStores.writeGlobalMemory, wp_map, wp_readJson, writeJson,
    wp_effect, wp_modifyTurns, wp_pure, implies_true, true_and, imp_false]
  unfold SyncSucceeds RuntimeStores.tick RuntimeStores.withThread writtenFile
  cases Disk.fault runtime.stores.operations with
  | some fault => simp
  | none =>
      cases readOutcome (Disk.fault (runtime.stores.operations + 1)) runtime.stores.globalMemory with
      | error e => simp
      | ok snapshot => simp [Option.eq_none_iff_forall_ne_some]

theorem updateThreadAfterTurn_turnLog (thread : Thread) (turns : TurnManager → TurnManager)
    (turn : Turn) (threadId : ThreadId) (t : TurnRuntime) :
    wp (do
        updateThreadAfterTurn thread
        modifyTurns turns
        pure turn) (fun _ _ => True)
      (fun _ u => u.stores.turnLog threadId = t.stores.turnLog threadId) t := by
  rw [wp_bind]
  refine wp_mono (updateThreadAfterTurn_sameLogs thread t) (fun _ u _ => ?_)
    (fun _ u hlogs => hlogs.turnLog threadId)
  rw [wp_bind, wp_modifyTurns]
  trivial

theorem startTurn_clean [Clock] (runtime : TurnRuntime) (thread : Thread)
    (request : TurnStartRequest) :
    wp (startTurn thread request) (fun _ _ => True) (fun _ t => SameRecords runtime t) runtime ↔
      runtime.turnManager.threadHasRunningTurn thread.id = true ∨
        StopsBeforeWriting runtime.stores thread.id ∨
        (CommitSucceeds runtime.stores thread.id ∧ SyncSucceeds runtime.stores.tick.tick.tick) := by
  rw [wp_startTurn, forall_eq]
  cases runtime.turnManager.threadHasRunningTurn thread.id with
  | true => exact iff_of_true ⟨fun _ => sameRecords_of_untouched rfl rfl rfl, nofun⟩ (Or.inl rfl)
  | false =>
      rw [or_iff_right Bool.false_ne_true, and_iff_right nofun, forall_prop_of_true rfl]
      generalize Turn.started _ _ thread request = turn
      generalize thread.started turn.id _ _ = started
      rw [append_clean]
      · simp only [updateThreadAfterTurn_clean]
        have hsame : SameRecords runtime
            { runtime with ids := (runtime.ids.nowTimestamp.2).nextTurnId.2 } :=
          sameRecords_of_untouched rfl rfl rfl
        refine or_congr (and_iff_right hsame) ?_
        unfold CommitSucceeds
        constructor
        · rintro ⟨entries, hread, happend, hput, hsync⟩
          exact ⟨⟨⟨entries, hread⟩, happend, hput⟩, hsync⟩
        · rintro ⟨⟨⟨entries, hread⟩, happend, hput⟩, hsync⟩
          exact ⟨entries, hread, happend, hput, hsync⟩
      · rfl
      · intro t
        exact updateThreadAfterTurn_turnLog started _ turn thread.id t

/-- A transition that begins with the two lookups fails cleanly when one of them fails. -/
theorem lookups_clean {runtime : TurnRuntime} {threadId : ThreadId} {turnId : TurnId}
    {next : Thread → Turn → TurnM Turn} :
    wp (do
        let thread ← requireThread threadId
        let turn ← requireTurn turnId
        next thread turn) (fun _ _ => True) (fun _ t => SameRecords runtime t) runtime ↔
      LookupFails runtime threadId turnId ∨
        ∃ thread turn, foundThread runtime.stores threadId = .ok thread ∧
          runtime.turnManager.activeTurns.lookup turnId = some turn ∧
          wp (next thread turn) (fun _ _ => True) (fun _ t => SameRecords runtime t)
            { runtime with stores := runtime.stores.tick } := by
  have hticked : SameRecords runtime { runtime with stores := runtime.stores.tick } :=
    sameRecords_of_untouched rfl rfl rfl
  unfold LookupFails
  rw [wp_bind, wp_requireThread]
  cases foundThread runtime.stores threadId with
  | error e => simp [hticked]
  | ok thread =>
      simp only [wp_bind, wp_requireTurn]
      cases runtime.turnManager.activeTurns.lookup turnId with
      | none => simp [hticked]
      | some turn => simp

/-- Completing and failing a turn. -/
theorem lookups_closeTurn_clean [Clock] {runtime : TurnRuntime} {threadId : ThreadId}
    {turnId : TurnId} {event : String} {finish : Timestamp → Turn → Turn}
    {project : Timestamp → Turn → Thread → Thread}
    (hproject : ∀ endedAt turn thread, (project endedAt turn thread).id = thread.id) :
    wp (do
        let thread ← requireThread threadId
        let turn ← requireTurn turnId
        closeTurn thread turnId turn event finish project) (fun _ _ => True)
        (fun _ t => SameRecords runtime t) runtime ↔
      LookupFails runtime threadId turnId ∨ RestSucceeds runtime threadId := by
  rw [lookups_clean]
  by_cases hfails : LookupFails runtime threadId turnId
  · exact iff_of_true (Or.inl hfails) (Or.inl hfails)
  · rw [or_iff_right hfails, or_iff_right hfails]
    constructor
    · rintro ⟨thread, turn, hthread, hturn, hclose⟩
      exact ⟨thread, hthread, (closeTurn_clean hproject hturn).mp hclose⟩
    · rintro ⟨thread, hthread, hcommit⟩
      obtain ⟨turn, hturn⟩ : ∃ turn, runtime.turnManager.activeTurns.lookup turnId = some turn :=
        Option.ne_none_iff_exists'.mp fun hnone => hfails (Or.inr hnone)
      exact ⟨thread, turn, hthread, hturn, (closeTurn_clean hproject hturn).mpr hcommit⟩

theorem cancelTurn_clean [Clock] (runtime : TurnRuntime) (request : TurnCancelRequest) :
    wp (cancelTurn request) (fun _ _ => True) (fun _ t => SameRecords runtime t) runtime ↔
      LookupFails runtime request.threadId request.turnId ∨
        (∃ turn, runtime.turnManager.activeTurns.lookup request.turnId = some turn ∧
          turn.threadId ≠ request.threadId) ∨
        RestSucceeds runtime request.threadId := by
  unfold cancelTurn
  rw [lookups_clean]
  by_cases hfails : LookupFails runtime request.threadId request.turnId
  · exact iff_of_true (Or.inl hfails) (Or.inl hfails)
  · rw [or_iff_right hfails, or_iff_right hfails]
    obtain ⟨turn, hturn⟩ : ∃ turn, runtime.turnManager.activeTurns.lookup request.turnId = some turn :=
      Option.ne_none_iff_exists'.mp fun hnone => hfails (Or.inr hnone)
    have hfound : ∃ thread, foundThread runtime.stores request.threadId = .ok thread := by
      cases hcase : foundThread runtime.stores request.threadId with
      | error e => exact absurd (Or.inl ⟨e, hcase⟩) hfails
      | ok thread => exact ⟨thread, rfl⟩
    obtain ⟨thread, hthread⟩ := hfound
    by_cases hmismatch : turn.threadId ≠ request.threadId
    · refine iff_of_true ⟨thread, turn, hthread, hturn, ?_⟩ (Or.inl ⟨turn, hturn, hmismatch⟩)
      rw [if_pos hmismatch, wp_bind, wp_throw]
      exact sameRecords_of_untouched rfl rfl rfl
    · have hmatch : ¬ ∃ turn, runtime.turnManager.activeTurns.lookup request.turnId = some turn ∧
          turn.threadId ≠ request.threadId := by
        rintro ⟨other, hother, hne⟩
        rw [hturn, Option.some.injEq] at hother
        exact hmismatch (hother ▸ hne)
      rw [or_iff_right hmatch]
      constructor
      · rintro ⟨other, found, hother, hfound, hclose⟩
        rw [hthread, Except.ok.injEq] at hother
        rw [hturn, Option.some.injEq] at hfound
        subst hother hfound
        rw [if_neg hmismatch] at hclose
        exact ⟨thread, hthread, (closeTurn_clean (by intros; rfl) hturn).mp hclose⟩
      · rintro ⟨other, hother, hcommit⟩
        rw [hthread, Except.ok.injEq] at hother
        subst hother
        refine ⟨thread, turn, hthread, hturn, ?_⟩
        rw [if_neg hmismatch]
        exact (closeTurn_clean (by intros; rfl) hturn).mpr hcommit

/-- A transition leaves the active turns, the thread records and the logs as they were whenever it
fails, exactly under the condition. -/
theorem failure_atomic_iff [Clock] (operation : TurnOperation) (runtime : TurnRuntime) :
    (∀ e t, operation.run runtime = .error e t → SameRecords runtime t) ↔
      operation.FailsCleanly runtime := by
  have hrun : (∀ e t, operation.run runtime = .error e t → SameRecords runtime t) ↔
      wp operation.run (fun _ _ => True) (fun _ t => SameRecords runtime t) runtime := by
    unfold wp
    cases operation.run runtime <;> simp
  rw [hrun]
  cases operation with
  | startTurn thread request => exact startTurn_clean runtime thread request
  | cancelTurn request => exact cancelTurn_clean runtime request
  | markWaitingApproval threadId turnId reason =>
      unfold TurnOperation.run Liz.markWaitingApproval
      exact markTurn_clean (by intros; rfl)
  | markRunning threadId turnId =>
      unfold TurnOperation.run Liz.markRunning
      exact markTurn_clean (by intros; rfl)
  | completeTurn threadId turnId finalMessage =>
      unfold TurnOperation.run Liz.completeTurn
      exact lookups_closeTurn_clean (by intros; rfl)
  | failTurn threadId turnId message =>
      unfold TurnOperation.run Liz.failTurn
      exact lookups_closeTurn_clean (by intros; rfl)

end Conditions

/-! ### A completion that loses its turn

The disk is full when the completion appends its entry, the third operation after reading the
thread and reading the log. The caller is told that it may retry, but the turn has left the table. -/

def runningTurn (id : TurnId) (threadId : ThreadId) : Turn :=
  { id := id, threadId := threadId, kind := .user, status := .running,
    startedAt := "unix:0.000000000", endedAt := none, goal := some "tidy up",
    summary := some "Started turn for: tidy up", checkpointBefore := none, checkpointAfter := none }

/-- One thread with one running turn and an empty log. -/
def oneTurnRuntime : TurnRuntime :=
  { stores := { RuntimeStores.blank with
      threads := AList.singleton "thread_0_1" (.intact (Thread.blank "thread_0_1")) }
    ids := { sequence := 2, readings := 3 }
    turnManager := { TurnManager.default with
      activeTurns := AList.singleton "turn_0_2" (runningTurn "turn_0_2" "thread_0_1") } }

theorem completeTurn_failure_not_atomic :
    ¬ ∀ (disk : Disk) (clock : Clock) (operation : TurnOperation) (runtime : TurnRuntime) e t,
      @TurnOperation.run disk clock operation runtime = .error e t → SameRecords runtime t := by
  intro hclaim
  have hsame := hclaim (diskFullAt 2) stoppedClock
    (.completeTurn "thread_0_1" "turn_0_2" "Done.") oneTurnRuntime _ _ rfl
  have hturn := hsame.activeTurns "turn_0_2"
  revert hturn
  decide

end Liz
