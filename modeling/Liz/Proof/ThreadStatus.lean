import Liz.Base.Runs
import Liz.Proof.ActiveTurns
import Liz.Proof.Lifecycle
import Liz.Proof.ThreadRecords

/-!
# The status of a thread and its active turn

The stored record of a thread says what the turn manager knows of its turn: it waits for approval
when the turn does, and it is active while the turn runs. The operations write both sides, but not
all of them ask whether the turn they are given is a turn of the thread they are given, and none of
the operations on threads looks at the turns. The two sides agree as long as no thread is taken up
while its turn waits and the transitions name the thread of their turn.
-/

namespace Liz

open Program

/-- The thread has an active turn with this status. -/
def TurnManager.hasTurn (turns : TurnManager) (threadId : ThreadId) (status : TurnStatus) : Bool :=
  turns.activeTurns.entries.any fun entry =>
    entry.snd.threadId = threadId && entry.snd.status = status

theorem TurnManager.hasTurn_iff {turns : TurnManager} {threadId : ThreadId} {status : TurnStatus} :
    turns.hasTurn threadId status = true ↔ ∃ id turn, turns.activeTurns.lookup id = some turn ∧
      turn.threadId = threadId ∧ turn.status = status := by
  unfold TurnManager.hasTurn
  simp only [List.any_eq_true, Bool.and_eq_true, decide_eq_true_eq]
  constructor
  · intro ⟨⟨id, turn⟩, hentry, hthread, hstatus⟩
    exact ⟨id, turn, AList.mem_lookup_iff.mpr hentry, hthread, hstatus⟩
  · intro ⟨id, turn, hturn, hthread, hstatus⟩
    exact ⟨⟨id, turn⟩, AList.mem_lookup_iff.mp hturn, hthread, hstatus⟩

/-- The status of the record agrees with the active turn. -/
def Thread.Mirrors (thread : Thread) (turns : TurnManager) (id : ThreadId) : Prop :=
  (thread.status = .waitingApproval ↔ turns.hasTurn id .waitingApproval = true) ∧
    (turns.hasTurn id .running = true → thread.status = .active)

/-- Threads are filed under their own identifiers, and their statuses agree with the active turns. -/
structure StatusOrder (s : TurnRuntime) : Prop where
  table : TableOrder s
  filed : ∀ id thread, s.stores.threads.lookup id = some (.intact thread) → thread.id = id
  mirrored : ∀ id thread, s.stores.threads.lookup id = some (.intact thread) →
    thread.Mirrors s.turnManager id

/-- A turn that is given together with a thread is a turn of that thread, or the thread and the
thread of the turn are as the operation leaves them anyway. -/
def TurnManager.Belongs (turns : TurnManager) (turnId : TurnId) (threadId : ThreadId)
    (otherwise : Turn → Bool) : Prop :=
  ∀ turn ∈ turns.activeTurns.lookup turnId, turn.threadId = threadId ∨ otherwise turn = true

instance (turns : TurnManager) (turnId : TurnId) (threadId : ThreadId) (otherwise : Turn → Bool) :
    Decidable (turns.Belongs turnId threadId otherwise) :=
  inferInstanceAs (Decidable (∀ turn ∈ turns.activeTurns.lookup turnId, _))

section Operations

variable [Clock]

/-- What a caller has to heed: a thread is not taken up while a turn of it waits, and a transition
names the thread of its turn. Starting a turn asks for no open turn of its own accord, and
cancelling one asks for its thread. -/
def ThreadOperation.Heeds (runtime : TurnRuntime) : ThreadOperation → Prop
  | startThread _ => runtime.turnManager.hasTurn runtime.nextThread .waitingApproval = false
  | forkThread _ => runtime.turnManager.hasTurn runtime.nextThread .waitingApproval = false
  | resumeThread request =>
      runtime.turnManager.hasTurn request.threadId .waitingApproval = false
  | turn (.startTurn _ _) => True
  | turn (.cancelTurn _) => True
  | turn (.markWaitingApproval threadId turnId _) =>
      runtime.turnManager.Belongs turnId threadId fun turn =>
        turn.status = .waitingApproval && runtime.turnManager.hasTurn threadId .waitingApproval
  | turn (.markRunning threadId turnId) =>
      runtime.turnManager.Belongs turnId threadId fun turn =>
        turn.status = .running && !runtime.turnManager.hasTurn threadId .waitingApproval
  | turn (.completeTurn threadId turnId _) =>
      runtime.turnManager.Belongs turnId threadId fun turn =>
        turn.status = .running && !runtime.turnManager.hasTurn threadId .waitingApproval
  | turn (.failTurn threadId turnId _) =>
      runtime.turnManager.Belongs turnId threadId fun turn =>
        turn.status = .running && !runtime.turnManager.hasTurn threadId .waitingApproval &&
          !runtime.turnManager.hasTurn threadId .running

instance (runtime : TurnRuntime) (operation : ThreadOperation) :
    Decidable (operation.Heeds runtime) :=
  match operation with
  | .startThread _ => inferInstanceAs (Decidable (_ = false))
  | .forkThread _ => inferInstanceAs (Decidable (_ = false))
  | .resumeThread _ => inferInstanceAs (Decidable (_ = false))
  | .turn (.startTurn _ _) => inferInstanceAs (Decidable True)
  | .turn (.cancelTurn _) => inferInstanceAs (Decidable True)
  | .turn (.markWaitingApproval _ _ _) => inferInstanceAs (Decidable (TurnManager.Belongs _ _ _ _))
  | .turn (.markRunning _ _) => inferInstanceAs (Decidable (TurnManager.Belongs _ _ _ _))
  | .turn (.completeTurn _ _ _) => inferInstanceAs (Decidable (TurnManager.Belongs _ _ _ _))
  | .turn (.failTurn _ _ _) => inferInstanceAs (Decidable (TurnManager.Belongs _ _ _ _))

end Operations

/-! ### What a change of the table does to the threads -/

section Tables

variable {s t : TurnRuntime} {turnId : TurnId} {turn : Turn}

/-- The thread of an active turn has that turn and no other. -/
theorem TableOrder.hasTurn_own (h : TableOrder s)
    (hturn : s.turnManager.activeTurns.lookup turnId = some turn) (status : TurnStatus) :
    s.turnManager.hasTurn turn.threadId status = true ↔ turn.status = status := by
  rw [TurnManager.hasTurn_iff]
  constructor
  · intro ⟨id, other, hother, hthread, hstatus⟩
    obtain rfl := h.alone id turnId other turn hother hturn hthread
    obtain rfl : turn = other := Option.some.inj (hturn.symm.trans hother)
    exact hstatus
  · exact fun hstatus => ⟨turnId, turn, hturn, rfl, hstatus⟩

/-- A thread with an open turn has no turn of another status. -/
theorem TableOrder.not_waiting (h : TableOrder s) {threadId : ThreadId}
    (hrunning : s.turnManager.hasTurn threadId .running = true) :
    s.turnManager.hasTurn threadId .waitingApproval = false := by
  obtain ⟨id, turn, hturn, rfl, hstatus⟩ := TurnManager.hasTurn_iff.mp hrunning
  rw [Bool.eq_false_iff, Ne, h.hasTurn_own hturn, hstatus]
  simp

theorem hasTurn_of_keeps (hkeeps : KeepsTurns s t) (threadId : ThreadId) (status : TurnStatus) :
    t.turnManager.hasTurn threadId status = s.turnManager.hasTurn threadId status := by
  unfold TurnManager.hasTurn
  rw [hkeeps.activeTurns]

theorem TableOrder.hasTurn_of_starts (h : TableOrder s) (hstarts : Starts turn s t)
    (threadId : ThreadId) (status : TurnStatus) :
    t.turnManager.hasTurn threadId status = true ↔
      s.turnManager.hasTurn threadId status = true ∨
        (threadId = turn.threadId ∧ status = .running) := by
  simp only [TurnManager.hasTurn_iff, hstarts.activeTurns]
  constructor
  · intro ⟨id, found, hfound, hthread, hstatus⟩
    by_cases hid : id = turn.id
    · rw [hid, AList.lookup_insert, Option.some.injEq] at hfound
      subst hfound
      exact Or.inr ⟨hthread.symm, hstatus.symm.trans hstarts.running⟩
    · rw [AList.lookup_insert_ne hid] at hfound
      exact Or.inl ⟨id, found, hfound, hthread, hstatus⟩
  · intro hor
    rcases hor with ⟨id, found, hfound, hthread, hstatus⟩ | ⟨rfl, rfl⟩
    · have hid : id ≠ turn.id := fun hid => hstarts.fresh (hid ▸ h.issued id found hfound)
      exact ⟨id, found, (AList.lookup_insert_ne hid).trans hfound, hthread, hstatus⟩
    · exact ⟨turn.id, turn, AList.lookup_insert _, rfl, hstarts.running⟩

theorem TableOrder.hasTurn_of_erases (h : TableOrder s)
    (hturn : s.turnManager.activeTurns.lookup turnId = some turn) (herases : Erases turnId s t)
    (threadId : ThreadId) (status : TurnStatus) :
    t.turnManager.hasTurn threadId status = true ↔
      threadId ≠ turn.threadId ∧ s.turnManager.hasTurn threadId status = true := by
  simp only [TurnManager.hasTurn_iff]
  constructor
  · intro ⟨id, found, hfound, hthread, hstatus⟩
    have hbefore := herases.known hfound
    refine ⟨fun hsame => ?_, id, found, hbefore, hthread, hstatus⟩
    have hid := h.alone id turnId found turn hbefore hturn (hthread.trans hsame)
    rw [hid, herases.lookup_self] at hfound
    exact absurd hfound (by simp)
  · intro ⟨hne, id, found, hfound, hthread, hstatus⟩
    have hid : id ≠ turnId := by
      intro hid
      rw [hid, hturn, Option.some.injEq] at hfound
      exact hne (hfound ▸ hthread.symm)
    exact ⟨id, found, (herases.lookup_ne hid).trans hfound, hthread, hstatus⟩

theorem TableOrder.hasTurn_of_marks (h : TableOrder s)
    (hturn : s.turnManager.activeTurns.lookup turnId = some turn) {marked : Turn}
    (hmarks : Marks turnId marked s t) (hsame : marked.threadId = turn.threadId)
    (threadId : ThreadId) (status : TurnStatus) :
    t.turnManager.hasTurn threadId status = true ↔
      (threadId = turn.threadId ∧ status = marked.status) ∨
        (threadId ≠ turn.threadId ∧ s.turnManager.hasTurn threadId status = true) := by
  simp only [TurnManager.hasTurn_iff, hmarks.activeTurns]
  constructor
  · intro ⟨id, found, hfound, hthread, hstatus⟩
    by_cases hid : id = turnId
    · rw [hid, AList.lookup_insert, Option.some.injEq] at hfound
      subst hfound
      exact Or.inl ⟨hthread.symm.trans hsame, hstatus.symm⟩
    · rw [AList.lookup_insert_ne hid] at hfound
      refine Or.inr ⟨fun hown => hid ?_, id, found, hfound, hthread, hstatus⟩
      exact h.alone id turnId found turn hfound hturn (hthread.trans hown)
  · intro hor
    rcases hor with ⟨rfl, rfl⟩ | ⟨hne, id, found, hfound, hthread, hstatus⟩
    · exact ⟨turnId, marked, AList.lookup_insert _, hsame, rfl⟩
    · have hid : id ≠ turnId := by
        intro hid
        rw [hid, hturn, Option.some.injEq] at hfound
        exact hne (hfound ▸ hthread.symm)
      exact ⟨id, found, (AList.lookup_insert_ne hid).trans hfound, hthread, hstatus⟩

end Tables

/-! ### One operation -/

section Steps

variable {s t : TurnRuntime}

/-- One record is written. It agrees with the new table, and on the other threads the table says
what it said, or a running turn has gone. -/
theorem StatusOrder.of_write (h : StatusOrder s) (htable : TableOrder t) {record : Thread}
    (hthreads : t.stores.threads = s.stores.threads.insert record.id (.intact record))
    (hself : record.Mirrors t.turnManager record.id)
    (hothers : ∀ id, id ≠ record.id →
      (t.turnManager.hasTurn id .waitingApproval = true ↔
        s.turnManager.hasTurn id .waitingApproval = true) ∧
      (t.turnManager.hasTurn id .running = true → s.turnManager.hasTurn id .running = true)) :
    StatusOrder t := by
  have hlookup : ∀ id thread, t.stores.threads.lookup id = some (.intact thread) →
      (id = record.id ∧ thread = record) ∨
        (id ≠ record.id ∧ s.stores.threads.lookup id = some (.intact thread)) := by
    intro id thread hthread
    rw [hthreads] at hthread
    by_cases hid : id = record.id
    · rw [hid, AList.lookup_insert, Option.some.injEq, JsonFile.intact.injEq] at hthread
      exact Or.inl ⟨hid, hthread.symm⟩
    · rw [AList.lookup_insert_ne hid] at hthread
      exact Or.inr ⟨hid, hthread⟩
  refine ⟨htable, ?_, ?_⟩
  · intro id thread hthread
    rcases hlookup id thread hthread with ⟨rfl, rfl⟩ | ⟨-, hbefore⟩
    · rfl
    · exact h.filed id thread hbefore
  · intro id thread hthread
    rcases hlookup id thread hthread with ⟨rfl, rfl⟩ | ⟨hid, hbefore⟩
    · exact hself
    · obtain ⟨hwaiting, hrunning⟩ := h.mirrored id thread hbefore
      obtain ⟨hwaits, hruns⟩ := hothers id hid
      exact ⟨hwaiting.trans hwaits.symm, fun hturn => hrunning (hruns hturn)⟩

/-- A thread is taken up: its record becomes active and the table is as it was. -/
theorem StatusOrder.of_taken_up (h : StatusOrder s) {record : Thread}
    (hkeeps : KeepsTurns s t) (hlists : ListsRecord record s t) (hstatus : record.status = .active)
    (hidle : s.turnManager.hasTurn record.id .waitingApproval = false) : StatusOrder t := by
  have hsame := hasTurn_of_keeps hkeeps
  refine h.of_write (h.table.of_keeps hkeeps) hlists.threads ⟨?_, fun _ => hstatus⟩ fun id _ => ?_
  · rw [hsame, hidle, hstatus]
    simp
  · rw [hsame, hsame]
    exact ⟨Iff.rfl, fun hturn => hturn⟩

/-- A turn has started on a thread without an open one. -/
theorem StatusOrder.of_started (h : StatusOrder s) (htable : TableOrder t) {turn : Turn}
    {record : Thread} (hstarts : Starts turn s t) (hid : turn.threadId = record.id)
    (halone : s.turnManager.threadHasRunningTurn turn.threadId = false)
    (hlists : ListsRecord record s t) (hstatus : record.status = .active) : StatusOrder t := by
  have hturns := h.table.hasTurn_of_starts hstarts
  refine h.of_write htable hlists.threads ⟨?_, fun _ => hstatus⟩ fun id hne => ?_
  · rw [hturns, hstatus]
    have hnone : s.turnManager.hasTurn record.id .waitingApproval ≠ true := by
      intro hwaiting
      obtain ⟨id, other, hother, hthread, hwaits⟩ := TurnManager.hasTurn_iff.mp hwaiting
      have hopen : other.status.isOpen = true := by rw [hwaits]; rfl
      exact threadHasRunningTurn_eq_false.mp halone id other hother hopen (hthread.trans hid.symm)
    simp [hnone]
  · rw [hturns, hturns]
    refine ⟨by simp, fun hturn => hturn.resolve_right ?_⟩
    intro hstarted
    exact hne (hstarted.1.trans hid)

/-- A turn has been closed under the thread `threadId`. When it is a turn of another thread, it was
running, and the status that is written agrees with the turn that `threadId` has itself. -/
theorem StatusOrder.of_closed (h : StatusOrder s) (htable : TableOrder t) {threadId : ThreadId}
    {turnId : TurnId} {turn : Turn} {record : Thread} {status : ThreadStatus}
    (herases : Erases turnId s t) (hprojects : ProjectsTurn threadId turnId status turn record s t)
    (hwaiting : status ≠ .waitingApproval)
    (hbelongs : turn.threadId = threadId ∨ (turn.status = .running ∧
      s.turnManager.hasTurn threadId .waitingApproval = false ∧
      (s.turnManager.hasTurn threadId .running = true → status = .active))) : StatusOrder t := by
  obtain ⟨found, hfound, hrecord⟩ := hprojects.stored
  have hid : record.id = threadId := hrecord.trans (h.filed threadId found hfound)
  have hturns := h.table.hasTurn_of_erases hprojects.active herases
  have hown := h.table.hasTurn_own hprojects.active
  refine h.of_write htable hprojects.writes.threads ⟨?_, ?_⟩ fun id hne => ?_
  · rw [hturns, hprojects.status, hid]
    rcases hbelongs with hsame | ⟨-, hidle, -⟩
    · simp [hwaiting, hsame]
    · simp [hwaiting, hidle]
  · rw [hturns, hprojects.status, hid]
    rcases hbelongs with hsame | ⟨-, -, hruns⟩
    · exact fun hturn => absurd hsame.symm hturn.1
    · exact fun hturn => hruns hturn.2
  · rw [hturns, hturns]
    refine ⟨⟨fun hturn => hturn.2, fun hturn => ⟨?_, hturn⟩⟩, fun hturn => hturn.2⟩
    rintro rfl
    -- a turn of another thread was running, so that thread does not wait
    rcases hbelongs with hsame | ⟨hrunning, -⟩
    · exact hne (hsame.trans hid.symm)
    · rw [hown, hrunning] at hturn
      exact absurd hturn (by simp)

/-- A turn has been marked under the thread `threadId`. When it is a turn of another thread, it had
this status before, and so has the turn of `threadId`. -/
theorem StatusOrder.of_marked (h : StatusOrder s) (htable : TableOrder t) {threadId : ThreadId}
    {turnId : TurnId} {turn marked : Turn} {record : Thread} {status : ThreadStatus}
    (hmarks : Marks turnId marked s t)
    (hprojects : ProjectsTurn threadId turnId status turn record s t)
    (hsame : marked.threadId = turn.threadId)
    (hstatus : status = .waitingApproval ↔ marked.status = .waitingApproval)
    (hactive : marked.status = .running → status = .active)
    (hbelongs : turn.threadId = threadId ∨ (turn.status = marked.status ∧
      (status = .waitingApproval ↔ s.turnManager.hasTurn threadId .waitingApproval = true) ∧
      (s.turnManager.hasTurn threadId .running = true → status = .active))) : StatusOrder t := by
  obtain ⟨found, hfound, hrecord⟩ := hprojects.stored
  have hid : record.id = threadId := hrecord.trans (h.filed threadId found hfound)
  have hturns := h.table.hasTurn_of_marks hprojects.active hmarks hsame
  have hown := h.table.hasTurn_own hprojects.active
  -- where the turn had the status before, the table says of every thread what it said
  have hkept : turn.status = marked.status → ∀ id status,
      t.turnManager.hasTurn id status = true ↔ s.turnManager.hasTurn id status = true := by
    intro heq id status
    rw [hturns]
    by_cases hid : id = turn.threadId
    · subst hid
      simp [hown, heq, eq_comm]
    · simp [hid]
  refine h.of_write htable hprojects.writes.threads ⟨?_, ?_⟩ fun id hne => ?_
  · rw [hprojects.status, hid]
    rcases hbelongs with rfl | ⟨heq, hwaits, -⟩
    · rw [hturns, hstatus]
      simp only [true_and, ne_eq, not_true_eq_false, false_and, or_false]
      exact eq_comm
    · rw [hkept heq, hwaits]
  · rw [hprojects.status, hid]
    rcases hbelongs with rfl | ⟨heq, -, hruns⟩
    · rw [hturns]
      intro hturn
      rcases hturn with ⟨-, hrunning⟩ | ⟨hother, -⟩
      · exact hactive hrunning.symm
      · exact absurd rfl hother
    · rw [hkept heq]
      exact hruns
  · rcases hbelongs with rfl | ⟨heq, -, -⟩
    · have hother : id ≠ turn.threadId := fun hsame => hne (hsame.trans hid.symm)
      rw [hturns, hturns]
      simp [hother]
    · rw [hkept heq, hkept heq]
      exact ⟨Iff.rfl, fun hturn => hturn⟩

variable [Disk] [Clock]

theorem TableOrder.threadStep (h : TableOrder s) (operation : ThreadOperation) :
    TableOrder (operation.step s) := by
  have htaken : ∀ {α : Type} {p : TurnM α}, Guarantees KeepsTurns p → TableOrder (after p s) :=
    fun hp => h.of_keeps (wp_after.mp (hp s))
  unfold ThreadOperation.step
  cases operation with
  | startThread request =>
      rw [ThreadOperation.run, after_ignored]
      exact htaken (startThread_keepsTurns request)
  | resumeThread request =>
      rw [ThreadOperation.run, after_ignored]
      exact htaken (resumeThread_keepsTurns request)
  | forkThread request =>
      rw [ThreadOperation.run, after_ignored]
      exact htaken (forkThread_keepsTurns request)
  | turn operation =>
      rw [ThreadOperation.run, after_ignored]
      exact h.step operation

/-- An accepted operation that heeds what it has to keeps the statuses in agreement. -/
theorem StatusOrder.step (h : StatusOrder s) (operation : ThreadOperation)
    (haccepted : operation.Accepted s) (hheeds : operation.Heeds s) :
    StatusOrder (operation.step s) := by
  have htable := h.table.threadStep operation
  unfold ThreadOperation.Accepted at haccepted
  unfold ThreadOperation.step at htable ⊢
  cases operation with
  | startThread request =>
      rw [ThreadOperation.run, after_ignored]
      obtain ⟨record, hstatus, hlists, hid⟩ := of_accepted haccepted (startThread_lists request)
      refine h.of_taken_up (wp_after.mp (startThread_keepsTurns request s)) hlists hstatus ?_
      rw [hid]
      exact hheeds
  | forkThread request =>
      rw [ThreadOperation.run, after_ignored]
      obtain ⟨record, hstatus, hlists, hid⟩ := of_accepted haccepted (forkThread_lists request)
      refine h.of_taken_up (wp_after.mp (forkThread_keepsTurns request s)) hlists hstatus ?_
      rw [hid]
      exact hheeds
  | resumeThread request =>
      rw [ThreadOperation.run, after_ignored]
      obtain ⟨record, hstatus, hlists, found, hfound, hid⟩ :=
        of_accepted haccepted (resumeThread_lists request)
      refine h.of_taken_up (wp_after.mp (resumeThread_keepsTurns request s)) hlists hstatus ?_
      rw [hid, h.filed request.threadId found hfound]
      exact hheeds
  | turn operation =>
      rw [ThreadOperation.run, after_ignored] at htable ⊢
      cases operation with
      | startTurn thread request =>
          have hstarts := wp_and (startTurn_starts (s := s) thread request)
            (startTurn_alone (s := s) thread request)
          have hlists := startTurn_lists (s := s) thread request
          have hboth := wp_mono (wp_and hstarts hlists) (fun _ _ h => h) (fun _ _ _ => trivial)
          obtain ⟨turn, ⟨hstarts, halone⟩, hthread, record, hid, hstatus, hlists⟩ :=
            of_accepted haccepted hboth
          exact h.of_started htable hstarts (hthread.trans hid.symm) halone hlists hstatus
      | cancelTurn request =>
          obtain ⟨-, herases, turn, record, hsame, hprojects⟩ :=
            of_accepted haccepted (cancelTurn_projects request)
          exact h.of_closed htable herases hprojects (by simp) (Or.inl hsame)
      | completeTurn threadId turnId finalMessage =>
          obtain ⟨-, herases, turn, record, hprojects⟩ :=
            of_accepted haccepted (completeTurn_projects threadId turnId finalMessage)
          have hbelongs := hheeds turn hprojects.active
          simp only [Bool.and_eq_true, decide_eq_true_eq, Bool.not_eq_true'] at hbelongs
          refine h.of_closed htable herases hprojects (by simp) (hbelongs.imp_right ?_)
          exact fun hother => ⟨hother.1, hother.2, fun _ => rfl⟩
      | failTurn threadId turnId message =>
          obtain ⟨-, herases, turn, record, hprojects⟩ :=
            of_accepted haccepted (failTurn_projects threadId turnId message)
          have hbelongs := hheeds turn hprojects.active
          simp only [Bool.and_eq_true, decide_eq_true_eq, Bool.not_eq_true'] at hbelongs
          refine h.of_closed htable herases hprojects (by simp) (hbelongs.imp_right ?_)
          intro hother
          refine ⟨hother.1.1, hother.1.2, fun hrunning => ?_⟩
          rw [hother.2] at hrunning
          exact absurd hrunning (by simp)
      | markWaitingApproval threadId turnId reason =>
          obtain ⟨-, turn, record, hmarks, hprojects⟩ :=
            of_accepted haccepted (markWaitingApproval_projects threadId turnId reason)
          have hbelongs := hheeds turn hprojects.active
          simp only [Bool.and_eq_true, decide_eq_true_eq] at hbelongs
          refine h.of_marked htable hmarks hprojects rfl (by simp [Turn.waiting])
            (by simp [Turn.waiting]) (hbelongs.imp_right ?_)
          intro hother
          refine ⟨hother.1, ⟨fun _ => hother.2, fun _ => rfl⟩, fun hrunning => ?_⟩
          have hidle := h.table.not_waiting hrunning
          rw [hother.2] at hidle
          exact absurd hidle (by simp)
      | markRunning threadId turnId =>
          obtain ⟨-, turn, record, hmarks, hprojects⟩ :=
            of_accepted haccepted (markRunning_projects threadId turnId)
          have hbelongs := hheeds turn hprojects.active
          simp only [Bool.and_eq_true, decide_eq_true_eq, Bool.not_eq_true'] at hbelongs
          refine h.of_marked htable hmarks hprojects rfl (by simp [Turn.resumed])
            (fun _ => rfl) (hbelongs.imp_right ?_)
          intro hother
          refine ⟨hother.1, ?_, fun _ => rfl⟩
          simp [hother.2]

end Steps

/-! ### Runs -/

/-- A runtime whose manager has just been created. -/
def TurnRuntime.over (stores : RuntimeStores) (ids : IdGenerator) : TurnRuntime :=
  { stores := stores, ids := ids, turnManager := .default }

section Runs

variable [Disk] [Clock]

/-- In a run of accepted operations that heed what they have to, over files in which no thread
waits, a stored thread waits for approval if and only if its active turn does, and it is active
while its turn runs. -/
theorem status_mirrors_turn (stores : RuntimeStores) (ids : IdGenerator)
    (operations : List ThreadOperation)
    (hfiled : ∀ id thread, stores.threads.lookup id = some (.intact thread) →
      thread.id = id ∧ thread.status ≠ .waitingApproval)
    (hall : Runs.AllSteps ThreadOperation.step
      (fun s operation => operation.Accepted s ∧ operation.Heeds s) (.over stores ids) operations) :
    ∀ s ∈ Runs.states ThreadOperation.step (.over stores ids) operations,
      ∀ id thread, s.stores.threads.lookup id = some (.intact thread) →
        (thread.status = .waitingApproval ↔
          s.turnManager.hasTurn id .waitingApproval = true) ∧
        (s.turnManager.hasTurn id .running = true → thread.status = .active) := by
  have hnone : ∀ id status, (TurnManager.default).hasTurn id status ≠ true := by
    intro id status hturn
    obtain ⟨_, _, hturn, -⟩ := TurnManager.hasTurn_iff.mp hturn
    exact absurd ((AList.lookup_empty _).symm.trans hturn) (by simp)
  have hstart : StatusOrder (.over stores ids) := by
    refine ⟨(TurnHistory.inOrder_start stores ids).table, fun id thread hthread =>
      (hfiled id thread hthread).1, fun id thread hthread => ⟨?_, ?_⟩⟩
    · have hsettled := (hfiled id thread hthread).2
      exact ⟨fun hwaits => absurd hwaits hsettled, fun hturn => absurd hturn (hnone _ _)⟩
    · exact fun hturn => absurd hturn (hnone _ _)
  intro s hs
  exact (Runs.invariant (fun s operation h hstep => h.step operation hstep.1 hstep.2) hstart hall
    s hs).mirrored

end Runs

/-- A thread is created, a turn starts on it, and the turn comes to wait for approval. -/
def approvalAsked : List ThreadOperation :=
  [.startThread ⟨none, none, none, none⟩,
    .turn (.startTurn (Thread.blank "thread_0_1") (turnRequest "delete .env")),
    .turn (.markWaitingApproval "thread_0_1" "turn_0_2" "delete .env")]

/-- The thread while it waits. -/
def askedThread : Thread :=
  { Thread.blank "thread_0_1" with
    status := .waitingApproval
    activeGoal := some "delete .env"
    activeSummary := some "Waiting approval: delete .env"
    latestTurnId := some "turn_0_2" }

theorem asked_thread_waits :
    askedThread.status = .waitingApproval ↔
      (@Runs.final _ _ (@ThreadOperation.step calmDisk stoppedClock) (.over .blank .new)
        approvalAsked).turnManager.hasTurn "thread_0_1" .waitingApproval = true :=
  (@status_mirrors_turn calmDisk stoppedClock .blank .new approvalAsked
    (fun id thread hthread => absurd ((AList.lookup_empty id).symm.trans hthread) (by simp))
    (by decide +kernel) _ (Runs.final_mem_states _ _) "thread_0_1" askedThread
    (by decide +kernel)).1

/-- A thread that is resumed while its turn waits for approval becomes active. -/
theorem resumed_thread_is_active :
    ¬ ∀ (_ : Disk) (_ : Clock) (operations : List ThreadOperation),
      Runs.AllSteps ThreadOperation.step (fun s operation => operation.Accepted s)
        (.over .blank .new) operations →
      ∀ s ∈ Runs.states ThreadOperation.step (.over .blank .new) operations,
      ∀ id thread, s.stores.threads.lookup id = some (.intact thread) →
        (thread.status = .waitingApproval ↔
          s.turnManager.hasTurn id .waitingApproval = true) ∧
        (s.turnManager.hasTurn id .running = true → thread.status = .active) := by
  intro h
  have hrun := h calmDisk stoppedClock (approvalAsked ++ [.resumeThread ⟨"thread_0_1"⟩])
    (by decide +kernel) _ (Runs.final_mem_states _ _) "thread_0_1"
    { askedThread with status := .active } (by decide +kernel)
  have hwaits := hrun.1.mpr (by decide +kernel)
  exact absurd hwaits (by decide)

end Liz
