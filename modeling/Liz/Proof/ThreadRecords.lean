import Liz.Proof.Ledger
import Liz.Runtime.Operations

/-!
# What an accepted operation writes

An operation that the runtime carries out writes one thread record. Starting, resuming and forking
a thread and starting a turn also put the thread at the end of the active threads in the memory
file; the other transitions leave the memory file alone, and write the record of a thread that was
stored before.
-/

namespace Liz

open Program

/-- The record has been written, and the memory file is as it was. -/
structure WritesRecord (record : Thread) (s t : TurnRuntime) : Prop where
  threads : t.stores.threads = s.stores.threads.insert record.id (.intact record)
  memory : t.stores.globalMemory = s.stores.globalMemory

/-- The record has been written, and its thread has become the last one of the active threads. -/
structure ListsRecord (record : Thread) (s t : TurnRuntime) : Prop where
  threads : t.stores.threads = s.stores.threads.insert record.id (.intact record)
  listed : ∃ snapshot, storedMemory s.stores = some snapshot ∧
    t.stores.globalMemory = some (.intact { snapshot with
      activeThreadIds := snapshot.activeThreadIds.filter (· != record.id) ++ [record.id] })

/-- The thread files and the memory file are as they were. -/
structure KeepsRecords (s t : TurnRuntime) : Prop where
  threads : t.stores.threads = s.stores.threads
  memory : t.stores.globalMemory = s.stores.globalMemory

section Relations

variable {record : Thread} {s t u : TurnRuntime}

theorem KeepsRecords.writes (h : KeepsRecords s t) (h' : WritesRecord record t u) :
    WritesRecord record s u :=
  ⟨h.threads ▸ h'.threads, h'.memory.trans h.memory⟩

theorem KeepsRecords.lists (h : KeepsRecords s t) (h' : ListsRecord record t u) :
    ListsRecord record s u := by
  refine ⟨h.threads ▸ h'.threads, ?_⟩
  obtain ⟨snapshot, hsnapshot, hlisted⟩ := h'.listed
  rw [storedMemory, h.memory] at hsnapshot
  exact ⟨snapshot, hsnapshot, hlisted⟩

end Relations

/-- The record of a stored thread has been written with this status, on account of a turn that was
active. -/
structure ProjectsTurn (threadId : ThreadId) (turnId : TurnId) (status : ThreadStatus)
    (turn : Turn) (record : Thread) (s t : TurnRuntime) : Prop where
  stored : ∃ found, s.stores.threads.lookup threadId = some (.intact found) ∧ record.id = found.id
  active : s.turnManager.activeTurns.lookup turnId = some turn
  status : record.status = status
  writes : WritesRecord record s t

/-! ### Programs -/

/-- What a program guarantees where it returns holds after it was accepted. -/
theorem of_accepted {α : Type} {p : TurnM α} {R : α → TurnRuntime → Prop} {s : TurnRuntime}
    (haccepted : (result (do let _ ← p : TurnM Unit) s).isSome)
    (h : wp p R (fun _ _ => True) s) : ∃ a, R a (after p s) := by
  rw [isSome_result_ignored] at haccepted
  obtain ⟨a, ha⟩ := Option.isSome_iff_exists.mp haccepted
  exact ⟨a, wp_of_result h ha⟩

section Programs

variable [Disk] {s : TurnRuntime}

theorem putThread_writes (record : Thread) :
    wp (stored (RuntimeStores.putThread record)) (fun _ t => WritesRecord record s t)
      (fun _ _ => True) s := by
  rw [wp_stored, wp_putThread]
  exact ⟨fun _ => ⟨rfl, rfl⟩, fun _ _ => trivial⟩

/-- Writing a record and putting its thread at the end of the active threads. -/
theorem listThread_lists {record : Thread} {present : Bool} (hpresent : present = true) :
    wp (do
        stored (RuntimeStores.putThread record)
        syncActiveThreadIds record.id present)
      (fun _ t => ListsRecord record s t) (fun _ _ => True) s := by
  subst hpresent
  rw [wp_bind]
  refine wp_mono (putThread_writes record) (fun _ t ht => ?_) (fun _ _ _ => trivial)
  unfold syncActiveThreadIds
  rw [wp_bind, wp_stored]
  refine wp_readGlobalMemory (fun snapshot hsnapshot => ?_) (fun _ => trivial)
  rw [wp_stored]
  refine wp_writeGlobalMemory ?_ (fun _ => trivial) (fun _ _ => trivial)
  rw [storedMemory, ht.memory] at hsnapshot
  exact ⟨ht.threads, snapshot, hsnapshot, rfl⟩

/-- The three operations on threads end alike. -/
theorem storeThread_lists (record : Thread) :
    wp (do
        stored (RuntimeStores.putThread record)
        syncActiveThreadIds record.id true
        pure record)
      (fun thread t => thread = record ∧ ListsRecord record s t) (fun _ _ => True) s := by
  have h : wp (do
      stored (RuntimeStores.putThread record)
      syncActiveThreadIds record.id true) (fun _ t => ListsRecord record s t) (fun _ _ => True) s :=
    listThread_lists rfl
  rw [wp_bind] at h ⊢
  refine wp_mono h (fun _ t ht => ?_) (fun _ _ _ => trivial)
  rw [wp_bind]
  exact wp_mono ht (fun _ _ hlists => ⟨rfl, hlists⟩) (fun _ _ _ => trivial)

theorem resumeThread_lists (request : ThreadResumeRequest) :
    wp (resumeThread request)
      (fun thread t => thread.status = .active ∧ ListsRecord thread s t ∧
        ∃ found, s.stores.threads.lookup request.threadId = some (.intact found) ∧
          thread.id = found.id)
      (fun _ _ => True) s := by
  unfold resumeThread
  rw [wp_bind, wp_requireThread]
  refine ⟨fun found hfound => ?_, fun _ _ => trivial⟩
  refine wp_mono (storeThread_lists _) (fun thread t h => ?_) (fun _ _ _ => trivial)
  obtain ⟨rfl, hlists⟩ := h
  have hkeeps : KeepsRecords s { s with stores := s.stores.tick } := ⟨rfl, rfl⟩
  exact ⟨rfl, hkeeps.lists hlists, found, lookup_of_foundThread hfound, rfl⟩

theorem appendTransition_keepsRecords (threadId : ThreadId) (turnId : TurnId)
    (recordedAt : Timestamp) (event summary : String) :
    wp (appendTransition threadId turnId recordedAt event summary)
      (fun _ t => KeepsRecords s t) (fun _ _ => True) s := by
  rw [wp_appendTransition]
  exact ⟨fun _ _ _ _ => ⟨fun _ => ⟨rfl, rfl⟩, fun _ _ => trivial⟩, fun _ _ => trivial⟩

variable [Clock]

/-- The identifier that the next new thread gets. -/
def TurnRuntime.nextThread (runtime : TurnRuntime) : ThreadId :=
  runtime.ids.nowTimestamp.2.nextThreadId.1

theorem startThread_lists (request : ThreadStartRequest) :
    wp (startThread request)
      (fun thread t => thread.status = .active ∧ ListsRecord thread s t ∧ thread.id = s.nextThread)
      (fun _ _ => True) s := by
  unfold startThread
  rw [wp_bind, wp_drawn]
  dsimp only
  rw [wp_bind, wp_drawn]
  refine wp_mono (storeThread_lists _) (fun thread t h => ?_) (fun _ _ _ => trivial)
  obtain ⟨rfl, hlists⟩ := h
  exact ⟨rfl, ⟨hlists.threads, hlists.listed⟩, rfl⟩

theorem forkThread_lists (request : ThreadForkRequest) :
    wp (forkThread request)
      (fun thread t => thread.status = .active ∧ ListsRecord thread s t ∧ thread.id = s.nextThread)
      (fun _ _ => True) s := by
  unfold forkThread
  rw [wp_bind, wp_requireThread]
  refine ⟨fun parent _ => ?_, fun _ _ => trivial⟩
  rw [wp_bind, wp_drawn]
  dsimp only
  rw [wp_bind, wp_drawn]
  refine wp_mono (storeThread_lists _) (fun thread t h => ?_) (fun _ _ _ => trivial)
  obtain ⟨rfl, hlists⟩ := h
  exact ⟨rfl, ⟨hlists.threads, hlists.listed⟩, rfl⟩

/-! ### Transitions -/

theorem startTurn_lists (thread : Thread) (request : TurnStartRequest) :
    wp (startTurn thread request)
      (fun turn t => turn.threadId = thread.id ∧ ∃ record : Thread, record.id = thread.id ∧
        record.status = .active ∧ ListsRecord record s t)
      (fun _ _ => True) s := by
  rw [wp_startTurn]
  refine ⟨fun _ => trivial, fun _ turn hturn => ?_⟩
  have hthread : turn.threadId = thread.id := by rw [hturn]; rfl
  rw [wp_bind]
  refine wp_mono (appendTransition_keepsRecords _ _ _ _ _) (fun _ u hu => ?_) (fun _ _ _ => trivial)
  rw [wp_bind]
  refine wp_mono (listThread_lists rfl) (fun _ v hv => ?_) (fun _ _ _ => trivial)
  rw [wp_bind, wp_modifyTurns, wp_pure]
  have hlists := hu.lists hv
  refine ⟨hthread, _, ?_, ?_, ⟨hlists.threads, hlists.listed⟩⟩
  · rfl
  · rfl

theorem closeTurn_writes (thread : Thread) (turnId : TurnId) (turn : Turn) (event : String)
    (finish : Timestamp → Turn → Turn) (project : Timestamp → Turn → Thread → Thread) :
    wp (closeTurn thread turnId turn event finish project)
      (fun closed t => WritesRecord (project s.ids.nowTimestamp.1 closed thread) s t)
      (fun _ _ => True) s := by
  unfold closeTurn
  rw [wp_bind, wp_modifyTurns, wp_bind, wp_drawn]
  dsimp only
  rw [wp_bind]
  refine wp_mono (appendTransition_keepsRecords _ _ _ _ _) (fun _ u hu => ?_) (fun _ _ _ => trivial)
  rw [wp_bind]
  refine wp_mono (putThread_writes _) (fun _ v hv => ?_) (fun _ _ _ => trivial)
  have hwrites := hu.writes hv
  exact ⟨hwrites.threads, hwrites.memory⟩

/-- A closing of a turn that has been found. -/
theorem closeTurn_projects {thread : Thread} {threadId : ThreadId} {turnId : TurnId} {turn : Turn}
    {event : String} {status : ThreadStatus} {finish : Timestamp → Turn → Turn}
    {project : Timestamp → Turn → Thread → Thread}
    (hproject : ∀ endedAt turn thread, (project endedAt turn thread).id = thread.id ∧
      (project endedAt turn thread).status = status)
    (hthread : foundThread s.stores threadId = .ok thread)
    (hturn : s.turnManager.activeTurns.lookup turnId = some turn) :
    wp (closeTurn thread turnId turn event finish project)
      (fun _ t => Erases turnId s t ∧ ∃ record,
        ProjectsTurn threadId turnId status turn record s t)
      (fun _ _ => True) { s with stores := s.stores.tick } := by
  have herases := closeTurn_returns (s := s) thread turnId turn event finish project
  refine wp_mono (wp_and herases (closeTurn_writes thread turnId turn event finish project)) ?_
    (fun _ _ _ => trivial)
  intro closed t h
  obtain ⟨⟨herases, -⟩, hwrites⟩ := h
  obtain ⟨hid, hstatus⟩ := hproject s.ids.nowTimestamp.1 closed thread
  exact ⟨herases, _, ⟨thread, lookup_of_foundThread hthread, hid⟩, hturn, hstatus,
    hwrites.threads, hwrites.memory⟩

/-- What completing and failing write. -/
theorem lookups_closeTurn_projects {threadId : ThreadId} {turnId : TurnId} {event : String}
    {status : ThreadStatus} {finish : Timestamp → Turn → Turn}
    {project : Timestamp → Turn → Thread → Thread}
    (hproject : ∀ endedAt turn thread, (project endedAt turn thread).id = thread.id ∧
      (project endedAt turn thread).status = status) :
    wp (do
        let thread ← requireThread threadId
        let turn ← requireTurn turnId
        closeTurn thread turnId turn event finish project)
      (fun _ t => Erases turnId s t ∧ ∃ turn record,
        ProjectsTurn threadId turnId status turn record s t)
      (fun _ _ => True) s := by
  rw [wp_lookups]
  refine ⟨fun _ _ => trivial, fun thread hthread => ⟨fun _ => trivial, fun turn hturn => ?_⟩⟩
  exact wp_mono (closeTurn_projects hproject hthread hturn)
    (fun _ _ h => ⟨h.1, turn, h.2⟩) (fun _ _ _ => trivial)

theorem completeTurn_projects (threadId : ThreadId) (turnId : TurnId) (finalMessage : String) :
    wp (completeTurn threadId turnId finalMessage)
      (fun _ t => Erases turnId s t ∧ ∃ turn record,
        ProjectsTurn threadId turnId .active turn record s t)
      (fun _ _ => True) s :=
  lookups_closeTurn_projects fun _ _ _ => ⟨rfl, rfl⟩

theorem failTurn_projects (threadId : ThreadId) (turnId : TurnId) (message : String) :
    wp (failTurn threadId turnId message)
      (fun _ t => Erases turnId s t ∧ ∃ turn record,
        ProjectsTurn threadId turnId .failed turn record s t)
      (fun _ _ => True) s :=
  lookups_closeTurn_projects fun _ _ _ => ⟨rfl, rfl⟩

/-- Cancelling is the one closing that asks whether the turn is a turn of the thread. -/
theorem cancelTurn_projects (request : TurnCancelRequest) :
    wp (cancelTurn request)
      (fun _ t => Erases request.turnId s t ∧ ∃ turn record, turn.threadId = request.threadId ∧
        ProjectsTurn request.threadId request.turnId .interrupted turn record s t)
      (fun _ _ => True) s := by
  unfold cancelTurn
  rw [wp_lookups]
  refine ⟨fun _ _ => trivial, fun thread hthread => ⟨fun _ => trivial, fun turn hturn => ?_⟩⟩
  by_cases hmismatch : turn.threadId ≠ request.threadId
  · rw [if_pos hmismatch, wp_bind, wp_throw]
    trivial
  · rw [if_neg hmismatch]
    refine wp_mono (closeTurn_projects (fun _ _ _ => ⟨rfl, rfl⟩) hthread hturn) ?_
      (fun _ _ _ => trivial)
    intro _ t h
    obtain ⟨herases, record, hprojects⟩ := h
    exact ⟨herases, turn, record, not_not.mp hmismatch, hprojects⟩

/-- What the two marks write. -/
theorem markTurn_projects {threadId : ThreadId} {turnId : TurnId} {event summary : String}
    {status : ThreadStatus} {mark : Turn → Turn} {project : Timestamp → Turn → Thread → Thread}
    (hproject : ∀ recordedAt turn thread, (project recordedAt turn thread).id = thread.id ∧
      (project recordedAt turn thread).status = status) :
    wp (markTurn threadId turnId event summary mark project)
      (fun _ t => ∃ turn record, Marks turnId (mark turn) s t ∧
        ProjectsTurn threadId turnId status turn record s t)
      (fun _ _ => True) s := by
  have hwrites : wp (markTurn threadId turnId event summary mark project)
      (fun _ t => ∃ turn record, ProjectsTurn threadId turnId status turn record s t)
      (fun _ _ => True) s := by
    unfold markTurn
    rw [wp_bind, wp_requireThread]
    refine ⟨fun thread hthread => ?_, fun _ _ => trivial⟩
    rw [wp_bind, wp_drawn, wp_bind, wp_requireTurn]
    refine ⟨fun turn hturn => ?_, fun _ => trivial⟩
    rw [wp_bind, wp_modifyTurns]
    dsimp only
    rw [wp_bind]
    refine wp_mono (appendTransition_keepsRecords _ _ _ _ _) (fun _ u hu => ?_)
      (fun _ _ _ => trivial)
    rw [wp_bind]
    refine wp_mono (putThread_writes _) (fun _ v hv => ?_) (fun _ _ _ => trivial)
    rw [wp_pure]
    have hwrites := hu.writes hv
    obtain ⟨hid, hstatus⟩ := hproject s.ids.nowTimestamp.1 (mark turn) thread
    exact ⟨turn, _, ⟨thread, lookup_of_foundThread hthread, hid⟩, hturn, hstatus,
      hwrites.threads, hwrites.memory⟩
  refine wp_mono (wp_and markTurn_marks hwrites) ?_ (fun _ _ _ => trivial)
  intro _ t h
  obtain ⟨⟨turn, hturn, -, hmarks⟩, turn', record, hprojects⟩ := h
  obtain rfl : turn = turn' := Option.some.inj (hturn.symm.trans hprojects.active)
  exact ⟨turn, record, hmarks, hprojects⟩

theorem markWaitingApproval_projects (threadId : ThreadId) (turnId : TurnId) (reason : String) :
    wp (markWaitingApproval threadId turnId reason)
      (fun _ t => ∃ turn record, Marks turnId (turn.waiting reason) s t ∧
        ProjectsTurn threadId turnId .waitingApproval turn record s t)
      (fun _ _ => True) s :=
  markTurn_projects fun _ _ _ => ⟨rfl, rfl⟩

theorem markRunning_projects (threadId : ThreadId) (turnId : TurnId) :
    wp (markRunning threadId turnId)
      (fun _ t => ∃ turn record, Marks turnId turn.resumed s t ∧
        ProjectsTurn threadId turnId .active turn record s t)
      (fun _ _ => True) s :=
  markTurn_projects fun _ _ _ => ⟨rfl, rfl⟩

/-! ### Operations -/

/-- The statuses of threads that are listed as active. -/
def ThreadStatus.isListed (status : ThreadStatus) : Bool :=
  status != .archived && status != .completed

/-- Every operation writes the record of one thread, which is listed as active: by the operation
itself, or because it was stored before. -/
theorem ThreadOperation.accepted_writes {operation : ThreadOperation}
    (haccepted : operation.Accepted s) :
    ∃ record : Thread, record.status.isListed = true ∧
      (ListsRecord record s (operation.step s) ∨
        (WritesRecord record s (operation.step s) ∧ ∃ threadId found,
          s.stores.threads.lookup threadId = some (.intact found) ∧ record.id = found.id)) := by
  have hprojects : ∀ {threadId turnId status turn record t},
      ProjectsTurn threadId turnId status turn record s t → status.isListed = true →
      ∃ record : Thread, record.status.isListed = true ∧ (ListsRecord record s t ∨
        (WritesRecord record s t ∧ ∃ threadId found,
          s.stores.threads.lookup threadId = some (.intact found) ∧ record.id = found.id)) := by
    intro threadId turnId status turn record t h hlisted
    exact ⟨record, h.status ▸ hlisted, Or.inr ⟨h.writes, threadId, h.stored⟩⟩
  have hlists : ∀ {record : Thread} {t}, record.status = .active → ListsRecord record s t →
      ∃ record : Thread, record.status.isListed = true ∧ (ListsRecord record s t ∨
        (WritesRecord record s t ∧ ∃ threadId found,
          s.stores.threads.lookup threadId = some (.intact found) ∧ record.id = found.id)) :=
    fun hstatus h => ⟨_, hstatus ▸ rfl, Or.inl h⟩
  unfold ThreadOperation.Accepted at haccepted
  unfold ThreadOperation.step
  cases operation with
  | startThread request =>
      rw [ThreadOperation.run, after_ignored]
      obtain ⟨record, hstatus, hrecord, -⟩ := of_accepted haccepted (startThread_lists request)
      exact hlists hstatus hrecord
  | resumeThread request =>
      rw [ThreadOperation.run, after_ignored]
      obtain ⟨record, hstatus, hrecord, -⟩ := of_accepted haccepted (resumeThread_lists request)
      exact hlists hstatus hrecord
  | forkThread request =>
      rw [ThreadOperation.run, after_ignored]
      obtain ⟨record, hstatus, hrecord, -⟩ := of_accepted haccepted (forkThread_lists request)
      exact hlists hstatus hrecord
  | turn operation =>
      rw [ThreadOperation.run, after_ignored]
      cases operation with
      | startTurn thread request =>
          obtain ⟨-, -, record, -, hstatus, hrecord⟩ :=
            of_accepted haccepted (startTurn_lists thread request)
          exact hlists hstatus hrecord
      | cancelTurn request =>
          obtain ⟨-, -, turn, record, -, h⟩ := of_accepted haccepted (cancelTurn_projects request)
          exact hprojects h rfl
      | markWaitingApproval threadId turnId reason =>
          obtain ⟨-, turn, record, -, h⟩ :=
            of_accepted haccepted (markWaitingApproval_projects threadId turnId reason)
          exact hprojects h rfl
      | markRunning threadId turnId =>
          obtain ⟨-, turn, record, -, h⟩ :=
            of_accepted haccepted (markRunning_projects threadId turnId)
          exact hprojects h rfl
      | completeTurn threadId turnId finalMessage =>
          obtain ⟨-, -, turn, record, h⟩ :=
            of_accepted haccepted (completeTurn_projects threadId turnId finalMessage)
          exact hprojects h rfl
      | failTurn threadId turnId message =>
          obtain ⟨-, -, turn, record, h⟩ :=
            of_accepted haccepted (failTurn_projects threadId turnId message)
          exact hprojects h rfl

end Programs

end Liz
