import Liz.Proof.MemoryRuns
import Liz.Proof.ThreadStatus

/-!
# The list of active threads

The memory file lists the threads that are neither completed nor archived. Operations on threads and
the start of a turn bring the list up to date; the other transitions and every request that writes
the memory leave it alone, though a memory request rewrites the whole file. As no operation gives a
thread one of the two statuses, the list holds every stored thread once.
-/

namespace Liz

open Program

/-- Threads are intact, filed under their own identifiers and not closed, and the memory file reads
and lists each of them once. -/
structure IndexOrder (s : TurnRuntime) : Prop where
  stored : ∀ id file, s.stores.threads.lookup id = some file →
    ∃ thread, file = .intact thread ∧ thread.id = id ∧ thread.status.isListed = true
  listed : ∃ snapshot, storedMemory s.stores = some snapshot ∧ snapshot.activeThreadIds.Nodup ∧
    ∀ id, id ∈ snapshot.activeThreadIds ↔ id ∈ s.stores.threads

section Steps

variable {s t : TurnRuntime} {record : Thread}

/-- The threads after one record has been written. -/
theorem IndexOrder.stored_insert (h : IndexOrder s) (hlisted : record.status.isListed = true)
    (hthreads : t.stores.threads = s.stores.threads.insert record.id (.intact record)) :
    ∀ id file, t.stores.threads.lookup id = some file →
      ∃ thread, file = .intact thread ∧ thread.id = id ∧ thread.status.isListed = true := by
  intro id file hfile
  rw [hthreads] at hfile
  by_cases hid : id = record.id
  · subst hid
    rw [AList.lookup_insert, Option.some.injEq] at hfile
    exact ⟨record, hfile.symm, rfl, hlisted⟩
  · rw [AList.lookup_insert_ne hid] at hfile
    exact h.stored id file hfile

theorem IndexOrder.of_lists (h : IndexOrder s) (hlisted : record.status.isListed = true)
    (hlists : ListsRecord record s t) : IndexOrder t := by
  refine ⟨h.stored_insert hlisted hlists.threads, ?_⟩
  obtain ⟨snapshot, hsnapshot, hnodup, hmem⟩ := h.listed
  obtain ⟨before, hbefore, hmemory⟩ := hlists.listed
  obtain rfl : snapshot = before := Option.some.inj (hsnapshot.symm.trans hbefore)
  refine ⟨_, by rw [storedMemory, hmemory], ?_, fun id => ?_⟩
  · refine List.nodup_append'.mpr ⟨hnodup.filter _, List.nodup_singleton _, ?_⟩
    intro id hid hsame
    rw [List.mem_singleton.mp hsame] at hid
    simp at hid
  · rw [hlists.threads, AList.mem_insert, List.mem_append, List.mem_filter, List.mem_singleton,
      hmem, bne_iff_ne]
    by_cases hid : id = record.id
    · simp [hid]
    · simp [hid]

theorem IndexOrder.of_writes (h : IndexOrder s) (hlisted : record.status.isListed = true)
    (hwrites : WritesRecord record s t) (hknown : record.id ∈ s.stores.threads) :
    IndexOrder t := by
  refine ⟨h.stored_insert hlisted hwrites.threads, ?_⟩
  obtain ⟨snapshot, hsnapshot, hnodup, hmem⟩ := h.listed
  refine ⟨snapshot, ?_, hnodup, fun id => ?_⟩
  · rw [storedMemory, hwrites.memory]
    exact hsnapshot
  · rw [hmem, hwrites.threads, AList.mem_insert]
    refine ⟨Or.inr, fun hid => hid.elim ?_ fun hid => hid⟩
    rintro rfl
    exact hknown

/-- A memory request applies a change that keeps the list. -/
theorem IndexOrder.of_changed (h : IndexOrder s)
    {change : GlobalMemorySnapshot → GlobalMemorySnapshot → IdGenerator → Prop}
    (hchanged : MemoryChanged change s t)
    (hkeeps : ∀ snapshot after ids, change snapshot after ids →
      after.activeThreadIds = snapshot.activeThreadIds) : IndexOrder t := by
  obtain ⟨snapshot, hsnapshot, hlisted⟩ := h.listed
  obtain ⟨before, after, hbefore, hafter, hchange⟩ := hchanged.applied
  obtain rfl : snapshot = before := Option.some.inj (hsnapshot.symm.trans hbefore)
  refine ⟨?_, after, hafter, ?_⟩
  · rw [hchanged.threads]
    exact h.stored
  · rw [hkeeps snapshot after _ hchange, hchanged.threads]
    exact hlisted

variable [Disk] [Clock]

theorem IndexOrder.threadStep (h : IndexOrder s) {operation : ThreadOperation}
    (haccepted : operation.Accepted s) : IndexOrder (operation.step s) := by
  obtain ⟨record, hlisted, hlists | ⟨hwrites, threadId, found, hfound, hid⟩⟩ :=
    operation.accepted_writes haccepted
  · exact h.of_lists hlisted hlists
  · refine h.of_writes hlisted hwrites ?_
    obtain ⟨thread, hthread, hown, -⟩ := h.stored threadId _ hfound
    obtain rfl := JsonFile.intact.inj hthread
    rw [hid, hown, ← AList.lookup_isSome, hfound]
    rfl

variable [Unicode] [UnicodeCase] [JsonText]

omit [Disk] in
/-- No memory request changes the list of active threads. -/
theorem MemoryRequest.changes_activeThreadIds {request : MemoryRequest}
    {snapshot after : GlobalMemorySnapshot} {ids : IdGenerator}
    (h : request.Changes s snapshot after ids) :
    after.activeThreadIds = snapshot.activeThreadIds := by
  cases request with
  | compile threadId =>
      obtain ⟨_, _, _, -, -, -, rfl, -⟩ := h
      rfl
  | compileFromLlmOutput threadId rawJson =>
      obtain ⟨_, _, _, -, -, -, rfl, -⟩ := h
      rfl
  | updateAboutYou update =>
      obtain ⟨rfl, -⟩ := h
      rfl
  | correctKnowledge correction =>
      obtain ⟨rfl, -⟩ := h
      rfl

theorem IndexOrder.step (h : IndexOrder s) {operation : RuntimeOperation}
    (haccepted : operation.Accepted s) : IndexOrder (operation.step s) := by
  cases operation with
  | thread operation => exact h.threadStep haccepted
  | memory request =>
      obtain ⟨_, hresult⟩ := Option.isSome_iff_exists.mp haccepted
      exact h.of_changed (wp_of_result (request.handle_changes s) hresult)
        fun _ _ _ hchange => MemoryRequest.changes_activeThreadIds hchange

end Steps

/-! ### Runs -/

theorem indexOrder_fresh : IndexOrder .fresh := by
  refine ⟨fun id file hfile => ?_, .empty, rfl, List.nodup_nil, fun id => ?_⟩
  · exact absurd ((AList.lookup_empty id).symm.trans hfile) (by simp)
  · refine ⟨fun hid => absurd hid List.not_mem_nil, fun hid => ?_⟩
    exact absurd hid (AList.notMem_empty id)

section Runs

variable [Disk] [Clock] [Unicode] [UnicodeCase] [JsonText]

/-- After any run of successful operations over an empty store, the active threads of the memory
file are, once each, the stored threads that are neither completed nor archived. -/
theorem active_threads_listed (operations : List RuntimeOperation)
    (hall : Runs.AllSteps RuntimeOperation.step (fun s operation => operation.Accepted s) .fresh
      operations) :
    ∀ s ∈ Runs.states RuntimeOperation.step .fresh operations,
      ∃ snapshot, storedMemory s.stores = some snapshot ∧ snapshot.activeThreadIds.Nodup ∧
        ∀ id, id ∈ snapshot.activeThreadIds ↔
          ∃ thread, s.stores.threads.lookup id = some (.intact thread) ∧
            thread.status ≠ .completed ∧ thread.status ≠ .archived := by
  intro s hs
  have hstep : ∀ (s : TurnRuntime) (operation : RuntimeOperation), IndexOrder s →
      operation.Accepted s → IndexOrder (RuntimeOperation.step s operation) :=
    fun _ _ h haccepted => h.step haccepted
  have h := Runs.invariant hstep indexOrder_fresh hall s hs
  obtain ⟨snapshot, hsnapshot, hnodup, hmem⟩ := h.listed
  refine ⟨snapshot, hsnapshot, hnodup, fun id => (hmem id).trans ⟨fun hid => ?_, ?_⟩⟩
  · obtain ⟨file, hfile⟩ := Option.isSome_iff_exists.mp (AList.lookup_isSome.mpr hid)
    obtain ⟨thread, rfl, -, hlisted⟩ := h.stored id file hfile
    unfold ThreadStatus.isListed at hlisted
    simp only [Bool.and_eq_true, bne_iff_ne] at hlisted
    exact ⟨thread, hfile, hlisted.2, hlisted.1⟩
  · intro hstored
    obtain ⟨thread, hthread, -⟩ := hstored
    exact AList.lookup_isSome.mp (by rw [hthread]; rfl)

end Runs

/-- Work on a thread that is compiled into the memory on the way. -/
def compiledWork : List RuntimeOperation :=
  (approvalAsked.map .thread) ++ [.memory (.compile "thread_0_1"),
    .thread (.turn (.cancelTurn ⟨"thread_0_1", "turn_0_2"⟩)),
    .thread (.forkThread ⟨"thread_0_1", none, none⟩)]

theorem compiled_work_listed :
    ∃ snapshot, storedMemory (Runs.final (@RuntimeOperation.step calmDisk stoppedClock asciiTable
        asciiCase noJson) .fresh compiledWork).stores = some snapshot ∧
      snapshot.activeThreadIds.Nodup ∧ ∀ id, id ∈ snapshot.activeThreadIds ↔
        ∃ thread, (Runs.final (@RuntimeOperation.step calmDisk stoppedClock asciiTable asciiCase
          noJson) .fresh compiledWork).stores.threads.lookup id = some (.intact thread) ∧
          thread.status ≠ .completed ∧ thread.status ≠ .archived :=
  @active_threads_listed calmDisk stoppedClock asciiTable asciiCase noJson compiledWork
    (by decide +kernel) _ (Runs.final_mem_states _ _)

end Liz
