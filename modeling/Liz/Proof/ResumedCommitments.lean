import Liz.Proof.LogSequence
import Liz.Proof.ThreadRecords

/-!
# The commitments a new turn clears

A turn that is cancelled leaves the commitment to resume it, and the turn that takes its goal up
again clears it. It is cleared by a search for the goal in the commitments, which finds the goal in
others as well.
-/

namespace Liz

open Program

/-- The commitment that a cancelled turn leaves. -/
def resumption (goal : String) : String := s!"Resume interrupted work: {goal}"

/-- The commitments in the record of a thread, when it can be read. -/
def commitmentsOf (s : TurnRuntime) (threadId : ThreadId) : Option (List String) :=
  match s.stores.threads.lookup threadId with
  | some (.intact thread) => some thread.pendingCommitments
  | _ => none

/-- Of the commitments before only the one to resume the goal is missing afterwards, if it was
there at all. -/
structure ClearsOnlyResumed (goal : String) (before : List String) (after : Option (List String)) :
    Prop where
  kept : after = some (before.filter (· ≠ resumption goal))
  unrelated : resumption goal ∉ before → after = some before

/-- Every commitment that contains the goal is the one to resume it. -/
def OnlyItsOwn (goal : String) (commitments : List String) : Prop :=
  ∀ commitment ∈ commitments, Text.contains commitment goal → commitment = resumption goal

/-- What a new turn with the goal leaves of the commitments. -/
def unmatched (goal : String) (commitments : List String) : List String :=
  commitments.filter fun commitment => !Text.contains commitment goal

/-- A turn is started, cancelled, and started anew with the thread as it is then stored. -/
def startAgain [Disk] [Clock] (thread : Thread) (request again : TurnStartRequest) :
    TurnM Turn := do
  let turn ← startTurn thread request
  let _ ← cancelTurn { threadId := thread.id, turnId := turn.id }
  startTurn (← requireThread thread.id) again

/-! ### The lists -/

section Lists

variable {goal : String} {commitments : List String}

theorem contains_resumption (goal : String) : Text.contains (resumption goal) goal = true := by
  have hsuffix : (resumption goal).toList = "Resume interrupted work: ".toList ++ goal.toList :=
    String.toList_append
  rw [Text.contains_eq_true, hsuffix]
  exact (List.suffix_append _ _).isInfix

/-- The search clears no more than the commitment to resume the goal if and only if it finds the
goal in no other. -/
theorem unmatched_eq_iff :
    unmatched goal commitments = commitments.filter (· ≠ resumption goal) ↔
      OnlyItsOwn goal commitments := by
  constructor
  · intro h commitment hmem hcontains
    by_contra hother
    have hkept : commitment ∈ commitments.filter (· ≠ resumption goal) :=
      List.mem_filter.mpr ⟨hmem, decide_eq_true hother⟩
    rw [← h] at hkept
    have hunmatched := (List.mem_filter.mp hkept).2
    rw [hcontains] at hunmatched
    cases hunmatched
  · intro h
    apply List.filter_congr
    intro commitment hmem
    cases hcontains : Text.contains commitment goal with
    | true => simp [h commitment hmem hcontains]
    | false =>
        have hother : commitment ≠ resumption goal := by
          intro heq
          rw [heq, contains_resumption] at hcontains
          cases hcontains
        simp [hother]

theorem clearsOnlyResumed_unmatched_iff :
    ClearsOnlyResumed goal commitments (some (unmatched goal commitments)) ↔
      OnlyItsOwn goal commitments := by
  rw [← unmatched_eq_iff]
  constructor
  · exact fun h => Option.some.inj h.kept
  · intro h
    refine ⟨congrArg some h, fun habsent => congrArg some (h.trans ?_)⟩
    apply List.filter_eq_self.mpr
    intro commitment hmem
    exact decide_eq_true fun heq => habsent (heq ▸ hmem)

/-- What was cancelled is cleared when it is taken up again. -/
theorem unmatched_cancelled (goal : String) (commitments : List String) :
    unmatched goal
        (if (unmatched goal commitments).contains (resumption goal) then unmatched goal commitments
          else unmatched goal commitments ++ [resumption goal]) =
      unmatched goal commitments := by
  have htwice : unmatched goal (unmatched goal commitments) = unmatched goal commitments := by
    simp [unmatched]
  split
  · exact htwice
  · have hlast : unmatched goal [resumption goal] = [] := by
      simp [unmatched, contains_resumption]
    rw [unmatched, List.filter_append]
    show unmatched goal (unmatched goal commitments) ++ unmatched goal [resumption goal] = _
    rw [htwice, hlast, List.append_nil]

end Lists

/-! ### The records -/

/-- The record of the thread is this one. -/
structure Records (thread record : Thread) (t : TurnRuntime) : Prop where
  id : record.id = thread.id
  stored : t.stores.threads.lookup thread.id = some (.intact record)

section Records

variable {thread record : Thread} {s t : TurnRuntime}

theorem records_of_inserted
    (h : t.stores.threads = s.stores.threads.insert record.id (.intact record))
    (hid : record.id = thread.id) : Records thread record t := by
  refine ⟨hid, ?_⟩
  rw [h, hid]
  exact AList.lookup_insert _

theorem Records.commitmentsOf (h : Records thread record t) :
    commitmentsOf t thread.id = some record.pendingCommitments := by
  rw [Liz.commitmentsOf, h.stored]

variable [Disk] [Clock]

theorem startTurn_unmatched (thread : Thread) (request : TurnStartRequest) :
    wp (startTurn thread request)
      (fun turn t => turn.goal = some (Text.trim request.input) ∧
        ∃ record, Records thread record t ∧
          record.pendingCommitments =
            unmatched (Text.trim request.input) thread.pendingCommitments)
      (fun _ _ => True) s := by
  rw [wp_startTurn]
  refine ⟨fun _ => trivial, fun _ turn hturn => ?_⟩
  rw [wp_bind]
  refine wp_mono (appendTransition_keepsRecords _ _ _ _ _) (fun _ u hu => ?_) (fun _ _ _ => trivial)
  rw [wp_bind]
  refine wp_mono (listThread_lists rfl) (fun _ v hv => ?_) (fun _ _ _ => trivial)
  rw [wp_bind, wp_modifyTurns, wp_pure]
  exact ⟨by rw [hturn]; rfl, _, records_of_inserted hv.threads rfl, rfl⟩

/-- Cancelling a turn adds the commitment to resume it to those of the stored record. -/
theorem cancelTurn_resumption {turn : Turn} {goal : String} {request : TurnCancelRequest}
    (hthread : request.threadId = thread.id) (hrecord : Records thread record s)
    (hturn : s.turnManager.activeTurns.lookup request.turnId = some turn)
    (hgoal : turn.goal = some goal) :
    wp (cancelTurn request)
      (fun _ t => ∃ later, Records thread later t ∧
        later.pendingCommitments =
          if record.pendingCommitments.contains (resumption goal) then record.pendingCommitments
          else record.pendingCommitments ++ [resumption goal])
      (fun _ _ => True) s := by
  unfold cancelTurn
  rw [wp_lookups]
  refine ⟨fun _ _ => trivial, fun found hfound => ⟨fun _ => trivial, fun active hactive => ?_⟩⟩
  have hstored := lookup_of_foundThread hfound
  rw [hthread, hrecord.stored] at hstored
  obtain rfl : record = found := JsonFile.intact.inj (Option.some.inj hstored)
  obtain rfl : turn = active := Option.some.inj (hturn.symm.trans hactive)
  by_cases hmismatch : turn.threadId ≠ request.threadId
  · rw [if_pos hmismatch, wp_bind, wp_throw]
    trivial
  · rw [if_neg hmismatch]
    refine wp_mono (closeTurn_writes _ _ _ _ _ _) (fun closed t ht => ?_) (fun _ _ _ => trivial)
    rw [hgoal] at ht
    exact ⟨_, records_of_inserted ht.threads hrecord.id, rfl⟩

/-- What is started, cancelled and started anew with the same goal has cleared what its first start
cleared. -/
theorem startAgain_unmatched (thread : Thread) {request again : TurnStartRequest}
    (hgoal : Text.trim again.input = Text.trim request.input) :
    wp (startAgain thread request again)
      (fun _ t => commitmentsOf t thread.id =
        some (unmatched (Text.trim request.input) thread.pendingCommitments))
      (fun _ _ => True) s := by
  rw [startAgain, wp_bind]
  refine wp_mono (wp_and (startTurn_unmatched thread request) (startTurn_starts thread request))
    (fun turn t ht => ?_) (fun _ _ _ => trivial)
  obtain ⟨⟨hturn, record, hrecord, hfirst⟩, hstarts⟩ := ht
  have hactive : t.turnManager.activeTurns.lookup turn.id = some turn := by
    rw [hstarts.activeTurns]
    exact AList.lookup_insert _
  rw [wp_bind]
  refine wp_mono (cancelTurn_resumption rfl hrecord hactive hturn) (fun _ u hu => ?_)
    (fun _ _ _ => trivial)
  obtain ⟨later, hlater, hcancelled⟩ := hu
  rw [wp_bind, wp_requireThread]
  refine ⟨fun found hfound => ?_, fun _ _ => trivial⟩
  obtain rfl : later = found :=
    JsonFile.intact.inj (Option.some.inj (hlater.stored.symm.trans (lookup_of_foundThread hfound)))
  refine wp_mono (startTurn_unmatched later again) (fun _ v hv => ?_) (fun _ _ _ => trivial)
  obtain ⟨-, last, hlast, hcleared⟩ := hv
  rw [← hlater.id, hlast.commitmentsOf, hcleared, hgoal, hcancelled, hfirst, unmatched_cancelled]

/-- A turn, and a turn that is started, cancelled and started anew, clears only the commitment to
resume its goal if and only if no other commitment contains the goal. -/
theorem clears_only_resumed_iff (thread : Thread) (request again : TurnStartRequest)
    (hgoal : Text.trim again.input = Text.trim request.input) (s : TurnRuntime) :
    wp (startTurn thread request)
        (fun _ t => ClearsOnlyResumed (Text.trim request.input) thread.pendingCommitments
            (commitmentsOf t thread.id) ↔
          OnlyItsOwn (Text.trim request.input) thread.pendingCommitments)
        (fun _ _ => True) s ∧
      wp (startAgain thread request again)
        (fun _ t => ClearsOnlyResumed (Text.trim request.input) thread.pendingCommitments
            (commitmentsOf t thread.id) ↔
          OnlyItsOwn (Text.trim request.input) thread.pendingCommitments)
        (fun _ _ => True) s := by
  constructor
  · refine wp_mono (startTurn_unmatched thread request) (fun _ t ht => ?_) (fun _ _ _ => trivial)
    obtain ⟨-, record, hrecord, hcleared⟩ := ht
    rw [hrecord.commitmentsOf, hcleared]
    exact clearsOnlyResumed_unmatched_iff
  · refine wp_mono (startAgain_unmatched thread hgoal) (fun _ t ht => ?_) (fun _ _ _ => trivial)
    rw [ht]
    exact clearsOnlyResumed_unmatched_iff

end Records

/-- A thread with a commitment that a cancelled turn left and one from its fork. -/
def forkedThread : Thread :=
  { Thread.blank "t" with
    pendingCommitments := ["Resume interrupted work: docs", "Fork created for: review"] }

def turnInput (input : String) : TurnStartRequest :=
  { threadId := "t", input := input, inputKind := .userMessage, channel := none,
    participant := none, interactionContext := none }

/-- The goal that was interrupted is in no other commitment. -/
theorem docs_resumed :
    let p := @startAgain calmDisk stoppedClock forkedThread (turnInput " docs") (turnInput "docs")
    OnlyItsOwn "docs" forkedThread.pendingCommitments ∧ (result p freshRuntime).isSome ∧
      wp p
        (fun _ t => ClearsOnlyResumed "docs" forkedThread.pendingCommitments
            (commitmentsOf t "t") ↔
          OnlyItsOwn "docs" forkedThread.pendingCommitments)
        (fun _ _ => True) freshRuntime := by
  have hinput : Text.trim (turnInput " docs").input = "docs" := by decide
  refine ⟨by unfold OnlyItsOwn; decide, by decide +kernel, ?_⟩
  have hiff := (@clears_only_resumed_iff calmDisk stoppedClock forkedThread (turnInput " docs")
    (turnInput "docs") (by decide) freshRuntime).2
  rw [hinput] at hiff
  exact hiff

/-- A blank goal clears every commitment, and one that is a word of the interruption's own text
clears the commitments of other goals. -/
theorem commitments_lost :
    let started := fun input =>
      after (@startTurn calmDisk stoppedClock forkedThread (turnInput input)) freshRuntime
    commitmentsOf (started " ") "t" = some [] ∧
      ¬ ClearsOnlyResumed "" forkedThread.pendingCommitments (commitmentsOf (started " ") "t") ∧
      commitmentsOf (started "work") "t" = some ["Fork created for: review"] ∧
      ¬ ClearsOnlyResumed "work" forkedThread.pendingCommitments
        (commitmentsOf (started "work") "t") := by
  intro started
  have hblank : commitmentsOf (started " ") "t" = some [] := by decide +kernel
  have hwork : commitmentsOf (started "work") "t" = some ["Fork created for: review"] := by
    decide +kernel
  refine ⟨hblank, fun h => ?_, hwork, fun h => ?_⟩
  · have hkept := h.unrelated (by decide)
    rw [hblank] at hkept
    exact absurd (Option.some.inj hkept) (by decide)
  · have hkept := h.unrelated (by decide)
    rw [hwork] at hkept
    exact absurd (Option.some.inj hkept) (by decide)

end Liz
