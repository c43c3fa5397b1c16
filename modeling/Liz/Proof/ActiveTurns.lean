import Liz.Base.Runs
import Liz.Proof.ServerEffects

/-!
# The table of active turns

The turn manager keeps the turns that have not ended in a table. A transition starts a turn there,
changes one where it stands, or takes one out, also when it fails halfway; what a transition takes
out it has given one of the three final statuses. A new turn has a new identifier and is only
started on a thread that has no open turn. So over any run, whatever the disk does, a thread has one
turn in the table at most, and a turn that has left it does not come back.
-/

namespace Liz

open Program

/-- The status of a turn that has ended. -/
def TurnStatus.isFinal : TurnStatus → Bool
  | .completed => true
  | .failed => true
  | .cancelled => true
  | _ => false

/-- The record that a transition makes of a turn that it ends; the others end none. -/
def TurnOperation.finished (endedAt : Timestamp) (turn : Turn) : TurnOperation → Turn
  | cancelTurn _ =>
      let goal := turn.goal.getD "current turn"
      { turn with
        status := .cancelled
        endedAt := some endedAt
        summary := some s!"Interrupted before finishing: {goal}" }
  | completeTurn _ _ finalMessage =>
      { turn with status := .completed, endedAt := some endedAt, summary := some finalMessage }
  | failTurn _ _ message =>
      { turn with status := .failed, endedAt := some endedAt, summary := some message }
  | startTurn _ _ => turn
  | markWaitingApproval _ _ _ => turn
  | markRunning _ _ => turn

theorem TurnOperation.finished_id (operation : TurnOperation) (endedAt : Timestamp) (turn : Turn) :
    (operation.finished endedAt turn).id = turn.id := by
  cases operation <;> rfl

/-- A runtime, and the turns that have left its table, as they left it. -/
structure TurnHistory where
  runtime : TurnRuntime
  departed : List Turn

namespace TurnHistory

/-- A manager that has just been created. -/
def start (stores : RuntimeStores) (ids : IdGenerator) : TurnHistory :=
  { runtime := { stores := stores, ids := ids, turnManager := .default }, departed := [] }

/-- The turn under an identifier. -/
def turn (history : TurnHistory) (turnId : TurnId) : Option Turn :=
  history.runtime.turnManager.activeTurns.lookup turnId

section Steps

variable [Disk] [Clock]

/-- A transition and what it takes out of the table. -/
def step (history : TurnHistory) (operation : TurnOperation) : TurnHistory :=
  let later := after operation.run history.runtime
  let gone := history.runtime.turnManager.activeTurns.entries.filter fun entry =>
    (later.turnManager.activeTurns.lookup entry.fst).isNone
  { runtime := later
    departed := history.departed ++
      gone.map fun entry =>
        operation.finished history.runtime.ids.nowTimestamp.1 entry.snd }

theorem mem_departed_step {history : TurnHistory} {operation : TurnOperation} {turn : Turn} :
    turn ∈ (history.step operation).departed ↔ turn ∈ history.departed ∨
      ∃ id before, history.turn id = some before ∧ (history.step operation).turn id = none ∧
        turn = operation.finished history.runtime.ids.nowTimestamp.1 before := by
  unfold step
  simp only [List.mem_append, List.mem_map, List.mem_filter, Option.isNone_iff_eq_none]
  refine or_congr_right ⟨?_, ?_⟩
  · intro h
    obtain ⟨⟨id, before⟩, ⟨hbefore, hgone⟩, rfl⟩ := h
    exact ⟨id, before, AList.mem_lookup_iff.mpr hbefore, hgone, rfl⟩
  · intro h
    obtain ⟨id, before, hbefore, hgone, rfl⟩ := h
    exact ⟨⟨id, before⟩, ⟨AList.mem_lookup_iff.mp hbefore, hgone⟩, rfl⟩

end Steps

end TurnHistory

/-! ### What a transition can do -/

/-- What a transition does to the table, and what it returns. -/
inductive TurnEffect [Clock] (operation : TurnOperation) (s t : TurnRuntime) : Option Turn → Prop
  | kept (h : KeepsTurns s t) : TurnEffect operation s t none
  | started (turn : Turn) (hstarts : Starts turn s t)
      (halone : ∀ id other, s.turnManager.activeTurns.lookup id = some other →
        other.status.isOpen = true → other.threadId ≠ turn.threadId) :
      TurnEffect operation s t (some turn)
  | ended (turnId : TurnId) (turn : Turn) (returned : Option Turn)
      (hfound : s.turnManager.activeTurns.lookup turnId = some turn) (herases : Erases turnId s t)
      (hfinal : (operation.finished s.ids.nowTimestamp.1 turn).status.isFinal = true)
      (hreturned : ∀ closed ∈ returned, closed = operation.finished s.ids.nowTimestamp.1 turn) :
      TurnEffect operation s t returned
  | marked (turnId : TurnId) (turn marked : Turn) (returned : Option Turn)
      (hfound : s.turnManager.activeTurns.lookup turnId = some turn)
      (hmarks : Marks turnId marked s t) (hid : marked.id = turn.id)
      (hthread : marked.threadId = turn.threadId) (hopen : marked.status.isOpen = true)
      (hreturned : ∀ turn ∈ returned, turn = marked) : TurnEffect operation s t returned

theorem threadHasRunningTurn_eq_false {turns : TurnManager} {threadId : ThreadId} :
    turns.threadHasRunningTurn threadId = false ↔ ∀ id turn,
      turns.activeTurns.lookup id = some turn → turn.status.isOpen = true →
        turn.threadId ≠ threadId := by
  unfold TurnManager.threadHasRunningTurn
  rw [List.any_eq_false]
  constructor
  · intro h id turn hturn hopen hthread
    have hentry := h ⟨id, turn⟩ (AList.mem_lookup_iff.mp hturn)
    simp [hopen, hthread] at hentry
  · intro h entry hentry
    obtain ⟨id, turn⟩ := entry
    have hturn := h id turn (AList.mem_lookup_iff.mpr hentry)
    simp only [Bool.and_eq_true, beq_iff_eq, not_and]
    exact fun hthread hopen => hturn hopen hthread

section Effects

variable [Disk] [Clock] {s : TurnRuntime}

/-- A turn is only started on a thread without an open one. -/
theorem startTurn_alone (thread : Thread) (request : TurnStartRequest) :
    wp (startTurn thread request)
      (fun turn _ => s.turnManager.threadHasRunningTurn turn.threadId = false) (fun _ _ => True)
      s := by
  rw [wp_startTurn]
  refine ⟨fun _ => trivial, fun hidle turn hturn => ?_⟩
  have hthread : turn.threadId = thread.id := by rw [hturn]; rfl
  rw [wp_bind]
  refine wp_mono (wp_trivial _) (fun _ u _ => ?_) (fun _ _ _ => trivial)
  rw [wp_bind]
  refine wp_mono (wp_trivial _) (fun _ v _ => ?_) (fun _ _ _ => trivial)
  rw [wp_bind, wp_modifyTurns, wp_pure, hthread]
  exact hidle

/-- What completing and failing do. -/
theorem lookups_closeTurn_effect {operation : TurnOperation} {threadId : ThreadId}
    {turnId : TurnId} {event : String} {finish : Timestamp → Turn → Turn}
    {project : Timestamp → Turn → Thread → Thread}
    (hfinish : ∀ endedAt turn, finish endedAt turn = operation.finished endedAt turn)
    (hfinal : ∀ endedAt turn, (operation.finished endedAt turn).status.isFinal = true) :
    wp (do
        let thread ← requireThread threadId
        let turn ← requireTurn turnId
        closeTurn thread turnId turn event finish project)
      (fun closed t => TurnEffect operation s t (some closed))
      (fun _ t => TurnEffect operation s t none) s := by
  rw [wp_lookups]
  refine ⟨fun e _ => .kept (.of_eq rfl rfl), fun thread _ =>
    ⟨fun _ => .kept (.of_eq rfl rfl), fun turn hturn => ?_⟩⟩
  refine wp_mono (closeTurn_returns thread turnId turn event finish project) ?_ ?_
  · intro closed t h
    refine .ended turnId turn _ hturn h.1 (hfinal _ turn) fun returned hreturned => ?_
    rw [← Option.some.inj hreturned, h.2, hfinish]
  · intro e t herases
    exact .ended turnId turn _ hturn herases (hfinal _ turn) fun _ h => absurd h (by simp)

theorem cancelTurn_effect (request : TurnCancelRequest) :
    wp (cancelTurn request)
      (fun closed t => TurnEffect (.cancelTurn request) s t (some closed))
      (fun _ t => TurnEffect (.cancelTurn request) s t none) s := by
  unfold cancelTurn
  rw [wp_lookups]
  refine ⟨fun e _ => .kept (.of_eq rfl rfl), fun thread _ =>
    ⟨fun _ => .kept (.of_eq rfl rfl), fun turn hturn => ?_⟩⟩
  by_cases hmismatch : turn.threadId ≠ request.threadId
  · rw [if_pos hmismatch, wp_bind, wp_throw]
    exact .kept (.of_eq rfl rfl)
  · rw [if_neg hmismatch]
    refine wp_mono (closeTurn_returns _ _ _ _ _ _) ?_ ?_
    · intro closed t h
      refine .ended request.turnId turn _ hturn h.1 rfl fun returned hreturned => ?_
      rw [← Option.some.inj hreturned, h.2]
      rfl
    · intro e t herases
      exact .ended request.turnId turn _ hturn herases rfl fun _ h => absurd h (by simp)

/-- What the two marks do. -/
theorem markTurn_effect {operation : TurnOperation} {threadId : ThreadId} {turnId : TurnId}
    {event summary : String} {mark : Turn → Turn} {project : Timestamp → Turn → Thread → Thread}
    (hid : ∀ turn, (mark turn).id = turn.id) (hthread : ∀ turn, (mark turn).threadId = turn.threadId)
    (hopen : ∀ turn, (mark turn).status.isOpen = true) :
    wp (markTurn threadId turnId event summary mark project)
      (fun marked t => TurnEffect operation s t (some marked))
      (fun _ t => TurnEffect operation s t none) s := by
  refine wp_mono markTurn_marks ?_ ?_
  · intro marked t h
    obtain ⟨turn, hturn, rfl, hmarks⟩ := h
    exact .marked turnId turn _ _ hturn hmarks (hid turn) (hthread turn) (hopen turn)
      fun returned hreturned => (Option.some.inj hreturned).symm
  · intro e t h
    rcases h with hkept | ⟨turn, hturn, hmarks⟩
    · exact .kept hkept
    · exact .marked turnId turn _ _ hturn hmarks (hid turn) (hthread turn) (hopen turn)
        fun _ h => absurd h (by simp)

/-- Every transition does one of four things to the table. -/
theorem TurnOperation.effect (operation : TurnOperation) (s : TurnRuntime) :
    TurnEffect operation s (after operation.run s) (result operation.run s) := by
  have hrun : ∀ {p : TurnM Turn}, p = operation.run →
      wp p (fun turn t => TurnEffect operation s t (some turn))
        (fun _ t => TurnEffect operation s t none) s →
      TurnEffect operation s (after operation.run s) (result operation.run s) := by
    intro p hp h
    rw [← hp]
    exact (wp_run (R := fun returned t => TurnEffect operation s t returned)).mp h
  cases operation with
  | startTurn thread request =>
      have hstarts := startTurn_starts (s := s) thread request
      have halone := startTurn_alone (s := s) thread request
      refine hrun (p := Liz.startTurn thread request) rfl (wp_mono (wp_and hstarts halone) ?_ ?_)
      · intro turn t h
        exact .started turn h.1 (threadHasRunningTurn_eq_false.mp h.2)
      · intro _ t h
        exact .kept h.1
  | cancelTurn request =>
      exact hrun (p := Liz.cancelTurn request) rfl (cancelTurn_effect request)
  | markWaitingApproval threadId turnId reason =>
      exact hrun (p := Liz.markWaitingApproval threadId turnId reason) rfl
        (markTurn_effect (fun _ => rfl) (fun _ => rfl) fun _ => rfl)
  | markRunning threadId turnId =>
      exact hrun (p := Liz.markRunning threadId turnId) rfl
        (markTurn_effect (fun _ => rfl) (fun _ => rfl) fun _ => rfl)
  | completeTurn threadId turnId finalMessage =>
      exact hrun (p := Liz.completeTurn threadId turnId finalMessage) rfl
        (lookups_closeTurn_effect (fun _ _ => rfl) fun _ _ => rfl)
  | failTurn threadId turnId message =>
      exact hrun (p := Liz.failTurn threadId turnId message) rfl
        (lookups_closeTurn_effect (fun _ _ => rfl) fun _ _ => rfl)

/-- The generator does not go back. -/
theorem TurnOperation.sequence_le (operation : TurnOperation) (s : TurnRuntime) :
    s.ids.sequence ≤ (after operation.run s).ids.sequence := by
  have heffect := operation.effect s
  generalize result operation.run s = returned at heffect
  cases heffect with
  | kept hkeeps => exact hkeeps.sequence
  | started turn hstarts => exact hstarts.sequence
  | ended turnId turn returned hfound herases => exact herases.sequence
  | marked turnId turn marked returned hfound hmarks => exact hmarks.sequence

end Effects

/-! ### Order -/

/-- The table is in order: turns are filed under their own identifiers, which the generator has
given out, they are open, and a thread has one at most. -/
structure TableOrder (s : TurnRuntime) : Prop where
  filed : Filed s
  issued : ∀ id turn, s.turnManager.activeTurns.lookup id = some turn → s.ids.Issued id
  opened : ∀ id turn, s.turnManager.activeTurns.lookup id = some turn → turn.status.isOpen = true
  alone : ∀ id id' turn turn', s.turnManager.activeTurns.lookup id = some turn →
    s.turnManager.activeTurns.lookup id' = some turn' → turn.threadId = turn'.threadId → id = id'

section TableOrder

variable {s t : TurnRuntime}

/-- A table whose turns were there before, under the same identifiers and for the same threads. -/
theorem TableOrder.of_known (h : TableOrder s) (hsequence : s.ids.sequence ≤ t.ids.sequence)
    (hknown : ∀ id turn, t.turnManager.activeTurns.lookup id = some turn →
      ∃ before, s.turnManager.activeTurns.lookup id = some before ∧ turn.id = before.id ∧
        turn.threadId = before.threadId ∧ turn.status.isOpen = true) : TableOrder t := by
  refine ⟨?_, ?_, ?_, ?_⟩
  · intro id turn hturn
    obtain ⟨before, hbefore, hid, -⟩ := hknown id turn hturn
    exact hid.trans (h.filed id before hbefore)
  · intro id turn hturn
    obtain ⟨before, hbefore, -⟩ := hknown id turn hturn
    exact (h.issued id before hbefore).mono hsequence
  · intro id turn hturn
    obtain ⟨_, _, _, _, hopen⟩ := hknown id turn hturn
    exact hopen
  · intro id id' turn turn' hturn hturn' hthread
    obtain ⟨before, hbefore, -, hsame, -⟩ := hknown id turn hturn
    obtain ⟨before', hbefore', -, hsame', -⟩ := hknown id' turn' hturn'
    exact h.alone id id' before before' hbefore hbefore'
      (hsame.symm.trans (hthread.trans hsame'))

theorem TableOrder.of_keeps (h : TableOrder s) (hkeeps : KeepsTurns s t) : TableOrder t := by
  refine h.of_known hkeeps.sequence fun id turn hturn => ?_
  rw [hkeeps.activeTurns] at hturn
  exact ⟨turn, hturn, rfl, rfl, h.opened id turn hturn⟩

theorem TableOrder.of_starts (h : TableOrder s) {turn : Turn} (hstarts : Starts turn s t)
    (halone : ∀ id other, s.turnManager.activeTurns.lookup id = some other →
      other.status.isOpen = true → other.threadId ≠ turn.threadId) : TableOrder t := by
  refine ⟨?_, ?_, ?_, ?_⟩
  · intro id found hfound
    rcases hstarts.lookup hfound with ⟨rfl, rfl⟩ | ⟨-, hbefore⟩
    · rfl
    · exact h.filed id found hbefore
  · intro id found hfound
    rcases hstarts.lookup hfound with ⟨rfl, -⟩ | ⟨-, hbefore⟩
    · exact hstarts.issued
    · exact (h.issued id found hbefore).mono hstarts.sequence
  · intro id found hfound
    rcases hstarts.lookup hfound with ⟨-, rfl⟩ | ⟨-, hbefore⟩
    · rw [hstarts.running]
      rfl
    · exact h.opened id found hbefore
  · intro id id' found found' hfound hfound' hthread
    rcases hstarts.lookup hfound with ⟨rfl, rfl⟩ | ⟨-, hbefore⟩
    · rcases hstarts.lookup hfound' with ⟨rfl, -⟩ | ⟨-, hbefore'⟩
      · rfl
      · exact absurd hthread.symm (halone id' found' hbefore' (h.opened id' found' hbefore'))
    · rcases hstarts.lookup hfound' with ⟨rfl, rfl⟩ | ⟨-, hbefore'⟩
      · exact absurd hthread (halone id found hbefore (h.opened id found hbefore))
      · exact h.alone id id' found found' hbefore hbefore' hthread

variable [Disk] [Clock]

/-- Every transition keeps the table in order, whatever it comes to. -/
theorem TableOrder.step (h : TableOrder s) (operation : TurnOperation) :
    TableOrder (after operation.run s) := by
  have heffect := operation.effect s
  generalize result operation.run s = returned at heffect
  cases heffect with
  | kept hkeeps => exact h.of_keeps hkeeps
  | started turn hstarts halone => exact h.of_starts hstarts halone
  | ended turnId turn returned hfound herases =>
      refine h.of_known herases.sequence fun id found hturn => ?_
      have hbefore := herases.known hturn
      exact ⟨found, hbefore, rfl, rfl, h.opened id found hbefore⟩
  | marked turnId turn marked returned hfound hmarks hid hthread hopen =>
      refine h.of_known hmarks.sequence fun id found hturn => ?_
      rw [hmarks.activeTurns] at hturn
      by_cases hsame : id = turnId
      · subst hsame
        rw [AList.lookup_insert, Option.some.injEq] at hturn
        subst hturn
        exact ⟨turn, hfound, hid, hthread, hopen⟩
      · rw [AList.lookup_insert_ne hsame] at hturn
        exact ⟨found, hturn, rfl, rfl, h.opened id found hturn⟩

end TableOrder

/-! ### Runs -/

/-- The turns that have left have ended, and are not in the table. -/
structure TurnHistory.InOrder (history : TurnHistory) : Prop where
  table : TableOrder history.runtime
  departed : ∀ turn ∈ history.departed, turn.status.isFinal = true ∧
    history.runtime.ids.Issued turn.id ∧ history.turn turn.id = none

theorem TurnHistory.inOrder_start (stores : RuntimeStores) (ids : IdGenerator) :
    (TurnHistory.start stores ids).InOrder := by
  have hempty : ∀ id turn, (TurnManager.default).activeTurns.lookup id ≠ some turn := by
    intro id turn hturn
    have hnone : (TurnManager.default).activeTurns.lookup id = none := AList.lookup_empty id
    exact Option.some_ne_none turn (hturn.symm.trans hnone)
  refine ⟨⟨?_, ?_, ?_, ?_⟩, fun turn hturn => absurd hturn List.not_mem_nil⟩
  · exact fun id turn hturn => absurd hturn (hempty id turn)
  · exact fun id turn hturn => absurd hturn (hempty id turn)
  · exact fun id turn hturn => absurd hturn (hempty id turn)
  · exact fun id _ turn _ hturn => absurd hturn (hempty id turn)

section Runs

variable [Disk] [Clock]

/-- What has gone from the table was taken out by a transition that ends turns, and a turn that has
left comes back only if the generator had not given its identifier out yet. -/
theorem TurnOperation.gone {operation : TurnOperation} {s : TurnRuntime} {id : TurnId} {turn : Turn}
    (hbefore : s.turnManager.activeTurns.lookup id = some turn)
    (hgone : (after operation.run s).turnManager.activeTurns.lookup id = none) :
    (operation.finished s.ids.nowTimestamp.1 turn).status.isFinal = true := by
  have heffect := operation.effect s
  generalize result operation.run s = returned at heffect
  have hmem : id ∈ s.turnManager.activeTurns := AList.lookup_isSome.mp (by rw [hbefore]; rfl)
  rw [AList.lookup_eq_none] at hgone
  cases heffect with
  | kept hkeeps =>
      rw [hkeeps.activeTurns] at hgone
      exact absurd hmem hgone
  | started other hstarts halone =>
      rw [hstarts.activeTurns, AList.mem_insert] at hgone
      exact absurd (Or.inr hmem) hgone
  | ended turnId other returned hfound herases hfinal =>
      by_cases hid : id = turnId
      · subst hid
        rw [hbefore, Option.some.injEq] at hfound
        rw [hfound]
        exact hfinal
      · rw [← AList.lookup_eq_none, herases.lookup_ne hid, AList.lookup_eq_none] at hgone
        exact absurd hmem hgone
  | marked turnId other marked returned hfound hmarks =>
      rw [hmarks.activeTurns, AList.mem_insert] at hgone
      exact absurd (Or.inr hmem) hgone

/-- A turn that is not in the table, and whose identifier has been given out, stays away. -/
theorem TurnOperation.stays_away (operation : TurnOperation) {s : TurnRuntime} {id : TurnId}
    (hnone : s.turnManager.activeTurns.lookup id = none) (hissued : s.ids.Issued id) :
    (after operation.run s).turnManager.activeTurns.lookup id = none ∧
      (after operation.run s).ids.Issued id := by
  have heffect := operation.effect s
  generalize result operation.run s = returned at heffect
  cases heffect with
  | kept hkeeps =>
      rw [hkeeps.activeTurns]
      exact ⟨hnone, hissued.mono hkeeps.sequence⟩
  | started turn hstarts halone =>
      have hne : id ≠ turn.id := by
        rintro rfl
        exact hstarts.fresh hissued
      rw [hstarts.activeTurns, AList.lookup_insert_ne hne]
      exact ⟨hnone, hissued.mono hstarts.sequence⟩
  | ended turnId turn returned hfound herases =>
      refine ⟨?_, hissued.mono herases.sequence⟩
      by_cases hid : id = turnId
      · rw [hid]
        exact herases.lookup_self
      · rw [herases.lookup_ne hid, hnone]
  | marked turnId turn marked returned hfound hmarks =>
      have hne : id ≠ turnId := by
        rintro rfl
        rw [hnone] at hfound
        exact absurd hfound (by simp)
      rw [hmarks.activeTurns, AList.lookup_insert_ne hne]
      exact ⟨hnone, hissued.mono hmarks.sequence⟩

theorem TurnHistory.InOrder.step {history : TurnHistory} (h : history.InOrder)
    (operation : TurnOperation) : (history.step operation).InOrder := by
  refine ⟨h.table.step operation, fun turn hturn => ?_⟩
  rcases TurnHistory.mem_departed_step.mp hturn with hdeparted | ⟨id, before, hbefore, hgone, rfl⟩
  · obtain ⟨hfinal, hissued, hnone⟩ := h.departed turn hdeparted
    obtain ⟨haway, hlater⟩ := operation.stays_away hnone hissued
    exact ⟨hfinal, hlater, haway⟩
  · have hid := operation.finished_id history.runtime.ids.nowTimestamp.1 before
    rw [h.table.filed id before hbefore] at hid
    rw [hid]
    have hissued := h.table.issued id before hbefore
    exact ⟨TurnOperation.gone hbefore hgone, hissued.mono (operation.sequence_le _), hgone⟩

/-- What a transition returns is in the table, or has left it. -/
theorem TurnHistory.InOrder.returned {history : TurnHistory} (h : history.InOrder)
    {operation : TurnOperation} {turn : Turn}
    (hreturned : result operation.run history.runtime = some turn) :
    (history.step operation).turn turn.id = some turn ∨
      turn ∈ (history.step operation).departed := by
  have heffect := operation.effect history.runtime
  rw [hreturned] at heffect
  cases heffect with
  | started _ hstarts =>
      refine Or.inl ?_
      change (after operation.run history.runtime).turnManager.activeTurns.lookup turn.id = _
      rw [hstarts.activeTurns, AList.lookup_insert]
  | ended turnId before _ hfound herases hfinal hclosed =>
      refine Or.inr (TurnHistory.mem_departed_step.mpr (Or.inr
        ⟨turnId, before, hfound, herases.lookup_self, hclosed turn rfl⟩))
  | marked turnId before marked _ hfound hmarks hid hthread hopen hmarked =>
      refine Or.inl ?_
      obtain rfl := hmarked turn rfl
      change (after operation.run history.runtime).turnManager.activeTurns.lookup turn.id = _
      rw [hid, h.table.filed turnId before hfound]
      exact hmarks.lookup_self

/-- In every state of every run a thread has one active turn at most; the turns in the table are
open and filed under their own identifiers; a turn that has left the table has ended, and it is
never put back. -/
theorem one_active_turn (stores : RuntimeStores) (ids : IdGenerator)
    (operations : List TurnOperation) :
    (∀ history ∈ Runs.states TurnHistory.step (.start stores ids) operations,
      (∀ id id' turn turn', history.turn id = some turn → history.turn id' = some turn' →
        turn.threadId = turn'.threadId → id = id') ∧
      (∀ id turn, history.turn id = some turn →
        turn.id = id ∧ (turn.status = .running ∨ turn.status = .waitingApproval)) ∧
      (∀ turn ∈ history.departed, history.turn turn.id = none ∧
        (turn.status = .completed ∨ turn.status = .failed ∨ turn.status = .cancelled)) ∧
      ∀ operation turn, result operation.run history.runtime = some turn →
        (history.step operation).turn turn.id = some turn ∨
          turn ∈ (history.step operation).departed) ∧
    (Runs.states TurnHistory.step (.start stores ids) operations).Pairwise fun earlier later =>
      ∀ turn ∈ earlier.departed, turn ∈ later.departed ∧ later.turn turn.id = none := by
  have horder : ∀ history ∈ Runs.states TurnHistory.step (.start stores ids) operations,
      history.InOrder :=
    Runs.invariant (fun _ operation h _ => h.step operation) (TurnHistory.inOrder_start stores ids)
      (Runs.allSteps_true _ operations)
  have hgrows : (Runs.states TurnHistory.step (.start stores ids) operations).Pairwise
      fun earlier later => ∀ turn ∈ earlier.departed, turn ∈ later.departed := by
    have hkept : ∀ history operation, TurnHistory.InOrder history → True →
        TurnHistory.InOrder (TurnHistory.step history operation) :=
      fun _ operation h _ => h.step operation
    refine (Runs.pairwise (fun _ _ h => h) (fun h h' turn hturn => h' turn (h turn hturn)) hkept
      ?_ (TurnHistory.inOrder_start stores ids) (Runs.allSteps_true _ operations)).2
    exact fun _ _ _ _ turn hturn => TurnHistory.mem_departed_step.mpr (Or.inl hturn)
  constructor
  · intro history hhistory
    have h := horder history hhistory
    refine ⟨h.table.alone, fun id turn hturn => ⟨h.table.filed id turn hturn, ?_⟩,
      fun turn hturn => ⟨(h.departed turn hturn).2.2, ?_⟩, fun operation turn => h.returned⟩
    · have hopen := h.table.opened id turn hturn
      revert hopen
      cases turn.status <;> simp [TurnStatus.isOpen]
    · have hfinal := (h.departed turn hturn).1
      revert hfinal
      cases turn.status <;> simp [TurnStatus.isFinal]
  · refine hgrows.imp_of_mem fun {earlier later} _ hlater hdeparted turn hturn => ?_
    have hthere := hdeparted turn hturn
    exact ⟨hthere, ((horder later hlater).departed turn hthere).2.2⟩

end Runs

end Liz
