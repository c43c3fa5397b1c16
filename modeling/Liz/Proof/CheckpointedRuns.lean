import Liz.Base.Runs
import Liz.Proof.ActiveTurns
import Liz.Proof.CoveredTurns
import Liz.Proof.Lifecycle
import Liz.Proof.TurnWork

/-!
# Checkpoints before the model

A risky turn is to get a checkpoint before it goes on. The server creates one on the way to an
approval and nowhere else: a turn that has to wait has its checkpoint, and its thread points to it
for as long as the turn is active, so an approved turn runs with it. A turn that the policy lets run
at once has none.
-/

namespace Liz

open Program

/-- The checkpoint is stored, it names the thread and the turn, and the thread points to it. -/
structure Checkpoint.Covers (checkpoint : Checkpoint) (threadId : ThreadId) (turnId : TurnId)
    (stores : RuntimeStores) : Prop where
  stored : stores.checkpoints.lookup checkpoint.id = some (.intact checkpoint)
  thread : checkpoint.threadId = threadId
  turn : checkpoint.turnId = turnId
  latest : PointsTo stores threadId checkpoint.id

theorem KeepsPointers.covers {s t : RuntimeStores} {checkpoint : Checkpoint} {threadId : ThreadId}
    {turnId : TurnId} (h : KeepsPointers s t) (hfiled : OwnFiles s)
    (hcovers : checkpoint.Covers threadId turnId s) : checkpoint.Covers threadId turnId t :=
  ⟨h.checkpoints ▸ hcovers.stored, hcovers.thread, hcovers.turn,
    h.latest hfiled _ _ hcovers.latest⟩

/-- Every active turn that an approval names is open, on the thread of the approval, and covered by
a checkpoint. -/
structure Secured (s : RuntimeCoordinator) : Prop where
  filed : OwnFiles s.stores
  opened : ∀ id turn, s.turnManager.activeTurns.lookup id = some turn → turn.status.isOpen = true
  covered : ∀ id approval turn, s.approvals.lookup id = some approval →
    s.turnManager.activeTurns.lookup approval.turnId = some turn →
      turn.threadId = approval.threadId ∧ ∃ checkpoint : Checkpoint, s.ids.Issued checkpoint.id ∧
        checkpoint.Covers approval.threadId approval.turnId s.stores

/-- A turn that has just come in: no approval names it, and its thread has no other turn. -/
structure Newcomer (turn : Turn) (s : RuntimeCoordinator) : Prop where
  issued : s.ids.Issued turn.id
  unnamed : ∀ id approval, s.approvals.lookup id = some approval → approval.turnId ≠ turn.id
  alone : ∀ id other, s.turnManager.activeTurns.lookup id = some other →
    (id = turn.id ↔ other.threadId = turn.threadId)

section Steady

variable {s t : RuntimeCoordinator} {turn : Turn}

theorem Secured.of_steady (h : Secured s) (hsteady : Steady s t) : Secured t := by
  refine ⟨hsteady.pointers.filed h.filed, fun id turn hturn => ?_,
    fun id approval turn happroval hturn => ?_⟩
  · obtain ⟨before, hbefore, -, hopen⟩ := hsteady.turns.known id turn hturn
    exact hopen (h.opened id before hbefore)
  · rw [hsteady.approvals] at happroval
    obtain ⟨before, hbefore, hthread, -⟩ := hsteady.turns.known approval.turnId turn hturn
    obtain ⟨hsame, checkpoint, hissued, hcovers⟩ := h.covered id approval before happroval hbefore
    exact ⟨hthread.trans hsame, checkpoint, hissued.mono hsteady.turns.sequence,
      hsteady.pointers.covers h.filed hcovers⟩

theorem Newcomer.of_steady (h : Newcomer turn s) (hsteady : Steady s t) : Newcomer turn t := by
  refine ⟨h.issued.mono hsteady.turns.sequence, fun id approval happroval =>
    h.unnamed id approval (hsteady.approvals ▸ happroval), fun id other hother => ?_⟩
  obtain ⟨before, hbefore, hthread, -⟩ := hsteady.turns.known id other hother
  rw [hthread]
  exact h.alone id before hbefore

/-- An answered approval names the same turn and the same thread. -/
theorem Secured.withApproval {approvalId : ApprovalId} {approval : ApprovalRequest}
    {decision : ApprovalDecision} (h : Secured s)
    (hfound : s.approvals.lookup approvalId = some approval) :
    Secured (s.withApproval approvalId (RuntimeCoordinator.answered decision approval)) := by
  refine ⟨h.filed, h.opened, fun id found turn hafter hturn => ?_⟩
  rw [lookup_withApproval] at hafter
  split at hafter
  · obtain rfl := Option.some.inj hafter
    exact h.covered approvalId approval turn hfound hturn
  · exact h.covered id found turn hafter hturn

/-- A turn comes in on a thread that has no other. -/
theorem Secured.of_starts (h : Secured s) (horderly : Orderly s)
    (hstarts : Starts turn s.toTurnRuntime t.toTurnRuntime)
    (hpointers : KeepsPointers s.stores t.stores) (happrovals : t.approvals = s.approvals)
    (halone : s.turnManager.threadHasRunningTurn turn.threadId = false) :
    Secured t ∧ Newcomer turn t := by
  have hunnamed : ∀ id approval, t.approvals.lookup id = some approval →
      approval.turnId ≠ turn.id := by
    intro id approval happroval hsame
    rw [happrovals] at happroval
    exact hstarts.fresh (hsame ▸ (horderly.approvalsIssued id approval happroval).2)
  refine ⟨⟨hpointers.filed h.filed, ?_, ?_⟩, hstarts.issued, hunnamed, ?_⟩
  · intro id found hfound
    rcases hstarts.lookup hfound with ⟨-, rfl⟩ | ⟨-, hbefore⟩
    · rw [hstarts.running]
      rfl
    · exact h.opened id found hbefore
  · intro id approval found happroval hfound
    rcases hstarts.lookup hfound with ⟨hid, -⟩ | ⟨-, hbefore⟩
    · exact absurd hid (hunnamed id approval happroval)
    · rw [happrovals] at happroval
      obtain ⟨hsame, checkpoint, hissued, hcovers⟩ := h.covered id approval found happroval hbefore
      exact ⟨hsame, checkpoint, hissued.mono hstarts.sequence, hpointers.covers h.filed hcovers⟩
  · intro id other hother
    rcases hstarts.lookup hother with ⟨hid, rfl⟩ | ⟨hid, hbefore⟩
    · exact ⟨fun _ => rfl, fun _ => hid⟩
    · have hopen := h.opened id other hbefore
      have hother := threadHasRunningTurn_eq_false.mp halone id other hbefore hopen
      exact iff_of_false hid hother

end Steady

/-! ### A new checkpoint -/

/-- The checkpoints that were there are as they were, and so are the records of the other threads. -/
structure TouchesThread (threadId : ThreadId) (s t : TurnRuntime) : Prop where
  turns : KeepsTurns s t
  filed : OwnFiles s.stores → OwnFiles t.stores
  checkpoints : ∀ id, s.ids.Issued id →
    t.stores.checkpoints.lookup id = s.stores.checkpoints.lookup id
  threads : ∀ id, id ≠ threadId → t.stores.threads.lookup id = s.stores.threads.lookup id

theorem TouchesThread.covers {threadId other : ThreadId} {turnId : TurnId} {s t : TurnRuntime}
    {checkpoint : Checkpoint} (h : TouchesThread threadId s t) (hother : other ≠ threadId)
    (hissued : s.ids.Issued checkpoint.id) (hcovers : checkpoint.Covers other turnId s.stores) :
    checkpoint.Covers other turnId t.stores := by
  have hlookup := h.threads other hother
  refine ⟨(h.checkpoints checkpoint.id hissued).trans hcovers.stored, hcovers.thread, hcovers.turn,
    ⟨?_, fun thread hthread => hcovers.latest.latest thread (hlookup ▸ hthread)⟩⟩
  rw [← AList.lookup_isSome, hlookup, AList.lookup_isSome]
  exact hcovers.latest.stored

theorem TouchesThread.tick {threadId : ThreadId} {s t : TurnRuntime}
    (h : TouchesThread threadId s t) :
    TouchesThread threadId s { t with stores := t.stores.tick } :=
  ⟨⟨h.turns.activeTurns, h.turns.sequence⟩, h.filed, h.checkpoints, h.threads⟩

/-- The record of the thread has been written, in full, in part or not at all. -/
theorem TouchesThread.withThread {s t : TurnRuntime} {record : Thread}
    (h : TouchesThread record.id s t) (fault : Option Fault) :
    TouchesThread record.id s { t with stores := (t.stores.withThread record fault).tick } := by
  refine ⟨⟨h.turns.activeTurns, h.turns.sequence⟩, fun hfiled =>
    ownFiles_withThread (h.filed hfiled) fault, fun id hissued => ?_, fun id hid => ?_⟩
  · show (t.stores.withThread record fault).checkpoints.lookup id = _
    rw [checkpoints_withThread]
    exact h.checkpoints id hissued
  · exact (lookup_withThread_ne fault hid).trans (h.threads id hid)

/-- A checkpoint has been written under a new identifier, in full or in part. -/
theorem touchesThread_putCheckpoint {s : TurnRuntime} {ids : IdGenerator} {checkpointId : CheckpointId}
    (hfresh : ¬ s.ids.Issued checkpointId) (hids : s.ids.sequence ≤ ids.sequence)
    (threadId : ThreadId) (file : JsonFile Checkpoint) :
    TouchesThread threadId s
      { s with
        ids := ids
        stores := { s.stores with
          checkpoints := s.stores.checkpoints.insert checkpointId file }.tick } := by
  refine ⟨⟨rfl, hids⟩, id, fun id hissued => ?_, fun _ _ => rfl⟩
  have hne : id ≠ checkpointId := fun heq => hfresh (heq ▸ hissued)
  exact AList.lookup_insert_ne hne

section Checkpoints

variable [Disk] [Clock] {s : TurnRuntime}

/-- A checkpoint that has been created covers the turn; one that could not be created leaves the
other threads alone. -/
theorem createCheckpoint_covers {threadId : ThreadId} (hfiled : OwnFiles s.stores)
    (turnId : TurnId) (scope : CheckpointScope) (reason : String) :
    wp (createCheckpoint threadId turnId scope reason)
      (fun checkpoint t => TouchesThread threadId s t ∧ t.ids.Issued checkpoint.id ∧
        checkpoint.Covers threadId turnId t.stores)
      (fun _ t => TouchesThread threadId s t) s := by
  have hfresh := not_issued_nextValue s.ids "checkpoint"
  have hissued := issued_nextValue s.ids "checkpoint"
  unfold createCheckpoint
  rw [wp_bind, wp_drawn, wp_bind, wp_drawn]
  generalize hcheckpoint : Checkpoint.mk _ threadId turnId scope reason _ = checkpoint
  have hid : checkpoint.id = (s.ids.nextValue "checkpoint").1 := by rw [← hcheckpoint]; rfl
  rw [← hid] at hfresh hissued
  have hids : s.ids.sequence ≤ (s.ids.nextValue "checkpoint").2.nowTimestamp.2.sequence :=
    Nat.le_succ _
  have hput := touchesThread_putCheckpoint hfresh hids threadId
  rw [wp_bind, wp_stored, RuntimeStores.putCheckpoint, writeJson, wp_effect]
  refine ⟨fun _ => ?_, fun fault _ => ?_⟩
  · have htouched := (hput (.intact checkpoint)).tick
    rw [wp_bind, wp_requireThread]
    refine ⟨fun found hfound => ?_, fun e _ => htouched⟩
    have hstored := lookup_of_foundThread hfound
    obtain rfl : found.id = threadId := hfiled threadId found hstored
    let record : Thread := { found with
      latestCheckpointId := some checkpoint.id
      updatedAt := checkpoint.createdAt }
    have hrecord : TouchesThread record.id s _ := htouched
    have hwritten := hrecord.withThread
    rw [wp_bind, wp_stored, wp_putThread]
    refine ⟨fun _ => ⟨hwritten none, hissued, ?_⟩, fun fault _ => hwritten (some fault)⟩
    refine ⟨AList.lookup_insert _, by rw [← hcheckpoint], by rw [← hcheckpoint],
      (AList.mem_insert _).mpr (Or.inl rfl), fun thread hthread => ?_⟩
    change (s.stores.threads.insert record.id (.intact record)).lookup record.id = _ at hthread
    rw [AList.lookup_insert, Option.some.injEq] at hthread
    rw [← JsonFile.intact.inj hthread]
  · cases fault with
    | refused message =>
        exact ⟨⟨rfl, Nat.le_succ _⟩, id, fun _ _ => rfl, fun _ _ => rfl⟩
    | torn message => exact hput (.corrupt message)
    | unterminated message => exact hput (.corrupt message)

end Checkpoints

/-! ### A turn that is put up for approval -/

section Approvals

variable {s t : RuntimeCoordinator} {turn : Turn}

/-- What happens to the thread of a newcomer concerns no turn that an approval names. -/
theorem Secured.of_touches (h : Secured s) (hnew : Newcomer turn s)
    (htouches : TouchesThread turn.threadId s.toTurnRuntime t.toTurnRuntime)
    (happrovals : t.approvals = s.approvals) : Secured t ∧ Newcomer turn t := by
  have hactive := htouches.turns.activeTurns
  refine ⟨⟨htouches.filed h.filed, ?_, ?_⟩, hnew.issued.mono htouches.turns.sequence, ?_, ?_⟩
  · rw [hactive]
    exact h.opened
  · intro id approval found happroval hfound
    rw [happrovals] at happroval
    rw [hactive] at hfound
    obtain ⟨hsame, checkpoint, hissued, hcovers⟩ := h.covered id approval found happroval hfound
    have hother : approval.threadId ≠ turn.threadId := by
      intro hthread
      have hid := (hnew.alone approval.turnId found hfound).mpr (hsame.trans hthread)
      exact hnew.unnamed id approval happroval hid
    exact ⟨hsame, checkpoint, hissued.mono htouches.turns.sequence,
      htouches.covers hother hissued hcovers⟩
  · rw [happrovals]
    exact hnew.unnamed
  · rw [hactive]
    exact hnew.alone

/-- An approval comes in for a newcomer that has its checkpoint. -/
theorem Secured.of_asks (h : Secured s) (hnew : Newcomer turn s) {checkpoint : Checkpoint}
    (hissued : s.ids.Issued checkpoint.id)
    (hcovers : checkpoint.Covers turn.threadId turn.id s.stores) {approval : ApprovalRequest}
    (hthread : approval.threadId = turn.threadId) (hturn : approval.turnId = turn.id) :
    Secured (s.withApproval approval.id approval) := by
  refine ⟨h.filed, h.opened, fun id other found hother hfound => ?_⟩
  change (s.approvals.insert approval.id approval).lookup id = some other at hother
  change s.turnManager.activeTurns.lookup other.turnId = some found at hfound
  by_cases hid : id = approval.id
  · rw [hid, AList.lookup_insert, Option.some.injEq] at hother
    subst hother
    rw [hturn] at hfound
    have hown := (hnew.alone turn.id found hfound).mp rfl
    rw [hthread, hturn]
    exact ⟨hown, checkpoint, hissued, hcovers⟩
  · rw [AList.lookup_insert_ne hid] at hother
    exact h.covered id other found hother hfound

variable [Disk] [Clock]

/-- The checkpoint comes before the approval, and where one of the two fails there is no approval. -/
theorem requireApprovalForTurn_secured (h : Secured s) (hnew : Newcomer turn s)
    {decision : PolicyDecision} (hcheckpoint : decision.requiresCheckpoint = true) :
    wp (RuntimeCoordinator.requireApprovalForTurn turn.threadId turn.id decision)
      (fun _ t => Secured t) (fun _ t => Secured t) s := by
  unfold RuntimeCoordinator.requireApprovalForTurn
  rw [if_pos hcheckpoint, wp_bind, wp_onTurns, wp_map]
  have htouched : ∀ u, TouchesThread turn.threadId s.toTurnRuntime u →
      Secured { s with toTurnRuntime := u } ∧ Newcomer turn { s with toTurnRuntime := u } :=
    fun u hu => h.of_touches hnew hu rfl
  refine wp_mono (createCheckpoint_covers h.filed turn.id _ _) (fun checkpoint u hu => ?_)
    (fun _ u hu => (htouched u hu).1)
  obtain ⟨htouches, hissued, hcovers⟩ := hu
  obtain ⟨hsecured, hnewcomer⟩ := htouched u htouches
  rw [wp_bind, wp_onTurns, wp_drawn, wp_bind]
  let drawn : RuntimeCoordinator :=
    { s with toTurnRuntime := { u with ids := u.ids.nextApprovalId.2 } }
  have hsteady : Steady { s with toTurnRuntime := u } drawn :=
    Quiet.steady ⟨⟨rfl, Nat.le_succ _⟩, rfl⟩ ⟨rfl, rfl⟩
  refine wp_mono (markWaitingApproval_steady _ _ _ drawn) (fun _ v hv => ?_)
    (fun _ v hv => hsecured.of_steady (hsteady.trans hv))
  rw [wp_bind, wp_modify, wp_pure]
  have hlater := hsteady.trans hv
  apply (hsecured.of_steady hlater).of_asks (hnewcomer.of_steady hlater)
    (hissued.mono hlater.turns.sequence) (hlater.pointers.covers hsecured.filed hcovers)
  · rfl
  · rfl

end Approvals

/-! ### One request -/

section Requests

variable [World] {s : AppServer} {turn : Turn}

omit [World] in
/-- A program of the server that stays steady. -/
theorem Secured.after_guarantees {α : Type} {p : ServerM α} (hp : Guarantees StaysSteady p)
    (h : Secured s.runtime) :
    wp p (fun _ t => Secured t.runtime) (fun _ t => Secured t.runtime) s :=
  wp_mono (hp s) (fun _ _ ht => h.of_steady ht) (fun _ _ ht => h.of_steady ht)

theorem decideTurn_secured (h : Secured s.runtime) (hnew : Newcomer turn s.runtime)
    (request : TurnStartRequest) (answers : List GatewayAnswer) {thread : Thread}
    (hthread : thread.id = turn.threadId) (context : AssembledContext) :
    wp (decideTurn request answers turn thread context) (fun _ t => Secured t.runtime)
      (fun _ t => Secured t.runtime) s := by
  unfold decideTurn
  dsimp only
  rw [wp_bind, wp_get]
  split
  · next hasks =>
      have hcheckpoint := requiresCheckpoint_of_requiresApproval hasks.2
      generalize evaluatePolicy request.input context = decision at hcheckpoint ⊢
      unfold requestApproval
      rw [hthread, wp_bind, wp_onRuntime]
      refine wp_mono (requireApprovalForTurn_secured h hnew hcheckpoint) (fun asked runtime ht => ?_)
        (fun _ _ ht => ht)
      exact Secured.after_guarantees (publishAll_staysSteady _).guarantees ht
  · exact h.after_guarantees (streamModelTurn_staysSteady _ _ _ _ _ _ _)

/-- The record that is read for a thread is the record of that thread. -/
theorem readThread_own (hfiled : OwnFiles s.runtime.stores) (threadId : ThreadId) :
    wp (onRuntime (onTurns (readThread threadId)))
      (fun read t => StaysSteady s t ∧ ∀ thread, read = .ok (some thread) → thread.id = threadId ∧
        t.runtime.stores.threads.lookup threadId = some (.intact thread))
      (fun _ _ => False) s := by
  have hown : wp (onRuntime (onTurns (readThread threadId)))
      (fun read t => ∀ thread, read = .ok (some thread) → thread.id = threadId ∧
        t.runtime.stores.threads.lookup threadId = some (.intact thread))
      (fun _ _ => True) s := by
    rw [wp_onRuntime, wp_onTurns]
    unfold readThread RuntimeStores.getThread
    rw [wp_stored, wp_readJson]
    refine ⟨fun value hvalue thread hread => ?_, fun e _ thread hread => absurd hread (by simp)⟩
    obtain rfl : value = some thread := by simpa using hread
    have hfound : foundThread s.runtime.stores threadId = .ok thread := by
      unfold foundThread
      rw [hvalue]
    have hstored := lookup_of_foundThread hfound
    exact ⟨hfiled threadId thread hstored, hstored⟩
  exact wp_mono (wp_and (onRuntime_staysSteady (readThread_steady threadId) s) hown)
    (fun _ _ h => h) (fun _ _ h => h.1)

theorem continueTurnAfterPolicy_secured (h : Secured s.runtime) (hnew : Newcomer turn s.runtime)
    (request : TurnStartRequest) (answers : List GatewayAnswer) :
    wp (continueTurnAfterPolicy request answers turn) (fun _ t => Secured t.runtime)
      (fun _ t => Secured t.runtime) s := by
  unfold continueTurnAfterPolicy
  rw [wp_bind]
  refine wp_mono (readThread_own h.filed turn.threadId) (fun read t ht => ?_) (fun _ _ hno => hno.elim)
  obtain ⟨hread, hfound⟩ := ht
  have hsecured := h.of_steady hread
  rcases read with _ | _ | thread
  · exact hsecured
  · exact hsecured
  · dsimp only
    obtain ⟨hthread, -⟩ := hfound thread rfl
    rw [wp_bind]
    refine wp_mono (onRuntime_staysSteady (assembleContextForInteraction_steady _ _ _ _) t)
      (fun assembled u hu => ?_) (fun _ _ hno => hno.elim)
    have hlater := Steady.trans hread hu
    cases assembled with
    | error _ => exact h.of_steady hlater
    | ok context =>
        exact decideTurn_secured (h.of_steady hlater) (hnew.of_steady hlater) request answers
          hthread context

/-- A started turn is a newcomer, and a turn that could not be started changes nothing. -/
theorem dispatched_turnStart_secured (h : Secured s.runtime) (horderly : Orderly s.runtime)
    (request : TurnStartRequest) :
    wp (dispatched (.turnStart request))
      (fun response t => Secured t.runtime ∧
        ∀ turn, response = .success (.turnStart turn) → Newcomer turn t.runtime)
      (fun _ _ => False) s := by
  have hstart : wp (RuntimeCoordinator.startTurn request)
      (fun turn t => Secured t ∧ Newcomer turn t) (fun _ t => Steady s.runtime t) s.runtime := by
    unfold RuntimeCoordinator.startTurn
    rw [wp_onTurns, wp_bind, wp_requireThread]
    have htick : KeepsTurns s.runtime.toTurnRuntime
        { s.runtime.toTurnRuntime with stores := s.runtime.stores.tick } := .of_eq rfl rfl
    refine ⟨fun thread hthread => ?_, fun _ _ => Quiet.steady ⟨htick, rfl⟩ ⟨rfl, rfl⟩⟩
    have hfound := lookup_of_foundThread hthread
    have hagrees : ∀ turnId now goal, (thread.started turnId now goal).Agrees s.runtime.stores :=
      fun _ _ _ => Thread.agrees_of_found hfound rfl rfl
    have hpointers := startTurn_leavesPointers (s := s.runtime.toTurnRuntime)
      (t := { s.runtime.toTurnRuntime with stores := s.runtime.stores.tick }) ⟨rfl, rfl⟩ hagrees
      request
    refine wp_mono (wp_and (wp_and (startTurn_starts thread request) (startTurn_alone thread request))
      hpointers) (fun turn t ht => ?_) (fun _ t ht => ?_)
    · obtain ⟨⟨hstarts, halone⟩, hpointers⟩ := ht
      exact h.of_starts (t := { s.runtime with toTurnRuntime := t }) horderly
        ⟨hstarts.fresh, hstarts.issued, hstarts.running, hstarts.activeTurns, hstarts.sequence⟩
        hpointers rfl halone
    · exact ⟨(htick.trans ht.1.1).turnsRemain, ht.2, rfl⟩
  unfold dispatched dispatch respond
  rw [wp_bind, wp_bind, wp_onRuntime]
  refine wp_mono hstart (fun turn runtime ht => ?_) (fun e runtime ht => ?_)
  · dsimp only
    rw [wp_bind, wp_bind]
    refine wp_mono (threadEvent_staysSteady _ _ _ _) (fun updated u hu => ?_) (fun _ _ hno => hno)
    simp only [wp_pure, wp_bind, wp_publishAll]
    refine ⟨ht.1.of_steady hu, fun other hother => ?_⟩
    obtain rfl : turn = other := by simpa using hother
    exact ht.2.of_steady hu
  · exact ⟨h.of_steady ht, fun turn hno => absurd hno (by simp [errorEnvelope])⟩

theorem dispatched_approvalRespond_secured (h : Secured s.runtime)
    (request : ApprovalRespondRequest) :
    wp (dispatched (.approvalRespond request)) (fun _ t => Secured t.runtime) (fun _ _ => False)
      s := by
  unfold dispatched dispatch respond RuntimeCoordinator.respondApproval
  simp only [wp_bind, wp_onRuntime, wp_get]
  cases hfound : s.runtime.approvals.lookup request.approvalId with
  | none => exact h
  | some approval =>
      simp only [wp_bind, wp_modify, wp_pure, wp_publishAll]
      exact h.withApproval hfound

/-- Every request keeps the turns that wait covered, as long as a new thread is new. -/
theorem secured_step (h : Secured s.runtime) (horderly : Orderly s.runtime) {input : ServerInput}
    (hnew : s.NamesThreadAnew input.request) : Secured (s.step input).runtime := by
  obtain ⟨request, answers⟩ := input
  by_cases hrequest : request.ordinary = true ∨ ∃ cancel, request = .turnCancel cancel
  · exact h.of_steady (step_staysSteady hrequest hnew answers)
  · apply step_of_dispatched (I := fun t => Secured t.runtime)
    cases request with
    | turnStart request =>
        refine wp_mono (dispatched_turnStart_secured h horderly request) (fun response t ht => ?_)
          (fun _ _ hno => hno.elim)
        by_cases hstarted : ∃ turn, response = .success (.turnStart turn)
        · obtain ⟨turn, rfl⟩ := hstarted
          exact continueTurnAfterPolicy_secured ht.1 (ht.2 turn rfl) request answers
        · rw [continueAfter_of_not_started fun turn hturn => hstarted ⟨turn, hturn⟩]
          exact ht.1
    | approvalRespond request =>
        refine wp_mono (dispatched_approvalRespond_secured h request) (fun response t ht => ?_)
          (fun _ _ hno => hno.elim)
        exact ht.after_guarantees (continueAfter_approvalRespond_staysSteady _ _ _)
    | _ => exact absurd (by simp [ClientRequest.ordinary]) hrequest

end Requests

/-! ### The work of a request -/

/-- A checkpoint that names the turn and its thread is stored, and the record of the thread, as it
is stored and given to the model, names that checkpoint as the latest. -/
def ModelTurn.Checkpointed (started : ModelTurn) : Prop :=
  ∃ checkpoint : Checkpoint,
    started.server.runtime.stores.checkpoints.lookup checkpoint.id = some (.intact checkpoint) ∧
      checkpoint.turnId = started.turn.id ∧ checkpoint.threadId = started.turn.threadId ∧
      started.thread.id = started.turn.threadId ∧
      started.server.runtime.stores.threads.lookup started.thread.id =
        some (.intact started.thread) ∧
      started.thread.latestCheckpointId = some checkpoint.id

section Work

variable [World] {s : AppServer} {started : ModelTurn}

/-- The decision about the turn that the request runs requires a checkpoint; for a turn that had to
wait, the approval keeps the risk level of the decision. -/
def AppServer.RequiresCheckpoint (s : AppServer) (context : AssembledContext) :
    ClientRequest → Prop
  | .turnStart request => (evaluatePolicy request.input context).requiresCheckpoint = true
  | .approvalRespond request => ∃ approval, s.runtime.approvals.lookup request.approvalId =
      some approval ∧ approval.riskLevel.needsCheckpoint = true
  | _ => False

/-- When the request comes to a turn at the model that requires a checkpoint, the checkpoint is
there. -/
def AppServer.ChecksFirst (s : AppServer) (input : ServerInput) : Prop :=
  ∀ started, s.work input.request = some (.turn started) →
    s.RequiresCheckpoint started.context input.request → started.Checkpointed

/-- A turn that may run at once needs no checkpoint, and a new thread is new. -/
def AppServer.HeedsCheckpoints (s : AppServer) (input : ServerInput) : Prop :=
  s.NamesThreadAnew input.request ∧
    ∀ request, input.request = .turnStart request → MayRun s.approvalPolicy request.input →
      needsCheckpoint request.input = false

theorem wp_resumeApprovedTurn (threadId : ThreadId) (turnId : TurnId) :
    wp (onRuntime (RuntimeCoordinator.resumeApprovedTurn threadId turnId))
      (fun resumed t => StaysSteady s t ∧ ∀ turn, resumed = .ok turn →
        ∃ found, s.runtime.turnManager.activeTurns.lookup turnId = some found ∧ turn = found.resumed)
      (fun _ _ => False) s := by
  have hmarked : wp (onRuntime (RuntimeCoordinator.resumeApprovedTurn threadId turnId))
      (fun resumed _ => ∀ turn, resumed = .ok turn →
        ∃ found, s.runtime.turnManager.activeTurns.lookup turnId = some found ∧ turn = found.resumed)
      (fun _ _ => True) s := by
    rw [wp_onRuntime]
    unfold RuntimeCoordinator.resumeApprovedTurn
    rw [wp_onTurns]
    refine wp_mono markTurn_marks (fun marked t ht turn hturn => ?_)
      (fun e _ _ turn hno => absurd hno (by simp))
    obtain ⟨found, hfound, hmarked, -⟩ := ht
    obtain rfl : marked = turn := by simpa using hturn
    exact ⟨found, hfound, hmarked⟩
  exact wp_mono (wp_and (onRuntime_staysSteady (resumeApprovedTurn_steady threadId turnId) s) hmarked)
    (fun _ _ h => h) (fun _ _ h => h.1)

theorem wp_assembleContext (threadId : ThreadId) (input : String) :
    wp (onRuntime (onTurns (assembleContext threadId input)))
      (fun _ t => SameFiles s.runtime.stores t.runtime.stores) (fun _ _ => False) s := by
  rw [wp_onRuntime, wp_onTurns]
  exact wp_mono (assembleContextForInteraction_leavesFiles _ _ _ _ s.runtime.toTurnRuntime)
    (fun _ _ h => h) (fun _ _ h => h)

/-- An approved turn runs with its checkpoint. -/
theorem checkpointed_of_resumptionWork (h : Secured s.runtime) (hfiled : Filed s.runtime.toTurnRuntime)
    {id : ApprovalId} {approval : ApprovalRequest}
    (happroval : s.runtime.approvals.lookup id = some approval)
    (hwork : resumptionWork approval s = some (.turn started)) : started.Checkpointed := by
  obtain ⟨resumed, t, ⟨hsteady, hresumed⟩, hwork⟩ :=
    exists_of_leading (wp_resumeApprovedTurn approval.threadId approval.turnId) hwork
  cases resumed with
  | error e => exact absurd hwork.symm (Option.some_ne_none _)
  | ok turn =>
      obtain ⟨found, hfound, rfl⟩ := hresumed turn rfl
      obtain ⟨hsame, checkpoint, -, hbefore⟩ := h.covered id approval found happroval hfound
      have hresumed := hsteady.pointers.covers h.filed hbefore
      have hown := hsteady.pointers.filed h.filed
      obtain ⟨read, u, ⟨hread, hthread⟩, hwork⟩ :=
        exists_of_leading (readThread_own hown approval.threadId) hwork
      rcases read with _ | _ | thread
      · exact absurd hwork.symm (Option.some_ne_none _)
      · exact absurd hwork.symm (Option.some_ne_none _)
      · obtain ⟨hid, hstored⟩ := hthread thread rfl
        have hcovers := hread.pointers.covers hown hresumed
        obtain ⟨assembled, v, hfiles, hwork⟩ := exists_of_leading (wp_assembleContext _ _) hwork
        cases assembled with
        | error e => exact absurd hwork.symm (Option.some_ne_none _)
        | ok context =>
            obtain rfl : ModelTurn.mk v thread found.resumed context none = started := by
              simpa using hwork
            have hturn : found.id = approval.turnId := hfiled approval.turnId found hfound
            refine ⟨checkpoint, hfiles.checkpoints ▸ hcovers.stored, hcovers.turn.trans hturn.symm,
              hcovers.thread.trans hsame.symm, hid.trans hsame.symm, ?_,
              hcovers.latest.latest thread hstored⟩
            show v.runtime.stores.threads.lookup thread.id = _
            rw [hfiles.threads, hid]
            exact hstored

/-- Of the answers to an approval, only an approving one comes to a turn. -/
theorem resumptionWork_of_answerWork {decision : ApprovalDecision} {approval : ApprovalRequest}
    (hwork : answerWork decision approval s = some (.turn started)) :
    resumptionWork approval s = some (.turn started) := by
  cases decision with
  | approveOnce => exact hwork
  | approveAndPersist => exact hwork
  | deny =>
      obtain ⟨cancelled, t, -, hwork⟩ := exists_of_leading (wp_trivial _) hwork
      cases cancelled with
      | error e => exact absurd hwork.symm (Option.some_ne_none _)
      | ok turn =>
          obtain ⟨_, u, -, hwork⟩ := exists_of_leading (wp_trivial _) hwork
          obtain ⟨events, v, -, hwork⟩ := exists_of_leading (wp_trivial _) hwork
          obtain ⟨_, w, -, hwork⟩ := exists_of_leading (wp_trivial _) hwork
          exact absurd hwork (by simp)

/-- A turn that is run when it is started may run at once. -/
theorem mayRun_of_work {request : TurnStartRequest}
    (hwork : s.work (.turnStart request) = some (.turn started)) :
    MayRun s.approvalPolicy request.input := by
  have hpolicy : ∀ {α : Type} (p : RuntimeM α) (t : AppServer),
      wp (onRuntime p) (fun _ u => u.approvalPolicy = t.approvalPolicy) (fun _ _ => True) t := by
    intro α p t
    rw [wp_onRuntime]
    exact wp_mono (wp_trivial p) (fun _ _ _ => rfl) (fun _ _ _ => rfl)
  obtain ⟨response, t, hdispatched, hwork⟩ :=
    exists_of_leading (dispatched_turnStart request s) hwork
  rcases hdispatched with ⟨turn, rfl, hbegins⟩ | ⟨hnone, -⟩
  · obtain ⟨read, u, hu, hwork⟩ := exists_of_leading (hpolicy _ t) hwork
    rcases read with _ | _ | thread
    · exact absurd hwork.symm (Option.some_ne_none _)
    · exact absurd hwork.symm (Option.some_ne_none _)
    · obtain ⟨assembled, v, hv, hwork⟩ := exists_of_leading (hpolicy _ u) hwork
      cases assembled with
      | error e => exact absurd hwork.symm (Option.some_ne_none _)
      | ok context =>
          change decisionWork request turn thread context v = _ at hwork
          unfold decisionWork at hwork
          rw [requiresApproval_eq, hv, hu, hbegins.approvalPolicy] at hwork
          intro hasks
          rw [if_pos hasks] at hwork
          exact absurd hwork.symm (Option.some_ne_none _)
  · have hnothing : followUpWork (.turnStart request) response t = none := by
      rcases response with ⟨payload⟩ | _
      · cases payload <;> first | rfl | exact absurd rfl (hnone _)
      · rfl
    rw [hnothing] at hwork
    exact absurd hwork.symm (Option.some_ne_none _)

/-- A request that heeds what it has to comes to a turn with its checkpoint. -/
theorem checksFirst_of_heeds (h : Secured s.runtime) (horderly : Orderly s.runtime)
    {input : ServerInput} (hheeds : s.HeedsCheckpoints input) : s.ChecksFirst input := by
  obtain ⟨request, answers⟩ := input
  intro started hwork hrequires
  cases request with
  | turnStart request =>
      have hneeds := hheeds.2 request rfl (mayRun_of_work hwork)
      change (evaluatePolicy request.input started.context).requiresCheckpoint = true at hrequires
      rw [requiresCheckpoint_eq, hneeds] at hrequires
      exact absurd hrequires Bool.false_ne_true
  | approvalRespond request =>
      obtain ⟨response, t, ⟨hdispatched, hsecured⟩, hwork⟩ := exists_of_leading
        (wp_and (dispatched_approvalRespond request s) (dispatched_approvalRespond_secured h request))
        hwork
      rcases hdispatched with ⟨approval, rfl, hanswers⟩ | ⟨⟨code, message, retryable, rfl⟩, -⟩
      · have hfiled : Filed t.runtime.toTurnRuntime := hanswers.runtime ▸ horderly.filed
        have happroval : t.runtime.approvals.lookup request.approvalId =
            some (RuntimeCoordinator.answered request.decision approval) := by
          rw [hanswers.runtime, lookup_withApproval, if_pos rfl]
        exact checkpointed_of_resumptionWork hsecured hfiled happroval
          (resumptionWork_of_answerWork hwork)
      · exact absurd hwork.symm (Option.some_ne_none _)
  | _ => exact absurd hrequires (by simp [AppServer.RequiresCheckpoint])

/-! ### Every run -/

omit [World] in
/-- A server that starts reads the node registry. -/
theorem sameFiles_new [Disk] (host : HostInfo) (sandbox : ShellSandboxRequest)
    (stores : RuntimeStores) :
    SameFiles stores (AppServer.new host sandbox stores).runtime.stores := by
  have hread : Guarantees SameFiles RuntimeStores.readNodeRegistry := by
    intro stores
    rw [RuntimeStores.readNodeRegistry, wp_map]
    exact readJson_sameFiles _ stores
  have hstart := hread stores
  unfold AppServer.new RuntimeCoordinator.new
  unfold wp at hstart
  cases hrun : RuntimeStores.readNodeRegistry stores with
  | ok snapshot later =>
      rw [hrun] at hstart
      exact hstart
  | error e later =>
      rw [hrun] at hstart
      exact hstart

/-- In every run over files that are in order, whatever the approval policy becomes: as long as no
turn that requires a checkpoint may run at once and every new thread is new, a turn that requires a
checkpoint does not come to the model without it. -/
theorem checkpoints_come_first (host : HostInfo) (sandbox : ShellSandboxRequest)
    (stores : RuntimeStores) (inputs : List ServerInput) (hfiled : OwnFiles stores)
    (hall : Runs.AllSteps AppServer.step AppServer.HeedsCheckpoints (.new host sandbox stores)
      inputs) :
    Runs.AllSteps AppServer.step AppServer.ChecksFirst (.new host sandbox stores) inputs := by
  have hfiles := sameFiles_new host sandbox stores
  have hnew : Secured (AppServer.new host sandbox stores).runtime := by
    refine ⟨hfiles.ownFiles.mpr hfiled, fun id turn hturn => ?_, fun id approval turn happroval => ?_⟩
    · rw [activeTurns_new, AList.lookup_empty] at hturn
      exact absurd hturn.symm (Option.some_ne_none _)
    · rw [approvals_new, AList.lookup_empty] at happroval
      exact absurd happroval.symm (Option.some_ne_none _)
  let Inv : AppServer → Prop := fun s => Secured s.runtime ∧ Orderly s.runtime
  have hstep : ∀ s input, Inv s → s.HeedsCheckpoints input → Inv (s.step input) :=
    fun _ input h hheeds => ⟨secured_step h.1 h.2 hheeds.1, orderly_step h.2 input⟩
  have hchecks : ∀ s input, Inv s → s.HeedsCheckpoints input → s.ChecksFirst input :=
    fun _ _ h hheeds => checksFirst_of_heeds h.1 h.2 hheeds
  have hinit : Inv (.new host sandbox stores) := ⟨hnew, orderly_new host sandbox stores⟩
  exact Runs.allSteps_of_invariant hstep hchecks hinit hall

end Work

/-! ### A server with one thread -/

theorem ownFiles_oneThreadStores : OwnFiles oneThreadStores := by
  intro id thread hthread
  have hstored : oneThreadStores.threads = (∅ : Table ThreadId (JsonFile Thread)).insert
      "thread_0_1" (.intact (Thread.blank "thread_0_1")) := rfl
  rw [hstored] at hthread
  by_cases hid : id = "thread_0_1"
  · subst hid
    rw [AList.lookup_insert, Option.some.injEq] at hthread
    rw [← JsonFile.intact.inj hthread]
    rfl
  · rw [AList.lookup_insert_ne hid, AList.lookup_empty] at hthread
    exact absurd hthread.symm (Option.some_ne_none _)

/-- The server while the deletion waits for its approval. -/
def waitingServer : AppServer := @AppServer.step plainWorld oneThreadServer deletionInput

/-- The approved deletion comes to the model with its checkpoint. -/
theorem approved_deletion_is_checkpointed :
    ∃ started, @AppServer.work plainWorld waitingServer (respondInput .approveOnce []).request =
      some (.turn started) ∧ started.Checkpointed := by
  have hheeds : @Runs.AllSteps _ _ (@AppServer.step plainWorld)
      (@AppServer.HeedsCheckpoints plainWorld) oneThreadServer
      [deletionInput, respondInput .approveOnce []] := by
    refine ⟨⟨trivial, fun request hrequest hmay => ?_⟩, ⟨trivial, fun _ hno => ?_⟩, trivial⟩
    · obtain rfl := ClientRequest.turnStart.inj hrequest
      have hneeds : needsApproval "delete .env" = true := by decide +kernel
      exact absurd ⟨rfl, hneeds⟩ hmay
    · cases hno
  have hrun : @Runs.AllSteps _ _ (@AppServer.step plainWorld) (@AppServer.ChecksFirst plainWorld)
      oneThreadServer [deletionInput, respondInput .approveOnce []] :=
    @checkpoints_come_first plainWorld { os := "linux", hostname := none }
      { mode := .workspaceWrite, networkAccess := .restricted } oneThreadStores
      [deletionInput, respondInput .approveOnce []] ownFiles_oneThreadStores hheeds
  have hsecond : @AppServer.ChecksFirst plainWorld waitingServer (respondInput .approveOnce []) :=
    hrun.2.1
  have hturn : (@AppServer.work plainWorld waitingServer
      (respondInput .approveOnce []).request).map Work.isTurn = some true := by decide +kernel
  have hrisk : ((waitingServer.runtime.approvals.lookup "approval_0_3").map fun approval =>
      approval.riskLevel.needsCheckpoint) = some true := by decide +kernel
  obtain ⟨work, hwork, hisTurn⟩ := Option.map_eq_some_iff.mp hturn
  cases work with
  | compilation boundary => exact absurd hisTurn Bool.false_ne_true
  | turn started =>
      exact ⟨started, hwork, hsecond started hwork (Option.map_eq_some_iff.mp hrisk)⟩

/-- A turn that may change files and asks for no approval. -/
def noteInput : ServerInput :=
  { request := .turnStart (turnRequest "write a note"), answers := [] }

/-- A turn of medium risk is run at once, and there is no checkpoint. -/
theorem medium_turn_is_unchecked :
    ¬ ∀ (_ : World) (host : HostInfo) (sandbox : ShellSandboxRequest) (stores : RuntimeStores)
      (inputs : List ServerInput), OwnFiles stores →
      Runs.AllSteps AppServer.step AppServer.ChecksFirst (.new host sandbox stores) inputs := by
  intro h
  have hrun := h plainWorld { os := "linux", hostname := none }
    { mode := .workspaceWrite, networkAccess := .restricted } oneThreadStores [noteInput]
    ownFiles_oneThreadStores
  have hfirst : @AppServer.ChecksFirst plainWorld oneThreadServer noteInput := hrun.1
  have hturn : (@AppServer.work plainWorld oneThreadServer noteInput.request).map (fun work =>
      (work.isTurn, work.server.runtime.stores.checkpoints.keys)) = some (true, []) := by
    decide +kernel
  obtain ⟨work, hwork, hfound⟩ := Option.map_eq_some_iff.mp hturn
  obtain ⟨hisTurn, hkeys⟩ := Prod.mk.inj hfound
  cases work with
  | compilation boundary => exact absurd hisTurn Bool.false_ne_true
  | turn started =>
      have hneeds : needsCheckpoint "write a note" = true := by decide +kernel
      have hrequires : (evaluatePolicy "write a note" started.context).requiresCheckpoint = true :=
        (requiresCheckpoint_eq _ _).trans hneeds
      obtain ⟨checkpoint, hstored, -⟩ := hfirst started hwork hrequires
      have hmem : checkpoint.id ∈ started.server.runtime.stores.checkpoints.keys := by
        rw [← AList.mem_keys, ← AList.lookup_isSome, hstored]
        rfl
      rw [show started.server.runtime.stores.checkpoints.keys = [] from hkeys] at hmem
      exact absurd hmem List.not_mem_nil

end Liz
