import Liz.Server.Requests

/-!
# Active turns and the approvals that name them

The runtime keeps two tables in memory, the active turns and the approvals, and most of what the
server does touches neither. This file says once which program changes what: everything but the
transitions keeps the turns, a transition touches one turn, and only a request for approval and the
answer to it change the approvals. From this follows what every request preserves.
-/

namespace Liz

open Program

/-! ### Issued identifiers -/

/-- The generator may have given this identifier out. -/
def IdGenerator.Issued (ids : IdGenerator) (id : String) : Prop :=
  ∃ label nanos sequence, sequence ≤ ids.sequence ∧ id = IdGenerator.format label nanos sequence

theorem IdGenerator.Issued.mono {ids later : IdGenerator} {id : String} (h : ids.Issued id)
    (hlater : ids.sequence ≤ later.sequence) : later.Issued id := by
  obtain ⟨label, nanos, sequence, hle, rfl⟩ := h
  exact ⟨label, nanos, sequence, hle.trans hlater, rfl⟩

section Fresh

variable [Clock] (ids : IdGenerator) (label : String)

theorem not_issued_nextValue : ¬ ids.Issued (ids.nextValue label).1 := by
  rintro ⟨label', nanos, sequence, hle, heq⟩
  have hsequence := IdGenerator.format_sequence_injective heq
  omega

theorem issued_nextValue : (ids.nextValue label).2.Issued (ids.nextValue label).1 :=
  ⟨label, Clock.now ids.readings, ids.sequence + 1, le_rfl, rfl⟩

end Fresh

/-! ### Programs that keep the turns -/

/-- The active turns are as they were, and the generator has not gone back. -/
structure KeepsTurns (s t : TurnRuntime) : Prop where
  activeTurns : t.turnManager.activeTurns = s.turnManager.activeTurns
  sequence : s.ids.sequence ≤ t.ids.sequence

theorem KeepsTurns.refl (s : TurnRuntime) : KeepsTurns s s := ⟨rfl, le_rfl⟩

theorem KeepsTurns.trans ⦃s t u : TurnRuntime⦄ (h : KeepsTurns s t) (h' : KeepsTurns t u) :
    KeepsTurns s u :=
  ⟨h'.activeTurns.trans h.activeTurns, h.sequence.trans h'.sequence⟩

theorem KeepsTurns.of_eq {s t : TurnRuntime}
    (hturns : t.turnManager.activeTurns = s.turnManager.activeTurns) (hids : t.ids = s.ids) :
    KeepsTurns s t :=
  ⟨hturns, hids ▸ le_rfl⟩

section KeepsTurns

variable {α : Type}

theorem stored_keepsTurns (p : StoreM α) : Guarantees KeepsTurns (stored p) := by
  intro runtime
  rw [wp_stored]
  unfold wp
  split
  · exact .of_eq rfl rfl
  · exact .of_eq rfl rfl

theorem drawn_keepsTurns {draw : IdGenerator → α × IdGenerator}
    (h : ∀ ids, ids.sequence ≤ (draw ids).2.sequence) : Guarantees KeepsTurns (drawn draw) :=
  fun runtime => ⟨rfl, h runtime.ids⟩

theorem orNotFound_keepsTurns (code message : String) (found : Option α) :
    Guarantees KeepsTurns (orNotFound code message found) := by
  cases found with
  | none => exact Guarantees.throw KeepsTurns.refl _
  | some value => exact Guarantees.pure KeepsTurns.refl value

variable [Disk]

theorem requireThread_keepsTurns (threadId : ThreadId) :
    Guarantees KeepsTurns (requireThread threadId) :=
  Guarantees.bind KeepsTurns.trans (stored_keepsTurns _) fun _ => orNotFound_keepsTurns _ _ _

theorem syncActiveThreadIds_keepsTurns (threadId : ThreadId) (shouldBePresent : Bool) :
    Guarantees KeepsTurns (syncActiveThreadIds threadId shouldBePresent) :=
  Guarantees.bind KeepsTurns.trans (stored_keepsTurns _) fun _ => stored_keepsTurns _

theorem updateThreadAfterTurn_keepsTurns (thread : Thread) :
    Guarantees KeepsTurns (updateThreadAfterTurn thread) :=
  Guarantees.bind KeepsTurns.trans (stored_keepsTurns _) fun _ =>
    syncActiveThreadIds_keepsTurns _ _

theorem appendTransition_keepsTurns (threadId : ThreadId) (turnId : TurnId)
    (recordedAt : Timestamp) (event summary : String) :
    Guarantees KeepsTurns (appendTransition threadId turnId recordedAt event summary) := by
  intro runtime
  rw [wp_appendTransition]
  exact ⟨fun _ _ _ _ => ⟨fun _ => .of_eq rfl rfl, fun _ _ => .of_eq rfl rfl⟩,
    fun _ _ => .of_eq rfl rfl⟩

theorem readThread_keepsTurns (threadId : ThreadId) :
    Guarantees KeepsTurns (readThread threadId) := stored_keepsTurns _

theorem assembleContextForInteraction_keepsTurns [Unicode] (threadId : ThreadId) (input : String)
    (participant : Option ParticipantRef) (interactionContext : Option InteractionContext) :
    Guarantees KeepsTurns
      (assembleContextForInteraction threadId input participant interactionContext) := by
  refine Guarantees.bind KeepsTurns.trans (requireThread_keepsTurns _) fun _ => ?_
  refine Guarantees.bind KeepsTurns.trans (stored_keepsTurns _) fun _ => ?_
  exact Guarantees.bind KeepsTurns.trans (stored_keepsTurns _) fun _ =>
    Guarantees.pure KeepsTurns.refl _

/-- Storing a thread that was just made and listing it as active. -/
theorem storeThread_keepsTurns (thread : Thread) : Guarantees KeepsTurns (do
    stored (RuntimeStores.putThread thread)
    syncActiveThreadIds thread.id true
    pure thread) := by
  refine Guarantees.bind KeepsTurns.trans (stored_keepsTurns _) fun _ => ?_
  exact Guarantees.bind KeepsTurns.trans (syncActiveThreadIds_keepsTurns _ _) fun _ =>
    Guarantees.pure KeepsTurns.refl _

theorem resumeThread_keepsTurns (request : ThreadResumeRequest) :
    Guarantees KeepsTurns (resumeThread request) :=
  Guarantees.bind KeepsTurns.trans (requireThread_keepsTurns _) fun _ => storeThread_keepsTurns _

variable [Clock]

omit [Disk] in
theorem nowTimestamp_keepsTurns : Guarantees KeepsTurns (drawn IdGenerator.nowTimestamp) :=
  drawn_keepsTurns fun _ => le_rfl

omit [Disk] in
theorem nextValue_keepsTurns (label : String) :
    Guarantees KeepsTurns (drawn (IdGenerator.nextValue label)) :=
  drawn_keepsTurns fun _ => Nat.le_succ _

theorem startThread_keepsTurns (request : ThreadStartRequest) :
    Guarantees KeepsTurns (startThread request) := by
  refine Guarantees.bind KeepsTurns.trans nowTimestamp_keepsTurns fun now => ?_
  exact Guarantees.bind KeepsTurns.trans (nextValue_keepsTurns "thread") fun _ =>
    storeThread_keepsTurns _

theorem forkThread_keepsTurns (request : ThreadForkRequest) :
    Guarantees KeepsTurns (forkThread request) := by
  refine Guarantees.bind KeepsTurns.trans (requireThread_keepsTurns _) fun parent => ?_
  refine Guarantees.bind KeepsTurns.trans nowTimestamp_keepsTurns fun now => ?_
  exact Guarantees.bind KeepsTurns.trans (nextValue_keepsTurns "thread") fun _ =>
    storeThread_keepsTurns _

theorem createCheckpoint_keepsTurns (threadId : ThreadId) (turnId : TurnId)
    (scope : CheckpointScope) (reason : String) :
    Guarantees KeepsTurns (createCheckpoint threadId turnId scope reason) := by
  refine Guarantees.bind KeepsTurns.trans (nextValue_keepsTurns "checkpoint") fun _ => ?_
  refine Guarantees.bind KeepsTurns.trans nowTimestamp_keepsTurns fun _ => ?_
  refine Guarantees.bind KeepsTurns.trans (stored_keepsTurns _) fun _ => ?_
  refine Guarantees.bind KeepsTurns.trans (requireThread_keepsTurns _) fun _ => ?_
  exact Guarantees.bind KeepsTurns.trans (stored_keepsTurns _) fun _ =>
    Guarantees.pure KeepsTurns.refl _

theorem storeArtifacts_keepsTurns
    (reference : ArtifactId → ArtifactKind → String → String → ArtifactRef)
    (artifacts : List (ArtifactKind × String × String)) :
    Guarantees KeepsTurns (storeArtifacts reference artifacts) := by
  induction artifacts with
  | nil => exact Guarantees.pure KeepsTurns.refl []
  | cons artifact rest ih =>
      obtain ⟨kind, artifactSummary, body⟩ := artifact
      refine Guarantees.bind KeepsTurns.trans (nextValue_keepsTurns "artifact") fun _ => ?_
      refine Guarantees.bind KeepsTurns.trans (Guarantees.get KeepsTurns.refl) fun _ => ?_
      refine Guarantees.bind KeepsTurns.trans (stored_keepsTurns _) fun _ => ?_
      exact Guarantees.bind KeepsTurns.trans ih fun _ => Guarantees.pure KeepsTurns.refl _

theorem recordToolExecution_keepsTurns (threadId : ThreadId) (turnId : Option TurnId)
    (nodeId : Option NodeId) (workspaceMountId : Option WorkspaceMountId)
    (toolName summary : String) (artifacts : List (ArtifactKind × String × String)) :
    Guarantees KeepsTurns (recordToolExecution threadId turnId nodeId workspaceMountId toolName
      summary artifacts) := by
  have hturn : Guarantees KeepsTurns (executionTurn turnId) := by
    cases turnId with
    | none => exact nextValue_keepsTurns "turn"
    | some turnId => exact Guarantees.pure KeepsTurns.refl turnId
  refine Guarantees.bind KeepsTurns.trans hturn fun _ => ?_
  refine Guarantees.bind KeepsTurns.trans nowTimestamp_keepsTurns fun _ => ?_
  refine Guarantees.bind KeepsTurns.trans (storeArtifacts_keepsTurns _ _) fun _ => ?_
  refine Guarantees.bind KeepsTurns.trans (Guarantees.bind KeepsTurns.trans (stored_keepsTurns _)
    fun _ => Guarantees.pure KeepsTurns.refl _) fun _ => ?_
  exact Guarantees.bind KeepsTurns.trans (stored_keepsTurns _) fun _ =>
    Guarantees.pure KeepsTurns.refl _

end KeepsTurns

/-! ### Programs that change one turn -/

/-- Only the turns in `P` may have changed or gone, and no turn has come. -/
structure ChangesOnly (P : TurnId → Prop) (s t : TurnRuntime) : Prop where
  others : ∀ id, ¬ P id →
    t.turnManager.activeTurns.lookup id = s.turnManager.activeTurns.lookup id
  known : ∀ id turn, t.turnManager.activeTurns.lookup id = some turn →
    ∃ before, s.turnManager.activeTurns.lookup id = some before ∧ turn.id = before.id ∧
      turn.goal = before.goal
  sequence : s.ids.sequence ≤ t.ids.sequence

/-- The turn has left the table. -/
structure Erases (turnId : TurnId) (s t : TurnRuntime) : Prop where
  activeTurns : t.turnManager.activeTurns = s.turnManager.activeTurns.erase turnId
  sequence : s.ids.sequence ≤ t.ids.sequence

/-- The turn has been replaced by its marked version. -/
structure Marks (turnId : TurnId) (marked : Turn) (s t : TurnRuntime) : Prop where
  activeTurns : t.turnManager.activeTurns = s.turnManager.activeTurns.insert turnId marked
  sequence : s.ids.sequence ≤ t.ids.sequence

section ChangesOnly

variable {P : TurnId → Prop} {s t : TurnRuntime} {turnId : TurnId}

theorem KeepsTurns.changesOnly (h : KeepsTurns s t) : ChangesOnly P s t :=
  ⟨fun _ _ => h.activeTurns ▸ rfl, fun _ turn hturn => ⟨turn, h.activeTurns ▸ hturn, rfl, rfl⟩,
    h.sequence⟩

theorem ChangesOnly.trans ⦃s t u : TurnRuntime⦄ (h : ChangesOnly P s t) (h' : ChangesOnly P t u) :
    ChangesOnly P s u := by
  refine ⟨fun id hid => (h'.others id hid).trans (h.others id hid), ?_,
    h.sequence.trans h'.sequence⟩
  intro id turn hturn
  obtain ⟨middle, hmiddle, hid', hgoal'⟩ := h'.known id turn hturn
  obtain ⟨before, hbefore, hid, hgoal⟩ := h.known id middle hmiddle
  exact ⟨before, hbefore, hid'.trans hid, hgoal'.trans hgoal⟩

/-- A turn that was not active has not come back. -/
theorem ChangesOnly.inactive (h : ChangesOnly P s t)
    (hnone : s.turnManager.activeTurns.lookup turnId = none) :
    t.turnManager.activeTurns.lookup turnId = none := by
  by_contra hactive
  obtain ⟨turn, hturn⟩ := Option.ne_none_iff_exists'.mp hactive
  obtain ⟨before, hbefore, -⟩ := h.known turnId turn hturn
  rw [hnone] at hbefore
  exact absurd hbefore (by simp)

theorem KeepsTurns.erases {u : TurnRuntime} (h : KeepsTurns t u) (h' : Erases turnId s t) :
    Erases turnId s u :=
  ⟨h.activeTurns.trans h'.activeTurns, h'.sequence.trans h.sequence⟩

theorem KeepsTurns.marks {u : TurnRuntime} {marked : Turn} (h : KeepsTurns t u)
    (h' : Marks turnId marked s t) : Marks turnId marked s u :=
  ⟨h.activeTurns.trans h'.activeTurns, h'.sequence.trans h.sequence⟩

theorem Erases.lookup_self (h : Erases turnId s t) :
    t.turnManager.activeTurns.lookup turnId = none := by
  rw [h.activeTurns, AList.lookup_erase]

theorem Erases.lookup_ne (h : Erases turnId s t) {id : TurnId} (hid : id ≠ turnId) :
    t.turnManager.activeTurns.lookup id = s.turnManager.activeTurns.lookup id := by
  rw [h.activeTurns, AList.lookup_erase_ne hid]

theorem Erases.known (h : Erases turnId s t) {id : TurnId} {turn : Turn}
    (hturn : t.turnManager.activeTurns.lookup id = some turn) :
    s.turnManager.activeTurns.lookup id = some turn := by
  by_cases hid : id = turnId
  · rw [hid, h.lookup_self] at hturn
    exact absurd hturn (by simp)
  · exact h.lookup_ne hid ▸ hturn

theorem Erases.changesOnly (h : Erases turnId s t) (hP : P turnId) : ChangesOnly P s t :=
  ⟨fun _ hid => h.lookup_ne fun heq => hid (heq ▸ hP), fun _ turn hturn => ⟨turn, h.known hturn, rfl, rfl⟩,
    h.sequence⟩

theorem Marks.lookup_self {marked : Turn} (h : Marks turnId marked s t) :
    t.turnManager.activeTurns.lookup turnId = some marked := by
  rw [h.activeTurns, AList.lookup_insert]

theorem Marks.changesOnly {turn marked : Turn} (h : Marks turnId marked s t)
    (hturn : s.turnManager.activeTurns.lookup turnId = some turn) (hid : marked.id = turn.id)
    (hgoal : marked.goal = turn.goal) (hP : P turnId) : ChangesOnly P s t := by
  have hother : ∀ id, id ≠ turnId →
      t.turnManager.activeTurns.lookup id = s.turnManager.activeTurns.lookup id := by
    intro id hne
    rw [h.activeTurns, AList.lookup_insert_ne hne]
  refine ⟨fun id hne => hother id fun heq => hne (heq ▸ hP), fun id found hfound => ?_, h.sequence⟩
  by_cases hne : id = turnId
  · subst hne
    rw [h.lookup_self, Option.some.injEq] at hfound
    exact ⟨turn, hturn, hfound ▸ hid, hfound ▸ hgoal⟩
  · exact ⟨found, hother id hne ▸ hfound, rfl, rfl⟩

end ChangesOnly

/-! ### The transitions -/

section Transitions

variable [Disk]

/-- Two lookups in front of a program. -/
theorem wp_lookups {threadId : ThreadId} {turnId : TurnId} {next : Thread → Turn → TurnM Turn}
    {Q : Turn → TurnRuntime → Prop} {E : RuntimeError → TurnRuntime → Prop} {s : TurnRuntime} :
    wp (do
        let thread ← requireThread threadId
        let turn ← requireTurn turnId
        next thread turn) Q E s ↔
      (∀ e, foundThread s.stores threadId = .error e → E e { s with stores := s.stores.tick }) ∧
      (∀ thread, foundThread s.stores threadId = .ok thread →
        (s.turnManager.activeTurns.lookup turnId = none →
          E (.notFound "turn_not_found" "turn is not running") { s with stores := s.stores.tick }) ∧
        ∀ turn, s.turnManager.activeTurns.lookup turnId = some turn →
          wp (next thread turn) Q E { s with stores := s.stores.tick }) := by
  simp only [wp_bind, wp_requireThread, wp_requireTurn]
  constructor
  · rintro ⟨hfound, hmissing⟩
    exact ⟨hmissing, fun thread hthread => ⟨(hfound thread hthread).2, (hfound thread hthread).1⟩⟩
  · rintro ⟨hmissing, hfound⟩
    exact ⟨fun thread hthread => ⟨(hfound thread hthread).2, (hfound thread hthread).1⟩, hmissing⟩

variable [Clock] {s : TurnRuntime}

/-- Once a turn is being closed it leaves the table whatever happens, and what is returned is the
finished turn. -/
theorem closeTurn_returns (thread : Thread) (turnId : TurnId) (turn : Turn) (event : String)
    (finish : Timestamp → Turn → Turn) (project : Timestamp → Turn → Thread → Thread) :
    wp (closeTurn thread turnId turn event finish project)
      (fun closed t => Erases turnId s t ∧ closed = finish s.ids.nowTimestamp.1 turn)
      (fun _ t => Erases turnId s t) { s with stores := s.stores.tick } := by
  have hcommit : ∀ (t : TurnRuntime) (thread : Thread) (closed : Turn) (endedAt : Timestamp),
      Erases turnId s t →
      wp (do
          appendTransition thread.id closed.id endedAt event (closed.summary.getD "")
          stored (RuntimeStores.putThread thread)
          pure closed)
        (fun returned t => Erases turnId s t ∧ returned = closed) (fun _ t => Erases turnId s t)
        t := by
    intro t thread closed endedAt herased
    rw [wp_bind]
    refine wp_mono (appendTransition_keepsTurns _ _ _ _ _ t) (fun _ u hu => ?_)
      (fun _ u hu => hu.erases herased)
    rw [wp_bind]
    exact wp_mono (stored_keepsTurns _ u) (fun _ v hv => ⟨(hu.trans hv).erases herased, rfl⟩)
      (fun _ v hv => (hu.trans hv).erases herased)
  unfold closeTurn
  rw [wp_bind, wp_modifyTurns, wp_bind, wp_drawn]
  exact hcommit _ _ _ _ ⟨rfl, le_rfl⟩

theorem closeTurn_erases {thread : Thread} {turnId : TurnId} {turn : Turn} {event : String}
    {finish : Timestamp → Turn → Turn} {project : Timestamp → Turn → Thread → Thread}
    (hfinish : ∀ endedAt turn, (finish endedAt turn).id = turn.id) :
    wp (closeTurn thread turnId turn event finish project)
      (fun closed t => Erases turnId s t ∧ closed.id = turn.id) (fun _ t => Erases turnId s t)
      { s with stores := s.stores.tick } := by
  refine wp_mono (closeTurn_returns thread turnId turn event finish project) ?_ (fun _ _ h => h)
  intro closed t h
  rw [h.2]
  exact ⟨h.1, hfinish _ turn⟩

/-- The turn was active and has been closed. -/
def ClosedFrom (turnId : TurnId) (s : TurnRuntime) (closed : Turn) (t : TurnRuntime) : Prop :=
  Erases turnId s t ∧
    ∃ turn, s.turnManager.activeTurns.lookup turnId = some turn ∧ closed.id = turn.id

/-- The turn has been taken out all the same, or the thread or the turn was not found. -/
def NotClosed (threadId : ThreadId) (turnId : TurnId) (s t : TurnRuntime) : Prop :=
  Erases turnId s t ∨ (KeepsTurns s t ∧ ((∃ e, foundThread s.stores threadId = .error e) ∨
    s.turnManager.activeTurns.lookup turnId = none))

/-- A closing that finds its thread and its turn erases the turn. -/
theorem lookups_closeTurn_erases {threadId : ThreadId} {turnId : TurnId} {event : String}
    {finish : Timestamp → Turn → Turn} {project : Timestamp → Turn → Thread → Thread}
    (hfinish : ∀ endedAt turn, (finish endedAt turn).id = turn.id) :
    wp (do
        let thread ← requireThread threadId
        let turn ← requireTurn turnId
        closeTurn thread turnId turn event finish project)
      (ClosedFrom turnId s) (fun _ t => NotClosed threadId turnId s t) s := by
  rw [wp_lookups]
  refine ⟨fun e he => Or.inr ⟨.of_eq rfl rfl, Or.inl ⟨e, he⟩⟩, fun thread _ =>
    ⟨fun hnone => Or.inr ⟨.of_eq rfl rfl, Or.inr hnone⟩, fun turn hturn => ?_⟩⟩
  exact wp_mono (closeTurn_erases hfinish)
    (fun closed t h => ⟨h.1, turn, hturn, h.2⟩) (fun _ t h => Or.inl h)

/-- The thread cannot be read, or the turn is not one of its active turns. -/
def CancelRefused (s : TurnRuntime) (request : TurnCancelRequest) : Prop :=
  (∃ e, foundThread s.stores request.threadId = .error e) ∨
    ∀ turn, s.turnManager.activeTurns.lookup request.turnId = some turn →
      turn.threadId ≠ request.threadId

theorem cancelTurn_erases (request : TurnCancelRequest) :
    wp (cancelTurn request) (ClosedFrom request.turnId s)
      (fun _ t => Erases request.turnId s t ∨ (KeepsTurns s t ∧ CancelRefused s request)) s := by
  unfold cancelTurn
  rw [wp_lookups]
  refine ⟨fun e he => Or.inr ⟨.of_eq rfl rfl, Or.inl ⟨e, he⟩⟩, fun thread _ =>
    ⟨fun hnone => Or.inr ⟨.of_eq rfl rfl, Or.inr ?_⟩, fun turn hturn => ?_⟩⟩
  · intro turn hturn
    rw [hnone] at hturn
    exact absurd hturn (by simp)
  · by_cases hmismatch : turn.threadId ≠ request.threadId
    · rw [if_pos hmismatch, wp_bind, wp_throw]
      refine Or.inr ⟨.of_eq rfl rfl, Or.inr fun other hother => ?_⟩
      rw [hturn, Option.some.injEq] at hother
      exact hother ▸ hmismatch
    · rw [if_neg hmismatch]
      exact wp_mono (closeTurn_erases (by intros; rfl))
        (fun closed t h => ⟨h.1, turn, hturn, h.2⟩) (fun _ t h => Or.inl h)

theorem cancelTurn_refused {request : TurnCancelRequest} (h : CancelRefused s request) :
    wp (cancelTurn request) (fun _ _ => False) (fun _ t => KeepsTurns s t) s := by
  unfold cancelTurn
  rw [wp_lookups]
  refine ⟨fun e _ => .of_eq rfl rfl, fun thread hthread =>
    ⟨fun _ => .of_eq rfl rfl, fun turn hturn => ?_⟩⟩
  rcases h with ⟨e, he⟩ | hmismatch
  · rw [hthread] at he
    exact absurd he (by simp)
  · rw [if_pos (hmismatch turn hturn), wp_bind, wp_throw]
    exact .of_eq rfl rfl

theorem completeTurn_erases (threadId : ThreadId) (turnId : TurnId) (finalMessage : String) :
    wp (completeTurn threadId turnId finalMessage) (ClosedFrom turnId s)
      (fun _ t => NotClosed threadId turnId s t) s :=
  lookups_closeTurn_erases (by intros; rfl)

theorem failTurn_erases (threadId : ThreadId) (turnId : TurnId) (message : String) :
    wp (failTurn threadId turnId message) (ClosedFrom turnId s)
      (fun _ t => NotClosed threadId turnId s t) s :=
  lookups_closeTurn_erases (by intros; rfl)

/-- Marking a turn replaces it by the marked turn, or fails before it has found it. -/
theorem markTurn_marks {threadId : ThreadId} {turnId : TurnId} {event summary : String}
    {mark : Turn → Turn} {project : Timestamp → Turn → Thread → Thread} :
    wp (markTurn threadId turnId event summary mark project)
      (fun marked t => ∃ turn, s.turnManager.activeTurns.lookup turnId = some turn ∧
        marked = mark turn ∧ Marks turnId (mark turn) s t)
      (fun _ t => KeepsTurns s t ∨ ∃ turn, s.turnManager.activeTurns.lookup turnId = some turn ∧
        Marks turnId (mark turn) s t) s := by
  unfold markTurn
  rw [wp_bind, wp_requireThread]
  refine ⟨fun thread _ => ?_, fun e _ => Or.inl (.of_eq rfl rfl)⟩
  rw [wp_bind, wp_drawn, wp_bind, wp_requireTurn]
  refine ⟨fun turn hturn => ?_, fun _ => Or.inl ⟨rfl, le_rfl⟩⟩
  rw [wp_bind, wp_modifyTurns, wp_bind]
  refine wp_mono (appendTransition_keepsTurns _ _ _ _ _ _) (fun _ u hu => ?_)
    (fun _ u hu => Or.inr ⟨turn, hturn, hu.marks ⟨rfl, le_rfl⟩⟩)
  rw [wp_bind]
  exact wp_mono (stored_keepsTurns _ u)
    (fun _ v hv => ⟨turn, hturn, rfl, (hu.trans hv).marks ⟨rfl, le_rfl⟩⟩)
    (fun _ v hv => Or.inr ⟨turn, hturn, (hu.trans hv).marks ⟨rfl, le_rfl⟩⟩)

section ChangesOnly

variable {P : TurnId → Prop} {turnId : TurnId}

omit [Disk] [Clock] in
theorem changesOnly_of_erases {p : TurnM Turn} {Closed : Turn → TurnRuntime → Prop}
    {Why : TurnRuntime → Prop} (hP : P turnId)
    (h : ∀ s, wp p (fun closed t => Erases turnId s t ∧ Closed closed s)
      (fun _ t => Erases turnId s t ∨ (KeepsTurns s t ∧ Why s)) s) :
    Guarantees (ChangesOnly P) p := by
  intro s
  refine wp_mono (h s) (fun _ t h => h.1.changesOnly hP) ?_
  rintro _ t (herased | ⟨hkept, -⟩)
  · exact herased.changesOnly hP
  · exact hkept.changesOnly

theorem cancelTurn_changesOnly {request : TurnCancelRequest} (hP : P request.turnId) :
    Guarantees (ChangesOnly P) (cancelTurn request) :=
  changesOnly_of_erases hP fun _ => cancelTurn_erases request

theorem completeTurn_changesOnly (threadId : ThreadId) (hP : P turnId) (finalMessage : String) :
    Guarantees (ChangesOnly P) (completeTurn threadId turnId finalMessage) :=
  changesOnly_of_erases hP fun _ => completeTurn_erases threadId turnId finalMessage

theorem failTurn_changesOnly (threadId : ThreadId) (hP : P turnId) (message : String) :
    Guarantees (ChangesOnly P) (failTurn threadId turnId message) :=
  changesOnly_of_erases hP fun _ => failTurn_erases threadId turnId message

end ChangesOnly

/-- A turn that has just been started is new. -/
structure Starts (turn : Turn) (s t : TurnRuntime) : Prop where
  fresh : ¬ s.ids.Issued turn.id
  issued : t.ids.Issued turn.id
  running : turn.status = .running
  activeTurns : t.turnManager.activeTurns = s.turnManager.activeTurns.insert turn.id turn
  sequence : s.ids.sequence ≤ t.ids.sequence

omit [Disk] [Clock] in
theorem Starts.of_keeps {turn : Turn} {t u : TurnRuntime} (h : Starts turn s t)
    (hkeeps : KeepsTurns t u) : Starts turn s u :=
  ⟨h.fresh, h.issued.mono hkeeps.sequence, h.running, hkeeps.activeTurns.trans h.activeTurns,
    h.sequence.trans hkeeps.sequence⟩

omit [Disk] [Clock] in
/-- A turn that is active then is the new one, or it was active before. -/
theorem Starts.lookup {turn found : Turn} {t : TurnRuntime} (h : Starts turn s t) {id : TurnId}
    (hfound : t.turnManager.activeTurns.lookup id = some found) :
    (id = turn.id ∧ found = turn) ∨
      (id ≠ turn.id ∧ s.turnManager.activeTurns.lookup id = some found) := by
  rw [h.activeTurns] at hfound
  by_cases hid : id = turn.id
  · rw [hid, AList.lookup_insert, Option.some.injEq] at hfound
    exact Or.inl ⟨hid, hfound.symm⟩
  · rw [AList.lookup_insert_ne hid] at hfound
    exact Or.inr ⟨hid, hfound⟩

theorem startTurn_starts (thread : Thread) (request : TurnStartRequest) :
    wp (startTurn thread request) (fun turn t => Starts turn s t) (fun _ t => KeepsTurns s t) s := by
  rw [wp_startTurn]
  refine ⟨fun _ => .refl s, fun _ turn hturn => ?_⟩
  have hid : turn.id = (IdGenerator.nextTurnId s.ids.nowTimestamp.2).1 := by rw [hturn]; rfl
  have hdrawn : KeepsTurns s
      { s with ids := (IdGenerator.nextTurnId s.ids.nowTimestamp.2).2 } := ⟨rfl, Nat.le_succ _⟩
  rw [wp_bind]
  refine wp_mono (appendTransition_keepsTurns _ _ _ _ _ _) (fun _ u hu => ?_)
    (fun _ u hu => hdrawn.trans hu)
  rw [wp_bind]
  refine wp_mono (updateThreadAfterTurn_keepsTurns _ u) (fun _ v hv => ?_)
    (fun _ v hv => hdrawn.trans (hu.trans hv))
  rw [wp_bind, wp_modifyTurns, wp_pure]
  have hv := hu.trans hv
  refine ⟨?_, ?_, ?_, ?_, (hdrawn.trans hv).sequence⟩
  · rw [hid]
    exact not_issued_nextValue s.ids.nowTimestamp.2 "turn"
  · rw [hid]
    exact (issued_nextValue s.ids.nowTimestamp.2 "turn").mono hv.sequence
  · rw [hturn]
    rfl
  · change v.turnManager.activeTurns.insert turn.id turn = _
    rw [hv.activeTurns]

end Transitions

end Liz
