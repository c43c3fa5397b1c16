import Liz.Proof.Ledger

/-!
# What leaves the memory file alone

Turns are started, marked and closed over threads, logs, checkpoints and artifacts. The memory file
is written for the list of active threads when a turn is started, and by compilation.
-/

namespace Liz

open Program

/-- The memory file is as it was. -/
def SameMemory (s t : TurnRuntime) : Prop := t.stores.globalMemory = s.stores.globalMemory

theorem SameMemory.refl (s : TurnRuntime) : SameMemory s s := rfl

theorem SameMemory.trans ⦃s t u : TurnRuntime⦄ (h : SameMemory s t) (h' : SameMemory t u) :
    SameMemory s u :=
  Eq.trans h' h

section SameMemory

variable {α : Type}

theorem drawn_sameMemory (draw : IdGenerator → α × IdGenerator) :
    Guarantees SameMemory (drawn draw) := fun _ => rfl

theorem orNotFound_sameMemory (code message : String) (found : Option α) :
    Guarantees SameMemory (orNotFound code message found) := by
  cases found with
  | none => exact Guarantees.throw SameMemory.refl _
  | some value => exact Guarantees.pure SameMemory.refl value

theorem modifyTurns_sameMemory (f : TurnManager → TurnManager) :
    Guarantees SameMemory (modifyTurns f) := fun _ => rfl

variable [Disk]

/-- An operation that leaves the memory file alone. -/
theorem operation_sameMemory {outcome : Option Fault → RuntimeStores → Except StorageError α}
    {effect : Option Fault → RuntimeStores → RuntimeStores}
    (h : ∀ fault stores, (effect fault stores).globalMemory = stores.globalMemory) :
    Guarantees SameMemory (stored (operation outcome effect)) := by
  intro runtime
  rw [wp_stored, wp_operation]
  exact ⟨fun _ _ => h _ _, fun _ _ => h _ _⟩

theorem readThread_sameMemory (threadId : ThreadId) :
    Guarantees SameMemory (readThread threadId) := by
  unfold readThread RuntimeStores.getThread readJson
  exact operation_sameMemory fun _ _ => rfl

theorem readTurnLog_sameMemory (threadId : ThreadId) :
    Guarantees SameMemory (stored (RuntimeStores.readTurnLog threadId)) :=
  operation_sameMemory fun _ _ => rfl

theorem putThread_sameMemory (thread : Thread) :
    Guarantees SameMemory (stored (RuntimeStores.putThread thread)) := by
  apply operation_sameMemory
  intro fault stores
  unfold RuntimeStores.withThread
  cases writtenFile thread fault <;> rfl

/-- A file other than the memory file is written. -/
theorem writeJson_sameMemory {value : α} {put : JsonFile α → RuntimeStores → RuntimeStores}
    (h : ∀ file stores, (put file stores).globalMemory = stores.globalMemory) :
    Guarantees SameMemory (stored (writeJson value put)) := by
  unfold writeJson
  apply operation_sameMemory
  intro fault stores
  cases hfile : writtenFile value fault with
  | none => rfl
  | some file => exact h file stores

theorem putCheckpoint_sameMemory (checkpoint : Checkpoint) :
    Guarantees SameMemory (stored (RuntimeStores.putCheckpoint checkpoint)) :=
  writeJson_sameMemory fun _ _ => rfl

theorem putArtifact_sameMemory (artifact : StoredArtifact) :
    Guarantees SameMemory (stored (RuntimeStores.putArtifact artifact)) :=
  writeJson_sameMemory fun _ _ => rfl

theorem appendTurnLog_sameMemory (entry : TurnLogEntry) :
    Guarantees SameMemory (stored (RuntimeStores.appendTurnLog entry)) := by
  apply operation_sameMemory
  intro fault stores
  unfold RuntimeStores.appended
  cases appendedFile (stores.turnLog entry.threadId) entry fault <;> rfl

theorem requireThread_sameMemory (threadId : ThreadId) :
    Guarantees SameMemory (requireThread threadId) :=
  Guarantees.bind SameMemory.trans (readThread_sameMemory threadId) fun _ =>
    orNotFound_sameMemory _ _ _

omit [Disk] in
theorem requireTurn_sameMemory (turnId : TurnId) : Guarantees SameMemory (requireTurn turnId) :=
  Guarantees.bind SameMemory.trans (Guarantees.get SameMemory.refl) fun _ => orNotFound_sameMemory _ _ _

/-- A snapshot that is read is the one that is stored. -/
theorem readGlobalMemory_reads (runtime : TurnRuntime) :
    wp (stored RuntimeStores.readGlobalMemory)
      (fun snapshot t => storedMemory runtime.stores = some snapshot ∧ SameMemory runtime t)
      (fun _ t => SameMemory runtime t) runtime := by
  rw [wp_stored]
  exact wp_readGlobalMemory (fun _ hsnapshot => ⟨hsnapshot, rfl⟩) (fun _ => rfl)

/-! ### Transitions -/

theorem appendTransition_sameMemory (threadId : ThreadId) (turnId : TurnId)
    (recordedAt : Timestamp) (event summary : String) :
    Guarantees SameMemory (appendTransition threadId turnId recordedAt event summary) := by
  have hrecovered : Guarantees SameMemory (recoverSequence threadId) := by
    intro runtime
    rw [recoverSequence, wp_map]
    exact readTurnLog_sameMemory threadId runtime
  have hsequence : Guarantees SameMemory (nextSequenceFor threadId) := by
    apply Guarantees.bind SameMemory.trans hrecovered
    intro recovered
    apply Guarantees.bind SameMemory.trans (Guarantees.get SameMemory.refl)
    intro _
    exact Guarantees.bind SameMemory.trans (modifyTurns_sameMemory _) fun _ =>
      Guarantees.pure SameMemory.refl _
  exact Guarantees.bind SameMemory.trans hsequence fun _ => appendTurnLog_sameMemory _

variable [Clock]

theorem closeTurn_sameMemory (thread : Thread) (turnId : TurnId) (turn : Turn) (event : String)
    (finish : Timestamp → Turn → Turn) (project : Timestamp → Turn → Thread → Thread) :
    Guarantees SameMemory (closeTurn thread turnId turn event finish project) := by
  apply Guarantees.bind SameMemory.trans (modifyTurns_sameMemory _)
  intro _
  apply Guarantees.bind SameMemory.trans (drawn_sameMemory _)
  intro endedAt
  apply Guarantees.bind SameMemory.trans (appendTransition_sameMemory _ _ _ _ _)
  intro _
  exact Guarantees.bind SameMemory.trans (putThread_sameMemory _) fun _ => Guarantees.pure SameMemory.refl _

theorem markTurn_sameMemory (threadId : ThreadId) (turnId : TurnId) (event summary : String)
    (mark : Turn → Turn) (project : Timestamp → Turn → Thread → Thread) :
    Guarantees SameMemory (markTurn threadId turnId event summary mark project) := by
  apply Guarantees.bind SameMemory.trans (requireThread_sameMemory _)
  intro thread
  apply Guarantees.bind SameMemory.trans (drawn_sameMemory _)
  intro recordedAt
  apply Guarantees.bind SameMemory.trans (requireTurn_sameMemory _)
  intro turn
  apply Guarantees.bind SameMemory.trans (modifyTurns_sameMemory _)
  intro _
  apply Guarantees.bind SameMemory.trans (appendTransition_sameMemory _ _ _ _ _)
  intro _
  exact Guarantees.bind SameMemory.trans (putThread_sameMemory _) fun _ => Guarantees.pure SameMemory.refl _

omit [Clock] in
/-- A thread and a turn that are looked up. -/
theorem lookups_sameMemory {threadId : ThreadId} {turnId : TurnId}
    {next : Thread → Turn → TurnM Turn}
    (hnext : ∀ thread turn, Guarantees SameMemory (next thread turn)) :
    Guarantees SameMemory (do
      let thread ← requireThread threadId
      let turn ← requireTurn turnId
      next thread turn) := by
  apply Guarantees.bind SameMemory.trans (requireThread_sameMemory _)
  intro thread
  exact Guarantees.bind SameMemory.trans (requireTurn_sameMemory _) fun turn => hnext thread turn

theorem cancelTurn_sameMemory (request : TurnCancelRequest) :
    Guarantees SameMemory (cancelTurn request) := by
  apply lookups_sameMemory
  intro thread turn
  dsimp only
  split
  · exact Guarantees.bind SameMemory.trans (Guarantees.throw SameMemory.refl _) fun _ =>
      closeTurn_sameMemory _ _ _ _ _ _
  · exact closeTurn_sameMemory _ _ _ _ _ _

theorem completeTurn_sameMemory (threadId : ThreadId) (turnId : TurnId) (finalMessage : String) :
    Guarantees SameMemory (completeTurn threadId turnId finalMessage) :=
  lookups_sameMemory fun _ _ => closeTurn_sameMemory _ _ _ _ _ _

theorem failTurn_sameMemory (threadId : ThreadId) (turnId : TurnId) (message : String) :
    Guarantees SameMemory (failTurn threadId turnId message) :=
  lookups_sameMemory fun _ _ => closeTurn_sameMemory _ _ _ _ _ _

/-! ### Checkpoints, artifacts and contexts -/

theorem createCheckpoint_sameMemory (threadId : ThreadId) (turnId : TurnId)
    (scope : CheckpointScope) (reason : String) :
    Guarantees SameMemory (createCheckpoint threadId turnId scope reason) := by
  apply Guarantees.bind SameMemory.trans (drawn_sameMemory _)
  intro _
  apply Guarantees.bind SameMemory.trans (drawn_sameMemory _)
  intro _
  apply Guarantees.bind SameMemory.trans (putCheckpoint_sameMemory _)
  intro _
  apply Guarantees.bind SameMemory.trans (requireThread_sameMemory _)
  intro thread
  exact Guarantees.bind SameMemory.trans (putThread_sameMemory _) fun _ => Guarantees.pure SameMemory.refl _

theorem storeArtifacts_sameMemory
    (reference : ArtifactId → ArtifactKind → String → String → ArtifactRef)
    (artifacts : List (ArtifactKind × String × String)) :
    Guarantees SameMemory (storeArtifacts reference artifacts) := by
  induction artifacts with
  | nil => exact Guarantees.pure SameMemory.refl []
  | cons artifact rest ih =>
      apply Guarantees.bind SameMemory.trans (drawn_sameMemory _)
      intro artifactId
      apply Guarantees.bind SameMemory.trans (Guarantees.get SameMemory.refl)
      intro _
      apply Guarantees.bind SameMemory.trans (putArtifact_sameMemory _)
      intro _
      exact Guarantees.bind SameMemory.trans ih fun _ => Guarantees.pure SameMemory.refl _

theorem recordToolExecution_sameMemory (threadId : ThreadId) (turnId : Option TurnId)
    (nodeId : Option NodeId) (workspaceMountId : Option WorkspaceMountId)
    (toolName summary : String) (artifacts : List (ArtifactKind × String × String)) :
    Guarantees SameMemory (recordToolExecution threadId turnId nodeId workspaceMountId toolName
      summary artifacts) := by
  have hturn : Guarantees SameMemory (executionTurn turnId) := by
    cases turnId with
    | none => exact drawn_sameMemory _
    | some turnId => exact Guarantees.pure SameMemory.refl turnId
  have hsequence : Guarantees SameMemory (nextToolSequence threadId) :=
    Guarantees.bind SameMemory.trans (readTurnLog_sameMemory _) fun _ => Guarantees.pure SameMemory.refl _
  apply Guarantees.bind SameMemory.trans hturn
  intro _
  apply Guarantees.bind SameMemory.trans (drawn_sameMemory _)
  intro _
  apply Guarantees.bind SameMemory.trans (storeArtifacts_sameMemory _ _)
  intro _
  apply Guarantees.bind SameMemory.trans hsequence
  intro _
  exact Guarantees.bind SameMemory.trans (appendTurnLog_sameMemory _) fun _ =>
    Guarantees.pure SameMemory.refl _

omit [Clock] in
theorem assembleContextForInteraction_sameMemory [Unicode] (threadId : ThreadId) (input : String)
    (participant : Option ParticipantRef) (interactionContext : Option InteractionContext) :
    Guarantees SameMemory
      (assembleContextForInteraction threadId input participant interactionContext) := by
  have hread : Guarantees SameMemory (stored RuntimeStores.readGlobalMemory) := fun runtime =>
    wp_mono (readGlobalMemory_reads runtime) (fun _ _ h => h.2) (fun _ _ h => h)
  apply Guarantees.bind SameMemory.trans (requireThread_sameMemory _)
  intro thread
  apply Guarantees.bind SameMemory.trans hread
  intro snapshot
  exact Guarantees.bind SameMemory.trans (readTurnLog_sameMemory _) fun _ =>
    Guarantees.pure SameMemory.refl _

/-- Asking for an approval writes a checkpoint, the log and the thread. -/
theorem requireApprovalForTurn_sameMemory (threadId : ThreadId) (turnId : TurnId)
    (decision : PolicyDecision) (s : RuntimeCoordinator) :
    wp (RuntimeCoordinator.requireApprovalForTurn threadId turnId decision)
      (fun _ t => SameMemory s.toTurnRuntime t.toTurnRuntime)
      (fun _ t => SameMemory s.toTurnRuntime t.toTurnRuntime) s := by
  have hcheckpoint : Guarantees SameMemory (if decision.requiresCheckpoint then
      some <$> createCheckpoint threadId turnId .conversationOnly
        ("Before risky turn: " ++ decision.reason) else pure none) := by
    split
    · intro runtime
      rw [wp_map]
      exact createCheckpoint_sameMemory _ _ _ _ runtime
    · exact Guarantees.pure SameMemory.refl none
  unfold RuntimeCoordinator.requireApprovalForTurn
  rw [wp_bind, wp_onTurns]
  refine wp_mono (hcheckpoint _) (fun checkpoint u hu => ?_) (fun _ _ hu => hu)
  rw [wp_bind, wp_onTurns, wp_drawn, wp_bind, wp_onTurns]
  refine wp_mono (markTurn_sameMemory threadId turnId _ _ _ _ _) (fun _ v hv => ?_) (fun _ v hv => ?_)
  · exact hu.trans hv
  · exact hu.trans hv

end SameMemory

end Liz
