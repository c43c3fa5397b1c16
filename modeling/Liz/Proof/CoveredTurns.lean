import Liz.Proof.CheckpointFiles

/-!
# Programs that leave no turn uncovered

A turn that waits for approval has a checkpoint on the thread that it belongs to. Whatever the
server does, short of starting a turn and asking for an approval, brings no turn in, moves none to
another thread, and keeps the threads pointing to their checkpoints.
-/

namespace Liz

open Program

/-- No turn has come in, and the turns that are there are on their threads and as open as before. -/
structure TurnsRemain (s t : TurnRuntime) : Prop where
  known : ∀ id turn, t.turnManager.activeTurns.lookup id = some turn →
    ∃ before, s.turnManager.activeTurns.lookup id = some before ∧
      turn.threadId = before.threadId ∧ (before.status.isOpen = true → turn.status.isOpen = true)
  sequence : s.ids.sequence ≤ t.ids.sequence

/-- The turns are on their threads, the threads point to their checkpoints, and the approvals are as
they were. -/
structure Steady (s t : RuntimeCoordinator) : Prop where
  turns : TurnsRemain s.toTurnRuntime t.toTurnRuntime
  pointers : KeepsPointers s.stores t.stores
  approvals : t.approvals = s.approvals

/-- Nothing but the node registry may have changed. -/
structure RegistryOnly (s t : RuntimeCoordinator) : Prop where
  turnManager : t.turnManager = s.turnManager
  ids : t.ids = s.ids
  files : SameFiles s.stores t.stores
  approvals : t.approvals = s.approvals

/-- The runtime is steady, for the server. -/
abbrev StaysSteady (s t : AppServer) : Prop := Steady s.runtime t.runtime

section Relations

variable {s t : TurnRuntime} {turnId : TurnId}

theorem KeepsTurns.turnsRemain (h : KeepsTurns s t) : TurnsRemain s t :=
  ⟨fun _ turn hturn => ⟨turn, h.activeTurns ▸ hturn, rfl, id⟩, h.sequence⟩

theorem Erases.turnsRemain (h : Erases turnId s t) : TurnsRemain s t :=
  ⟨fun _ turn hturn => ⟨turn, h.known hturn, rfl, id⟩, h.sequence⟩

theorem Marks.turnsRemain {turn marked : Turn} (h : Marks turnId marked s t)
    (hturn : s.turnManager.activeTurns.lookup turnId = some turn)
    (hthread : marked.threadId = turn.threadId) (hopen : marked.status.isOpen = true) :
    TurnsRemain s t := by
  refine ⟨fun id found hfound => ?_, h.sequence⟩
  by_cases hid : id = turnId
  · subst hid
    obtain rfl : marked = found := Option.some.inj (h.lookup_self.symm.trans hfound)
    exact ⟨turn, hturn, hthread, fun _ => hopen⟩
  · rw [h.activeTurns, AList.lookup_insert_ne hid] at hfound
    exact ⟨found, hfound, rfl, fun hbefore => hbefore⟩

theorem TurnsRemain.trans ⦃s t u : TurnRuntime⦄ (h : TurnsRemain s t) (h' : TurnsRemain t u) :
    TurnsRemain s u := by
  refine ⟨fun id turn hturn => ?_, h.sequence.trans h'.sequence⟩
  obtain ⟨middle, hmiddle, hthread', hopen'⟩ := h'.known id turn hturn
  obtain ⟨before, hbefore, hthread, hopen⟩ := h.known id middle hmiddle
  exact ⟨before, hbefore, hthread'.trans hthread, fun hbefore => hopen' (hopen hbefore)⟩

theorem Quiet.steady {s t : RuntimeCoordinator} (h : Quiet s t) (hfiles : SameFiles s.stores t.stores) :
    Steady s t :=
  ⟨h.turns.turnsRemain, hfiles.keepsPointers, h.approvals⟩

theorem Steady.refl (s : RuntimeCoordinator) : Steady s s := (Quiet.refl s).steady (.refl _)

theorem Steady.trans ⦃s t u : RuntimeCoordinator⦄ (h : Steady s t) (h' : Steady t u) :
    Steady s u :=
  ⟨h.turns.trans h'.turns, h.pointers.trans h'.pointers, h'.approvals.trans h.approvals⟩

theorem RegistryOnly.refl (s : RuntimeCoordinator) : RegistryOnly s s := ⟨rfl, rfl, .refl _, rfl⟩

theorem RegistryOnly.trans ⦃s t u : RuntimeCoordinator⦄ (h : RegistryOnly s t)
    (h' : RegistryOnly t u) : RegistryOnly s u :=
  ⟨h'.turnManager.trans h.turnManager, h'.ids.trans h.ids, h.files.trans h'.files,
    h'.approvals.trans h.approvals⟩

theorem RegistryOnly.steady {s t : RuntimeCoordinator} (h : RegistryOnly s t) : Steady s t :=
  Quiet.steady ⟨.of_eq (congrArg TurnManager.activeTurns h.turnManager) h.ids, h.approvals⟩ h.files

theorem StaysSteady.refl (s : AppServer) : StaysSteady s s := Steady.refl _

theorem StaysSteady.trans ⦃s t u : AppServer⦄ (h : StaysSteady s t) (h' : StaysSteady t u) :
    StaysSteady s u := Steady.trans h h'

end Relations

/-! ### Transitions -/

section Transitions

variable [Disk] [Clock]

omit [Disk] [Clock] in
theorem turnsRemain_of_erases {turnId : TurnId} {p : TurnM Turn} {Closed : Turn → TurnRuntime → Prop}
    {Why : TurnRuntime → Prop}
    (h : ∀ s, wp p (fun closed t => Erases turnId s t ∧ Closed closed s)
      (fun _ t => Erases turnId s t ∨ (KeepsTurns s t ∧ Why s)) s) :
    Guarantees TurnsRemain p := by
  intro s
  refine wp_mono (h s) (fun _ t h => h.1.turnsRemain) (fun _ t h => ?_)
  rcases h with herased | ⟨hkept, -⟩
  · exact herased.turnsRemain
  · exact hkept.turnsRemain

theorem markTurn_turnsRemain {threadId : ThreadId} {turnId : TurnId} {event summary : String}
    {mark : Turn → Turn} {project : Timestamp → Turn → Thread → Thread}
    (hthread : ∀ turn, (mark turn).threadId = turn.threadId)
    (hopen : ∀ turn, (mark turn).status.isOpen = true) :
    Guarantees TurnsRemain (markTurn threadId turnId event summary mark project) := by
  intro s
  refine wp_mono markTurn_marks (fun _ t h => ?_) (fun _ t h => ?_)
  · obtain ⟨turn, hturn, -, hmarks⟩ := h
    exact hmarks.turnsRemain hturn (hthread turn) (hopen turn)
  · rcases h with hkept | ⟨turn, hturn, hmarks⟩
    · exact hkept.turnsRemain
    · exact hmarks.turnsRemain hturn (hthread turn) (hopen turn)

variable {α : Type}

omit [Disk] [Clock] in
theorem onTurns_steady {p : TurnM α} (hturns : Guarantees TurnsRemain p)
    (hpointers : Guarantees LeavesPointers p) : Guarantees Steady (onTurns p) := by
  intro s
  rw [wp_onTurns]
  exact wp_mono (wp_and (hturns s.toTurnRuntime) (hpointers s.toTurnRuntime))
    (fun _ _ h => ⟨h.1, h.2, rfl⟩) (fun _ _ h => ⟨h.1, h.2, rfl⟩)

omit [Disk] [Clock] in
/-- A program on the turns that keeps them and leaves the files alone. -/
theorem onTurns_calm {p : TurnM α} (hturns : Guarantees KeepsTurns p)
    (hfiles : Guarantees LeavesFiles p) : Guarantees Steady (onTurns p) :=
  onTurns_steady (hturns.mono fun _ _ h => h.turnsRemain)
    (hfiles.mono fun _ _ h => h.keepsPointers)

theorem cancelTurn_steady (request : TurnCancelRequest) :
    Guarantees Steady (onTurns (cancelTurn request)) :=
  onTurns_steady (turnsRemain_of_erases fun _ => cancelTurn_erases request)
    (cancelTurn_leavesPointers request)

theorem completeTurn_steady (threadId : ThreadId) (turnId : TurnId) (finalMessage : String) :
    Guarantees Steady (onTurns (completeTurn threadId turnId finalMessage)) :=
  onTurns_steady (turnsRemain_of_erases fun _ => completeTurn_erases threadId turnId finalMessage)
    (completeTurn_leavesPointers threadId turnId finalMessage)

theorem failTurn_steady (threadId : ThreadId) (turnId : TurnId) (message : String) :
    Guarantees Steady (onTurns (failTurn threadId turnId message)) :=
  onTurns_steady (turnsRemain_of_erases fun _ => failTurn_erases threadId turnId message)
    (failTurn_leavesPointers threadId turnId message)

theorem markWaitingApproval_steady (threadId : ThreadId) (turnId : TurnId) (reason : String) :
    Guarantees Steady (onTurns (markWaitingApproval threadId turnId reason)) :=
  onTurns_steady (markTurn_turnsRemain (fun _ => rfl) fun _ => rfl)
    (markTurn_leavesPointers fun _ _ _ => ⟨rfl, rfl⟩)

theorem resumeApprovedTurn_steady (threadId : ThreadId) (turnId : TurnId) :
    Guarantees Steady (RuntimeCoordinator.resumeApprovedTurn threadId turnId) :=
  onTurns_steady (markTurn_turnsRemain (fun _ => rfl) fun _ => rfl)
    (markTurn_leavesPointers fun _ _ _ => ⟨rfl, rfl⟩)

omit [Clock] in
theorem readThread_steady (threadId : ThreadId) :
    Guarantees Steady (onTurns (readThread threadId)) :=
  onTurns_calm (readThread_keepsTurns threadId) (readThread_leavesFiles threadId)

omit [Clock] in
theorem assembleContextForInteraction_steady [Unicode] (threadId : ThreadId) (input : String)
    (participant : Option ParticipantRef) (interactionContext : Option InteractionContext) :
    Guarantees Steady (onTurns
      (assembleContextForInteraction threadId input participant interactionContext)) :=
  onTurns_calm (assembleContextForInteraction_keepsTurns _ _ _ _)
    (assembleContextForInteraction_leavesFiles _ _ _ _)

/-! The node registry is written without a look at the threads. -/

omit [Clock] in
theorem persistNodeRegistry_registryOnly :
    Guarantees RegistryOnly RuntimeCoordinator.persistNodeRegistry := by
  apply Guarantees.bind RegistryOnly.trans (Guarantees.get RegistryOnly.refl)
  intro coordinator s
  rw [wp_onTurns, wp_stored]
  let put : JsonFile NodeRegistrySnapshot → RuntimeStores → RuntimeStores :=
    fun file stores => { stores with nodeRegistry := some file }
  have hwritten : Guarantees SameFiles (writeJson coordinator.nodeRegistry.snapshot put) :=
    writeJson_sameFiles fun _ _ => ⟨rfl, rfl⟩
  exact wp_mono (hwritten s.stores) (fun _ _ h => ⟨rfl, rfl, h, rfl⟩) (fun _ _ h => ⟨rfl, rfl, h, rfl⟩)

omit [Disk] [Clock] in
theorem liftExcept_registryOnly (value : Except RuntimeError α) :
    Guarantees RegistryOnly (liftExcept value) := by
  cases value with
  | ok value => exact Guarantees.pure RegistryOnly.refl value
  | error e => exact Guarantees.throw RegistryOnly.refl e

omit [Disk] [Clock] in
/-- What is looked up in the coordinator changes nothing. -/
theorem found_registryOnly (find : RuntimeCoordinator → Except RuntimeError α) (build : α → β) :
    Guarantees RegistryOnly (do
      let coordinator ← get
      let found ← liftExcept (find coordinator)
      pure (build found)) := by
  apply Guarantees.bind RegistryOnly.trans (Guarantees.get RegistryOnly.refl)
  intro coordinator
  apply Guarantees.bind RegistryOnly.trans (liftExcept_registryOnly _)
  intro found
  exact Guarantees.pure RegistryOnly.refl _

omit [Clock] in
theorem resolveThreadWorkspaceMount_registryOnly (request : ThreadStartRequest) :
    Guarantees RegistryOnly (RuntimeCoordinator.resolveThreadWorkspaceMount request) := by
  have hmodified : ∀ (s : RuntimeCoordinator) (registry : NodeRegistry),
      RegistryOnly s { s with nodeRegistry := registry } := fun _ _ => ⟨rfl, rfl, ⟨rfl, rfl⟩, rfl⟩
  unfold RuntimeCoordinator.resolveThreadWorkspaceMount
  split
  · exact found_registryOnly _ _
  · split
    · exact Guarantees.pure RegistryOnly.refl _
    · apply Guarantees.bind RegistryOnly.trans (Guarantees.get RegistryOnly.refl)
      intro coordinator
      apply Guarantees.bind RegistryOnly.trans (liftExcept_registryOnly _)
      intro resolved
      apply Guarantees.bind RegistryOnly.trans (Guarantees.modify fun s => hmodified s resolved.2)
      intro _
      apply Guarantees.bind RegistryOnly.trans persistNodeRegistry_registryOnly
      intro _
      exact Guarantees.pure RegistryOnly.refl _
  · exact Guarantees.pure RegistryOnly.refl _

omit [Disk] [Clock] in
theorem normalizeToolCallNode_registryOnly (request : ToolCallRequest) :
    Guarantees RegistryOnly (normalizeToolCallNode request) := by
  unfold normalizeToolCallNode
  split
  · exact Guarantees.pure RegistryOnly.refl _
  · exact found_registryOnly _ _
  · exact Guarantees.pure RegistryOnly.refl _

/-- A thread that is started under an identifier that names no stored thread. -/
theorem startThread_steady {s : RuntimeCoordinator} (request : ThreadStartRequest)
    (hnew : s.nextThread ∉ s.stores.threads) :
    wp (RuntimeCoordinator.startThread request) (fun _ t => Steady s t) (fun _ t => Steady s t)
      s := by
  unfold RuntimeCoordinator.startThread
  rw [wp_bind]
  refine wp_mono (resolveThreadWorkspaceMount_registryOnly request s) (fun resolved t ht => ?_)
    (fun _ _ h => h.steady)
  have hstill : t.nextThread ∉ t.stores.threads := by
    rw [TurnRuntime.nextThread, ht.ids, ht.files.threads]
    exact hnew
  rw [wp_onTurns]
  refine wp_mono (wp_and (startThread_keepsTurns resolved _)
    (startThread_leavesPointers resolved hstill)) (fun _ u hu => ?_) (fun _ u hu => ?_)
  · exact ht.steady.trans ⟨hu.1.turnsRemain, hu.2, rfl⟩
  · exact ht.steady.trans ⟨hu.1.turnsRemain, hu.2, rfl⟩

theorem forkThread_steady {s : RuntimeCoordinator} (request : ThreadForkRequest)
    (hnew : s.nextThread ∉ s.stores.threads) :
    wp (onTurns (forkThread request)) (fun _ t => Steady s t) (fun _ t => Steady s t) s := by
  rw [wp_onTurns]
  exact wp_mono (wp_and (forkThread_keepsTurns request _) (forkThread_leavesPointers request hnew))
    (fun _ _ h => ⟨h.1.turnsRemain, h.2, rfl⟩) (fun _ _ h => ⟨h.1.turnsRemain, h.2, rfl⟩)

omit [Clock] in
theorem resumeThread_steady (request : ThreadResumeRequest) :
    Guarantees Steady (onTurns (resumeThread request)) :=
  onTurns_steady ((resumeThread_keepsTurns request).mono fun _ _ h => h.turnsRemain)
    (resumeThread_leavesPointers request)

end Transitions

/-! ### The model loop -/

section Loop

variable {α : Type}

theorem onRuntime_staysSteady {p : RuntimeM α} (h : Guarantees Steady p) :
    Always StaysSteady (onRuntime p) := by
  intro s
  rw [wp_onRuntime]
  exact wp_mono (h s.runtime) (fun _ _ hsteady => hsteady) (fun _ _ hsteady => hsteady)

theorem observe_staysSteady (observation : Observation) :
    Always StaysSteady (observe observation) := fun s => StaysSteady.refl s

theorem publishAll_staysSteady (events : List PendingEvent) :
    Always StaysSteady (publishAll events) :=
  publishAll_always StaysSteady.refl StaysSteady.trans fun _ _ => observe_staysSteady _

variable [World]

theorem executeTool_staysSteady (caller : ToolCaller) (request : ToolCallRequest) :
    Always StaysSteady (executeTool caller request) :=
  executeTool_always StaysSteady.refl StaysSteady.trans (fun s _ => StaysSteady.refl s)
    (observe_staysSteady _)

theorem recordToolExecution_staysSteady (threadId : ThreadId) (turnId : Option TurnId)
    (nodeId : Option NodeId) (workspaceMountId : Option WorkspaceMountId)
    (toolName summary : String) (artifacts : List (ArtifactKind × String × String)) :
    Always StaysSteady (onRuntime (onTurns (recordToolExecution threadId turnId nodeId
      workspaceMountId toolName summary artifacts))) :=
  onRuntime_staysSteady (onTurns_calm (recordToolExecution_keepsTurns _ _ _ _ _ _ _)
    (recordToolExecution_leavesFiles _ _ _ _ _ _ _))

theorem executeModelToolCalls_staysSteady (threadId : ThreadId) (turnId : TurnId)
    (toolCalls : List ProviderToolCall) :
    Always StaysSteady (executeModelToolCalls threadId turnId toolCalls) := by
  have hfailed : ∀ toolCall toolName message nodeId mountId summary, Always StaysSteady
      (toolCallFailed threadId turnId toolCall toolName message nodeId mountId summary) :=
    fun _ _ _ _ _ _ => Always.bind StaysSteady.trans (observe_staysSteady _) fun _ =>
      Always.pure StaysSteady.refl _
  apply executeModelToolCalls_always StaysSteady.refl StaysSteady.trans
  intro toolCall _
  apply executeModelToolCall_always StaysSteady.trans
  · exact localThreadExecutionScope_always _ fun _ =>
      Quiet.steady ⟨⟨rfl, le_rfl⟩, rfl⟩ ⟨rfl, rfl⟩
  · exact hfailed toolCall
  · exact fun request _ => executeTool_staysSteady .model request
  · intro mountId nodeId executed
    apply recordModelToolCall_always StaysSteady.trans
    · exact fun _ _ _ => recordToolExecution_staysSteady _ _ _ _ _ _ _
    · exact hfailed toolCall
    · exact fun _ _ => publishAll_staysSteady _

theorem compileMemoryForThread_staysSteady (threadId : ThreadId) (turnId : Option TurnId) :
    Always StaysSteady (compileMemoryForThread threadId turnId) := by
  apply compileMemoryForThread_always StaysSteady.refl StaysSteady.trans
  · intro s pass
    have hquiet : Quiet s.runtime (s.afterMemoryPass pass).runtime :=
      ⟨⟨rfl, Nat.le_add_right _ _⟩, rfl⟩
    exact hquiet.steady ⟨rfl, rfl⟩
  · exact fun _ _ => observe_staysSteady _

/-- The end of a turn. -/
theorem finishModelTurn_staysSteady (threadId : ThreadId) (turnId : TurnId)
    (outputContext : Option InteractionContext) (ending : Except ModelError (Option String)) :
    Always StaysSteady (finishModelTurn threadId turnId outputContext ending) := by
  apply finishModelTurn_always StaysSteady.refl StaysSteady.trans
  · exact fun _ => onRuntime_staysSteady (failTurn_steady _ _ _)
  · exact fun _ => onRuntime_staysSteady (completeTurn_steady _ _ _)
  · exact fun _ _ _ => observe_staysSteady _
  · exact compileMemoryForThread_staysSteady _ _

/-- A turn at the model, however many rounds it takes. -/
theorem streamModelTurn_staysSteady (thread : Thread) (turn : Turn)
    (systemPrompt developerPrompt userPrompt : String)
    (outputContext : Option InteractionContext) (answers : List GatewayAnswer) :
    Guarantees StaysSteady (streamModelTurn thread turn systemPrompt developerPrompt userPrompt
      outputContext answers) := by
  apply Guarantees.bind StaysSteady.trans
  · apply runRounds_guarantees StaysSteady.refl StaysSteady.trans
    · exact fun _ => observe_staysSteady _
    · intro events
      apply handleModelEvents_always StaysSteady.refl StaysSteady.trans
      · exact localThreadExecutionScope_always _ fun _ =>
          Quiet.steady ⟨⟨rfl, le_rfl⟩, rfl⟩ ⟨rfl, rfl⟩
      · exact fun _ _ => observe_staysSteady _
    · exact fun _ _ summary _ => executeModelToolCalls_staysSteady _ _ summary.toolCalls
    · intro repeatedToolRounds
      apply loopDiagnostics_always StaysSteady.refl StaysSteady.trans
      exact fun _ _ => Always.modifyGet fun _ =>
        Quiet.steady ⟨⟨rfl, le_rfl⟩, rfl⟩ ⟨rfl, rfl⟩
  · exact fun ending => (finishModelTurn_staysSteady _ _ _ ending).guarantees

end Loop

/-! ### Requests -/

/-- A thread that the request creates gets an identifier that names no stored thread. -/
def AppServer.NamesThreadAnew [Clock] (s : AppServer) : ClientRequest → Prop
  | .threadStart _ => s.runtime.nextThread ∉ s.runtime.stores.threads
  | .threadFork _ => s.runtime.nextThread ∉ s.runtime.stores.threads
  | _ => True

section Requests

variable [World] {s : AppServer}

theorem threadEvent_staysSteady (threadId : ThreadId) (turnId : TurnId)
    (payload : Thread → ServerEventPayload) :
    Always StaysSteady (threadEvent threadId turnId payload) := by
  apply Always.bind StaysSteady.trans (onRuntime_staysSteady (readThread_steady threadId))
  intro read
  rcases read with _ | _ | thread
  · exact Always.pure StaysSteady.refl _
  · exact Always.pure StaysSteady.refl _
  · exact Always.pure StaysSteady.refl _

omit [World] in
theorem respond_staysSteady {α : Type} {p : RuntimeM α}
    {success : α → ServerM (ResponsePayload × List PendingEvent)}
    (hp : wp p (fun _ t => Steady s.runtime t) (fun _ t => Steady s.runtime t) s.runtime)
    (hsuccess : ∀ value, Always StaysSteady (success value)) :
    wp (respond p success) (fun _ t => StaysSteady s t) (fun _ _ => False) s := by
  unfold respond
  rw [wp_bind, wp_onRuntime]
  refine wp_mono hp (fun value runtime hsteady => ?_) (fun _ runtime hsteady => hsteady)
  dsimp only
  rw [wp_bind]
  exact wp_mono (hsuccess value _) (fun _ t ht => Steady.trans hsteady ht) (fun _ _ hno => hno)

theorem handleToolCall_staysSteady (request : ToolCallRequest) :
    Always StaysSteady (handleToolCall request) := by
  apply Always.bind StaysSteady.trans (onRuntime_staysSteady
    ((normalizeToolCallNode_registryOnly request).mono fun _ _ h => h.steady))
  intro normalized
  cases normalized with
  | error _ => exact Always.pure StaysSteady.refl _
  | ok request =>
      apply Always.bind StaysSteady.trans (executeTool_staysSteady .client request)
      intro execution
      cases execution with
      | error _ => exact Always.pure StaysSteady.refl _
      | ok execution =>
          intro s
          apply respond_staysSteady
          · exact onTurns_calm (recordToolExecution_keepsTurns _ _ _ _ _ _ _)
              (recordToolExecution_leavesFiles _ _ _ _ _ _ _) s.runtime
          · exact fun _ => Always.pure StaysSteady.refl _

/-- A request that neither starts a turn nor answers an approval, as long as a new thread is new. -/
theorem dispatch_staysSteady {request : ClientRequest}
    (hrequest : request.ordinary = true ∨ ∃ cancel, request = .turnCancel cancel)
    (hnew : s.NamesThreadAnew request) :
    wp (dispatch request) (fun _ t => StaysSteady s t) (fun _ _ => False) s := by
  have hget : Always StaysSteady (get : ServerM AppServer) := Always.get StaysSteady.refl
  cases request with
  | runtimeConfigGet => exact StaysSteady.refl s
  | runtimeConfigUpdate sandbox approvalPolicy => exact StaysSteady.refl s
  | threadStart request =>
      exact respond_staysSteady (startThread_steady request hnew) fun _ =>
        Always.pure StaysSteady.refl _
  | threadResume request =>
      exact respond_staysSteady (resumeThread_steady request s.runtime) fun _ =>
        Always.bind StaysSteady.trans hget fun _ => Always.pure StaysSteady.refl _
  | threadFork request =>
      exact respond_staysSteady (forkThread_steady request hnew) fun _ =>
        Always.pure StaysSteady.refl _
  | turnStart _ => simp [ClientRequest.ordinary] at hrequest
  | turnCancel request =>
      exact respond_staysSteady (cancelTurn_steady request s.runtime) fun _ =>
        Always.bind StaysSteady.trans (threadEvent_staysSteady _ _ _) fun _ =>
          Always.pure StaysSteady.refl _
  | approvalRespond _ => simp [ClientRequest.ordinary] at hrequest
  | toolCall request => exact handleToolCall_staysSteady request s
  | threadRollback => exact StaysSteady.refl s
  | other method outcome => exact Quiet.steady ⟨⟨rfl, Nat.le_add_right _ _⟩, rfl⟩ ⟨rfl, rfl⟩

theorem continueAfter_staysSteady {request : ClientRequest}
    (hrequest : request.ordinary = true ∨ ∃ cancel, request = .turnCancel cancel)
    (answers : List GatewayAnswer) (response : ServerResponse) :
    Guarantees StaysSteady (continueAfter answers request response) := by
  rcases hrequest with hordinary | ⟨cancel, rfl⟩
  · have hnothing : continueAfter answers request response = pure () := by
      cases request <;> first | rfl | exact absurd hordinary (by simp [ClientRequest.ordinary])
    rw [hnothing]
    exact Guarantees.pure StaysSteady.refl _
  · cases response with
    | error _ _ _ => exact Guarantees.pure StaysSteady.refl _
    | success payload => exact (compileMemoryForThread_staysSteady _ _).guarantees

/-- What dispatching establishes and the rest of the request keeps holds after the request. -/
theorem step_of_dispatched {I : AppServer → Prop} {request : ClientRequest}
    {answers : List GatewayAnswer}
    (hdispatched : wp (dispatched request) (fun response t =>
      wp (continueAfter answers request response) (fun _ => I) (fun _ => I) t) (fun _ => I) s) :
    I (s.step ⟨request, answers⟩) := by
  apply wp_after.mp
  rw [handleRequest_eq, wp_bind]
  refine wp_mono hdispatched (fun response t ht => ?_) (fun _ _ h => h)
  rw [wp_bind]
  exact wp_mono ht (fun _ _ h => h) (fun _ _ h => h)

theorem step_staysSteady {request : ClientRequest}
    (hrequest : request.ordinary = true ∨ ∃ cancel, request = .turnCancel cancel)
    (hnew : s.NamesThreadAnew request) (answers : List GatewayAnswer) :
    StaysSteady s (s.step ⟨request, answers⟩) := by
  apply step_of_dispatched
  unfold dispatched
  rw [wp_bind]
  refine wp_mono (dispatch_staysSteady hrequest hnew) (fun handled t ht => ?_) (fun _ _ hno => hno.elim)
  rw [wp_bind]
  refine wp_mono (publishAll_staysSteady handled.2 t) (fun _ u hu => ?_) (fun _ _ hno => hno.elim)
  have hbefore := StaysSteady.trans ht hu
  rw [wp_pure]
  exact wp_mono (continueAfter_staysSteady hrequest answers handled.1 u)
    (fun _ _ hv => StaysSteady.trans hbefore hv) (fun _ _ hv => StaysSteady.trans hbefore hv)

/-- An answered approval is carried out, or its turn is cancelled. -/
theorem continueAfterApproval_staysSteady (decision : ApprovalDecision)
    (answers : List GatewayAnswer) (approval : ApprovalRequest) :
    Guarantees StaysSteady (continueAfterApproval decision answers approval) := by
  have hresumed : Guarantees StaysSteady (resumeAfterApproval approval answers) := by
    apply Guarantees.bind StaysSteady.trans
      (onRuntime_staysSteady (resumeApprovedTurn_steady _ _)).guarantees
    intro resumed
    cases resumed with
    | error _ => exact Guarantees.pure StaysSteady.refl _
    | ok turn =>
        apply Guarantees.bind StaysSteady.trans
          (onRuntime_staysSteady (readThread_steady _)).guarantees
        intro read
        rcases read with _ | _ | thread
        · exact Guarantees.pure StaysSteady.refl _
        · exact Guarantees.pure StaysSteady.refl _
        · apply Guarantees.bind StaysSteady.trans
            (onRuntime_staysSteady (assembleContextForInteraction_steady _ _ _ _)).guarantees
          intro assembled
          cases assembled with
          | error _ => exact Guarantees.pure StaysSteady.refl _
          | ok context => exact streamModelTurn_staysSteady _ _ _ _ _ _ _
  cases decision with
  | approveOnce => exact hresumed
  | approveAndPersist => exact hresumed
  | deny =>
      apply Guarantees.bind StaysSteady.trans (onRuntime_staysSteady (cancelTurn_steady _)).guarantees
      intro cancelled
      cases cancelled with
      | error _ => exact Guarantees.pure StaysSteady.refl _
      | ok turn =>
          apply Guarantees.bind StaysSteady.trans (observe_staysSteady _).guarantees
          intro _
          apply Guarantees.bind StaysSteady.trans (threadEvent_staysSteady _ _ _).guarantees
          intro events
          apply Guarantees.bind StaysSteady.trans (publishAll_staysSteady _).guarantees
          intro _
          exact (compileMemoryForThread_staysSteady _ _).guarantees

theorem continueAfter_approvalRespond_staysSteady (request : ApprovalRespondRequest)
    (answers : List GatewayAnswer) (response : ServerResponse) :
    Guarantees StaysSteady (continueAfter answers (.approvalRespond request) response) := by
  cases response with
  | error _ _ _ => exact Guarantees.pure StaysSteady.refl _
  | success payload =>
      cases payload with
      | approvalRespond approval => exact continueAfterApproval_staysSteady _ _ _
      | _ => exact Guarantees.pure StaysSteady.refl _

end Requests

end Liz
