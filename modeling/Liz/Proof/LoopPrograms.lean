import Liz.Server.TurnLoop

/-!
# The programs of the model loop

A relation between the states before and after that is reflexive and transitive holds of a program
of the loop as soon as it holds of the steps that the program is made of.
-/

namespace Liz

open Program

variable {R : AppServer → AppServer → Prop}

/-- The lookup of a scope asks the disk for the record of the thread and changes nothing else. -/
theorem localThreadExecutionScope_always [World] (threadId : ThreadId)
    (hread : ∀ s : AppServer,
      R s { s with runtime := { s.runtime with stores := s.runtime.stores.tick } }) :
    Always R (localThreadExecutionScope threadId) := by
  intro s
  unfold localThreadExecutionScope RuntimeCoordinator.threadExecutionScope
  rw [wp_bind, wp_onRuntime, wp_bind, wp_onTurns, wp_requireThread]
  constructor
  · intro thread _
    dsimp only
    cases thread.workspaceMountId with
    | none => exact hread s
    | some mountId =>
        simp only [wp_bind, wp_get, NodeRegistry.readWorkspaceMount]
        cases s.runtime.nodeRegistry.workspaceMounts.lookup mountId with
        | none => exact hread s
        | some mount => exact hread s
  · intro e _
    exact hread s

/-- Artifacts are stored under references that are made for them. -/
theorem storeArtifacts_returns [World] {P : ArtifactRef → Prop}
    {reference : ArtifactId → ArtifactKind → String → String → ArtifactRef}
    (hreference : ∀ artifactId kind summary locator, P (reference artifactId kind summary locator))
    (artifacts : List (ArtifactKind × String × String)) (runtime : TurnRuntime) :
    wp (storeArtifacts reference artifacts) (fun references _ => ∀ artifact ∈ references, P artifact)
      (fun _ _ => True) runtime := by
  induction artifacts generalizing runtime with
  | nil => exact fun _ h => absurd h List.not_mem_nil
  | cons artifact rest ih =>
      obtain ⟨kind, artifactSummary, body⟩ := artifact
      rw [storeArtifacts, wp_bind, wp_drawn, wp_bind, wp_get, wp_bind]
      refine wp_mono (wp_trivial _) (fun _ t _ => ?_) fun _ _ h => h
      rw [wp_bind]
      refine wp_mono (ih t) (fun references _ hreferences => ?_) fun _ _ h => h
      exact List.forall_mem_cons.mpr ⟨hreference _ _ _ _, hreferences⟩

/-- The artifacts of a recorded execution are those of the turn it is recorded for. -/
theorem recordToolExecution_returns [World] (threadId : ThreadId) (turnId : TurnId)
    (nodeId : Option NodeId) (workspaceMountId : Option WorkspaceMountId)
    (toolName summary : String) (artifacts : List (ArtifactKind × String × String))
    (runtime : TurnRuntime) :
    wp (recordToolExecution threadId (some turnId) nodeId workspaceMountId toolName summary artifacts)
      (fun recorded _ => recorded.1 = turnId ∧ ∀ artifact ∈ recorded.2, artifact.turnId = turnId)
      (fun _ _ => True) runtime := by
  unfold recordToolExecution
  rw [wp_bind, executionTurn, wp_pure, wp_bind, wp_drawn, wp_bind]
  refine wp_mono (storeArtifacts_returns (P := fun artifact => artifact.turnId = turnId) ?_
    artifacts _) ?_ fun _ _ h => h
  · exact fun _ _ _ _ => rfl
  intro references t hreferences
  rw [wp_bind]
  refine wp_mono (wp_trivial _) (fun _ u _ => ?_) fun _ _ h => h
  rw [wp_bind]
  exact wp_mono (wp_trivial _) (fun _ _ _ => ⟨rfl, hreferences⟩) fun _ _ h => h

/-- What is published of a recorded execution tells of the turn it is recorded for and of those of
its artifacts. -/
theorem mem_toolExecutionEvents {threadId : ThreadId} {turnId : TurnId} {nodeId : NodeId}
    {mountId : Option WorkspaceMountId} {executed : ExecutedTool} {artifactRefs : List ArtifactRef}
    {event : PendingEvent} (h : event ∈ toolExecutionEvents threadId turnId nodeId mountId executed
      artifactRefs) :
    event.payload.role = .other ∧ (event.turnId = some turnId ∨
      ∃ artifact ∈ artifactRefs, event.turnId = some artifact.turnId) := by
  simp only [toolExecutionEvents, List.mem_append, List.mem_flatMap, List.mem_map, List.mem_cons,
    List.not_mem_nil, or_false] at h
  rcases h with (⟨artifact, hartifact, rfl | hdiff⟩ | ⟨output, -, rfl⟩) | rfl
  · exact ⟨rfl, Or.inr ⟨artifact, hartifact, rfl⟩⟩
  · split at hdiff
    · rw [List.mem_singleton.mp hdiff]
      exact ⟨rfl, Or.inr ⟨artifact, hartifact, rfl⟩⟩
    · exact absurd hdiff List.not_mem_nil
  · exact ⟨rfl, Or.inl rfl⟩
  · exact ⟨rfl, Or.inl rfl⟩

section Composition

variable (hrefl : ∀ s, R s s) (htrans : ∀ ⦃s t u⦄, R s t → R t u → R s u)
include hrefl htrans

theorem publishAll_always {events : List PendingEvent}
    (hpublished : ∀ event ∈ events, Always R (observe (.published event))) :
    Always R (publishAll events) := by
  induction events with
  | nil => exact Always.pure hrefl ()
  | cons event rest ih =>
      rw [List.forall_mem_cons] at hpublished
      exact Always.bind htrans hpublished.1 fun _ => ih hpublished.2

variable [World] {threadId : ThreadId} {turnId : TurnId}

/-- The events of an answer are published; only a call that is committed asks for the scope. -/
theorem handleModelEvents_always (hscope : Always R (localThreadExecutionScope threadId))
    (hpublished : ∀ payload : ServerEventPayload, payload.role = .stream →
      Always R (publish threadId (some turnId) payload))
    (outputContext : Option InteractionContext) (events : List NormalizedTurnEvent) :
    Always R (handleModelEvents threadId turnId outputContext events) := by
  have hevent : ∀ event, Always R (handleModelEvent threadId turnId outputContext event) := by
    intro event
    cases event with
    | toolCallCommitted callId toolName arguments =>
        exact Always.bind htrans hscope fun _ => hpublished _ rfl
    | usageDelta => exact Always.pure hrefl _
    | providerRawEvent label => exact Always.pure hrefl _
    | _ => exact hpublished _ rfl
  induction events with
  | nil => exact Always.pure hrefl _
  | cons event rest ih => exact Always.bind htrans (hevent event) fun _ => ih

theorem loopDiagnostics_always
    (hdiagnostic : ∀ toolName message, Always R (runtimeDiagnosticInjection toolName message))
    (repeatedToolRounds : Nat) : Always R (loopDiagnostics repeatedToolRounds) := by
  unfold loopDiagnostics
  split
  · exact Always.bind htrans (hdiagnostic _ _) fun _ => Always.pure hrefl _
  · exact Always.pure hrefl _

/-- A pass of memory compilation is made, and published if it has a summary. -/
theorem compileMemoryForThread_always {turnId : Option TurnId}
    (hpass : ∀ (s : AppServer) pass, R s (s.afterMemoryPass pass))
    (hpublished : ∀ payload : ServerEventPayload, payload.role = .other →
      Always R (publish threadId turnId payload)) :
    Always R (compileMemoryForThread threadId turnId) := by
  apply Always.bind htrans (Always.get hrefl)
  intro s
  dsimp only
  generalize World.compileMemory s.runtime.stores s.runtime.ids threadId = pass
  apply Always.bind htrans (Always.modify fun s => hpass s pass)
  intro _
  cases pass.compilation with
  | none => exact Always.pure hrefl _
  | some compilation =>
      apply publishAll_always hrefl htrans
      intro event hevent
      simp only [List.mem_append, List.mem_singleton, List.mem_map] at hevent
      rcases hevent with (rfl | hinvalidated) | ⟨summary, -, rfl⟩
      · exact hpublished _ rfl
      · split at hinvalidated
        · exact absurd hinvalidated List.not_mem_nil
        · rw [List.mem_singleton.mp hinvalidated]
          exact hpublished _ rfl
      · exact hpublished _ rfl

/-- The calls of an answer are executed one after the other. -/
theorem executeModelToolCalls_always {toolCalls : List ProviderToolCall}
    (hcall : ∀ toolCall ∈ toolCalls, Always R (executeModelToolCall threadId turnId toolCall)) :
    Always R (executeModelToolCalls threadId turnId toolCalls) := by
  induction toolCalls with
  | nil => exact Always.pure hrefl _
  | cons toolCall rest ih =>
      rw [List.forall_mem_cons] at hcall
      apply Always.bind htrans hcall.1
      intro result
      exact Always.bind htrans (ih hcall.2) fun _ => Always.pure hrefl _

theorem executeTool_always {caller : ToolCaller} {request : ToolCallRequest}
    (hcounted : ∀ (s : AppServer) executions, R s { s with executions := executions })
    (hobserved : Always R (observe (.toolExecuted caller request))) :
    Always R (executeTool caller request) := by
  unfold executeTool
  dsimp only
  split
  · exact Always.pure hrefl _
  · apply Always.bind htrans (Always.get hrefl)
    intro server
    apply Always.bind htrans (Always.modify fun s => hcounted s _)
    intro _
    exact Always.bind htrans hobserved fun _ => Always.pure hrefl _

omit hrefl in
/-- What an executed call leaves is recorded, and published if that succeeds. -/
theorem recordModelToolCall_always {toolCall : ProviderToolCall}
    {mountId : Option WorkspaceMountId} {nodeId : NodeId} {executed : ExecutedTool}
    (hrecord : ∀ toolName summary artifactParts, Always R (onRuntime (onTurns (recordToolExecution
      threadId (some turnId) (some nodeId) mountId toolName summary artifactParts))))
    (hfailed : ∀ toolName message nodeId mountId summary, Always R
      (toolCallFailed threadId turnId toolCall toolName message nodeId mountId summary))
    (hpublished : ∀ artifactRefs : List ArtifactRef,
      (∀ artifact ∈ artifactRefs, artifact.turnId = turnId) → Always R (publishAll
        (toolExecutionEvents threadId turnId nodeId mountId executed artifactRefs))) :
    Always R (recordModelToolCall threadId turnId toolCall mountId nodeId executed) := by
  intro s
  unfold recordModelToolCall
  rw [wp_bind]
  have hrecorded := hrecord executed.toolName.asStr executed.summary executed.artifactParts s
  have hreturns := recordToolExecution_returns threadId turnId (some nodeId) mountId
    executed.toolName.asStr executed.summary executed.artifactParts s.runtime.toTurnRuntime
  rw [wp_onRuntime, wp_onTurns] at hrecorded ⊢
  refine wp_mono (wp_and hrecorded hreturns) ?_ ?_
  · intro recorded turns ⟨hkept, hturn, hartifacts⟩
    obtain ⟨executionTurnId, artifactRefs⟩ := recorded
    obtain rfl : executionTurnId = turnId := hturn
    dsimp only
    rw [wp_bind]
    exact wp_mono (hpublished artifactRefs hartifacts _) (fun _ _ h => htrans hkept h)
      fun _ _ h => h
  · intro error turns ⟨hkept, _⟩
    exact wp_mono (hfailed _ _ _ _ _ _) (fun _ _ h => htrans hkept h) fun _ _ h => h

omit hrefl in
/-- A call fails, or it is executed and recorded. -/
theorem executeModelToolCall_always {toolCall : ProviderToolCall}
    (hscope : Always R (localThreadExecutionScope threadId))
    (hfailed : ∀ toolName message nodeId mountId summary, Always R
      (toolCallFailed threadId turnId toolCall toolName message nodeId mountId summary))
    (hexecuted : ∀ request : ToolCallRequest, request.turnId = some turnId →
      Always R (executeTool .model request))
    (hrecorded : ∀ mountId nodeId executed, Always R
      (recordModelToolCall threadId turnId toolCall mountId nodeId executed)) :
    Always R (executeModelToolCall threadId turnId toolCall) := by
  apply Always.bind htrans hscope
  intro scope
  cases parseToolInvocation toolCall.toolName toolCall.arguments with
  | error message => exact hfailed _ _ _ _ _
  | ok invocation =>
      apply Always.bind htrans (hexecuted _ rfl)
      intro execution
      cases execution with
      | error error => exact hfailed _ _ _ _ _
      | ok executed => exact hrecorded _ _ _

/-- A turn is failed or completed; when that succeeds its end is published and memory is compiled. -/
theorem finishModelTurn_always
    (hfail : ∀ message, Always R (onRuntime (onTurns (failTurn threadId turnId message))))
    (hcomplete : ∀ message, Always R (onRuntime (onTurns (completeTurn threadId turnId message))))
    (hpublished : ∀ (turn : Turn) (payload : ServerEventPayload), payload.role = .terminal →
      Always R (publish threadId (some turn.id) payload))
    (hcompiled : Always R (compileMemoryForThread threadId (some turnId)))
    (outputContext : Option InteractionContext) (ending : Except ModelError (Option String)) :
    Always R (finishModelTurn threadId turnId outputContext ending) := by
  cases ending with
  | error error =>
      apply Always.bind htrans (hfail _)
      intro result
      cases result with
      | error _ => exact Always.pure hrefl _
      | ok turn => exact Always.bind htrans (hpublished turn _ rfl) fun _ => hcompiled
  | ok assistantMessage =>
      apply Always.bind htrans (hcomplete _)
      intro result
      cases result with
      | error _ => exact Always.pure hrefl _
      | ok turn => exact Always.bind htrans (hpublished turn _ rfl) fun _ => hcompiled

/-- The rounds of a turn, however many there are. -/
theorem runRounds_guarantees {baseRequest : ModelTurnRequest}
    {outputContext : Option InteractionContext} {answers : List GatewayAnswer}
    (hcalled : ∀ results, Always R
      (observe (.modelCalled (baseRequest.withToolResultInjections results) outputContext)))
    (hevents : ∀ events, Always R
      (handleModelEvents baseRequest.thread.id baseRequest.turn.id outputContext events))
    (htools : ∀ answer ∈ answers, ∀ summary, answer.outcome = .ok summary → Always R
      (executeModelToolCalls baseRequest.thread.id baseRequest.turn.id summary.toolCalls))
    (hdiagnostics : ∀ repeatedToolRounds, Always R (loopDiagnostics repeatedToolRounds))
    (results : List ToolResultInjection) (fingerprint : String) (repeatedToolRounds : Nat) :
    Guarantees R
      (runRounds baseRequest outputContext answers results fingerprint repeatedToolRounds) := by
  induction answers generalizing results fingerprint repeatedToolRounds with
  | nil =>
      apply Guarantees.bind htrans (hcalled _).guarantees
      intro _
      exact Guarantees.throw hrefl _
  | cons answer answers ih =>
      obtain ⟨hanswer, hrest⟩ := List.forall_mem_cons.mp htools
      apply Guarantees.bind htrans (hcalled _).guarantees
      intro _
      apply Guarantees.bind htrans (hevents _).guarantees
      intro _
      cases houtcome : answer.outcome with
      | error _ => exact Guarantees.pure hrefl _
      | ok summary =>
          dsimp only
          split
          · exact Guarantees.pure hrefl _
          · apply Guarantees.bind htrans (hanswer summary houtcome).guarantees
            intro _
            apply Guarantees.bind htrans (hdiagnostics _).guarantees
            intro _
            exact ih hrest _ _ _

end Composition

end Liz
