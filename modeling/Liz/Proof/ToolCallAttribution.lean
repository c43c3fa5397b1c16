import Liz.Proof.Confinement
import Liz.Server.ClientToolCalls

/-!
# Whose tool calls are executed

The thread and the turn of a client's tool call are written down and never looked up. The tool of a
call that belongs to no thread is run, and its artifacts and its log entry are filed under the
identifiers of the client.
-/

namespace Liz

open Program

/-! ### Calls that belong nowhere -/

def IsStoredThread (runtime : RuntimeCoordinator) (threadId : ThreadId) : Prop :=
  ∃ thread, runtime.stores.threads.lookup threadId = some (.intact thread)

/-- The turn runs in the thread, or the log of the thread tells of its start. -/
def IsTurnOf (runtime : RuntimeCoordinator) (threadId : ThreadId) (turnId : TurnId) : Prop :=
  (∃ turn, runtime.turnManager.activeTurns.lookup turnId = some turn ∧ turn.threadId = threadId) ∨
    ∃ entry ∈ (runtime.stores.turnLog threadId).entries,
      entry.event = "turn_started" ∧ entry.turnId = some turnId

structure Attributed (runtime : RuntimeCoordinator) (request : ToolCallRequest) : Prop where
  thread : IsStoredThread runtime request.threadId
  turn : ∀ turnId, request.turnId = some turnId → IsTurnOf runtime request.threadId turnId

/-- The files are as they were, and no command runs that did not run before. -/
structure SameWorkspace (before after : LocalShellExecutor) : Prop where
  tree : after.session.tree = before.session.tree
  tasks : ∀ taskId, taskId ∈ after.tasks ↔ taskId ∈ before.tasks

structure UnchangedRecords (before after : RuntimeStores) : Prop where
  artifacts : ∀ id, after.artifacts.lookup id = before.artifacts.lookup id
  logs : ∀ threadId, after.turnLog threadId = before.turnLog threadId

structure LeftAlone (before after : ToolCallNode) : Prop where
  workspace : SameWorkspace before.executor after.executor
  records : UnchangedRecords before.runtime.stores after.runtime.stores

/-- The node a call is meant for, unless its mount is unknown. -/
def targetNode (registry : NodeRegistry) (request : ToolCallRequest) : Option NodeId :=
  match request.nodeId, request.workspaceMountId with
  | some nodeId, _ => some nodeId
  | none, some mountId => (registry.workspaceMounts.lookup mountId).map WorkspaceMount.nodeId
  | none, none => some "local"

section Calls

variable [Disk] [Clock] [ToolText] [ShellHost]

/-- The call is answered with an error and nothing has happened. -/
def Rejected (node : ToolCallNode) (request : ToolCallRequest) : Prop :=
  wp (handleClientToolCall request) (fun _ _ => False) (fun _ later => LeftAlone node later) node

/-- A call that belongs nowhere is rejected. -/
def RejectsStray (node : ToolCallNode) (request : ToolCallRequest) : Prop :=
  ¬ Attributed node.runtime request → Rejected node request

omit [Clock] [ToolText] [ShellHost] in
/-- The disk refuses the next operation. -/
def NextRefused (stores : RuntimeStores) : Prop :=
  ∃ message, Disk.fault stores.operations = some (.refused message)

/-- The mount of the call is unknown, or its node is not the local one, or its tool fails of itself
without a trace in the workspace, or it leaves no trace there and the disk refuses what is to be
written next, which is the first artifact. -/
def Spared (node : ToolCallNode) (request : ToolCallRequest) : Prop :=
  match targetNode node.runtime.nodeRegistry request with
  | none => True
  | some nodeId =>
      nodeId ≠ "local" ∨
        wp (LocalNodeExecutor.executeTool request)
          (fun _ later => SameWorkspace node.executor later ∧ NextRefused node.runtime.stores)
          (fun _ later => SameWorkspace node.executor later) node.executor

omit [Disk] [ToolText] [ShellHost] in
/-- The identifier of the first artifact of the call. -/
def firstArtifactId (ids : IdGenerator) (turnId : Option TurnId) : ArtifactId :=
  (match turnId with
    | some _ => ids
    | none => ids.nextTurnId.2).nowTimestamp.2.nextArtifactId.1

omit [Disk] [ToolText] [ShellHost] in
/-- No artifact is stored under the next identifier. -/
def NextArtifactFree (runtime : RuntimeCoordinator) (request : ToolCallRequest) : Prop :=
  firstArtifactId runtime.ids request.turnId ∉ runtime.stores.artifacts

/-! ### Recording -/

section Recording

variable {runtime : TurnRuntime}

/-- No artifact file is removed. -/
def KeepsArtifacts (before after : TurnRuntime) : Prop :=
  ∀ id, id ∈ before.stores.artifacts → id ∈ after.stores.artifacts

omit [Disk] [Clock] [ToolText] [ShellHost] in
theorem KeepsArtifacts.refl (runtime : TurnRuntime) : KeepsArtifacts runtime runtime :=
  fun _ h => h

omit [Disk] [Clock] [ToolText] [ShellHost] in
theorem KeepsArtifacts.trans ⦃s t u : TurnRuntime⦄ (h : KeepsArtifacts s t)
    (h' : KeepsArtifacts t u) : KeepsArtifacts s u :=
  fun id hid => h' id (h id hid)

omit [Clock] [ToolText] [ShellHost] in
theorem putArtifact_keepsArtifacts (artifact : StoredArtifact) :
    Guarantees KeepsArtifacts (stored (RuntimeStores.putArtifact artifact)) := by
  intro runtime
  rw [wp_stored, RuntimeStores.putArtifact, writeJson, wp_effect]
  have hinsert : ∀ file, KeepsArtifacts runtime
      { runtime with stores := RuntimeStores.tick { runtime.stores with
          artifacts := runtime.stores.artifacts.insert artifact.reference.id file } } :=
    fun file id hid => (AList.mem_insert _).mpr (.inr hid)
  refine ⟨fun _ => hinsert _, fun fault _ => ?_⟩
  cases fault with
  | refused message => exact fun id hid => hid
  | torn message => exact hinsert _
  | unterminated message => exact hinsert _

omit [ToolText] [ShellHost] in
theorem storeArtifacts_keepsArtifacts
    (reference : ArtifactId → ArtifactKind → String → String → ArtifactRef)
    (artifacts : List (ArtifactKind × String × String)) :
    Guarantees KeepsArtifacts (storeArtifacts reference artifacts) := by
  induction artifacts with
  | nil => exact .pure KeepsArtifacts.refl []
  | cons artifact rest ih =>
      obtain ⟨kind, artifactSummary, body⟩ := artifact
      refine .bind KeepsArtifacts.trans (.modifyGet fun _ _ hid => hid) fun artifactId => ?_
      refine .bind KeepsArtifacts.trans (.get KeepsArtifacts.refl) fun runtime => ?_
      refine .bind KeepsArtifacts.trans (putArtifact_keepsArtifacts _) fun _ => ?_
      exact .bind KeepsArtifacts.trans ih fun references => .pure KeepsArtifacts.refl _

omit [ToolText] [ShellHost] in
/-- The first artifact is refused, and nothing is written, or it is written or torn. -/
theorem wp_storeArtifacts_of_ne_nil
    {reference : ArtifactId → ArtifactKind → String → String → ArtifactRef}
    (hid : ∀ id kind summary locator, (reference id kind summary locator).id = id)
    {artifacts : List (ArtifactKind × String × String)} (hne : artifacts ≠ []) :
    (NextRefused runtime.stores →
      wp (storeArtifacts reference artifacts) (fun _ _ => False)
        (fun _ later => UnchangedRecords runtime.stores later.stores) runtime) ∧
    (¬ NextRefused runtime.stores →
      wp (storeArtifacts reference artifacts)
        (fun _ later => runtime.ids.nextArtifactId.1 ∈ later.stores.artifacts)
        (fun _ later => runtime.ids.nextArtifactId.1 ∈ later.stores.artifacts) runtime) := by
  obtain ⟨artifact, rest, rfl⟩ := List.exists_cons_of_ne_nil hne
  obtain ⟨kind, artifactSummary, body⟩ := artifact
  have hput : ∀ {Q : List ArtifactRef → TurnRuntime → Prop}
      {E : RuntimeError → TurnRuntime → Prop},
      wp (storeArtifacts reference ((kind, artifactSummary, body) :: rest)) Q E runtime ↔
        wp (stored (RuntimeStores.putArtifact
            { reference := reference runtime.ids.nextArtifactId.1 kind artifactSummary
                (runtime.stores.artifactFile runtime.ids.nextArtifactId.1)
              body := body }))
          (fun _ later => wp (do
            let references ← storeArtifacts reference rest
            pure (reference runtime.ids.nextArtifactId.1 kind artifactSummary
              (runtime.stores.artifactFile runtime.ids.nextArtifactId.1) :: references)) Q E later)
          E { runtime with ids := runtime.ids.nextArtifactId.2 } := by
    intro Q E
    rw [storeArtifacts, wp_bind, wp_drawn, wp_bind, wp_get, wp_bind]
  rw [hput, hput]
  simp only [wp_stored, RuntimeStores.putArtifact, writeJson, wp_effect, hid]
  constructor
  · intro hrefused
    obtain ⟨message, hfault⟩ := hrefused
    refine ⟨fun hnone => ?_, fun fault hsome => ?_⟩
    · rw [hfault] at hnone
      cases hnone
    · obtain rfl := Option.some.inj (hfault.symm.trans hsome)
      exact ⟨fun _ => rfl, fun _ => rfl⟩
  · intro hnot
    have hself : ∀ (file : JsonFile StoredArtifact) (artifacts : Table ArtifactId _),
        runtime.ids.nextArtifactId.1 ∈ artifacts.insert runtime.ids.nextArtifactId.1 file :=
      fun file artifacts => (AList.mem_insert _).mpr (.inl rfl)
    refine ⟨fun _ => ?_, fun fault hsome => ?_⟩
    · rw [wp_bind]
      refine wp_mono (storeArtifacts_keepsArtifacts reference rest _) ?_ ?_
      · exact fun _ later hkeeps => hkeeps _ (hself _ _)
      · exact fun _ later hkeeps => hkeeps _ (hself _ _)
    · cases fault with
      | refused message => exact absurd ⟨message, hsome⟩ hnot
      | torn message => exact hself _ _
      | unterminated message => exact hself _ _

omit [Clock] [ToolText] [ShellHost] in
theorem nextToolSequence_keepsArtifacts (threadId : ThreadId) :
    Guarantees KeepsArtifacts (nextToolSequence threadId) := by
  apply Guarantees.bind KeepsArtifacts.trans
  · intro runtime
    rw [wp_stored, RuntimeStores.readTurnLog, wp_operation]
    exact ⟨fun _ _ _ hid => hid, fun _ _ _ hid => hid⟩
  · exact fun entries => .pure KeepsArtifacts.refl _

omit [Clock] [ToolText] [ShellHost] in
theorem appendTurnLog_keepsArtifacts (entry : TurnLogEntry) :
    Guarantees KeepsArtifacts (stored (RuntimeStores.appendTurnLog entry)) := by
  have hkept : ∀ (stores : RuntimeStores) fault,
      (stores.appended entry fault).artifacts = stores.artifacts := by
    intro stores fault
    unfold RuntimeStores.appended
    split <;> rfl
  intro runtime
  rw [wp_stored, RuntimeStores.appendTurnLog, wp_effect]
  refine ⟨fun _ id hid => ?_, fun fault _ id hid => ?_⟩
  · show id ∈ (runtime.stores.appended entry none).artifacts
    rwa [hkept]
  · show id ∈ (runtime.stores.appended entry (some fault)).artifacts
    rwa [hkept]

omit [Clock] [ToolText] [ShellHost] in
theorem logged_keepsArtifacts (threadId : ThreadId) (entry : Nat → TurnLogEntry)
    (recorded : TurnId × List ArtifactRef) :
    Guarantees KeepsArtifacts (do
      let sequence ← nextToolSequence threadId
      stored (RuntimeStores.appendTurnLog (entry sequence))
      pure recorded) := by
  apply Guarantees.bind KeepsArtifacts.trans (nextToolSequence_keepsArtifacts threadId)
  intro sequence
  apply Guarantees.bind KeepsArtifacts.trans (appendTurnLog_keepsArtifacts _)
  exact fun _ => .pure KeepsArtifacts.refl _

omit [ToolText] [ShellHost] in
/-- An execution is recorded up to its first artifact, at least, unless that is refused. -/
theorem wp_recordToolExecution {threadId : ThreadId} {turnId : Option TurnId}
    {nodeId : Option NodeId} {workspaceMountId : Option WorkspaceMountId} {toolName summary : String}
    {artifacts : List (ArtifactKind × String × String)} (hne : artifacts ≠ []) :
    (NextRefused runtime.stores →
      wp (recordToolExecution threadId turnId nodeId workspaceMountId toolName summary artifacts)
        (fun _ _ => False) (fun _ later => UnchangedRecords runtime.stores later.stores) runtime) ∧
    (¬ NextRefused runtime.stores →
      wp (recordToolExecution threadId turnId nodeId workspaceMountId toolName summary artifacts)
        (fun _ later => firstArtifactId runtime.ids turnId ∈ later.stores.artifacts)
        (fun _ later => firstArtifactId runtime.ids turnId ∈ later.stores.artifacts) runtime) := by
  unfold recordToolExecution
  have hturn : ∀ {Q : TurnId → TurnRuntime → Prop} {E : RuntimeError → TurnRuntime → Prop},
      wp (executionTurn turnId) Q E runtime ↔
        Q (turnId.getD runtime.ids.nextTurnId.1) { runtime with
          ids := match turnId with
            | some _ => runtime.ids
            | none => runtime.ids.nextTurnId.2 } := by
    intro Q E
    cases turnId with
    | none => exact wp_drawn _
    | some turnId => exact wp_pure _
  simp only [wp_bind, hturn, wp_drawn]
  have hstored := @wp_storeArtifacts_of_ne_nil _ _
  constructor
  · intro hrefused
    refine wp_mono ((hstored (fun _ _ _ _ => rfl) hne).1 hrefused) ?_ ?_
    · exact fun _ _ h => h.elim
    · exact fun _ later h => h
  · intro hnot
    refine wp_mono ((hstored (fun _ _ _ _ => rfl) hne).2 hnot) ?_ ?_
    · intro references later hfirst
      refine wp_mono (logged_keepsArtifacts threadId _ _ later) ?_ ?_
      · exact fun _ _ hkeeps => hkeeps _ hfirst
      · exact fun _ _ hkeeps => hkeeps _ hfirst
    · exact fun _ later hfirst => hfirst

end Recording

/-! ### Handling -/

section Handling

variable {node : ToolCallNode} {request : ToolCallRequest}

omit [Disk] [Clock] [ToolText] [ShellHost] in
theorem wp_targetNode {Q : ToolCallRequest → RuntimeCoordinator → Prop}
    {E : RuntimeCoordinator → Prop} {runtime : RuntimeCoordinator} :
    wp (normalizeToolCallNode request) Q (fun _ => E) runtime ↔
      (∀ nodeId, targetNode runtime.nodeRegistry request = some nodeId →
        Q { request with nodeId := some nodeId } runtime) ∧
      (targetNode runtime.nodeRegistry request = none → E runtime) := by
  obtain ⟨threadId, turnId, nodeId, workspaceMountId, invocation⟩ := request
  unfold normalizeToolCallNode targetNode
  cases nodeId with
  | some nodeId => simp
  | none =>
      cases workspaceMountId with
      | none => simp
      | some mountId =>
          simp only [wp_bind, wp_get, NodeRegistry.readWorkspaceMount]
          cases runtime.nodeRegistry.workspaceMounts.lookup mountId with
          | none => simp [liftExcept]
          | some mount => simp [liftExcept]

omit [Disk] [Clock] in
/-- Every tool leaves a trace and a snapshot. -/
theorem executeTool_artifacts (request : ToolCallRequest) (executor : LocalShellExecutor) :
    wp (LocalNodeExecutor.executeTool request) (fun executed _ => executed.artifactParts ≠ [])
      (fun _ _ => True) executor := by
  have htrace : ∀ {α : Type} (p : ShellM α) (report : α → ExecutedTool),
      (∀ a, (report a).artifactParts ≠ []) →
        wp (p >>= fun a => pure (report a)) (fun executed _ => executed.artifactParts ≠ [])
          (fun _ _ => True) executor := by
    intro α p report hreport
    rw [wp_bind]
    exact wp_mono (wp_trivial p) (fun a _ _ => hreport a) (fun _ _ _ => trivial)
  have hpair : ∀ summary output extra chunks,
      (executedTool summary output request.invocation extra chunks).artifactParts ≠ [] :=
    fun _ _ _ _ => List.cons_ne_nil _ _
  unfold LocalNodeExecutor.executeTool
  split
  all_goals exact htrace _ _ fun _ => hpair _ _ _ _

theorem wp_handleClientToolCall {Q : ResponsePayload → ToolCallNode → Prop}
    {E : ToolCallNode → Prop} :
    wp (handleClientToolCall request) Q (fun _ => E) node ↔
      (∀ nodeId, targetNode node.runtime.nodeRegistry request = some nodeId →
        wp (NodeExecutorRouter.executeTool { request with nodeId := some nodeId })
          (fun routed executor => wp (recordExecutedTool { request with nodeId := some nodeId }
            routed.1 routed.2) Q (fun _ => E) { node with executor := executor })
          (fun _ executor => E { node with executor := executor }) node.executor) ∧
      (targetNode node.runtime.nodeRegistry request = none → E node) := by
  unfold handleClientToolCall
  rw [wp_bind, wp_zoom]
  refine wp_targetNode.trans ?_
  simp only [wp_bind, wp_zoom]
  exact Iff.rfl

omit [Disk] [Clock] in
theorem wp_route {nodeId : NodeId} {Q : NodeId × ExecutedTool → LocalShellExecutor → Prop}
    {E : LocalShellExecutor → Prop} {executor : LocalShellExecutor} :
    wp (NodeExecutorRouter.executeTool { request with nodeId := some nodeId }) Q (fun _ => E)
        executor ↔
      (nodeId ≠ "local" → E executor) ∧
      (nodeId = "local" → wp (LocalNodeExecutor.executeTool request)
        (fun executed => Q (nodeId, executed)) (fun _ => E) executor) := by
  unfold NodeExecutorRouter.executeTool
  rw [Option.getD_some]
  by_cases hlocal : nodeId = "local"
  · rw [if_neg (not_not_intro hlocal), wp_bind]
    exact ⟨fun h => ⟨fun hne => absurd hlocal hne, fun _ => h⟩, fun h => h.2 hlocal⟩
  · rw [if_pos hlocal, wp_throw]
    exact ⟨fun h => ⟨fun _ => h, fun heq => absurd heq hlocal⟩, fun h => h.1 hlocal⟩

omit [ToolText] [ShellHost] in
/-- What is left of a recorded call when it has to be rejected. -/
theorem recordExecutedTool_rejected {nodeId : NodeId} {executed : ExecutedTool}
    {executor : LocalShellExecutor} (hne : executed.artifactParts ≠ [])
    (hrefused : NextRefused node.runtime.stores) (hsame : SameWorkspace node.executor executor) :
    wp (recordExecutedTool request nodeId executed) (fun _ _ => False)
      (fun _ later => LeftAlone node later) { node with executor := executor } := by
  unfold recordExecutedTool
  rw [wp_bind, wp_zoom, wp_onTurns]
  refine wp_mono ((wp_recordToolExecution hne).1 hrefused) (fun _ _ h => h.elim) ?_
  exact fun _ later hrecords => ⟨hsame, hrecords⟩

omit [ToolText] [ShellHost] in
/-- The first artifact of a recorded call stays. -/
theorem recordExecutedTool_rejects {nodeId : NodeId} {executed : ExecutedTool}
    {executor : LocalShellExecutor} (hne : executed.artifactParts ≠ [])
    (hfree : NextArtifactFree node.runtime request)
    (h : wp (recordExecutedTool request nodeId executed) (fun _ _ => False)
      (fun _ later => LeftAlone node later) { node with executor := executor }) :
    SameWorkspace node.executor executor ∧ NextRefused node.runtime.stores := by
  unfold recordExecutedTool at h
  rw [wp_bind, wp_zoom, wp_onTurns] at h
  by_cases hrefused : NextRefused node.runtime.stores
  · have hsame : wp (recordToolExecution request.threadId request.turnId (some nodeId)
        request.workspaceMountId executed.toolName.asStr executed.summary executed.artifactParts)
        (fun _ _ => SameWorkspace node.executor executor)
        (fun _ _ => SameWorkspace node.executor executor) node.runtime.toTurnRuntime :=
      wp_mono h (fun _ _ h => h.elim) (fun _ _ h => h.workspace)
    exact ⟨wp_after.mp hsame, hrefused⟩
  · have hstored := wp_and h ((wp_recordToolExecution hne).2 hrefused)
    have hcontra : wp (recordToolExecution request.threadId request.turnId (some nodeId)
        request.workspaceMountId executed.toolName.asStr executed.summary executed.artifactParts)
        (fun _ _ => False) (fun _ _ => False) node.runtime.toTurnRuntime := by
      refine wp_mono hstored (fun _ _ h => h.1.elim) ?_
      rintro _ later ⟨hleft, hmem⟩
      refine hfree (AList.lookup_isSome.mp ?_)
      rw [← hleft.records.artifacts]
      exact AList.lookup_isSome.mpr hmem
    exact (wp_after.mp hcontra).elim

theorem rejected_of_spared (h : Spared node request) : Rejected node request := by
  refine wp_handleClientToolCall.mpr ⟨fun nodeId htarget => ?_, fun _ => ?_⟩
  · have hself : LeftAlone node node := ⟨⟨rfl, fun _ => Iff.rfl⟩, ⟨fun _ => rfl, fun _ => rfl⟩⟩
    unfold Spared at h
    rw [htarget] at h
    refine wp_route.mpr ⟨fun _ => hself, fun hlocal => ?_⟩
    refine wp_mono (wp_and (h.resolve_left (not_not_intro hlocal)) (executeTool_artifacts _ _)) ?_ ?_
    · rintro executed later ⟨⟨hsame, hrefused⟩, hne⟩
      exact recordExecutedTool_rejected hne hrefused hsame
    · rintro _ later ⟨hsame, -⟩
      exact ⟨hsame, hself.records⟩
  · exact ⟨⟨rfl, fun _ => Iff.rfl⟩, ⟨fun _ => rfl, fun _ => rfl⟩⟩

theorem spared_of_rejected (hfree : NextArtifactFree node.runtime request)
    (h : Rejected node request) : Spared node request := by
  have hrun := (wp_handleClientToolCall.mp h).1
  unfold Spared
  cases htarget : targetNode node.runtime.nodeRegistry request with
  | none => trivial
  | some nodeId =>
      by_cases hlocal : nodeId = "local"
      · refine .inr ?_
        have hlocalRun := (wp_route.mp (hrun nodeId htarget)).2 hlocal
        refine wp_mono (wp_and hlocalRun (executeTool_artifacts _ _)) ?_ ?_
        · rintro executed later ⟨hrecorded, hne⟩
          exact recordExecutedTool_rejects hne hfree hrecorded
        · exact fun _ later hleft => hleft.1.workspace
      · exact .inl hlocal

end Handling

/-- A call that belongs nowhere is rejected when something else stands in its way; as long as the
identifiers of artifacts are fresh, nothing but that rejects it. -/
theorem stray_calls_rejected_iff (node : ToolCallNode) (request : ToolCallRequest) :
    (Attributed node.runtime request ∨ Spared node request → RejectsStray node request) ∧
      (NextArtifactFree node.runtime request → RejectsStray node request →
        Attributed node.runtime request ∨ Spared node request) := by
  constructor
  · intro h hstray
    exact rejected_of_spared (h.resolve_left hstray)
  · intro hfree hrejects
    by_cases hattributed : Attributed node.runtime request
    · exact .inl hattributed
    · exact .inr (spared_of_rejected hfree (hrejects hattributed))

theorem not_rejectsStray_of_ok {node later : ToolCallNode}
    {request : ToolCallRequest} {payload : ResponsePayload}
    (hstray : ¬ Attributed node.runtime request)
    (hrun : handleClientToolCall request node = .ok payload later) : ¬ RejectsStray node request := by
  intro h
  have hrejected := h hstray
  unfold Rejected wp at hrejected
  rw [hrun] at hrejected
  exact hrejected

end Calls

section Server

variable [World] [ToolText] [ShellHost]

omit [ToolText] [ShellHost] in
/-- What the server makes of a recorded call. -/
theorem recordClientToolCall_agrees {request : ToolCallRequest} {nodeId : NodeId}
    {executed : ExecutedTool} {s : AppServer} {executor : LocalShellExecutor}
    {R : ServerResponse → RuntimeCoordinator → Prop} :
    wp (recordClientToolCall request nodeId executed) (fun answered t => R answered.1 t.runtime)
        (fun _ _ => False) s ↔
      wp (recordExecutedTool request nodeId executed)
        (fun payload later => R (.success payload) later.runtime)
        (fun e later => R (errorEnvelope e) later.runtime) ⟨s.runtime, executor⟩ := by
  unfold recordClientToolCall recordExecutedTool respond
  rw [wp_bind, wp_onRuntime, wp_bind, wp_zoom]
  apply wp_congr
  · exact fun recorded later => Iff.rfl
  · exact fun error later => Iff.rfl

/-- The server answers a client as this handler does, with the node in the state it is in. -/
theorem handleToolCall_agrees (nodes : Nat → LocalShellExecutor) (request : ToolCallRequest)
    (s : AppServer) (R : ServerResponse → RuntimeCoordinator → Prop) :
    wp (@handleToolCall (withLocalNode nodes) request) (fun answered t => R answered.1 t.runtime)
        (fun _ _ => False) s ↔
      wp (handleClientToolCall request) (fun payload later => R (.success payload) later.runtime)
        (fun e later => R (errorEnvelope e) later.runtime) ⟨s.runtime, nodes s.executions⟩ := by
  unfold handleToolCall handleClientToolCall
  rw [wp_bind, wp_onRuntime, wp_bind, wp_zoom]
  obtain ⟨runtime, sandbox, approvalPolicy, executions, trace⟩ := s
  apply wp_congr
  · intro normalized later
    dsimp only
    rw [wp_bind, wp_bind, wp_zoom]
    unfold executeTool NodeExecutorRouter.executeTool
    dsimp only
    by_cases hremote : normalized.nodeId.getD "local" ≠ "local"
    · rw [if_pos hremote, if_pos hremote]
      exact Iff.rfl
    · rw [if_neg hremote, if_neg hremote]
      simp only [wp_bind, wp_get, wp_modify, wp_observe, wp_pure]
      have hexecuted : @World.executeTool (withLocalNode nodes) executions normalized =
          outcome (LocalNodeExecutor.executeTool normalized) (nodes executions) := rfl
      rw [hexecuted]
      have hnode : ToolCallNode.executorPart.get (ToolCallNode.runtimePart.set later
          { runtime := runtime, executor := nodes executions }) = nodes executions := rfl
      rw [hnode]
      cases hrun : LocalNodeExecutor.executeTool normalized (nodes executions) with
      | ok executed executor =>
          have hreturned : outcome (LocalNodeExecutor.executeTool normalized) (nodes executions) =
              .ok executed := by
            rw [outcome, hrun]
          rw [hreturned, wp_iff_of_ok hrun]
          exact recordClientToolCall_agrees
      | error error executor =>
          have hreturned : outcome (LocalNodeExecutor.executeTool normalized) (nodes executions) =
              .error error := by
            rw [outcome, hrun]
          rw [hreturned, wp_iff_of_error hrun]
          exact Iff.rfl
  · intro error later
    exact Iff.rfl

end Server

/-! ### A note of nobody -/

/-- A node with two files, and the server of one thread. -/
def twoFileServer : ToolCallNode :=
  { runtime := oneThreadServer.runtime, executor := twoFileNode }

/-- A file is to be written for a thread that does not exist. -/
def strayWrite : ToolCallRequest :=
  { threadId := "thread_9"
    turnId := none
    nodeId := none
    workspaceMountId := none
    invocation := .workspaceWriteText "/srv/app/notes" "x" }

theorem strayWrite_unattributed : ¬ Attributed twoFileServer.runtime strayWrite := by
  intro h
  obtain ⟨thread, hthread⟩ := h.thread
  have hnone : twoFileServer.runtime.stores.threads.lookup "thread_9" = none := by decide +kernel
  have hfound : twoFileServer.runtime.stores.threads.lookup "thread_9" = some (.intact thread) :=
    hthread
  rw [hnone] at hfound
  cases hfound

/-- The file is written and the call is logged. -/
theorem strayWrite_runs : ∃ payload later,
    @handleClientToolCall calmDisk stoppedClock blankText silentHost strayWrite twoFileServer =
      .ok payload later ∧
    ⟨.written, ["srv", "app", "notes"]⟩ ∈ touched twoFileNode later.executor ∧
    (later.runtime.stores.turnLog "thread_9").entries.length = 1 :=
  exists_ok_of_wp (by decide +kernel)

/-- A file is written for a thread that the server does not know, and the call succeeds. -/
theorem stray_write_recorded :
    ¬ ∀ (disk : Disk) (clock : Clock) (text : ToolText) (host : ShellHost) (node : ToolCallNode)
      (request : ToolCallRequest), @RejectsStray disk clock text host node request := by
  intro h
  obtain ⟨payload, later, hrun, -⟩ := strayWrite_runs
  exact @not_rejectsStray_of_ok calmDisk stoppedClock blankText silentHost _ _ _ _
    strayWrite_unattributed hrun (h _ _ _ _ _ _)

end Liz
