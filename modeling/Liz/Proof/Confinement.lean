import Liz.Executor.LocalNode
import Liz.Proof.ExecutionScope
import Liz.Proof.WorkspaceAccess

/-!
# Mounts and what their calls touch

A call names its mount, and the executor never looks at it. So a call stays in its mount exactly
when its own paths do, and it is of a class that the mount permits exactly when it happens to be.
The roots of a node's policy are not looked at either when a mount is attached.
-/

namespace Liz

open Paths FileTree Program

/-- The mount permits the class of the tool. -/
def ToolInvocation.Permitted (permissions : WorkspaceMountPermissions) : ToolInvocation → Prop
  | .workspaceList .. | .workspaceSearch .. | .workspaceRead .. => permissions.read = true
  | .workspaceWriteText .. | .workspaceApplyPatch .. => permissions.write = true
  | .shellExec .. | .shellSpawn .. | .shellWait .. | .shellReadOutput .. | .shellTerminate .. =>
      permissions.shell = true

/-- The paths of an invocation lead under the directory. A directory that is missing on the way of a
written file must lie there too, and so must what is read in the place of a file with a backslash in
its name. A command without a working directory starts in that of the server. -/
def ToolInvocation.Inside (dir : Location) (s : Session) : ToolInvocation → Prop
  | .workspaceList root .. => Under dir (locate s.cwd root)
  | .workspaceSearch root pattern caseSensitive includeHidden maxResults =>
      Under dir (locate s.cwd root) ∧
        Workspace.MisreadUnder dir s ⟨pattern, caseSensitive, maxResults.getD Workspace.usizeMax⟩
          root (Workspace.filesFound s root includeHidden)
  | .workspaceRead path .. => Under dir (locate s.cwd path)
  | .workspaceWriteText path _ =>
      Under dir (locate s.cwd path) ∧ Workspace.MissingUnder dir s path
  | .workspaceApplyPatch path .. => Under dir (locate s.cwd path)
  | .shellExec _ workingDir _ => Under dir (locate s.cwd (workingDir.getD ""))
  | .shellSpawn _ workingDir _ => Under dir (locate s.cwd (workingDir.getD ""))
  | .shellWait .. | .shellReadOutput .. | .shellTerminate .. => True

/-! ### What the executor touches -/

namespace LocalShellExecutor

/-- A program that returns has touched what lies under the directory exactly under `C`. -/
abbrev TouchesIff {α : Type} (dir : Location) (C : Prop) (p : ShellM α) (s : LocalShellExecutor) :
    Prop :=
  wp p (fun _ t => ∃ more, Touches more s.session t.session ∧ (AllUnder dir more ↔ C))
    (fun _ _ => True) s

theorem touchesIff_of_session {α : Type} {dir : Location} {p : ShellM α} {s : LocalShellExecutor}
    (h : wp p (fun _ t => t.session = s.session) (fun _ _ => True) s) : TouchesIff dir True p s := by
  refine wp_mono h (fun _ t ht => ?_) (fun _ _ h => h)
  exact ⟨[], ht ▸ Touches.refl s.session, by simp⟩

theorem touchesIff_map {α β : Type} {dir : Location} {C : Prop} {p : ShellM α}
    {next : α → ShellM β} {s : LocalShellExecutor} (hp : TouchesIff dir C p s)
    (hnext : ∀ value t, wp (next value) (fun _ u => u.session = t.session) (fun _ _ => True) t) :
    TouchesIff dir C (p >>= next) s := by
  rw [TouchesIff, wp_bind]
  refine wp_mono hp (fun value t ht => ?_) (fun _ _ h => h)
  refine wp_mono (hnext value t) (fun _ u hu => ?_) (fun _ _ h => h)
  rwa [hu]

theorem touchesIff_onFiles {α : Type} {dir : Location} {C : Session → Prop}
    {p : Workspace.WorkspaceM α}
    (h : ∀ s : Session, wp p (fun _ t => ∃ more, Touches more s t ∧ (AllUnder dir more ↔ C s))
      (fun _ _ => True) s) (s : LocalShellExecutor) :
    TouchesIff dir (C s.session) (LocalNodeExecutor.onFiles p) s := by
  rw [TouchesIff, LocalNodeExecutor.onFiles, wp_zoom]
  exact h s.session

theorem wp_ofExcept {α : Type} (value : Except RuntimeError α) (s : LocalShellExecutor) :
    wp (ofExcept value) (fun _ t => t = s) (fun _ _ => True) s := by
  cases value with
  | ok value => rfl
  | error error => trivial

theorem wp_nextQuestion (s : LocalShellExecutor) :
    wp nextQuestion (fun _ t => t.session = s.session) (fun _ _ => True) s := rfl

theorem wp_findTask (taskId : ExecutorTaskId) (s : LocalShellExecutor) :
    wp (findTask taskId) (fun _ t => t = s) (fun _ _ => True) s := by
  unfold findTask
  rw [wp_bind, wp_get]
  split
  next => trivial
  next => rfl

section

variable [ShellHost]

theorem wp_waitForExitCode (taskId : ExecutorTaskId) (s : LocalShellExecutor) :
    wp (waitForExitCode taskId) (fun _ t => t.session = s.session) (fun _ _ => True) s := by
  unfold waitForExitCode
  rw [wp_bind]
  refine wp_mono (wp_nextQuestion s) (fun question t ht => ?_) (fun _ _ h => h)
  split
  next => trivial
  next => exact ht

theorem wp_prepareShellCommand (dir : Location) (code doing command : String)
    (workingDir : Option String) (sandbox : Option ShellSandboxRequest) (s : LocalShellExecutor) :
    TouchesIff dir (Under dir (locate s.session.cwd (workingDir.getD "")))
      (prepareShellCommand code doing command workingDir sandbox) s := by
  unfold TouchesIff prepareShellCommand
  rw [wp_bind, wp_get]
  dsimp only
  rw [wp_bind]
  refine wp_mono (wp_ofExcept _ s) ?_ (fun _ _ h => h)
  rintro _ s rfl
  rw [wp_bind]
  refine wp_mono (wp_ofExcept _ s) ?_ (fun _ _ h => h)
  rintro built s rfl
  rw [wp_bind, wp_zoom, wp_adaptExcept]
  refine wp_mono (wp_enterDir workingDir s.session) (fun _ t ht => ?_) (fun _ _ _ => trivial)
  exact ⟨_, ht, by simp⟩

/-- A command is prepared, and then the host is asked to run it. -/
theorem touchesIff_prepared {α : Type} {dir : Location} {code doing command : String}
    {workingDir : Option String} {sandbox : Option ShellSandboxRequest}
    {next : EffectiveSandboxRequest × ShellCommand → Nat → ShellM α} {s : LocalShellExecutor}
    (hnext : ∀ prepared question u more, Touches more s.session u.session →
      (AllUnder dir more ↔ Under dir (locate s.session.cwd (workingDir.getD ""))) →
      wp (next prepared question) (fun _ t => ∃ more, Touches more s.session t.session ∧
        (AllUnder dir more ↔ Under dir (locate s.session.cwd (workingDir.getD ""))))
        (fun _ _ => True) u) :
    TouchesIff dir (Under dir (locate s.session.cwd (workingDir.getD "")))
      (do
        let prepared ← prepareShellCommand code doing command workingDir sandbox
        let question ← nextQuestion
        next prepared question) s := by
  unfold TouchesIff
  rw [wp_bind]
  refine wp_mono (wp_prepareShellCommand dir _ _ command workingDir sandbox s) ?_ (fun _ _ h => h)
  rintro prepared t ⟨more, htouches, hunder⟩
  rw [wp_bind]
  refine wp_mono (wp_nextQuestion t) (fun question u hu => ?_) (fun _ _ h => h)
  exact hnext prepared question u more (hu ▸ htouches) hunder

theorem wp_exec (dir : Location) (command : String) (workingDir : Option String)
    (sandbox : Option ShellSandboxRequest) (s : LocalShellExecutor) :
    TouchesIff dir (Under dir (locate s.session.cwd (workingDir.getD "")))
      (exec command workingDir sandbox) s := by
  refine touchesIff_prepared fun prepared question u more htouches hunder => ?_
  rw [wp_bind, wp_get]
  split
  next => trivial
  next output houtput =>
    rw [wp_bind, wp_modify]
    exact ⟨more, ⟨htouches.cwd, htouches.accesses⟩, hunder⟩

theorem wp_spawn (dir : Location) (command : String) (workingDir : Option String)
    (sandbox : Option ShellSandboxRequest) (s : LocalShellExecutor) :
    TouchesIff dir (Under dir (locate s.session.cwd (workingDir.getD "")))
      (spawn command workingDir sandbox) s := by
  refine touchesIff_prepared fun prepared question u more htouches hunder => ?_
  rw [wp_bind, wp_get]
  split
  next => trivial
  next =>
    simp only [wp_bind, wp_get, wp_set, wp_pure]
    exact ⟨more, htouches, hunder⟩

theorem wp_readOutput (taskId : ExecutorTaskId) (s : LocalShellExecutor) :
    wp (readOutput taskId) (fun _ t => t.session = s.session) (fun _ _ => True) s := by
  unfold readOutput
  rw [wp_bind]
  refine wp_mono (wp_findTask taskId s) ?_ (fun _ _ h => h)
  rintro state s rfl
  rw [wp_bind]
  exact wp_mono (wp_nextQuestion s) (fun question t ht => ht) (fun _ _ h => h)

theorem wp_wait (taskId : ExecutorTaskId) (s : LocalShellExecutor) :
    wp (wait taskId) (fun _ t => t.session = s.session) (fun _ _ => True) s := by
  unfold wait
  rw [wp_bind]
  refine wp_mono (wp_findTask taskId s) ?_ (fun _ _ h => h)
  rintro state s rfl
  rw [wp_bind]
  refine wp_mono (wp_waitForExitCode taskId s) (fun exitCode t ht => ?_) (fun _ _ h => h)
  rw [wp_bind]
  exact wp_mono (wp_nextQuestion t) (fun question u hu => hu.trans ht) (fun _ _ h => h)

theorem wp_terminate (taskId : ExecutorTaskId) (s : LocalShellExecutor) :
    wp (terminate taskId) (fun _ t => t.session = s.session) (fun _ _ => True) s := by
  unfold terminate
  rw [wp_bind]
  refine wp_mono (wp_findTask taskId s) ?_ (fun _ _ h => h)
  rintro state s rfl
  rw [wp_bind]
  exact wp_mono (wp_waitForExitCode taskId s) (fun exitCode t ht => ht) (fun _ _ h => h)

end

end LocalShellExecutor

open LocalShellExecutor

section Executor

variable [ToolText] [ShellHost]

/-- A request is executed as its invocation says, and touches what its paths lead to. -/
theorem executeTool_touches (dir : Location) (request : ToolCallRequest) (s : LocalShellExecutor) :
    TouchesIff dir (request.invocation.Inside dir s.session)
      (LocalNodeExecutor.executeTool request) s := by
  unfold LocalNodeExecutor.executeTool
  have hkeeps : ∀ {α β : Type} (f : α → β) (value : α) (t : LocalShellExecutor),
      wp (pure (f value) : ShellM β) (fun _ u => u.session = t.session) (fun _ _ => True) t :=
    fun _ _ _ => rfl
  cases request.invocation with
  | workspaceList root recursive includeHidden maxEntries =>
      exact touchesIff_map (touchesIff_onFiles
        (Workspace.wp_list dir root recursive includeHidden maxEntries) s) (hkeeps _)
  | workspaceSearch root pattern caseSensitive includeHidden maxResults =>
      exact touchesIff_map (touchesIff_onFiles
        (Workspace.wp_search dir root pattern caseSensitive includeHidden maxResults) s) (hkeeps _)
  | workspaceRead path startLine endLine =>
      exact touchesIff_map (touchesIff_onFiles (Workspace.wp_read dir path startLine endLine) s)
        (hkeeps _)
  | workspaceWriteText path content =>
      exact touchesIff_map (touchesIff_onFiles (Workspace.wp_writeText dir path content) s)
        (hkeeps _)
  | workspaceApplyPatch path search into replaceAll =>
      exact touchesIff_map (touchesIff_onFiles
        (Workspace.wp_applyPatch dir path search into replaceAll) s) (hkeeps _)
  | shellExec command workingDir sandbox =>
      exact touchesIff_map (wp_exec dir command workingDir sandbox s) (hkeeps _)
  | shellSpawn command workingDir sandbox =>
      exact touchesIff_map (wp_spawn dir command workingDir sandbox s) (hkeeps _)
  | shellWait taskId =>
      exact touchesIff_map (touchesIff_of_session (wp_wait taskId s)) (hkeeps _)
  | shellReadOutput taskId =>
      exact touchesIff_map (touchesIff_of_session (wp_readOutput taskId s)) (hkeeps _)
  | shellTerminate taskId =>
      exact touchesIff_map (touchesIff_of_session (wp_terminate taskId s)) (hkeeps _)

theorem router_touches (dir : Location) (request : ToolCallRequest) (s : LocalShellExecutor) :
    TouchesIff dir (request.invocation.Inside dir s.session)
      (NodeExecutorRouter.executeTool request) s := by
  unfold NodeExecutorRouter.executeTool
  dsimp only
  split
  next => trivial
  next => exact touchesIff_map (executeTool_touches dir request s) fun _ _ => rfl

end Executor

/-! ### The two ways in -/

def Observation.clientExecution : Observation → Option ToolCallRequest
  | .toolExecuted .client request => some request
  | _ => none

/-- The tool calls of clients that have been executed. -/
def clientExecutions (s : AppServer) : List ToolCallRequest :=
  s.trace.filterMap Observation.clientExecution

section Calls

variable [World]

/-- What a tool call of a client hands to the router. -/
def clientExecuted (server : AppServer) (request : ToolCallRequest) : List ToolCallRequest :=
  (clientExecutions (after (handleToolCall request) server)).drop (clientExecutions server).length

omit [World] in
theorem onRuntime_clientExecutions {α : Type} (p : RuntimeM α) (s : AppServer) :
    wp (onRuntime p) (fun _ t => clientExecutions t = clientExecutions s) (fun _ _ => False) s := by
  rw [wp_onRuntime]
  unfold wp
  split <;> rfl

omit [World] in
/-- The node is filled in and nothing else. -/
theorem wp_normalizeToolCallNode (request : ToolCallRequest) (s : RuntimeCoordinator) :
    wp (normalizeToolCallNode request) (fun normalized _ =>
      normalized.invocation = request.invocation ∧
        normalized.workspaceMountId = request.workspaceMountId) (fun _ _ => True) s := by
  unfold normalizeToolCallNode
  split
  next => exact ⟨rfl, rfl⟩
  next workspaceMountId _ _ =>
    rw [wp_bind, wp_get, wp_bind]
    cases s.nodeRegistry.readWorkspaceMount workspaceMountId with
    | error error => exact trivial
    | ok mount => exact ⟨rfl, rfl⟩
  next => exact ⟨rfl, rfl⟩

/-- A client's call is executed as it came, but for its node. -/
theorem handleToolCall_executes (request : ToolCallRequest) (s : AppServer) :
    wp (handleToolCall request) (fun _ t => ∃ more, clientExecutions t = clientExecutions s ++ more ∧
      ∀ executed ∈ more, executed.invocation = request.invocation ∧
        executed.workspaceMountId = request.workspaceMountId) (fun _ _ => False) s := by
  unfold handleToolCall
  rw [wp_bind]
  have hnormalized : wp (onRuntime (normalizeToolCallNode request)) (fun outcome t =>
      clientExecutions t = clientExecutions s ∧ ∀ normalized, outcome = .ok normalized →
        normalized.invocation = request.invocation ∧
          normalized.workspaceMountId = request.workspaceMountId) (fun _ _ => False) s := by
    rw [wp_onRuntime]
    refine wp_mono (wp_normalizeToolCallNode request s.runtime) (fun normalized _ h => ?_) ?_
    · exact ⟨rfl, fun _ heq => Except.ok.inj heq ▸ h⟩
    · exact fun _ _ _ => ⟨rfl, fun _ heq => absurd heq (by simp)⟩
  refine wp_mono hnormalized ?_ (fun _ _ h => h)
  rintro outcome t ⟨ht, hsame⟩
  cases outcome with
  | error error => exact ⟨[], by rw [ht, List.append_nil], by simp⟩
  | ok normalized =>
      have hexecuted : wp (executeTool .client normalized) (fun _ u => ∃ more,
          clientExecutions u = clientExecutions s ++ more ∧ ∀ executed ∈ more,
            executed.invocation = request.invocation ∧
              executed.workspaceMountId = request.workspaceMountId) (fun _ _ => False) t := by
        unfold executeTool
        dsimp only
        split
        next => exact ⟨[], by rw [ht, List.append_nil], by simp⟩
        next =>
          simp only [wp_bind, wp_get, wp_modify, wp_observe, wp_pure]
          refine ⟨[normalized], ?_, ?_⟩
          · rw [← ht]
            exact List.filterMap_append
          · simpa using hsame normalized rfl
      dsimp only
      rw [wp_bind]
      refine wp_mono hexecuted ?_ (fun _ _ h => h)
      rintro execution u ⟨more, hmore, hall⟩
      cases execution with
      | error error => exact ⟨more, hmore, hall⟩
      | ok executed =>
          unfold recordClientToolCall respond
          dsimp only
          rw [wp_bind]
          refine wp_mono (onRuntime_clientExecutions _ u) (fun recorded v hv => ?_) (fun _ _ h => h)
          cases recorded with
          | error error => exact ⟨more, hv.trans hmore, hall⟩
          | ok recorded => exact ⟨more, hv.trans hmore, hall⟩

/-- A call in the scope of a mount, with the request that the router gets for it. -/
inductive ScopedCall (server : AppServer) (mount : WorkspaceMount) :
    ToolInvocation → ToolCallRequest → Prop
  | client {request executed : ToolCallRequest}
      (hscope : request.workspaceMountId = some mount.workspaceId)
      (hexecuted : executed ∈ clientExecuted server request) :
      ScopedCall server mount request.invocation executed
  | model {threadId : ThreadId} {turnId : TurnId} {toolCall : ProviderToolCall}
      {executed : ToolCallRequest} {invocation : ToolInvocation}
      (hparsed : parseToolInvocation toolCall.toolName toolCall.arguments = .ok invocation)
      (hexecuted : executed ∈ ToolCallMoment.executed ⟨server, threadId, turnId, toolCall⟩)
      (hscope : executed.workspaceMountId = some mount.workspaceId) :
      ScopedCall server mount invocation executed

/-- The router gets the invocation of the call in the scope of the mount. -/
theorem ScopedCall.handed {server : AppServer} {mount : WorkspaceMount}
    {invocation : ToolInvocation} {executed : ToolCallRequest}
    (h : ScopedCall server mount invocation executed) :
    executed.invocation = invocation ∧ executed.workspaceMountId = some mount.workspaceId := by
  cases h with
  | @client request _ hscope hexecuted =>
      obtain ⟨more, hmore, hall⟩ := after_of_always (handleToolCall_executes request server)
      rw [clientExecuted, hmore, List.drop_left] at hexecuted
      exact ⟨(hall _ hexecuted).1, (hall _ hexecuted).2.trans hscope⟩
  | @model threadId turnId toolCall _ _ hparsed hexecuted hscope =>
      rw [ToolCallMoment.executed_eq, hparsed] at hexecuted
      dsimp only at hexecuted
      split at hexecuted
      next => exact ⟨congrArg ToolCallRequest.invocation (List.mem_singleton.mp hexecuted), hscope⟩
      next => exact absurd hexecuted List.not_mem_nil

/-- A world in which the local node executes the tools, from the state it is in at each call. -/
@[reducible] def withLocalNode [ToolText] [ShellHost] (nodes : Nat → LocalShellExecutor) : World :=
  { ‹World› with
    executeTool := fun executions request =>
      outcome (LocalNodeExecutor.executeTool request) (nodes executions) }

/-- In such a world the server returns what the router does. -/
theorem executeTool_eq_router [ToolText] [ShellHost] (nodes : Nat → LocalShellExecutor)
    (caller : ToolCaller) (request : ToolCallRequest) (s : AppServer) :
    wp (@executeTool (withLocalNode nodes) caller request) (fun returned _ =>
      returned = outcome (NodeExecutorRouter.executeTool request) (nodes s.executions))
      (fun _ _ => False) s := by
  unfold executeTool NodeExecutorRouter.executeTool
  dsimp only
  split
  next => rfl
  next =>
    simp only [wp_bind, wp_get, wp_modify, wp_observe, wp_pure]
    change Except.map _ (outcome (LocalNodeExecutor.executeTool request) (nodes s.executions)) =
      outcome (EStateM.bind (LocalNodeExecutor.executeTool request) _) _
    unfold outcome EStateM.bind
    cases LocalNodeExecutor.executeTool request (nodes s.executions) <;> rfl

end Calls

/-! ### Confinement -/

/-- What has been touched between two states. -/
def touched (s t : LocalShellExecutor) : List Access :=
  t.session.accesses.drop s.session.accesses.length

/-- The call has touched nothing outside its mount, and the mount permits it. -/
structure Confined (mount : WorkspaceMount) (s t : LocalShellExecutor)
    (invocation : ToolInvocation) : Prop where
  inside : AllUnder (locate s.session.cwd mount.rootPath) (touched s t)
  permitted : invocation.Permitted mount.permissions

/-- The root lies under one of the allowed roots, when there are any. -/
def NodePolicy.Allows (policy : NodePolicy) (cwd : Location) (rootPath : String) : Prop :=
  policy.allowedRoots ≠ [] →
    ∃ root ∈ policy.allowedRoots, Under (locate cwd root) (locate cwd rootPath)

/-- When the mount is attached, the policy of its node allows its root. -/
def AttachesAllowed (registry : NodeRegistry) (cwd : Location) (nodeId : NodeId)
    (rootPath : String) (label : Option String) (permissions : WorkspaceMountPermissions) : Prop :=
  (registry.attachWorkspaceMount nodeId rootPath label permissions).isOk = true →
    ∀ node ∈ registry.nodes.lookup nodeId, node.policy.Allows cwd rootPath

/-- Nothing but the node is looked at when a mount is attached. -/
theorem attachesAllowed_iff (registry : NodeRegistry) (cwd : Location) (nodeId : NodeId)
    (rootPath : String) (label : Option String) (permissions : WorkspaceMountPermissions) :
    AttachesAllowed registry cwd nodeId rootPath label permissions ↔
      ∀ node ∈ registry.nodes.lookup nodeId, node.policy.Allows cwd rootPath := by
  constructor
  · intro h node hnode
    apply h _ node hnode
    have hknown : nodeId ∈ registry.nodes := AList.lookup_isSome.mp (by rw [hnode]; rfl)
    rw [NodeRegistry.attachWorkspaceMount, if_pos hknown]
    rfl
  · exact fun h _ => h

theorem mount_confinement_iff [World] [ToolText] [ShellHost] :
    (∀ (server : AppServer) (mount : WorkspaceMount) (invocation : ToolInvocation)
      (request : ToolCallRequest) (s t : LocalShellExecutor) (executed : NodeId × ExecutedTool),
      server.runtime.nodeRegistry.workspaceMounts.lookup mount.workspaceId = some mount →
      ScopedCall server mount invocation request →
      NodeExecutorRouter.executeTool request s = .ok executed t →
      (Confined mount s t invocation ↔ invocation.Permitted mount.permissions ∧
        invocation.Inside (locate s.session.cwd mount.rootPath) s.session)) ∧
    ∀ (registry : NodeRegistry) (cwd : Location) (nodeId : NodeId) (rootPath : String)
      (label : Option String) (permissions : WorkspaceMountPermissions),
      AttachesAllowed registry cwd nodeId rootPath label permissions ↔
        ∀ node ∈ registry.nodes.lookup nodeId, node.policy.Allows cwd rootPath := by
  refine ⟨?_, attachesAllowed_iff⟩
  intro server mount invocation request s t executed _ hcall hrun
  have htouches := router_touches (locate s.session.cwd mount.rootPath) request s
  rw [TouchesIff, wp, hrun, hcall.handed.1] at htouches
  obtain ⟨more, hmore, hunder⟩ := htouches
  have htouched : touched s t = more := by rw [touched, hmore.accesses, List.drop_left]
  constructor
  · intro h
    exact ⟨h.permitted, hunder.mp (htouched ▸ h.inside)⟩
  · rintro ⟨hpermitted, hinside⟩
    exact ⟨htouched ▸ hunder.mpr hinside, hpermitted⟩

/-- A mount of one directory, in which files may be read. -/
def readOnlyMount : WorkspaceMount :=
  { workspaceId := "workspace_1"
    nodeId := "local"
    rootPath := "/srv/app"
    label := "app"
    permissions := { read := true, write := false, shell := false } }

/-- A server with that mount. -/
def mountedServer [Disk] : AppServer :=
  .new { os := "linux", hostname := none } { mode := .workspaceWrite, networkAccess := .restricted }
    { RuntimeStores.blank with
      nodeRegistry := some (.intact { nodes := [], workspaceMounts := [readOnlyMount] }) }

/-- A call in the mount. -/
def mountedCall (invocation : ToolInvocation) : ToolCallRequest :=
  { threadId := "thread_1"
    turnId := none
    nodeId := some "local"
    workspaceMountId := some "workspace_1"
    invocation := invocation }

/-- A node with the files `/srv/app/notes` and `/etc/motd`. -/
def twoFileNode : LocalShellExecutor :=
  let put (here : Location) (name : String) (content : Option Bytes) (tree : Tree) : Tree :=
    match FileName.ofSegment name with
    | some name => tree.put here name content
    | none => tree
  { session :=
      { tree := put ["etc"] "motd" (some [104, 105]) <| put [] "etc" none <|
          put ["srv", "app"] "notes" (some [104, 105]) <| put ["srv"] "app" none <|
          put [] "srv" none ⟨.nil, trivial⟩
        cwd := []
        accesses := [] }
    tasks := ∅
    sequence := 0
    sandbox :=
      { defaultMode := .workspaceWrite
        defaultNetworkAccess := .restricted
        windowsBackend := .sandboxUser
        linuxVariant := .helper }
    questions := 0 }

/-- Results that nobody reads. -/
@[reducible] def blankText : ToolText := ⟨fun _ => .null, fun _ => "", fun _ _ _ _ _ => ""⟩

/-- A host on which no command can be started. -/
@[reducible] def silentHost : ShellHost :=
  { platform := .linux
    now := fun _ => 0
    helperPath := fun _ => none
    output := fun _ _ _ => .error "there are no programs"
    spawn := fun _ _ _ => .error "there are no programs"
    progress := fun _ _ => ⟨[], [], none⟩
    wait := fun _ _ => .error "there are no tasks" }

theorem mountedServer_mount :
    (@mountedServer calmDisk).runtime.nodeRegistry.workspaceMounts.lookup "workspace_1" =
      some readOnlyMount := by decide +kernel

theorem mountedCall_scoped (invocation : ToolInvocation) :
    @ScopedCall plainWorld (@mountedServer calmDisk) readOnlyMount invocation
      (mountedCall invocation) := by
  refine @ScopedCall.client plainWorld _ _ (mountedCall invocation) _ rfl ?_
  exact List.mem_singleton.mpr rfl

theorem notes_read : ∃ executed t,
    @NodeExecutorRouter.executeTool blankText silentHost
      (mountedCall (.workspaceRead "/srv/app/../app/notes" none none)) twoFileNode = .ok executed t ∧
    touched twoFileNode t ≠ [] :=
  exists_ok_of_wp (by decide +kernel)

/-- Reading a file of the mount stays in it. -/
theorem reading_is_confined : ∃ executed t,
    @NodeExecutorRouter.executeTool blankText silentHost
      (mountedCall (.workspaceRead "/srv/app/../app/notes" none none)) twoFileNode = .ok executed t ∧
    touched twoFileNode t ≠ [] ∧
    Confined readOnlyMount twoFileNode t (.workspaceRead "/srv/app/../app/notes" none none) := by
  obtain ⟨executed, t, hrun, hread⟩ := notes_read
  refine ⟨executed, t, hrun, hread, ?_⟩
  refine ((@mount_confinement_iff plainWorld blankText silentHost).1 (@mountedServer calmDisk)
    readOnlyMount _ _ twoFileNode t executed mountedServer_mount (mountedCall_scoped _) hrun).mpr ?_
  refine ⟨rfl, ?_⟩
  change Under _ _
  decide +kernel

/-- A node on which only what lies under `/srv` may be attached. -/
def narrowNode : NodeRecord :=
  { localNodeRecord { os := "linux", hostname := none } with
    policy :=
      { allowedRoots := ["/srv"]
        protectedPaths := []
        defaultSandbox := .workspaceWrite
        networkPolicy := "inherit-local"
        approvalPolicy := .onRequest } }

def narrowRegistry : NodeRegistry :=
  { nodes := AList.singleton "local" narrowNode, workspaceMounts := ∅ }

theorem narrowRegistry_node : narrowRegistry.nodes.lookup "local" = some narrowNode := by
  decide +kernel

/-- A file outside the mount is written. -/
theorem motd_written : ∃ executed t,
    @NodeExecutorRouter.executeTool blankText silentHost
      (mountedCall (.workspaceWriteText "/etc/motd" "x")) twoFileNode = .ok executed t ∧
    ⟨.written, ["etc", "motd"]⟩ ∈ touched twoFileNode t :=
  exists_ok_of_wp (by decide +kernel)

/-- A call in a mount for reading writes to a file outside of it, and a directory is mounted that
the policy of its node does not allow. -/
theorem calls_leave_their_mount :
    ¬ ((∀ [World] [ToolText] [ShellHost] (server : AppServer) (mount : WorkspaceMount)
      (invocation : ToolInvocation) (request : ToolCallRequest) (s t : LocalShellExecutor)
      (executed : NodeId × ExecutedTool),
      server.runtime.nodeRegistry.workspaceMounts.lookup mount.workspaceId = some mount →
      ScopedCall server mount invocation request →
      NodeExecutorRouter.executeTool request s = .ok executed t →
      AllUnder (locate s.session.cwd mount.rootPath) (touched s t)) ∨
    (∀ [World] [ToolText] [ShellHost] (server : AppServer) (mount : WorkspaceMount)
      (invocation : ToolInvocation) (request : ToolCallRequest) (s t : LocalShellExecutor)
      (executed : NodeId × ExecutedTool),
      server.runtime.nodeRegistry.workspaceMounts.lookup mount.workspaceId = some mount →
      ScopedCall server mount invocation request →
      NodeExecutorRouter.executeTool request s = .ok executed t →
      invocation.Permitted mount.permissions) ∨
    ∀ (registry : NodeRegistry) (cwd : Location) (nodeId : NodeId) (rootPath : String)
      (label : Option String) (permissions : WorkspaceMountPermissions),
      AttachesAllowed registry cwd nodeId rootPath label permissions) := by
  obtain ⟨executed, t, hrun, hwritten⟩ := motd_written
  rintro (h | h | h)
  · have hunder := @h plainWorld blankText silentHost (@mountedServer calmDisk) readOnlyMount _
      (mountedCall (.workspaceWriteText "/etc/motd" "x")) twoFileNode t executed mountedServer_mount
      (mountedCall_scoped _) hrun
    exact absurd (hunder _ hwritten) (by decide +kernel)
  · have hpermitted := @h plainWorld blankText silentHost (@mountedServer calmDisk) readOnlyMount _
      (mountedCall (.workspaceWriteText "/etc/motd" "x")) twoFileNode t executed mountedServer_mount
      (mountedCall_scoped _) hrun
    have hwrite : readOnlyMount.permissions.write = true := hpermitted
    exact absurd hwrite (by decide)
  · obtain ⟨root, hroot, hunder⟩ := h narrowRegistry [] "local" "/etc" none
      { read := true, write := true, shell := true } (by decide +kernel) narrowNode
      narrowRegistry_node (by decide)
    obtain rfl : root = "/srv" := List.mem_singleton.mp hroot
    exact absurd hunder (by decide +kernel)

end Liz
