import Liz.Base.Runs
import Liz.Runtime.NodeRegistry

/-!
# Runs of the node registry

The calls that change the registry of a running server, and the restart, which writes the registry
out and reads it back. A lookup by directory walks the hash map in an order of its own, so that what
it may find is a relation; what a call does to the registry does not depend on that order.
-/

namespace Liz

open Tables

inductive RegistryCall
  | updatePolicy (nodeId : NodeId) (policy : NodePolicy)
  | heartbeat (nodeId : NodeId) (status : NodeStatus)
  | attach (nodeId : NodeId) (rootPath : String) (label : Option String)
      (permissions : WorkspaceMountPermissions)
  | resolve (rootPath : String)
  | detach (workspaceId : WorkspaceMountId)
  | restart (host : HostInfo)
  deriving DecidableEq

namespace NodeRegistry

variable {registry later : NodeRegistry} {mount : WorkspaceMount}

/-- The registry after a call; one that fails changes nothing. -/
def settle {α : Type} (registry : NodeRegistry) :
    Except RuntimeError (α × NodeRegistry) → NodeRegistry
  | .ok (_, later) => later
  | .error _ => registry

def step (registry : NodeRegistry) : RegistryCall → NodeRegistry
  | .updatePolicy nodeId policy => registry.settle (registry.updateNodePolicy nodeId policy)
  | .heartbeat nodeId status => registry.settle (registry.updateNodeStatus nodeId status)
  | .attach nodeId rootPath label permissions =>
      registry.settle (registry.attachWorkspaceMount nodeId rootPath label permissions)
  | .resolve rootPath => registry.settle (registry.resolveOrAttachLocalWorkspace rootPath)
  | .detach workspaceId => registry.settle (registry.detachWorkspaceMount workspaceId)
  | .restart host => .fromSnapshot host registry.snapshot

/-- The registry a server starts with while nothing is mounted. -/
def unmounted (host : HostInfo) (nodes : List NodeRecord) : NodeRegistry :=
  .fromSnapshot host { nodes := nodes, workspaceMounts := [] }

/-- A mount of the local node on this directory. -/
def IsLocalMount (rootPath : String) (mount : WorkspaceMount) : Prop :=
  mount.nodeId = "local" ∧ mount.rootPath = rootPath

instance (rootPath : String) (mount : WorkspaceMount) : Decidable (IsLocalMount rootPath mount) :=
  inferInstanceAs (Decidable (_ ∧ _))

/-- Some mount of the local node stands on this directory. -/
def Mounted (registry : NodeRegistry) (rootPath : String) : Prop :=
  ∃ mount ∈ values registry.workspaceMounts, IsLocalMount rootPath mount

instance (registry : NodeRegistry) (rootPath : String) : Decidable (registry.Mounted rootPath) :=
  inferInstanceAs (Decidable (∃ mount ∈ values registry.workspaceMounts, _))

/-- The mounts a call may return. -/
inductive Returns (registry : NodeRegistry) : RegistryCall → WorkspaceMount → Prop
  | attached {nodeId : NodeId} {rootPath : String} {label : Option String}
      {permissions : WorkspaceMountPermissions} {mount : WorkspaceMount} {later : NodeRegistry}
      (h : registry.attachWorkspaceMount nodeId rootPath label permissions = .ok (mount, later)) :
      Returns registry (.attach nodeId rootPath label permissions) mount
  | found {rootPath : String} {mount : WorkspaceMount}
      (h : mount ∈ values registry.workspaceMounts) (hlocal : IsLocalMount rootPath mount) :
      Returns registry (.resolve rootPath) mount
  | resolved {rootPath : String} {mount : WorkspaceMount} {later : NodeRegistry}
      (hnone : ¬ registry.Mounted rootPath)
      (h : registry.attachWorkspaceMount "local" rootPath none
        { read := true, write := true, shell := true } = .ok (mount, later)) :
      Returns registry (.resolve rootPath) mount

/-! ### What the calls do -/

theorem mem_values {v : WorkspaceMount} :
    v ∈ values registry.workspaceMounts ↔
      ∃ workspaceId, registry.workspaceMounts.lookup workspaceId = some v := mem_values_iff

/-- What attaching comes to. -/
structure Attaches (registry : NodeRegistry) (nodeId : NodeId) (rootPath : String)
    (mount : WorkspaceMount) (later : NodeRegistry) : Prop where
  registered : nodeId ∈ registry.nodes
  workspaceId : mount.workspaceId = registry.nextWorkspaceMountId
  nodeId : mount.nodeId = nodeId
  rootPath : mount.rootPath = rootPath
  nodes : later.nodes = registry.nodes
  workspaceMounts : later.workspaceMounts =
    registry.workspaceMounts.insert registry.nextWorkspaceMountId mount

theorem attachWorkspaceMount_ok {nodeId : NodeId} {rootPath : String} {label : Option String}
    {permissions : WorkspaceMountPermissions}
    (h : registry.attachWorkspaceMount nodeId rootPath label permissions = .ok (mount, later)) :
    Attaches registry nodeId rootPath mount later := by
  unfold attachWorkspaceMount at h
  split at h
  next hnode =>
    obtain ⟨rfl, rfl⟩ := Prod.mk.inj (Except.ok.inj h)
    exact ⟨hnode, rfl, rfl, rfl, rfl, rfl⟩
  next => cases h

/-- A registered node can be attached to. -/
theorem exists_attachWorkspaceMount {nodeId : NodeId} (h : nodeId ∈ registry.nodes)
    (rootPath : String) (label : Option String) (permissions : WorkspaceMountPermissions) :
    ∃ mount later,
      registry.attachWorkspaceMount nodeId rootPath label permissions = .ok (mount, later) := by
  unfold attachWorkspaceMount
  rw [if_pos h]
  exact ⟨_, _, rfl⟩

/-- A directory that is mounted changes nothing, and one that is not is attached. -/
theorem resolveOrAttachLocalWorkspace_eq (registry : NodeRegistry) (rootPath : String) :
    (∃ mount ∈ values registry.workspaceMounts, IsLocalMount rootPath mount ∧
      registry.resolveOrAttachLocalWorkspace rootPath = .ok (mount, registry)) ∨
    (¬ registry.Mounted rootPath ∧
      registry.resolveOrAttachLocalWorkspace rootPath =
        registry.attachWorkspaceMount "local" rootPath none
          { read := true, write := true, shell := true }) := by
  unfold resolveOrAttachLocalWorkspace
  cases hfound : (values registry.workspaceMounts).find? fun mount =>
      mount.nodeId == "local" && mount.rootPath == rootPath with
  | some mount =>
      refine .inl ⟨mount, List.mem_of_find?_eq_some hfound, ?_, rfl⟩
      have hmatches := List.find?_some hfound
      simpa [IsLocalMount] using hmatches
  | none =>
      refine .inr ⟨?_, rfl⟩
      intro ⟨mount, hmount, hlocal⟩
      have hno := List.find?_eq_none.mp hfound mount hmount
      simp [hlocal.1, hlocal.2] at hno

/-- What one call does to the mounts. -/
inductive MountChange (registry : NodeRegistry) (call : RegistryCall) (later : NodeRegistry) : Prop
  | unchanged (h : Same registry.workspaceMounts later.workspaceMounts)
      (hreturns : ∀ mount, registry.Returns call mount → mount ∈ values registry.workspaceMounts)
  | attached (mount : WorkspaceMount)
      (hreturns : ∀ other, registry.Returns call other ↔ other = mount)
      (h : Attaches registry mount.nodeId mount.rootPath mount later)
  | detached (workspaceId : WorkspaceMountId) (hcall : call = .detach workspaceId)
      (hmem : workspaceId ∈ registry.workspaceMounts)
      (h : later.workspaceMounts = registry.workspaceMounts.erase workspaceId)

theorem updateNode_ok {nodeId : NodeId} {change : NodeRecord → NodeRecord} {node : NodeRecord}
    (h : registry.updateNode nodeId change = .ok (node, later)) :
    ∃ old, registry.nodes.lookup nodeId = some old ∧ node = change old ∧
      later = { registry with nodes := registry.nodes.insert nodeId (change old) } := by
  unfold updateNode at h
  split at h
  next old hold =>
    obtain ⟨rfl, rfl⟩ := Prod.mk.inj (Except.ok.inj h)
    exact ⟨old, hold, rfl, rfl⟩
  next => cases h

theorem same_mounts_updateNode (nodeId : NodeId) (change : NodeRecord → NodeRecord) :
    Same registry.workspaceMounts
      (registry.settle (registry.updateNode nodeId change)).workspaceMounts := by
  cases hupdate : registry.updateNode nodeId change with
  | error e => exact Same.refl _
  | ok updated =>
      obtain ⟨old, -, -, hlater⟩ := updateNode_ok hupdate
      show Same registry.workspaceMounts updated.2.workspaceMounts
      rw [hlater]
      exact Same.refl _

theorem detachWorkspaceMount_ok {workspaceId detachedId : WorkspaceMountId}
    (h : registry.detachWorkspaceMount workspaceId = .ok (detachedId, later)) :
    workspaceId ∈ registry.workspaceMounts ∧ detachedId = workspaceId ∧
      later = { registry with
        workspaceMounts := registry.workspaceMounts.erase workspaceId } := by
  unfold detachWorkspaceMount at h
  split at h
  next hmem =>
    obtain ⟨rfl, rfl⟩ := Prod.mk.inj (Except.ok.inj h)
    exact ⟨hmem, rfl, rfl⟩
  next => cases h

/-! ### What a restart brings back -/

theorem lookup_nodes_fromSnapshot {host : HostInfo} {snapshot : NodeRegistrySnapshot}
    {nodeId : NodeId} (h : nodeId ≠ "local") :
    (fromSnapshot host snapshot).nodes.lookup nodeId =
      (collect (fun node => node.identity.nodeId) snapshot.nodes).lookup nodeId := by
  unfold fromSnapshot
  dsimp only
  split
  · exact AList.lookup_insert_ne h
  · exact AList.lookup_insert_ne h

/-- The local node is the built-in one, whatever the snapshot has under its name. -/
theorem lookup_local_fromSnapshot (host : HostInfo) (snapshot : NodeRegistrySnapshot) :
    ∃ node, (fromSnapshot host snapshot).nodes.lookup "local" = some node ∧
      node.policy = (localNodeRecord host).policy := by
  unfold fromSnapshot
  dsimp only
  split
  · exact ⟨_, AList.lookup_insert _, rfl⟩
  · exact ⟨_, AList.lookup_insert _, rfl⟩

theorem nodesKeyed_fromSnapshot (host : HostInfo) (snapshot : NodeRegistrySnapshot) :
    WellKeyed (fun node => node.identity.nodeId) (fromSnapshot host snapshot).nodes := by
  have hcollected : WellKeyed (fun node => node.identity.nodeId)
      (collect (fun node => node.identity.nodeId) snapshot.nodes) :=
    wellKeyed_foldl_insert _ wellKeyed_empty
  exact hcollected.insert

theorem mountsKeyed_fromSnapshot (host : HostInfo) (snapshot : NodeRegistrySnapshot) :
    WellKeyed WorkspaceMount.workspaceId (fromSnapshot host snapshot).workspaceMounts :=
  wellKeyed_foldl_insert _ wellKeyed_empty

/-- The mounts come back as they were written out. -/
theorem same_mounts_restarted (host : HostInfo)
    (h : WellKeyed WorkspaceMount.workspaceId registry.workspaceMounts) :
    Same registry.workspaceMounts (fromSnapshot host registry.snapshot).workspaceMounts :=
  same_refilled h (List.perm_insertionSort _ _)

/-- The other nodes come back as they were written out. -/
theorem lookup_nodes_restarted (host : HostInfo)
    (h : WellKeyed (fun node => node.identity.nodeId) registry.nodes) {nodeId : NodeId}
    (hother : nodeId ≠ "local") :
    (fromSnapshot host registry.snapshot).nodes.lookup nodeId = registry.nodes.lookup nodeId := by
  rw [lookup_nodes_fromSnapshot hother]
  exact same_refilled h (List.perm_insertionSort _ _) nodeId

/-! ### What holds of every registry -/

/-- Nodes and mounts stand under their own identifiers, and the local node is among them. -/
structure Keyed (registry : NodeRegistry) : Prop where
  nodesKeyed : WellKeyed (fun node => node.identity.nodeId) registry.nodes
  localNode : "local" ∈ registry.nodes
  mountsKeyed : WellKeyed WorkspaceMount.workspaceId registry.workspaceMounts

/-- Besides, every mount is on a registered node. -/
structure Wellformed (registry : NodeRegistry) : Prop extends Keyed registry where
  registered : ∀ mount ∈ values registry.workspaceMounts, mount.nodeId ∈ registry.nodes

theorem localNode_fromSnapshot (host : HostInfo) (snapshot : NodeRegistrySnapshot) :
    "local" ∈ (fromSnapshot host snapshot).nodes := by
  obtain ⟨node, hnode, -⟩ := lookup_local_fromSnapshot host snapshot
  rw [← AList.lookup_isSome, hnode]
  rfl

theorem keyed_fromSnapshot (host : HostInfo) (snapshot : NodeRegistrySnapshot) :
    Keyed (fromSnapshot host snapshot) where
  nodesKeyed := nodesKeyed_fromSnapshot host snapshot
  localNode := localNode_fromSnapshot host snapshot
  mountsKeyed := mountsKeyed_fromSnapshot host snapshot

theorem wellformed_unmounted (host : HostInfo) (nodes : List NodeRecord) :
    Wellformed (unmounted host nodes) where
  toKeyed := keyed_fromSnapshot host _
  registered _ hmount := absurd hmount List.not_mem_nil

section Updates

variable {nodeId : NodeId} {change : NodeRecord → NodeRecord} {node : NodeRecord}

theorem Keyed.updateNode (h : Keyed registry)
    (hupdate : registry.updateNode nodeId change = .ok (node, later))
    (hchange : ∀ node, (change node).identity = node.identity) : Keyed later := by
  obtain ⟨old, hold, -, rfl⟩ := updateNode_ok hupdate
  have hkey : (change old).identity.nodeId = nodeId := by
    rw [hchange]
    exact h.nodesKeyed nodeId old hold
  constructor
  · show WellKeyed _ (registry.nodes.insert nodeId (change old))
    rw [← hkey]
    exact h.nodesKeyed.insert
  · exact (AList.mem_insert registry.nodes).mpr (.inr h.localNode)
  · exact h.mountsKeyed

theorem Wellformed.updateNode (h : Wellformed registry)
    (hchange : ∀ node, (change node).identity = node.identity) :
    Wellformed (registry.settle (registry.updateNode nodeId change)) := by
  cases hupdate : registry.updateNode nodeId change with
  | error e => exact h
  | ok updated =>
      obtain ⟨node, later⟩ := updated
      refine ⟨h.toKeyed.updateNode hupdate hchange, fun mount hmount => ?_⟩
      obtain ⟨old, -, -, rfl⟩ := updateNode_ok hupdate
      exact (AList.mem_insert registry.nodes).mpr (.inr (h.registered mount hmount))

end Updates

theorem Attaches.keyed {nodeId : NodeId} {rootPath : String}
    (ha : Attaches registry nodeId rootPath mount later) (h : Keyed registry) : Keyed later := by
  constructor
  · rw [ha.nodes]
    exact h.nodesKeyed
  · rw [ha.nodes]
    exact h.localNode
  · rw [ha.workspaceMounts, ← ha.workspaceId]
    exact h.mountsKeyed.insert

theorem Attaches.wellformed {nodeId : NodeId} {rootPath : String}
    (ha : Attaches registry nodeId rootPath mount later) (h : Wellformed registry) :
    Wellformed later := by
  refine ⟨ha.keyed h.toKeyed, fun other hother => ?_⟩
  obtain ⟨workspaceId, hlookup⟩ := mem_values.mp hother
  rw [ha.workspaceMounts] at hlookup
  rw [ha.nodes]
  by_cases hid : workspaceId = registry.nextWorkspaceMountId
  · rw [hid, AList.lookup_insert] at hlookup
    rw [← Option.some.inj hlookup, ha.nodeId]
    exact ha.registered
  · rw [AList.lookup_insert_ne hid] at hlookup
    exact h.registered other (mem_values.mpr ⟨workspaceId, hlookup⟩)

theorem Wellformed.attach (h : Wellformed registry) (nodeId : NodeId) (rootPath : String)
    (label : Option String) (permissions : WorkspaceMountPermissions) :
    Wellformed (registry.settle
      (registry.attachWorkspaceMount nodeId rootPath label permissions)) := by
  cases hattach : registry.attachWorkspaceMount nodeId rootPath label permissions with
  | error e => exact h
  | ok attached => exact (attachWorkspaceMount_ok hattach).wellformed h

theorem Keyed.resolve (h : Keyed registry) {rootPath : String}
    (hresolve : registry.resolveOrAttachLocalWorkspace rootPath = .ok (mount, later)) :
    Keyed later := by
  rcases registry.resolveOrAttachLocalWorkspace_eq rootPath with ⟨_, -, -, heq⟩ | ⟨-, heq⟩
  · rw [heq] at hresolve
    obtain ⟨-, rfl⟩ := Prod.mk.inj (Except.ok.inj hresolve)
    exact h
  · rw [heq] at hresolve
    exact (attachWorkspaceMount_ok hresolve).keyed h

theorem Wellformed.resolve (h : Wellformed registry) (rootPath : String) :
    Wellformed (registry.settle (registry.resolveOrAttachLocalWorkspace rootPath)) := by
  rcases registry.resolveOrAttachLocalWorkspace_eq rootPath with ⟨_, -, -, heq⟩ | ⟨-, heq⟩
  · rw [heq]
    exact h
  · rw [heq]
    exact h.attach _ _ _ _

theorem Keyed.detach (h : Keyed registry) {workspaceId detachedId : WorkspaceMountId}
    (hdetach : registry.detachWorkspaceMount workspaceId = .ok (detachedId, later)) :
    Keyed later := by
  obtain ⟨-, -, rfl⟩ := detachWorkspaceMount_ok hdetach
  exact ⟨h.nodesKeyed, h.localNode, h.mountsKeyed.erase workspaceId⟩

theorem Wellformed.detach (h : Wellformed registry) (workspaceId : WorkspaceMountId) :
    Wellformed (registry.settle (registry.detachWorkspaceMount workspaceId)) := by
  cases hdetach : registry.detachWorkspaceMount workspaceId with
  | error e => exact h
  | ok detached =>
      obtain ⟨detachedId, later⟩ := detached
      refine ⟨h.toKeyed.detach hdetach, fun mount hmount => ?_⟩
      obtain ⟨-, -, rfl⟩ := detachWorkspaceMount_ok hdetach
      exact h.registered mount (mem_values_of_erase hmount)

theorem Wellformed.restart (h : Wellformed registry) (host : HostInfo) :
    Wellformed (fromSnapshot host registry.snapshot) := by
  refine ⟨keyed_fromSnapshot host _, fun mount hmount => ?_⟩
  obtain ⟨workspaceId, hlookup⟩ := mem_values.mp hmount
  rw [same_mounts_restarted host h.mountsKeyed workspaceId] at hlookup
  have hregistered := h.registered mount (mem_values.mpr ⟨workspaceId, hlookup⟩)
  by_cases hlocal : mount.nodeId = "local"
  · rw [hlocal]
    exact localNode_fromSnapshot host _
  · rw [← AList.lookup_isSome, lookup_nodes_restarted host h.nodesKeyed hlocal,
      AList.lookup_isSome]
    exact hregistered

theorem Wellformed.step (h : Wellformed registry) (call : RegistryCall) :
    Wellformed (registry.step call) := by
  cases call with
  | updatePolicy nodeId policy => exact h.updateNode fun _ => rfl
  | heartbeat nodeId status => exact h.updateNode fun _ => rfl
  | attach nodeId rootPath label permissions => exact h.attach nodeId rootPath label permissions
  | resolve rootPath => exact h.resolve rootPath
  | detach workspaceId => exact h.detach workspaceId
  | restart host => exact h.restart host

/-- What the calls do to the mounts. -/
theorem step_mountChange (h : Wellformed registry) (call : RegistryCall) :
    MountChange registry call (registry.step call) := by
  have hattach : ∀ call nodeId rootPath label permissions,
      (∀ mount, registry.Returns call mount ↔ ∃ later,
        registry.attachWorkspaceMount nodeId rootPath label permissions = .ok (mount, later)) →
      MountChange registry call (registry.settle
        (registry.attachWorkspaceMount nodeId rootPath label permissions)) := by
    intro call nodeId rootPath label permissions hreturns
    cases hattach : registry.attachWorkspaceMount nodeId rootPath label permissions with
    | error e =>
        refine .unchanged (Same.refl _) fun mount hmount => ?_
        obtain ⟨later, hok⟩ := (hreturns mount).mp hmount
        rw [hattach] at hok
        cases hok
    | ok attached =>
        obtain ⟨mount, later⟩ := attached
        have ha := attachWorkspaceMount_ok hattach
        refine .attached mount (fun other => ?_) ?_
        · rw [hreturns other, hattach]
          constructor
          · intro ⟨_, hok⟩
            exact (Prod.mk.inj (Except.ok.inj hok)).1.symm
          · intro hother
            exact ⟨later, by rw [hother]⟩
        · rw [ha.nodeId, ha.rootPath]
          exact ha
  cases call with
  | updatePolicy nodeId policy =>
      exact .unchanged (same_mounts_updateNode nodeId _) fun _ hmount => nomatch hmount
  | heartbeat nodeId status =>
      exact .unchanged (same_mounts_updateNode nodeId _) fun _ hmount => nomatch hmount
  | attach nodeId rootPath label permissions =>
      apply hattach
      intro mount
      constructor
      · intro hmount
        cases hmount with
        | attached h => exact ⟨_, h⟩
      · exact fun ⟨later, h⟩ => .attached h
  | resolve rootPath =>
      show MountChange registry _
        (registry.settle (registry.resolveOrAttachLocalWorkspace rootPath))
      rcases registry.resolveOrAttachLocalWorkspace_eq rootPath with
        ⟨mount, hmem, hlocal, heq⟩ | ⟨hnone, heq⟩
      · rw [heq]
        refine .unchanged (Same.refl _) fun other hother => ?_
        cases hother with
        | found h => exact h
        | resolved hnone => exact absurd ⟨mount, hmem, hlocal⟩ hnone
      · rw [heq]
        apply hattach
        intro mount
        constructor
        · intro hmount
          cases hmount with
          | found hmem hlocal => exact absurd ⟨mount, hmem, hlocal⟩ hnone
          | resolved _ h => exact ⟨_, h⟩
        · exact fun ⟨later, h⟩ => .resolved hnone h
  | detach workspaceId =>
      show MountChange registry _ (registry.settle (registry.detachWorkspaceMount workspaceId))
      cases hdetach : registry.detachWorkspaceMount workspaceId with
      | error e => exact .unchanged (Same.refl _) fun _ hmount => nomatch hmount
      | ok detached =>
          obtain ⟨hmem, -, hlater⟩ := detachWorkspaceMount_ok hdetach
          refine .detached workspaceId rfl hmem ?_
          show detached.2.workspaceMounts = _
          rw [hlater]
  | restart host =>
      exact .unchanged (same_mounts_restarted host h.mountsKeyed) fun _ hmount => nomatch hmount

end NodeRegistry

/-! ### The registry after a restart

A restart fills the registry from its snapshot and then puts the built-in record of the local node
over the one it found, of which only the time of the last heartbeat is kept. The mounts and the
other nodes survive; the policy of the local node survives only if it is the built-in one.
-/

open NodeRegistry

namespace NodeRegistry

/-- The registry that is read back has the same mounts and, for every node, the same policy. -/
def RoundTrips (host : HostInfo) (registry : NodeRegistry) : Prop :=
  Same registry.workspaceMounts (fromSnapshot host registry.snapshot).workspaceMounts ∧
    ∀ nodeId node, registry.nodes.lookup nodeId = some node →
      ∃ back, (fromSnapshot host registry.snapshot).nodes.lookup nodeId = some back ∧
        back.policy = node.policy

/-- The local node has the policy it is built with. -/
def HasBuiltInPolicy (host : HostInfo) (registry : NodeRegistry) : Prop :=
  (registry.nodes.lookup "local").map NodeRecord.policy = some (localNodeRecord host).policy

theorem roundTrips_iff {registry : NodeRegistry} (host : HostInfo) (h : Wellformed registry) :
    RoundTrips host registry ↔ HasBuiltInPolicy host registry := by
  obtain ⟨built, hbuilt, hpolicy⟩ := lookup_local_fromSnapshot host registry.snapshot
  obtain ⟨node, hnode⟩ := Option.isSome_iff_exists.mp (AList.lookup_isSome.mpr h.localNode)
  unfold HasBuiltInPolicy
  rw [hnode, Option.map_some, Option.some_inj]
  constructor
  · intro hback
    obtain ⟨back, hlookup, heq⟩ := hback.2 "local" node hnode
    rw [hbuilt, Option.some_inj] at hlookup
    rw [← heq, ← hlookup, hpolicy]
  · intro hlocal
    refine ⟨same_mounts_restarted host h.mountsKeyed, fun nodeId other hother => ?_⟩
    by_cases hid : nodeId = "local"
    · subst hid
      rw [hnode, Option.some_inj] at hother
      exact ⟨built, hbuilt, by rw [hpolicy, ← hother, hlocal]⟩
    · exact ⟨other, by rw [lookup_nodes_restarted host h.nodesKeyed hid, hother], rfl⟩

end NodeRegistry

/-- Whatever calls have led to a registry, it comes back from its snapshot exactly when the local
node has its built-in policy. -/
theorem registry_round_trips_iff (host later : HostInfo) (nodes : List NodeRecord)
    (calls : List RegistryCall) :
    RoundTrips later (Runs.final NodeRegistry.step (unmounted host nodes) calls) ↔
      HasBuiltInPolicy later (Runs.final NodeRegistry.step (unmounted host nodes) calls) := by
  have hrun : ∀ registry ∈ Runs.states NodeRegistry.step (unmounted host nodes) calls,
      Wellformed registry :=
    Runs.invariant (fun _ call h _ => h.step call) (wellformed_unmounted host nodes)
      (Runs.allSteps_true _ _)
  exact roundTrips_iff later (hrun _ (Runs.final_mem_states _ _))

/-- A policy under which nothing may be reached. -/
def closedPolicy : NodePolicy :=
  { allowedRoots := []
    protectedPaths := ["/"]
    defaultSandbox := .readOnly
    networkPolicy := "deny"
    approvalPolicy := .onRequest }

/-- The owner closes the local node, and the next start opens it again. -/
theorem local_policy_lost_on_restart :
    ¬ ∀ (host later : HostInfo) (nodes : List NodeRecord) (calls : List RegistryCall),
      RoundTrips later (Runs.final NodeRegistry.step (unmounted host nodes) calls) := by
  intro hclaim
  have hlocal := (hclaim { os := "linux", hostname := none } { os := "linux", hostname := none } []
    [.updatePolicy "local" closedPolicy]).2 "local"
    { localNodeRecord { os := "linux", hostname := none } with policy := closedPolicy } rfl
  obtain ⟨back, hback, hpolicy⟩ := hlocal
  obtain rfl : localNodeRecord { os := "linux", hostname := none } = back := Option.some.inj hback
  exact absurd hpolicy (by decide)

end Liz
