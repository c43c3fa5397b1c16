import Liz.Base.Tables
import Liz.Runtime.Basic
import Mathlib.Data.List.Sort

/-!
# The node registry

The nodes the runtime knows and the directories mounted on them. The registry lives in memory and is
written to its file as a whole.
-/

namespace Liz

structure NodeRegistry where
  nodes : Table NodeId NodeRecord
  workspaceMounts : Table WorkspaceMountId WorkspaceMount
  deriving DecidableEq

/-- What the machine says about itself. -/
structure HostInfo where
  os : String
  hostname : Option String
  deriving DecidableEq, Repr

def localNodeRecord (host : HostInfo) : NodeRecord :=
  { identity :=
      { nodeId := "local"
        displayName := "Local device"
        kind := .desktop
        ownerDevice := true }
    status :=
      { online := true
        lastSeenAt := none
        appVersion := some "0.1.0"
        os := some host.os
        hostname := host.hostname }
    capabilities :=
      { workspaceTools := true
        shellTools := true
        browserTools := false
        webUiHost := true
        notifications := false
        maxConcurrentTasks := 1
        supportedSandboxModes := [.workspaceWrite, .dangerFullAccess] }
    policy :=
      { allowedRoots := []
        protectedPaths := []
        defaultSandbox := .workspaceWrite
        networkPolicy := "inherit-local"
        approvalPolicy := .onRequest } }

namespace NodeRegistry

def default (host : HostInfo) : NodeRegistry :=
  { nodes := AList.singleton "local" (localNodeRecord host), workspaceMounts := ∅ }

/-- A map filled from a list: the last record under a key wins. -/
def collect {κ ν : Type} [DecidableEq κ] (key : ν → κ) (values : List ν) : Table κ ν :=
  values.foldl (fun table value => table.insert (key value) value) ∅

/-- Creates a registry from persisted state and refreshes the built-in local node. -/
def fromSnapshot (host : HostInfo) (snapshot : NodeRegistrySnapshot) : NodeRegistry :=
  let nodes := collect (fun node => node.identity.nodeId) snapshot.nodes
  let fresh := localNodeRecord host
  let refreshed := match nodes.lookup fresh.identity.nodeId with
    | some persisted =>
        { fresh with status := { fresh.status with lastSeenAt := persisted.status.lastSeenAt } }
    | none => fresh
  { nodes := nodes.insert refreshed.identity.nodeId refreshed
    workspaceMounts := collect WorkspaceMount.workspaceId snapshot.workspaceMounts }

def values {κ ν : Type} (table : Table κ ν) : List ν := table.entries.map Sigma.snd

/-- Returns a stable snapshot suitable for persistence. -/
def snapshot (registry : NodeRegistry) : NodeRegistrySnapshot :=
  { nodes := (values registry.nodes).insertionSort fun left right =>
      left.identity.nodeId ≤ right.identity.nodeId
    workspaceMounts := (values registry.workspaceMounts).insertionSort fun left right =>
      left.workspaceId ≤ right.workspaceId }

/-- Reads one node record. -/
def readNode (registry : NodeRegistry) (nodeId : NodeId) : Except RuntimeError NodeRecord :=
  match registry.nodes.lookup nodeId with
  | some node => .ok node
  | none => .error (.notFound "node_not_found" "node does not exist")

/-- Changes the record of one registered node. -/
def updateNode (registry : NodeRegistry) (nodeId : NodeId) (change : NodeRecord → NodeRecord) :
    Except RuntimeError (NodeRecord × NodeRegistry) :=
  match registry.nodes.lookup nodeId with
  | some node =>
      .ok (change node, { registry with nodes := registry.nodes.insert nodeId (change node) })
  | none => .error (.notFound "node_not_found" "node does not exist")

/-- Updates the policy for one registered node. -/
def updateNodePolicy (registry : NodeRegistry) (nodeId : NodeId) (policy : NodePolicy) :
    Except RuntimeError (NodeRecord × NodeRegistry) :=
  registry.updateNode nodeId fun node => { node with policy := policy }

/-- Updates node heartbeat state. -/
def updateNodeStatus (registry : NodeRegistry) (nodeId : NodeId) (status : NodeStatus) :
    Except RuntimeError (NodeRecord × NodeRegistry) :=
  registry.updateNode nodeId fun node => { node with status := status }

def readWorkspaceMount (registry : NodeRegistry) (workspaceId : WorkspaceMountId) :
    Except RuntimeError WorkspaceMount :=
  match registry.workspaceMounts.lookup workspaceId with
  | some mount => .ok mount
  | none => .error (.notFound "workspace_mount_not_found" "workspace mount does not exist")

/-- The first free identifier from `index` on; `fuel` bounds how many are tried. -/
def freeWorkspaceMountId (registry : NodeRegistry) : Nat → Nat → WorkspaceMountId
  | 0, index => "workspace_" ++ Nat.repr index
  | fuel + 1, index =>
      let candidate := "workspace_" ++ Nat.repr index
      if candidate ∈ registry.workspaceMounts then freeWorkspaceMountId registry fuel (index + 1)
      else candidate

/-- One more candidate than there are mounts, so one of them is free. -/
def nextWorkspaceMountId (registry : NodeRegistry) : WorkspaceMountId :=
  freeWorkspaceMountId registry registry.workspaceMounts.entries.length
    (registry.workspaceMounts.entries.length + 1)

/-- Attaches a workspace mount to a node. -/
def attachWorkspaceMount (registry : NodeRegistry) (nodeId : NodeId) (rootPath : String)
    (label : Option String) (permissions : WorkspaceMountPermissions) :
    Except RuntimeError (WorkspaceMount × NodeRegistry) :=
  if nodeId ∈ registry.nodes then
    let mount : WorkspaceMount :=
      { workspaceId := registry.nextWorkspaceMountId
        nodeId := nodeId
        rootPath := rootPath
        label := label.getD rootPath
        permissions := permissions }
    .ok (mount, { registry with
      workspaceMounts := registry.workspaceMounts.insert mount.workspaceId mount })
  else .error (.notFound "node_not_found" "node does not exist")

/-- Resolves a local path to a stable workspace mount, attaching it when needed. -/
def resolveOrAttachLocalWorkspace (registry : NodeRegistry) (rootPath : String) :
    Except RuntimeError (WorkspaceMount × NodeRegistry) :=
  match (values registry.workspaceMounts).find? fun mount =>
      mount.nodeId == "local" && mount.rootPath == rootPath with
  | some existing => .ok (existing, registry)
  | none =>
      registry.attachWorkspaceMount "local" rootPath none { read := true, write := true, shell := true }

/-- Detaches a workspace mount. -/
def detachWorkspaceMount (registry : NodeRegistry) (workspaceId : WorkspaceMountId) :
    Except RuntimeError (WorkspaceMountId × NodeRegistry) :=
  if workspaceId ∈ registry.workspaceMounts then
    .ok (workspaceId, { registry with
      workspaceMounts := registry.workspaceMounts.erase workspaceId })
  else .error (.notFound "workspace_mount_not_found" "workspace mount does not exist")

end NodeRegistry

end Liz
