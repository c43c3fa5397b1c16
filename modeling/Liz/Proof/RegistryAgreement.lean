import Liz.Proof.RegistryRuns
import Liz.Runtime.Coordinator
import Liz.Runtime.ThreadManager

/-!
# The registry in memory and on disk

Every change of the registry is made in memory first and then written out. When the write fails the
change stays, and the server and its next start no longer agree on what is mounted and under which
policies; when the write is torn the next start finds nothing. This file says for each operation
exactly when neither happens.
-/

namespace Liz

open Program Tables NodeRegistry

/-! ### Agreement -/

/-- The registry a start makes of the registry file. -/
def restartedRegistry (host : HostInfo) : Option (JsonFile NodeRegistrySnapshot) → NodeRegistry
  | none => .fromSnapshot host { nodes := [], workspaceMounts := [] }
  | some (.intact snapshot) => .fromSnapshot host snapshot
  | some (.corrupt _) => .default host

/-- The same mounts, and the same policies of all nodes but the local one. -/
structure NodeRegistry.Agree (registry other : NodeRegistry) : Prop where
  mounts : Same registry.workspaceMounts other.workspaceMounts
  policies : ∀ nodeId, nodeId ≠ "local" →
    (other.nodes.lookup nodeId).map NodeRecord.policy =
      (registry.nodes.lookup nodeId).map NodeRecord.policy

/-- The running server and one that is started now agree. -/
def RuntimeCoordinator.Agrees (host : HostInfo) (coordinator : RuntimeCoordinator) : Prop :=
  coordinator.nodeRegistry.Agree (restartedRegistry host coordinator.stores.nodeRegistry)

/-- The registries answer alike. -/
structure NodeRegistry.SameRegistry (registry later : NodeRegistry) : Prop where
  nodes : Same registry.nodes later.nodes
  mounts : Same registry.workspaceMounts later.workspaceMounts

/-- Nothing is mounted and no node is registered but the local one. -/
def NodeRegistry.Bare (registry : NodeRegistry) : Prop :=
  registry.workspaceMounts.entries = [] ∧ ∀ nodeId ∈ registry.nodes, nodeId = "local"

namespace NodeRegistry

variable {registry later other : NodeRegistry}

theorem Agree.of_same (h : Agree registry other) (hsame : SameRegistry registry later) :
    Agree later other where
  mounts := hsame.mounts.symm.trans h.mounts
  policies nodeId hid := by rw [h.policies nodeId hid, hsame.nodes nodeId]

theorem agree_restarted (host : HostInfo) (h : Keyed registry) :
    Agree registry (restartedRegistry host (some (.intact registry.snapshot))) where
  mounts := same_mounts_restarted host h.mountsKeyed
  policies _ hid := congrArg _ (lookup_nodes_restarted host h.nodesKeyed hid)

theorem Bare.of_same (h : registry.Bare) (hsame : SameRegistry registry later) : later.Bare where
  left := by
    have hperm := hsame.mounts.perm
    rw [h.1] at hperm
    exact List.perm_nil.mp hperm
  right nodeId hmem := h.2 nodeId ((hsame.nodes.mem_iff nodeId).mp hmem)

theorem SameRegistry.symm (h : SameRegistry registry later) : SameRegistry later registry :=
  ⟨h.nodes.symm, h.mounts.symm⟩

/-- A start that finds nothing agrees with a registry that has nothing to lose. -/
theorem agree_default_iff (host : HostInfo) : Agree registry (.default host) ↔ registry.Bare := by
  have hother : ∀ nodeId, nodeId ≠ "local" → (NodeRegistry.default host).nodes.lookup nodeId = none := by
    intro nodeId hid
    apply AList.lookup_eq_none.mpr
    rw [AList.mem_keys]
    show nodeId ∉ ["local"]
    simpa using hid
  constructor
  · intro h
    refine ⟨List.perm_nil.mp h.mounts.perm.symm, fun nodeId hmem => ?_⟩
    by_contra hid
    have hpolicy := h.policies nodeId hid
    rw [hother nodeId hid, Option.map_none, eq_comm, Option.map_eq_none_iff,
      AList.lookup_eq_none] at hpolicy
    exact hpolicy hmem
  · intro ⟨hmounts, hnodes⟩
    constructor
    · intro workspaceId
      have hnone : registry.workspaceMounts = ∅ := AList.ext hmounts
      rw [hnone]
      rfl
    · intro nodeId hid
      rw [hother nodeId hid, AList.lookup_eq_none.mpr fun hmem => hid (hnodes nodeId hmem)]

end NodeRegistry

/-! ### The operations -/

inductive RegistryOperation
  | updateNodePolicy (nodeId : NodeId) (policy : NodePolicy)
  | heartbeatNode (nodeId : NodeId) (status : NodeStatus)
  | attachWorkspaceMount (nodeId : NodeId) (rootPath : String) (label : Option String)
      (permissions : WorkspaceMountPermissions)
  | detachWorkspaceMount (workspaceId : WorkspaceMountId)
  | startThread (request : ThreadStartRequest)

/-- The registry that a change leads to, when it succeeds. -/
def NodeRegistry.changed {α : Type} :
    Except RuntimeError (α × NodeRegistry) → Option NodeRegistry
  | .ok (_, later) => some later
  | .error _ => none

namespace RegistryOperation

/-- The registry that an operation puts in memory and writes out; a thread that names its mount, or
no directory, leaves the registry alone. -/
def change (registry : NodeRegistry) : RegistryOperation → Option NodeRegistry
  | updateNodePolicy nodeId policy => changed (registry.updateNodePolicy nodeId policy)
  | heartbeatNode nodeId status => changed (registry.updateNodeStatus nodeId status)
  | attachWorkspaceMount nodeId rootPath label permissions =>
      changed (registry.attachWorkspaceMount nodeId rootPath label permissions)
  | detachWorkspaceMount workspaceId => changed (registry.detachWorkspaceMount workspaceId)
  | startThread request =>
      match request.workspaceMountId, request.workspaceRef with
      | none, some workspaceRef =>
          if Text.isBlank workspaceRef then none
          else changed (registry.resolveOrAttachLocalWorkspace workspaceRef)
      | _, _ => none

/-- The operation goes on once the registry is written. -/
def StartsThread : RegistryOperation → Prop
  | startThread _ => True
  | _ => False

theorem change_keyed {registry later : NodeRegistry} (h : Keyed registry)
    {operation : RegistryOperation} (hchange : operation.change registry = some later) :
    Keyed later := by
  have hok : ∀ {α : Type} {changes : Except RuntimeError (α × NodeRegistry)},
      changed changes = some later → ∃ value, changes = .ok (value, later) := by
    intro α changes heq
    cases changes with
    | error e => cases heq
    | ok updated => exact ⟨updated.1, by rw [← Option.some.inj heq]⟩
  cases operation with
  | updateNodePolicy nodeId policy =>
      obtain ⟨node, hupdate⟩ := hok hchange
      unfold NodeRegistry.updateNodePolicy at hupdate
      exact h.updateNode hupdate fun _ => rfl
  | heartbeatNode nodeId status =>
      obtain ⟨node, hupdate⟩ := hok hchange
      unfold NodeRegistry.updateNodeStatus at hupdate
      exact h.updateNode hupdate fun _ => rfl
  | attachWorkspaceMount nodeId rootPath label permissions =>
      obtain ⟨mount, hattach⟩ := hok hchange
      exact (attachWorkspaceMount_ok hattach).keyed h
  | detachWorkspaceMount workspaceId =>
      obtain ⟨detachedId, hdetach⟩ := hok hchange
      exact h.detach hdetach
  | startThread request =>
      unfold change at hchange
      dsimp only at hchange
      split at hchange
      · split at hchange
        · cases hchange
        · obtain ⟨mount, hresolve⟩ := hok hchange
          exact h.resolve hresolve
      · cases hchange

variable [Disk] [Clock]

def run : RegistryOperation → RuntimeM Unit
  | updateNodePolicy nodeId policy => do
      let _ ← RuntimeCoordinator.updateNodePolicy nodeId policy
  | heartbeatNode nodeId status => do
      let _ ← RuntimeCoordinator.heartbeatNode nodeId status
  | attachWorkspaceMount nodeId rootPath label permissions => do
      let _ ← RuntimeCoordinator.attachWorkspaceMount nodeId rootPath label permissions
  | detachWorkspaceMount workspaceId => do
      let _ ← RuntimeCoordinator.detachWorkspaceMount workspaceId
  | startThread request => do
      let _ ← RuntimeCoordinator.startThread request

def step (coordinator : RuntimeCoordinator) (operation : RegistryOperation) : RuntimeCoordinator :=
  after operation.run coordinator

/-- An operation that fails for storage leaves the registry as it was. -/
def Atomic (coordinator : RuntimeCoordinator) (operation : RegistryOperation) : Prop :=
  ∀ error, outcome operation.run coordinator = .error (.storage error) →
    SameRegistry coordinator.nodeRegistry (step coordinator operation).nodeRegistry

/-- The record of a thread is written, and the memory file read and written, by these three
operations. -/
def RecordsThread (stores : RuntimeStores) (operations : Nat) : Prop :=
  Disk.fault operations = none ∧ Disk.fault (operations + 1) = none ∧
    (storedMemory stores).isSome ∧ Disk.fault (operations + 2) = none

/-- After the change some write or read fails. -/
def FailsLate (coordinator : RuntimeCoordinator) (operation : RegistryOperation) : Prop :=
  Disk.fault coordinator.stores.operations ≠ none ∨
    operation.StartsThread ∧
      ¬ RecordsThread coordinator.stores (coordinator.stores.operations + 1)

/-- The disk gives up in the middle of the write. -/
def Tears : Fault → Prop
  | .refused _ => False
  | .torn _ => True
  | .unterminated _ => True

/-- The operation changes nothing, or nothing fails after its change; and a torn write of the
registry finds nothing to lose. -/
def KeepsAgreement (coordinator : RuntimeCoordinator) (operation : RegistryOperation) : Prop :=
  ∀ later, operation.change coordinator.nodeRegistry = some later →
    (FailsLate coordinator operation → SameRegistry coordinator.nodeRegistry later) ∧
      ∀ fault, Disk.fault coordinator.stores.operations = some fault → Tears fault →
        coordinator.nodeRegistry.Bare

/-- The registry file after the operation. -/
def fileAfter (coordinator : RuntimeCoordinator) (operation : RegistryOperation) :
    Option (JsonFile NodeRegistrySnapshot) :=
  match operation.change coordinator.nodeRegistry with
  | none => coordinator.stores.nodeRegistry
  | some later =>
      (writtenFile later.snapshot (Disk.fault coordinator.stores.operations)).or
        coordinator.stores.nodeRegistry

/-- What an operation does to the registry and its file. -/
structure Does (coordinator : RuntimeCoordinator) (operation : RegistryOperation)
    (t : RuntimeCoordinator) : Prop where
  registry : t.nodeRegistry =
    (operation.change coordinator.nodeRegistry).getD coordinator.nodeRegistry
  file : t.stores.nodeRegistry = fileAfter coordinator operation

end RegistryOperation

/-! ### What the operations do -/

section Rules

variable [Disk] {α : Type} {Q : α → RuntimeCoordinator → Prop}
  {E : RuntimeError → RuntimeCoordinator → Prop} {coordinator : RuntimeCoordinator}

omit [Disk] in
@[simp] theorem wp_liftExcept (value : Except RuntimeError α) :
    wp (liftExcept value) Q E coordinator ↔
      (∀ a, value = .ok a → Q a coordinator) ∧ ∀ e, value = .error e → E e coordinator := by
  cases value with
  | ok a => simp [liftExcept]
  | error e => simp [liftExcept]

/-- The coordinator after its registry has been changed and written out. -/
def RuntimeCoordinator.registryWritten (coordinator : RuntimeCoordinator) (later : NodeRegistry)
    (fault : Option Fault) : RuntimeCoordinator :=
  { coordinator with
    nodeRegistry := later
    stores := { coordinator.stores with
      nodeRegistry := (writtenFile later.snapshot fault).or coordinator.stores.nodeRegistry }.tick }

theorem wp_persistNodeRegistry {Q : Unit → RuntimeCoordinator → Prop} (later : NodeRegistry)
    (hok : Disk.fault coordinator.stores.operations = none →
      Q () (coordinator.registryWritten later none))
    (hfailed : ∀ fault, Disk.fault coordinator.stores.operations = some fault →
      E (.storage (.io fault.message)) (coordinator.registryWritten later (some fault))) :
    wp RuntimeCoordinator.persistNodeRegistry Q E { coordinator with nodeRegistry := later } := by
  unfold RuntimeCoordinator.persistNodeRegistry RuntimeStores.writeNodeRegistry writeJson
  rw [wp_bind, wp_get, wp_onTurns, wp_stored, wp_effect]
  constructor
  · exact hok
  · intro fault hfault
    have hafter := hfailed fault hfault
    cases fault with
    | refused message => exact hafter
    | torn message => exact hafter
    | unterminated message => exact hafter

theorem wp_changeNodeRegistry {change : NodeRegistry → Except RuntimeError (α × NodeRegistry)}
    (hrefused : ∀ e, change coordinator.nodeRegistry = .error e → E e coordinator)
    (hok : ∀ value later, change coordinator.nodeRegistry = .ok (value, later) →
      Disk.fault coordinator.stores.operations = none →
        Q value (coordinator.registryWritten later none))
    (hfailed : ∀ value later, change coordinator.nodeRegistry = .ok (value, later) →
      ∀ fault, Disk.fault coordinator.stores.operations = some fault →
        E (.storage (.io fault.message)) (coordinator.registryWritten later (some fault))) :
    wp (RuntimeCoordinator.changeNodeRegistry change) Q E coordinator := by
  unfold RuntimeCoordinator.changeNodeRegistry
  rw [wp_bind, wp_get, wp_bind, wp_liftExcept]
  refine ⟨fun changed hchanged => ?_, hrefused⟩
  rw [wp_bind, wp_modify, wp_bind]
  exact wp_persistNodeRegistry changed.2 (hok changed.1 changed.2 hchanged)
    (hfailed changed.1 changed.2 hchanged)

end Rules

namespace RegistryOperation

variable [Disk] [Clock] {coordinator : RuntimeCoordinator}

/-- What one operation does, and when the change it makes is followed by a failure. -/
def Meets (operation : RegistryOperation) (coordinator : RuntimeCoordinator) : Prop :=
  wp operation.run
    (fun _ t => Does coordinator operation t ∧
      (operation.change coordinator.nodeRegistry ≠ none → ¬ FailsLate coordinator operation))
    (fun e t => Does coordinator operation t ∧
      (operation.change coordinator.nodeRegistry ≠ none →
        FailsLate coordinator operation ∧ ∃ error, e = .storage error)) coordinator

omit [Clock] in
theorem does_of_refused {operation : RegistryOperation}
    (h : operation.change coordinator.nodeRegistry = none) :
    Does coordinator operation coordinator where
  registry := by
    rw [h]
    rfl
  file := by
    unfold fileAfter
    rw [h]

omit [Clock] in
theorem does_of_written {operation : RegistryOperation} {later : NodeRegistry}
    (h : operation.change coordinator.nodeRegistry = some later) {fault : Option Fault}
    (hfault : Disk.fault coordinator.stores.operations = fault) :
    Does coordinator operation (coordinator.registryWritten later fault) where
  registry := by
    rw [h]
    rfl
  file := by
    unfold fileAfter
    rw [h, ← hfault]
    rfl

omit [Clock] in
/-- An operation that is one change of the registry. -/
theorem meets_of_change {operation : RegistryOperation} {α : Type}
    {changes : NodeRegistry → Except RuntimeError (α × NodeRegistry)}
    (hchange : operation.change coordinator.nodeRegistry = changed (changes coordinator.nodeRegistry))
    (hends : ¬ operation.StartsThread) :
    wp (RuntimeCoordinator.changeNodeRegistry changes)
      (fun _ t => Does coordinator operation t ∧
        (operation.change coordinator.nodeRegistry ≠ none → ¬ FailsLate coordinator operation))
      (fun e t => Does coordinator operation t ∧
        (operation.change coordinator.nodeRegistry ≠ none →
          FailsLate coordinator operation ∧ ∃ error, e = .storage error)) coordinator := by
  apply wp_changeNodeRegistry
  · intro e he
    rw [he] at hchange
    exact ⟨does_of_refused hchange, fun hsome => absurd hchange hsome⟩
  · intro value later hok hfault
    rw [hok] at hchange
    refine ⟨does_of_written hchange hfault, fun _ hlate => ?_⟩
    rcases hlate with hfaulty | ⟨hstarts, -⟩
    · exact hfaulty hfault
    · exact hends hstarts
  · intro value later hok fault hfault
    rw [hok] at hchange
    exact ⟨does_of_written hchange hfault,
      fun _ => ⟨.inl (by rw [hfault]; exact Option.some_ne_none fault), _, rfl⟩⟩

/-- The rest of a thread start does not touch the registry, and fails only for storage. -/
theorem wp_startThread_records {request : ThreadStartRequest} {runtime : TurnRuntime}
    {Q : Thread → TurnRuntime → Prop} {E : RuntimeError → TurnRuntime → Prop}
    (hok : RecordsThread runtime.stores runtime.stores.operations → ∀ thread t,
      t.stores.nodeRegistry = runtime.stores.nodeRegistry → Q thread t)
    (hfailed : ¬ RecordsThread runtime.stores runtime.stores.operations → ∀ error t,
      t.stores.nodeRegistry = runtime.stores.nodeRegistry → E (.storage error) t) :
    wp (Liz.startThread request) Q E runtime := by
  unfold Liz.startThread
  rw [wp_bind, wp_drawn, wp_bind, wp_drawn, wp_bind, wp_stored, wp_putThread]
  constructor
  · intro hwritten
    rw [wp_bind]
    unfold syncActiveThreadIds RuntimeStores.readGlobalMemory
    rw [wp_bind, wp_stored, wp_map, wp_readJson]
    constructor
    · intro value hvalue
      have hread : Disk.fault (runtime.stores.operations + 1) = none ∧
          (storedMemory runtime.stores).isSome := by
        change readOutcome (Disk.fault (runtime.stores.operations + 1))
          runtime.stores.globalMemory = .ok value at hvalue
        unfold storedMemory
        cases hfault : Disk.fault (runtime.stores.operations + 1) with
        | some fault => simp [readOutcome, hfault] at hvalue
        | none =>
            rw [hfault] at hvalue
            generalize runtime.stores.globalMemory = file at hvalue
            rcases file with _ | ⟨snapshot⟩ | message
            · simp
            · simp
            · simp [readOutcome] at hvalue
      unfold RuntimeStores.writeGlobalMemory writeJson
      rw [wp_stored, wp_effect]
      constructor
      · intro hmemory
        exact hok ⟨hwritten, hread.1, hread.2, hmemory⟩ _ _ rfl
      · intro fault hfault
        change Disk.fault (runtime.stores.operations + 2) = some fault at hfault
        apply hfailed
        · intro hrecords
          rw [hrecords.2.2.2] at hfault
          cases hfault
        · cases fault with
          | refused message => rfl
          | torn message => rfl
          | unterminated message => rfl
    · intro error herror
      change readOutcome (Disk.fault (runtime.stores.operations + 1))
        runtime.stores.globalMemory = .error error at herror
      refine hfailed (fun hrecords => ?_) _ _ rfl
      have hmemory := hrecords.2.2.1
      rw [hrecords.2.1] at herror
      unfold storedMemory at hmemory
      generalize runtime.stores.globalMemory = file at herror hmemory
      rcases file with _ | ⟨snapshot⟩ | message
      · simp [readOutcome] at herror
      · simp [readOutcome] at herror
      · simp at hmemory
  · intro fault hfault
    apply hfailed
    · intro hrecords
      rw [hrecords.1] at hfault
      cases hfault
    · cases fault with
      | refused message => rfl
      | torn message => rfl
      | unterminated message => rfl

omit [Clock] in
theorem wp_resolveThreadWorkspaceMount {request : ThreadStartRequest}
    {Q : ThreadStartRequest → RuntimeCoordinator → Prop} {E : RuntimeError → RuntimeCoordinator → Prop}
    (hkept : change coordinator.nodeRegistry (.startThread request) = none →
      (∀ resolved, Q resolved coordinator) ∧ ∀ e, E e coordinator)
    (hok : ∀ later, change coordinator.nodeRegistry (.startThread request) = some later →
      Disk.fault coordinator.stores.operations = none →
        ∀ resolved, Q resolved (coordinator.registryWritten later none))
    (hfailed : ∀ later, change coordinator.nodeRegistry (.startThread request) = some later →
      ∀ fault, Disk.fault coordinator.stores.operations = some fault →
        E (.storage (.io fault.message)) (coordinator.registryWritten later (some fault))) :
    wp (RuntimeCoordinator.resolveThreadWorkspaceMount request) Q E coordinator := by
  unfold RuntimeCoordinator.resolveThreadWorkspaceMount
  unfold change at hkept hok hfailed
  dsimp only at hkept hok hfailed
  cases hid : request.workspaceMountId with
  | some workspaceMountId =>
      rw [hid] at hkept
      cases hdirectory : request.workspaceRef with
      | none =>
          dsimp only
          rw [wp_bind, wp_get, wp_bind, wp_liftExcept]
          exact ⟨fun mount _ => (hkept rfl).1 _, fun e _ => (hkept rfl).2 e⟩
      | some workspaceRef => exact (hkept rfl).1 _
  | none =>
      rw [hid] at hkept hok hfailed
      cases hdirectory : request.workspaceRef with
      | none =>
          rw [hdirectory] at hkept
          exact (hkept rfl).1 _
      | some workspaceRef =>
          rw [hdirectory] at hkept hok hfailed
          dsimp only at hkept hok hfailed ⊢
          split
          next hblank =>
            rw [if_pos hblank] at hkept
            exact (hkept rfl).1 _
          next hblank =>
            rw [if_neg hblank] at hkept hok hfailed
            rw [wp_bind, wp_get, wp_bind, wp_liftExcept]
            constructor
            · intro resolved hresolved
              rw [hresolved] at hok hfailed
              rw [wp_bind, wp_modify, wp_bind]
              exact wp_persistNodeRegistry resolved.2 (fun hfault => hok _ rfl hfault _)
                (hfailed _ rfl)
            · intro e he
              rw [he] at hkept
              exact (hkept rfl).2 e

/-- The operations are as described. -/
theorem meets (operation : RegistryOperation) (coordinator : RuntimeCoordinator) :
    operation.Meets coordinator := by
  unfold Meets
  cases operation with
  | updateNodePolicy nodeId policy =>
      show wp (_ >>= fun _ => pure ()) _ _ _
      rw [wp_bind]
      apply meets_of_change rfl
      exact id
  | attachWorkspaceMount nodeId rootPath label permissions =>
      show wp (_ >>= fun _ => pure ()) _ _ _
      rw [wp_bind]
      apply meets_of_change rfl
      exact id
  | detachWorkspaceMount workspaceId =>
      show wp (_ >>= fun _ => pure ()) _ _ _
      rw [wp_bind]
      apply meets_of_change rfl
      exact id
  | heartbeatNode nodeId status =>
      show wp (RuntimeCoordinator.heartbeatNode nodeId status >>= fun _ => pure ()) _ _ _
      rw [wp_bind]
      unfold RuntimeCoordinator.heartbeatNode
      rw [wp_bind, wp_get, wp_bind, wp_liftExcept]
      constructor
      · intro node _
        rw [wp_bind]
        apply meets_of_change rfl
        exact id
      · intro e he
        have hnone : change coordinator.nodeRegistry (.heartbeatNode nodeId status) = none := by
          unfold NodeRegistry.readNode at he
          show changed (coordinator.nodeRegistry.updateNode nodeId _) = none
          unfold NodeRegistry.updateNode
          cases hlookup : coordinator.nodeRegistry.nodes.lookup nodeId with
          | none => rfl
          | some node =>
              rw [hlookup] at he
              cases he
        exact ⟨does_of_refused hnone, fun hsome => absurd hnone hsome⟩
  | startThread request =>
      show wp (RuntimeCoordinator.startThread request >>= fun _ => pure ()) _ _ _
      rw [wp_bind]
      unfold RuntimeCoordinator.startThread
      rw [wp_bind]
      apply wp_resolveThreadWorkspaceMount
      · intro hnone
        refine ⟨fun resolved => ?_, fun e =>
          ⟨does_of_refused hnone, fun hsome => absurd hnone hsome⟩⟩
        rw [wp_onTurns]
        apply wp_startThread_records
        · intro _ thread t ht
          exact ⟨⟨(does_of_refused hnone).registry, ht.trans (does_of_refused hnone).file⟩,
            fun hsome => absurd hnone hsome⟩
        · intro _ error t ht
          exact ⟨⟨(does_of_refused hnone).registry, ht.trans (does_of_refused hnone).file⟩,
            fun hsome => absurd hnone hsome⟩
      · intro later hlater hfault resolved
        have hdoes := does_of_written hlater hfault
        rw [wp_onTurns]
        apply wp_startThread_records
        · intro hrecords thread t ht
          refine ⟨⟨hdoes.registry, ht.trans hdoes.file⟩, fun _ hlate => ?_⟩
          rcases hlate with hfaulty | ⟨-, hlost⟩
          · exact hfaulty hfault
          · exact hlost hrecords
        · intro hlost error t ht
          exact ⟨⟨hdoes.registry, ht.trans hdoes.file⟩,
            fun _ => ⟨.inr ⟨trivial, hlost⟩, error, rfl⟩⟩
      · intro later hlater fault hfault
        exact ⟨does_of_written hlater hfault,
          fun _ => ⟨.inl (by rw [hfault]; exact Option.some_ne_none fault), _, rfl⟩⟩

theorem does_step (coordinator : RuntimeCoordinator) (operation : RegistryOperation) :
    Does coordinator operation (step coordinator operation) :=
  wp_after.mp (wp_mono (meets operation coordinator) (fun _ _ h => h.1) fun _ _ h => h.1)

/-- An operation that changes the registry is atomic unless something fails after the change. -/
theorem atomic_iff {operation : RegistryOperation} {later : NodeRegistry}
    (h : operation.change coordinator.nodeRegistry = some later) :
    Atomic coordinator operation ↔
      (FailsLate coordinator operation → SameRegistry coordinator.nodeRegistry later) := by
  have hregistry : (step coordinator operation).nodeRegistry = later := by
    rw [(does_step coordinator operation).registry, h]
    rfl
  have hsome : operation.change coordinator.nodeRegistry ≠ none := by
    rw [h]
    exact Option.some_ne_none later
  have hmeets := meets operation coordinator
  unfold Meets wp at hmeets
  unfold Atomic outcome
  rw [hregistry]
  cases hrun : operation.run coordinator with
  | ok value t =>
      rw [hrun] at hmeets
      exact iff_of_true (fun _ herror => nomatch herror) fun hlate => absurd hlate (hmeets.2 hsome)
  | error e t =>
      rw [hrun] at hmeets
      obtain ⟨hlate, error, rfl⟩ := hmeets.2 hsome
      exact ⟨fun hatomic _ => hatomic error rfl, fun hsame _ _ => hsame hlate⟩

theorem step_iff {host : HostInfo} (hkeyed : Keyed coordinator.nodeRegistry)
    (hagrees : coordinator.Agrees host) (operation : RegistryOperation) :
    (step coordinator operation).Agrees host ∧ Atomic coordinator operation ↔
      KeepsAgreement coordinator operation := by
  have hdoes := does_step coordinator operation
  have hregistry := hdoes.registry
  have hfile := hdoes.file
  unfold KeepsAgreement
  unfold fileAfter at hfile
  cases hchange : operation.change coordinator.nodeRegistry with
  | none =>
      rw [hchange] at hregistry hfile
      apply iff_of_true
      · constructor
        · unfold RuntimeCoordinator.Agrees
          rw [hregistry, hfile]
          exact hagrees
        · intro _ _
          rw [hregistry]
          exact ⟨Same.refl _, Same.refl _⟩
      · exact fun _ hlater => nomatch hlater
  | some later =>
      rw [hchange] at hregistry hfile
      rw [atomic_iff hchange]
      simp only [Option.some_inj, forall_eq']
      rw [and_comm]
      apply and_congr_right
      intro hsame
      have hfails : ∀ fault, Disk.fault coordinator.stores.operations = some fault →
          SameRegistry coordinator.nodeRegistry later := by
        intro fault hfault
        apply hsame
        exact .inl (by rw [hfault]; exact Option.some_ne_none fault)
      unfold RuntimeCoordinator.Agrees
      rw [hregistry, hfile]
      show Agree later _ ↔ _
      cases hfault : Disk.fault coordinator.stores.operations with
      | none =>
          apply iff_of_true
          · exact agree_restarted host (change_keyed hkeyed hchange)
          · exact fun _ hno => nomatch hno
      | some fault =>
          have hkept := hfails fault hfault
          have hlost : Agree later (.default host) ↔ coordinator.nodeRegistry.Bare := by
            rw [agree_default_iff]
            exact ⟨fun h => h.of_same hkept.symm, fun h => h.of_same hkept⟩
          simp only [Option.some_inj, forall_eq']
          cases fault with
          | refused message =>
              exact iff_of_true (hagrees.of_same hkept) fun htears => htears.elim
          | torn message => exact ⟨fun h _ => hlost.mp h, fun h => hlost.mpr (h trivial)⟩
          | unterminated message => exact ⟨fun h _ => hlost.mp h, fun h => hlost.mpr (h trivial)⟩

theorem keyed_step (h : Keyed coordinator.nodeRegistry) (operation : RegistryOperation) :
    Keyed (step coordinator operation).nodeRegistry := by
  rw [(does_step coordinator operation).registry]
  cases hchange : operation.change coordinator.nodeRegistry with
  | none => exact h
  | some later => exact change_keyed h hchange

end RegistryOperation

theorem default_eq (host : HostInfo) :
    NodeRegistry.default host = .fromSnapshot host { nodes := [], workspaceMounts := [] } := rfl

theorem keyed_restartedRegistry (host : HostInfo) (file : Option (JsonFile NodeRegistrySnapshot)) :
    Keyed (restartedRegistry host file) := by
  rcases file with _ | ⟨snapshot⟩ | message
  · exact keyed_fromSnapshot host { nodes := [], workspaceMounts := [] }
  · exact keyed_fromSnapshot host snapshot
  · show Keyed (NodeRegistry.default host)
    rw [default_eq]
    exact keyed_fromSnapshot host _

/-- A server that could look at its registry file starts with what the file holds. -/
theorem nodeRegistry_new [Disk] (host : HostInfo) {stores : RuntimeStores}
    (hread : Disk.fault stores.operations = none) :
    (RuntimeCoordinator.new host stores).nodeRegistry = restartedRegistry host stores.nodeRegistry ∧
      (RuntimeCoordinator.new host stores).stores.nodeRegistry = stores.nodeRegistry := by
  have hrun : RuntimeStores.readNodeRegistry stores =
      match readOutcome none stores.nodeRegistry with
      | .ok snapshot => .ok (snapshot.getD ⟨[], []⟩) stores.tick
      | .error error => .error error stores.tick := by
    unfold RuntimeStores.readNodeRegistry readJson operation
    rw [← hread]
    show EStateM.map _ _ stores = _
    unfold EStateM.map
    dsimp only
    cases readOutcome (Disk.fault stores.operations) stores.nodeRegistry <;> rfl
  unfold RuntimeCoordinator.new
  rw [hrun]
  cases hfile : stores.nodeRegistry with
  | none => exact ⟨rfl, hfile⟩
  | some file =>
      cases file with
      | intact snapshot => exact ⟨rfl, hfile⟩
      | corrupt message => exact ⟨rfl, hfile⟩

open RegistryOperation

/-- Along every run the server and its next start agree, and every operation that fails for storage
leaves the registry as it was, exactly when every operation changes nothing or gets through to its
end, and no torn write finds something to lose. -/
theorem registry_agrees_iff [Disk] [Clock] (host : HostInfo) (stores : RuntimeStores)
    (operations : List RegistryOperation) (hread : Disk.fault stores.operations = none) :
    ((∀ coordinator ∈ Runs.states RegistryOperation.step (.new host stores) operations,
        coordinator.Agrees host) ∧
      Runs.AllSteps RegistryOperation.step Atomic (.new host stores) operations) ↔
    Runs.AllSteps RegistryOperation.step KeepsAgreement (.new host stores) operations := by
  obtain ⟨hregistry, hfile⟩ := nodeRegistry_new host hread
  apply Runs.invariant_and_iff (fun coordinator operation h => keyed_step h operation)
    (fun coordinator operation h hagrees => step_iff h hagrees operation)
  · rw [hregistry]
    exact keyed_restartedRegistry host stores.nodeRegistry
  · unfold RuntimeCoordinator.Agrees
    rw [hregistry, hfile]
    exact ⟨Same.refl _, fun _ _ => rfl⟩

def mountWorkspace (rootPath : String) : RegistryOperation :=
  .attachWorkspaceMount "local" rootPath none { read := true, write := true, shell := true }

/-- On a disk that works a mount is attached. -/
theorem registry_agrees_on_calm_disk :
    Runs.AllSteps (@RegistryOperation.step calmDisk stoppedClock)
        (@KeepsAgreement calmDisk)
        (@RuntimeCoordinator.new calmDisk { os := "linux", hostname := none } .blank)
        [mountWorkspace "/srv/a"] ∧
      ∀ coordinator ∈ Runs.states (@RegistryOperation.step calmDisk stoppedClock)
        (@RuntimeCoordinator.new calmDisk { os := "linux", hostname := none } .blank)
        [mountWorkspace "/srv/a"], coordinator.Agrees { os := "linux", hostname := none } := by
  have hkeeps : Runs.AllSteps (@RegistryOperation.step calmDisk stoppedClock)
      (@KeepsAgreement calmDisk)
      (@RuntimeCoordinator.new calmDisk { os := "linux", hostname := none } .blank)
      [mountWorkspace "/srv/a"] := by
    refine ⟨fun later _ => ⟨fun hlate => ?_, fun _ hfault => nomatch hfault⟩, trivial⟩
    rcases hlate with hfaulty | ⟨hstarts, -⟩
    · exact absurd rfl hfaulty
    · exact hstarts.elim
  exact ⟨hkeeps, ((@registry_agrees_iff calmDisk stoppedClock { os := "linux", hostname := none }
    .blank [mountWorkspace "/srv/a"] rfl).mpr hkeeps).1⟩

/-- The disk is full when the first mount is written: the server has it, and its next start has
not. -/
theorem mount_kept_when_disk_is_full :
    ¬ ∀ (disk : Disk) (clock : Clock) (coordinator : RuntimeCoordinator)
      (operation : RegistryOperation), @Atomic disk clock coordinator operation := by
  intro hclaim
  have hatomic := hclaim (diskFullAt 1) stoppedClock
    (@RuntimeCoordinator.new (diskFullAt 1) { os := "linux", hostname := none } .blank)
    (mountWorkspace "/srv/a") (.io "No space left on device") rfl
  have hmounts := hatomic.mounts "workspace_1"
  exact absurd hmounts (by decide +kernel)

end Liz
