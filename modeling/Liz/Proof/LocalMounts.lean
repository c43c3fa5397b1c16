import Liz.Proof.MountIdentifiers

/-!
# One mount for each directory of the local node

Resolving a directory looks for a mount of it before it attaches one; attaching does not. Every
registry has its mounts under their own identifiers and on registered nodes, but two local mounts of
one directory are kept out only by whoever attaches, and with two of them a lookup that walks the
hash map may return either.
-/

namespace Liz

open Tables NodeRegistry

namespace NodeRegistry

variable {registry : NodeRegistry}

/-- No two local mounts stand on one directory. -/
def SingleLocal (registry : NodeRegistry) : Prop :=
  ∀ rootPath, ∀ mount ∈ values registry.workspaceMounts,
    ∀ other ∈ values registry.workspaceMounts,
      IsLocalMount rootPath mount → IsLocalMount rootPath other → other = mount

/-- The invariant of the registry. -/
structure Orderly (registry : NodeRegistry) : Prop where
  registered : ∀ mount ∈ values registry.workspaceMounts, mount.nodeId ∈ registry.nodes
  keyed : WellKeyed WorkspaceMount.workspaceId registry.workspaceMounts
  single : SingleLocal registry

/-- A mount that is attached to the local node stands on a directory of its own. -/
def AttachesOnce (registry : NodeRegistry) : RegistryCall → Prop
  | .attach nodeId rootPath _ _ => nodeId = "local" → ¬ registry.Mounted rootPath
  | _ => True

instance (registry : NodeRegistry) : (call : RegistryCall) → Decidable (registry.AttachesOnce call)
  | .attach _ _ _ _ => inferInstanceAs (Decidable (_ → _))
  | .updatePolicy _ _ => inferInstanceAs (Decidable True)
  | .heartbeat _ _ => inferInstanceAs (Decidable True)
  | .detach _ => inferInstanceAs (Decidable True)
  | .resolve _ => inferInstanceAs (Decidable True)
  | .restart _ => inferInstanceAs (Decidable True)

theorem nextWorkspaceMountId_free (registry : NodeRegistry) :
    registry.nextWorkspaceMountId ∉ registry.workspaceMounts := by
  obtain ⟨n, hn, heq⟩ := registry.exists_next
  rw [heq]
  exact hn.free

/-- What is mounted after a mount has been attached. -/
theorem Attaches.mem_values_iff {nodeId : NodeId} {rootPath : String} {mount other : WorkspaceMount}
    {later : NodeRegistry} (ha : Attaches registry nodeId rootPath mount later) :
    other ∈ values later.workspaceMounts ↔
      other = mount ∨ other ∈ values registry.workspaceMounts := by
  rw [mem_values, mem_values, ha.workspaceMounts]
  constructor
  · intro ⟨workspaceId, hlookup⟩
    by_cases hid : workspaceId = registry.nextWorkspaceMountId
    · rw [hid, AList.lookup_insert, Option.some_inj] at hlookup
      exact .inl hlookup.symm
    · rw [AList.lookup_insert_ne hid] at hlookup
      exact .inr ⟨workspaceId, hlookup⟩
  · intro hother
    rcases hother with rfl | ⟨workspaceId, hlookup⟩
    · exact ⟨_, AList.lookup_insert _⟩
    · refine ⟨workspaceId, ?_⟩
      have hne : workspaceId ≠ registry.nextWorkspaceMountId := by
        intro heq
        rw [heq, AList.lookup_eq_none.mpr registry.nextWorkspaceMountId_free] at hlookup
        cases hlookup
      rw [AList.lookup_insert_ne hne, hlookup]

/-- A mount that is attached is none of those that were there. -/
theorem Attaches.not_mem {nodeId : NodeId} {rootPath : String} {mount : WorkspaceMount}
    {later : NodeRegistry} (ha : Attaches registry nodeId rootPath mount later)
    (h : Wellformed registry) : mount ∉ values registry.workspaceMounts := by
  intro hmem
  obtain ⟨workspaceId, hlookup⟩ := mem_values.mp hmem
  have hid := h.mountsKeyed workspaceId mount hlookup
  rw [ha.workspaceId] at hid
  rw [← hid, AList.lookup_eq_none.mpr registry.nextWorkspaceMountId_free] at hlookup
  cases hlookup

/-- Attaching keeps the directories apart exactly when the new one is not mounted yet. -/
theorem Attaches.singleLocal_iff {mount : WorkspaceMount} {later : NodeRegistry}
    (ha : Attaches registry mount.nodeId mount.rootPath mount later) (h : Wellformed registry)
    (hsingle : SingleLocal registry) :
    SingleLocal later ↔ (mount.nodeId = "local" → ¬ registry.Mounted mount.rootPath) := by
  constructor
  · intro hlater hlocal ⟨other, hother, hroot⟩
    have heq := hlater mount.rootPath mount (ha.mem_values_iff.mpr (.inl rfl)) other
      (ha.mem_values_iff.mpr (.inr hother)) ⟨hlocal, rfl⟩ hroot
    rw [heq] at hother
    exact ha.not_mem h hother
  · intro hfresh rootPath first hfirst second hsecond hlocal hlocal'
    rcases ha.mem_values_iff.mp hfirst with rfl | hfirst
    · rcases ha.mem_values_iff.mp hsecond with rfl | hsecond
      · rfl
      · obtain ⟨hnode, rfl⟩ := hlocal
        exact absurd ⟨second, hsecond, hlocal'⟩ (hfresh hnode)
    · rcases ha.mem_values_iff.mp hsecond with rfl | hsecond
      · obtain ⟨hnode, rfl⟩ := hlocal'
        exact absurd ⟨first, hfirst, hlocal⟩ (hfresh hnode)
      · exact hsingle rootPath first hfirst second hsecond hlocal hlocal'

theorem SingleLocal.of_subset {later : NodeRegistry} (h : SingleLocal registry)
    (hsub : ∀ mount ∈ values later.workspaceMounts, mount ∈ values registry.workspaceMounts) :
    SingleLocal later :=
  fun rootPath mount hmount other hother =>
    h rootPath mount (hsub mount hmount) other (hsub other hother)

theorem singleLocal_step_iff (h : Wellformed registry) (hsingle : SingleLocal registry)
    (call : RegistryCall) : SingleLocal (registry.step call) ↔ registry.AttachesOnce call := by
  have hkept : (∀ mount ∈ values (registry.step call).workspaceMounts,
      mount ∈ values registry.workspaceMounts) → registry.AttachesOnce call →
      (SingleLocal (registry.step call) ↔ registry.AttachesOnce call) :=
    fun hsub honce => iff_of_true (hsingle.of_subset hsub) honce
  cases step_mountChange h call with
  | unchanged hsame hreturns =>
      apply hkept
      · intro mount hmount
        obtain ⟨workspaceId, hlookup⟩ := mem_values.mp hmount
        rw [hsame workspaceId] at hlookup
        exact mem_values.mpr ⟨workspaceId, hlookup⟩
      · cases call with
        | attach nodeId rootPath label permissions =>
            intro hlocal
            -- the local node is registered, so the call has attached a mount
            obtain ⟨mount, later, hattach⟩ := exists_attachWorkspaceMount
              (hlocal ▸ h.localNode : nodeId ∈ registry.nodes) rootPath label permissions
            exact absurd (hreturns mount (.attached hattach))
              ((attachWorkspaceMount_ok hattach).not_mem h)
        | _ => trivial
  | attached mount hreturns ha =>
      rw [ha.singleLocal_iff h hsingle]
      cases (hreturns mount).mpr rfl with
      | attached hattach =>
          have hok := attachWorkspaceMount_ok hattach
          show _ ↔ (_ → _)
          rw [hok.nodeId, hok.rootPath]
      | found hmem _ => exact absurd hmem (ha.not_mem h)
      | resolved hnone hattach =>
          have hok := attachWorkspaceMount_ok hattach
          rw [hok.rootPath]
          exact iff_of_true (fun _ => hnone) trivial
  | detached workspaceId hcall hmem hlater =>
      subst hcall
      apply hkept
      · intro mount hmount
        rw [hlater] at hmount
        exact mem_values_of_erase hmount
      · trivial

/-! ### Whole runs -/

/-- While the mount that a lookup returned stays attached, every later lookup of its directory
returns it again. -/
def ResolvesAlike (registry : NodeRegistry) (calls : List RegistryCall) : Prop :=
  (Runs.moments step registry calls).Pairwise fun earlier later => ∀ rootPath mount other,
    earlier.1.Returns (.resolve rootPath) mount → later.1.Returns (.resolve rootPath) other →
    mount ∈ values later.1.workspaceMounts → other = mount

/-- A lookup returns a local mount of the directory. -/
theorem Returns.isLocalMount {rootPath : String} {mount : WorkspaceMount}
    (h : registry.Returns (.resolve rootPath) mount) : IsLocalMount rootPath mount := by
  cases h with
  | found _ hlocal => exact hlocal
  | resolved _ hattach =>
      have ha := attachWorkspaceMount_ok hattach
      exact ⟨ha.nodeId, ha.rootPath⟩

theorem resolvesAlike_of_single {calls : List RegistryCall}
    (h : ∀ s ∈ Runs.states step registry calls, SingleLocal s) : ResolvesAlike registry calls := by
  induction calls generalizing registry with
  | nil => exact List.Pairwise.nil
  | cons call rest ih =>
      have hrest : ∀ s ∈ Runs.states step (registry.step call) rest, SingleLocal s :=
        fun s hs => h s (List.mem_cons_of_mem _ hs)
      apply List.pairwise_cons.mpr
      constructor
      · intro later hlater rootPath mount other hmount hother hmem
        have hsingle : SingleLocal later.1 := hrest _ (Runs.fst_mem_states hlater)
        have hlocal := hmount.isLocalMount
        cases hother with
        | found hother hlocal' => exact hsingle rootPath mount hmem other hother hlocal hlocal'
        | resolved hnone _ => exact absurd ⟨mount, hmem, hlocal⟩ hnone
      · exact ih hrest

end NodeRegistry

/-- Every registry of a run is orderly, and looking up a mounted directory returns its mount every
time, exactly when no call attaches a local directory that is mounted already. -/
theorem registry_orderly_iff (host : HostInfo) (nodes : List NodeRecord)
    (calls : List RegistryCall) :
    ((∀ registry ∈ Runs.states NodeRegistry.step (unmounted host nodes) calls, Orderly registry) ∧
      ResolvesAlike (unmounted host nodes) calls) ↔
    Runs.AllSteps NodeRegistry.step AttachesOnce (unmounted host nodes) calls := by
  have hwell : ∀ registry ∈ Runs.states NodeRegistry.step (unmounted host nodes) calls,
      Wellformed registry :=
    Runs.invariant (fun _ call h _ => h.step call) (wellformed_unmounted host nodes)
      (Runs.allSteps_true _ _)
  have hnone : SingleLocal (unmounted host nodes) :=
    fun _ mount hmount => absurd hmount List.not_mem_nil
  have hsingle : (∀ registry ∈ Runs.states NodeRegistry.step (unmounted host nodes) calls,
      SingleLocal registry) ↔
      Runs.AllSteps NodeRegistry.step AttachesOnce (unmounted host nodes) calls :=
    Runs.invariant_iff (fun _ call h => Wellformed.step h call)
      (fun _ call h hsingle _ => singleLocal_step_iff h hsingle call)
      (wellformed_unmounted host nodes) hnone (Runs.allSteps_true _ _)
  rw [← hsingle]
  constructor
  · exact fun h registry hregistry => (h.1 registry hregistry).single
  · intro h
    refine ⟨fun registry hregistry => ?_, resolvesAlike_of_single h⟩
    have hregistry' := hwell registry hregistry
    exact ⟨hregistry'.registered, hregistry'.mountsKeyed, h registry hregistry⟩

/-- A directory is attached twice. -/
theorem directory_mounted_twice :
    ¬ ∀ (host : HostInfo) (nodes : List NodeRecord) (calls : List RegistryCall),
      ∀ registry ∈ Runs.states NodeRegistry.step (unmounted host nodes) calls,
        Orderly registry := by
  intro hclaim
  have horderly := hclaim thisHost [] [attachLocal "/srv/a", attachLocal "/srv/a"] _
    (Runs.final_mem_states _ _)
  have heq := horderly.single "/srv/a" (mountOn "workspace_1" "/srv/a")
    (List.mem_cons_of_mem _ List.mem_cons_self) (mountOn "workspace_2" "/srv/a")
    List.mem_cons_self ⟨rfl, rfl⟩ ⟨rfl, rfl⟩
  exact absurd heq (by decide)

end Liz
