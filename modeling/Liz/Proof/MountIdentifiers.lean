import Liz.Base.Numbering
import Liz.Proof.RegistryRuns

/-!
# Identifiers of workspace mounts

A mount is named by the first free number behind the number of mounts. Threads and artifacts keep
the name, so it should never come to mean another directory. It does not as long as every detach
leaves the next number where it is; a detach that makes the number fall back hands the next mount a
name that has been used before.
-/

namespace Liz

open Tables Numbering

def mountId (index : Nat) : WorkspaceMountId := "workspace_" ++ Nat.repr index

theorem mountId_injective : Function.Injective mountId := by
  intro m n h
  apply IdGenerator.repr_injective
  have hchars := congrArg String.toList h
  simp only [mountId, String.toList_append, List.append_cancel_left_eq] at hchars
  exact String.toList_inj.mp hchars

namespace NodeRegistry

variable {registry : NodeRegistry} {n : Nat}

theorem freeWorkspaceMountId_spec (fuel index : Nat)
    (h : ∃ k, index ≤ k ∧ k ≤ index + fuel ∧ mountId k ∉ registry.workspaceMounts) :
    ∃ n, index ≤ n ∧ registry.freeWorkspaceMountId fuel index = mountId n ∧
      mountId n ∉ registry.workspaceMounts ∧
      ∀ k, index ≤ k → k < n → mountId k ∈ registry.workspaceMounts := by
  induction fuel generalizing index with
  | zero =>
      obtain ⟨k, hle, hge, hfree⟩ := h
      obtain rfl : k = index := by omega
      exact ⟨k, hle, rfl, hfree, fun j _ _ => by omega⟩
  | succ fuel ih =>
      unfold freeWorkspaceMountId
      dsimp only
      split
      next hlive =>
        obtain ⟨k, hle, hge, hfree⟩ := h
        have hne : k ≠ index := by
          intro heq
          rw [heq] at hfree
          exact hfree hlive
        obtain ⟨n, hn, heq, hnfree, htaken⟩ := ih (index + 1) ⟨k, by omega, by omega, hfree⟩
        refine ⟨n, by omega, heq, hnfree, fun j hj hjn => ?_⟩
        rcases Nat.lt_or_ge index j with hlt | hge
        · exact htaken j hlt hjn
        · obtain rfl : j = index := by omega
          exact hlive
      next hfree => exact ⟨index, Nat.le_refl _, rfl, hfree, fun j _ _ => by omega⟩

/-- The search ends, and it ends at the next number. -/
theorem exists_next (registry : NodeRegistry) :
    ∃ n, Next mountId registry.workspaceMounts n ∧ registry.nextWorkspaceMountId = mountId n := by
  obtain ⟨k, hlow, hhigh, hfree⟩ := exists_free mountId_injective registry.workspaceMounts
  obtain ⟨n, hn, heq, hnfree, htaken⟩ :=
    registry.freeWorkspaceMountId_spec registry.workspaceMounts.entries.length
      (registry.workspaceMounts.entries.length + 1) ⟨k, hlow, by omega, hfree⟩
  exact ⟨n, ⟨hn, hnfree, fun j hj => htaken j hj⟩, heq⟩

theorem nextWorkspaceMountId_eq {n : Nat} (h : Next mountId registry.workspaceMounts n) :
    registry.nextWorkspaceMountId = mountId n := by
  obtain ⟨m, hm, heq⟩ := registry.exists_next
  rw [heq, h.unique hm]

/-- The next number is `n`, and every number in use is smaller. -/
structure Numbered (registry : NodeRegistry) (n : Nat) : Prop where
  wellformed : Wellformed registry
  next : Next mountId registry.workspaceMounts n
  below : Below mountId registry.workspaceMounts n

theorem numbered_unmounted (host : HostInfo) (nodes : List NodeRecord) :
    Numbered (unmounted host nodes) 1 where
  wellformed := wellformed_unmounted host nodes
  next := ⟨Nat.one_pos, AList.notMem_empty _, fun k hk hk1 => by omega⟩
  below key hkey := absurd hkey (AList.notMem_empty key)

/-- The call leaves the next number alone, or moves it up. A detach does so when there is nothing to
detach, or when its number is smaller than the number of mounts and that number is itself in use. -/
def KeepsNumbers (registry : NodeRegistry) : RegistryCall → Prop
  | .detach workspaceId =>
      workspaceId ∉ registry.workspaceMounts ∨
        (∃ index < registry.workspaceMounts.entries.length, workspaceId = mountId index) ∧
          mountId registry.workspaceMounts.entries.length ∈ registry.workspaceMounts
  | _ => True

instance (registry : NodeRegistry) : (call : RegistryCall) → Decidable (registry.KeepsNumbers call)
  | .detach _ => inferInstanceAs (Decidable (_ ∨ _ ∧ _))
  | .updatePolicy _ _ => inferInstanceAs (Decidable True)
  | .heartbeat _ _ => inferInstanceAs (Decidable True)
  | .attach _ _ _ _ => inferInstanceAs (Decidable True)
  | .resolve _ => inferInstanceAs (Decidable True)
  | .restart _ => inferInstanceAs (Decidable True)

theorem Numbered.attach (h : Numbered registry n) {mount : WorkspaceMount} {later : NodeRegistry}
    {nodeId : NodeId} {rootPath : String} (ha : Attaches registry nodeId rootPath mount later) :
    Numbered later (n + 1) where
  wellformed := ha.wellformed h.wellformed
  next := by
    rw [ha.workspaceMounts, nextWorkspaceMountId_eq h.next]
    exact h.next.insert mountId_injective h.below mount
  below := by
    have hbehind := h.next.behind
    rw [ha.workspaceMounts, nextWorkspaceMountId_eq h.next]
    exact h.below.insert (by omega) mount

theorem Numbered.detach (h : Numbered registry n) {later : NodeRegistry}
    {workspaceId : WorkspaceMountId} (hmem : workspaceId ∈ registry.workspaceMounts)
    (hkeeps : registry.KeepsNumbers (.detach workspaceId)) (hwell : Wellformed later)
    (hlater : later.workspaceMounts = registry.workspaceMounts.erase workspaceId) :
    Numbered later n where
  wellformed := hwell
  next := by
    rcases hkeeps with hno | ⟨⟨index, hlow, rfl⟩, hcount⟩
    · exact absurd hmem hno
    · rw [hlater]
      exact h.next.erase mountId_injective hmem hlow hcount
  below := by
    rw [hlater]
    exact h.below.erase workspaceId

/-- Numbers only go up, one at a time, and only when a mount takes the next one. -/
theorem Numbered.step (h : Numbered registry n) {call : RegistryCall}
    (hkeeps : registry.KeepsNumbers call) :
    Numbered (registry.step call) n ∨
      (Numbered (registry.step call) (n + 1) ∧
        ∃ mount, registry.Returns call mount ∧ mount.workspaceId = mountId n) := by
  have hwell := h.wellformed.step call
  cases step_mountChange h.wellformed call with
  | unchanged hsame _ => exact .inl ⟨hwell, h.next.same hsame, h.below.same hsame⟩
  | attached mount hreturns ha =>
      refine .inr ⟨h.attach ha, mount, (hreturns mount).mpr rfl, ?_⟩
      rw [ha.workspaceId, nextWorkspaceMountId_eq h.next]
  | detached workspaceId hcall hmem hlater =>
      subst hcall
      exact .inl (h.detach hmem hkeeps hwell hlater)

/-! ### What an identifier has come to mean -/

/-- The two mounts stand on the same directory of the same node. -/
def SameDirectory (mount other : WorkspaceMount) : Prop :=
  other.nodeId = mount.nodeId ∧ other.rootPath = mount.rootPath

/-- The mount has a number that has been used, and nothing else has its identifier. -/
def Known (registry : NodeRegistry) (mount : WorkspaceMount) : Prop :=
  ∃ n, Numbered registry n ∧ (∃ k < n, mount.workspaceId = mountId k) ∧
    ∀ other, registry.workspaceMounts.lookup mount.workspaceId = some other →
      SameDirectory mount other

theorem known_of_mem (h : Numbered registry n) {mount : WorkspaceMount}
    (hmem : mount ∈ values registry.workspaceMounts) : Known registry mount := by
  obtain ⟨workspaceId, hlookup⟩ := mem_values.mp hmem
  have hid := h.wellformed.mountsKeyed workspaceId mount hlookup
  have hlive : workspaceId ∈ registry.workspaceMounts := by
    rw [← AList.lookup_isSome, hlookup]
    rfl
  obtain ⟨k, -, hk, hname⟩ := h.below workspaceId hlive
  refine ⟨n, h, ⟨k, hk, hid.trans hname⟩, fun other hother => ?_⟩
  rw [hid, hlookup] at hother
  rw [Option.some.inj hother]
  exact ⟨rfl, rfl⟩

theorem Known.step {mount : WorkspaceMount} {call : RegistryCall} (h : Known registry mount)
    (hkeeps : registry.KeepsNumbers call) : Known (registry.step call) mount := by
  obtain ⟨n, hnumbered, ⟨k, hk, hname⟩, hmeans⟩ := h
  have hnext : ∃ m, n ≤ m ∧ Numbered (registry.step call) m := by
    rcases hnumbered.step hkeeps with hsame | ⟨hmore, -⟩
    · exact ⟨n, Nat.le_refl n, hsame⟩
    · exact ⟨n + 1, by omega, hmore⟩
  obtain ⟨m, hnm, hm⟩ := hnext
  refine ⟨m, hm, ⟨k, by omega, hname⟩, fun other hother => hmeans other ?_⟩
  cases step_mountChange hnumbered.wellformed call with
  | unchanged hsame _ => rwa [hsame mount.workspaceId] at hother
  | attached attached _ ha =>
      have hne : mount.workspaceId ≠ registry.nextWorkspaceMountId := by
        rw [hname, nextWorkspaceMountId_eq hnumbered.next]
        intro heq
        have := mountId_injective heq
        omega
      rwa [ha.workspaceMounts, AList.lookup_insert_ne hne] at hother
  | detached workspaceId _ _ hlater =>
      rw [hlater] at hother
      by_cases hid : mount.workspaceId = workspaceId
      · rw [hid, AList.lookup_erase] at hother
        cases hother
      · rwa [AList.lookup_erase_ne hid] at hother

/-- What a call returns is known afterwards. -/
theorem Returns.known {mount : WorkspaceMount} {call : RegistryCall}
    (hreturns : registry.Returns call mount) (h : Numbered registry n)
    (hkeeps : registry.KeepsNumbers call) : Known (registry.step call) mount := by
  cases step_mountChange h.wellformed call with
  | unchanged _ hmem => exact (known_of_mem h (hmem mount hreturns)).step hkeeps
  | attached attached hone ha =>
      obtain rfl := (hone mount).mp hreturns
      apply known_of_mem (h.attach ha)
      apply mem_values.mpr
      refine ⟨registry.nextWorkspaceMountId, ?_⟩
      rw [ha.workspaceMounts, AList.lookup_insert]
  | detached workspaceId hcall _ _ =>
      subst hcall
      cases hreturns

/-- A call that returns a known identifier returns a mount on the same directory. -/
theorem Known.meets {mount other : WorkspaceMount} {call : RegistryCall} (h : Known registry mount)
    (hreturns : registry.Returns call other) (hid : other.workspaceId = mount.workspaceId) :
    SameDirectory mount other := by
  obtain ⟨n, hnumbered, ⟨k, hk, hname⟩, hmeans⟩ := h
  cases step_mountChange hnumbered.wellformed call with
  | unchanged _ hmem =>
      obtain ⟨workspaceId, hlookup⟩ := mem_values.mp (hmem other hreturns)
      apply hmeans
      rwa [← hid, hnumbered.wellformed.mountsKeyed workspaceId other hlookup]
  | attached attached hone ha =>
      obtain rfl := (hone other).mp hreturns
      rw [ha.workspaceId, nextWorkspaceMountId_eq hnumbered.next, hname] at hid
      have := mountId_injective hid
      omega
  | detached workspaceId hcall _ _ =>
      subst hcall
      cases hreturns

/-! ### Whole runs -/

/-- No identifier that has been returned for a mount is returned for another directory later. -/
def NeverReused (registry : NodeRegistry) (calls : List RegistryCall) : Prop :=
  (Runs.moments step registry calls).Pairwise fun earlier later => ∀ mount other,
    earlier.1.Returns earlier.2 mount → later.1.Returns later.2 other →
    other.workspaceId = mount.workspaceId → SameDirectory mount other

theorem neverReused_of_keepsNumbers (h : Numbered registry n) {calls : List RegistryCall}
    (hkeeps : Runs.AllSteps step KeepsNumbers registry calls) : NeverReused registry calls := by
  have hinv : ∀ registry call, (∃ n, Numbered registry n) → KeepsNumbers registry call →
      ∃ n, Numbered (registry.step call) n := by
    intro registry call ⟨n, hn⟩ hcall
    rcases hn.step hcall with hsame | ⟨hmore, -⟩
    · exact ⟨n, hsame⟩
    · exact ⟨n + 1, hmore⟩
  have hgain : ∀ registry call mount, (∃ n, Numbered registry n) → KeepsNumbers registry call →
      Returns registry call mount → Known (registry.step call) mount := by
    intro registry call mount ⟨n, hn⟩ hcall hreturns
    exact hreturns.known hn hcall
  have hkeep : ∀ registry call mount, (∃ n, Numbered registry n) → KeepsNumbers registry call →
      Known registry mount → Known (registry.step call) mount :=
    fun _ _ _ _ hcall hknown => hknown.step hcall
  exact (Runs.pairwise_moments hinv hgain hkeep
    (fun _ _ _ _ _ hknown hreturns => hknown.meets hreturns) ⟨n, h⟩ hkeeps).2

/-- Every number below the next one has been given out. -/
theorem returned_of_lt (h : Numbered registry n) {calls : List RegistryCall}
    (hkeeps : Runs.AllSteps step KeepsNumbers registry calls) :
    ∃ last, n ≤ last ∧ Numbered (Runs.final step registry calls) last ∧
      ∀ k, n ≤ k → k < last → ∃ moment ∈ Runs.moments step registry calls, ∃ mount,
        moment.1.Returns moment.2 mount ∧ mount.workspaceId = mountId k := by
  induction calls generalizing registry n with
  | nil => exact ⟨n, Nat.le_refl n, h, fun k hk hkn => by omega⟩
  | cons call rest ih =>
      rcases h.step hkeeps.1 with hsame | ⟨hmore, mount, hreturns, hname⟩
      · obtain ⟨last, hle, hlast, hgiven⟩ := ih hsame hkeeps.2
        refine ⟨last, hle, hlast, fun k hk hkn => ?_⟩
        obtain ⟨moment, hmoment, hmount⟩ := hgiven k hk hkn
        exact ⟨moment, List.mem_cons_of_mem _ hmoment, hmount⟩
      · obtain ⟨last, hle, hlast, hgiven⟩ := ih hmore hkeeps.2
        refine ⟨last, by omega, hlast, fun k hk hkn => ?_⟩
        rcases Nat.lt_or_ge n k with hlt | hge
        · obtain ⟨moment, hmoment, hmount⟩ := hgiven k hlt hkn
          exact ⟨moment, List.mem_cons_of_mem _ hmoment, hmount⟩
        · obtain rfl : k = n := by omega
          exact ⟨(registry, call), List.mem_cons_self, mount, hreturns, hname⟩

/-- A detach that lets the next number fall back hands the next mount an identifier that has been
returned before. -/
theorem reused_after_fall (h : Numbered registry 1) {calls : List RegistryCall}
    (hkeeps : Runs.AllSteps step KeepsNumbers registry calls) {workspaceId : WorkspaceMountId}
    (hfalls : ¬ (Runs.final step registry calls).KeepsNumbers (.detach workspaceId))
    (label : Option String) (permissions : WorkspaceMountPermissions) :
    ∃ rootPath, ¬ NeverReused registry
      (calls ++ [.detach workspaceId, .attach "local" rootPath label permissions]) := by
  obtain ⟨last, -, hlast, hgiven⟩ := returned_of_lt h hkeeps
  generalize hfinal : Runs.final step registry calls = final at hfalls hlast
  have hmem : workspaceId ∈ final.workspaceMounts := by
    by_contra hno
    exact hfalls (.inl hno)
  obtain ⟨k, hpos, hk, rfl⟩ := hlast.below workspaceId hmem
  obtain ⟨m, hm, hmlast, hnext⟩ := hlast.next.erase_falls mountId_injective hmem hk
    fun hlow => hfalls (.inr ⟨⟨k, hlow.1, rfl⟩, hlow.2⟩)
  obtain ⟨moment, hmoment, mount, hreturns, hname⟩ := hgiven m hm hmlast
  -- any directory but the one the number was first given to
  refine ⟨mount.rootPath ++ "/", fun hnever => ?_⟩
  have hdetach : final.step (.detach (mountId k)) =
      { final with workspaceMounts := final.workspaceMounts.erase (mountId k) } := by
    show final.settle (final.detachWorkspaceMount (mountId k)) = _
    unfold detachWorkspaceMount
    rw [if_pos hmem]
    rfl
  have hlocal := (hlast.wellformed.step (.detach (mountId k))).localNode
  obtain ⟨other, later, hattach⟩ :=
    exists_attachWorkspaceMount hlocal (mount.rootPath ++ "/") label permissions
  have hlast' : (final.step (.detach (mountId k)),
      RegistryCall.attach "local" (mount.rootPath ++ "/") label permissions) ∈
        Runs.moments step final [.detach (mountId k),
          .attach "local" (mount.rootPath ++ "/") label permissions] :=
    List.mem_cons_of_mem _ List.mem_cons_self
  unfold NeverReused at hnever
  rw [Runs.moments_append, hfinal, List.pairwise_append] at hnever
  have hdirectory := hnever.2.2 moment hmoment _ hlast' mount other hreturns (.attached hattach)
  have ha := attachWorkspaceMount_ok hattach
  have hid : other.workspaceId = mount.workspaceId := by
    rw [ha.workspaceId, hname]
    apply nextWorkspaceMountId_eq
    rw [hdetach]
    exact hnext
  have hroot := (hdirectory hid).2
  rw [ha.rootPath] at hroot
  have hlength := congrArg (fun path => path.toList.length) hroot
  simp at hlength

end NodeRegistry

open NodeRegistry

/-- In a run whose detaches all keep the numbers, no identifier is ever returned for two
directories; after any other detach the next mount may take one that has been returned before. -/
theorem mount_ids_never_reused (host : HostInfo) (nodes : List NodeRecord)
    (calls : List RegistryCall)
    (hkeeps : Runs.AllSteps NodeRegistry.step KeepsNumbers (unmounted host nodes) calls) :
    NeverReused (unmounted host nodes) calls ∧
      ∀ workspaceId label permissions,
        ¬ KeepsNumbers (Runs.final NodeRegistry.step (unmounted host nodes) calls)
          (.detach workspaceId) →
        ∃ rootPath, ¬ NeverReused (unmounted host nodes)
          (calls ++ [.detach workspaceId, .attach "local" rootPath label permissions]) := by
  have hstart := numbered_unmounted host nodes
  exact ⟨neverReused_of_keepsNumbers hstart hkeeps, fun workspaceId label permissions hfalls =>
    reused_after_fall hstart hkeeps hfalls label permissions⟩

def thisHost : HostInfo := { os := "linux", hostname := none }

def attachLocal (rootPath : String) : RegistryCall :=
  .attach "local" rootPath none { read := true, write := true, shell := true }

/-- Three directories are mounted and the first goes again; the next one is the fourth. -/
def firstDetached : List RegistryCall :=
  [attachLocal "/srv/a", attachLocal "/srv/b", attachLocal "/srv/c", .detach "workspace_1",
    attachLocal "/srv/d"]

theorem mount_ids_of_first_detached :
    Runs.AllSteps NodeRegistry.step KeepsNumbers (unmounted thisHost []) firstDetached ∧
      NeverReused (unmounted thisHost []) firstDetached :=
  have hkeeps : Runs.AllSteps NodeRegistry.step KeepsNumbers (unmounted thisHost []) firstDetached :=
    by decide +kernel
  ⟨hkeeps, (mount_ids_never_reused thisHost [] firstDetached hkeeps).1⟩

def mountOn (workspaceId : WorkspaceMountId) (rootPath : String) : WorkspaceMount :=
  { workspaceId := workspaceId
    nodeId := "local"
    rootPath := rootPath
    label := rootPath
    permissions := { read := true, write := true, shell := true } }

/-- A directory is mounted and detached, and another one gets its identifier. -/
theorem only_mount_id_reused :
    ¬ ∀ (host : HostInfo) (nodes : List NodeRecord) (calls : List RegistryCall),
      NeverReused (unmounted host nodes) calls := by
  intro hclaim
  have hnever := hclaim thisHost []
    [attachLocal "/srv/a", .detach "workspace_1", attachLocal "/srv/b"]
  have hlast := (List.pairwise_cons.mp hnever).1 _
    (List.mem_cons_of_mem _ List.mem_cons_self)
  have hdirectory := hlast (mountOn "workspace_1" "/srv/a") (mountOn "workspace_1" "/srv/b")
    (.attached rfl) (.attached rfl) rfl
  exact absurd hdirectory.2 (by decide)

end Liz
