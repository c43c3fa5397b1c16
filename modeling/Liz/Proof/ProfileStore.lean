import Mathlib.Data.String.Basic
import Liz.Proof.TokenRotation
import Liz.Runtime.AuthProfiles
import Liz.Base.Runs

/-!
# The saved profiles are a finite map

The profiles of a store are the bindings of a map from ids to profiles, whatever requests led to it.
The profile of a provider that the gateway goes by depends on this map alone.
-/

namespace Liz

open Program KeyedLists

/-- The map from ids to profiles. -/
abbrev Bindings := String → Option ProviderAuthProfile

namespace ProfileRequest

/-- What the map has to say for the request to be accepted. -/
def Acceptable (bindings : Bindings) : ProfileRequest → Prop
  | upsert profile =>
      Text.isBlank profile.profileId = false ∧ Text.isBlank profile.providerId = false
  | delete profileId => bindings profileId ≠ none

/-- What an accepted request makes of the map. -/
def apply (bindings : Bindings) : ProfileRequest → Bindings
  | upsert profile => Function.update bindings profile.profileId (some profile)
  | delete profileId => Function.update bindings profileId none

end ProfileRequest

/-- The bindings whose profile is one of the provider, if a provider is given. -/
def ofProvider (bindings : Bindings) : Option String → Bindings
  | some providerId => fun id => (bindings id).filter (·.providerId == providerId)
  | none => bindings

/-- The profile the gateway goes by for its provider: the one named default, or else the one with
the smallest id. -/
structure Chosen (bindings : Bindings) (profile : ProviderAuthProfile) : Prop where
  bound : bindings profile.profileId = some profile
  first : profile.profileId = profile.providerId ++ ":default" ∨
    ∀ id other, bindings id = some other → other.providerId = profile.providerId →
      id ≠ profile.providerId ++ ":default" ∧ profile.profileId ≤ id

/-- The overrides say of each provider what its chosen profile says, over the configuration. -/
structure TakesChosen (bindings : Bindings) (base overrides : Table String ProviderOverride) :
    Prop where
  chosen : ∀ profile, Chosen bindings profile →
    overrides.lookup profile.providerId =
      (withProviderOverride base profile.providerId
        (providerOverrideFromAuthProfile profile)).lookup profile.providerId
  others : ∀ providerId,
    (∀ id profile, bindings id = some profile → profile.providerId ≠ providerId) →
      overrides.lookup providerId = base.lookup providerId

theorem lookup_withProviderOverride_congr {overrides other : Table String ProviderOverride}
    {providerId : String} (h : overrides.lookup providerId = other.lookup providerId)
    (override : ProviderOverride) :
    (withProviderOverride overrides providerId override).lookup providerId =
      (withProviderOverride other providerId override).lookup providerId := by
  unfold withProviderOverride
  rw [h]
  cases other.lookup providerId with
  | none => simp only [AList.lookup_insert]
  | some existing => simp only [AList.lookup_insert]

/-! ### Selection -/

section Selection

variable {profiles : List ProviderAuthProfile} {bindings : Bindings}

/-- The profiles of a provider in the order of their ids. -/
def groupOf (profiles : List ProviderAuthProfile) (providerId : String) :
    List ProviderAuthProfile :=
  (profiles.filter (·.providerId == providerId)).insertionSort
    fun left right => left.profileId ≤ right.profileId

def defaultOf (group : List ProviderAuthProfile) (providerId : String) :
    Option ProviderAuthProfile :=
  (group.find? (·.profileId == providerId ++ ":default")).or group.head?

theorem selected_eq (profiles : List ProviderAuthProfile) :
    selectDefaultAuthProfiles profiles =
      ((profiles.map ProviderAuthProfile.providerId).dedup.insertionSort (· ≤ ·)).filterMap
        fun providerId => defaultOf (groupOf profiles providerId) providerId := rfl

theorem defaultOf_eq_some_iff {group : List ProviderAuthProfile}
    (h : Lists ProviderAuthProfile.profileId group bindings) (providerId : String)
    (profile : ProviderAuthProfile) :
    defaultOf group providerId = some profile ↔
      bindings profile.profileId = some profile ∧
        (profile.profileId = providerId ++ ":default" ∨ ∀ id other, bindings id = some other →
          id ≠ providerId ++ ":default" ∧ profile.profileId ≤ id) := by
  unfold defaultOf
  cases hnamed : group.find? (·.profileId == providerId ++ ":default") with
  | some named =>
      have hmem : named ∈ group := List.mem_of_find?_eq_some hnamed
      have hname : named.profileId = providerId ++ ":default" := by
        simpa using List.find?_some hnamed
      have hbound := h.holds.mem_iff.mp hmem
      rw [Option.some_or, Option.some.injEq]
      constructor
      · intro heq
        rw [← heq]
        exact ⟨hbound, .inl hname⟩
      · intro h'
        obtain ⟨hprofile, hfirst⟩ := h'
        rcases hfirst with hid | hall
        · exact h.holds.eq_of_key hmem (h.holds.mem_iff.mpr hprofile) (hname.trans hid.symm)
        · exact absurd hname (hall named.profileId named hbound).1
  | none =>
      have hunnamed : ∀ other ∈ group, other.profileId ≠ providerId ++ ":default" := by
        intro other hother
        simpa using List.find?_eq_none.mp hnamed other hother
      rw [Option.none_or]
      constructor
      · intro hfirst
        have hmem : profile ∈ group := List.mem_of_mem_head? hfirst
        refine ⟨h.holds.mem_iff.mp hmem, .inr fun id other hother => ?_⟩
        obtain ⟨hin, hid⟩ := (h.bound id other).mp hother
        rw [← hid]
        exact ⟨hunnamed other hin, h.head_le hfirst hin⟩
      · intro h'
        obtain ⟨hprofile, hrest⟩ := h'
        have hmem := h.holds.mem_iff.mpr hprofile
        have hleast := hrest.resolve_left (hunnamed profile hmem)
        cases hfirst : group.head? with
        | none =>
            rw [List.head?_eq_none_iff.mp hfirst] at hmem
            exact absurd hmem List.not_mem_nil
        | some first =>
            have hin : first ∈ group := List.mem_of_mem_head? hfirst
            have hle := (hleast first.profileId first (h.holds.mem_iff.mp hin)).2
            have hge := h.head_le hfirst hmem
            rw [h.holds.eq_of_key hin hmem (le_antisymm hge hle)]

theorem groupOf_lists (h : Holds ProviderAuthProfile.profileId profiles bindings)
    (providerId : String) :
    Lists ProviderAuthProfile.profileId (groupOf profiles providerId)
      (ofProvider bindings (some providerId)) :=
  (h.filter fun profile => profile.providerId == providerId).lists_sorted

/-- The profiles that are selected are the chosen ones, in whatever order the profiles stand. -/
theorem mem_selected_iff (h : Holds ProviderAuthProfile.profileId profiles bindings)
    (profile : ProviderAuthProfile) :
    profile ∈ selectDefaultAuthProfiles profiles ↔ Chosen bindings profile := by
  have hgroup := defaultOf_eq_some_iff (groupOf_lists h profile.providerId) profile.providerId
    profile
  have hof : ∀ id other, ofProvider bindings (some profile.providerId) id = some other ↔
      bindings id = some other ∧ other.providerId = profile.providerId := by
    intro id other
    show (bindings id).filter _ = some other ↔ _
    rw [Option.filter_eq_some_iff, beq_iff_eq]
  rw [hof] at hgroup
  rw [selected_eq, List.mem_filterMap]
  constructor
  · intro hmem
    obtain ⟨providerId, -, hdefault⟩ := hmem
    obtain rfl : profile.providerId = providerId := selected_providerId providerId hdefault
    obtain ⟨⟨hbound, -⟩, hfirst⟩ := hgroup.mp hdefault
    refine ⟨hbound, hfirst.imp_right fun hall id other hother hprovider => ?_⟩
    exact hall id other ((hof id other).mpr ⟨hother, hprovider⟩)
  · intro hchosen
    refine ⟨profile.providerId, ?_, hgroup.mpr ⟨⟨hchosen.bound, rfl⟩, ?_⟩⟩
    · rw [List.mem_insertionSort, List.mem_dedup]
      exact List.mem_map_of_mem (h.mem_iff.mpr hchosen.bound)
    · refine hchosen.first.imp_right fun hall id other hother => ?_
      obtain ⟨hbound, hprovider⟩ := (hof id other).mp hother
      exact hall id other hbound hprovider

/-- Each provider with a profile has a chosen one. -/
theorem exists_chosen (h : Holds ProviderAuthProfile.profileId profiles bindings)
    {profile : ProviderAuthProfile} (hprofile : profile ∈ profiles) :
    ∃ chosen, Chosen bindings chosen ∧ chosen.providerId = profile.providerId := by
  have hgroup : profile ∈ groupOf profiles profile.providerId := by
    rw [groupOf, List.mem_insertionSort, List.mem_filter]
    exact ⟨hprofile, beq_self_eq_true _⟩
  obtain ⟨chosen, hchosen⟩ : ∃ chosen,
      defaultOf (groupOf profiles profile.providerId) profile.providerId = some chosen := by
    unfold defaultOf
    cases (groupOf profiles profile.providerId).find?
        (·.profileId == profile.providerId ++ ":default") with
    | some named => exact ⟨named, rfl⟩
    | none =>
        cases hhead : (groupOf profiles profile.providerId).head? with
        | some first => exact ⟨first, rfl⟩
        | none =>
            rw [List.head?_eq_none_iff.mp hhead] at hgroup
            exact absurd hgroup List.not_mem_nil
  refine ⟨chosen, (mem_selected_iff h chosen).mp ?_, selected_providerId _ hchosen⟩
  rw [selected_eq, List.mem_filterMap]
  refine ⟨profile.providerId, ?_, hchosen⟩
  rw [List.mem_insertionSort, List.mem_dedup]
  exact List.mem_map_of_mem hprofile

/-- Each provider has at most one chosen profile. -/
theorem Chosen.unique (h : Holds ProviderAuthProfile.profileId profiles bindings)
    {profile other : ProviderAuthProfile} (hprofile : Chosen bindings profile)
    (hother : Chosen bindings other) (hprovider : other.providerId = profile.providerId) :
    other = profile := by
  have hids : other.profileId = profile.profileId := by
    rcases hprofile.first with hname | hleast
    · rcases hother.first with hname' | hleast'
      · rw [hname, hname', hprovider]
      · rw [hprovider] at hleast'
        exact absurd hname (hleast' _ _ hprofile.bound rfl).1
    · rcases hother.first with hname' | hleast'
      · rw [hprovider] at hname'
        exact absurd hname' (hleast _ _ hother.bound hprovider).1
      · exact le_antisymm (hleast' _ _ hprofile.bound hprovider.symm).2
          (hleast _ _ hother.bound hprovider).2
  exact h.eq_of_key (h.mem_iff.mpr hother.bound) (h.mem_iff.mpr hprofile.bound) hids

theorem lookup_foldl_selected {selected : List ProviderAuthProfile}
    (hnodup : (selected.map ProviderAuthProfile.providerId).Nodup)
    {profile : ProviderAuthProfile} (hprofile : profile ∈ selected)
    (base : Table String ProviderOverride) :
    (selected.foldl (fun overrides profile =>
        withProviderOverride overrides profile.providerId
          (providerOverrideFromAuthProfile profile)) base).lookup profile.providerId =
      (withProviderOverride base profile.providerId
        (providerOverrideFromAuthProfile profile)).lookup profile.providerId := by
  induction selected generalizing base with
  | nil => exact absurd hprofile List.not_mem_nil
  | cons first rest ih =>
      rw [List.map_cons, List.nodup_cons] at hnodup
      rw [List.foldl_cons]
      rcases List.mem_cons.mp hprofile with rfl | hrest
      · rw [lookup_of_others hnodup.1]
      · have hne : profile.providerId ≠ first.providerId := fun heq =>
          hnodup.1 (List.mem_map.mpr ⟨profile, hrest, heq⟩)
        rw [ih hnodup.2 hrest, lookup_withProviderOverride_congr
          (lookup_withProviderOverride_ne _ hne)]

/-- The gateway goes by the chosen profiles. -/
theorem takesChosen (h : Holds ProviderAuthProfile.profileId profiles bindings)
    (base : Table String ProviderOverride) :
    TakesChosen bindings base (gatewayWithProviderAuthProfiles base profiles) := by
  refine ⟨fun profile hchosen => ?_, fun providerId hnone => ?_⟩
  · exact lookup_foldl_selected (selected_nodup profiles) ((mem_selected_iff h profile).mpr hchosen)
      base
  · apply lookup_of_others
    intro hin
    obtain ⟨profile, hprofile, hprovider⟩ := List.mem_map.mp hin
    exact hnone _ profile ((mem_selected_iff h profile).mp hprofile).bound hprovider

end Selection

/-! ### The store -/

/-- What the file holds, if it reads, are the bindings of the map in the order of their ids. -/
def AuthProfileStore.Reflects (store : AuthProfileStore) (bindings : Bindings) : Prop :=
  ∀ profiles, store.saved = some profiles →
    Lists ProviderAuthProfile.profileId profiles bindings

@[simp] theorem AuthProfileStore.saved_tick (store : AuthProfileStore) :
    store.tick.saved = store.saved := rfl

/-- A write that fails leaves the file as it was, or one that does not parse. -/
theorem AuthProfileStore.saved_withSnapshot (store : AuthProfileStore)
    (snapshot : AuthProfileSnapshot) (fault : Fault) :
    (store.withSnapshot snapshot (some fault)).saved = store.saved ∨
      (store.withSnapshot snapshot (some fault)).saved = none := by
  cases fault with
  | refused message => exact .inl rfl
  | torn message => exact .inr rfl
  | unterminated message => exact .inr rfl

section Store

variable [Disk] {store : AuthProfileStore} {bindings : Bindings}

theorem wp_readAuthProfiles {Q : AuthProfileSnapshot → AuthProfileStore → Prop}
    {E : RuntimeError → AuthProfileStore → Prop}
    (hread : ∀ profiles, store.saved = some profiles → Q ⟨profiles⟩ store.tick)
    (hfailed : ∀ e, (Disk.fault store.operations ≠ none ∨ store.saved = none) → E e store.tick) :
    wp readAuthProfiles Q E store := by
  unfold wp readAuthProfiles
  cases hfault : Disk.fault store.operations with
  | some fault => exact hfailed _ (.inl (by simp [hfault]))
  | none =>
      cases hfile : store.snapshot with
      | none =>
          have hsaved : store.saved = some [] := by rw [AuthProfileStore.saved, hfile]
          exact hread _ hsaved
      | some file =>
          cases file with
          | intact snapshot =>
              have hsaved : store.saved = some snapshot.profiles := by
                rw [AuthProfileStore.saved, hfile]
              exact hread _ hsaved
          | corrupt message =>
              have hsaved : store.saved = none := by rw [AuthProfileStore.saved, hfile]
              exact hfailed _ (.inr hsaved)

theorem wp_writeAuthProfiles {Q : Unit → AuthProfileStore → Prop}
    {E : RuntimeError → AuthProfileStore → Prop} {snapshot : AuthProfileSnapshot}
    (hwritten : ∀ later, later.saved = some snapshot.profiles → Q () later)
    (hfailed : ∀ e later, Disk.fault store.operations ≠ none →
      (later.saved = store.saved ∨ later.saved = none) → E e later) :
    wp (writeAuthProfiles snapshot) Q E store := by
  unfold wp writeAuthProfiles
  cases hfault : Disk.fault store.operations with
  | none => exact hwritten _ rfl
  | some fault =>
      exact hfailed _ _ (by simp [hfault]) (store.saved_withSnapshot snapshot fault)

/-- No operation fails, and the file reads. -/
def Untroubled (store : AuthProfileStore) : Prop :=
  (∀ n, Disk.fault n = none) ∧ store.saved.isSome

/-- An accepted request is one the map accepts and leaves the profiles of the map it leads to; a
rejected one leaves what was there, and the map would have rejected it too unless something went
wrong with the file. -/
theorem wp_handle (h : store.Reflects bindings) (request : ProfileRequest) :
    wp request.handle
      (fun _ later => request.Acceptable bindings ∧ later.saved.isSome ∧
        later.Reflects (request.apply bindings))
      (fun _ later => (Untroubled store →
          ¬ request.Acceptable bindings ∧ later.saved = store.saved) ∧ later.Reflects bindings)
      store := by
  have hkept : ∀ later : AuthProfileStore, later.saved = store.saved ∨ later.saved = none →
      later.Reflects bindings := by
    intro later hlater profiles hprofiles
    rcases hlater with hsame | hnone
    · exact h profiles (hsame ▸ hprofiles)
    · rw [hnone] at hprofiles
      cases hprofiles
  have htroubled : ∀ {n : Nat} {P : Prop},
      (Disk.fault n ≠ none ∨ store.saved = none) → Untroubled store → P := by
    intro n P htrouble hfine
    rcases htrouble with hfault | hnone
    · exact absurd (hfine.1 n) hfault
    · exact absurd hfine.2 (by simp [hnone])
  cases request with
  | upsert profile =>
      unfold ProfileRequest.handle upsertProviderAuthProfile validateProviderAuthProfile
      rw [wp_bind, wp_bind]
      split
      next hid =>
        refine ⟨fun _ => ⟨fun hok => ?_, rfl⟩, h⟩
        exact absurd hid (by simp [hok.1])
      next hid =>
        split
        next hprovider =>
          refine ⟨fun _ => ⟨fun hok => ?_, rfl⟩, h⟩
          exact absurd hprovider (by simp [hok.2])
        next hprovider =>
          rw [wp_pure, wp_bind]
          apply wp_readAuthProfiles
          · intro profiles hprofiles
            rw [wp_bind]
            apply wp_writeAuthProfiles
            · intro later hlater
              refine ⟨⟨by simpa using hid, by simpa using hprovider⟩, by rw [hlater]; rfl, ?_⟩
              intro saved hsaved
              obtain rfl := Option.some.inj (hlater.symm.trans hsaved)
              exact ((h profiles hprofiles).holds.put profile).lists_sorted
            · intro e later hfault hlater
              exact ⟨htroubled (.inl hfault), hkept later hlater⟩
          · intro e htrouble
            exact ⟨htroubled htrouble, h⟩
  | delete profileId =>
      unfold ProfileRequest.handle deleteProviderAuthProfile
      rw [wp_bind, wp_bind]
      apply wp_readAuthProfiles
      · intro profiles hprofiles
        have hlists := h profiles hprofiles
        dsimp only
        split
        next hlength =>
          have hnone := (hlists.holds.length_erase_iff profileId).mp hlength
          exact ⟨fun _ => ⟨fun hok => hok hnone, rfl⟩, h⟩
        next hlength =>
          rw [wp_bind]
          apply wp_writeAuthProfiles
          · intro later hlater
            refine ⟨fun hnone => ?_, by rw [hlater]; rfl, ?_⟩
            · exact hlength ((hlists.holds.length_erase_iff profileId).mpr hnone)
            · intro saved hsaved
              obtain rfl := Option.some.inj (hlater.symm.trans hsaved)
              exact hlists.erase profileId
          · intro e later hfault hlater
            exact ⟨htroubled (.inl hfault), hkept later hlater⟩
      · intro e htrouble
        exact ⟨htroubled htrouble, h⟩

/-- What is listed is what is saved, or the part of it that belongs to the provider. -/
theorem list_reflects (h : store.Reflects bindings) {providerId : Option String}
    {profiles : List ProviderAuthProfile}
    (hlisted : result (listProviderAuthProfiles providerId) store = some profiles) :
    Lists ProviderAuthProfile.profileId profiles (ofProvider bindings providerId) := by
  have hwp : wp (listProviderAuthProfiles providerId)
      (fun profiles _ => Lists ProviderAuthProfile.profileId profiles
        (ofProvider bindings providerId)) (fun _ _ => True) store := by
    unfold listProviderAuthProfiles
    rw [wp_bind]
    apply wp_readAuthProfiles
    · intro saved hsaved
      cases providerId with
      | none => exact h saved hsaved
      | some providerId => exact (h saved hsaved).filter _
    · exact fun _ _ => trivial
  exact wp_of_result hwp hlisted

/-- Nothing fails while the profiles are read. -/
theorem wp_readAuthProfiles_untroubled {Q : AuthProfileSnapshot → AuthProfileStore → Prop}
    (hfine : Untroubled store)
    (hread : ∀ profiles, store.saved = some profiles → Q ⟨profiles⟩ store.tick) :
    wp readAuthProfiles Q (fun _ _ => False) store := by
  apply wp_readAuthProfiles hread
  intro e htrouble
  rcases htrouble with hfault | hnone
  · exact hfault (hfine.1 _)
  · exact absurd hfine.2 (by simp [hnone])

theorem list_served (hfine : Untroubled store) (providerId : Option String) :
    (result (listProviderAuthProfiles providerId) store).isSome := by
  have hwp : wp (listProviderAuthProfiles providerId) (fun _ _ => True) (fun _ _ => False)
      store := by
    unfold listProviderAuthProfiles
    rw [wp_bind]
    apply wp_readAuthProfiles_untroubled hfine
    intro profiles _
    cases providerId <;> trivial
  exact isSome_result_of_wp hwp

theorem gateway_reads {profiles : List ProviderAuthProfile}
    (hread : result readProviderAuthProfiles store = some profiles)
    (base : Table String ProviderOverride) :
    result (gatewayOverrides base) store =
      some (gatewayWithProviderAuthProfiles base profiles) := by
  unfold result at hread
  cases hrun : (readProviderAuthProfiles : AuthM _) store with
  | error e later => rw [hrun] at hread; cases hread
  | ok value later =>
      rw [hrun] at hread
      obtain rfl := Option.some.inj hread
      have hwp : wp (gatewayOverrides base)
          (fun overrides _ => overrides = gatewayWithProviderAuthProfiles base value)
          (fun _ _ => False) store := by
        unfold gatewayOverrides
        rw [wp_bind, wp_attempt]
        show wp (readProviderAuthProfiles : AuthM _) _ _ store
        unfold wp
        rw [hrun]
        rfl
      obtain ⟨overrides, later', hgateway, heq⟩ := exists_ok_of_wp hwp
      rw [result, hgateway, heq]

theorem read_reflects (h : store.Reflects bindings) {profiles : List ProviderAuthProfile}
    (hread : result readProviderAuthProfiles store = some profiles) :
    Lists ProviderAuthProfile.profileId profiles bindings := by
  have hwp : wp (readProviderAuthProfiles : AuthM _)
      (fun profiles _ => Lists ProviderAuthProfile.profileId profiles bindings)
      (fun _ _ => True) store := by
    unfold readProviderAuthProfiles
    rw [wp_map]
    exact wp_readAuthProfiles (fun saved hsaved => h saved hsaved) fun _ _ => trivial
  exact wp_of_result hwp hread

end Store

/-! ### Histories -/

/-- A store with the map that the accepted requests come to. -/
structure MappedStore where
  store : AuthProfileStore
  bindings : Bindings

namespace MappedStore

def blank : MappedStore := { store := AuthProfileStore.blank, bindings := fun _ => none }

variable [Disk]

def step (mapped : MappedStore) (request : ProfileRequest) : MappedStore :=
  { store := after request.handle mapped.store
    bindings := if (result request.handle mapped.store).isSome then request.apply mapped.bindings
      else mapped.bindings }

/-- The store answers as the map does. -/
structure IsFiniteMap (mapped : MappedStore) : Prop where
  listed : ∀ providerId profiles,
    result (listProviderAuthProfiles providerId) mapped.store = some profiles →
      Lists ProviderAuthProfile.profileId profiles (ofProvider mapped.bindings providerId)
  accepted : ∀ request : ProfileRequest, (result request.handle mapped.store).isSome →
    request.Acceptable mapped.bindings
  /-- On a disk that works everything is listed, all that the map accepts is accepted, and what is
  rejected has no effect. -/
  served : (∀ n, Disk.fault n = none) →
    (∀ providerId, (result (listProviderAuthProfiles providerId) mapped.store).isSome) ∧
      ∀ request : ProfileRequest, (result request.handle mapped.store).isSome ∨
        ¬ request.Acceptable mapped.bindings ∧
          (after request.handle mapped.store).saved = mapped.store.saved
  chosen : ∀ id profile, mapped.bindings id = some profile →
    ∃! chosen, Chosen mapped.bindings chosen ∧ chosen.providerId = profile.providerId
  overrides : ∀ base profiles,
    result readProviderAuthProfiles mapped.store = some profiles →
      ∃ overrides, result (gatewayOverrides base) mapped.store = some overrides ∧
        TakesChosen mapped.bindings base overrides
  /-- The order in which the profiles are stored does not matter. -/
  anyOrder : ∀ base profiles, Holds ProviderAuthProfile.profileId profiles mapped.bindings →
    TakesChosen mapped.bindings base (gatewayWithProviderAuthProfiles base profiles)

structure Kept (mapped : MappedStore) : Prop where
  reflects : mapped.store.Reflects mapped.bindings
  finite : ∃ profiles, Holds ProviderAuthProfile.profileId profiles mapped.bindings
  reads : (∀ n, Disk.fault n = none) → mapped.store.saved.isSome

theorem kept_blank : blank.Kept := by
  refine ⟨fun profiles hprofiles => ?_, ⟨[], holds_nil⟩, fun _ => rfl⟩
  obtain rfl : [] = profiles := Option.some.inj hprofiles
  exact lists_nil

theorem Kept.step {mapped : MappedStore} (h : mapped.Kept) (request : ProfileRequest) :
    (mapped.step request).Kept := by
  have hhandle := wp_handle h.reflects request
  unfold MappedStore.step
  cases hresult : result request.handle mapped.store with
  | some answer =>
      obtain ⟨-, hsome, hreflects⟩ := wp_of_result hhandle hresult
      obtain ⟨profiles, hprofiles⟩ := Option.isSome_iff_exists.mp hsome
      exact ⟨hreflects, ⟨profiles, (hreflects profiles hprofiles).holds⟩, fun _ => hsome⟩
  | none =>
      obtain ⟨_, hkept, hreflects⟩ := wp_of_failed hhandle hresult
      refine ⟨hreflects, h.finite, fun hcalm => ?_⟩
      show (after request.handle mapped.store).saved.isSome
      rw [(hkept ⟨hcalm, h.reads hcalm⟩).2]
      exact h.reads hcalm

theorem Kept.isFiniteMap {mapped : MappedStore} (h : mapped.Kept) : mapped.IsFiniteMap := by
  have hhandle := wp_handle h.reflects
  obtain ⟨profiles, hholds⟩ := h.finite
  refine
    { listed := fun providerId profiles => list_reflects h.reflects
      accepted := fun request haccepted => ?_
      served := fun hcalm => ⟨list_served ⟨hcalm, h.reads hcalm⟩, fun request => ?_⟩
      chosen := fun id profile hbound => ?_
      overrides := fun base profiles hread =>
        ⟨_, gateway_reads hread base, takesChosen (read_reflects h.reflects hread).holds base⟩
      anyOrder := fun base profiles hstored => takesChosen hstored base }
  · obtain ⟨answer, hanswer⟩ := Option.isSome_iff_exists.mp haccepted
    exact (wp_of_result (hhandle request) hanswer).1
  · cases hresult : result request.handle mapped.store with
    | some answer => exact .inl rfl
    | none =>
        obtain ⟨_, hkept, -⟩ := wp_of_failed (hhandle request) hresult
        exact .inr (hkept ⟨hcalm, h.reads hcalm⟩)
  · obtain ⟨hmem, -⟩ := (hholds.bound id profile).mp hbound
    obtain ⟨chosen, hchosen, hprovider⟩ := exists_chosen hholds hmem
    refine ⟨chosen, ⟨hchosen, hprovider⟩, fun other hother => ?_⟩
    exact hchosen.unique hholds hother.1 (hother.2.trans hprovider.symm)

end MappedStore

/-- After any requests the saved profiles are the finite map that the accepted ones come to. -/
theorem saved_profiles_are_a_map [Disk] (requests : List ProfileRequest) :
    (Runs.final MappedStore.step MappedStore.blank requests).IsFiniteMap := by
  have hstep : ∀ (mapped : MappedStore) (request : ProfileRequest), mapped.Kept →
      (mapped.step request).Kept := fun mapped request h => h.step request
  have hkept := Runs.invariant (fun mapped request h _ => hstep mapped request h)
    MappedStore.kept_blank (Runs.allSteps_true MappedStore.blank requests)
  exact (hkept _ (Runs.final_mem_states _ requests)).isFiniteMap

end Liz
