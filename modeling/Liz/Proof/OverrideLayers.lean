import Mathlib.Data.List.Sort
import Liz.Base.Tables
import Liz.Proof.TokenRotation
import Liz.Storage.ConfigFile

/-!
# Layers of overrides

The overrides of a provider come from the environment, the configuration file and the saved profiles.
Two functions put one layer over another, each field by field. Here a layer is what it says of each
provider, and both functions put one such layer over another: what the upper one leaves open is taken
from the lower one.
-/

/-! ### Layers -/

namespace Layers

variable {κ μ ν τ : Type} {merge : ν → ν → ν}

/-- The upper layer over the lower one; where both say something, it is merged. -/
def stack (merge : ν → ν → ν) (upper lower : κ → Option ν) : κ → Option ν :=
  fun k => (upper k).merge merge (lower k)

theorem stack_assoc (hmerge : ∀ a b c, merge (merge a b) c = merge a (merge b c))
    (upper middle lower : κ → Option ν) :
    stack merge (stack merge upper middle) lower = stack merge upper (stack merge middle lower) := by
  funext k
  unfold stack
  cases upper k with
  | none => simp
  | some a =>
      cases middle k with
      | none => simp
      | some b =>
          cases lower k with
          | none => simp
          | some c => simp [hmerge]

section Writing

variable [DecidableEq κ]

def single (k : κ) (v : ν) : κ → Option ν := fun k' => if k' = k then some v else none

/-- The layer of some entries, of which the first one counts. -/
def ofList (entries : List (κ × ν)) : κ → Option ν := fun k => entries.lookup k

theorem ofList_cons (k : κ) (v : ν) {rest : List (κ × ν)} (h : k ∉ rest.map Prod.fst) :
    ofList ((k, v) :: rest) = stack merge (ofList rest) (single k v) := by
  funext k'
  unfold ofList stack single
  rw [List.lookup_cons]
  by_cases hk : k' = k
  · have hrest : rest.lookup k = none := by
      rw [List.lookup_eq_none_iff]
      intro entry hentry
      rw [bne_iff_ne]
      exact fun heq => h (heq ▸ List.mem_map_of_mem hentry)
    rw [hk, beq_self_eq_true, if_pos rfl]
    simp [hrest]
  · rw [if_neg hk, beq_eq_false_iff_ne.mpr hk]
    simp

/-- Entries that are written one by one are put over what was there. -/
theorem foldl_write {write : τ → μ → τ} {read : τ → κ → Option ν} {key : μ → κ} {value : μ → ν}
    (hmerge : ∀ a b c, merge (merge a b) c = merge a (merge b c))
    (hwrite : ∀ t entry, read (write t entry) = stack merge (single (key entry) (value entry)) (read t))
    {entries : List μ} (hnodup : (entries.map key).Nodup) (t : τ) :
    read (entries.foldl write t) =
      stack merge (ofList (entries.map fun entry => (key entry, value entry))) (read t) := by
  induction entries generalizing t with
  | nil =>
      funext k
      simp [stack, ofList]
  | cons entry rest ih =>
      rw [List.map_cons, List.nodup_cons] at hnodup
      have hfirst : key entry ∉ (rest.map fun entry => (key entry, value entry)).map Prod.fst := by
        rw [List.map_map]
        exact hnodup.1
      rw [List.foldl_cons, ih hnodup.2, hwrite, ← stack_assoc hmerge, List.map_cons,
        ← ofList_cons (key entry) (value entry) hfirst]

end Writing

end Layers

namespace Liz

open Layers

/-! ### The two functions -/

structure ModelGatewayConfig where
  primaryProvider : String
  overrides : Table String ProviderOverride

/-- The fields that the entry of the file sets. -/
def LizProviderConfig.onto (provider : LizProviderConfig) (override : ProviderOverride) :
    ProviderOverride :=
  let override :=
    if provider.baseUrl.isSome then { override with baseUrl := provider.baseUrl } else override
  let override :=
    if provider.apiKey.isSome then { override with apiKey := provider.apiKey } else override
  let override :=
    if provider.modelId.isSome then { override with modelId := provider.modelId } else override
  { override with
    headers := provider.headers ∪ override.headers
    metadata := provider.metadata ∪ override.metadata }

/-- The override of a provider is taken out and put back with the fields of its entry. -/
def mergeProvider (overrides : Table String ProviderOverride) (entry : String × LizProviderConfig) :
    Table String ProviderOverride :=
  let override := (overrides.lookup entry.1).getD ProviderOverride.empty
  (overrides.erase entry.1).insert entry.1 (entry.2.onto override)

/-- The entries of the file in the order of their keys. -/
def LizConfigFile.entries (config : LizConfigFile) : List (String × LizProviderConfig) :=
  (config.providers.entries.map fun entry => (entry.1, entry.2)).insertionSort
    fun left right => left.1 ≤ right.1

/-- The file goes over the configuration of the environment. -/
def LizConfigFile.intoGatewayConfig (config : LizConfigFile) (envConfig : ModelGatewayConfig) :
    ModelGatewayConfig :=
  { primaryProvider := config.primaryProvider.getD envConfig.primaryProvider
    overrides := config.entries.foldl mergeProvider envConfig.overrides }

/-- The entry of the file as an override. -/
def LizProviderConfig.override (provider : LizProviderConfig) : ProviderOverride :=
  { baseUrl := provider.baseUrl, apiKey := provider.apiKey, modelId := provider.modelId,
    headers := provider.headers, metadata := provider.metadata }

/-! ### What overrides say -/

structure Settings where
  baseUrl : Option String
  apiKey : Option String
  modelId : Option String
  headers : String → Option String
  metadata : String → Option String

/-- The settings of the upper layer where it has any. -/
def Settings.over (upper lower : Settings) : Settings :=
  { baseUrl := upper.baseUrl.or lower.baseUrl
    apiKey := upper.apiKey.or lower.apiKey
    modelId := upper.modelId.or lower.modelId
    headers := fun key => (upper.headers key).or (lower.headers key)
    metadata := fun key => (upper.metadata key).or (lower.metadata key) }

theorem Settings.over_assoc (a b c : Settings) : (a.over b).over c = a.over (b.over c) := by
  simp only [Settings.over, Option.or_assoc]

def ProviderOverride.settings (override : ProviderOverride) : Settings :=
  { baseUrl := override.baseUrl
    apiKey := override.apiKey
    modelId := override.modelId
    headers := override.headers.lookup
    metadata := override.metadata.lookup }

abbrev Layer := String → Option Settings

def layer (overrides : Table String ProviderOverride) : Layer :=
  fun providerId => (overrides.lookup providerId).map ProviderOverride.settings

theorem lookup_union_or (upper lower : Table String String) (key : String) :
    (upper ∪ lower).lookup key = (upper.lookup key).or (lower.lookup key) := by
  cases hupper : upper.lookup key with
  | none => rw [Option.none_or, AList.lookup_union_right (AList.lookup_eq_none.mp hupper)]
  | some value =>
      rw [Option.some_or, AList.lookup_union_left (AList.lookup_isSome.mp (by rw [hupper]; rfl)), hupper]

/-- An override that is added or merged is put over what there is. -/
theorem layer_withProviderOverride (overrides : Table String ProviderOverride)
    (entry : String × ProviderOverride) :
    layer (withProviderOverride overrides entry.1 entry.2) =
      stack Settings.over (single entry.1 entry.2.settings) (layer overrides) := by
  obtain ⟨providerId, override⟩ := entry
  funext id
  unfold stack single layer
  by_cases hid : id = providerId
  · subst hid
    rw [if_pos rfl, withProviderOverride]
    cases hfound : overrides.lookup id with
    | none => simp [AList.lookup_insert]
    | some existing =>
        simp only [AList.lookup_insert, Option.map_some, Option.merge_some_some]
        simp only [ProviderOverride.settings, Settings.over, lookup_union_or]
  · rw [if_neg hid, lookup_withProviderOverride_ne _ hid, Option.merge_none_left]

theorem settings_onto (provider : LizProviderConfig) (override : ProviderOverride) :
    (provider.onto override).settings = provider.override.settings.over override.settings := by
  obtain ⟨baseUrl, apiKey, modelId, headers, metadata⟩ := provider
  cases baseUrl <;> cases apiKey <;> cases modelId <;>
    simp [LizProviderConfig.onto, LizProviderConfig.override, ProviderOverride.settings, Settings.over,
      lookup_union_or]

theorem over_empty (settings : Settings) : settings.over ProviderOverride.empty.settings = settings := by
  simp [Settings.over, ProviderOverride.settings, ProviderOverride.empty]

/-- So is an entry of the file. -/
theorem layer_mergeProvider (overrides : Table String ProviderOverride)
    (entry : String × LizProviderConfig) :
    layer (mergeProvider overrides entry) =
      stack Settings.over (single entry.1 entry.2.override.settings) (layer overrides) := by
  obtain ⟨providerId, provider⟩ := entry
  funext id
  unfold stack single layer mergeProvider
  dsimp only
  by_cases hid : id = providerId
  · subst hid
    rw [if_pos rfl, AList.lookup_insert, Option.map_some, settings_onto]
    cases hfound : overrides.lookup id with
    | none => rw [Option.getD_none, over_empty, Option.map_none, Option.merge_none_right]
    | some existing => rw [Option.getD_some, Option.map_some, Option.merge_some_some]
  · rw [if_neg hid, AList.lookup_insert_ne hid, AList.lookup_erase_ne hid, Option.merge_none_left]

/-! ### The three layers -/

def fileLayer (config : LizConfigFile) : Layer := fun providerId =>
  (config.providers.lookup providerId).map fun provider => provider.override.settings

/-- Of the profiles of a provider the selected one counts. -/
def profileLayer (profiles : List ProviderAuthProfile) : Layer :=
  ofList ((selectDefaultAuthProfiles profiles).map fun profile =>
    (profile.providerId, (providerOverrideFromAuthProfile profile).settings))

/-- The overrides of one table added or merged into another. -/
def mergeOverrides (upper lower : Table String ProviderOverride) : Table String ProviderOverride :=
  (upper.entries.map fun entry => (entry.1, entry.2)).foldl
    (fun overrides entry => withProviderOverride overrides entry.1 entry.2) lower

theorem layer_mergeOverrides (upper lower : Table String ProviderOverride) :
    layer (mergeOverrides upper lower) = stack Settings.over (layer upper) (layer lower) := by
  have hnodup : ((upper.entries.map fun entry => (entry.1, entry.2)).map Prod.fst).Nodup := by
    rw [List.map_map]
    exact Tables.keys_nodup upper
  rw [mergeOverrides, foldl_write Settings.over_assoc layer_withProviderOverride hnodup]
  congr 1
  funext id
  rw [ofList, List.map_map]
  exact Tables.lookup_pairs ProviderOverride.settings upper id

theorem entries_perm (config : LizConfigFile) :
    config.entries.Perm (config.providers.entries.map fun entry => (entry.1, entry.2)) :=
  List.perm_insertionSort _ _

theorem entries_nodup (config : LizConfigFile) : (config.entries.map Prod.fst).Nodup := by
  rw [((entries_perm config).map Prod.fst).nodup_iff, List.map_map]
  exact Tables.keys_nodup config.providers

/-- The order of the entries does not matter. -/
theorem ofList_entries {config : LizConfigFile} {entries : List (String × LizProviderConfig)}
    (h : entries.Perm config.entries) :
    ofList (entries.map fun entry => (entry.1, entry.2.override.settings)) = fileLayer config := by
  funext id
  have hperm := (h.trans (entries_perm config)).map fun entry =>
    (entry.1, entry.2.override.settings)
  rw [List.map_map] at hperm
  rw [ofList, Tables.lookup_perm hperm]
  · exact Tables.lookup_pairs (fun provider => provider.override.settings) config.providers id
  · rw [List.map_map]
    exact Tables.keys_nodup config.providers

theorem layer_intoGatewayConfig (config : LizConfigFile) (envConfig : ModelGatewayConfig) :
    layer (config.intoGatewayConfig envConfig).overrides =
      stack Settings.over (fileLayer config) (layer envConfig.overrides) := by
  rw [LizConfigFile.intoGatewayConfig,
    foldl_write Settings.over_assoc layer_mergeProvider (entries_nodup config),
    ofList_entries (List.Perm.refl _)]

/-- Overrides that are added or merged entry by entry, in any order, say the same. -/
theorem layer_entries {config : LizConfigFile} {entries : List (String × LizProviderConfig)}
    (h : entries.Perm config.entries) (overrides : Table String ProviderOverride) :
    layer (entries.foldl (fun overrides entry =>
        withProviderOverride overrides entry.1 entry.2.override) overrides) =
      stack Settings.over (fileLayer config) (layer overrides) := by
  have hnodup : (entries.map Prod.fst).Nodup :=
    (h.map Prod.fst).nodup_iff.mpr (entries_nodup config)
  rw [foldl_write Settings.over_assoc
      (fun overrides entry => layer_withProviderOverride overrides (entry.1, entry.2.override)) hnodup,
    ofList_entries h]

theorem layer_gatewayWithProviderAuthProfiles (overrides : Table String ProviderOverride)
    (profiles : List ProviderAuthProfile) :
    layer (gatewayWithProviderAuthProfiles overrides profiles) =
      stack Settings.over (profileLayer profiles) (layer overrides) := by
  rw [gatewayWithProviderAuthProfiles, foldl_write Settings.over_assoc
    (fun overrides profile => layer_withProviderOverride overrides
      (profile.providerId, providerOverrideFromAuthProfile profile)) (selected_nodup profiles)]
  rfl

/-! ### The order of precedence -/

/-- There are settings if any layer has some, and each is the first one that a layer sets. -/
structure FirstSet (layers : List (Option Settings)) (merged : Option Settings) : Prop where
  present : merged.isSome ↔ ∃ settings ∈ layers, settings.isSome
  baseUrl : merged.bind Settings.baseUrl = layers.findSome? (·.bind Settings.baseUrl)
  apiKey : merged.bind Settings.apiKey = layers.findSome? (·.bind Settings.apiKey)
  modelId : merged.bind Settings.modelId = layers.findSome? (·.bind Settings.modelId)
  headers : ∀ key, merged.bind (·.headers key) = layers.findSome? (·.bind (·.headers key))
  metadata : ∀ key, merged.bind (·.metadata key) = layers.findSome? (·.bind (·.metadata key))

theorem firstSet_nil : FirstSet [] none := by
  constructor <;> simp

/-- A layer over the others comes first. -/
theorem FirstSet.cons {layers : List (Option Settings)} {merged : Option Settings}
    (h : FirstSet layers merged) (upper : Option Settings) :
    FirstSet (upper :: layers) (upper.merge Settings.over merged) := by
  have hfield : ∀ {α : Type} {field : Settings → Option α},
      (∀ a b : Settings, field (a.over b) = (field a).or (field b)) →
      merged.bind field = layers.findSome? (·.bind field) →
      (upper.merge Settings.over merged).bind field =
        (upper :: layers).findSome? (·.bind field) := by
    intro α field hover hrest
    rw [List.findSome?_cons, ← hrest]
    cases upper with
    | none => simp
    | some a =>
        cases merged with
        | none => cases hfound : field a <;> simp [hfound]
        | some b => cases hfound : field a <;> simp [hover, hfound]
  constructor
  case present =>
    rw [List.exists_mem_cons_iff, ← h.present, Option.isSome_merge, Bool.or_eq_true]
  case baseUrl => exact hfield (fun _ _ => rfl) h.baseUrl
  case apiKey => exact hfield (fun _ _ => rfl) h.apiKey
  case modelId => exact hfield (fun _ _ => rfl) h.modelId
  case headers => exact fun key => hfield (fun _ _ => rfl) (h.headers key)
  case metadata => exact fun key => hfield (fun _ _ => rfl) (h.metadata key)

theorem lookup_intoGatewayConfig_of_others {config : LizConfigFile} {providerId : String}
    (h : providerId ∉ config.providers) (envConfig : ModelGatewayConfig) :
    (config.intoGatewayConfig envConfig).overrides.lookup providerId =
      envConfig.overrides.lookup providerId := by
  have hkeys : ∀ entry ∈ config.entries, providerId ≠ entry.1 := by
    intro entry hentry heq
    have hmem := (entries_perm config).mem_iff.mp hentry
    obtain ⟨found, hfound, rfl⟩ := List.mem_map.mp hmem
    exact h (AList.mem_keys.mpr (heq ▸ List.mem_map_of_mem hfound))
  have hfold : ∀ (entries : List (String × LizProviderConfig)) (overrides : Table String ProviderOverride),
      (∀ entry ∈ entries, providerId ≠ entry.1) →
      (entries.foldl mergeProvider overrides).lookup providerId = overrides.lookup providerId := by
    intro entries
    induction entries with
    | nil => exact fun _ _ => rfl
    | cons entry rest ih =>
        intro overrides hothers
        have hne := hothers entry List.mem_cons_self
        rw [List.foldl_cons, ih _ fun other hother => hothers other (List.mem_cons_of_mem _ hother),
          mergeProvider, AList.lookup_insert_ne hne, AList.lookup_erase_ne hne]
  exact hfold _ _ hkeys

/-- What is selected is of a provider that has a profile. -/
theorem provider_of_selected {profiles : List ProviderAuthProfile} {providerId : String}
    (h : providerId ∈ (selectDefaultAuthProfiles profiles).map ProviderAuthProfile.providerId) :
    providerId ∈ profiles.map ProviderAuthProfile.providerId := by
  unfold selectDefaultAuthProfiles at h
  rw [filterMap_map_of_key fun _ _ => selected_providerId _] at h
  have hsorted := List.mem_of_mem_filter h
  rwa [List.mem_insertionSort, List.mem_dedup] at hsorted

/-- The file is merged as its entries would be one by one, merging is associative, and what comes out
is for each provider what the profile, the file and the environment set first; a layer leaves alone
the providers that it does not mention. -/
theorem override_precedence (envConfig : ModelGatewayConfig) (config : LizConfigFile)
    (profiles : List ProviderAuthProfile) :
    (∀ entries : List (String × LizProviderConfig), entries.Perm config.entries →
      layer (config.intoGatewayConfig envConfig).overrides =
        layer (entries.foldl (fun overrides entry =>
          withProviderOverride overrides entry.1 entry.2.override) envConfig.overrides)) ∧
    (∀ upper middle lower : Table String ProviderOverride,
      layer (mergeOverrides (mergeOverrides upper middle) lower) =
        layer (mergeOverrides upper (mergeOverrides middle lower))) ∧
    (∀ providerId, FirstSet
      [profileLayer profiles providerId, fileLayer config providerId,
        layer envConfig.overrides providerId]
      (layer (gatewayWithProviderAuthProfiles (config.intoGatewayConfig envConfig).overrides profiles)
        providerId)) ∧
    (∀ providerId, providerId ∉ config.providers →
      (config.intoGatewayConfig envConfig).overrides.lookup providerId =
        envConfig.overrides.lookup providerId) ∧
    (∀ overrides providerId, (∀ profile ∈ profiles, profile.providerId ≠ providerId) →
      (gatewayWithProviderAuthProfiles overrides profiles).lookup providerId =
        overrides.lookup providerId) := by
  refine ⟨fun entries hentries => ?_, fun upper middle lower => ?_, fun providerId => ?_,
    fun providerId hothers => lookup_intoGatewayConfig_of_others hothers envConfig,
    fun overrides providerId hothers => ?_⟩
  · rw [layer_intoGatewayConfig, layer_entries hentries]
  · simp only [layer_mergeOverrides, stack_assoc Settings.over_assoc]
  · rw [layer_gatewayWithProviderAuthProfiles, layer_intoGatewayConfig]
    have hlowest := firstSet_nil.cons (layer envConfig.overrides providerId)
    rw [Option.merge_none_right] at hlowest
    exact (hlowest.cons _).cons _
  · apply lookup_of_others
    intro hselected
    obtain ⟨profile, hprofile, hid⟩ := List.mem_map.mp (provider_of_selected hselected)
    exact hothers profile hprofile hid

end Liz
