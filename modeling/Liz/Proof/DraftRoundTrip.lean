import Liz.Base.Runs
import Liz.Cli.ConfigPanel

/-!
# Saving a draft and opening it again

The panel keeps what is edited for every provider, but the provider that is shown is the only one
that is saved, and of its fields those that are not blank. So what is shown after the next opening is
what was shown before exactly when there is nothing else to save.
-/

namespace Liz.Cli

/-! ### The values of a provider -/

def ProviderOverrideDraft.get (values : ProviderOverrideDraft) : ProviderField → String
  | .baseUrl => values.baseUrl
  | .apiKey => values.apiKey
  | .model => values.modelId

namespace ConfigPanel

variable (panel : ConfigPanel)

/-- What the fields of the panel show. -/
def visible : ProviderOverrideDraft :=
  { baseUrl := panel.baseUrl, apiKey := panel.apiKey, modelId := panel.modelId }

/-- What the panel shows once it comes to the provider. -/
def valuesOf (provider : String) : ProviderOverrideDraft :=
  (panel.providerOverrides.lookup provider).getD ProviderOverrideDraft.default

/-- The fields show what is kept for the provider, if it has a name. -/
def ShowsKept : Prop := panel.providerId ≠ "" → panel.valuesOf panel.providerId = panel.visible

theorem showsKept_persistVisibleFields : panel.persistVisibleFields.ShowsKept := by
  rw [persistVisibleFields]
  split
  next hempty => exact fun hname => absurd (String.isEmpty_iff.mp hempty) hname
  next =>
    intro _
    simp [valuesOf, visible, AList.lookup_insert]

end ConfigPanel

/-- What the configuration has for the provider. -/
def storedValues (config : LizConfigFile) (provider : String) : ProviderOverrideDraft :=
  ((ConfigPanel.overridesOf config).lookup provider).getD ProviderOverrideDraft.default

theorem valuesOf_loadFrom (config : LizConfigFile) (authProfiles : List ProviderAuthProfile)
    (fallbackProvider : Option String) (provider : String) :
    (ConfigPanel.loadFrom config authProfiles fallbackProvider).valuesOf provider =
      storedValues config provider := rfl

theorem providerId_loadFrom (config : LizConfigFile) (authProfiles : List ProviderAuthProfile)
    (fallbackProvider : Option String) :
    (ConfigPanel.loadFrom config authProfiles fallbackProvider).providerId =
      (config.primaryProvider.or fallbackProvider).getD "openai" := rfl

theorem storedValues_eq (config : LizConfigFile) (provider : String) :
    storedValues config provider =
      ((config.providers.lookup provider).map fun entry =>
        { baseUrl := entry.baseUrl.getD "", apiKey := entry.apiKey.getD "",
          modelId := entry.modelId.getD "" }).getD ProviderOverrideDraft.default := by
  rw [storedValues, ConfigPanel.overridesOf, Tables.lookup_mapValues]

theorem storedValues_saveOverride (config : LizConfigFile) (providerId : String)
    (field : ProviderField) (value provider : String) (read : ProviderField) :
    (storedValues (saveOverride config providerId field value) provider).get read =
      if provider = providerId ∧ read = field ∧ value ≠ "" then value
      else (storedValues config provider).get read := by
  rw [saveOverride]
  by_cases hempty : value = ""
  · simp [hempty]
  · rw [if_neg (by simpa using hempty), storedValues_eq, storedValues_eq]
    by_cases hprovider : provider = providerId
    · subst hprovider
      simp only [upsertProvider, AList.lookup_insert]
      cases field <;> cases read <;> cases config.providers.lookup provider <;>
        simp [ProviderOverrideDraft.get, ProviderOverrideDraft.default, LizProviderConfig.default, hempty]
    · rw [if_neg fun h => hprovider h.1]
      simp only [upsertProvider, AList.lookup_insert_ne hprovider]

theorem primaryProvider_saveOverride (config : LizConfigFile) (providerId : String)
    (field : ProviderField) (value : String) :
    (saveOverride config providerId field value).primaryProvider = config.primaryProvider := by
  rw [saveOverride]
  split <;> rfl

def ConfigDraft.get (draft : ConfigDraft) : ProviderField → String
  | .baseUrl => draft.baseUrl
  | .apiKey => draft.apiKey
  | .model => draft.modelId

/-- A saved draft sets the fields of its own provider that are not blank, and nothing else. -/
theorem storedValues_applyTo (draft : ConfigDraft) (config : LizConfigFile) (provider : String)
    (read : ProviderField) :
    (storedValues (draft.applyTo config) provider).get read =
      if provider = Text.trim draft.providerId ∧ Text.trim (draft.get read) ≠ "" then
        Text.trim (draft.get read)
      else (storedValues config provider).get read := by
  have hprimary : storedValues { config with primaryProvider := some (Text.trim draft.providerId) }
      provider = storedValues config provider := rfl
  simp only [ConfigDraft.applyTo, storedValues_saveOverride, hprimary]
  cases read <;> simp [ConfigDraft.get] <;> rfl

theorem primaryProvider_applyTo (draft : ConfigDraft) (config : LizConfigFile) :
    (draft.applyTo config).primaryProvider = some (Text.trim draft.providerId) := by
  simp only [ConfigDraft.applyTo, primaryProvider_saveOverride]

/-! ### The next opening -/

namespace ConfigSession

def ShowsKept (session : ConfigSession) : Prop := session.panel.ShowsKept

theorem ShowsKept.step {session : ConfigSession} (h : session.ShowsKept) (step : ConfigStep) :
    (session.step step).ShowsKept := by
  cases step with
  | openPanel authProfiles fallbackProvider | cycle backwards => exact fun _ => rfl
  | focusPrevious | focusNext | rewritten config => exact h
  | pushChar value => exact ConfigPanel.showsKept_persistVisibleFields _
  | popChar =>
      rw [ConfigSession.step, ShowsKept, ConfigPanel.popChar]
      split
      · exact h
      · exact ConfigPanel.showsKept_persistVisibleFields _
  | save =>
      rw [ConfigSession.step, ShowsKept, ConfigSession.save]
      split <;> exact h

/-- The panel has been opened on the file. -/
def opened (file : LizConfigFile) (authProfiles : List ProviderAuthProfile)
    (fallbackProvider : Option String) : ConfigSession :=
  { panel := ConfigPanel.loadFrom file authProfiles fallbackProvider, file := file }

/-- The names that the provider field has shown. -/
def visited (start : ConfigSession) (steps : List ConfigStep) : List String :=
  (Runs.states step start steps).map (·.panel.providerId)

/-- The draft is saved, and the panel is opened again. -/
def reopened (session : ConfigSession) (authProfiles : List ProviderAuthProfile)
    (fallbackProvider : Option String) : ConfigPanel :=
  (session.save.step (.openPanel authProfiles fallbackProvider)).panel

/-- The provider is the same, and every visited one has the same values, those that were empty
included. The name of a provider is trimmed when it is saved. -/
structure SameAgain (session : ConfigSession) (visited : List String) (again : ConfigPanel) :
    Prop where
  provider : again.providerId = Text.trim session.panel.providerId
  values : ∀ name ∈ visited, ∀ field,
    Text.trim ((again.valuesOf (Text.trim name)).get field) =
      Text.trim ((session.panel.valuesOf name).get field)
  cleared : ∀ name ∈ visited, ∀ field, (session.panel.valuesOf name).get field = "" →
    (again.valuesOf (Text.trim name)).get field = ""

/-- There is nothing to save but the fields of the provider that is shown, and none of its fields
has been emptied. -/
structure NothingElse (session : ConfigSession) (visited : List String) : Prop where
  /-- What is blank in the panel is blank in the file. -/
  blank : ∀ field, Text.trim (session.panel.visible.get field) = "" →
    Text.trim ((storedValues session.file (Text.trim session.panel.providerId)).get field) = ""
  /-- The other providers have what the file has for them. -/
  others : ∀ name ∈ visited, ∀ field, Text.trim ((session.panel.valuesOf name).get field) =
    if Text.trim name = Text.trim session.panel.providerId then
      Text.trim (session.panel.visible.get field)
    else Text.trim ((storedValues session.file (Text.trim name)).get field)
  emptied : ∀ name ∈ visited, ∀ field, (session.panel.valuesOf name).get field = "" →
    (storedValues session.file (Text.trim name)).get field = ""

theorem file_save {session : ConfigSession}
    (hsaves : (Text.trim session.panel.providerId).isEmpty = false) :
    session.save.file = session.panel.toConfigDraft.applyTo session.file := by
  rw [save, hsaves, if_neg Bool.false_ne_true]

theorem reopened_eq {session : ConfigSession}
    (hsaves : (Text.trim session.panel.providerId).isEmpty = false)
    (authProfiles : List ProviderAuthProfile) (fallbackProvider : Option String) :
    session.reopened authProfiles fallbackProvider =
      ConfigPanel.loadFrom (session.panel.toConfigDraft.applyTo session.file) authProfiles
        fallbackProvider := by
  rw [reopened, step, file_save hsaves]

/-- What is shown for a provider after the next opening. -/
theorem valuesOf_reopened {session : ConfigSession}
    (hsaves : (Text.trim session.panel.providerId).isEmpty = false)
    (authProfiles : List ProviderAuthProfile) (fallbackProvider : Option String) (provider : String)
    (field : ProviderField) :
    ((session.reopened authProfiles fallbackProvider).valuesOf provider).get field =
      if provider = Text.trim session.panel.providerId ∧
          Text.trim (session.panel.visible.get field) ≠ "" then
        Text.trim (session.panel.visible.get field)
      else (storedValues session.file provider).get field := by
  have hdraft : session.panel.visible.get field = session.panel.toConfigDraft.get field := by
    cases field <;> rfl
  rw [hdraft, reopened_eq hsaves, valuesOf_loadFrom]
  exact storedValues_applyTo session.panel.toConfigDraft session.file provider field

theorem providerId_reopened {session : ConfigSession}
    (hsaves : (Text.trim session.panel.providerId).isEmpty = false)
    (authProfiles : List ProviderAuthProfile) (fallbackProvider : Option String) :
    (session.reopened authProfiles fallbackProvider).providerId =
      Text.trim session.panel.providerId := by
  rw [reopened_eq hsaves, providerId_loadFrom, primaryProvider_applyTo, Option.some_or,
    Option.getD_some]

/-- The next opening shows the same if and only if there is nothing else to save. -/
theorem sameAgain_iff {session : ConfigSession} (hshown : session.ShowsKept)
    (hsaves : (Text.trim session.panel.providerId).isEmpty = false) {visited : List String}
    (hvisited : session.panel.providerId ∈ visited) (authProfiles : List ProviderAuthProfile)
    (fallbackProvider : Option String) :
    session.SameAgain visited (session.reopened authProfiles fallbackProvider) ↔
      session.NothingElse visited := by
  have hvalues := valuesOf_reopened hsaves authProfiles fallbackProvider
  have hname : session.panel.providerId ≠ "" := by
    intro hempty
    rw [hempty] at hsaves
    cases hsaves
  have hkept := hshown hname
  constructor
  · intro h
    have hselected : ∀ field, Text.trim (((session.reopened authProfiles fallbackProvider).valuesOf
        (Text.trim session.panel.providerId)).get field) =
          Text.trim (session.panel.visible.get field) := fun field => by
      rw [h.values _ hvisited field, hkept]
    refine ⟨fun field hblank => ?_, fun name hmem field => ?_, fun name hmem field hempty => ?_⟩
    · have hsame := hselected field
      rwa [hvalues, if_neg fun hset => hset.2 hblank, hblank] at hsame
    · rw [← h.values name hmem field]
      split
      next hsame => rw [hsame, hselected]
      next hother => rw [hvalues, if_neg fun hset => hother hset.1]
    · have hcleared := h.cleared name hmem field hempty
      rw [hvalues] at hcleared
      split at hcleared
      next hset => exact absurd hcleared hset.2
      next => exact hcleared
  · intro h
    have hsame : ∀ name ∈ visited, ∀ field,
        Text.trim (((session.reopened authProfiles fallbackProvider).valuesOf (Text.trim name)).get
          field) = Text.trim ((session.panel.valuesOf name).get field) := by
      intro name hmem field
      rw [h.others name hmem field, hvalues]
      by_cases hselected : Text.trim name = Text.trim session.panel.providerId
      · rw [if_pos hselected]
        by_cases hblank : Text.trim (session.panel.visible.get field) = ""
        · rw [if_neg fun hset => hset.2 hblank, hselected, h.blank field hblank, hblank]
        · rw [if_pos ⟨hselected, hblank⟩, Text.trim_trim]
      · rw [if_neg hselected, if_neg fun hset => hselected hset.1]
    refine ⟨providerId_reopened hsaves _ _, hsame, fun name hmem field hempty => ?_⟩
    have hblank := hsame name hmem field
    rw [hempty] at hblank
    rw [hvalues] at hblank ⊢
    split
    next hset =>
      rw [if_pos hset, Text.trim_trim] at hblank
      exact hblank
    next => exact h.emptied name hmem field hempty

theorem showsKept_final (file : LizConfigFile) (authProfiles : List ProviderAuthProfile)
    (fallbackProvider : Option String) (steps : List ConfigStep) :
    (Runs.final step (opened file authProfiles fallbackProvider) steps).ShowsKept :=
  Runs.invariant (fun _ step h _ => h.step step)
    (show (opened file authProfiles fallbackProvider).ShowsKept from fun _ => rfl)
    (Runs.allSteps_true _ steps) _ (Runs.final_mem_states _ steps)

/-- Whatever is done to the panel, the next opening shows the same if and only if there is nothing
else to save. -/
theorem draft_round_trip_iff (file : LizConfigFile)
    (authProfiles authProfilesAgain : List ProviderAuthProfile)
    (fallbackProvider fallbackAgain : Option String) (steps : List ConfigStep)
    (hsaves : (Text.trim (Runs.final step (opened file authProfiles fallbackProvider)
      steps).panel.providerId).isEmpty = false) :
    let start := opened file authProfiles fallbackProvider
    let session := Runs.final step start steps
    session.SameAgain (visited start steps) (session.reopened authProfilesAgain fallbackAgain) ↔
      session.NothingElse (visited start steps) := by
  intro start session
  exact sameAgain_iff (showsKept_final file authProfiles fallbackProvider steps) hsaves
    (List.mem_map.mpr ⟨_, Runs.final_mem_states _ steps, rfl⟩) authProfilesAgain fallbackAgain

/-- A model is typed for the provider that is shown. -/
def typesModel : List ConfigStep := [.focusNext, .focusNext, .focusNext, .pushChar 'm']

/-- The one provider that was visited is shown again as it was. -/
theorem draft_round_trip_model :
    (Runs.final step (opened LizConfigFile.default [] none) typesModel).SameAgain
      (visited (opened LizConfigFile.default [] none) typesModel)
      ((Runs.final step (opened LizConfigFile.default [] none) typesModel).reopened [] none) := by
  refine (draft_round_trip_iff LizConfigFile.default [] [] none none typesModel
    (by decide +kernel)).mpr ?_
  have hvisited : visited (opened LizConfigFile.default [] none) typesModel =
      List.replicate 5 "openai" := by decide +kernel
  rw [hvisited]
  refine ⟨fun field => ?_, fun name hmem field => ?_, fun name hmem field => ?_⟩
  · cases field <;> decide +kernel
  · rw [List.eq_of_mem_replicate hmem]
    cases field <;> decide +kernel
  · rw [List.eq_of_mem_replicate hmem]
    cases field <;> decide +kernel

/-- The file has a model for the provider. -/
def modelOnFile : LizConfigFile :=
  { primaryProvider := some "openai"
    providers := AList.insert "openai" { LizProviderConfig.default with modelId := some "m" } ∅ }

/-- What was typed for a provider is lost once another one is shown, and a field that was emptied
comes back. -/
theorem draft_edits_lost :
    let typed := Runs.final step (opened LizConfigFile.default [] none)
      (typesModel ++ [.cycle false])
    let emptied := Runs.final step (opened modelOnFile [] none)
      [.focusNext, .focusNext, .focusNext, .popChar]
    (typed.panel.valuesOf "openai").modelId = "m" ∧
      ((typed.reopened [] none).valuesOf "openai").modelId = "" ∧
      emptied.panel.modelId = "" ∧ (emptied.reopened [] none).modelId = "m" ∧
      ¬ ∀ (file : LizConfigFile) (steps : List ConfigStep),
        (Text.trim (Runs.final step (opened file [] none) steps).panel.providerId).isEmpty = false →
          (Runs.final step (opened file [] none) steps).SameAgain
            (visited (opened file [] none) steps)
            ((Runs.final step (opened file [] none) steps).reopened [] none) := by
  refine ⟨by decide +kernel, by decide +kernel, by decide +kernel, by decide +kernel, fun h => ?_⟩
  have hsame := (h LizConfigFile.default (typesModel ++ [.cycle false]) (by decide +kernel)).values
    "openai" (by decide +kernel) .model
  revert hsame
  decide +kernel

end ConfigSession

end Liz.Cli
