import Liz.Base.Tables
import Liz.Protocol.Resources
import Liz.Storage.ConfigFile

/-!
# The configuration panel of the terminal client

The panel edits one provider at a time. Its fields are kept under the name that the provider field
shows, and the name is a field like the others.
-/

namespace Liz.Cli

inductive ConfigFocus
  | provider | baseUrl | apiKey | model
  deriving DecidableEq, Repr

namespace ConfigFocus

def previous : ConfigFocus → ConfigFocus
  | .provider => .model
  | .baseUrl => .provider
  | .apiKey => .baseUrl
  | .model => .apiKey

def next : ConfigFocus → ConfigFocus
  | .provider => .baseUrl
  | .baseUrl => .apiKey
  | .apiKey => .model
  | .model => .provider

end ConfigFocus

structure ProviderOverrideDraft where
  baseUrl : String
  apiKey : String
  modelId : String
  deriving DecidableEq, Repr

def ProviderOverrideDraft.default : ProviderOverrideDraft :=
  { baseUrl := "", apiKey := "", modelId := "" }

structure ConfigPanel extends ConfigDraft where
  knownProviders : List String
  dirty : Bool
  focus : ConfigFocus
  providerOverrides : Table String ProviderOverrideDraft

def pushUniqueProvider (providers : List String) (provider : String) : List String :=
  if provider.isEmpty || providers.contains provider then providers else providers ++ [provider]

/-- The keys of the configuration come in their order. -/
def collectKnownProviders (currentProvider : String) (config : LizConfigFile)
    (authProfiles : List ProviderAuthProfile) (fallbackProvider : Option String) : List String :=
  ([some currentProvider, fallbackProvider, some "openai", some "anthropic", some "openai-codex",
      some "github-copilot", some "gitlab", some "minimax"].filterMap id ++
    config.providers.keys.insertionSort (· ≤ ·) ++
    authProfiles.map ProviderAuthProfile.providerId).foldl pushUniqueProvider []

namespace ConfigPanel

def default : ConfigPanel :=
  { providerId := "openai", baseUrl := "", apiKey := "", modelId := "",
    knownProviders := ["openai"], dirty := false, focus := .provider, providerOverrides := ∅ }

def focusPrevious (panel : ConfigPanel) : ConfigPanel := { panel with focus := panel.focus.previous }

def focusNext (panel : ConfigPanel) : ConfigPanel := { panel with focus := panel.focus.next }

def focusedValue (panel : ConfigPanel) : String :=
  match panel.focus with
  | .provider => panel.providerId
  | .baseUrl => panel.baseUrl
  | .apiKey => panel.apiKey
  | .model => panel.modelId

def setFocused (panel : ConfigPanel) (value : String) : ConfigPanel :=
  match panel.focus with
  | .provider => { panel with providerId := value }
  | .baseUrl => { panel with baseUrl := value }
  | .apiKey => { panel with apiKey := value }
  | .model => { panel with modelId := value }

def syncKnownProviders (panel : ConfigPanel) : ConfigPanel :=
  if panel.providerId.isEmpty || panel.knownProviders.contains panel.providerId then panel
  else { panel with knownProviders := panel.providerId :: panel.knownProviders }

def persistVisibleFields (panel : ConfigPanel) : ConfigPanel :=
  if panel.providerId.isEmpty then panel
  else
    { panel with
      providerOverrides := panel.providerOverrides.insert panel.providerId
        { baseUrl := panel.baseUrl, apiKey := panel.apiKey, modelId := panel.modelId } }

def restoreVisibleFields (panel : ConfigPanel) : ConfigPanel :=
  let saved :=
    (panel.providerOverrides.lookup panel.providerId).getD ProviderOverrideDraft.default
  { panel with baseUrl := saved.baseUrl, apiKey := saved.apiKey, modelId := saved.modelId }

/-- The focused field gets a new value. -/
def edit (panel : ConfigPanel) (value : String) : ConfigPanel :=
  { panel.setFocused value with dirty := true }.syncKnownProviders.persistVisibleFields

def pushChar (panel : ConfigPanel) (value : Char) : ConfigPanel :=
  panel.edit (panel.focusedValue.push value)

def popChar (panel : ConfigPanel) : ConfigPanel :=
  if panel.focusedValue.isEmpty then panel
  else panel.edit (String.ofList panel.focusedValue.toList.dropLast)

/-- The neighbour of the current provider in the list of known ones; an unknown one counts as the
first. -/
def nextProvider (panel : ConfigPanel) (backwards : Bool) : String :=
  let known :=
    if panel.knownProviders.isEmpty then [panel.providerId] else panel.knownProviders
  let currentIndex := (known.findIdx? (· == panel.providerId)).getD 0
  let nextIndex :=
    if backwards then if currentIndex = 0 then known.length - 1 else currentIndex - 1
    else (currentIndex + 1) % known.length
  (known[nextIndex]?).getD ""

def cycleProvider (panel : ConfigPanel) (backwards : Bool) : ConfigPanel :=
  let panel := { panel with
    knownProviders :=
      if panel.knownProviders.isEmpty then [panel.providerId] else panel.knownProviders }
  let next := panel.nextProvider backwards
  { { panel.persistVisibleFields with providerId := next }.restoreVisibleFields with dirty := true }

/-- The overrides of a configuration. -/
def overridesOf (config : LizConfigFile) : Table String ProviderOverrideDraft :=
  Tables.mapValues
    (fun provider =>
      { baseUrl := provider.baseUrl.getD "", apiKey := provider.apiKey.getD "",
        modelId := provider.modelId.getD "" })
    config.providers

def loadFrom (config : LizConfigFile) (authProfiles : List ProviderAuthProfile)
    (fallbackProvider : Option String) : ConfigPanel :=
  let providerId := (config.primaryProvider.or fallbackProvider).getD "openai"
  restoreVisibleFields
    { providerId := providerId, baseUrl := "", apiKey := "", modelId := ""
      knownProviders := collectKnownProviders providerId config authProfiles fallbackProvider
      dirty := false
      focus := .provider
      providerOverrides := overridesOf config }

/-! ### The kept keys -/

/-- The key that is kept for a provider. -/
def keptKey (panel : ConfigPanel) (provider : String) : String :=
  ((panel.providerOverrides.lookup provider).map ProviderOverrideDraft.apiKey).getD ""

theorem keptKey_persistVisibleFields (panel : ConfigPanel) (provider : String) :
    panel.persistVisibleFields.keptKey provider =
      if panel.providerId.isEmpty then panel.keptKey provider
      else Function.update panel.keptKey panel.providerId panel.apiKey provider := by
  rw [persistVisibleFields]
  split
  · rfl
  · by_cases hprovider : provider = panel.providerId
    · rw [hprovider, Function.update_self, keptKey, AList.lookup_insert]
      rfl
    · rw [Function.update_of_ne hprovider, keptKey, keptKey, AList.lookup_insert_ne hprovider]

@[simp] theorem providerId_persistVisibleFields (panel : ConfigPanel) :
    panel.persistVisibleFields.providerId = panel.providerId := by
  rw [persistVisibleFields]
  split <;> rfl

@[simp] theorem apiKey_persistVisibleFields (panel : ConfigPanel) :
    panel.persistVisibleFields.apiKey = panel.apiKey := by
  rw [persistVisibleFields]
  split <;> rfl

@[simp] theorem providerId_syncKnownProviders (panel : ConfigPanel) :
    panel.syncKnownProviders.providerId = panel.providerId := by
  rw [syncKnownProviders]
  split <;> rfl

@[simp] theorem apiKey_syncKnownProviders (panel : ConfigPanel) :
    panel.syncKnownProviders.apiKey = panel.apiKey := by
  rw [syncKnownProviders]
  split <;> rfl

@[simp] theorem keptKey_syncKnownProviders (panel : ConfigPanel) :
    panel.syncKnownProviders.keptKey = panel.keptKey := by
  rw [syncKnownProviders]
  split <;> rfl

@[simp] theorem keptKey_setFocused (panel : ConfigPanel) (value : String) :
    (panel.setFocused value).keptKey = panel.keptKey := by
  rw [setFocused]
  split <;> rfl

@[simp] theorem providerId_setFocused (panel : ConfigPanel) (value : String) :
    (panel.setFocused value).providerId =
      if panel.focus = .provider then value else panel.providerId := by
  rw [setFocused]
  split <;> simp [*]

@[simp] theorem apiKey_setFocused (panel : ConfigPanel) (value : String) :
    (panel.setFocused value).apiKey = if panel.focus = .apiKey then value else panel.apiKey := by
  rw [setFocused]
  split <;> simp [*]

theorem apiKey_restoreVisibleFields (panel : ConfigPanel) :
    panel.restoreVisibleFields.apiKey = panel.keptKey panel.providerId := by
  rw [restoreVisibleFields, keptKey]
  cases panel.providerOverrides.lookup panel.providerId <;> rfl

/-- A new value of the focused field puts the visible key under the name that is then shown. -/
theorem keptKey_edit (panel : ConfigPanel) (value provider : String) :
    (panel.edit value).keptKey provider =
      if (panel.edit value).providerId.isEmpty then panel.keptKey provider
      else
        Function.update panel.keptKey (panel.edit value).providerId (panel.edit value).apiKey
          provider := by
  let changed := { panel.setFocused value with dirty := true }.syncKnownProviders
  have hkept : changed.keptKey = panel.keptKey :=
    (keptKey_syncKnownProviders _).trans (keptKey_setFocused panel value)
  have hprovider : (panel.edit value).providerId = changed.providerId :=
    providerId_persistVisibleFields changed
  have hkey : (panel.edit value).apiKey = changed.apiKey := apiKey_persistVisibleFields changed
  rw [hprovider, hkey, ← hkept]
  exact keptKey_persistVisibleFields changed provider

theorem providerId_edit (panel : ConfigPanel) (value : String) :
    (panel.edit value).providerId =
      if panel.focus = .provider then value else panel.providerId := by
  rw [edit, providerId_persistVisibleFields, providerId_syncKnownProviders]
  exact providerId_setFocused panel value

theorem apiKey_edit (panel : ConfigPanel) (value : String) :
    (panel.edit value).apiKey = if panel.focus = .apiKey then value else panel.apiKey := by
  rw [edit, apiKey_persistVisibleFields, apiKey_syncKnownProviders]
  exact apiKey_setFocused panel value

end ConfigPanel

/-- What happens to the panel and to the file. -/
inductive ConfigStep
  | openPanel (authProfiles : List ProviderAuthProfile) (fallbackProvider : Option String)
  | focusPrevious
  | focusNext
  | pushChar (value : Char)
  | popChar
  | cycle (backwards : Bool)
  | save
  /-- Another program writes the file. -/
  | rewritten (config : LizConfigFile)

/-- The panel with the file as it is read and written. -/
structure ConfigSession where
  panel : ConfigPanel
  file : LizConfigFile

namespace ConfigSession

/-- The draft is saved into the file as it is by then; without a provider nothing is saved. -/
def save (session : ConfigSession) : ConfigSession :=
  if (Text.trim session.panel.providerId).isEmpty then session
  else
    { panel := { session.panel with dirty := false }
      file := session.panel.toConfigDraft.applyTo session.file }

def step (session : ConfigSession) : ConfigStep → ConfigSession
  | .openPanel authProfiles fallbackProvider =>
      { session with
        panel := ConfigPanel.loadFrom session.file authProfiles fallbackProvider }
  | .focusPrevious => { session with panel := session.panel.focusPrevious }
  | .focusNext => { session with panel := session.panel.focusNext }
  | .pushChar value => { session with panel := session.panel.pushChar value }
  | .popChar => { session with panel := session.panel.popChar }
  | .cycle backwards => { session with panel := session.panel.cycleProvider backwards }
  | .save => session.save
  | .rewritten config => { session with file := config }

end ConfigSession

end Liz.Cli
