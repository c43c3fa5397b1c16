import Mathlib.Data.List.Sort
import Liz.Protocol.Json
import Liz.Protocol.Resources

/-!
# The configuration file

The server and the command line client keep one file, `config.json`, and each declares by itself how
it is read. The entries of a provider are declared alike.
-/

namespace Liz

structure LizProviderConfig where
  baseUrl : Option String
  apiKey : Option String
  modelId : Option String
  headers : Table String String
  metadata : Table String String
  deriving DecidableEq

def LizProviderConfig.default : LizProviderConfig :=
  { baseUrl := none, apiKey := none, modelId := none, headers := ∅, metadata := ∅ }

structure LizConfigFile where
  primaryProvider : Option String
  providers : Table String LizProviderConfig
  deriving DecidableEq

def LizConfigFile.default : LizConfigFile := { primaryProvider := none, providers := ∅ }

namespace Json

/-- What a structure reads for its fields, when the first ones have no default: an array must list
these. -/
def fieldsOf (names : List String) (withoutDefault : Nat) (value : Json) :
    Option (List (Option Json)) :=
  match value with
  | array items =>
      if withoutDefault ≤ items.length then (array items).structFields names else none
  | value => value.structFields names

/-- A map takes objects only, and the last value of a repeated key. -/
def decodeMap {α : Type} (decode : Json → Option α) : Json → Option (Table String α)
  | object fields => do
      let entries ← fields.mapM fun field => (decode field.2).map (field.1, ·)
      some (entries.foldl (fun table entry => table.insert entry.1 entry.2) ∅)
  | _ => none

/-- An optional text: `null` is nothing, and an object may leave it out. -/
def optionalText : Option Json → Option (Option String) := orDefault none (optionally asStr)

end Json

def decodeLizProviderConfig (value : Json) : Option LizProviderConfig := do
  match ← value.fieldsOf ["base_url", "api_key", "model_id", "headers", "metadata"] 3 with
  | [baseUrl, apiKey, modelId, headers, metadata] =>
      some
        { baseUrl := ← Json.optionalText baseUrl
          apiKey := ← Json.optionalText apiKey
          modelId := ← Json.optionalText modelId
          headers := ← Json.orDefault ∅ (Json.decodeMap Json.asStr) headers
          metadata := ← Json.orDefault ∅ (Json.decodeMap Json.asStr) metadata }
  | _ => none

def decodeProviders : Json → Option (Table String LizProviderConfig) :=
  Json.decodeMap decodeLizProviderConfig

/-! ### The server -/

namespace AppServer

/-- The providers must be there. -/
def decodeLizConfigFile (value : Json) : Option LizConfigFile := do
  match ← value.fieldsOf ["primary_provider", "providers"] 2 with
  | [primaryProvider, providers] =>
      some
        { primaryProvider := ← Json.optionalText primaryProvider
          providers := ← providers.bind decodeProviders }
  | _ => none

def readConfigFile [JsonText] (contents : String) : Option LizConfigFile :=
  (JsonText.parse contents).toOption.bind decodeLizConfigFile

/-- What cannot be read counts as the default, as a file that is not there does. -/
def loadConfigFile [JsonText] (contents : Option String) : LizConfigFile :=
  (contents.bind readConfigFile).getD LizConfigFile.default

end AppServer

/-! ### The command line client -/

namespace Cli

/-- The providers may be left out. -/
def decodeLizConfigFile (value : Json) : Option LizConfigFile := do
  match ← value.fieldsOf ["primary_provider", "providers"] 1 with
  | [primaryProvider, providers] =>
      some
        { primaryProvider := ← Json.optionalText primaryProvider
          providers := ← Json.orDefault ∅ decodeProviders providers }
  | _ => none

def readConfigFile [JsonText] (contents : String) : Option LizConfigFile :=
  (JsonText.parse contents).toOption.bind decodeLizConfigFile

/-- A file that is not there, one that fails to be read, or one that holds some text. -/
inductive ConfigContents
  | missing
  | unreadable (error : String)
  | text (contents : String)

def loadConfigFile [JsonText] : ConfigContents → Except String LizConfigFile
  | .missing => .ok LizConfigFile.default
  | .unreadable error => .error error
  | .text contents => .ok ((readConfigFile contents).getD LizConfigFile.default)

/-! ### Saving -/

def encodeText : Option String → Json
  | some value => .string value
  | none => .null

/-- The entries of a map are written in the order of their keys. -/
def encodeMap {α : Type} (encode : α → Json) (table : Table String α) : Json :=
  .object ((table.entries.map fun entry => (entry.1, encode entry.2)).insertionSort
    fun left right => left.1 ≤ right.1)

def encodeLizProviderConfig (provider : LizProviderConfig) : Json :=
  .object [("base_url", encodeText provider.baseUrl), ("api_key", encodeText provider.apiKey),
    ("model_id", encodeText provider.modelId), ("headers", encodeMap .string provider.headers),
    ("metadata", encodeMap .string provider.metadata)]

def encodeLizConfigFile (config : LizConfigFile) : Json :=
  .object [("primary_provider", encodeText config.primaryProvider),
    ("providers", encodeMap encodeLizProviderConfig config.providers)]

inductive ProviderField
  | baseUrl | apiKey | model
  deriving DecidableEq, Repr

/-- The entry of a provider with one field set; without an entry it gets one. -/
def upsertProvider (config : LizConfigFile) (providerId : String) (field : ProviderField)
    (value : String) : LizConfigFile :=
  let provider := (config.providers.lookup providerId).getD LizProviderConfig.default
  let provider := match field with
    | .baseUrl => { provider with baseUrl := some value }
    | .apiKey => { provider with apiKey := some value }
    | .model => { provider with modelId := some value }
  { config with providers := config.providers.insert providerId provider }

/-- What is left empty is not set. -/
def saveOverride (config : LizConfigFile) (providerId : String) (field : ProviderField)
    (value : String) : LizConfigFile :=
  if value.isEmpty then config else upsertProvider config providerId field value

structure ConfigDraft where
  providerId : String
  baseUrl : String
  apiKey : String
  modelId : String
  deriving DecidableEq, Repr

/-- The configuration with the values of the draft. -/
def ConfigDraft.applyTo (draft : ConfigDraft) (config : LizConfigFile) : LizConfigFile :=
  let providerId := Text.trim draft.providerId
  let config := { config with primaryProvider := some providerId }
  let config := saveOverride config providerId .baseUrl (Text.trim draft.baseUrl)
  let config := saveOverride config providerId .apiKey (Text.trim draft.apiKey)
  saveOverride config providerId .model (Text.trim draft.modelId)

/-- What is written to the file, if anything is. -/
def saveConfigDraft [JsonText] (draft : ConfigDraft) (contents : ConfigContents) :
    Except String (Option Json) := do
  let config ← loadConfigFile contents
  if (Text.trim draft.providerId).isEmpty then pure none
  else pure (some (encodeLizConfigFile (draft.applyTo config)))

end Cli

end Liz
