import Liz.Proof.ConfigAgreement
import Liz.Base.Tables

/-!
# What saving a provider changes in the configuration file

The client does not edit the document. It reads the fields it knows, sets the ones of the provider
and writes all of them anew. What it does not know is lost, and what it cannot read at all is taken
for an empty configuration and overwritten.
-/

namespace Liz

namespace Json

/-! ### Places of a document -/

/-- The value of a field; of a repeated one the last. -/
def lastField : Json → String → Option Json
  | object fields, name => fields.reverse.lookup name
  | _, _ => none

/-- What stands in a place: nothing, an object whose fields are places themselves, or a value. -/
inductive Place
  | absent
  | object
  | value (value : Json)

def Place.orElse : Place → Place → Place
  | absent, other => other
  | place, _ => place

def kind : Json → Place
  | object _ => .object
  | value => .value value

def placeIn : List String → Option Json → Place
  | _, none => .absent
  | [], some value => value.kind
  | name :: rest, some value => placeIn rest (value.lastField name)

def place (path : List String) (value : Json) : Place := placeIn path (some value)

@[simp] theorem placeIn_none (path : List String) : placeIn path none = .absent := by
  cases path <;> rfl

@[simp] theorem placeIn_nil (value : Json) : placeIn [] (some value) = value.kind := rfl

@[simp] theorem placeIn_cons (name : String) (rest : List String) (value : Json) :
    placeIn (name :: rest) (some value) = placeIn rest (value.lastField name) := rfl

@[simp] theorem kind_object (fields : List (String × Json)) : (object fields).kind = .object := rfl

@[simp] theorem absent_orElse (place : Place) : Place.absent.orElse place = place := rfl

@[simp] theorem object_orElse (place : Place) : Place.object.orElse place = .object := rfl

@[simp] theorem kind_orElse (value : Json) (place : Place) :
    value.kind.orElse place = value.kind := by
  cases value <;> rfl

theorem kind_eq_object {value : Json} (h : value.kind = .object) :
    ∃ fields, value = object fields := by
  cases value with
  | object fields => exact ⟨fields, rfl⟩
  | null | bool _ | natural _ | negative _ | float _ | string _ | array _ => cases h

theorem kind_ne_absent (value : Json) : value.kind ≠ .absent := by
  cases value <;> simp [kind]

/-- An object all of whose fields are among these. -/
def IsObjectOf (names : List String) : Json → Prop
  | object fields => ∀ field ∈ fields, field.1 ∈ names
  | _ => False

theorem IsObjectOf.kind {names : List String} {value : Json} (h : value.IsObjectOf names) :
    value.kind = .object := by
  cases value with
  | object fields => rfl
  | null | bool _ | natural _ | negative _ | float _ | string _ | array _ => exact h.elim

theorem isObjectOf_of_names {names : List String} {fields : List (String × Json)}
    (h : fields.map Prod.fst = names) : (object fields).IsObjectOf names := by
  intro field hfield
  rw [← h]
  exact List.mem_map_of_mem hfield

theorem lastField_eq_none_iff {fields : List (String × Json)} {name : String} :
    (object fields).lastField name = none ↔ ∀ field ∈ fields, field.1 ≠ name := by
  show fields.reverse.lookup name = none ↔ _
  rw [List.lookup_eq_none_iff]
  constructor
  · intro h field hfield heq
    exact absurd (h field (List.mem_reverse.mpr hfield)) (by simp [heq])
  · intro h field hfield
    simpa using Ne.symm (h field (List.mem_reverse.mp hfield))

theorem IsObjectOf.lastField {names : List String} {value : Json} (h : value.IsObjectOf names)
    {name : String} (hname : name ∉ names) : value.lastField name = none := by
  cases value with
  | object fields =>
      rw [lastField_eq_none_iff]
      intro field hfield heq
      exact hname (heq ▸ h field hfield)
  | null | bool _ | natural _ | negative _ | float _ | string _ | array _ => rfl

/-- An object is one of these names as soon as no other name has a value. -/
theorem isObjectOf_of_lastField {names : List String} {fields : List (String × Json)}
    (h : ∀ name ∉ names, (object fields).lastField name = none) :
    (object fields).IsObjectOf names := by
  intro field hfield
  by_contra hname
  exact lastField_eq_none_iff.mp (h field.1 hname) field hfield rfl

theorem lastField_eq_filter (fields : List (String × Json)) (name : String) :
    (object fields).lastField name = (fields.filter (·.1 == name)).getLast?.map Prod.snd := by
  show fields.reverse.lookup name = _
  induction fields with
  | nil => rfl
  | cons field rest ih =>
      rw [List.reverse_cons, List.lookup_append, ih, List.filter_cons]
      by_cases hname : field.1 = name
      · subst hname
        have hsame : [field].lookup field.1 = some field.2 := List.lookup_cons_self
        rw [hsame, if_pos (by simp), List.getLast?_cons]
        cases (rest.filter (·.1 == field.1)).getLast? <;> rfl
      · have hne : (name == field.1) = false := by simpa using Ne.symm hname
        rw [if_neg (by simpa using hname), List.lookup_cons, hne]
        simp

theorem lastField_of_fieldIn {fields : List (String × Json)} {name : String} {found : Option Json}
    (h : fieldIn fields name = some found) : (object fields).lastField name = found := by
  rw [lastField_eq_filter]
  rcases fieldIn_cases fields name with ⟨hfound, hfilter⟩ | ⟨value, hfound, hfilter⟩ |
    ⟨hfound, hmany⟩
  · rw [hfilter, ← Option.some.inj (h.symm.trans hfound).symm]
    rfl
  · rw [hfilter, ← Option.some.inj (h.symm.trans hfound).symm]
    rfl
  · rw [hfound] at h
    cases h

/-- The fields of a structure, read from an object. -/
theorem structFields_lastField {fields : List (String × Json)} :
    ∀ {names : List String} {found : List (Option Json)},
      (object fields).structFields names = some found →
        found = names.map (object fields).lastField := by
  intro names
  induction names with
  | nil =>
      intro found h
      exact (Option.some.inj h).symm
  | cons name rest ih =>
      intro found h
      have hall : (name :: rest).mapM (fieldIn fields) = some found := h
      rw [List.mapM_cons] at hall
      obtain ⟨first, hfirst, hothers⟩ := Option.bind_eq_some_iff.mp hall
      obtain ⟨others, hrest, heq⟩ := Option.bind_eq_some_iff.mp hothers
      rw [← Option.some.inj heq, ih hrest, List.map_cons, lastField_of_fieldIn hfirst]

/-- What a map holds under a key is what the last field of that name says. -/
theorem decodeMap_lastField {α : Type} {decode : Json → Option α} {value : Json}
    {table : Table String α} (h : decodeMap decode value = some table) (key : String) :
    (value.lastField key).map decode = (table.lookup key).map some := by
  cases value with
  | object fields =>
      obtain ⟨entries, hentries, htable⟩ := Option.bind_eq_some_iff.mp h
      rw [← Option.some.inj htable, Tables.lookup_foldl_entries, AList.lookup_empty,
        Option.or_none]
      show (fields.reverse.lookup key).map decode = _
      clear htable h
      induction fields generalizing entries with
      | nil =>
          rw [← Option.some.inj hentries]
          rfl
      | cons field rest ih =>
          rw [List.mapM_cons] at hentries
          obtain ⟨entry, hentry, hothers⟩ := Option.bind_eq_some_iff.mp hentries
          obtain ⟨others, hrest, heq⟩ := Option.bind_eq_some_iff.mp hothers
          obtain ⟨value, hvalue, hpair⟩ := Option.map_eq_some_iff.mp hentry
          rw [← Option.some.inj heq, ← hpair, List.reverse_cons, List.reverse_cons,
            List.lookup_append, List.lookup_append, Option.map_or, Option.map_or, ih _ hrest]
          congr 1
          rw [List.lookup_cons, List.lookup_cons]
          cases key == field.1
          · rfl
          · exact congrArg some hvalue
  | null | bool _ | natural _ | negative _ | float _ | string _ | array _ => cases h

end Json

/-! ### What may change -/

/-- The fields of the file, the fields of a provider, and those of them a draft sets. -/
def configFields : List String := ["primary_provider", "providers"]

def providerFields : List String := ["base_url", "api_key", "model_id", "headers", "metadata"]

def draftFields : List String := ["base_url", "api_key", "model_id"]

/-- A field that is left out stands for its default, and a provider the draft adds has all of
them. -/
def implied (providerId : String) : List String → Json.Place
  | ["providers"] => .object
  | ["providers", id] => if id = providerId then .object else .absent
  | ["providers", _, name] =>
      if name ∈ draftFields then .value .null
      else if name ∈ providerFields then .object
      else .absent
  | _ => .absent

def placeOf (providerId : String) (document : Json) (path : List String) : Json.Place :=
  (document.place path).orElse (implied providerId path)

/-- The places a draft for the provider may change. -/
def Edited (providerId : String) (path : List String) : Prop :=
  path = ["primary_provider"] ∨ ∃ name ∈ draftFields, path = ["providers", providerId, name]

def EditsOnly (providerId : String) (before after : Json) : Prop :=
  ∀ path, ¬ Edited providerId path → placeOf providerId after path = placeOf providerId before path

/-- Whatever is saved was made from a document that could be read, and nothing of it is changed but
the places of the draft. -/
def SavesOnlyItsEdits [JsonText] (draft : Cli.ConfigDraft) (contents : Cli.ConfigContents) : Prop :=
  ∀ saved, Cli.saveConfigDraft draft contents = .ok (some saved) →
    match contents with
    | .text text => ∃ before, JsonText.parse text = .ok before ∧
        (Cli.decodeLizConfigFile before).isSome ∧
        EditsOnly (Text.trim draft.providerId) before saved
    | _ => True

/-- The document holds what the client knows and no more: objects where it expects them, with no
other fields. -/
structure HoldsOnlyKnown (document : Json) : Prop where
  config : document.IsObjectOf configFields
  providers : ∀ providers id entry, document.lastField "providers" = some providers →
    providers.lastField id = some entry → entry.IsObjectOf providerFields

section Places

open Json

theorem EditsOnly.symm {providerId : String} {before after : Json}
    (h : EditsOnly providerId before after) : EditsOnly providerId after before :=
  fun path hpath => (h path hpath).symm

theorem EditsOnly.trans {providerId : String} {before between after : Json}
    (h : EditsOnly providerId before between) (h' : EditsOnly providerId between after) :
    EditsOnly providerId before after :=
  fun path hpath => (h' path hpath).trans (h path hpath)

/-! ### Written values -/

theorem encodeMap_lastField {α : Type} (encode : α → Json) (table : Table String α)
    (key : String) : (Cli.encodeMap encode table).lastField key = (table.lookup key).map encode := by
  rw [← Tables.lookup_pairs encode table key]
  have hnodup : ((table.entries.map fun entry => (entry.1, encode entry.2)).map
      Prod.fst).Nodup := by
    rw [List.map_map]
    exact Tables.keys_nodup table
  apply Tables.lookup_perm _ hnodup
  exact (List.reverse_perm _).trans (List.perm_insertionSort _ _)

theorem encodeText_place (text : Option String) (name : String) (rest : List String) :
    placeIn (name :: rest) (some (Cli.encodeText text)) = .absent := by
  cases text <;> simp [Cli.encodeText, lastField]

/-- An optional text that was read is written back as it was, or as `null`. -/
theorem text_written {found : Option Json} {text : Option String}
    (h : optionalText found = some text) (path : List String) {implied : Place}
    (himplied : path = [] → implied = .value .null) :
    (placeIn path (some (Cli.encodeText text))).orElse implied =
      (placeIn path found).orElse implied := by
  cases found with
  | none =>
      obtain rfl : none = text := Option.some.inj h
      cases path with
      | nil => rw [himplied rfl]; rfl
      | cons name rest => simp [Cli.encodeText, lastField]
  | some value =>
      cases value with
      | null =>
          obtain rfl : none = text := Option.some.inj h
          rfl
      | string held =>
          obtain rfl : some held = text := Option.some.inj h
          rfl
      | bool _ | natural _ | negative _ | float _ | array _ | object _ => cases h

/-- A map of texts that was read is written back with the same entries. -/
theorem texts_written {found : Option Json} {table : Table String String}
    (h : orDefault ∅ (decodeMap asStr) found = some table) (path : List String) {implied : Place}
    (himplied : path = [] → implied = .object) :
    (placeIn path (some (Cli.encodeMap .string table))).orElse implied =
      (placeIn path found).orElse implied := by
  cases path with
  | nil =>
      cases found with
      | none => rw [himplied rfl]; rfl
      | some value =>
          obtain ⟨fields, rfl⟩ : ∃ fields, value = object fields := by
            cases value with
            | object fields => exact ⟨fields, rfl⟩
            | null | bool _ | natural _ | negative _ | float _ | string _ | array _ => cases h
          rfl
  | cons key rest =>
      rw [placeIn_cons, encodeMap_lastField]
      cases found with
      | none =>
          obtain rfl : ∅ = table := Option.some.inj h
          simp
      | some value =>
          have hkey := decodeMap_lastField (show decodeMap asStr value = some table from h) key
          rw [placeIn_cons]
          cases hlast : value.lastField key with
          | none =>
              rw [hlast] at hkey
              rw [Option.map_eq_none_iff.mp hkey.symm, Option.map_none]
          | some held =>
              rw [hlast, Option.map_some] at hkey
              obtain ⟨text, htext, hheld⟩ := Option.map_eq_some_iff.mp hkey.symm
              obtain rfl : held = .string text := by
                cases held with
                | string other => rw [Option.some.inj hheld]
                | null | bool _ | natural _ | negative _ | float _ | array _ | object _ =>
                    cases hheld
              rw [htext, Option.map_some]

/-! ### A provider -/

/-- The entry, as far as it is known, says what the provider has. -/
structure Describes (entry : Json) (provider : LizProviderConfig) : Prop where
  baseUrl : optionalText (entry.lastField "base_url") = some provider.baseUrl
  apiKey : optionalText (entry.lastField "api_key") = some provider.apiKey
  modelId : optionalText (entry.lastField "model_id") = some provider.modelId
  headers : orDefault ∅ (decodeMap asStr) (entry.lastField "headers") = some provider.headers
  metadata : orDefault ∅ (decodeMap asStr) (entry.lastField "metadata") = some provider.metadata

theorem describes_of_decode {fields : List (String × Json)} {provider : LizProviderConfig}
    (h : decodeLizProviderConfig (.object fields) = some provider) :
    Describes (.object fields) provider := by
  unfold decodeLizProviderConfig at h
  obtain ⟨found, hfound, hrest⟩ := Option.bind_eq_some_iff.mp h
  obtain rfl := structFields_lastField hfound
  obtain ⟨baseUrl, hbase, hrest⟩ := Option.bind_eq_some_iff.mp hrest
  obtain ⟨apiKey, hkey, hrest⟩ := Option.bind_eq_some_iff.mp hrest
  obtain ⟨modelId, hmodel, hrest⟩ := Option.bind_eq_some_iff.mp hrest
  obtain ⟨headers, hheaders, hrest⟩ := Option.bind_eq_some_iff.mp hrest
  obtain ⟨metadata, hmetadata, hrest⟩ := Option.bind_eq_some_iff.mp hrest
  obtain rfl := Option.some.inj hrest
  exact ⟨hbase, hkey, hmodel, hheaders, hmetadata⟩

theorem describes_empty : Describes (.object []) LizProviderConfig.default := by
  constructor <;> rfl

theorem encodeLizProviderConfig_unknown (provider : LizProviderConfig) {name : String}
    (hname : name ∉ providerFields) :
    (Cli.encodeLizProviderConfig provider).lastField name = none := by
  have hknown : (Cli.encodeLizProviderConfig provider).IsObjectOf providerFields :=
    isObjectOf_of_names rfl
  exact hknown.lastField hname

theorem mem_providerFields {name : String} :
    name ∈ providerFields ↔ name = "base_url" ∨ name = "api_key" ∨ name = "model_id" ∨
      name = "headers" ∨ name = "metadata" := by
  simp [providerFields]

theorem implied_unknown {providerId id name : String} (hname : name ∉ providerFields)
    (path : List String) : implied providerId ("providers" :: id :: name :: path) = .absent := by
  have hdraft : name ∉ draftFields := fun h =>
    hname (List.mem_append_left ["headers", "metadata"] h)
  cases path with
  | nil =>
      show (if name ∈ draftFields then _ else if name ∈ providerFields then _ else _) = _
      rw [if_neg hdraft, if_neg hname]
  | cons _ _ => rfl

/-- A provider that was read from an entry with known fields is written back as it was. -/
theorem provider_written {entry : Json} {provider : LizProviderConfig}
    (h : Describes entry provider) (hknown : entry.IsObjectOf providerFields)
    (providerId id : String) (path : List String) :
    (placeIn path (some (Cli.encodeLizProviderConfig provider))).orElse
        (implied providerId ("providers" :: id :: path)) =
      (placeIn path (some entry)).orElse (implied providerId ("providers" :: id :: path)) := by
  cases path with
  | nil =>
      rw [placeIn_nil, placeIn_nil, hknown.kind]
      rfl
  | cons name rest =>
      rw [placeIn_cons, placeIn_cons]
      by_cases hname : name ∈ providerFields
      · have hnil : ∀ {place : Place}, implied providerId ["providers", id, name] = place →
            rest = [] → implied providerId ("providers" :: id :: name :: rest) = place := by
          intro place hplace hrest
          rw [hrest, hplace]
        rcases mem_providerFields.mp hname with rfl | rfl | rfl | rfl | rfl
        · exact text_written h.baseUrl rest (hnil rfl)
        · exact text_written h.apiKey rest (hnil rfl)
        · exact text_written h.modelId rest (hnil rfl)
        · exact texts_written h.headers rest (hnil rfl)
        · exact texts_written h.metadata rest (hnil rfl)
      · rw [hknown.lastField hname, encodeLizProviderConfig_unknown provider hname]

/-- Two providers with the same headers and metadata are written alike but for the fields a draft
sets. -/
theorem provider_edited {provider later : LizProviderConfig}
    (hheaders : later.headers = provider.headers) (hmetadata : later.metadata = provider.metadata)
    {path : List String} (hpath : ∀ name ∈ draftFields, path ≠ [name]) :
    placeIn path (some (Cli.encodeLizProviderConfig later)) =
      placeIn path (some (Cli.encodeLizProviderConfig provider)) := by
  cases path with
  | nil => rfl
  | cons name rest =>
      rw [placeIn_cons, placeIn_cons]
      by_cases hname : name ∈ providerFields
      · have htexts : name ∈ draftFields → ∀ text other : Option String,
            placeIn rest (some (Cli.encodeText text)) =
              placeIn rest (some (Cli.encodeText other)) := by
          intro hdraft text other
          cases rest with
          | nil => exact absurd rfl (hpath name hdraft)
          | cons key rest => rw [encodeText_place, encodeText_place]
        rcases mem_providerFields.mp hname with rfl | rfl | rfl | rfl | rfl
        · exact htexts (by decide) later.baseUrl provider.baseUrl
        · exact htexts (by decide) later.apiKey provider.apiKey
        · exact htexts (by decide) later.modelId provider.modelId
        · show placeIn rest (some (Cli.encodeMap .string later.headers)) =
            placeIn rest (some (Cli.encodeMap .string provider.headers))
          rw [hheaders]
        · show placeIn rest (some (Cli.encodeMap .string later.metadata)) =
            placeIn rest (some (Cli.encodeMap .string provider.metadata))
          rw [hmetadata]
      · rw [encodeLizProviderConfig_unknown later hname,
          encodeLizProviderConfig_unknown provider hname]

/-- An entry that is not there stands for one with all defaults, if the draft may add it. -/
theorem provider_added (providerId : String) (path : List String) :
    (placeIn path (some (Cli.encodeLizProviderConfig LizProviderConfig.default))).orElse
        (implied providerId ("providers" :: providerId :: path)) =
      (placeIn path none).orElse (implied providerId ("providers" :: providerId :: path)) := by
  rw [provider_written describes_empty (fun _ h => absurd h (by simp)), placeIn_none]
  cases path with
  | nil =>
      show Place.object = if providerId = providerId then Place.object else Place.absent
      rw [if_pos rfl]
  | cons name rest =>
      have hnone : (Json.object []).lastField name = none := rfl
      rw [placeIn_cons, hnone, placeIn_none]

/-! ### The file -/

theorem config_read {document : Json} {config : LizConfigFile}
    (hread : Cli.decodeLizConfigFile document = some config)
    (hobject : document.kind = .object) :
    optionalText (document.lastField "primary_provider") = some config.primaryProvider ∧
      orDefault ∅ decodeProviders (document.lastField "providers") = some config.providers := by
  obtain ⟨fields, rfl⟩ := kind_eq_object hobject
  unfold Cli.decodeLizConfigFile at hread
  obtain ⟨found, hfound, hrest⟩ := Option.bind_eq_some_iff.mp hread
  obtain rfl := structFields_lastField hfound
  obtain ⟨primaryProvider, hprimary, hrest⟩ := Option.bind_eq_some_iff.mp hrest
  obtain ⟨providers, hproviders, hrest⟩ := Option.bind_eq_some_iff.mp hrest
  obtain rfl := Option.some.inj hrest
  exact ⟨hprimary, hproviders⟩

theorem encodeLizConfigFile_unknown (config : LizConfigFile) {name : String}
    (hname : name ∉ configFields) : (Cli.encodeLizConfigFile config).lastField name = none := by
  have hknown : (Cli.encodeLizConfigFile config).IsObjectOf configFields := isObjectOf_of_names rfl
  exact hknown.lastField hname

theorem mem_configFields {name : String} :
    name ∈ configFields ↔ name = "primary_provider" ∨ name = "providers" := by
  simp [configFields]

/-- The place of a provider's entry in a written file. -/
theorem place_provider (config : LizConfigFile) (id : String) (path : List String) :
    (Cli.encodeLizConfigFile config).place ("providers" :: id :: path) =
      placeIn path ((config.providers.lookup id).map Cli.encodeLizProviderConfig) := by
  have hproviders : (Cli.encodeLizConfigFile config).lastField "providers" =
      some (Cli.encodeMap Cli.encodeLizProviderConfig config.providers) := rfl
  rw [place, placeIn_cons, hproviders, placeIn_cons, encodeMap_lastField]

/-- What was read from a document with known fields only is written back as it was. -/
theorem config_written {document : Json} {config : LizConfigFile}
    (hread : Cli.decodeLizConfigFile document = some config) (hknown : HoldsOnlyKnown document)
    (providerId : String) :
    EditsOnly providerId document (Cli.encodeLizConfigFile config) := by
  obtain ⟨hprimary, hproviders⟩ := config_read hread hknown.config.kind
  intro path hpath
  cases path with
  | nil =>
      show ((Cli.encodeLizConfigFile config).kind).orElse _ = document.kind.orElse _
      rw [hknown.config.kind]
      rfl
  | cons name rest =>
      by_cases hname : name ∈ configFields
      · rcases mem_configFields.mp hname with rfl | rfl
        · apply text_written hprimary rest
          intro hrest
          exact absurd (.inl (by rw [hrest])) hpath
        · cases rest with
          | nil =>
              show _ = (placeIn [] (document.lastField "providers")).orElse .object
              cases hfound : document.lastField "providers" with
              | none => rfl
              | some providers =>
                  rw [hfound] at hproviders
                  cases providers with
                  | object fields => rfl
                  | null | bool _ | natural _ | negative _ | float _ | string _ | array _ =>
                      cases hproviders
          | cons id path =>
              show ((Cli.encodeLizConfigFile config).place ("providers" :: id :: path)).orElse _ =
                (placeIn (id :: path) (document.lastField "providers")).orElse _
              rw [place_provider]
              cases hfound : document.lastField "providers" with
              | none =>
                  rw [hfound] at hproviders
                  rw [← show ∅ = config.providers from Option.some.inj hproviders]
                  simp
              | some providers =>
                  rw [hfound] at hproviders
                  have hid := decodeMap_lastField
                    (show decodeMap decodeLizProviderConfig providers = _ from hproviders) id
                  rw [placeIn_cons]
                  cases hentry : providers.lastField id with
                  | none =>
                      rw [hentry] at hid
                      rw [Option.map_eq_none_iff.mp hid.symm, Option.map_none]
                  | some entry =>
                      rw [hentry, Option.map_some] at hid
                      obtain ⟨provider, hprovider, hdecode⟩ := Option.map_eq_some_iff.mp hid.symm
                      have hobject := hknown.providers providers id entry hfound hentry
                      obtain ⟨fields, rfl⟩ := kind_eq_object hobject.kind
                      rw [hprovider, Option.map_some]
                      exact provider_written (describes_of_decode hdecode.symm) hobject
                        providerId id path
      · show (placeIn rest ((Cli.encodeLizConfigFile config).lastField name)).orElse _ =
          (placeIn rest (document.lastField name)).orElse _
        rw [encodeLizConfigFile_unknown config hname, hknown.config.lastField hname]

/-! ### The draft -/

/-- Only this provider may have another entry, and it keeps its headers and its metadata. -/
structure Adjusts (providerId : String) (config later : LizConfigFile) : Prop where
  others : ∀ id, id ≠ providerId → later.providers.lookup id = config.providers.lookup id
  own : later.providers.lookup providerId = config.providers.lookup providerId ∨
    ∃ provider, later.providers.lookup providerId = some provider ∧
      provider.headers =
        ((config.providers.lookup providerId).getD LizProviderConfig.default).headers ∧
      provider.metadata =
        ((config.providers.lookup providerId).getD LizProviderConfig.default).metadata

theorem Adjusts.trans {providerId : String} {config between later : LizConfigFile}
    (h : Adjusts providerId config between) (h' : Adjusts providerId between later) :
    Adjusts providerId config later := by
  refine ⟨fun id hid => (h'.others id hid).trans (h.others id hid), ?_⟩
  rcases h'.own with hsame | ⟨provider, hprovider, hheaders, hmetadata⟩
  · rw [hsame]
    exact h.own
  · refine .inr ⟨provider, hprovider, ?_⟩
    rcases h.own with hbefore | ⟨earlier, hearlier, hkept, hkept'⟩
    · rw [← hbefore]
      exact ⟨hheaders, hmetadata⟩
    · rw [hearlier, Option.getD_some] at hheaders hmetadata
      exact ⟨hheaders.trans hkept, hmetadata.trans hkept'⟩

theorem adjusts_saveOverride (config : LizConfigFile) (providerId : String)
    (field : Cli.ProviderField) (value : String) :
    Adjusts providerId config (Cli.saveOverride config providerId field value) := by
  unfold Cli.saveOverride
  split
  · exact ⟨fun _ _ => rfl, .inl rfl⟩
  · refine ⟨fun id hid => AList.lookup_insert_ne hid, .inr ⟨_, AList.lookup_insert _, ?_⟩⟩
    cases field <;> exact ⟨rfl, rfl⟩

theorem adjusts_applyTo (draft : Cli.ConfigDraft) (config : LizConfigFile) :
    Adjusts (Text.trim draft.providerId) config (draft.applyTo config) := by
  let providerId := Text.trim draft.providerId
  let selected := { config with primaryProvider := some providerId }
  have hselected : Adjusts providerId config selected := ⟨fun _ _ => rfl, .inl rfl⟩
  exact ((hselected.trans (adjusts_saveOverride selected providerId _ _)).trans
    (adjusts_saveOverride _ providerId _ _)).trans (adjusts_saveOverride _ providerId _ _)

theorem Adjusts.editsOnly {providerId : String} {config later : LizConfigFile}
    (h : Adjusts providerId config later) :
    EditsOnly providerId (Cli.encodeLizConfigFile config) (Cli.encodeLizConfigFile later) := by
  intro path hpath
  cases path with
  | nil => rfl
  | cons name rest =>
      by_cases hname : name ∈ configFields
      · rcases mem_configFields.mp hname with rfl | rfl
        · cases rest with
          | nil => exact absurd (.inl rfl) hpath
          | cons key rest =>
              show (placeIn (key :: rest) (some (Cli.encodeText later.primaryProvider))).orElse _ =
                (placeIn (key :: rest) (some (Cli.encodeText config.primaryProvider))).orElse _
              rw [encodeText_place, encodeText_place]
        · cases rest with
          | nil => rfl
          | cons id path =>
              rw [placeOf, placeOf, place_provider, place_provider]
              by_cases hid : id = providerId
              · subst hid
                rcases h.own with hsame | ⟨provider, hprovider, hheaders, hmetadata⟩
                · rw [hsame]
                · have hunedited : ∀ name ∈ draftFields, path ≠ [name] :=
                    fun name hname heq => hpath (.inr ⟨name, hname, by rw [heq]⟩)
                  rw [hprovider, Option.map_some, provider_edited hheaders hmetadata hunedited]
                  cases config.providers.lookup id with
                  | none => exact provider_added id path
                  | some provider => rfl
              · rw [h.others id hid]
      · show (placeIn rest ((Cli.encodeLizConfigFile later).lastField name)).orElse _ =
          (placeIn rest ((Cli.encodeLizConfigFile config).lastField name)).orElse _
        rw [encodeLizConfigFile_unknown later hname, encodeLizConfigFile_unknown config hname]

/-- What a written file does not differ from has known fields only. -/
theorem holdsOnlyKnown_of_editsOnly {document : Json} {config : LizConfigFile}
    {providerId : String} (hread : Cli.decodeLizConfigFile document = some config)
    (h : EditsOnly providerId document (Cli.encodeLizConfigFile config)) :
    HoldsOnlyKnown document := by
  have hobject : document.kind = .object := by
    have hroot := h [] (by simp [Edited])
    rw [placeOf, placeOf, place, place, placeIn_nil, placeIn_nil, kind_orElse, kind_orElse] at hroot
    exact hroot.symm
  obtain ⟨fields, rfl⟩ := kind_eq_object hobject
  obtain ⟨-, hproviders⟩ := config_read hread hobject
  refine ⟨isObjectOf_of_lastField fun name hname => ?_, fun providers id entry hfound hentry => ?_⟩
  · -- an unknown field of the file is not written
    cases hlast : (Json.object fields).lastField name with
    | none => rfl
    | some value =>
        have himplied : implied providerId [name] = .absent := by
          unfold implied
          split <;> simp_all [configFields]
        have hplace := h [name] (by
          rintro (heq | ⟨_, -, heq⟩)
          · exact hname (by simp_all [configFields])
          · simp at heq)
        rw [placeOf, placeOf, place, place, placeIn_cons, placeIn_cons, hlast, himplied,
          encodeLizConfigFile_unknown config hname, placeIn_none, placeIn_nil, kind_orElse] at hplace
        exact absurd hplace.symm (kind_ne_absent value)
  · rw [hfound] at hproviders
    have hid := decodeMap_lastField
      (show decodeMap decodeLizProviderConfig providers = _ from hproviders) id
    rw [hentry, Option.map_some] at hid
    obtain ⟨provider, hprovider, -⟩ := Option.map_eq_some_iff.mp hid.symm
    have hwritten : ∀ path, ¬ Edited providerId ("providers" :: id :: path) →
        (placeIn path (some (Cli.encodeLizProviderConfig provider))).orElse
            (implied providerId ("providers" :: id :: path)) =
          (placeIn path (some entry)).orElse (implied providerId ("providers" :: id :: path)) := by
      intro path hpath
      have hplace := h _ hpath
      rw [placeOf, placeOf, place_provider, hprovider, Option.map_some, place, placeIn_cons,
        hfound, placeIn_cons, hentry] at hplace
      exact hplace
    have hentryObject : entry.kind = .object := by
      have hplace := hwritten [] (by simp [Edited])
      rw [placeIn_nil, placeIn_nil, kind_orElse, kind_orElse] at hplace
      exact hplace.symm
    obtain ⟨entryFields, rfl⟩ := kind_eq_object hentryObject
    apply isObjectOf_of_lastField
    intro name hname
    cases hlast : (Json.object entryFields).lastField name with
    | none => rfl
    | some value =>
        have hplace := hwritten [name] (by
          rintro (heq | ⟨other, hother, heq⟩)
          · simp at heq
          · obtain ⟨-, rfl⟩ : id = providerId ∧ name = other := by simpa using heq
            exact hname (List.mem_append_left ["headers", "metadata"] hother))
        rw [placeIn_cons, placeIn_cons, hlast, implied_unknown hname,
          encodeLizProviderConfig_unknown provider hname, placeIn_none, placeIn_nil,
          kind_orElse] at hplace
        exact absurd hplace.symm (kind_ne_absent value)

/-- A draft saved over a document that was read changes only its own places if and only if the
document holds nothing the client does not know. -/
theorem editsOnly_applyTo_iff {document : Json} {config : LizConfigFile} (draft : Cli.ConfigDraft)
    (hread : Cli.decodeLizConfigFile document = some config) :
    EditsOnly (Text.trim draft.providerId) document
        (Cli.encodeLizConfigFile (draft.applyTo config)) ↔ HoldsOnlyKnown document := by
  have hdraft := (adjusts_applyTo draft config).editsOnly
  constructor
  · intro h
    exact holdsOnlyKnown_of_editsOnly hread (h.trans hdraft.symm)
  · intro h
    exact (config_written hread h _).trans hdraft

end Places

/-- The file is missing, cannot be read from the disk, or is a document the client reads and knows
all of. -/
def Cli.ConfigContents.Known [JsonText] : Cli.ConfigContents → Prop
  | .text held => ∃ document, JsonText.parse held = .ok document ∧
      (Cli.decodeLizConfigFile document).isSome ∧ HoldsOnlyKnown document
  | _ => True

theorem saveConfigDraft_text [JsonText] {draft : Cli.ConfigDraft} (text : String)
    (h : (Text.trim draft.providerId).isEmpty = false) :
    Cli.saveConfigDraft draft (.text text) = .ok (some (Cli.encodeLizConfigFile
      (draft.applyTo ((Cli.readConfigFile text).getD LizConfigFile.default)))) := by
  unfold Cli.saveConfigDraft
  rw [h]
  rfl

/-- Saving changes nothing but the places of the draft if and only if there is no provider to save,
or the file holds nothing the client does not know. -/
theorem saves_only_its_edits_iff [JsonText] (draft : Cli.ConfigDraft)
    (contents : Cli.ConfigContents) :
    SavesOnlyItsEdits draft contents ↔
      (Text.trim draft.providerId).isEmpty ∨ contents.Known := by
  cases hempty : (Text.trim draft.providerId).isEmpty with
  | true =>
      refine iff_of_true (fun saved hsaved => ?_) (.inl rfl)
      exfalso
      unfold Cli.saveConfigDraft at hsaved
      rw [hempty] at hsaved
      cases hload : Cli.loadConfigFile contents with
      | error error => rw [hload] at hsaved; cases hsaved
      | ok config => rw [hload] at hsaved; cases hsaved
  | false =>
      cases contents with
      | missing => exact iff_of_true (fun _ _ => trivial) (.inr trivial)
      | unreadable error => exact iff_of_true (fun _ _ => trivial) (.inr trivial)
      | text text =>
          have hsaved := saveConfigDraft_text text hempty
          constructor
          · intro h
            obtain ⟨document, hparse, hsome, hedits⟩ := h _ hsaved
            obtain ⟨config, hread⟩ := Option.isSome_iff_exists.mp hsome
            have hfile : Cli.readConfigFile text = some config := by
              rw [Cli.readConfigFile, hparse]
              exact hread
            rw [hfile] at hedits
            exact .inr ⟨document, hparse, hsome, (editsOnly_applyTo_iff draft hread).mp hedits⟩
          · intro h saved hsame
            obtain ⟨document, hparse, hsome, hknown⟩ := h.resolve_left Bool.false_ne_true
            obtain ⟨config, hread⟩ := Option.isSome_iff_exists.mp hsome
            have hfile : Cli.readConfigFile text = some config := by
              rw [Cli.readConfigFile, hparse]
              exact hread
            have heq := Option.some.inj (Except.ok.inj (hsame.symm.trans hsaved))
            rw [hfile] at heq
            refine ⟨document, hparse, hsome, ?_⟩
            rw [heq]
            exact (editsOnly_applyTo_iff draft hread).mpr hknown


/-- A file with a setting the client does not know, and one that is cut short. -/
def themedText : String := "\x7b\"primary_provider\":\"openai\",\"theme\":\"dark\"\x7d"

def cutText : String := "\x7b\"primary_provider\":\"openai\",\"providers\":"

/-- A reader of the first of them. -/
@[reducible] def themedReader : JsonText :=
  ⟨fun text =>
      if text = themedText then
        .ok (.object [("primary_provider", .string "openai"), ("theme", .string "dark")])
      else .error "EOF while parsing a value at line 1 column 39",
    fun _ => "invalid type"⟩

def anthropicDraft : Cli.ConfigDraft :=
  { providerId := "anthropic", baseUrl := "", apiKey := "", modelId := "" }

/-- The unknown setting is lost, and the file that cannot be read is replaced. -/
theorem settings_lost :
    letI := themedReader
    let saved := Json.object
      [("primary_provider", .string "anthropic"), ("providers", .object [])]
    Cli.saveConfigDraft anthropicDraft (.text themedText) = .ok (some saved) ∧
      ¬ SavesOnlyItsEdits anthropicDraft (.text themedText) ∧
      Cli.saveConfigDraft anthropicDraft (.text cutText) = .ok (some saved) ∧
      ¬ SavesOnlyItsEdits anthropicDraft (.text cutText) := by
  let _ : JsonText := themedReader
  let document := Json.object [("primary_provider", .string "openai"), ("theme", .string "dark")]
  have hthemed : JsonText.parse themedText = .ok document := if_pos rfl
  have hcut : JsonText.parse cutText =
      .error "EOF while parsing a value at line 1 column 39" := if_neg (by decide)
  have hprovider : Text.trim "anthropic" = "anthropic" := by decide
  have hunset : Text.trim "" = "" := by decide
  have hdraft : ∀ config, anthropicDraft.applyTo config =
      { config with primaryProvider := some "anthropic" } := by
    intro config
    unfold Cli.ConfigDraft.applyTo anthropicDraft
    rw [hprovider, hunset]
    rfl
  have hsave : ∀ text, Cli.saveConfigDraft anthropicDraft (.text text) = _ :=
    fun text => saveConfigDraft_text text (by decide)
  have hthemedFile : Cli.readConfigFile themedText =
      some { primaryProvider := some "openai", providers := ∅ } := by
    rw [Cli.readConfigFile, hthemed]
    rfl
  have hcutFile : Cli.readConfigFile cutText = none := by
    rw [Cli.readConfigFile, hcut]
    rfl
  have hthemedSaved : Cli.saveConfigDraft anthropicDraft (.text themedText) = .ok (some
      (.object [("primary_provider", .string "anthropic"), ("providers", .object [])])) := by
    rw [hsave, hdraft, hthemedFile]
    rfl
  have hcutSaved : Cli.saveConfigDraft anthropicDraft (.text cutText) = .ok (some
      (.object [("primary_provider", .string "anthropic"), ("providers", .object [])])) := by
    rw [hsave, hdraft, hcutFile]
    rfl
  refine ⟨hthemedSaved, fun h => ?_, hcutSaved, fun h => ?_⟩
  · obtain ⟨before, hparse, -, hedits⟩ := h _ hthemedSaved
    obtain rfl := Except.ok.inj (hparse.symm.trans hthemed)
    have htheme := hedits ["theme"] (by simp [Edited])
    have hvalue : Json.Place.absent = .value (.string "dark") := htheme
    cases hvalue
  · obtain ⟨before, hparse, -⟩ := h _ hcutSaved
    rw [hcut] at hparse
    cases hparse

end Liz
