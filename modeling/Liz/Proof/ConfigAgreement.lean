import Liz.Storage.ConfigFile

/-!
# Two readers of one configuration

The server and the command line client read the same file with the same fields. They part on one: a
file that leaves the providers out is complete for the client and broken for the server, which then
goes by its defaults.
-/

namespace Liz

namespace Json

/-- `null` or a text. -/
def IsOptionalText : Json → Prop
  | null | string _ => True
  | _ => False

theorem optionalText_eq_none_iff (value : Json) :
    optionalText (some value) = none ↔ ¬ value.IsOptionalText := by
  cases value <;> simp [optionalText, orDefault, optionally, asStr, IsOptionalText]

/-- The field of a structure with two fields, found in an object. -/
def fieldIn (fields : List (String × Json)) (name : String) : Option (Option Json) :=
  match fields.filter (·.1 == name) with
  | [] => some none
  | [(_, value)] => some (some value)
  | _ => none

theorem fieldIn_cases (fields : List (String × Json)) (name : String) :
    (fieldIn fields name = some none ∧ fields.filter (·.1 == name) = []) ∨
      (∃ value, fieldIn fields name = some (some value) ∧
        fields.filter (·.1 == name) = [(name, value)]) ∨
      (fieldIn fields name = none ∧ 1 < (fields.filter (·.1 == name)).length) := by
  unfold fieldIn
  cases hfound : fields.filter (·.1 == name) with
  | nil => exact .inl ⟨rfl, rfl⟩
  | cons field rest =>
      refine .inr ?_
      cases rest with
      | nil =>
          have hname : field.1 = name := by
            have hmem : field ∈ fields.filter (·.1 == name) := by simp [hfound]
            simpa using List.of_mem_filter hmem
          obtain ⟨found, value⟩ := field
          exact .inl ⟨value, rfl, by rw [show found = name from hname]⟩
      | cons other rest => exact .inr ⟨rfl, by simp⟩

theorem filter_eq_nil {fields : List (String × Json)} {name : String} :
    fields.filter (·.1 == name) = [] ↔ ∀ field ∈ fields, field.1 ≠ name := by
  simp [List.filter_eq_nil_iff]

/-- What is said of the fields of a name is said of those that are found under it. -/
theorem forall_named_iff {fields : List (String × Json)} {name : String} {P : Json → Prop} :
    (∀ field ∈ fields, field.1 = name → P field.2) ↔
      ∀ field ∈ fields.filter (·.1 == name), P field.2 := by
  simp only [List.mem_filter, beq_iff_eq, and_imp]

theorem structFields_pair (fields : List (String × Json)) (first second : String) :
    (object fields).structFields [first, second] =
      (fieldIn fields first).bind fun firstValue =>
        (fieldIn fields second).map fun secondValue => [firstValue, secondValue] := by
  show List.mapM (fieldIn fields) [first, second] = _
  cases hfirst : fieldIn fields first <;> cases hsecond : fieldIn fields second <;>
    simp [List.mapM_cons, hfirst, hsecond]

end Json

/-- The document leaves the providers out and is well formed apart from that. -/
def LeavesOutProviders : Json → Prop
  | .object fields =>
      (∀ field ∈ fields, field.1 ≠ "providers") ∧
        (fields.filter (·.1 == "primary_provider")).length ≤ 1 ∧
        ∀ field ∈ fields, field.1 = "primary_provider" → field.2.IsOptionalText
  | .array [primaryProvider] => primaryProvider.IsOptionalText
  | _ => False

/-- Both accept the document and read the same from it, or both reject it. -/
def ReadAlike [JsonText] (contents : String) : Prop :=
  AppServer.readConfigFile contents = Cli.readConfigFile contents

section Documents

open Json

theorem server_decode_pair {value : Json} {primaryProvider providers : Option Json}
    (h : value.fieldsOf ["primary_provider", "providers"] 2 = some [primaryProvider, providers]) :
    AppServer.decodeLizConfigFile value =
      (optionalText primaryProvider).bind fun primaryProvider =>
        (providers.bind decodeProviders).map fun providers => ⟨primaryProvider, providers⟩ := by
  unfold AppServer.decodeLizConfigFile
  rw [h]
  cases hprimary : optionalText primaryProvider <;>
    cases hproviders : providers.bind decodeProviders <;> simp [hprimary, hproviders]

theorem cli_decode_pair {value : Json} {primaryProvider providers : Option Json}
    (h : value.fieldsOf ["primary_provider", "providers"] 1 = some [primaryProvider, providers]) :
    Cli.decodeLizConfigFile value =
      (optionalText primaryProvider).bind fun primaryProvider =>
        (orDefault ∅ decodeProviders providers).map fun providers =>
          ⟨primaryProvider, providers⟩ := by
  unfold Cli.decodeLizConfigFile
  rw [h]
  cases hprimary : optionalText primaryProvider <;>
    cases hproviders : orDefault ∅ decodeProviders providers <;> simp [hprimary, hproviders]

theorem server_decode_none {value : Json}
    (h : value.fieldsOf ["primary_provider", "providers"] 2 = none) :
    AppServer.decodeLizConfigFile value = none := by
  unfold AppServer.decodeLizConfigFile
  rw [h]
  rfl

theorem cli_decode_none {value : Json}
    (h : value.fieldsOf ["primary_provider", "providers"] 1 = none) :
    Cli.decodeLizConfigFile value = none := by
  unfold Cli.decodeLizConfigFile
  rw [h]
  rfl

/-- The readers part exactly when the providers are not there and all else is. -/
theorem decode_pair_iff {value : Json} {primaryProvider providers : Option Json}
    (hserver : value.fieldsOf ["primary_provider", "providers"] 2 =
      some [primaryProvider, providers])
    (hcli : value.fieldsOf ["primary_provider", "providers"] 1 =
      some [primaryProvider, providers]) :
    AppServer.decodeLizConfigFile value = Cli.decodeLizConfigFile value ↔
      ¬ (providers = none ∧ optionalText primaryProvider ≠ none) := by
  rw [server_decode_pair hserver, cli_decode_pair hcli]
  cases providers with
  | some providers =>
      refine iff_of_true rfl ?_
      simp
  | none => cases optionalText primaryProvider <;> simp [orDefault]

theorem decode_array (items : List Json) :
    AppServer.decodeLizConfigFile (.array items) = Cli.decodeLizConfigFile (.array items) ↔
      ¬ LeavesOutProviders (.array items) := by
  match items with
  | [] =>
      rw [server_decode_none rfl, cli_decode_none rfl]
      exact iff_of_true rfl id
  | [primaryProvider] =>
      have hcli : (Json.array [primaryProvider]).fieldsOf ["primary_provider", "providers"] 1 =
          some [some primaryProvider, none] := rfl
      rw [server_decode_none rfl, cli_decode_pair hcli]
      show _ ↔ ¬ primaryProvider.IsOptionalText
      rw [← optionalText_eq_none_iff]
      cases optionalText (some primaryProvider) <;> simp [orDefault]
  | [primaryProvider, providers] =>
      have hfields : ∀ n ≤ 2, (Json.array [primaryProvider, providers]).fieldsOf
          ["primary_provider", "providers"] n = some [some primaryProvider, some providers] := by
        intro n hn
        exact if_pos hn
      rw [decode_pair_iff (hfields 2 (by decide)) (hfields 1 (by decide))]
      exact iff_of_true (by simp) id
  | first :: second :: third :: rest =>
      have hlong : ∀ n, (Json.array (first :: second :: third :: rest)).fieldsOf
          ["primary_provider", "providers"] n = none := by
        intro n
        simp [fieldsOf, structFields]
      rw [server_decode_none (hlong 2), cli_decode_none (hlong 1)]
      exact iff_of_true rfl id

theorem decode_object (fields : List (String × Json)) :
    AppServer.decodeLizConfigFile (.object fields) = Cli.decodeLizConfigFile (.object fields) ↔
      ¬ LeavesOutProviders (.object fields) := by
  have hfields : ∀ n, (Json.object fields).fieldsOf ["primary_provider", "providers"] n =
      (fieldIn fields "primary_provider").bind fun primaryProvider =>
        (fieldIn fields "providers").map fun providers => [primaryProvider, providers] :=
    fun _ => structFields_pair fields _ _
  have hleaves : LeavesOutProviders (.object fields) ↔
      fields.filter (·.1 == "providers") = [] ∧
        (fields.filter (·.1 == "primary_provider")).length ≤ 1 ∧
        ∀ field ∈ fields.filter (·.1 == "primary_provider"), field.2.IsOptionalText := by
    rw [LeavesOutProviders, filter_eq_nil, forall_named_iff]
  rw [hleaves]
  rcases fieldIn_cases fields "providers" with ⟨hfound, hnone⟩ | ⟨providers, hfound, hone⟩ |
    ⟨hfound, hmany⟩
  · -- the providers are left out: all depends on the primary provider
    rcases fieldIn_cases fields "primary_provider" with ⟨hprimary, hfirst⟩ |
      ⟨primaryProvider, hprimary, hfirst⟩ | ⟨hprimary, hfirst⟩
    · have hpair : ∀ n, (Json.object fields).fieldsOf ["primary_provider", "providers"] n =
          some [none, none] := fun n => by rw [hfields, hprimary, hfound]; rfl
      rw [decode_pair_iff (hpair 2) (hpair 1), hnone, hfirst]
      simp [optionalText, orDefault]
    · have hpair : ∀ n, (Json.object fields).fieldsOf ["primary_provider", "providers"] n =
          some [some primaryProvider, none] := fun n => by rw [hfields, hprimary, hfound]; rfl
      rw [decode_pair_iff (hpair 2) (hpair 1), hnone, hfirst, Ne, optionalText_eq_none_iff]
      simp
    · have hpair : ∀ n, (Json.object fields).fieldsOf ["primary_provider", "providers"] n =
          none := fun n => by rw [hfields, hprimary]; rfl
      rw [server_decode_none (hpair 2), cli_decode_none (hpair 1)]
      exact iff_of_true rfl fun h => absurd h.2.1 (by omega)
  · have hthere : ¬ fields.filter (·.1 == "providers") = [] := by simp [hone]
    refine iff_of_true ?_ fun h => hthere h.1
    cases hprimary : fieldIn fields "primary_provider" with
    | none =>
        have hpair : ∀ n, (Json.object fields).fieldsOf ["primary_provider", "providers"] n =
            none := fun n => by rw [hfields, hprimary]; rfl
        rw [server_decode_none (hpair 2), cli_decode_none (hpair 1)]
    | some primaryProvider =>
        have hpair : ∀ n, (Json.object fields).fieldsOf ["primary_provider", "providers"] n =
            some [primaryProvider, some providers] := fun n => by
          rw [hfields, hprimary, hfound]; rfl
        exact (decode_pair_iff (hpair 2) (hpair 1)).mpr (by simp)
  · have hpair : ∀ n, (Json.object fields).fieldsOf ["primary_provider", "providers"] n =
        none := fun n => by
      rw [hfields, hfound]
      cases fieldIn fields "primary_provider" <;> rfl
    rw [server_decode_none (hpair 2), cli_decode_none (hpair 1)]
    refine iff_of_true rfl fun h => ?_
    rw [h.1] at hmany
    exact absurd hmany (by simp)

theorem decode_alike_iff (document : Json) :
    AppServer.decodeLizConfigFile document = Cli.decodeLizConfigFile document ↔
      ¬ LeavesOutProviders document := by
  cases document with
  | array items => exact decode_array items
  | object fields => exact decode_object fields
  | null | bool _ | natural _ | negative _ | float _ | string _ =>
      rw [server_decode_none rfl, cli_decode_none rfl]
      exact iff_of_true rfl id

/-- The readers agree on a text if and only if it is no document that leaves the providers out. -/
theorem read_alike_iff [JsonText] (contents : String) :
    ReadAlike contents ↔
      ∀ document, JsonText.parse contents = .ok document → ¬ LeavesOutProviders document := by
  unfold ReadAlike AppServer.readConfigFile Cli.readConfigFile
  cases hparse : JsonText.parse contents with
  | error message => exact iff_of_true rfl fun document h => absurd h (by simp)
  | ok document =>
      refine (decode_alike_iff document).trans ⟨fun h other hother => ?_, fun h => h document rfl⟩
      rwa [← Except.ok.inj hother]

end Documents

/-- A file that selects a provider and sets nothing else. -/
def selectingText : String := "\x7b\"primary_provider\":\"anthropic\"\x7d"

/-- A reader that knows this text. -/
@[reducible] def selectingReader : JsonText :=
  ⟨fun text =>
      if text = selectingText then .ok (.object [("primary_provider", .string "anthropic")])
      else .error "expected value at line 1 column 1",
    fun _ => "invalid type"⟩

/-- The client takes the selection, and the server ignores the file as a whole. -/
theorem selection_ignored :
    letI := selectingReader
    ¬ ReadAlike selectingText ∧
      Cli.loadConfigFile (.text selectingText) =
        .ok { primaryProvider := some "anthropic", providers := ∅ } ∧
      AppServer.loadConfigFile (some selectingText) = LizConfigFile.default := by
  let _ : JsonText := selectingReader
  have hparse : JsonText.parse selectingText =
      .ok (.object [("primary_provider", .string "anthropic")]) := if_pos rfl
  have hserver : AppServer.readConfigFile selectingText = none := by
    rw [AppServer.readConfigFile, hparse]
    rfl
  have hcli : Cli.readConfigFile selectingText =
      some { primaryProvider := some "anthropic", providers := ∅ } := by
    rw [Cli.readConfigFile, hparse]
    rfl
  refine ⟨fun h => ?_, ?_, ?_⟩
  · rw [ReadAlike, hserver, hcli] at h
    exact absurd h (by simp)
  · rw [Cli.loadConfigFile, hcli]
    rfl
  · rw [AppServer.loadConfigFile, Option.bind_some, hserver]
    rfl

end Liz
