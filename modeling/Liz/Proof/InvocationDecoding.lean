import Liz.Protocol.ToolDecoding
import Mathlib.Data.List.Nodup
import Mathlib.Data.String.Basic

/-!
# Two decoders of a tool call

A tool call reaches its tool through a reader written by hand, not through the decoder the protocol
derives. The hand-written reader takes a boolean that is left out as false, which the protocol does
not; so the arguments are completed with these defaults before the two are compared. What is left
is how they read an optional field of the wrong type: the protocol rejects it, the other reader
takes it as absent.
-/

namespace Liz

namespace Json

variable {fields : List (String × Json)}

/-- Of different names at most one field is found. -/
theorem filter_name (hnodup : (fields.map Prod.fst).Nodup) (name : String) :
    fields.filter (·.1 == name) = ((fields.lookup name).map (name, ·)).toList := by
  induction fields with
  | nil => rfl
  | cons field rest ih =>
      obtain ⟨other, held⟩ := field
      rw [List.map_cons, List.nodup_cons] at hnodup
      by_cases hname : other = name
      · subst hname
        have hrest : rest.filter (·.1 == other) = [] := by
          rw [List.filter_eq_nil_iff]
          intro field hfield heq
          have hname : field.1 = other := beq_iff_eq.mp heq
          apply hnodup.1
          show other ∈ rest.map Prod.fst
          rw [← hname]
          exact List.mem_map_of_mem hfield
        simp [hrest]
      · rw [List.filter_cons_of_neg (by simpa using hname), List.lookup_cons,
          show (name == other) = false by simpa using Ne.symm hname]
        exact ih hnodup.2

/-- A structure reads the fields of an object by their names. -/
theorem structFields_object (hnodup : (fields.map Prod.fst).Nodup) (names : List String) :
    (object fields).structFields names = some (names.map (fields.lookup ·)) := by
  show names.mapM _ = _
  induction names with
  | nil => rfl
  | cons name rest ih =>
      rw [List.mapM_cons, ih, filter_name hnodup name]
      cases hfound : fields.lookup name <;> simp [hfound]

theorem required_eq {α : Type} (decode : Json → Option α) (value : Option Json) :
    required decode value = value.bind decode := by
  cases value <;> rfl

/-! ### What a map holds -/

/-- The names of a map stand in their order, each once. -/
def Ordered (fields : List (String × Json)) : Prop := (fields.map Prod.fst).Pairwise (· < ·)

theorem mem_insertField {name other : String} {value held : Json}
    (hmem : (other, held) ∈ insertField name value fields) :
    (other, held) = (name, value) ∨ (other, held) ∈ fields := by
  induction fields with
  | nil => exact .inl (List.mem_singleton.mp hmem)
  | cons field rest ih =>
      rw [insertField] at hmem
      split at hmem
      · exact .inr hmem
      · split at hmem
        · exact List.mem_cons.mp hmem
        · rcases List.mem_cons.mp hmem with hhead | hrest
          · exact .inr (hhead ▸ List.mem_cons_self)
          · exact (ih hrest).imp_right (List.mem_cons_of_mem _)

theorem Ordered.insertField (hordered : Ordered fields) (name : String) (value : Json) :
    Ordered (Json.insertField name value fields) := by
  induction fields with
  | nil => exact List.pairwise_singleton _ _
  | cons field rest ih =>
      obtain ⟨other, held⟩ := field
      have hrest : ∀ next ∈ rest.map Prod.fst, other < next := (List.pairwise_cons.mp hordered).1
      rw [Json.insertField]
      split
      · exact hordered
      · rename_i hne
        split
        · rename_i hlt
          refine List.pairwise_cons.mpr ⟨?_, hordered⟩
          intro next hnext
          rcases List.mem_cons.mp hnext with rfl | hnext
          · exact hlt
          · exact hlt.trans (hrest next hnext)
        · rename_i hlt
          refine List.pairwise_cons.mpr ⟨?_, ih (List.pairwise_cons.mp hordered).2⟩
          intro next hnext
          obtain ⟨⟨next, found⟩, hmem, rfl⟩ := List.mem_map.mp hnext
          rcases mem_insertField hmem with heq | hmem
          · rw [(Prod.mk.inj heq).1]
            exact lt_of_le_of_ne (not_lt.mp hlt) (Ne.symm hne)
          · exact hrest next (List.mem_map_of_mem hmem)

theorem KeyedFields.of_forall (hvalues : ∀ field ∈ fields, field.2.Keyed) :
    KeyedFields fields := by
  induction fields with
  | nil => trivial
  | cons field rest ih =>
      exact ⟨hvalues field List.mem_cons_self,
        ih fun next hnext => hvalues next (List.mem_cons_of_mem _ hnext)⟩

theorem KeyedFields.mem (hkeyed : KeyedFields fields) {field : String × Json}
    (hfield : field ∈ fields) : field.2.Keyed := by
  induction fields with
  | nil => cases hfield
  | cons head rest ih =>
      rcases List.mem_cons.mp hfield with rfl | hrest
      · exact hkeyed.1
      · exact ih hkeyed.2 hrest

theorem KeyedFields.lookup (hkeyed : KeyedFields fields) {name : String} {value : Json}
    (hfound : fields.lookup name = some value) : value.Keyed := by
  obtain ⟨before, after, hfields, -⟩ := List.lookup_eq_some_iff.mp hfound
  have hmem : (name, value) ∈ fields := by simp [hfields]
  exact hkeyed.mem hmem

mutual

/-- A value as a map keeps it has no repeated field, at any depth. -/
theorem mapped_keyed : (value : Json) → (mapped value).Keyed
  | array items => mappedItems_keyed items
  | object fields =>
      ⟨(mappedFields_ordered fields).1.imp ne_of_lt, (mappedFields_ordered fields).2⟩
  | null | bool _ | natural _ | negative _ | float _ | string _ => trivial

theorem mappedItems_keyed : (items : List Json) → KeyedItems (mappedItems items)
  | [] => trivial
  | item :: rest => ⟨mapped_keyed item, mappedItems_keyed rest⟩

theorem mappedFields_ordered : (fields : List (String × Json)) →
    Ordered (mappedFields fields) ∧ KeyedFields (mappedFields fields)
  | [] => ⟨List.Pairwise.nil, trivial⟩
  | (name, value) :: rest => by
      obtain ⟨hordered, hkeyed⟩ := mappedFields_ordered rest
      refine ⟨hordered.insertField name (mapped value), KeyedFields.of_forall ?_⟩
      intro field hfield
      rcases mem_insertField hfield with heq | hmem
      · rw [(Prod.mk.inj heq).2]
        exact mapped_keyed value
      · exact hkeyed.mem hmem

end

end Json

/-! ### What the fields of a request hold -/

/-- How a field of a request is declared. -/
inductive FieldKind
  | text | flag | count | optionalText | sandbox
  deriving DecidableEq

/-- The fields of the ten requests, in the order of their structures. -/
def ToolName.fields : ToolName → List (String × FieldKind)
  | .workspaceList =>
      [("root", .text), ("recursive", .flag), ("include_hidden", .flag), ("max_entries", .count)]
  | .workspaceSearch =>
      [("root", .text), ("pattern", .text), ("case_sensitive", .flag), ("include_hidden", .flag),
        ("max_results", .count)]
  | .workspaceRead => [("path", .text), ("start_line", .count), ("end_line", .count)]
  | .workspaceWriteText => [("path", .text), ("content", .text)]
  | .workspaceApplyPatch =>
      [("path", .text), ("search", .text), ("replace", .text), ("replace_all", .flag)]
  | .shellExec | .shellSpawn =>
      [("command", .text), ("working_dir", .optionalText), ("sandbox", .sandbox)]
  | .shellWait | .shellReadOutput | .shellTerminate => [("task_id", .text)]

/-- The values a field of a kind accepts; only a text has to be there. -/
def FieldKind.accepts : FieldKind → Option Json → Bool
  | .text, some (.string _) => true
  | .flag, none | .flag, some (.bool _) => true
  | .count, none | .count, some .null | .count, some (.natural _) => true
  | .optionalText, none | .optionalText, some .null | .optionalText, some (.string _) => true
  | .sandbox, none | .sandbox, some .null => true
  | .sandbox, some (.object fields) =>
      ((fields.lookup "mode").bind sandboxModeOf).isSome &&
        ((fields.lookup "network_access").bind sandboxNetworkAccessOf).isSome
  | _, _ => false

/-- The required fields of a tool hold texts. -/
def ToolName.Complete (tool : ToolName) (arguments : List (String × Json)) : Prop :=
  ∀ field ∈ tool.fields, field.2 = .text → field.2.accepts (arguments.lookup field.1)

/-- Every field of a tool that is there is well typed. -/
def ToolName.WellTyped (tool : ToolName) (arguments : List (String × Json)) : Prop :=
  ∀ field ∈ tool.fields, field.2.accepts (arguments.lookup field.1)

/-- The booleans of a tool, which are false when a call leaves them out. -/
def ToolName.flags (tool : ToolName) : List String :=
  (tool.fields.filter (·.2 = .flag)).map Prod.fst

/-- Arguments with the booleans they leave out. -/
def ToolName.completed (tool : ToolName) (arguments : List (String × Json)) :
    List (String × Json) :=
  arguments ++ ((tool.flags.filter (arguments.lookup · |>.isNone)).map (·, Json.bool false))

/-- The protocol's form of a call, its arguments completed with their defaults. -/
def protocolCall (toolName : String) (arguments : List (String × Json)) : Json :=
  .object
    [("tool_name", .string toolName),
      ("input", .object
        (match ToolName.ofStr? toolName with
        | some tool => tool.completed arguments
        | none => arguments))]

/-! ### The two readers, field by field -/

section Fields

variable (value : Option Json)

theorem flag_agrees :
    Json.orDefault false Json.asBool value = some ((value.bind Json.asBool).getD false) ↔
      FieldKind.flag.accepts value := by
  cases value with
  | none => simp [Json.orDefault, FieldKind.accepts]
  | some value => cases value <;> simp [Json.orDefault, FieldKind.accepts, Json.asBool]

theorem count_agrees :
    Json.orDefault none (Json.optionally Json.asU64) value = some (value.bind Json.asU64) ↔
      FieldKind.count.accepts value := by
  cases value with
  | none => simp [Json.orDefault, FieldKind.accepts]
  | some value =>
      cases value <;> simp [Json.orDefault, Json.optionally, FieldKind.accepts, Json.asU64]

theorem optionalText_agrees :
    Json.orDefault none (Json.optionally Json.asStr) value = some (value.bind Json.asStr) ↔
      FieldKind.optionalText.accepts value := by
  cases value with
  | none => simp [Json.orDefault, FieldKind.accepts]
  | some value =>
      cases value <;> simp [Json.orDefault, Json.optionally, FieldKind.accepts, Json.asStr]

/-- Of an object the two readers of a sandbox read the same. -/
theorem decodeShellSandboxRequest_object {fields : List (String × Json)}
    (hnodup : (fields.map Prod.fst).Nodup) :
    decodeShellSandboxRequest (.object fields) =
      parseShellSandboxRequest (some (.object fields)) := by
  rw [decodeShellSandboxRequest, Json.structFields_object hnodup]
  simp [Json.required_eq, parseShellSandboxRequest, Json.get?, Option.bind_assoc]

theorem isSome_parseShellSandboxRequest {fields : List (String × Json)} :
    (parseShellSandboxRequest (some (.object fields))).isSome ↔
      ((fields.lookup "mode").bind sandboxModeOf).isSome ∧
        ((fields.lookup "network_access").bind sandboxNetworkAccessOf).isSome := by
  cases hmode : fields.lookup "mode" with
  | none => simp [parseShellSandboxRequest, Json.get?, hmode]
  | some mode =>
      cases hmodeOf : sandboxModeOf mode with
      | none => simp [parseShellSandboxRequest, Json.get?, hmode, hmodeOf]
      | some mode =>
          cases haccess : fields.lookup "network_access" <;>
            simp [parseShellSandboxRequest, Json.get?, hmode, hmodeOf, haccess,
              Option.isSome_bind]

theorem sandbox_agrees (hkeyed : ∀ held, value = some held → held.Keyed) :
    Json.orDefault none (Json.optionally decodeShellSandboxRequest) value =
        some (parseShellSandboxRequest value) ↔ FieldKind.sandbox.accepts value := by
  cases value with
  | none => simp [Json.orDefault, FieldKind.accepts, parseShellSandboxRequest]
  | some value =>
      cases value with
      | object fields =>
          have hnodup : (fields.map Prod.fst).Nodup := (hkeyed _ rfl).1
          have haccepts : FieldKind.sandbox.accepts (some (.object fields)) =
              (parseShellSandboxRequest (some (.object fields))).isSome := by
            rw [Bool.eq_iff_iff, isSome_parseShellSandboxRequest]
            simp [FieldKind.accepts]
          simp only [Json.orDefault, Json.optionally, decodeShellSandboxRequest_object hnodup,
            haccepts]
          cases parseShellSandboxRequest (some (.object fields)) <;> simp
      | _ => simp [Json.orDefault, Json.optionally, FieldKind.accepts, parseShellSandboxRequest,
          Json.get?]

end Fields

/-! ### The completed arguments -/

/-- What the protocol finds in a field of the completed arguments. -/
def FieldKind.completed : FieldKind → Option Json → Option Json
  | .flag, none => some (.bool false)
  | _, value => value

@[simp] theorem completed_of_ne {kind : FieldKind} (hkind : kind ≠ .flag) (value : Option Json) :
    kind.completed value = value := by
  cases kind <;> simp_all [FieldKind.completed]

theorem completed_flag_bind (value : Option Json) :
    (FieldKind.flag.completed value).bind Json.asBool =
      Json.orDefault false Json.asBool value := by
  cases value <;> rfl

section Completed

variable (tool : ToolName) (arguments : List (String × Json))

theorem lookup_absent_flags (name : String) :
    ((tool.flags.filter (arguments.lookup · |>.isNone)).map (·, Json.bool false)).lookup name =
      if name ∈ tool.flags ∧ arguments.lookup name = none then some (.bool false) else none := by
  induction tool.flags with
  | nil => simp
  | cons flag rest ih =>
      by_cases hname : name = flag
      · subst hname
        cases hlookup : arguments.lookup name with
        | none => simp [hlookup]
        | some value =>
            rw [List.filter_cons_of_neg (by simp [hlookup]), ih]
            simp [hlookup]
      · rw [List.filter_cons]
        have hbeq : (name == flag) = false := by simpa using hname
        have hmem : name ∈ flag :: rest ↔ name ∈ rest := by simp [hname]
        split <;> simp only [List.map_cons, List.lookup_cons, hbeq, hmem, ih]

/-- A field of the tool is found as it was, a boolean that was left out as false. -/
theorem lookup_completed {field : String × FieldKind} (hfield : field ∈ tool.fields) :
    (tool.completed arguments).lookup field.1 = field.2.completed (arguments.lookup field.1) := by
  have hflag : field.1 ∈ tool.flags ↔ field.2 = .flag := by
    revert field
    cases tool <;> decide
  rw [ToolName.completed, List.lookup_append, lookup_absent_flags]
  simp only [hflag]
  cases hlookup : arguments.lookup field.1 with
  | none =>
      cases hkind : field.2 <;> simp [FieldKind.completed]
  | some value => cases field.2 <;> simp [FieldKind.completed]

theorem completed_nodup (hnodup : (arguments.map Prod.fst).Nodup) :
    ((tool.completed arguments).map Prod.fst).Nodup := by
  have hflags : tool.flags.Nodup := by cases tool <;> decide
  rw [ToolName.completed, List.map_append, List.map_map, List.nodup_append]
  refine ⟨hnodup, ?_, ?_⟩
  · rw [show (Prod.fst ∘ fun flag : String => (flag, Json.bool false)) = id from rfl, List.map_id]
    exact hflags.filter _
  · intro name hname flag hflag heq
    subst heq
    simp only [Function.comp_def, List.map_id', List.mem_filter] at hflag
    obtain ⟨⟨other, held⟩, hmem, rfl⟩ := List.mem_map.mp hname
    have habsent : arguments.lookup other = none := by simpa using hflag.2
    rw [List.lookup_eq_none_iff] at habsent
    exact absurd (habsent _ hmem) (by simp)

/-- What the structure of a tool reads of the completed arguments. -/
theorem structFields_completed (hnodup : (arguments.map Prod.fst).Nodup) :
    (Json.object (tool.completed arguments)).structFields (tool.fields.map Prod.fst) =
      some (tool.fields.map fun field => field.2.completed (arguments.lookup field.1)) := by
  rw [Json.structFields_object (completed_nodup tool arguments hnodup), List.map_map]
  congr 1
  apply List.map_congr_left
  intro field hfield
  exact lookup_completed tool arguments hfield

end Completed

/-! ### The two readers of a call -/

/-- A required text is there, or both readers fail. -/
theorem text_cases (value : Option Json) :
    (∃ text, value = some (.string text)) ∨
      value.bind Json.asStr = none ∧ FieldKind.text.accepts value = false := by
  cases value with
  | none => exact .inr ⟨rfl, rfl⟩
  | some value => cases value <;> simp [Json.asStr, FieldKind.accepts]

theorem text_accepts (text : String) : FieldKind.text.accepts (some (.string text)) = true := rfl

/-- What the reader written by hand accepts, the protocol reads the same. -/
def ToolName.Agrees (tool : ToolName) (arguments : List (String × Json)) : Prop :=
  ∀ invocation, parseToolInvocation tool.asStr (.object arguments) = .ok invocation →
    tool.decodeRequest (.object (tool.completed arguments)) = some invocation

section Agreement

attribute [local simp] ToolName.Agrees ToolName.asStr parseToolInvocation requiredStringField
  optionalStringField optionalBoolField optionalUsizeField Json.get? Json.asStr
  ToolName.decodeRequest Json.required_eq completed_flag_bind bind Except.bind pure Except.pure
  Option.bind_eq_some_iff flag_agrees count_agrees optionalText_agrees ToolName.Complete
  ToolName.WellTyped ToolName.fields text_accepts

variable {arguments : List (String × Json)} (hkeyed : (Json.object arguments).Keyed)
include hkeyed

theorem workspaceList_agrees :
    ToolName.workspaceList.Agrees arguments ↔
      (ToolName.workspaceList.Complete arguments → ToolName.workspaceList.WellTyped arguments) := by
  have hread := structFields_completed .workspaceList arguments hkeyed.1
  rcases text_cases (arguments.lookup "root") with ⟨root, hroot⟩ | ⟨hmissing, hnot⟩
  · simp only [ToolName.fields, List.map_cons, List.map_nil] at hread
    simp [-Bool.exists_bool, decodeWorkspaceListRequest, hread, hroot]
  · simp [hmissing, hnot]

theorem workspaceSearch_agrees :
    ToolName.workspaceSearch.Agrees arguments ↔
      (ToolName.workspaceSearch.Complete arguments →
        ToolName.workspaceSearch.WellTyped arguments) := by
  have hread := structFields_completed .workspaceSearch arguments hkeyed.1
  rcases text_cases (arguments.lookup "root") with ⟨root, hroot⟩ | ⟨hmissing, hnot⟩
  · rcases text_cases (arguments.lookup "pattern") with ⟨pattern, hpattern⟩ | ⟨hmissing, hnot⟩
    · simp only [ToolName.fields, List.map_cons, List.map_nil] at hread
      simp [-Bool.exists_bool, decodeWorkspaceSearchRequest, hread, hroot, hpattern]
    · simp [hroot, hmissing, hnot]
  · simp [hmissing, hnot]

theorem workspaceRead_agrees :
    ToolName.workspaceRead.Agrees arguments ↔
      (ToolName.workspaceRead.Complete arguments → ToolName.workspaceRead.WellTyped arguments) := by
  have hread := structFields_completed .workspaceRead arguments hkeyed.1
  rcases text_cases (arguments.lookup "path") with ⟨path, hpath⟩ | ⟨hmissing, hnot⟩
  · simp only [ToolName.fields, List.map_cons, List.map_nil] at hread
    simp [decodeWorkspaceReadRequest, hread, hpath]
  · simp [hmissing, hnot]

theorem workspaceWriteText_agrees :
    ToolName.workspaceWriteText.Agrees arguments ↔
      (ToolName.workspaceWriteText.Complete arguments →
        ToolName.workspaceWriteText.WellTyped arguments) := by
  have hread := structFields_completed .workspaceWriteText arguments hkeyed.1
  rcases text_cases (arguments.lookup "path") with ⟨path, hpath⟩ | ⟨hmissing, hnot⟩
  · rcases text_cases (arguments.lookup "content") with ⟨content, hcontent⟩ | ⟨hmissing, hnot⟩
    · simp only [ToolName.fields, List.map_cons, List.map_nil] at hread
      simp [decodeWorkspaceWriteTextRequest, hread, hpath, hcontent]
    · simp [hpath, hmissing, hnot]
  · simp [hmissing, hnot]

theorem workspaceApplyPatch_agrees :
    ToolName.workspaceApplyPatch.Agrees arguments ↔
      (ToolName.workspaceApplyPatch.Complete arguments →
        ToolName.workspaceApplyPatch.WellTyped arguments) := by
  have hread := structFields_completed .workspaceApplyPatch arguments hkeyed.1
  rcases text_cases (arguments.lookup "path") with ⟨path, hpath⟩ | ⟨hmissing, hnot⟩
  · rcases text_cases (arguments.lookup "search") with ⟨search, hsearch⟩ | ⟨hmissing, hnot⟩
    · rcases text_cases (arguments.lookup "replace") with ⟨replace, hreplace⟩ | ⟨hmissing, hnot⟩
      · simp only [ToolName.fields, List.map_cons, List.map_nil] at hread
        simp [-Bool.exists_bool, decodeWorkspaceApplyPatchRequest, hread, hpath, hsearch, hreplace]
      · simp [hpath, hsearch, hmissing, hnot]
    · simp [hpath, hmissing, hnot]
  · simp [hmissing, hnot]

theorem shellCommand_agrees {tool : ToolName} (htool : tool = .shellExec ∨ tool = .shellSpawn) :
    tool.Agrees arguments ↔ (tool.Complete arguments → tool.WellTyped arguments) := by
  have hread := structFields_completed tool arguments hkeyed.1
  have hsandbox : ∀ held, arguments.lookup "sandbox" = some held → held.Keyed :=
    fun held hheld => hkeyed.2.lookup hheld
  rcases text_cases (arguments.lookup "command") with ⟨command, hcommand⟩ | ⟨hmissing, hnot⟩
  · rcases htool with rfl | rfl
    all_goals
      simp only [ToolName.fields, List.map_cons, List.map_nil] at hread
      simp [decodeShellCommandRequest, hread, hcommand, sandbox_agrees _ hsandbox]
  · rcases htool with rfl | rfl
    all_goals simp [hmissing, hnot]

theorem shellTask_agrees {tool : ToolName}
    (htool : tool = .shellWait ∨ tool = .shellReadOutput ∨ tool = .shellTerminate) :
    tool.Agrees arguments ↔ (tool.Complete arguments → tool.WellTyped arguments) := by
  have hread := structFields_completed tool arguments hkeyed.1
  rcases text_cases (arguments.lookup "task_id") with ⟨taskId, htaskId⟩ | ⟨hmissing, hnot⟩
  · rcases htool with rfl | rfl | rfl
    all_goals
      simp only [ToolName.fields, List.map_cons, List.map_nil] at hread
      simp [decodeShellTaskRequest, hread, htaskId]
  · rcases htool with rfl | rfl | rfl
    all_goals simp [hmissing, hnot]

/-- The two readers agree on a tool's arguments, unless an optional field is ill typed. -/
theorem ToolName.agrees_iff (tool : ToolName) :
    tool.Agrees arguments ↔ (tool.Complete arguments → tool.WellTyped arguments) := by
  cases tool with
  | workspaceList => exact workspaceList_agrees hkeyed
  | workspaceSearch => exact workspaceSearch_agrees hkeyed
  | workspaceRead => exact workspaceRead_agrees hkeyed
  | workspaceWriteText => exact workspaceWriteText_agrees hkeyed
  | workspaceApplyPatch => exact workspaceApplyPatch_agrees hkeyed
  | shellExec => exact shellCommand_agrees hkeyed (.inl rfl)
  | shellSpawn => exact shellCommand_agrees hkeyed (.inr rfl)
  | shellWait => exact shellTask_agrees hkeyed (.inl rfl)
  | shellReadOutput => exact shellTask_agrees hkeyed (.inr (.inl rfl))
  | shellTerminate => exact shellTask_agrees hkeyed (.inr (.inr rfl))

end Agreement

/-! ### The names of the tools -/

theorem ToolName.asStr_of_ofStr? {name : String} {tool : ToolName}
    (hname : ToolName.ofStr? name = some tool) : tool.asStr = name := by
  simpa using List.find?_some hname

theorem parseToolInvocation_unknown {name : String} (hname : ToolName.ofStr? name = none)
    (value : Json) : parseToolInvocation name value = .error ("unknown tool name: " ++ name) := by
  unfold parseToolInvocation
  split
  all_goals first | rfl | exact absurd hname (by decide)

theorem decode_protocolCall (name : String) (arguments : List (String × Json)) :
    decodeToolInvocation (protocolCall name arguments) =
      (ToolName.ofStr? name).bind fun tool =>
        tool.decodeRequest (.object (tool.completed arguments)) := by
  cases hname : ToolName.ofStr? name with
  | none =>
      simp [decodeToolInvocation, protocolCall, Json.structFields, Json.unitVariant,
        Json.required, hname]
  | some tool =>
      simp [decodeToolInvocation, protocolCall, Json.structFields, Json.unitVariant,
        Json.required, hname]

/-- A list request that leaves `recursive` out. -/
def plainListing : List (String × Json) :=
  [("include_hidden", .bool true), ("max_entries", .natural 20), ("root", .string "src")]

/-- A command whose sandbox names a mode and no network access. -/
def halfSandboxed : List (String × Json) :=
  [("command", .string "ls"), ("sandbox", .object [("mode", .string "read-only")])]

end Liz
