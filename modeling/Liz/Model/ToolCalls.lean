import Liz.Base.Tags
import Liz.Model.Tooling

/-!
# Tool calls in the response of a provider

Each format marks some items of a response as tool calls, and each has its own way to name the
tool, to identify the call and to carry the arguments. An item is left out when its name is not
known or its arguments cannot be read.
-/

namespace Liz

/-- How a format writes tool calls down. -/
structure ToolCallFormat where
  /-- What carries the call, where the format marks an item as one. -/
  carrier : Json → Option Json
  /-- The identifier that the provider gave to the call. -/
  issuedId : Json → Option String
  /-- The identifier of a call at this place that has none. -/
  madeUpId : Nat → String
  providerToolName : Json → Option String
  canonicalName : ToolSurfaceSpec → String → Option String
  arguments : Json → Option Json

namespace ToolCallFormat

/-- The call that an item at this place becomes. -/
def call (format : ToolCallFormat) (surface : ToolSurfaceSpec) (index : Nat) (item : Json) :
    Option ProviderToolCall := do
  let carrier ← format.carrier item
  let providerToolName ← format.providerToolName carrier
  let toolName ← format.canonicalName surface providerToolName
  let arguments ← format.arguments carrier
  some
    { callId := (format.issuedId carrier).getD (format.madeUpId index)
      toolName := toolName
      providerToolName := providerToolName
      arguments := arguments }

def calls (format : ToolCallFormat) (surface : ToolSurfaceSpec) (items : List Json) :
    List ProviderToolCall :=
  items.zipIdx.filterMap fun (item, index) => format.call surface index item

end ToolCallFormat

/-- The item itself, if it is of this type. -/
def itemOfType (type : String) (item : Json) : Option Json :=
  if item.textAt "type" = some type then some item else none

def indexedCallId (index : Nat) : String := "call_" ++ Nat.repr (index + 1)

/-- Aliases only. -/
def aliasedToolName (surface : ToolSurfaceSpec) (providerToolName : String) : Option String :=
  surface.nameMap.canonicalName providerToolName

def argumentsOrEmpty (field : String) (carrier : Json) : Option Json :=
  some ((carrier.get? field).getD (.object []))

/-! ### OpenAI-style responses -/

section OpenAiStyle

variable [JsonText]

/-- Arguments stand in a text or as a value. -/
def parseToolCallArguments (value : Option Json) : Option Json := do
  let value ← value
  match value with
  | .string raw => Json.ofText? raw
  | value => some value

def openAiNativeFormat : ToolCallFormat where
  carrier := itemOfType "function_call"
  issuedId carrier := ((carrier.get? "call_id").orElse fun _ => carrier.get? "id").bind Json.asStr
  madeUpId _ := "call_auto"
  providerToolName carrier := carrier.textAt "name"
  canonicalName := normalizeToolName
  arguments carrier := parseToolCallArguments (carrier.get? "arguments")

def openAiNativeItems (response : Json) : List Json := response.itemsAt "output"

def parseOpenAiNativeToolCallsFromResponse (response : Json) (surface : ToolSurfaceSpec) :
    List ProviderToolCall :=
  openAiNativeFormat.calls surface (openAiNativeItems response)

/-- Every element of the list is a call. -/
def chatFormat : ToolCallFormat where
  carrier := some
  issuedId carrier := carrier.textAt "id"
  madeUpId _ := "call_auto"
  providerToolName carrier := (carrier.get? "function").bind (·.textAt "name")
  canonicalName := normalizeToolName
  arguments carrier := parseToolCallArguments ((carrier.get? "function").bind (·.get? "arguments"))

def chatChoiceItems (choice : Json) : List Json :=
  ((choice.get? "message").map (·.itemsAt "tool_calls")).getD []

/-- The tool calls of the first choice. -/
def chatItems (response : Json) : List Json :=
  ((response.itemsAt "choices").head?.map chatChoiceItems).getD []

def parseChatToolCallsFromResponse (response : Json) (surface : ToolSurfaceSpec) :
    List ProviderToolCall :=
  chatFormat.calls surface (chatItems response)

def anthropicMessageFormat : ToolCallFormat where
  carrier := itemOfType "tool_use"
  issuedId carrier := carrier.textAt "id"
  madeUpId _ := "call_auto"
  providerToolName carrier := carrier.textAt "name"
  canonicalName := normalizeToolName
  arguments := argumentsOrEmpty "input"

def anthropicItems (response : Json) : List Json := response.itemsAt "content"

def parseAnthropicToolCallsFromResponse (response : Json) (surface : ToolSurfaceSpec) :
    List ProviderToolCall :=
  anthropicMessageFormat.calls surface (anthropicItems response)

def openingTag : List Char := "<liz_tool_call>".toList

def closingTag : List Char := "</liz_tool_call>".toList

omit [JsonText] in
/-- What stands around a block is shorter than the text with it. -/
theorem length_lt_of_block {text before inside block rest : List Char}
    (hopening : Text.breakChars openingTag text = some (before, inside))
    (hclosing : Text.breakChars closingTag inside = some (block, rest)) :
    (before ++ rest).length < text.length := by
  have houter := Text.length_lt_of_breakChars (by decide) hopening
  have hinner := Text.length_lt_of_breakChars (by decide) hclosing
  rw [List.length_append]
  omega

omit [JsonText] in
theorem length_rest_lt_of_block {text before inside block rest : List Char}
    (hopening : Text.breakChars openingTag text = some (before, inside))
    (hclosing : Text.breakChars closingTag inside = some (block, rest)) :
    rest.length < text.length := by
  have hblock := length_lt_of_block hopening hclosing
  rw [List.length_append] at hblock
  omega

/-- What stands between the tags, pair after pair; an opening tag without a closing one ends them. -/
def structuredBlocks (text : List Char) : List (List Char) :=
  match hopening : Text.breakChars openingTag text with
  | none => []
  | some (before, inside) =>
      match hclosing : Text.breakChars closingTag inside with
      | none => []
      | some (block, rest) =>
          have : rest.length < text.length := length_rest_lt_of_block hopening hclosing
          block :: structuredBlocks rest
termination_by text.length

/-- The tags around a call. -/
def callTags : Text.Tags where
  mark := '<'
  openingTail := "liz_tool_call>".toList
  closingTail := "/liz_tool_call>".toList
  fresh_opening := by decide
  fresh_closing := by decide
  apart := by decide

omit [JsonText] in
theorem structuredBlocks_eq (text : List Char) : structuredBlocks text = callTags.blocks text := by
  fun_induction structuredBlocks text with
  | case1 text hopening => exact (@Text.Tags.blocks_of_none callTags _ hopening).symm
  | case2 text before inside hopening hclosing =>
      exact (@Text.Tags.blocks_of_open callTags _ _ _ hopening hclosing).symm
  | case3 text before inside hopening block rest hclosing _ ih =>
      rw [@Text.Tags.blocks_of_some callTags _ _ _ _ _ hopening hclosing, ih]

def structuredFormat : ToolCallFormat where
  carrier := some
  issuedId carrier := carrier.textAt "call_id"
  madeUpId _ := "call_structured"
  providerToolName carrier := carrier.textAt "tool_name"
  canonicalName := normalizeToolName
  arguments carrier := carrier.get? "arguments"

def parseStructuredFallbackToolCalls (responseText : String) (surface : ToolSurfaceSpec) :
    List ProviderToolCall :=
  structuredFormat.calls surface
    ((structuredBlocks responseText.toList).filterMap fun block =>
      Json.ofText? (Text.trim (String.ofList block)))

end OpenAiStyle

/-! ### Responses of the other families -/

/-- A block without a name has the empty one. -/
def anthropicFormat : ToolCallFormat where
  carrier := itemOfType "tool_use"
  issuedId carrier := carrier.textAt "id"
  madeUpId := indexedCallId
  providerToolName carrier := some ((carrier.textAt "name").getD "")
  canonicalName := aliasedToolName
  arguments := argumentsOrEmpty "input"

def parseAnthropicToolUses (response : Json) (surface : ToolSurfaceSpec) :
    List ProviderToolCall :=
  anthropicFormat.calls surface (anthropicItems response)

def bedrockFormat : ToolCallFormat where
  carrier item := item.get? "toolUse"
  issuedId carrier := carrier.textAt "toolUseId"
  madeUpId := indexedCallId
  providerToolName carrier := some ((carrier.textAt "name").getD "")
  canonicalName := aliasedToolName
  arguments := argumentsOrEmpty "input"

def bedrockItems (response : Json) : List Json :=
  ((response.get? "output").bind (·.get? "message")).elim [] (·.itemsAt "content")

def parseBedrockToolUses (response : Json) (surface : ToolSurfaceSpec) : List ProviderToolCall :=
  bedrockFormat.calls surface (bedrockItems response)

/-- No call has an identifier of its own. -/
def googleFormat : ToolCallFormat where
  carrier item := item.get? "functionCall"
  issuedId _ := none
  madeUpId := indexedCallId
  providerToolName carrier := carrier.textAt "name"
  canonicalName := aliasedToolName
  arguments := argumentsOrEmpty "args"

def googleCandidateItems (candidate : Json) : List Json :=
  (candidate.get? "content").elim [] (·.itemsAt "parts")

/-- The parts of the first candidate. -/
def googleItems (response : Json) : List Json :=
  (response.itemsAt "candidates").head?.elim [] googleCandidateItems

def parseGoogleToolCalls (response : Json) (surface : ToolSurfaceSpec) : List ProviderToolCall :=
  googleFormat.calls surface (googleItems response)

def googleAnthropicFormat : ToolCallFormat where
  carrier := itemOfType "tool_use"
  issuedId carrier := carrier.textAt "id"
  madeUpId := indexedCallId
  providerToolName carrier := carrier.textAt "name"
  canonicalName := aliasedToolName
  arguments := argumentsOrEmpty "input"

def parseGoogleAnthropicToolCalls (response : Json) (surface : ToolSurfaceSpec) :
    List ProviderToolCall :=
  googleAnthropicFormat.calls surface (anthropicItems response)

end Liz
