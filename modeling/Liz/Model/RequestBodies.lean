import Liz.Model.Adapters
import Mathlib.Algebra.Group.Nat.Defs

/-!
# The requests of the adapters

What an adapter sends to its provider: the instructions, the prompt of the user and the results of
the tool calls so far, each family in its own format. Of a body the fields that carry these are kept;
the model, the output budget, the tools and the marks for the cache are left out.
-/

namespace Liz

/-- The results that a request carries stand under the alias of their tool. -/
def ToolResultInjection.aliasIn (surface : ToolSurfaceSpec) (injection : ToolResultInjection) :
    String :=
  (surface.nameMap.providerName injection.toolName).getD injection.providerToolName

def ModelTurnRequest.instructionPrompt (request : ModelTurnRequest) : String :=
  renderInstructionPrompt request.systemPrompt request.developerPrompt

/-- A prompt, and behind it a block for each result. -/
def promptWithResults (prompt : String) (rendered : ToolResultInjection → Json)
    (injections : List ToolResultInjection) : String :=
  injections.foldl (fun prompt injection =>
    prompt ++ "\n<liz_tool_result>" ++ (rendered injection).render ++ "</liz_tool_result>") prompt

/-- One message of the user. -/
def userMessage (content : Json) : Json := .object [("content", content), ("role", .string "user")]

namespace AnthropicAdapter

/-- A block of text, marked for the cache or not. -/
def textBlock (text : String) (cacheEphemeral : Bool) : Json :=
  let cached := if cacheEphemeral then
    [("cache_control", Json.object [("type", .string "ephemeral")])] else []
  .object (cached ++ [("text", .string text), ("type", .string "text")])

/-- Blank instructions are left out. -/
def anthropicSystemBlocks (systemPrompt : String) (cacheEphemeral : Bool) : Json :=
  .array (if Text.isBlank systemPrompt then [] else [textBlock systemPrompt cacheEphemeral])

def anthropicUserContent (userPrompt : String) (cacheEphemeral : Bool) : List Json :=
  [textBlock userPrompt cacheEphemeral]

def toolResultBlock (injection : ToolResultInjection) : Json :=
  .object
    [("content", .string injection.result.render), ("is_error", .bool injection.isError),
      ("tool_use_id", .string injection.callId), ("type", .string "tool_result")]

/-- All results stand in the one message of the user. -/
def requestBody (cacheEphemeral : Bool) (request : ModelTurnRequest) : Json :=
  .object
    [("messages", .array
      [userMessage (.array (anthropicUserContent request.userPrompt cacheEphemeral ++
        request.toolResultInjections.map toolResultBlock))]),
      ("system", anthropicSystemBlocks request.instructionPrompt cacheEphemeral)]

end AnthropicAdapter

namespace AwsBedrockAdapter

def toolResultMessage (surface : ToolSurfaceSpec) (injection : ToolResultInjection) : Json :=
  userMessage (.array [.object [("toolResult", .object
    [("content", .array [.object [("json", injection.result)]]),
      ("name", .string (injection.aliasIn surface)),
      ("status", .string (if injection.isError then "error" else "success")),
      ("toolUseId", .string injection.callId)])]])

def requestBody (surface : ToolSurfaceSpec) (request : ModelTurnRequest) : Json :=
  .object
    [("messages", .array (userMessage (.array [.object [("text", .string request.userPrompt)]]) ::
        request.toolResultInjections.map (toolResultMessage surface))),
      ("system", .array [.object [("text", .string request.instructionPrompt)]])]

end AwsBedrockAdapter

namespace GoogleAdapter

/-- One entry of the contents, from the user. -/
def userContents (part : Json) : Json :=
  .object [("parts", .array [part]), ("role", .string "user")]

def functionResponse (surface : ToolSurfaceSpec) (injection : ToolResultInjection) : Json :=
  .object [("functionResponse", .object
    [("name", .string (injection.aliasIn surface)), ("response", injection.result)])]

def googleContentsWithToolResults (surface : ToolSurfaceSpec) (request : ModelTurnRequest) : Json :=
  .array (userContents (.object [("text", .string request.userPrompt)]) ::
    request.toolResultInjections.map fun injection => userContents (functionResponse surface injection))

def renderedResult (surface : ToolSurfaceSpec) (injection : ToolResultInjection) : Json :=
  .object
    [("call_id", .string injection.callId), ("is_error", .bool injection.isError),
      ("result", injection.result), ("tool_name", .string (injection.aliasIn surface))]

def anthropicLikeUserPromptWithResults (surface : ToolSurfaceSpec) (request : ModelTurnRequest) :
    String :=
  promptWithResults request.userPrompt (renderedResult surface) request.toolResultInjections

def requestBody (provider : ResolvedProvider) (surface : ToolSurfaceSpec)
    (request : ModelTurnRequest) : Json :=
  if provider.family = .googleVertexAnthropic then
    .object
      [("messages", .array
        [userMessage (.string (anthropicLikeUserPromptWithResults surface request))]),
        ("system", .string request.instructionPrompt)]
  else
    .object
      [("contents", googleContentsWithToolResults surface request),
        ("system_instruction",
          .object [("parts", .array [.object [("text", .string request.instructionPrompt)]])])]

end GoogleAdapter

/-- The aliases in the order of the canonical names. -/
def ToolSurfaceSpec.structuredFallbackInstructions (surface : ToolSurfaceSpec) : String :=
  if surface.tools.isEmpty then
    "No runtime tools are available for this turn. Answer directly in prose and do not emit " ++
      "<liz_tool_call> blocks."
  else
    Text.join
      (["When you need runtime tools, emit exactly one <liz_tool_call> JSON object.",
        "Do not narrate the tool call in prose.",
        "Schema: \x7b\"tool_name\":\"<provider_tool_name>\",\"arguments\":\x7b...\x7d\x7d",
        "Allowed provider tool names:"] ++
      (surface.nameMap.pairs.mergeSort fun a b => decide (a.1 ≤ b.1)).map
        (fun (canonical, aliased) => "- " ++ aliased ++ " (maps to " ++ canonical ++ ")") ++
      ["Wait for a <liz_tool_result> block before deciding next step or claiming completion."])
      "\n"

namespace OpenAiStyleAdapter

/-- A model whose name says GPT-5 or later, the small one of them apart. -/
def shouldUseCopilotResponsesApi (modelId : String) : Bool :=
  if "gpt-".toList.isPrefixOf modelId.toList then
    let digits := (modelId.toList.drop 4).takeWhile Char.isDigit
    let version : Nat := digits.foldl (fun version digit => 10 * version + (digit.toNat - 48)) 0
    decide (5 ≤ version ∧ version < 2 ^ 32) && !"gpt-5-mini".toList.isPrefixOf modelId.toList
  else false

def functionCallOutput (surface : ToolSurfaceSpec) (injection : ToolResultInjection) : Json :=
  .object
    [("call_id", .string injection.callId), ("is_error", .bool injection.isError),
      ("name", .string (injection.aliasIn surface)), ("output", .string injection.result.render),
      ("type", .string "function_call_output")]

def openAiResponsesInputPayload (surface : ToolSurfaceSpec) (request : ModelTurnRequest) : Json :=
  if request.toolResultInjections.isEmpty then .string request.userPrompt
  else
    .array (.object
      [("content", .array
          [.object [("text", .string request.userPrompt), ("type", .string "input_text")]]),
        ("role", .string "user"), ("type", .string "message")] ::
      request.toolResultInjections.map (functionCallOutput surface))

def toolMessage (surface : ToolSurfaceSpec) (injection : ToolResultInjection) : Json :=
  .object
    [("content", .string injection.result.render), ("name", .string (injection.aliasIn surface)),
      ("role", .string "tool"), ("tool_call_id", .string injection.callId)]

def openAiChatMessagesPayload (instructionPrompt : String) (surface : ToolSurfaceSpec)
    (request : ModelTurnRequest) : Json :=
  .array
    ([.object [("content", .string instructionPrompt), ("role", .string "system")],
      userMessage (.string request.userPrompt)] ++
    request.toolResultInjections.map (toolMessage surface))

def renderedResult (surface : ToolSurfaceSpec) (injection : ToolResultInjection) : Json :=
  .object
    [("call_id", .string injection.callId), ("is_error", .bool injection.isError),
      ("result", injection.result), ("summary", .string injection.summary),
      ("tool_name", .string (injection.aliasIn surface))]

def anthropicLikeUserPromptWithResults (surface : ToolSurfaceSpec) (request : ModelTurnRequest) :
    String :=
  promptWithResults request.userPrompt (renderedResult surface) request.toolResultInjections

/-- With native tools the results are left out. -/
def gitlabStructuredPrompt (surface : ToolSurfaceSpec) (request : ModelTurnRequest) : String :=
  if surface.protocol = .native then request.prompt
  else
    promptWithResults
      (request.prompt ++ "\n\nstructured_tool_protocol:\n" ++ surface.structuredFallbackInstructions)
      (renderedResult surface) request.toolResultInjections

/-- The instructions, with what the fallback protocol adds. -/
def liveInstructionPrompt (surface : ToolSurfaceSpec) (request : ModelTurnRequest) : String :=
  if surface.protocol = .structuredFallback then
    request.instructionPrompt ++ "\n\nstructured_tool_protocol:\n" ++
      surface.structuredFallbackInstructions
  else request.instructionPrompt

def responsesBody (surface : ToolSurfaceSpec) (request : ModelTurnRequest) : Json :=
  .object
    [("input", openAiResponsesInputPayload surface request),
      ("instructions", .string (liveInstructionPrompt surface request))]

def chatBody (surface : ToolSurfaceSpec) (request : ModelTurnRequest) : Json :=
  .object
    [("messages",
      openAiChatMessagesPayload (liveInstructionPrompt surface request) surface request)]

def requestBody (provider : ResolvedProvider) (surface : ToolSurfaceSpec)
    (request : ModelTurnRequest) : Json :=
  match provider.family with
  | .openAiResponses => responsesBody surface request
  | .gitHubCopilot =>
      if copilotUsesAnthropicMessagesModel provider.modelId then
        .object
          [("messages", .array
            [userMessage (.string (anthropicLikeUserPromptWithResults surface request))]),
            ("system", .string (liveInstructionPrompt surface request))]
      else if shouldUseCopilotResponsesApi provider.modelId then responsesBody surface request
      else chatBody surface request
  | .gitLabDuo => .object [("content", .string (gitlabStructuredPrompt surface request))]
  | _ => chatBody surface request

end OpenAiStyleAdapter

/-- What the adapter of the provider sends for a request. -/
def requestBody (provider : ResolvedProvider) (cacheEphemeral : Bool) (surface : ToolSurfaceSpec)
    (request : ModelTurnRequest) : Json :=
  match provider.family.adapter with
  | .anthropic => AnthropicAdapter.requestBody cacheEphemeral request
  | .bedrock => AwsBedrockAdapter.requestBody surface request
  | .google => GoogleAdapter.requestBody provider surface request
  | .openAiStyle => OpenAiStyleAdapter.requestBody provider surface request

end Liz
