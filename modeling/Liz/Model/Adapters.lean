import Liz.Model.ToolCalls

/-!
# The provider adapters

One call of a provider, live or simulated. A live adapter reads the response of the provider. A
simulated one makes up an answer from the prompt, with a tool call in the first round when the
prompt sounds like one; the adapter for OpenAI-style providers does so only where tools are offered.
-/

namespace Liz

/-- The tool calls that an answer ends with. -/
def GatewayAnswer.toolCalls (answer : GatewayAnswer) : List ProviderToolCall :=
  match answer.outcome with
  | .ok summary => summary.toolCalls
  | .error _ => []

/-! ### Simulated answers -/

def needsToolCall (prompt : String) : Bool :=
  let lower := Text.toAsciiLowercase prompt
  Text.contains lower "tool" || Text.contains lower "patch" || Text.contains lower "command" ||
    Text.contains lower "run "

def inferToolName (prompt : String) : String :=
  let lower := Text.toAsciiLowercase prompt
  if Text.contains lower "patch" || Text.contains lower "write" then "workspace.apply_patch"
  else if Text.contains lower "command" || Text.contains lower "run " then "shell.exec"
  else "workspace.read"

/-- The rest of the line after `run command:`. -/
def extractShellCommand (prompt : String) : Option String :=
  (Text.breakOn (Text.toAsciiLowercase prompt) "run command:").map fun (before, _) =>
    let rest := String.ofList (prompt.toList.drop (before.length + "run command:".length))
    Text.trim ((Text.lines rest).head?.getD "")

/-- The fields in the order of their names. -/
def synthesizeToolArguments (prompt : String) (threadId : ThreadId) (providerId : String) : Json :=
  if inferToolName prompt = "shell.exec" then
    .object [("command", .string ((extractShellCommand prompt).getD prompt)),
      ("provider", .string providerId), ("thread_id", .string threadId), ("working_dir", .null)]
  else
    .object [("goal", .string prompt), ("provider", .string providerId),
      ("thread_id", .string threadId)]

def truncatePreview (prompt : String) : String :=
  String.ofList (prompt.toList.take 24) ++ if prompt.length > 24 then "..." else ""

def providerSupportsPatching (family : ModelProviderFamily) : Bool := family == .openAiResponses

/-- The call that a simulated provider makes. -/
def simulatedToolCall (surface : ToolSurfaceSpec) (userPrompt : String) (arguments : Json) :
    ProviderToolCall :=
  let toolName := inferToolName userPrompt
  { callId := "call_01"
    toolName := toolName
    providerToolName := (surface.nameMap.providerName toolName).getD toolName
    arguments := arguments }

/-- The first round, at a prompt that sounds like a tool call. -/
def simulatesToolCall (request : ModelTurnRequest) : Bool :=
  request.toolResultInjections.isEmpty && needsToolCall request.userPrompt

/-- A simulated answer: two chunks, what the tool call adds, and a message when there is none. -/
def simulatedAnswer (provider : ResolvedProvider) (request : ModelTurnRequest)
    (chunks : List String) (toolCall : Option ProviderToolCall)
    (patch : List NormalizedTurnEvent) (label : String) : GatewayAnswer :=
  let message := provider.displayName ++ " request prepared for " ++ provider.modelId ++ " using " ++
    label ++ "."
  { events :=
      chunks.map .assistantDelta ++
      (match toolCall with
        | none => []
        | some call =>
            [.toolCallStarted call.callId call.toolName
              (provider.displayName ++ " is preparing a tool call")] ++
            patch ++ [.toolCallCommitted call.callId call.toolName call.arguments.render]) ++
      [.providerRawEvent ("request-plan " ++ provider.payloadPreview
          (renderInstructionPrompt request.systemPrompt request.developerPrompt)
          request.userPrompt request.prompt), .usageDelta] ++
      if toolCall.isSome then [] else [.assistantMessage message]
    outcome := .ok
      { assistantMessage := if toolCall.isSome then none else some message
        toolCalls := toolCall.toList } }

/-- The call of the three adapters that do not look at the tools they are given. -/
def promptAsPath (surface : ToolSurfaceSpec) (request : ModelTurnRequest) :
    Option ProviderToolCall :=
  if simulatesToolCall request then
    some (simulatedToolCall surface request.userPrompt
      (.object [("path", .string request.userPrompt)]))
  else none

namespace AnthropicAdapter

def simulate (provider : ResolvedProvider) (request : ModelTurnRequest)
    (surface : ToolSurfaceSpec) : GatewayAnswer :=
  simulatedAnswer provider request
    ["Using " ++ provider.displayName ++ " messages API. ",
      "Model " ++ provider.modelId ++ " is ready."]
    (promptAsPath surface request) [] "anthropic-messages"

end AnthropicAdapter

namespace AwsBedrockAdapter

def simulate (provider : ResolvedProvider) (request : ModelTurnRequest)
    (surface : ToolSurfaceSpec) : GatewayAnswer :=
  simulatedAnswer provider request
    ["Using " ++ provider.displayName ++ ". ",
      "Resolved Bedrock model " ++ provider.modelId ++ " in " ++ provider.location ++ "."]
    (promptAsPath surface request) [] "aws-bedrock-converse"

end AwsBedrockAdapter

namespace GoogleAdapter

def simulate (provider : ResolvedProvider) (request : ModelTurnRequest)
    (surface : ToolSurfaceSpec) : GatewayAnswer :=
  simulatedAnswer provider request
    ["Using " ++ provider.displayName ++ ". ",
      "Routing model " ++ provider.modelId ++ " in " ++ provider.location ++ "."]
    (promptAsPath surface request) [] provider.family.transportLabel

end GoogleAdapter

namespace OpenAiStyleAdapter

def simulate (provider : ResolvedProvider) (request : ModelTurnRequest)
    (surface : ToolSurfaceSpec) : GatewayAnswer :=
  let toolCall :=
    if !surface.tools.isEmpty && simulatesToolCall request then
      some (simulatedToolCall surface request.userPrompt
        (synthesizeToolArguments request.userPrompt request.thread.id provider.id))
    else none
  let patch :=
    if providerSupportsPatching provider.family then
      [.toolCallDelta "call_01" (inferToolName request.userPrompt) "arguments patched"
        (some ("\x7b\"goal\":\"" ++ truncatePreview request.userPrompt ++ "\",\"provider\":\"" ++
          provider.id ++ "\""))]
    else []
  simulatedAnswer provider request
    ["Using " ++ provider.displayName ++ " via ",
      provider.transport ++ " for " ++ provider.modelId ++ "."]
    toolCall patch provider.family.transportLabel

end OpenAiStyleAdapter

/-! ### Live answers -/

def toolCallEvents (displayName : String) (toolCalls : List ProviderToolCall) :
    List NormalizedTurnEvent :=
  toolCalls.flatMap fun call =>
    [.toolCallStarted call.callId call.toolName (displayName ++ " requested " ++ call.toolName),
     .toolCallCommitted call.callId call.toolName call.arguments.render]

/-- What an adapter makes of the calls and the message it has found. -/
def liveAnswer (displayName : String) (toolCalls : List ProviderToolCall)
    (assistantMessage : String) : GatewayAnswer :=
  { events := toolCallEvents displayName toolCalls ++
      if toolCalls.isEmpty then
        [.assistantDelta ("Live response from " ++ displayName ++ "."),
         .assistantMessage assistantMessage]
      else []
    outcome := .ok
      { assistantMessage := if toolCalls.isEmpty then some assistantMessage else none
        toolCalls := toolCalls } }

def responseReceived (displayName : String) : String := displayName ++ " response received."

def joinedParts (displayName : String) (parts : List String) : String :=
  if parts.isEmpty then responseReceived displayName else Text.join parts "\n"

namespace AnthropicAdapter

/-- A block without a type counts as text. -/
def textOf (item : Json) : Option String :=
  match item.textAt "type" with
  | some "text" | none => item.textAt "text"
  | _ => none

def live (provider : ResolvedProvider) (surface : ToolSurfaceSpec) (response : Json) :
    GatewayAnswer :=
  liveAnswer provider.displayName (parseAnthropicToolUses response surface)
    (joinedParts provider.displayName ((anthropicItems response).filterMap textOf))

end AnthropicAdapter

namespace AwsBedrockAdapter

def live (provider : ResolvedProvider) (surface : ToolSurfaceSpec) (response : Json) :
    GatewayAnswer :=
  liveAnswer provider.displayName (parseBedrockToolUses response surface)
    (joinedParts provider.displayName ((bedrockItems response).filterMap (·.textAt "text")))

end AwsBedrockAdapter

namespace GoogleAdapter

def extractGoogleText (provider : ResolvedProvider) (response : Json) : String :=
  let items :=
    if provider.family = .googleVertexAnthropic then anthropicItems response
    else googleItems response
  (items.head?.bind (·.textAt "text")).getD (responseReceived provider.displayName)

def parseToolCalls (provider : ResolvedProvider) (surface : ToolSurfaceSpec) (response : Json) :
    List ProviderToolCall :=
  let toolCalls := parseGoogleToolCalls response surface
  if toolCalls.isEmpty ∧ provider.family = .googleVertexAnthropic then
    parseGoogleAnthropicToolCalls response surface
  else toolCalls

def live (provider : ResolvedProvider) (surface : ToolSurfaceSpec) (response : Json) :
    GatewayAnswer :=
  liveAnswer provider.displayName (parseToolCalls provider surface response)
    (extractGoogleText provider response)

end GoogleAdapter

namespace OpenAiStyleAdapter

def copilotUsesAnthropicMessagesModel (modelId : String) : Bool :=
  Text.contains (Text.toAsciiLowercase modelId) "claude"

/-- The first text of a response, wherever the format keeps it. -/
def extractOpenAiStyleText (response : Json) : Option String :=
  ((response.itemsAt "output").findSome? fun item =>
    (item.itemsAt "content").findSome? (·.textAt "text")).orElse fun _ =>
  ((response.itemsAt "content").head?.bind (·.textAt "text")).orElse fun _ =>
  ((response.itemsAt "choices").head?.bind fun choice =>
    (choice.get? "message").bind (·.textAt "content")).orElse fun _ =>
  response.asStr

/-- The text without its blocks; what a removed block brings together is looked at again. -/
def withoutBlocks (text : List Char) : List Char :=
  match hopening : Text.breakChars openingTag text with
  | none => text
  | some (before, inside) =>
      match hclosing : Text.breakChars closingTag inside with
      | none => text
      | some (block, rest) =>
          have : (before ++ rest).length < text.length := length_lt_of_block hopening hclosing
          withoutBlocks (before ++ rest)
termination_by text.length
decreasing_by exact this

theorem withoutBlocks_eq (text : List Char) :
    withoutBlocks text = callTags.without text := by
  fun_induction withoutBlocks text with
  | case1 text hopening => exact (@Text.Tags.without_of_none callTags _ hopening).symm
  | case2 text before inside hopening hclosing =>
      exact (@Text.Tags.without_of_open callTags _ _ _ hopening hclosing).symm
  | case3 text before inside hopening block rest hclosing _ ih =>
      rw [@Text.Tags.without_of_some callTags _ _ _ _ _ hopening hclosing, ih]

def cleanStructuredFallbackText (value : String) : String :=
  Text.trim (String.ofList (withoutBlocks value.toList))

section

variable [JsonText]

def parseProviderToolCalls (provider : ResolvedProvider) (surface : ToolSurfaceSpec)
    (response : Json) (responseText : String) : List ProviderToolCall :=
  if surface.protocol = .structuredFallback then
    parseStructuredFallbackToolCalls responseText surface
  else
    let calls := parseOpenAiNativeToolCallsFromResponse response surface
    let calls := if calls.isEmpty then parseChatToolCallsFromResponse response surface else calls
    if calls.isEmpty && copilotUsesAnthropicMessagesModel provider.modelId then
      parseAnthropicToolCallsFromResponse response surface
    else calls

def live (provider : ResolvedProvider) (surface : ToolSurfaceSpec) (response : Json) :
    GatewayAnswer :=
  let responseText := (extractOpenAiStyleText response).getD ""
  let toolCalls := parseProviderToolCalls provider surface response responseText
  let assistantMessage := cleanStructuredFallbackText responseText
  let blank := Text.isBlank assistantMessage
  { events := toolCallEvents provider.displayName toolCalls ++
      if !blank && toolCalls.isEmpty then
        [.assistantDelta ("Live response from " ++ provider.displayName ++ "."),
         .assistantMessage assistantMessage]
      else []
    outcome := .ok
      { assistantMessage :=
          if toolCalls.isEmpty then
            some (if blank then
              provider.displayName ++ " response received for " ++ provider.modelId ++ "."
            else assistantMessage)
          else none
        toolCalls := toolCalls } }

end

end OpenAiStyleAdapter

/-! ### The gateway -/

/-- The gateway with the provider it has resolved. -/
structure ModelGateway where
  simulate : Bool
  provider : Except ModelError ResolvedProvider

/-- The adapters, by the families that they serve. -/
inductive ProviderAdapter
  | anthropic | bedrock | google | openAiStyle
  deriving DecidableEq, Repr

def ModelProviderFamily.adapter : ModelProviderFamily → ProviderAdapter
  | anthropicMessages => .anthropic
  | awsBedrockConverse => .bedrock
  | googleGenerativeAi | googleVertex | googleVertexAnthropic => .google
  | openAiResponses | openAiCompatible | gitHubCopilot | gitLabDuo => .openAiStyle

section

variable [JsonText]

def simulatedTurn (provider : ResolvedProvider) (request : ModelTurnRequest)
    (surface : ToolSurfaceSpec) : GatewayAnswer :=
  match provider.family.adapter with
  | .anthropic => AnthropicAdapter.simulate provider request surface
  | .bedrock => AwsBedrockAdapter.simulate provider request surface
  | .google => GoogleAdapter.simulate provider request surface
  | .openAiStyle => OpenAiStyleAdapter.simulate provider request surface

def liveTurn (provider : ResolvedProvider) (surface : ToolSurfaceSpec) (response : Json) :
    GatewayAnswer :=
  match provider.family.adapter with
  | .anthropic => AnthropicAdapter.live provider surface response
  | .bedrock => AwsBedrockAdapter.live provider surface response
  | .google => GoogleAdapter.live provider surface response
  | .openAiStyle => OpenAiStyleAdapter.live provider surface response

/-- One call of the gateway, with what the provider sends: its response, or why there is none. -/
def ModelGateway.runTurn (gateway : ModelGateway) (request : ModelTurnRequest)
    (reply : Except ModelError Json) : GatewayAnswer :=
  match gateway.provider with
  | .error error => { events := [], outcome := .error error }
  | .ok provider =>
      let surface := ToolSurfaceSpec.forMode (providerToolProtocol provider) request.toolSurfaceMode
      if gateway.simulate then simulatedTurn provider request surface
      else
        match reply with
        | .error error => { events := [], outcome := .error error }
        | .ok response => liveTurn provider surface response

/-- Any result of a tool call: an adapter only asks whether there are some. -/
def someResult : ToolResultInjection :=
  { callId := "", toolName := "", providerToolName := "", result := .null, isError := false
    summary := "" }

/-- The answers of the gateway in the rounds of a turn. The first request carries no results. -/
def ModelGateway.answers (gateway : ModelGateway) (baseRequest : ModelTurnRequest) :
    List (Except ModelError Json) → List GatewayAnswer
  | [] => []
  | reply :: replies =>
      gateway.runTurn (baseRequest.withToolResultInjections []) reply ::
        replies.map (gateway.runTurn (baseRequest.withToolResultInjections [someResult]))

/-- The answers differ only in the first round. -/
theorem ModelGateway.runTurn_of_results (gateway : ModelGateway) (baseRequest : ModelTurnRequest)
    {results : List ToolResultInjection} (hne : results ≠ []) (reply : Except ModelError Json) :
    gateway.runTurn (baseRequest.withToolResultInjections results) reply =
      gateway.runTurn (baseRequest.withToolResultInjections [someResult]) reply := by
  obtain ⟨result, rest, rfl⟩ := List.exists_cons_of_ne_nil hne
  rfl

/-- What a live provider answers with a response does not depend on the results it is sent. -/
theorem ModelGateway.runTurn_live {provider : ResolvedProvider} {baseRequest : ModelTurnRequest}
    {surface : ToolSurfaceSpec} (hsurface : surface =
      .forMode (providerToolProtocol provider) baseRequest.toolSurfaceMode)
    (results : List ToolResultInjection) (response : Json) :
    ModelGateway.runTurn { simulate := false, provider := .ok provider }
        (baseRequest.withToolResultInjections results) (.ok response) =
      liveTurn provider surface response := by
  rw [hsurface]
  rfl

end

end Liz
