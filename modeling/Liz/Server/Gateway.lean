import Liz.Protocol.Tools

/-!
# The model gateway

What the server hands to a provider adapter and what it gets back: a request made of prompt parts
and the results of earlier tool calls, the events the adapter passes on while it runs, and the
summary or the error it ends with. What an adapter answers is not computed here; every answer is
possible.
-/

namespace Liz

inductive ToolSurfaceMode
  | standard | conversationOnly
  deriving DecidableEq, Repr

/-- A tool call committed by the model. -/
structure ProviderToolCall where
  callId : String
  toolName : String
  providerToolName : String
  arguments : Json

/-- One tool result injected back into the next request. -/
structure ToolResultInjection where
  callId : String
  toolName : String
  providerToolName : String
  result : Json
  isError : Bool
  summary : String

structure ModelTurnRequest where
  thread : Thread
  turn : Turn
  systemPrompt : String
  developerPrompt : String
  userPrompt : String
  prompt : String
  toolResultInjections : List ToolResultInjection
  toolSurfaceMode : ToolSurfaceMode

def renderInstructionPrompt (systemPrompt developerPrompt : String) : String :=
  let systemPrompt := Text.trim systemPrompt
  let developerPrompt := Text.trim developerPrompt
  match systemPrompt.isEmpty, developerPrompt.isEmpty with
  | true, true => ""
  | false, true => systemPrompt
  | true, false => developerPrompt
  | false, false => systemPrompt ++ "\n\n" ++ developerPrompt

def renderFlattenedPrompt (systemPrompt developerPrompt userPrompt : String) : String :=
  let instructionPrompt := renderInstructionPrompt systemPrompt developerPrompt
  let userPrompt := Text.trim userPrompt
  match instructionPrompt.isEmpty, userPrompt.isEmpty with
  | true, true => ""
  | false, true => "system:\n" ++ instructionPrompt
  | true, false => "user:\n" ++ userPrompt
  | false, false => "system:\n" ++ instructionPrompt ++ "\n\nuser:\n" ++ userPrompt

namespace ModelTurnRequest

/-- Builds a request from prompt parts and keeps a flattened transcript. -/
def fromPromptParts (thread : Thread) (turn : Turn)
    (systemPrompt developerPrompt userPrompt : String) : ModelTurnRequest :=
  { thread := thread
    turn := turn
    systemPrompt := systemPrompt
    developerPrompt := developerPrompt
    userPrompt := userPrompt
    prompt := renderFlattenedPrompt systemPrompt developerPrompt userPrompt
    toolResultInjections := []
    toolSurfaceMode := .standard }

def withToolResultInjections (injections : List ToolResultInjection) (request : ModelTurnRequest) :
    ModelTurnRequest :=
  { request with toolResultInjections := injections }

def withToolSurfaceMode (mode : ToolSurfaceMode) (request : ModelTurnRequest) : ModelTurnRequest :=
  { request with toolSurfaceMode := mode }

end ModelTurnRequest

/-- What an adapter passes on while a turn is running. -/
inductive NormalizedTurnEvent
  | assistantDelta (chunk : String)
  | assistantMessage (message : String)
  | toolCallStarted (callId toolName summary : String)
  | toolCallDelta (callId toolName deltaSummary : String) (preview : Option String)
  | toolCallCommitted (callId toolName arguments : String)
  | usageDelta
  | providerRawEvent (label : String)
  deriving DecidableEq, Repr

structure ModelRunSummary where
  assistantMessage : Option String
  toolCalls : List ProviderToolCall

inductive ModelError
  | unsupportedProvider (provider : String)
  | providerFailure (message : String)
  deriving DecidableEq, Repr

def ModelError.display : ModelError → String
  | unsupportedProvider provider => "provider " ++ provider ++ " is not configured"
  | providerFailure message => message

/-- One call of the gateway: the events it passes on, and how it ends. -/
structure GatewayAnswer where
  events : List NormalizedTurnEvent
  outcome : Except ModelError ModelRunSummary

def toolCallFingerprint (toolCalls : List ProviderToolCall) : String :=
  Text.join (toolCalls.map fun call => call.toolName ++ ":" ++ call.arguments.render) "|"

end Liz
