import Liz.Model.Adapters
import Liz.Server.TurnLoop

/-!
# A turn at the gateway

The rounds of a turn with the gateway called in each of them: the request is made up of the prompts
and the results so far, and what the provider sends decides the answer.
-/

namespace Liz

variable [World] [JsonText]

/-- The calls of the gateway from a given collection of tool results on, with what the provider
sends in each of them. -/
def gatewayRounds (gateway : ModelGateway) (baseRequest : ModelTurnRequest)
    (outputContext : Option InteractionContext) :
    List (Except ModelError Json) → List ToolResultInjection → String → Nat →
      ServerM (Except ModelError (Option String))
  | [], continuationResults, _, _ => do
      observe (.modelCalled (baseRequest.withToolResultInjections continuationResults) outputContext)
      throw .gateway
  | reply :: replies, continuationResults, lastToolFingerprint, repeatedToolRounds => do
      let threadId := baseRequest.thread.id
      let turnId := baseRequest.turn.id
      let request := baseRequest.withToolResultInjections continuationResults
      let answer := gateway.runTurn request reply
      observe (.modelCalled request outputContext)
      handleModelEvents threadId turnId outputContext answer.events
      match answer.outcome with
      | .error error => pure (.error error)
      | .ok summary =>
          if summary.toolCalls.isEmpty then pure (.ok summary.assistantMessage)
          else do
            let fingerprint := toolCallFingerprint summary.toolCalls
            let repeatedToolRounds := if fingerprint = lastToolFingerprint
              then min (repeatedToolRounds + 1) (2 ^ 32 - 1) else 0
            let roundResults ← executeModelToolCalls threadId turnId summary.toolCalls
            let diagnostics ← loopDiagnostics repeatedToolRounds
            gatewayRounds gateway baseRequest outputContext replies
              (continuationResults ++ roundResults ++ diagnostics) fingerprint repeatedToolRounds

/-- Runs a turn at the gateway until it ends. -/
def streamGatewayTurn (gateway : ModelGateway) (thread : Thread) (turn : Turn)
    (systemPrompt developerPrompt userPrompt : String)
    (outputContext : Option InteractionContext) (replies : List (Except ModelError Json)) :
    ServerM Unit := do
  let ending ← gatewayRounds gateway
    (baseRequestFor thread turn systemPrompt developerPrompt userPrompt) outputContext replies [] "" 0
  finishModelTurn thread.id turn.id outputContext ending

end Liz
