import Liz.Proof.Lifecycle
import Liz.Server.GatewayTurn

/-!
# Turns at the gateway

The answers of the gateway depend on the round only through whether there are results yet, so they
can be told before the turn begins, and the rounds are those of the model loop with these answers.
Each call of a round has one result, under its own identifier.
-/

namespace Liz

open Program

/-- What a call is answered under: its identifier and the name that the provider used. -/
def ProviderToolCall.key (call : ProviderToolCall) : String × String :=
  (call.callId, call.providerToolName)

def ToolResultInjection.key (result : ToolResultInjection) : String × String :=
  (result.callId, result.providerToolName)

/-- The result carries the identifier and the names of the call. -/
structure ToolResultInjection.AnswersTo (toolCall : ProviderToolCall) (result : ToolResultInjection) :
    Prop where
  callId : result.callId = toolCall.callId
  toolName : result.toolName = toolCall.toolName
  providerToolName : result.providerToolName = toolCall.providerToolName

theorem ToolResultInjection.AnswersTo.key_eq {toolCall : ProviderToolCall}
    {result : ToolResultInjection} (h : result.AnswersTo toolCall) : result.key = toolCall.key :=
  Prod.ext h.callId h.providerToolName

theorem ToolResultInjection.keys_of_answers {toolCalls : List ProviderToolCall}
    {results : List ToolResultInjection}
    (h : List.Forall₂ (fun toolCall result => result.AnswersTo toolCall) toolCalls results) :
    results.map ToolResultInjection.key = toolCalls.map ProviderToolCall.key := by
  induction h with
  | nil => rfl
  | cons hresult _ ih => rw [List.map_cons, List.map_cons, hresult.key_eq, ih]

variable [World]

omit [World] in
theorem toolCallFailed_answers (threadId : ThreadId) (turnId : TurnId) (toolCall : ProviderToolCall)
    (toolName message : String) (nodeId : NodeId) (workspaceMountId : Option WorkspaceMountId)
    (summary : String) :
    Gives (·.AnswersTo toolCall)
      (toolCallFailed threadId turnId toolCall toolName message nodeId workspaceMountId summary) :=
  fun _ => ⟨rfl, rfl, rfl⟩

/-- A call has a result of its own. -/
theorem executeModelToolCall_answers (threadId : ThreadId) (turnId : TurnId)
    (toolCall : ProviderToolCall) :
    Gives (·.AnswersTo toolCall) (executeModelToolCall threadId turnId toolCall) := by
  have hscope : Gives (fun _ => True) (localThreadExecutionScope threadId) :=
    .of_always (localThreadExecutionScope_does (P := fun _ => True) (O := fun _ => True) threadId)
  refine hscope.bind fun scope _ => ?_
  cases parseToolInvocation toolCall.toolName toolCall.arguments with
  | error message => exact toolCallFailed_answers _ _ _ _ _ _ _ _
  | ok invocation =>
      have hexecuted : ∀ request, Gives (fun _ => True) (executeTool .model request) := fun _ =>
        .of_always (executeTool_does (P := fun _ => True) (O := fun _ => True) trivial)
      refine (hexecuted _).bind fun execution _ => ?_
      rcases execution with error | ⟨nodeId, executed⟩
      · exact toolCallFailed_answers _ _ _ _ _ _ _ _
      · have hrecorded : ∀ {p : TurnM (TurnId × List ArtifactRef)}, Guarantees KeepsTurns p →
            Gives (fun _ => True) (onRuntime (onTurns p)) := fun h =>
          .of_always (onTurns_does (P := fun _ => True) (O := fun _ => True) h)
        refine (hrecorded (recordToolExecution_keepsTurns _ _ _ _ _ _ _)).bind fun recorded _ => ?_
        rcases recorded with error | ⟨executionTurnId, artifactRefs⟩
        · exact toolCallFailed_answers _ _ _ _ _ _ _ _
        · have hpublished : ∀ events, Gives (fun _ => True) (publishAll events) := fun _ =>
            .of_always (publishAll_does (P := fun _ => True) (O := fun _ => True) fun _ _ => trivial)
          exact (hpublished _).bind fun _ _ => .pure ⟨rfl, rfl, rfl⟩

theorem executeModelToolCall_gives (threadId : ThreadId) (turnId : TurnId)
    (toolCall : ProviderToolCall) :
    Gives (fun result => result.key = toolCall.key)
      (executeModelToolCall threadId turnId toolCall) :=
  (executeModelToolCall_answers threadId turnId toolCall).mono fun _ => (·.key_eq)

/-- The results of a round are those of its calls, in their order. -/
theorem executeModelToolCalls_answer (threadId : ThreadId) (turnId : TurnId)
    (toolCalls : List ProviderToolCall) :
    Gives (List.Forall₂ (fun toolCall result => result.AnswersTo toolCall) toolCalls)
      (executeModelToolCalls threadId turnId toolCalls) := by
  induction toolCalls with
  | nil => exact .pure .nil
  | cons toolCall rest ih =>
      refine (executeModelToolCall_answers threadId turnId toolCall).bind fun result hresult => ?_
      exact ih.bind fun results hresults => .pure (.cons hresult hresults)

/-- Each call has one result, under its key. -/
theorem executeModelToolCalls_gives (threadId : ThreadId) (turnId : TurnId)
    (toolCalls : List ProviderToolCall) :
    Gives (fun results => results.map ToolResultInjection.key =
      toolCalls.map ProviderToolCall.key) (executeModelToolCalls threadId turnId toolCalls) :=
  (executeModelToolCalls_answer threadId turnId toolCalls).mono fun _ hresults =>
    ToolResultInjection.keys_of_answers hresults

variable [JsonText]

/-- Once there are results, the answers are the same in every round. -/
theorem gatewayRounds_of_results (gateway : ModelGateway) (baseRequest : ModelTurnRequest)
    (outputContext : Option InteractionContext) (replies : List (Except ModelError Json))
    {results : List ToolResultInjection} (hne : results ≠ []) (fingerprint : String)
    (repeated : Nat) :
    gatewayRounds gateway baseRequest outputContext replies results fingerprint repeated =
      runRounds baseRequest outputContext
        (replies.map (gateway.runTurn (baseRequest.withToolResultInjections [someResult])))
        results fingerprint repeated := by
  induction replies generalizing results fingerprint repeated with
  | nil => rfl
  | cons reply rest ih =>
      rw [gatewayRounds, List.map_cons, runRounds, gateway.runTurn_of_results baseRequest hne]
      generalize gateway.runTurn (baseRequest.withToolResultInjections [someResult]) reply = answer
      congr 1
      funext _
      congr 1
      funext _
      cases answer.outcome with
      | error error => rfl
      | ok summary =>
          by_cases hcalls : summary.toolCalls.isEmpty = true
          · simp only [if_pos hcalls]
          · simp only [if_neg hcalls]
            congr 1
            funext roundResults
            congr 1
            funext diagnostics
            apply ih
            exact List.append_ne_nil_of_left_ne_nil (List.append_ne_nil_of_left_ne_nil hne _) _

theorem gatewayRounds_eq (gateway : ModelGateway) (baseRequest : ModelTurnRequest)
    (outputContext : Option InteractionContext) (replies : List (Except ModelError Json)) :
    gatewayRounds gateway baseRequest outputContext replies [] "" 0 =
      runRounds baseRequest outputContext (gateway.answers baseRequest replies) [] "" 0 := by
  cases replies with
  | nil => rfl
  | cons reply rest =>
      rw [gatewayRounds, ModelGateway.answers, runRounds]
      generalize gateway.runTurn (baseRequest.withToolResultInjections []) reply = answer
      congr 1
      funext _
      congr 1
      funext _
      cases answer.outcome with
      | error error => rfl
      | ok summary =>
          by_cases hcalls : summary.toolCalls.isEmpty = true
          · simp only [if_pos hcalls]
          · simp only [if_neg hcalls]
            refine (executeModelToolCalls_gives _ _ _).bind_congr fun roundResults hresults => ?_
            -- the round has results, since it has calls
            have hne : roundResults ≠ [] := by
              rintro rfl
              exact hcalls (List.isEmpty_iff.mpr (List.map_eq_nil_iff.mp hresults.symm))
            congr 1
            funext diagnostics
            apply gatewayRounds_of_results
            exact List.append_ne_nil_of_left_ne_nil hne diagnostics

/-- A turn at the gateway is a turn of the model loop with the answers of the gateway. -/
theorem streamGatewayTurn_eq (gateway : ModelGateway) (thread : Thread) (turn : Turn)
    (systemPrompt developerPrompt userPrompt : String)
    (outputContext : Option InteractionContext) (replies : List (Except ModelError Json)) :
    streamGatewayTurn gateway thread turn systemPrompt developerPrompt userPrompt outputContext
        replies =
      streamModelTurn thread turn systemPrompt developerPrompt userPrompt outputContext
        (gateway.answers (baseRequestFor thread turn systemPrompt developerPrompt userPrompt)
          replies) := by
  rw [streamGatewayTurn, gatewayRounds_eq, streamModelTurn]

/-! ### A server with a turn -/

/-- A provider of the family, under its own name. -/
def ModelProviderFamily.provider (family : ModelProviderFamily) : ResolvedProvider :=
  { id := family.transportLabel
    displayName := family.transportLabel
    family := family
    modelId := "model"
    nativeToolCalls := true
    structuredToolProtocol := false
    location := ""
    transport := "/v1"
    payloadPreview := fun _ _ _ => "\x7b\x7d" }

def firstTurn : Turn :=
  .started "turn_0_2" "2026-01-01T00:00:00Z" (Thread.blank "thread_0_1") (turnRequest "Which tool?")

/-- The turn runs on the one thread of the server. -/
def firstTurnServer : AppServer :=
  { oneThreadServer with
    runtime := { oneThreadServer.runtime with
      turnManager := oneThreadServer.runtime.turnManager.setTurn firstTurn.id firstTurn } }

end Liz
