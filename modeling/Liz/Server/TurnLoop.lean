import Liz.Runtime.Interactions
import Liz.Server.App
import Mathlib.Algebra.Group.Nat.Defs

/-!
# The model loop

One turn at the model: the gateway is called with the prompts and the results collected so far, its
events are published as they come, and the tool calls it ends with are executed before it is called
again. An answer without tool calls completes the turn and an error fails it. The answers of the
gateway are given as a list, and the loop is a recursion over it.
-/

namespace Liz

variable [World]

def localThreadExecutionScope (threadId : ThreadId) :
    ServerM (NodeId × Option WorkspaceMountId) := do
  match ← onRuntime (RuntimeCoordinator.threadExecutionScope threadId) with
  | .ok scope => pure scope
  | .error _ => pure ("local", none)

/-- Publishes one event of the model. Deltas go out as they come. -/
def handleModelEvent (threadId : ThreadId) (turnId : TurnId)
    (outputContext : Option InteractionContext) : NormalizedTurnEvent → ServerM Unit
  | .assistantDelta chunk =>
      publish threadId (some turnId) (.assistantChunk chunk (some "primary") false)
  | .assistantMessage message =>
      publish threadId (some turnId) (.assistantCompleted (applyOutputPolicy outputContext message))
  | .toolCallStarted callId toolName summary =>
      publish threadId (some turnId) (.toolCallStarted callId toolName summary)
  | .toolCallDelta callId toolName deltaSummary preview =>
      publish threadId (some turnId) (.toolCallUpdated callId toolName deltaSummary preview)
  | .toolCallCommitted callId toolName arguments => do
      let (nodeId, workspaceMountId) ← localThreadExecutionScope threadId
      publish threadId (some turnId)
        (.toolCallCommitted callId toolName arguments none (some nodeId) workspaceMountId)
  | .usageDelta => pure ()
  | .providerRawEvent _ => pure ()

def handleModelEvents (threadId : ThreadId) (turnId : TurnId)
    (outputContext : Option InteractionContext) : List NormalizedTurnEvent → ServerM Unit
  | [] => pure ()
  | event :: rest => do
      handleModelEvent threadId turnId outputContext event
      handleModelEvents threadId turnId outputContext rest

/-! ### Tool calls -/

/-- Publishes the failure of a tool call and turns it into a result for the model. -/
def toolCallFailed (threadId : ThreadId) (turnId : TurnId) (toolCall : ProviderToolCall)
    (toolName message : String) (nodeId : NodeId) (workspaceMountId : Option WorkspaceMountId)
    (summary : String) : ServerM ToolResultInjection := do
  publish threadId (some turnId) (.toolFailed toolName message (some nodeId) workspaceMountId)
  pure
    { callId := toolCall.callId
      toolName := toolCall.toolName
      providerToolName := toolCall.providerToolName
      result := .object [("error", .string message)]
      isError := true
      summary := summary }

/-- Records an executed tool call of the model and publishes what it left. -/
def recordModelToolCall (threadId : ThreadId) (turnId : TurnId) (toolCall : ProviderToolCall)
    (workspaceMountId : Option WorkspaceMountId) (nodeId : NodeId) (executed : ExecutedTool) :
    ServerM ToolResultInjection := do
  match ← onRuntime (onTurns (recordToolExecution threadId (some turnId) (some nodeId)
      workspaceMountId executed.toolName.asStr executed.summary executed.artifactParts)) with
  | .error error =>
      toolCallFailed threadId turnId toolCall executed.toolName.asStr error.display nodeId
        workspaceMountId "Tool result recording failed"
  | .ok (executionTurnId, artifactRefs) => do
      publishAll (toolExecutionEvents threadId executionTurnId nodeId workspaceMountId executed
        artifactRefs)
      pure
        { callId := toolCall.callId
          toolName := toolCall.toolName
          providerToolName := toolCall.providerToolName
          result := executed.result.value
          isError := false
          summary := executed.toolName.asStr ++ " succeeded" }

def executeModelToolCall (threadId : ThreadId) (turnId : TurnId) (toolCall : ProviderToolCall) :
    ServerM ToolResultInjection := do
  let (nodeId, workspaceMountId) ← localThreadExecutionScope threadId
  match parseToolInvocation toolCall.toolName toolCall.arguments with
  | .error message =>
      toolCallFailed threadId turnId toolCall toolCall.toolName message nodeId workspaceMountId
        "Tool invocation parse failed"
  | .ok invocation => do
      match ← executeTool .model
          { threadId := threadId
            turnId := some turnId
            nodeId := some nodeId
            workspaceMountId := workspaceMountId
            invocation := invocation } with
      | .error error =>
          toolCallFailed threadId turnId toolCall toolCall.toolName error.display nodeId
            workspaceMountId "Tool execution failed"
      | .ok (nodeId, executed) =>
          recordModelToolCall threadId turnId toolCall workspaceMountId nodeId executed

def executeModelToolCalls (threadId : ThreadId) (turnId : TurnId) :
    List ProviderToolCall → ServerM (List ToolResultInjection)
  | [] => pure []
  | toolCall :: rest => do
      let result ← executeModelToolCall threadId turnId toolCall
      let results ← executeModelToolCalls threadId turnId rest
      pure (result :: results)

/-- A note to the model from the runtime itself, under the milliseconds of the clock. -/
def runtimeDiagnosticInjection (toolName message : String) : ServerM ToolResultInjection :=
  modifyGet fun server =>
    ({ callId := "diagnostic_" ++ Nat.repr (Clock.now server.runtime.ids.readings / 1000000)
       toolName := toolName
       providerToolName := toolName
       result := .object [("diagnostic", .string message)]
       isError := true
       summary := "Runtime diagnostic" },
      { server with
        runtime := { server.runtime with
          ids := { server.runtime.ids with readings := server.runtime.ids.readings + 1 } } })

/-- The same tool calls for the third time in a row get a note. -/
def loopDiagnostics (repeatedToolRounds : Nat) : ServerM (List ToolResultInjection) := do
  if repeatedToolRounds ≥ 2 then
    let diagnostic ← runtimeDiagnosticInjection "runtime.loop_diagnostic"
      "Detected repeated tool-call pattern. Explain the blocker or choose a different action."
    pure [diagnostic]
  else pure []

/-! ### The rounds -/

/-- The calls of the gateway from a given collection of tool results on, up to the answer that has
no tool calls or is an error. -/
def runRounds (baseRequest : ModelTurnRequest) (outputContext : Option InteractionContext) :
    List GatewayAnswer → List ToolResultInjection → String → Nat →
      ServerM (Except ModelError (Option String))
  | [], continuationResults, _, _ => do
      observe (.modelCalled (baseRequest.withToolResultInjections continuationResults) outputContext)
      throw .gateway
  | answer :: answers, continuationResults, lastToolFingerprint, repeatedToolRounds => do
      let threadId := baseRequest.thread.id
      let turnId := baseRequest.turn.id
      observe (.modelCalled (baseRequest.withToolResultInjections continuationResults) outputContext)
      handleModelEvents threadId turnId outputContext answer.events
      match answer.outcome with
      | .error error => pure (.error error)
      | .ok summary =>
          if summary.toolCalls.isEmpty then pure (.ok summary.assistantMessage)
          else do
            let fingerprint := toolCallFingerprint summary.toolCalls
            let repeatedToolRounds := if fingerprint = lastToolFingerprint
              then min (repeatedToolRounds + 1) (2 ^ 32 - 1) else 0
            let roundResults ← executeModelToolCalls threadId turnId summary.toolCalls
            let diagnostics ← loopDiagnostics repeatedToolRounds
            runRounds baseRequest outputContext answers
              (continuationResults ++ roundResults ++ diagnostics) fingerprint repeatedToolRounds

/-! ### The end of a turn -/

/-- Ends the turn after an error of the gateway. -/
def failModelTurn (threadId : ThreadId) (turnId : TurnId) (error : ModelError) : ServerM Unit := do
  match ← onRuntime (onTurns (failTurn threadId turnId error.display)) with
  | .ok turn => do
      publish threadId (some turn.id) (.turnFailed turn error.display)
      compileMemoryForThread threadId (some turnId)
  | .error _ => pure ()

/-- Ends the turn with the message of the model, as the output policy lets it pass. -/
def completeModelTurn (threadId : ThreadId) (turnId : TurnId)
    (outputContext : Option InteractionContext) (assistantMessage : Option String) :
    ServerM Unit := do
  let finalMessage := applyOutputPolicy outputContext (assistantMessage.getD "Completed turn")
  match ← onRuntime (onTurns (completeTurn threadId turnId finalMessage)) with
  | .ok turn => do
      publish threadId (some turn.id) (.turnCompleted turn)
      compileMemoryForThread threadId (some turnId)
  | .error _ => pure ()

def finishModelTurn (threadId : ThreadId) (turnId : TurnId)
    (outputContext : Option InteractionContext) :
    Except ModelError (Option String) → ServerM Unit
  | .error error => failModelTurn threadId turnId error
  | .ok assistantMessage => completeModelTurn threadId turnId outputContext assistantMessage

/-- What stays the same in every request of a turn. -/
def baseRequestFor (thread : Thread) (turn : Turn)
    (systemPrompt developerPrompt userPrompt : String) : ModelTurnRequest :=
  (ModelTurnRequest.fromPromptParts thread turn systemPrompt developerPrompt
    userPrompt).withToolSurfaceMode
      (if thread.workspaceMountId.isSome || thread.workspaceRef.isSome then .standard
        else .conversationOnly)

/-- Runs a turn at the model until it ends. -/
def streamModelTurn (thread : Thread) (turn : Turn)
    (systemPrompt developerPrompt userPrompt : String)
    (outputContext : Option InteractionContext) (answers : List GatewayAnswer) :
    ServerM Unit := do
  let ending ← runRounds (baseRequestFor thread turn systemPrompt developerPrompt userPrompt)
    outputContext answers [] "" 0
  finishModelTurn thread.id turn.id outputContext ending

end Liz
