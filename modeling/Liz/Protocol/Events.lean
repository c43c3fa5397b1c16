import Liz.Protocol.Memory
import Liz.Protocol.Tools

/-!
# Events and responses

What the server publishes while it works, and what it answers. An event that has not been published
yet carries its thread and its turn; its number and its time are added on publication.
-/

namespace Liz

inductive ServerEventPayload
  | threadStarted (thread : Thread)
  | threadResumed (thread : Thread)
  | threadForked (thread : Thread)
  | threadUpdated (thread : Thread)
  | threadInterrupted (thread : Thread)
  | turnStarted (turn : Turn)
  | turnCompleted (turn : Turn)
  | turnFailed (turn : Turn) (message : String)
  | turnCancelled (turn : Turn)
  | assistantChunk (chunk : String) (streamId : Option String) (isFinal : Bool)
  | assistantCompleted (message : String)
  | toolCallStarted (callId toolName summary : String)
  | toolCallUpdated (callId toolName deltaSummary : String) (preview : Option String)
  | toolCallCommitted (callId toolName argumentsSummary : String) (riskHint : Option RiskLevel)
      (nodeId : Option NodeId) (workspaceMountId : Option WorkspaceMountId)
  | toolCompleted (toolName summary : String) (artifactIds : List ArtifactId)
      (nodeId : Option NodeId) (workspaceMountId : Option WorkspaceMountId)
  | toolFailed (toolName summary : String) (nodeId : Option NodeId)
      (workspaceMountId : Option WorkspaceMountId)
  | executorOutputChunk (executorTaskId : ExecutorTaskId) (stream : ExecutorStream)
      (chunk : String) (nodeId : Option NodeId) (workspaceMountId : Option WorkspaceMountId)
  | approvalRequested (approval : ApprovalRequest)
  | approvalResolved (approval : ApprovalRequest) (decision : ApprovalDecision)
  | artifactCreated (artifact : ArtifactRef)
  | diffAvailable (artifact : ArtifactRef)
  | checkpointCreated (checkpoint : Checkpoint)
  | memoryWakeupLoaded (wakeup : MemoryWakeup)
  | memoryCompilationApplied (compilation : MemoryCompilationSummary)
  | memoryInvalidationApplied (compilation : MemoryCompilationSummary)
  | memoryDreamingCompleted (summary : String)
  deriving DecidableEq, Repr

/-- The part an event plays in the life of its turn: it starts the turn, it streams what the model
says, it ends the turn, or it tells of something else. -/
inductive TurnEventRole
  | start | stream | terminal | other
  deriving DecidableEq, Repr

def ServerEventPayload.role : ServerEventPayload → TurnEventRole
  | turnStarted _ => .start
  | assistantChunk _ _ _ => .stream
  | assistantCompleted _ => .stream
  | toolCallStarted _ _ _ => .stream
  | toolCallUpdated _ _ _ _ => .stream
  | toolCallCommitted _ _ _ _ _ _ => .stream
  | turnCompleted _ => .terminal
  | turnFailed _ _ => .terminal
  | turnCancelled _ => .terminal
  | _ => .other

structure PendingEvent where
  threadId : ThreadId
  turnId : Option TurnId
  payload : ServerEventPayload
  deriving DecidableEq, Repr

/-- A published event, as clients receive it and as far as they read it. -/
structure ServerEvent extends PendingEvent where
  createdAt : Timestamp
  deriving DecidableEq, Repr

inductive ResponsePayload
  | runtimeConfig (sandbox : ShellSandboxRequest) (approvalPolicy : ApprovalPolicy)
  | threadStart (thread : Thread)
  | threadResume (thread : Thread)
  | threadFork (thread : Thread)
  | turnStart (turn : Turn)
  | turnCancel (turn : Turn)
  | approvalRespond (approval : ApprovalRequest)
  | toolCall (executionTurnId : TurnId) (summary : String) (result : ToolResult)
      (artifactRefs : List ArtifactRef)
  /-- The answer to a request that touches neither threads nor turns nor approvals. -/
  | other (method : String)

inductive ServerResponse
  | success (payload : ResponsePayload)
  | error (code message : String) (retryable : Bool)

/-- The turn that a successful start returns. -/
def ServerResponse.startedTurn : ServerResponse → Option Turn
  | .success (.turnStart turn) => some turn
  | _ => none

theorem ServerResponse.startedTurn_eq_some {response : ServerResponse} {turn : Turn} :
    response.startedTurn = some turn ↔ response = .success (.turnStart turn) := by
  unfold ServerResponse.startedTurn
  split <;> simp_all

end Liz
