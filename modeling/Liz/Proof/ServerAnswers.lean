import Liz.Proof.LoopPrograms
import Liz.Server.Requests

/-!
# The server answers every request

Only a gateway that stays silent keeps the server from answering. When its first answer is an error,
every request gets a response.
-/

namespace Liz

open Program

/-- The program returns, whatever the server is like. -/
abbrev Ends {α : Type} (p : ServerM α) : Prop := Always (fun _ _ => True) p

namespace Ends

variable {α β : Type}

theorem bind {p : ServerM β} {next : β → ServerM α} (hp : Ends p) (hnext : ∀ b, Ends (next b)) :
    Ends (p >>= next) := Always.bind (fun _ _ _ _ _ => trivial) hp hnext

theorem pure (a : α) : Ends (Pure.pure a) := Always.pure (fun _ => trivial) a

theorem get : Ends (MonadState.get : ServerM AppServer) := Always.get fun _ => trivial

theorem onRuntime (p : RuntimeM α) : Ends (Liz.onRuntime p) := by
  intro server
  rw [wp_onRuntime]
  exact wp_trivial p

theorem observe (observation : Observation) : Ends (Liz.observe observation) := fun _ => trivial

theorem publishAll (events : List PendingEvent) : Ends (Liz.publishAll events) :=
  publishAll_always (fun _ => trivial) (fun _ _ _ _ _ => trivial) fun _ _ => observe _

end Ends

section Requests

variable [World]

theorem ends_compileMemoryForThread (threadId : ThreadId) (turnId : Option TurnId) :
    Ends (compileMemoryForThread threadId turnId) :=
  compileMemoryForThread_always (fun _ => trivial) (fun _ _ _ _ _ => trivial)
    (fun _ _ => trivial) fun _ _ => Ends.observe _

theorem ends_threadEvent (threadId : ThreadId) (turnId : TurnId)
    (payload : Thread → ServerEventPayload) : Ends (threadEvent threadId turnId payload) := by
  apply Ends.bind (.onRuntime _)
  intro found
  match found with
  | .ok (some thread) => exact .pure _
  | .ok none => exact .pure _
  | .error _ => exact .pure _

/-! ### The dispatch -/

omit [World] in
theorem ends_respond {α : Type} (p : RuntimeM α)
    {success : α → ServerM (ResponsePayload × List PendingEvent)}
    (hsuccess : ∀ value, Ends (success value)) : Ends (respond p success) := by
  apply Ends.bind (.onRuntime p)
  intro result
  cases result with
  | error _ => exact .pure _
  | ok value => exact .bind (hsuccess value) fun _ => .pure _

theorem ends_executeTool (caller : ToolCaller) (request : ToolCallRequest) :
    Ends (executeTool caller request) :=
  executeTool_always (fun _ => trivial) (fun _ _ _ _ _ => trivial) (fun _ _ => trivial)
    (Ends.observe _)

theorem ends_handleToolCall (request : ToolCallRequest) : Ends (handleToolCall request) := by
  apply Ends.bind (.onRuntime _)
  intro normalized
  cases normalized with
  | error _ => exact .pure _
  | ok request =>
      apply Ends.bind (ends_executeTool .client request)
      intro execution
      cases execution with
      | error _ => exact .pure _
      | ok executed => exact ends_respond _ fun _ => .pure _

theorem ends_dispatch (request : ClientRequest) : Ends (dispatch request) := by
  cases request with
  | runtimeConfigGet => exact .bind .get fun _ => .pure _
  | runtimeConfigUpdate sandbox approvalPolicy =>
      exact .bind (.modify fun _ => trivial) fun _ => .bind .get fun _ => .pure _
  | threadStart request => exact ends_respond _ fun _ => .pure _
  | threadResume request => exact ends_respond _ fun _ => .bind .get fun _ => .pure _
  | threadFork request => exact ends_respond _ fun _ => .pure _
  | turnStart request =>
      exact ends_respond _ fun _ => .bind (ends_threadEvent _ _ _) fun _ => .pure _
  | turnCancel request =>
      exact ends_respond _ fun _ => .bind (ends_threadEvent _ _ _) fun _ => .pure _
  | approvalRespond request => exact ends_respond _ fun _ => .pure _
  | toolCall request => exact ends_handleToolCall request
  | threadRollback => exact .pure _
  | other method outcome => exact .bind (.modify fun _ => trivial) fun _ => .pure _

/-! ### After the response -/

/-- A gateway that answers with an error at once. -/
def failedGateway : List GatewayAnswer :=
  [{ events := [], outcome := .error (.providerFailure "no answer") }]

theorem ends_finishModelTurn (threadId : ThreadId) (turnId : TurnId)
    (outputContext : Option InteractionContext) (ending : Except ModelError (Option String)) :
    Ends (finishModelTurn threadId turnId outputContext ending) :=
  finishModelTurn_always (fun _ => trivial) (fun _ _ _ _ _ => trivial) (fun _ => Ends.onRuntime _)
    (fun _ => Ends.onRuntime _) (fun _ _ _ => Ends.observe _) (ends_compileMemoryForThread _ _) _ ending

theorem ends_streamModelTurn (thread : Thread) (turn : Turn)
    (systemPrompt developerPrompt userPrompt : String)
    (outputContext : Option InteractionContext) :
    Ends (streamModelTurn thread turn systemPrompt developerPrompt userPrompt outputContext
      failedGateway) := by
  have hrounds : ∀ baseRequest : ModelTurnRequest,
      Ends (runRounds baseRequest outputContext failedGateway [] "" 0) := fun _ =>
    .bind (.observe _) fun _ => .bind (.pure _) fun _ => .pure _
  exact .bind (hrounds _) fun ending => ends_finishModelTurn _ _ _ ending

theorem ends_requestApproval (threadId : ThreadId) (turnId : TurnId) (decision : PolicyDecision) :
    Ends (requestApproval threadId turnId decision) := by
  apply Ends.bind (.onRuntime _)
  intro required
  cases required with
  | error _ => exact .pure _
  | ok asked => exact .publishAll _

theorem ends_continueTurnAfterPolicy (request : TurnStartRequest) (turn : Turn) :
    Ends (continueTurnAfterPolicy request failedGateway turn) := by
  apply Ends.bind (.onRuntime _)
  intro found
  match found with
  | .error _ => exact .pure _
  | .ok none => exact .pure _
  | .ok (some thread) =>
      apply Ends.bind (.onRuntime _)
      intro assembled
      cases assembled with
      | error _ => exact .pure _
      | ok context =>
          apply Ends.bind .get
          intro server
          split
          · exact ends_requestApproval _ _ _
          · exact ends_streamModelTurn _ _ _ _ _ _

theorem ends_resumeAfterApproval (approval : ApprovalRequest) :
    Ends (resumeAfterApproval approval failedGateway) := by
  apply Ends.bind (.onRuntime _)
  intro resumed
  cases resumed with
  | error _ => exact .pure _
  | ok turn =>
      apply Ends.bind (.onRuntime _)
      intro found
      match found with
      | .error _ => exact .pure _
      | .ok none => exact .pure _
      | .ok (some thread) =>
          apply Ends.bind (.onRuntime _)
          intro assembled
          cases assembled with
          | error _ => exact .pure _
          | ok context => exact ends_streamModelTurn _ _ _ _ _ _

theorem ends_cancelAfterDenial (approval : ApprovalRequest) : Ends (cancelAfterDenial approval) := by
  apply Ends.bind (.onRuntime _)
  intro cancelled
  cases cancelled with
  | error _ => exact .pure _
  | ok turn =>
      exact .bind (.observe _) fun _ => .bind (ends_threadEvent _ _ _) fun _ =>
        .bind (.publishAll _) fun _ => ends_compileMemoryForThread _ _

theorem ends_continueAfter (request : ClientRequest) (response : ServerResponse) :
    Ends (continueAfter failedGateway request response) := by
  unfold continueAfter
  split
  · exact ends_continueTurnAfterPolicy _ _
  · exact ends_compileMemoryForThread _ _
  · next request approval =>
      cases request.decision with
      | approveOnce => exact ends_resumeAfterApproval approval
      | approveAndPersist => exact ends_resumeAfterApproval approval
      | deny => exact ends_cancelAfterDenial approval
  · exact .pure _

/-- Every request is answered, if only the gateway says that it cannot be reached. -/
theorem AppServer.response_isSome (server : AppServer) (request : ClientRequest) :
    (server.response { request := request, answers := failedGateway }).isSome = true := by
  have hends : Ends (handleRequest request failedGateway) :=
    .bind (ends_dispatch request) fun _ => .bind (.publishAll _) fun _ =>
      .bind (ends_continueAfter request _) fun _ => .pure _
  apply isSome_result_of_wp
  exact wp_mono (hends server) (fun _ _ h => h) fun _ _ h => h

end Requests

end Liz
