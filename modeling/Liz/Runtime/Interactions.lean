import Liz.Base.Text
import Liz.Protocol.Memory

/-!
# What comes in and what goes out

Classification of what arrives at the runtime before any of it becomes a turn at the model, and the
check of a message that is about to leave for somebody else than the owner.
-/

namespace Liz

structure InboundEvent where
  interactionContext : InteractionContext
  text : Option String
  eventKind : String
  deriving DecidableEq, Repr

inductive InboundEventAction
  | runTurn | storeOnly | notifyOwner | ignore
  deriving DecidableEq, Repr

/-- Returns the runtime action for an inbound event. -/
def InboundEventRouter.classify (event : InboundEvent) : InboundEventAction :=
  match event.interactionContext.role with
  | .privateCompanion | .taskExecutor | .ownerDelegate =>
      if event.text.any fun text => !Text.isBlank text then .runTurn else .storeOnly
  | .webhookObserver | .backgroundAutomation => .notifyOwner
  | .nodeController => .storeOnly
  | .agentPeer | .agentCoordinator | .publicRepresentative | .groupParticipant => .runTurn

/-! ### Output policy -/

inductive OutputPolicyDecision
  | allowed
  | redacted (message : String)
  | needsOwnerConfirmation (reason : String)
  | denied (reason : String)
  deriving DecidableEq, Repr

def mentionsPrivateIdentity (output : String) : Bool :=
  let lower := Text.toAsciiLowercase output
  ["owner prefers", "identity summary", "about you"].any (Text.contains lower)

def redactCommitmentLanguage (output : String) : String :=
  Text.replace (Text.replace output "commitment" "follow-up") "Commitment" "Follow-up"

/-- Checks an outbound message for the resolved interaction context. -/
def checkOutput (context : InteractionContext) (output : String) : OutputPolicyDecision :=
  if context.authority.requiresOwnerConfirmation then
    .needsOwnerConfirmation "Owner confirmation is required for this interaction."
  else if (context.actor.kind = .remoteNode ∨ context.actor.kind = .localNode) ∧
      context.disclosure.shareIdentity = false ∧ mentionsPrivateIdentity output then
    .denied "Node interactions cannot receive owner identity memory."
  else if (context.audience.visibility = .publicVisible ∨ context.audience.visibility = .group) ∧
      context.disclosure.shareCommitments = false ∧
      Text.contains (Text.toAsciiLowercase output) "commitment" then
    .redacted (redactCommitmentLanguage output)
  else .allowed

/-- What is delivered in place of a message. -/
def applyOutputPolicy (context : Option InteractionContext) (message : String) : String :=
  match context with
  | none => message
  | some context =>
      match checkOutput context message with
      | .allowed => message
      | .redacted redacted => redacted
      | .needsOwnerConfirmation reason =>
          "I need owner confirmation before sharing this response. " ++ reason
      | .denied reason => "I cannot share that response in this interaction. " ++ reason

end Liz
