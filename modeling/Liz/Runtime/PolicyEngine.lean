import Liz.Runtime.ContextAssembler

/-!
# Policy evaluation

What a turn's input asks for, and whether it needs a checkpoint or an approval first.
-/

namespace Liz

structure SandboxContextRecord where
  filesystemMode : SandboxMode
  writableRoots : List String
  networkAccess : SandboxNetworkAccess
  deriving DecidableEq, Repr

structure PolicyDecision where
  scope : RetrievalScope
  riskLevel : RiskLevel
  protectedTargets : List String
  requiresCheckpoint : Bool
  requiresApproval : Bool
  reason : String
  sandboxContext : SandboxContextRecord
  deriving DecidableEq, Repr

def protectedTargets (input : String) : List String :=
  let lower := Text.toAsciiLowercase input
  [".env", "secrets", "token", "password", ".git", "cargo.lock", "agents.md", "plan/"].filter
    (Text.contains lower)

def classifyRisk (input : String) (protectedTargets : List String) : RiskLevel :=
  let lower := Text.toAsciiLowercase input
  let destructive := ["delete", "remove", "reset", "wipe", "force push"]
  let mutating := ["write", "edit", "modify", "patch", "command", "run "]
  if !protectedTargets.isEmpty && destructive.any (Text.contains lower) then .critical
  else if !protectedTargets.isEmpty || destructive.any (Text.contains lower) then .high
  else if mutating.any (Text.contains lower) then .medium
  else .low

def RiskLevel.reason (riskLevel : RiskLevel) (protectedTargets : List String) : String :=
  match riskLevel with
  | .low => "Scoped read-only or low-side-effect turn"
  | .medium => "Turn may write or execute bounded commands"
  | .high =>
      if protectedTargets.isEmpty then "Turn may cause broad or destructive side effects"
      else "Turn touches protected targets: " ++ Text.join protectedTargets ", "
  | .critical =>
      "Turn targets sensitive paths or destructive operations: " ++ Text.join protectedTargets ", "

/-- Evaluates the current input and assembled context into a policy decision. -/
def evaluatePolicy (input : String) (context : AssembledContext) : PolicyDecision :=
  let targets := protectedTargets input
  let riskLevel := classifyRisk input targets
  { scope := context.scope
    riskLevel := riskLevel
    protectedTargets := targets
    requiresCheckpoint := riskLevel == .medium || riskLevel == .high || riskLevel == .critical
    requiresApproval := riskLevel == .high || riskLevel == .critical
    reason := riskLevel.reason targets
    sandboxContext :=
      { filesystemMode := .workspaceWrite
        writableRoots := ["workspace"]
        networkAccess := .restricted } }

/-- The part of the decision that the input alone settles. -/
def needsApproval (input : String) : Bool :=
  let riskLevel := classifyRisk input (protectedTargets input)
  riskLevel == .high || riskLevel == .critical

theorem requiresApproval_eq (input : String) (context : AssembledContext) :
    (evaluatePolicy input context).requiresApproval = needsApproval input := by
  simp only [evaluatePolicy, needsApproval]

/-- The risk levels that ask for a checkpoint. -/
def RiskLevel.needsCheckpoint (riskLevel : RiskLevel) : Bool :=
  riskLevel == .medium || riskLevel == .high || riskLevel == .critical

/-- The other part that the input alone settles. -/
def needsCheckpoint (input : String) : Bool :=
  (classifyRisk input (protectedTargets input)).needsCheckpoint

theorem requiresCheckpoint_eq (input : String) (context : AssembledContext) :
    (evaluatePolicy input context).requiresCheckpoint = needsCheckpoint input := by
  simp only [evaluatePolicy, needsCheckpoint, RiskLevel.needsCheckpoint]

/-- What needs approval needs a checkpoint. -/
theorem requiresCheckpoint_of_requiresApproval {input : String} {context : AssembledContext}
    (h : (evaluatePolicy input context).requiresApproval = true) :
    (evaluatePolicy input context).requiresCheckpoint = true := by
  simp only [evaluatePolicy, Bool.or_eq_true, beq_iff_eq] at h ⊢
  rcases h with h | h
  · exact Or.inl (Or.inr h)
  · exact Or.inr h

example : classifyRisk "delete .env" (protectedTargets "delete .env") = .critical := by decide

end Liz
