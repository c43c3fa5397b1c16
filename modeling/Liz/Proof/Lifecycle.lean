import Liz.Base.Runs
import Liz.Proof.ServerEffects

/-!
# The ledger over whole runs

What a request does to turns and approvals falls into four cases. The ledger is in order when turns
are filed under their own identifiers, when every identifier in it has been given out by the
generator, and when no two approvals name the same turn; every request keeps it in order, whatever
the disk, the gateway and the tools do.
-/

namespace Liz

open Program

section Steps

variable [World]

/-- What a request can do. -/
inductive StepEffect (s t : AppServer) : ClientRequest → Prop
  | idle {request : ClientRequest} (h : Works (fun _ => False) (fun _ => False) s t) :
      StepEffect s t request
  | cancelled {request : TurnCancelRequest}
      (h : Works (· = request.turnId) (fun _ => False) s t) : StepEffect s t (.turnCancel request)
  | started {request : TurnStartRequest} {turn : Turn} {m : AppServer} (hbegins : Begins turn s m)
      (h : Continues turn.id (fun id => id = turn.id ∧ MayRun s.approvalPolicy request.input) m t) :
      StepEffect s t (.turnStart request)
  | answered {request : ApprovalRespondRequest} {approval : ApprovalRequest} {m : AppServer}
      (hanswers : Answers request approval s m) (h : FollowsUp request approval m t) :
      StepEffect s t (.approvalRespond request)

theorem step_effect {s : AppServer} (hfiled : Filed s.runtime.toTurnRuntime) (input : ServerInput) :
    StepEffect s (s.step input) input.request := by
  obtain ⟨request, answers⟩ := input
  refine (wp_after (R := fun t => StepEffect s t request)).mp ?_
  by_cases hordinary : request.ordinary = true
  · exact wp_mono (handleRequest_ordinary hordinary answers s) (fun _ _ => .idle)
      (fun _ _ => .idle)
  · cases request with
    | turnCancel request =>
        exact wp_mono (handleRequest_turnCancel (P := (· = request.turnId)) rfl answers s)
          (fun _ _ => .cancelled) (fun _ _ => .cancelled)
    | turnStart request =>
        refine wp_mono (handleRequest_turnStart request answers s) ?_ ?_
        · rintro _ t (⟨turn, m, -, hbegins, h⟩ | ⟨-, h⟩)
          · exact .started hbegins h
          · exact .idle h
        · rintro _ t ⟨turn, m, hbegins, h⟩
          exact .started hbegins (.worked h)
    | approvalRespond request =>
        refine wp_mono (handleRequest_approvalRespond request answers hfiled) ?_ ?_
        · rintro _ t (h | ⟨approval, m, hanswers, h⟩)
          · exact .idle h
          · exact .answered hanswers h
        · rintro _ t ⟨approval, m, hanswers, h⟩
          exact .answered hanswers h
    | _ => exact absurd rfl hordinary

end Steps

/-! ### Order -/

/-- The ledger is in order. -/
structure Orderly (s : RuntimeCoordinator) : Prop where
  filed : Filed s.toTurnRuntime
  turnsIssued : ∀ id turn, s.turnManager.activeTurns.lookup id = some turn → s.ids.Issued id
  approvalsIssued : ∀ id approval, s.approvals.lookup id = some approval →
    s.ids.Issued id ∧ s.ids.Issued approval.turnId
  oneApproval : ∀ id id' approval approval', s.approvals.lookup id = some approval →
    s.approvals.lookup id' = some approval' → approval.turnId = approval'.turnId → id = id'

section Orderly

variable {s t : RuntimeCoordinator}

/-- Changing turns that are known already, with the approvals as they were. -/
theorem Orderly.of_changesOnly {P : TurnId → Prop} (h : Orderly s)
    (hturns : ChangesOnly P s.toTurnRuntime t.toTurnRuntime)
    (happrovals : t.approvals = s.approvals) : Orderly t := by
  refine ⟨?_, ?_, ?_, ?_⟩
  · intro id turn hturn
    obtain ⟨before, hbefore, hid, -⟩ := hturns.known id turn hturn
    exact hid.trans (h.filed id before hbefore)
  · intro id turn hturn
    obtain ⟨before, hbefore, -⟩ := hturns.known id turn hturn
    exact (h.turnsIssued id before hbefore).mono hturns.sequence
  · intro id approval happroval
    obtain ⟨hid, hturn⟩ := h.approvalsIssued id approval (happrovals ▸ happroval)
    exact ⟨hid.mono hturns.sequence, hturn.mono hturns.sequence⟩
  · rw [happrovals]
    exact h.oneApproval

/-- A new turn under a new identifier. -/
theorem Orderly.of_starts {turn : Turn} (h : Orderly s)
    (hstarts : Starts turn s.toTurnRuntime t.toTurnRuntime)
    (happrovals : t.approvals = s.approvals) : Orderly t := by
  refine ⟨?_, ?_, ?_, ?_⟩
  · intro id found hfound
    rcases hstarts.lookup hfound with ⟨rfl, rfl⟩ | ⟨-, hbefore⟩
    · rfl
    · exact h.filed id found hbefore
  · intro id found hfound
    rcases hstarts.lookup hfound with ⟨rfl, -⟩ | ⟨-, hbefore⟩
    · exact hstarts.issued
    · exact (h.turnsIssued id found hbefore).mono hstarts.sequence
  · intro id approval happroval
    obtain ⟨hid, hturn⟩ := h.approvalsIssued id approval (happrovals ▸ happroval)
    exact ⟨hid.mono hstarts.sequence, hturn.mono hstarts.sequence⟩
  · rw [happrovals]
    exact h.oneApproval

/-- A new approval for a turn that no approval names yet. -/
theorem Orderly.of_asks {turnId : TurnId} {approval : ApprovalRequest} (h : Orderly s)
    (hasks : Asks turnId approval s t) (hissued : s.ids.Issued turnId)
    (hunnamed : ∀ id other, s.approvals.lookup id = some other → other.turnId ≠ turnId) :
    Orderly t := by
  have hlookup : ∀ id found, t.approvals.lookup id = some found →
      (id = approval.id ∧ found = approval) ∨ s.approvals.lookup id = some found := by
    intro id found hfound
    rw [hasks.approvals] at hfound
    by_cases hid : id = approval.id
    · rw [hid, AList.lookup_insert, Option.some.injEq] at hfound
      exact Or.inl ⟨hid, hfound.symm⟩
    · rw [AList.lookup_insert_ne hid] at hfound
      exact Or.inr hfound
  have hbase : Orderly { t with approvals := s.approvals } := h.of_changesOnly hasks.turns rfl
  refine ⟨hbase.filed, hbase.turnsIssued, ?_, ?_⟩
  · intro id found hfound
    rcases hlookup id found hfound with ⟨rfl, rfl⟩ | hbefore
    · exact ⟨hasks.issued, hasks.names ▸ hissued.mono hasks.turns.sequence⟩
    · exact hbase.approvalsIssued id found hbefore
  · intro id id' found found' hfound hfound' hsame
    rcases hlookup id found hfound with ⟨rfl, rfl⟩ | hbefore
    · rcases hlookup id' found' hfound' with ⟨rfl, rfl⟩ | hbefore'
      · rfl
      · exact absurd (hsame.symm.trans hasks.names) (hunnamed id' found' hbefore')
    · rcases hlookup id' found' hfound' with ⟨rfl, rfl⟩ | hbefore'
      · exact absurd (hsame.trans hasks.names) (hunnamed id found hbefore)
      · exact h.oneApproval id id' found found' hbefore hbefore' hsame

/-- An approval that is answered keeps its identifier and its turn. -/
theorem lookup_withApproval {approvalId : ApprovalId} {approval : ApprovalRequest}
    {decision : ApprovalDecision} (id : ApprovalId) : ((s.withApproval approvalId
        (RuntimeCoordinator.answered decision approval)).approvals.lookup id) =
      if id = approvalId then some (RuntimeCoordinator.answered decision approval)
      else s.approvals.lookup id := by
  by_cases hid : id = approvalId
  · rw [if_pos hid, hid]
    exact AList.lookup_insert _
  · rw [if_neg hid]
    exact AList.lookup_insert_ne hid

theorem answered_ne_pending {decision : ApprovalDecision} {approval : ApprovalRequest} :
    (RuntimeCoordinator.answered decision approval).status ≠ .pending := by
  cases decision <;> simp [RuntimeCoordinator.answered, RuntimeCoordinator.ApprovalDecision.status]

theorem Orderly.withApproval {approvalId : ApprovalId} {approval : ApprovalRequest}
    {decision : ApprovalDecision} (h : Orderly s)
    (hfound : s.approvals.lookup approvalId = some approval) :
    Orderly (s.withApproval approvalId (RuntimeCoordinator.answered decision approval)) := by
  have hlookup : ∀ id found, (s.withApproval approvalId
        (RuntimeCoordinator.answered decision approval)).approvals.lookup id = some found →
      ∃ before, s.approvals.lookup id = some before ∧ found.turnId = before.turnId := by
    intro id found hafter
    rw [lookup_withApproval] at hafter
    split at hafter
    · next hid =>
        subst hid
        exact ⟨approval, hfound, (Option.some.inj hafter) ▸ rfl⟩
    · exact ⟨found, hafter, rfl⟩
  refine ⟨h.filed, h.turnsIssued, ?_, ?_⟩
  · intro id found hafter
    obtain ⟨before, hbefore, hturn⟩ := hlookup id found hafter
    exact hturn ▸ h.approvalsIssued id before hbefore
  · intro id id' found found' hafter hafter' hsame
    obtain ⟨before, hbefore, hturn⟩ := hlookup id found hafter
    obtain ⟨before', hbefore', hturn'⟩ := hlookup id' found' hafter'
    exact h.oneApproval id id' before before' hbefore hbefore'
      (hturn.symm.trans (hsame.trans hturn'))

end Orderly

/-! ### Every run -/

section Runs

theorem Begins.orderly {turn : Turn} {s m : AppServer} (h : Begins turn s m)
    (hs : Orderly s.runtime) : Orderly m.runtime :=
  hs.of_starts h.starts h.approvals

/-- No approval names a turn that has just been started. -/
theorem Begins.unnamed {turn : Turn} {s m : AppServer} (h : Begins turn s m)
    (hs : Orderly s.runtime) :
    ∀ id other, m.runtime.approvals.lookup id = some other → other.turnId ≠ turn.id := by
  intro id other hother hsame
  rw [h.approvals] at hother
  exact h.starts.fresh (hsame ▸ (hs.approvalsIssued id other hother).2)

variable [World]

theorem orderly_step {s : AppServer} (h : Orderly s.runtime) (input : ServerInput) :
    Orderly (s.step input).runtime := by
  obtain ⟨request, answers⟩ := input
  have heffect : StepEffect s (s.step ⟨request, answers⟩) request := step_effect h.filed _
  cases heffect with
  | idle hworks => exact h.of_changesOnly hworks.turns hworks.approvals
  | cancelled hworks => exact h.of_changesOnly hworks.turns hworks.approvals
  | started hbegins hcontinues =>
      have hm := hbegins.orderly h
      cases hcontinues with
      | worked hworks => exact hm.of_changesOnly hworks.turns hworks.approvals
      | asked approval hasks =>
          exact hm.of_asks hasks hbegins.starts.issued (hbegins.unnamed h)
  | answered hanswers hworks =>
      have hm := hanswers.runtime ▸ h.withApproval hanswers.found
      exact hm.of_changesOnly hworks.turns hworks.approvals

theorem activeTurns_new (host : HostInfo) (sandbox : ShellSandboxRequest) (stores : RuntimeStores) :
    (AppServer.new host sandbox stores).runtime.turnManager.activeTurns = ∅ := by
  unfold AppServer.new RuntimeCoordinator.new
  dsimp only
  split <;> rfl

theorem approvals_new (host : HostInfo) (sandbox : ShellSandboxRequest) (stores : RuntimeStores) :
    (AppServer.new host sandbox stores).runtime.approvals = ∅ := by
  unfold AppServer.new RuntimeCoordinator.new
  dsimp only
  split <;> rfl

theorem orderly_new (host : HostInfo) (sandbox : ShellSandboxRequest) (stores : RuntimeStores) :
    Orderly (AppServer.new host sandbox stores).runtime := by
  have hturns := activeTurns_new host sandbox stores
  have happrovals := approvals_new host sandbox stores
  refine ⟨?_, ?_, ?_, ?_⟩
  · intro id turn hturn
    rw [hturns, AList.lookup_empty] at hturn
    exact absurd hturn (by simp)
  · intro id turn hturn
    rw [hturns, AList.lookup_empty] at hturn
    exact absurd hturn (by simp)
  · intro id approval happroval
    rw [happrovals, AList.lookup_empty] at happroval
    exact absurd happroval (by simp)
  · intro id id' approval approval' happroval
    rw [happrovals, AList.lookup_empty] at happroval
    exact absurd happroval (by simp)

end Runs

/-! ### A server with one thread -/

def oneThreadStores : RuntimeStores :=
  { RuntimeStores.blank with
    threads := AList.singleton "thread_0_1" (.intact (Thread.blank "thread_0_1")) }

def oneThreadServer : AppServer :=
  @AppServer.new calmDisk { os := "linux", hostname := none }
    { mode := .workspaceWrite, networkAccess := .restricted } oneThreadStores

/-- A turn on the thread of the server. -/
def turnRequest (input : String) : TurnStartRequest :=
  { threadId := "thread_0_1", input := input, inputKind := .userMessage, channel := none,
    participant := none, interactionContext := none }

/-- The gateway answers at once, without a tool call. -/
def plainAnswer (message : String) : GatewayAnswer :=
  { events := [], outcome := .ok { assistantMessage := some message, toolCalls := [] } }

/-- A first turn that is risky. -/
def deletionInput : ServerInput :=
  { request := .turnStart (turnRequest "delete .env"), answers := [] }

/-- An answer to the approval that the first risky turn on the server asks for. -/
def respondInput (decision : ApprovalDecision) (answers : List GatewayAnswer) : ServerInput :=
  { request := .approvalRespond { approvalId := "approval_0_3", decision := decision }
    answers := answers }

end Liz
