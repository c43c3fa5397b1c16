import Liz.Proof.Lifecycle

/-!
# When an answered approval stays answered

An approval that has been answered should keep its status, and one that is still pending should name
a turn that waits for it. The server answers an approval whatever its status is, and cancels a turn
without a look at the approvals; where a run does neither to the wrong approval, both hold.
-/

namespace Liz

open Program

/-- Approvals that were answered in `s` have the same status in `t`. -/
def DecisionsKept (s t : AppServer) : Prop :=
  ∀ id approval, s.runtime.approvals.lookup id = some approval → approval.status ≠ .pending →
    ∃ later, t.runtime.approvals.lookup id = some later ∧ later.status = approval.status

/-- Every pending approval names an active turn that waits for it. -/
def PendingWait (s : RuntimeCoordinator) : Prop :=
  ∀ id approval, s.approvals.lookup id = some approval → approval.status = .pending →
    ∃ turn, s.turnManager.activeTurns.lookup approval.turnId = some turn ∧
      turn.status = .waitingApproval

theorem DecisionsKept.refl (s : AppServer) : DecisionsKept s s :=
  fun _ approval h _ => ⟨approval, h, rfl⟩

theorem DecisionsKept.trans {s t u : AppServer} (h : DecisionsKept s t) (h' : DecisionsKept t u) :
    DecisionsKept s u := by
  intro id approval hfound hdecided
  obtain ⟨later, hlater, hstatus⟩ := h id approval hfound hdecided
  obtain ⟨last, hlast, hstatus'⟩ := h' id later hlater (hstatus ▸ hdecided)
  exact ⟨last, hlast, hstatus'.trans hstatus⟩

theorem decisionsKept_of_eq {s t : AppServer} (h : t.runtime.approvals = s.runtime.approvals) :
    DecisionsKept s t :=
  fun _ approval hfound _ => ⟨approval, h ▸ hfound, rfl⟩

/-! ### Turns that wait -/

/-- Only turns that no pending approval names have changed. -/
theorem PendingWait.of_changesOnly {P : TurnId → Prop} {s t : RuntimeCoordinator}
    (h : PendingWait s) (hturns : ChangesOnly P s.toTurnRuntime t.toTurnRuntime)
    (happrovals : t.approvals = s.approvals)
    (hunnamed : ∀ id approval, s.approvals.lookup id = some approval →
      approval.status = .pending → ¬ P approval.turnId) : PendingWait t := by
  intro id approval hfound hpending
  rw [happrovals] at hfound
  obtain ⟨turn, hturn, hwaiting⟩ := h id approval hfound hpending
  exact ⟨turn, (hturns.others _ (hunnamed id approval hfound hpending)).trans hturn, hwaiting⟩

theorem Begins.pendingWait {turn : Turn} {s m : AppServer} (h : Begins turn s m)
    (hs : Orderly s.runtime) (hwait : PendingWait s.runtime) : PendingWait m.runtime := by
  intro id approval hfound hpending
  have hne := h.unnamed hs id approval hfound
  rw [h.approvals] at hfound
  obtain ⟨found, hturn, hwaiting⟩ := hwait id approval hfound hpending
  refine ⟨found, ?_, hwaiting⟩
  rw [h.starts.activeTurns, AList.lookup_insert_ne hne]
  exact hturn

theorem Asks.pendingWait {turnId : TurnId} {approval : ApprovalRequest} {s t : RuntimeCoordinator}
    (h : Asks turnId approval s t) (hwait : PendingWait s)
    (hunnamed : ∀ id other, s.approvals.lookup id = some other → other.turnId ≠ turnId) :
    PendingWait t := by
  intro id found hfound hpending
  rw [h.approvals] at hfound
  by_cases hid : id = approval.id
  · rw [hid, AList.lookup_insert, Option.some.injEq] at hfound
    subst hfound
    exact h.names ▸ h.waiting
  · rw [AList.lookup_insert_ne hid] at hfound
    obtain ⟨turn, hturn, hwaiting⟩ := hwait id found hfound hpending
    exact ⟨turn, (h.turns.others _ (hunnamed id found hfound)).trans hturn, hwaiting⟩

/-! ### Steps and runs -/

section Steps

variable [World]

/-- An answer goes to a pending approval, or repeats the answer the approval has; and no turn is
cancelled while an approval of it is pending. -/
structure DecidesOnce (s : AppServer) (input : ServerInput) : Prop where
  answer : ∀ request approval, input.request = .approvalRespond request →
    s.runtime.approvals.lookup request.approvalId = some approval →
      approval.status = .pending ∨
        approval.status = RuntimeCoordinator.ApprovalDecision.status request.decision
  cancel : ∀ request id approval, input.request = .turnCancel request →
    s.runtime.approvals.lookup id = some approval → approval.status = .pending →
      approval.turnId = request.turnId → CancelRefused s.runtime.toTurnRuntime request

theorem decisionsKept_step {s : AppServer} (h : Orderly s.runtime) {input : ServerInput}
    (honce : DecidesOnce s input) : DecisionsKept s (s.step input) := by
  obtain ⟨request, answers⟩ := input
  have heffect : StepEffect s (s.step ⟨request, answers⟩) request := step_effect h.filed _
  cases heffect with
  | idle hworks => exact decisionsKept_of_eq hworks.approvals
  | cancelled hworks => exact decisionsKept_of_eq hworks.approvals
  | started hbegins hcontinues =>
      cases hcontinues with
      | worked hworks => exact decisionsKept_of_eq (hworks.approvals.trans hbegins.approvals)
      | asked approval hasks =>
          intro id found hfound _
          rw [← hbegins.approvals] at hfound
          have hid : id ≠ approval.id := by
            rintro rfl
            exact hasks.fresh ((hbegins.orderly h).approvalsIssued _ found hfound).1
          refine ⟨found, ?_, rfl⟩
          rw [hasks.approvals, AList.lookup_insert_ne hid]
          exact hfound
  | @answered request approval m hanswers hworks =>
      intro id found hfound hdecided
      rw [hworks.approvals, hanswers.runtime, lookup_withApproval]
      by_cases hid : id = request.approvalId
      · subst hid
        obtain rfl : found = approval := by simpa [hfound] using hanswers.found
        refine ⟨_, if_pos rfl, ?_⟩
        exact ((honce.answer request found rfl hfound).resolve_left hdecided).symm
      · exact ⟨found, (if_neg hid).trans hfound, rfl⟩

theorem pendingWait_step {s : AppServer} (h : Orderly s.runtime) (hwait : PendingWait s.runtime)
    {input : ServerInput} (honce : DecidesOnce s input) : PendingWait (s.step input).runtime := by
  obtain ⟨request, answers⟩ := input
  have heffect : StepEffect s (s.step ⟨request, answers⟩) request := step_effect h.filed _
  cases heffect with
  | idle hworks =>
      exact hwait.of_changesOnly hworks.turns hworks.approvals fun _ _ _ _ => id
  | @cancelled request hworks =>
      by_cases hrefused : CancelRefused s.runtime.toTurnRuntime request
      · have hidle : Works (fun _ => False) (fun _ => False) s
            (s.step ⟨.turnCancel request, answers⟩) :=
          wp_after.mp (handleRequest_turnCancel_refused hrefused answers)
        exact hwait.of_changesOnly hidle.turns hidle.approvals fun _ _ _ _ => id
      · refine hwait.of_changesOnly hworks.turns hworks.approvals ?_
        intro id approval hfound hpending hnames
        exact hrefused (honce.cancel request id approval rfl hfound hpending hnames)
  | started hbegins hcontinues =>
      have hm := hbegins.pendingWait h hwait
      have hunnamed := hbegins.unnamed h
      cases hcontinues with
      | worked hworks =>
          exact hm.of_changesOnly hworks.turns hworks.approvals fun id other hfound _ =>
            hunnamed id other hfound
      | asked approval hasks => exact hasks.pendingWait hm hunnamed
  | @answered request approval m hanswers hworks =>
      intro id found hfound hpending
      rw [hworks.approvals, hanswers.runtime, lookup_withApproval] at hfound
      split at hfound
      · -- the approval that was answered is not pending any more
        exact absurd (Option.some.inj hfound ▸ hpending) answered_ne_pending
      · next hid =>
          obtain ⟨turn, hturn, hwaiting⟩ := hwait id found hfound hpending
          have hne : found.turnId ≠ approval.turnId := fun hsame =>
            hid (h.oneApproval id request.approvalId found approval hfound hanswers.found hsame)
          refine ⟨turn, ?_, hwaiting⟩
          rw [hworks.turns.others _ hne, hanswers.runtime]
          exact hturn

/-- In every run that answers each approval once and cancels no turn with a pending approval,
answered approvals keep their status and pending ones name a waiting turn. -/
theorem approvals_final (host : HostInfo) (sandbox : ShellSandboxRequest) (stores : RuntimeStores)
    (inputs : List ServerInput)
    (hsteps : Runs.AllSteps AppServer.step DecidesOnce (AppServer.new host sandbox stores) inputs) :
    (Runs.states AppServer.step (AppServer.new host sandbox stores) inputs).Pairwise
        DecisionsKept ∧
      ∀ s ∈ Runs.states AppServer.step (AppServer.new host sandbox stores) inputs,
        PendingWait s.runtime := by
  have hnew : Orderly (AppServer.new host sandbox stores).runtime ∧
      PendingWait (AppServer.new host sandbox stores).runtime := by
    refine ⟨orderly_new host sandbox stores, fun id approval hfound => ?_⟩
    rw [approvals_new, AList.lookup_empty] at hfound
    exact absurd hfound (by simp)
  have hkept : ∀ (s : AppServer) (input : ServerInput),
      (Orderly s.runtime ∧ PendingWait s.runtime) → DecidesOnce s input →
      (Orderly (s.step input).runtime ∧ PendingWait (s.step input).runtime) :=
    fun s input h honce => ⟨orderly_step h.1 input, pendingWait_step h.1 h.2 honce⟩
  refine ⟨(Runs.pairwise DecisionsKept.refl DecisionsKept.trans hkept ?_ hnew hsteps).2,
    fun s hs => (Runs.invariant hkept hnew hsteps s hs).2⟩
  exact fun s input h honce => decisionsKept_step h.1 honce

end Steps

/-! ### An approval that is answered twice

The turn is approved and runs to its end; the denial that comes afterwards turns the approval
around. -/

/-- The status of the approval that the deletion asks for. -/
def AppServer.deletionStatus (server : AppServer) : Option ApprovalStatus :=
  (server.runtime.approvals.lookup "approval_0_3").map ApprovalRequest.status

theorem deletionStatus_eq {server : AppServer} {approval : ApprovalRequest}
    (h : server.runtime.approvals.lookup "approval_0_3" = some approval) :
    server.deletionStatus = some approval.status := by
  rw [AppServer.deletionStatus, h, Option.map_some]

def askedServer : AppServer := @AppServer.step plainWorld oneThreadServer deletionInput

def approvedServer : AppServer :=
  @AppServer.step plainWorld askedServer (respondInput .approveOnce [plainAnswer "Done."])

def deniedServer : AppServer := @AppServer.step plainWorld approvedServer (respondInput .deny [])

theorem approvals_final_of_one_answer :
    (Runs.states (@AppServer.step plainWorld) oneThreadServer
        [deletionInput, respondInput .approveOnce [plainAnswer "Done."]]).Pairwise DecisionsKept ∧
      ∀ s ∈ Runs.states (@AppServer.step plainWorld) oneThreadServer
          [deletionInput, respondInput .approveOnce [plainAnswer "Done."]],
        PendingWait s.runtime := by
  have hask : @DecidesOnce plainWorld oneThreadServer deletionInput :=
    @DecidesOnce.mk plainWorld _ _ (fun _ _ hrequest => nomatch hrequest)
      (fun _ _ _ hrequest => nomatch hrequest)
  have happrove : @DecidesOnce plainWorld askedServer
      (respondInput .approveOnce [plainAnswer "Done."]) := by
    refine @DecidesOnce.mk plainWorld _ _ ?_ (fun _ _ _ hrequest => nomatch hrequest)
    intro request approval hrequest hfound
    obtain rfl := ClientRequest.approvalRespond.inj hrequest
    have hpending : askedServer.deletionStatus = some .pending := by decide +kernel
    rw [deletionStatus_eq hfound] at hpending
    exact Or.inl (Option.some.inj hpending)
  exact @approvals_final plainWorld { os := "linux", hostname := none }
    { mode := .workspaceWrite, networkAccess := .restricted } oneThreadStores
    [deletionInput, respondInput .approveOnce [plainAnswer "Done."]] ⟨hask, happrove, trivial⟩

theorem approval_answered_twice :
    ¬ ∀ (world : World) (host : HostInfo) (sandbox : ShellSandboxRequest) (stores : RuntimeStores)
      (inputs : List ServerInput),
      (Runs.states (@AppServer.step world) (@AppServer.new world.toDisk host sandbox stores)
          inputs).Pairwise DecisionsKept ∧
        ∀ s ∈ Runs.states (@AppServer.step world) (@AppServer.new world.toDisk host sandbox stores)
          inputs, PendingWait s.runtime := by
  intro hclaim
  have hpairwise : [oneThreadServer, askedServer, approvedServer, deniedServer].Pairwise
      DecisionsKept :=
    (hclaim plainWorld { os := "linux", hostname := none }
      { mode := .workspaceWrite, networkAccess := .restricted } oneThreadStores
      [deletionInput, respondInput .approveOnce [plainAnswer "Done."], respondInput .deny []]).1
  have hkept : DecisionsKept approvedServer deniedServer := by
    simp only [List.pairwise_cons, List.forall_mem_cons] at hpairwise
    exact hpairwise.2.2.1.1
  have happroved : approvedServer.deletionStatus = some .approved := by decide +kernel
  have hdenied : deniedServer.deletionStatus = some .denied := by decide +kernel
  obtain ⟨approval, hfound, hstatus⟩ := Option.map_eq_some_iff.mp happroved
  obtain ⟨later, hlater, hsame⟩ := hkept "approval_0_3" approval hfound (by simp [hstatus])
  rw [deletionStatus_eq hlater, hsame, hstatus] at hdenied
  exact absurd hdenied (by decide)

end Liz
