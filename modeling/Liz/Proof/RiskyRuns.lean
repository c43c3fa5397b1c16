import Liz.Proof.Lifecycle

/-!
# No risky turn runs unapproved

A turn whose input needs approval is not run when it is started, and afterwards nothing but an
approving answer to an approval that names it makes the server run it: every other request runs the
turns it starts itself, or none.
-/

namespace Liz

open Program

/-- The input answers an approval of the turn, and not with a denial. -/
def Approves (s : AppServer) (input : ServerInput) (turnId : TurnId) : Prop :=
  ∃ request approval, input.request = .approvalRespond request ∧ request.decision ≠ .deny ∧
    s.runtime.approvals.lookup request.approvalId = some approval ∧ approval.turnId = turnId

/-- The model has been called for the turn, or has executed a tool for it. -/
def HasRun (s : AppServer) (turnId : TurnId) : Prop :=
  ∃ observation ∈ s.trace, observation.runs = some turnId

/-- A turn that runs in the part of the trace that was added is one of those that may run there. -/
theorem Adds.hasRun {R : TurnId → Prop} {s t : AppServer} {turnId : TurnId} (h : RunsOnly R s t)
    (hrun : HasRun t turnId) : HasRun s turnId ∨ R turnId := by
  obtain ⟨more, hmore, hruns⟩ := h
  obtain ⟨observation, hobservation, hid⟩ := hrun
  rw [hmore] at hobservation
  rcases List.mem_append.mp hobservation with hbefore | hadded
  · exact Or.inl ⟨observation, hbefore, hid⟩
  · exact Or.inr (hruns observation hadded turnId hid)

section Runs

variable [World]

/-- What one request makes run: a turn it has started, or one it approves. -/
theorem hasRun_step {s : AppServer} (h : Orderly s.runtime) {input : ServerInput} {turnId : TurnId}
    (hrun : HasRun (s.step input) turnId) :
    HasRun s turnId ∨ Approves s input turnId ∨
      (¬ s.runtime.ids.Issued turnId ∧ (s.step input).runtime.ids.Issued turnId) := by
  obtain ⟨request, answers⟩ := input
  have heffect : StepEffect s (s.step ⟨request, answers⟩) request := step_effect h.filed _
  cases heffect with
  | idle hworks => exact Or.inl ((hworks.trace.hasRun hrun).resolve_right id)
  | cancelled hworks => exact Or.inl ((hworks.trace.hasRun hrun).resolve_right id)
  | started hbegins hcontinues =>
      cases hcontinues with
      | worked hworks =>
          rcases hworks.trace.hasRun hrun with hm | ⟨rfl, -⟩
          · exact Or.inl ((hbegins.trace.hasRun hm).resolve_right id)
          · exact Or.inr (Or.inr ⟨hbegins.starts.fresh,
              hbegins.starts.issued.mono hworks.turns.sequence⟩)
      | asked approval hasks htrace =>
          have hm := (htrace.hasRun hrun).resolve_right id
          exact Or.inl ((hbegins.trace.hasRun hm).resolve_right id)
  | answered hanswers hworks =>
      rcases hworks.trace.hasRun hrun with hm | ⟨rfl, hdecision⟩
      · exact Or.inl ((hanswers.trace.hasRun hm).resolve_right id)
      · exact Or.inr (Or.inl ⟨_, _, rfl, hdecision, hanswers.found, rfl⟩)

theorem sequence_step {s : AppServer} (h : Orderly s.runtime) (input : ServerInput) :
    s.runtime.ids.sequence ≤ (s.step input).runtime.ids.sequence := by
  obtain ⟨request, answers⟩ := input
  have heffect : StepEffect s (s.step ⟨request, answers⟩) request := step_effect h.filed _
  cases heffect with
  | idle hworks => exact hworks.turns.sequence
  | cancelled hworks => exact hworks.turns.sequence
  | started hbegins hcontinues =>
      cases hcontinues with
      | worked hworks => exact hbegins.starts.sequence.trans hworks.turns.sequence
      | asked approval hasks => exact hbegins.starts.sequence.trans hasks.turns.sequence
  | answered hanswers hworks =>
      have hm := hworks.turns.sequence
      rwa [hanswers.runtime] at hm

/-- The ledger is in order and the turns that have run are known to the generator. -/
structure Accounted (s : AppServer) : Prop where
  orderly : Orderly s.runtime
  runsIssued : ∀ turnId, HasRun s turnId → s.runtime.ids.Issued turnId

theorem accounted_step {s : AppServer} (h : Accounted s) (input : ServerInput) :
    Accounted (s.step input) := by
  refine ⟨orderly_step h.orderly input, fun turnId hrun => ?_⟩
  have hsequence := sequence_step h.orderly input
  rcases hasRun_step h.orderly hrun with hbefore | happroves | ⟨-, hissued⟩
  · exact (h.runsIssued turnId hbefore).mono hsequence
  · obtain ⟨request, approval, -, -, hfound, rfl⟩ := happroves
    exact (h.orderly.approvalsIssued _ approval hfound).2.mono hsequence
  · exact hissued

theorem accounted_final (host : HostInfo) (sandbox : ShellSandboxRequest) (stores : RuntimeStores)
    (inputs : List ServerInput) :
    Accounted (Runs.final AppServer.step (AppServer.new host sandbox stores) inputs) := by
  have hnew : Accounted (AppServer.new host sandbox stores) := by
    refine ⟨orderly_new host sandbox stores, ?_⟩
    rintro turnId ⟨observation, hobservation, -⟩
    exact absurd hobservation List.not_mem_nil
  have hall : ∀ s ∈ Runs.states AppServer.step (AppServer.new host sandbox stores) inputs,
      Accounted s :=
    Runs.invariant (fun _ input h _ => accounted_step h input) hnew (Runs.allSteps_true _ inputs)
  exact hall _ (Runs.final_mem_states _ inputs)

/-- A turn that the generator knows and that has not run stays so while nothing approves it. -/
theorem not_hasRun_final {turnId : TurnId} {s : AppServer} {inputs : List ServerInput}
    (horderly : Orderly s.runtime) (hissued : s.runtime.ids.Issued turnId)
    (hrun : ¬ HasRun s turnId)
    (hsteps : Runs.AllSteps AppServer.step (fun s input => ¬ Approves s input turnId) s inputs) :
    ¬ HasRun (Runs.final AppServer.step s inputs) turnId := by
  have hkept : ∀ (s : AppServer) (input : ServerInput),
      (Orderly s.runtime ∧ s.runtime.ids.Issued turnId ∧ ¬ HasRun s turnId) →
      ¬ Approves s input turnId →
      (Orderly (s.step input).runtime ∧ (s.step input).runtime.ids.Issued turnId ∧
        ¬ HasRun (s.step input) turnId) := by
    rintro s input ⟨horderly, hissued, hrun⟩ happroves
    refine ⟨orderly_step horderly input, hissued.mono (sequence_step horderly input),
      fun hafter => ?_⟩
    rcases hasRun_step horderly hafter with hbefore | happroved | ⟨hfresh, -⟩
    · exact hrun hbefore
    · exact happroves happroved
    · exact hfresh hissued
  exact (Runs.invariant hkept ⟨horderly, hissued, hrun⟩ hsteps _
    (Runs.final_mem_states s inputs)).2.2

/-- A risky turn that was started on request and has run was approved before. -/
theorem risky_run_approved (host : HostInfo) (sandbox : ShellSandboxRequest)
    (stores : RuntimeStores) (earlier later : List ServerInput) (request : TurnStartRequest)
    (answers : List GatewayAnswer) (turn : Turn) (context : AssembledContext) (server : AppServer)
    (hserver : server = Runs.final AppServer.step (AppServer.new host sandbox stores) earlier)
    (hpolicy : server.approvalPolicy = .onRequest)
    (hrisky : (evaluatePolicy request.input context).requiresApproval = true)
    (hstart : server.response ⟨.turnStart request, answers⟩ = some (.success (.turnStart turn)))
    (hrun : HasRun (Runs.final AppServer.step (server.step ⟨.turnStart request, answers⟩) later)
      turn.id) :
    ∃ before input rest, later = before ++ input :: rest ∧
      Approves (Runs.final AppServer.step (server.step ⟨.turnStart request, answers⟩) before) input
        turn.id := by
  subst hserver
  rw [requiresApproval_eq] at hrisky
  have haccounted := accounted_final host sandbox stores earlier
  generalize Runs.final AppServer.step (AppServer.new host sandbox stores) earlier = server at *
  have hnext := orderly_step haccounted.orderly ⟨.turnStart request, answers⟩
  have hspec := wp_of_result (handleRequest_turnStart request answers server) hstart
  have hbegun : (server.step ⟨.turnStart request, answers⟩).runtime.ids.Issued turn.id ∧
      ¬ HasRun (server.step ⟨.turnStart request, answers⟩) turn.id := by
    rcases hspec with ⟨started, m, hresponse, hbegins, hcontinues⟩ | ⟨hno, -⟩
    · obtain rfl : turn = started := by simpa using hresponse
      have hm : ¬ HasRun m turn.id := fun h =>
        hbegins.starts.fresh
          (haccounted.runsIssued _ ((hbegins.trace.hasRun h).resolve_right id))
      cases hcontinues with
      | worked hworks =>
          refine ⟨hbegins.starts.issued.mono hworks.turns.sequence, fun h => ?_⟩
          rcases hworks.trace.hasRun h with hbefore | ⟨-, hmay⟩
          · exact hm hbefore
          · exact hmay ⟨hpolicy, hrisky⟩
      | asked approval hasks htrace =>
          refine ⟨hbegins.starts.issued.mono hasks.turns.sequence, fun h => ?_⟩
          exact hm ((htrace.hasRun h).resolve_right id)
    · exact absurd rfl (hno turn)
  have hnotall : ¬ Runs.AllSteps AppServer.step (fun s input => ¬ Approves s input turn.id)
      (server.step ⟨.turnStart request, answers⟩) later := fun hall =>
    not_hasRun_final hnext hbegun.1 hbegun.2 hall hrun
  obtain ⟨before, input, rest, hsplit, happroves⟩ := Runs.exists_split_of_not_allSteps hnotall
  exact ⟨before, input, rest, hsplit, not_not.mp happroves⟩

end Runs

/-! ### An approved deletion -/

def deleteTurn : Turn :=
  Turn.started "turn_0_1" "unix:0.000000000" (Thread.blank "thread_0_1") (turnRequest "delete .env")

theorem risky_run_approved_of_deletion :
    ∃ before input rest, [respondInput .approveOnce [plainAnswer "Done."]] = before ++ input :: rest ∧
      Approves (Runs.final (@AppServer.step plainWorld)
        (@AppServer.step plainWorld oneThreadServer deletionInput) before) input deleteTurn.id := by
  have hstarted : (@AppServer.response plainWorld oneThreadServer deletionInput).bind
      ServerResponse.startedTurn = some deleteTurn := by decide +kernel
  obtain ⟨response, hresponse, hturn⟩ := Option.bind_eq_some_iff.mp hstarted
  have hruns : (Runs.final (@AppServer.step plainWorld)
      (@AppServer.step plainWorld oneThreadServer deletionInput)
      [respondInput .approveOnce [plainAnswer "Done."]]).trace.any
        (fun observation => observation.runs == some deleteTurn.id) = true := by decide +kernel
  obtain ⟨observation, hobservation, hid⟩ := List.any_eq_true.mp hruns
  refine @risky_run_approved plainWorld { os := "linux", hostname := none }
    { mode := .workspaceWrite, networkAccess := .restricted } oneThreadStores []
    [respondInput .approveOnce [plainAnswer "Done."]] (turnRequest "delete .env") [] deleteTurn
    (@assemble asciiTable .empty (Thread.blank "thread_0_1") [] "delete .env" none none)
    oneThreadServer rfl rfl ?_ ?_ ⟨observation, hobservation, by simpa using hid⟩
  · rw [requiresApproval_eq]
    decide +kernel
  · exact ServerResponse.startedTurn_eq_some.mp hturn ▸ hresponse

end Liz
