import Liz.Proof.Disclosure
import Liz.Proof.TurnWork
import Liz.Runtime.MemoryEngine

/-!
# What a turn was allowed to do

A turn request says in its interaction context whether work may be started, tools may be called and
memory may be written. The server passes the context on to the prompts and to the check of the output
and asks it for nothing else, so a turn keeps to its authority only where it does not come to what is
forbidden.
-/

namespace Liz

open Program

/-! ### Permissions -/

inductive Permission
  | startWork | callTools | writeMemory
  deriving DecidableEq, Repr

def AuthorityScope.grants (authority : AuthorityScope) : Permission → Bool
  | .startWork => authority.canStartWork
  | .callTools => authority.canCallTools
  | .writeMemory => authority.canWriteMemory

/-- Nothing has been done from one state to the other that takes the permission. -/
def Permission.Unused (s t : AppServer) : Permission → Prop
  | startWork => modelRequests t = modelRequests s
  | callTools => modelExecutions t = modelExecutions s
  | writeMemory => knowledge t.runtime.stores = knowledge s.runtime.stores

section Runs

variable [World]

/-- The pass of memory compilation writes what is remembered already, if it writes at all. -/
def Boundary.LeavesKnowledge (boundary : Boundary) : Prop :=
  ∀ file ∈ (World.compileMemory boundary.server.runtime.stores boundary.server.runtime.ids
      boundary.threadId).memoryFile,
    knowledge { boundary.server.runtime.stores with globalMemory := some file } =
      knowledge boundary.server.runtime.stores

/-- The request does not come to what takes the permission: no turn is run at the model; no call of
the model is well formed and has its scope on the local node; the boundary of the work adds nothing
to memory. -/
def AppServer.Forgoes (s : AppServer) (input : ServerInput) : Permission → Prop
  | .startWork => ∀ work ∈ s.work input.request, work.isTurn = false
  | .callTools => ∀ moment ∈ s.toolCallMoments input,
      moment.toolCall.Parses → (scopeOf moment.server moment.threadId).1 ≠ "local"
  | .writeMemory => ∀ boundary ∈ (s.work input.request).bind (Work.boundary input.answers),
      boundary.LeavesKnowledge

/-! ### The server and the authorities of its turns -/

/-- A server, and under which authority its turns have been started. -/
structure GrantedServer where
  server : AppServer
  grants : Table TurnId AuthorityScope

namespace GrantedServer

def new (host : HostInfo) (sandbox : ShellSandboxRequest) (stores : RuntimeStores) :
    GrantedServer :=
  { server := .new host sandbox stores, grants := ∅ }

/-- The turn that a request works on when it has succeeded. -/
def workedTurn : ClientRequest → ServerResponse → Option TurnId
  | .turnStart _, .success (.turnStart turn) => some turn.id
  | .turnCancel request, .success _ => some request.turnId
  | .approvalRespond _, .success (.approvalRespond approval) => some approval.turnId
  | _, _ => none

/-- The authority under which a request starts a turn. -/
def newGrant : ClientRequest → ServerResponse → Option (TurnId × AuthorityScope)
  | .turnStart request, .success (.turnStart turn) =>
      request.interactionContext.map fun context => (turn.id, context.authority)
  | _, _ => none

/-- The authorities, with the one of the turn that the request starts. -/
def granted (g : GrantedServer) (request : ClientRequest) : Table TurnId AuthorityScope :=
  match (result (dispatched request) g.server).bind (newGrant request) with
  | some (turnId, authority) => g.grants.insert turnId authority
  | none => g.grants

/-- The authority of the turn that the request works on. -/
def authority (g : GrantedServer) (request : ClientRequest) : Option AuthorityScope :=
  ((result (dispatched request) g.server).bind (workedTurn request)).bind
    fun turnId => (g.granted request).lookup turnId

def step (g : GrantedServer) (input : ServerInput) : GrantedServer :=
  { server := g.server.step input, grants := g.granted input.request }

/-- Where the authority of the turn withholds the permission, the request does nothing that takes
it. -/
def Enforces (permission : Permission) (g : GrantedServer) (input : ServerInput) : Prop :=
  ∀ authority ∈ g.authority input.request, authority.grants permission = false →
    permission.Unused g.server (g.server.step input)

/-- Where the authority of the turn withholds the permission, the request does not come to what
takes it. -/
def Heeds (permission : Permission) (g : GrantedServer) (input : ServerInput) : Prop :=
  ∀ authority ∈ g.authority input.request, authority.grants permission = false →
    g.server.Forgoes input permission

end GrantedServer

/-! ### One request -/

/-- The pass leaves what is remembered alone exactly when it writes that again or nothing. -/
theorem Boundary.knowledge_finish_iff (boundary : Boundary) :
    knowledge boundary.finish.runtime.stores = knowledge boundary.server.runtime.stores ↔
      boundary.LeavesKnowledge := by
  rw [boundary.knowledge_finish, LeavesKnowledge]
  generalize World.compileMemory boundary.server.runtime.stores boundary.server.runtime.ids
    boundary.threadId = pass
  cases hfile : pass.memoryFile with
  | none =>
      have hsame : knowledge (boundary.server.afterMemoryPass pass).runtime.stores =
          knowledge boundary.server.runtime.stores := by
        unfold AppServer.afterMemoryPass
        rw [hfile]
        rfl
      simp [hsame]
  | some file =>
      have hwritten : knowledge (boundary.server.afterMemoryPass pass).runtime.stores =
          knowledge { boundary.server.runtime.stores with globalMemory := some file } := by
        unfold AppServer.afterMemoryPass
        rw [hfile]
        rfl
      simp [hwritten]

omit [World] in
theorem GrantedServer.succeeded_of_workedTurn {request : ClientRequest} {response : ServerResponse}
    {turnId : TurnId} (h : workedTurn request response = some turnId) :
    request.ordinary = false ∧ ∃ payload, response = .success payload := by
  unfold workedTurn at h
  split at h
  · exact ⟨rfl, _, rfl⟩
  · exact ⟨rfl, _, rfl⟩
  · exact ⟨rfl, _, rfl⟩
  · exact absurd h.symm (Option.some_ne_none _)

/-- A request about a turn that has succeeded goes on to its work. -/
theorem step_arrives {s : AppServer} {input : ServerInput} {turnId : TurnId}
    (h : (result (dispatched input.request) s).bind (GrantedServer.workedTurn input.request) =
      some turnId) :
    ∃ t, Unmoved s t ∧ Arrives Undisturbed Work.server (Work.finish input.answers) t (s.step input)
      (s.work input.request) := by
  obtain ⟨response, hresponse, hworked⟩ := Option.bind_eq_some_iff.mp h
  obtain ⟨hordinary, payload, hpayload⟩ := GrantedServer.succeeded_of_workedTurn hworked
  have hunmoved := dispatched_unmoved hordinary s
  have hafter := LeadsTo.bind_pure (a := response)
    (continueAfter_comesTo input.answers input.request response)
  unfold AppServer.step AppServer.work leading
  rw [handleRequest_eq, after_bind]
  unfold result at hresponse
  unfold wp at hunmoved
  cases hrun : dispatched input.request s with
  | ok given t =>
      rw [hrun] at hresponse hunmoved
      obtain rfl : given = response := Option.some.inj hresponse
      exact ⟨t, hunmoved payload hpayload, hafter t⟩
  | error e t =>
      rw [hrun] at hresponse
      exact absurd hresponse (Option.some_ne_none _).symm

/-- A request calls the model exactly when it comes to a turn. -/
theorem unused_startWork_iff {s : AppServer} {input : ServerInput} {turnId : TurnId}
    (h : (result (dispatched input.request) s).bind (GrantedServer.workedTurn input.request) =
      some turnId) :
    Permission.startWork.Unused s (s.step input) ↔ s.Forgoes input .startWork := by
  obtain ⟨t, hunmoved, harrives⟩ := step_arrives h
  show modelRequests (s.step input) = modelRequests s ↔
    ∀ work ∈ s.work input.request, work.isTurn = false
  cases hwork : s.work input.request with
  | none =>
      rw [hwork] at harrives
      have hsame : modelRequests (s.step input) = modelRequests s :=
        harrives.requests.trans hunmoved.requests
      exact iff_of_true hsame fun _ hno => nomatch hno
  | some work =>
      rw [hwork] at harrives
      obtain ⟨hbefore, hstep⟩ := harrives
      have hsame : modelRequests work.server = modelRequests s :=
        hbefore.requests.trans hunmoved.requests
      rw [hstep, ← hsame]
      cases work with
      | turn started =>
          apply iff_of_false (started.requests_ne input.answers)
          intro hno
          exact absurd (hno _ rfl) Bool.true_eq_false.mp
      | compilation boundary =>
          apply iff_of_true boundary.requests_eq
          intro work hmem
          rw [← Option.some.inj hmem]
          rfl

/-- A request executes a tool for the model exactly when it comes to a call that can be executed. -/
theorem unused_callTools_iff (s : AppServer) (input : ServerInput) :
    Permission.callTools.Unused s (s.step input) ↔ s.Forgoes input .callTools := by
  show modelExecutions (s.step input) = modelExecutions s ↔ ∀ moment ∈ s.toolCallMoments input,
    moment.toolCall.Parses → (scopeOf moment.server moment.threadId).1 ≠ "local"
  have hexecuted : ∀ moment : ToolCallMoment, moment.executed = [] ↔
      (moment.toolCall.Parses → (scopeOf moment.server moment.threadId).1 ≠ "local") := by
    intro moment
    rw [moment.executed_eq, ProviderToolCall.Parses]
    cases parseToolInvocation moment.toolCall.toolName moment.toolCall.arguments with
    | error message => exact iff_of_true rfl fun hno => absurd hno (by simp)
    | ok invocation =>
        by_cases hlocal : (scopeOf moment.server moment.threadId).1 = "local"
        · simp [hlocal]
        · simp [hlocal]
  rw [step_executesAt, List.append_right_eq_self, List.flatMap_eq_nil_iff]
  exact forall₂_congr fun moment _ => hexecuted moment

/-- A request changes what is remembered exactly when its boundary does. -/
theorem unused_writeMemory_iff {s : AppServer} {input : ServerInput} {turnId : TurnId}
    (h : (result (dispatched input.request) s).bind (GrantedServer.workedTurn input.request) =
      some turnId) :
    Permission.writeMemory.Unused s (s.step input) ↔ s.Forgoes input .writeMemory := by
  obtain ⟨t, hunmoved, harrives⟩ := step_arrives h
  have hfile : Arrives KeepsFile Work.server (Work.finish input.answers) t (s.step input)
      (s.work input.request) := harrives.mono fun _ _ hsame => hsame.memory
  have hboundary : Arrives KeepsFile Boundary.server Boundary.finish t (s.step input)
      ((s.work input.request).bind (Work.boundary input.answers)) :=
    hfile.onward KeepsFile.trans (Work.arrives input.answers)
  show knowledge (s.step input).runtime.stores = knowledge s.runtime.stores ↔
    ∀ boundary ∈ (s.work input.request).bind (Work.boundary input.answers),
      boundary.LeavesKnowledge
  rw [← hunmoved.knowledge]
  cases hplace : (s.work input.request).bind (Work.boundary input.answers) with
  | none =>
      rw [hplace] at hboundary
      have hkept : KeepsFile t (s.step input) := hboundary
      exact iff_of_true hkept.knowledge_eq fun _ hno => nomatch hno
  | some boundary =>
      rw [hplace] at hboundary
      obtain ⟨hbefore, hstep⟩ := hboundary
      rw [hstep, ← hbefore.knowledge_eq, boundary.knowledge_finish_iff]
      exact ⟨fun hleaves _ hmem => Option.some.inj hmem ▸ hleaves, fun hall => hall _ rfl⟩

end Runs

/-! ### A stranger's turn -/

/-- What the memory engine leaves behind, without a model. -/
def enginePass (stores : RuntimeStores) (ids : IdGenerator) (threadId : ThreadId) : MemoryPass :=
  let compile := @compileThread calmDisk stoppedClock asciiTable threadId
  let runtime : TurnRuntime := { stores := stores, ids := ids, turnManager := .default }
  let ended := after compile runtime
  { compilation := result compile runtime
    memoryFile := ended.stores.globalMemory
    operations := ended.stores.operations - stores.operations
    identifiers := ended.ids.sequence - ids.sequence
    readings := ended.ids.readings - ids.readings
    dreaming := none }

/-- The plain world with the memory engine. -/
@[reducible] def engineWorld : World := { plainWorld with compileMemory := enginePass }

/-- A stranger without any authority has the assistant list a directory. -/
def strangerInput : ServerInput :=
  { listingInput with
    request := .turnStart
      { turnRequest "What is here?" with interactionContext := some (visitor .stranger) } }

/-- The server before the turn. -/
def strangerServer : GrantedServer :=
  @GrantedServer.new engineWorld { os := "linux", hostname := none }
    { mode := .workspaceWrite, networkAccess := .restricted } oneThreadStores

/-- The server after the turn. -/
def strangerTurn : AppServer := @AppServer.step engineWorld strangerServer.server strangerInput

/-- In every run of every server the turns keep to the permission. -/
def Permission.AlwaysEnforced (permission : Permission) : Prop :=
  ∀ (world : World) (host : HostInfo) (sandbox : ShellSandboxRequest) (stores : RuntimeStores)
    (inputs : List ServerInput), Runs.AllSteps (@GrantedServer.step world)
      (@GrantedServer.Enforces world permission) (@GrantedServer.new world host sandbox stores) inputs

theorem Permission.AlwaysEnforced.unused {permission : Permission} (h : permission.AlwaysEnforced)
    (hwithheld : (visitor .stranger).authority.grants permission = false) :
    permission.Unused strangerServer.server strangerTurn := by
  have hauthority : @GrantedServer.authority engineWorld strangerServer strangerInput.request =
      some (visitor .stranger).authority := by decide +kernel
  have hsteps := h engineWorld { os := "linux", hostname := none }
    { mode := .workspaceWrite, networkAccess := .restricted } oneThreadStores [strangerInput]
  exact hsteps.1 _ hauthority hwithheld

end Liz
