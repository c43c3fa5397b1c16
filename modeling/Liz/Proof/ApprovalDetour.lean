import Liz.Proof.Disclosure
import Liz.Proof.Lifecycle
import Liz.Proof.MemoryFile

/-!
# The run after an approval and the run without one

A turn that needs no approval is run with the input, the participant and the interaction context of
its request. A turn that has been approved is run with what it remembers, and that is its goal: the
input without the white space around it. The two runs are the same where the request carries nothing
else that matters.
-/

namespace Liz

open Program

/-! ### What a run is prepared from -/

/-- What the prompts of a run are assembled for, and what its output is checked for. -/
structure RunSetup where
  input : String
  participant : Option ParticipantRef
  interactionContext : Option InteractionContext
  outputContext : Option InteractionContext

def RunSetup.direct (request : TurnStartRequest) : RunSetup :=
  { input := request.input
    participant := request.participant
    interactionContext := request.interactionContext
    outputContext := request.interactionContext }

def RunSetup.afterApproval (request : TurnStartRequest) : RunSetup :=
  { input := Text.trim request.input, participant := none, interactionContext := none
    outputContext := none }

/-- The call of the model has the prompts that are assembled for the setup from the memory. -/
structure Prepared [Unicode] (memory : GlobalMemorySnapshot) (setup : RunSetup)
    (request : ModelTurnRequest) (outputContext : Option InteractionContext) : Prop where
  userPrompt : request.userPrompt = setup.input
  prompts : ∃ thread log,
    request.systemPrompt = (assemble memory thread log setup.input setup.participant
      setup.interactionContext).systemPrompt ∧
    request.developerPrompt = (assemble memory thread log setup.input setup.participant
      setup.interactionContext).developerPrompt
  outputContext : outputContext = setup.outputContext

/-- Whatever the thread, its log and the input are, the prompts are the same for both setups. -/
def SameFiltering [Unicode] (memory : GlobalMemorySnapshot) (setup other : RunSetup) : Prop :=
  ∀ thread log input,
    let context := assemble memory thread log input setup.participant setup.interactionContext
    let context' := assemble memory thread log input other.participant other.interactionContext
    context.systemPrompt = context'.systemPrompt ∧
      context.developerPrompt = context'.developerPrompt

/-- The request carries nothing that matters beside what the turn remembers. -/
structure Remembered (memory : GlobalMemorySnapshot) (request : TurnStartRequest) : Prop where
  input : Text.trim request.input = request.input
  interactionContext : request.interactionContext = none
  participant : ∀ participant ∈ request.participant,
    participant.externalParticipantId ≠ "owner" ∧
      (memory.relationships.find? fun entry =>
        entry.personId == participant.externalParticipantId) = none

/-! ### Relationships and prompts -/

section Filtering

variable [Unicode] {memory : GlobalMemorySnapshot} {relationship other : RelationshipContext}

/-- The developer prompt ends with the role and a text that is the same for every role. -/
theorem developerPrompt_endsWith_role : ∃ ending, ∀ relationship : RelationshipContext,
    ∀ memory thread log input, ∃ front,
      (assembleFor relationship memory thread log input).developerPrompt =
        front ++ relationship.role.label ++ ending := by
  refine ⟨"\nPolicy and filtering already decided what context is available. Treat this role as the current social or operational position of the same liz self, not a persona switch.", ?_⟩
  intro relationship memory thread log input
  generalize hlayers : assembleLayers memory thread log input relationship = layers
  unfold assembleFor renderDeveloperPrompt lizInteractionRoleInjection
  dsimp only
  rw [hlayers, ← String.append_assoc, ← String.append_assoc]
  exact ⟨_, rfl⟩

/-- The last letter of a role tells the roles apart that a participant can have. -/
theorem role_getLast_eq {thread : Thread} {log : List TurnLogEntry} {input : String}
    (h : (assembleFor relationship memory thread log input).developerPrompt =
      (assembleFor other memory thread log input).developerPrompt) :
    relationship.role.label.toList.getLast? = other.role.label.toList.getLast? := by
  have hlabel : ∀ role : InteractionRole, (role.label.toList.getLast?).isSome := fun role => by
    cases role <;> rfl
  obtain ⟨ending, hending⟩ := developerPrompt_endsWith_role
  obtain ⟨front, hfront⟩ := hending relationship memory thread log input
  obtain ⟨front', hfront'⟩ := hending other memory thread log input
  rw [hfront, hfront', String.append_left_inj] at h
  have hlast := congrArg (fun text : String => text.toList.getLast?) h
  simpa only [String.toList_append, List.getLast?_append, Option.or_of_isSome (hlabel _)] using hlast

/-- A stranger is filtered in the same way whatever the name. -/
theorem assembleFor_of_stranger (name : String) (h : relationship.trustLevel = .stranger)
    (thread : Thread) (log : List TurnLogEntry) (input : String) :
    (assembleFor { relationship with participantName := name } memory thread log
        input).systemPrompt = (assembleFor relationship memory thread log input).systemPrompt ∧
      (assembleFor { relationship with participantName := name } memory thread log
        input).developerPrompt =
          (assembleFor relationship memory thread log input).developerPrompt := by
  have hinjection : lizRelationshipStanceInjection { relationship with participantName := name } =
      lizRelationshipStanceInjection relationship := by
    simp only [lizRelationshipStanceInjection, h]
  refine ⟨rfl, ?_⟩
  unfold assembleFor renderDeveloperPrompt
  dsimp only
  rw [hinjection]
  rfl

/-- The setups of the two runs have the same prompts exactly when the participant is no one the
owner has told about. -/
theorem sameFiltering_iff {request : TurnStartRequest} (hcontext : request.interactionContext = none) :
    SameFiltering memory (.afterApproval request) (.direct request) ↔
      ∀ participant ∈ request.participant, participant.externalParticipantId ≠ "owner" ∧
        (memory.relationships.find? fun entry =>
          entry.personId == participant.externalParticipantId) = none := by
  unfold SameFiltering assemble RunSetup.afterApproval RunSetup.direct
  dsimp only
  rw [hcontext]
  constructor
  · intro hsame participant hparticipant
    rw [Option.mem_def] at hparticipant
    have hrole := role_getLast_eq (hsame (Thread.blank "thread_0_1") [] "").2
    rw [hparticipant] at hrole
    unfold resolveRelationship at hrole
    dsimp only at hrole
    have hrepresentative : ∀ role : InteractionRole, InteractionRole.publicRepresentative.label.toList.getLast? =
        role.label.toList.getLast? → role ≠ .privateCompanion ∧ role ≠ .groupParticipant := by
      intro role hlast
      constructor <;> rintro rfl <;> exact absurd hlast (by decide)
    split at hrole
    · exact absurd rfl (hrepresentative _ hrole).1
    · next howner =>
        split at hrole
        · exact absurd rfl (hrepresentative _ hrole).2
        · next hfind => exact ⟨howner, hfind⟩
  · intro hunknown thread log input
    cases hparticipant : request.participant with
    | none => exact ⟨rfl, rfl⟩
    | some participant =>
        obtain ⟨howner, hfind⟩ := hunknown participant hparticipant
        have hresolved : resolveRelationship memory (some participant) none =
            { resolveRelationship memory none none with
              participantName :=
                participant.displayName.getD participant.externalParticipantId } := by
          simp only [resolveRelationship, if_neg howner, hfind]
        rw [hresolved]
        have hstranger : (resolveRelationship memory none none).trustLevel = .stranger := rfl
        obtain ⟨hsystem, hdeveloper⟩ := @assembleFor_of_stranger _ memory _
          (participant.displayName.getD participant.externalParticipantId) hstranger thread log input
        exact ⟨hsystem.symm, hdeveloper.symm⟩

/-- What the detour changes of a run, if anything. -/
theorem sameRun_iff (memory : GlobalMemorySnapshot) (request : TurnStartRequest) :
    ((RunSetup.afterApproval request).input = (RunSetup.direct request).input ∧
        SameFiltering memory (.afterApproval request) (.direct request) ∧
        (RunSetup.afterApproval request).outputContext = (RunSetup.direct request).outputContext) ↔
      Remembered memory request := by
  constructor
  · rintro ⟨hinput, hsame, houtput⟩
    exact ⟨hinput, houtput.symm, (sameFiltering_iff houtput.symm).mp hsame⟩
  · rintro ⟨hinput, hcontext, hparticipant⟩
    exact ⟨hinput, (sameFiltering_iff hcontext).mpr hparticipant, hcontext.symm⟩

end Filtering

/-! ### The memory a run reads -/

/-- What the memory file reads as later is what it read as, but for the list of active threads. -/
def KeepsMemory (s t : TurnRuntime) : Prop :=
  ∀ snapshot, storedMemory t.stores = some snapshot →
    ∃ memory, storedMemory s.stores = some memory ∧
      snapshot = { memory with activeThreadIds := snapshot.activeThreadIds }

theorem SameMemory.keeps {s t : TurnRuntime} (h : SameMemory s t) : KeepsMemory s t := by
  intro snapshot hsnapshot
  rw [storedMemory, h] at hsnapshot
  exact ⟨snapshot, hsnapshot, rfl⟩

theorem KeepsMemory.refl (s : TurnRuntime) : KeepsMemory s s := (SameMemory.refl s).keeps

theorem KeepsMemory.trans ⦃s t u : TurnRuntime⦄ (h : KeepsMemory s t) (h' : KeepsMemory t u) :
    KeepsMemory s u := by
  intro snapshot hsnapshot
  obtain ⟨middle, hmiddle, hlater⟩ := h' snapshot hsnapshot
  obtain ⟨memory, hmemory, hearlier⟩ := h middle hmiddle
  refine ⟨memory, hmemory, ?_⟩
  rw [hlater, hearlier]

section KeepsMemory

variable {α : Type}

theorem keepsMemory_of_same {p : TurnM α} (h : Guarantees SameMemory p) :
    Guarantees KeepsMemory p := h.mono fun _ _ hsame => hsame.keeps

variable [Disk]

/-- The memory file is read and written back with another list of active threads, or left torn. -/
theorem syncActiveThreadIds_keepsMemory (threadId : ThreadId) (shouldBePresent : Bool) :
    Guarantees KeepsMemory (syncActiveThreadIds threadId shouldBePresent) := by
  intro runtime
  unfold syncActiveThreadIds
  rw [wp_bind]
  refine wp_mono (readGlobalMemory_reads runtime) ?_ (fun _ _ h => h.keeps)
  rintro memory t ⟨hmemory, hsame⟩
  rw [wp_stored, RuntimeStores.writeGlobalMemory, writeJson, wp_effect]
  refine ⟨fun _ snapshot hsnapshot => ⟨memory, hmemory, ?_⟩, fun fault _ => ?_⟩
  · rw [← Option.some.inj hsnapshot]
  · cases fault with
    | refused message => exact SameMemory.keeps hsame
    | torn message =>
        intro snapshot hsnapshot
        exact absurd hsnapshot (by simp [storedMemory, writtenFile, RuntimeStores.tick])
    | unterminated message =>
        intro snapshot hsnapshot
        exact absurd hsnapshot (by simp [storedMemory, writtenFile, RuntimeStores.tick])

variable [Clock]

/-- A turn that is started has the input of its request as its goal. -/
theorem startTurn_keepsMemory (thread : Thread) (request : TurnStartRequest) (s : TurnRuntime) :
    wp (startTurn thread request)
      (fun turn t => turn.goal = some (Text.trim request.input) ∧ KeepsMemory s t)
      (fun _ t => KeepsMemory s t) s := by
  rw [wp_startTurn]
  refine ⟨fun _ => .refl s, fun _ turn hturn => ?_⟩
  have hgoal : turn.goal = some (Text.trim request.input) := by rw [hturn]; rfl
  rw [wp_bind]
  refine wp_mono (appendTransition_sameMemory _ _ _ _ _ _) (fun _ u hu => ?_) (fun _ u hu => ?_)
  · have hupdate : Guarantees KeepsMemory (updateThreadAfterTurn
        (thread.started turn.id (IdGenerator.nowTimestamp s.ids).1 (Text.trim request.input))) :=
      Guarantees.bind KeepsMemory.trans (keepsMemory_of_same (putThread_sameMemory _)) fun _ =>
        syncActiveThreadIds_keepsMemory _ _
    rw [wp_bind]
    refine wp_mono (hupdate u) (fun _ v hv => ⟨hgoal, ?_⟩) (fun _ v hv => ?_)
    · exact KeepsMemory.trans (SameMemory.keeps (s := s) hu) hv
    · exact KeepsMemory.trans (SameMemory.keeps (s := s) hu) hv
  · exact SameMemory.keeps (s := s) hu

end KeepsMemory

/-! ### The calls of the model -/

section Calls

variable [World]

/-- A call of the model is prepared for the setup from the memory that was stored before. -/
def CallsPrepared (before : RuntimeStores) (setup : RunSetup) : Observation → Prop
  | .modelCalled request outputContext =>
      ∃ memory, storedMemory before = some memory ∧ Prepared memory setup request outputContext
  | _ => True

/-- The context is assembled for the setup, from memory as it was stored before. -/
def Assembles (before : RuntimeStores) (setup : RunSetup) (context : AssembledContext) : Prop :=
  ∃ memory thread log, storedMemory before = some memory ∧
    context = assemble memory thread log setup.input setup.participant setup.interactionContext

theorem assembleContextForInteraction_assembles {before s : TurnRuntime}
    (hbefore : KeepsMemory before s) (threadId : ThreadId) (setup : RunSetup) :
    wp (assembleContextForInteraction threadId setup.input setup.participant
        setup.interactionContext)
      (fun context _ => Assembles before.stores setup context) (fun _ _ => True) s := by
  unfold assembleContextForInteraction
  rw [wp_bind]
  refine wp_mono (requireThread_sameMemory threadId s) (fun thread t ht => ?_) (fun _ _ _ => trivial)
  rw [wp_bind]
  refine wp_mono (readGlobalMemory_reads t) ?_ (fun _ _ _ => trivial)
  rintro snapshot u ⟨hsnapshot, -⟩
  obtain ⟨memory, hmemory, hsame⟩ := hbefore.trans ht.keeps snapshot hsnapshot
  rw [wp_bind]
  refine wp_mono (readTurnLog_sameMemory threadId u) (fun log _ _ => ?_) (fun _ _ _ => trivial)
  refine ⟨memory, thread, log, hmemory, ?_⟩
  rw [hsame]
  rfl

/-- A turn at the model calls it as its context says. -/
theorem streamModelTurn_prepared {before : RuntimeStores} {setup : RunSetup}
    {context : AssembledContext} (hcontext : Assembles before setup context) (thread : Thread)
    (turn : Turn) (answers : List GatewayAnswer) :
    Guarantees (Does (fun _ => True) (CallsPrepared before setup))
      (streamModelTurn thread turn context.systemPrompt context.developerPrompt context.userPrompt
        setup.outputContext answers) := by
  obtain ⟨memory, projection, log, hmemory, rfl⟩ := hcontext
  exact streamModelTurn_does (fun _ => trivial) trivial (fun _ _ => trivial)
    (fun _ => ⟨memory, hmemory, rfl, ⟨projection, log, rfl, rfl⟩, rfl⟩) answers

/-- Where no turn is run, the model is not called. -/
theorem Adds.prepared_of_runsOnly {before : RuntimeStores} {setup : RunSetup} {s t : AppServer}
    (h : RunsOnly (fun _ => False) s t) : Adds (CallsPrepared before setup) s t := by
  refine h.mono fun observation hruns => ?_
  cases observation with
  | modelCalled request outputContext => exact (hruns request.turn.id rfl).elim
  | _ => trivial

/-- What a started turn leads to: its calls are prepared for the setup, and unless approvals stay as
they are it has not got beyond the question. -/
structure Prepares (before : TurnRuntime) (setup : RunSetup) (s t : AppServer) : Prop where
  calls : Adds (CallsPrepared before.stores setup) s t
  memory : t.runtime.approvals ≠ s.runtime.approvals →
    KeepsMemory before t.runtime.toTurnRuntime

theorem Prepares.of_does {before : TurnRuntime} {setup : RunSetup} {P : TurnId → Prop}
    {s t : AppServer} (h : Does P (CallsPrepared before.stores setup) s t) :
    Prepares before setup s t :=
  ⟨h.trace, fun hchanged => absurd h.approvals hchanged⟩

theorem requestApproval_keepsMemory (threadId : ThreadId) (turnId : TurnId)
    (decision : PolicyDecision) (s : AppServer) :
    wp (requestApproval threadId turnId decision)
      (fun _ t => KeepsMemory s.runtime.toTurnRuntime t.runtime.toTurnRuntime)
      (fun _ _ => True) s := by
  unfold requestApproval
  rw [wp_bind, wp_onRuntime]
  refine wp_mono (requireApprovalForTurn_sameMemory threadId turnId decision s.runtime) ?_
    (fun _ _ h => h.keeps)
  intro asked runtime hsame
  simp only [wp_publishAll]
  exact hsame.keeps

theorem decideTurn_prepares {before : TurnRuntime} {request : TurnStartRequest}
    {context : AssembledContext} {s : AppServer}
    (hbefore : KeepsMemory before s.runtime.toTurnRuntime)
    (hcontext : Assembles before.stores (.direct request) context)
    (answers : List GatewayAnswer) (turn : Turn) (thread : Thread) :
    wp (decideTurn request answers turn thread context)
      (fun _ t => Prepares before (.direct request) s t)
      (fun _ t => Prepares before (.direct request) s t) s := by
  unfold decideTurn
  dsimp only
  rw [wp_bind, wp_get]
  generalize evaluatePolicy request.input context = decision
  split
  · refine wp_mono (wp_and (requestApproval_continues (R := fun _ => False) thread.id turn.id decision s)
      (requestApproval_keepsMemory thread.id turn.id decision s)) ?_ (fun _ _ h => h.1.elim)
    rintro _ t ⟨hcontinues, hmemory⟩
    refine ⟨.prepared_of_runsOnly ?_, fun _ => hbefore.trans hmemory⟩
    cases hcontinues with
    | worked h => exact h.trace
    | asked approval h htrace => exact htrace
  · exact wp_mono (streamModelTurn_prepared hcontext thread turn answers s) (fun _ _ => .of_does)
      (fun _ _ => .of_does)

theorem continueTurnAfterPolicy_prepares {before : TurnRuntime} {s : AppServer}
    (hbefore : KeepsMemory before s.runtime.toTurnRuntime) (request : TurnStartRequest)
    (answers : List GatewayAnswer) (turn : Turn) :
    wp (continueTurnAfterPolicy request answers turn)
      (fun _ t => Prepares before (.direct request) s t)
      (fun _ t => Prepares before (.direct request) s t) s := by
  have hidle : ∀ turns : TurnRuntime, Prepares before (.direct request) s
      { s with runtime := { s.runtime with toTurnRuntime := turns } } := fun turns =>
    ⟨.of_eq rfl, fun hchanged => absurd rfl hchanged⟩
  unfold continueTurnAfterPolicy
  rw [wp_bind, wp_onRuntime, wp_onTurns]
  refine wp_mono (readThread_sameMemory turn.threadId _) ?_ (fun _ turns _ => hidle turns)
  rintro (_ | thread) turns hread
  · exact hidle turns
  · have hturns := hbefore.trans hread.keeps
    dsimp only
    rw [wp_bind, wp_onRuntime, wp_onTurns]
    refine wp_mono (wp_and (assembleContextForInteraction_assembles hturns thread.id (.direct request))
      (assembleContextForInteraction_sameMemory _ _ _ _ turns)) ?_ (fun _ after _ => hidle after)
    rintro context after ⟨hcontext, hafter⟩
    exact wp_mono (decideTurn_prepares (hturns.trans hafter.keeps) hcontext answers turn thread)
      (fun _ _ h => ⟨h.calls, h.memory⟩) (fun _ _ h => ⟨h.calls, h.memory⟩)

theorem dispatched_turnStart_keepsMemory (request : TurnStartRequest) (s : AppServer) :
    wp (dispatched (.turnStart request))
      (fun response m => KeepsMemory s.runtime.toTurnRuntime m.runtime.toTurnRuntime ∧
        ∀ turn, response = .success (.turnStart turn) → turn.goal = some (Text.trim request.input))
      (fun _ _ => True) s := by
  have hstart : wp (RuntimeCoordinator.startTurn request)
      (fun turn runtime => turn.goal = some (Text.trim request.input) ∧
        KeepsMemory s.runtime.toTurnRuntime runtime.toTurnRuntime)
      (fun _ runtime => KeepsMemory s.runtime.toTurnRuntime runtime.toTurnRuntime) s.runtime := by
    unfold RuntimeCoordinator.startTurn
    rw [wp_onTurns, wp_bind]
    refine wp_mono (requireThread_sameMemory _ _) (fun thread m hm => ?_) (fun _ _ hm => hm.keeps)
    exact wp_mono (startTurn_keepsMemory thread request m)
      (fun _ _ ht => ⟨ht.1, hm.keeps.trans ht.2⟩) (fun _ _ ht => hm.keeps.trans ht)
  unfold dispatched dispatch respond
  rw [wp_bind, wp_bind, wp_onRuntime]
  refine wp_mono hstart ?_ ?_
  · rintro turn runtime ⟨hgoal, hmemory⟩
    dsimp only
    unfold threadEvent
    rw [wp_bind, wp_bind, wp_bind, wp_onRuntime, wp_onTurns]
    have hpublished : ∀ other, ServerResponse.success (.turnStart turn) = .success (.turnStart other) →
        other.goal = some (Text.trim request.input) := fun other hother => by
      cases hother
      exact hgoal
    refine wp_mono (readThread_sameMemory turn.threadId _) ?_ ?_
    · rintro (_ | thread) turns hread
      · simp only [wp_pure, wp_bind, wp_publishAll]
        exact ⟨hmemory.trans hread.keeps, hpublished⟩
      · simp only [wp_pure, wp_bind, wp_publishAll]
        exact ⟨hmemory.trans hread.keeps, hpublished⟩
    · intro _ turns hread
      simp only [wp_pure, wp_bind, wp_publishAll]
      exact ⟨hmemory.trans hread.keeps, hpublished⟩
  · intro error runtime hmemory
    simp only [wp_pure, wp_bind, wp_publishAll]
    exact ⟨hmemory, by simp [errorEnvelope]⟩

theorem turnStart_prepares (request : TurnStartRequest) (answers : List GatewayAnswer)
    (s : AppServer) :
    wp (handleRequest (.turnStart request) answers)
      (fun _ t => Prepares s.runtime.toTurnRuntime (.direct request) s t)
      (fun _ t => Prepares s.runtime.toTurnRuntime (.direct request) s t) s := by
  rw [handleRequest_eq, wp_bind]
  refine wp_mono (wp_and (dispatched_turnStart request s)
    (dispatched_turnStart_keepsMemory request s)) ?_ (fun _ _ h => h.1.elim)
  rintro response m ⟨⟨turn, rfl, hbegins⟩ | ⟨hnone, hworks⟩, hmemory, -⟩
  · have hstep : ∀ t, Prepares s.runtime.toTurnRuntime (.direct request) m t →
        Prepares s.runtime.toTurnRuntime (.direct request) s t := fun t ht =>
      ⟨Adds.trans (.prepared_of_runsOnly hbegins.trace) ht.calls, hbegins.approvals ▸ ht.memory⟩
    rw [wp_bind]
    exact wp_mono (continueTurnAfterPolicy_prepares hmemory request answers turn)
      (fun _ t ht => hstep t ht) (fun _ t ht => hstep t ht)
  · rw [continueAfter_of_not_started hnone, wp_bind, wp_pure]
    exact ⟨.prepared_of_runsOnly hworks.trace, fun hchanged => absurd hworks.approvals hchanged⟩

/-- An approval has come, and the turn it names has the input of the request as its goal. -/
structure AsksFor (request : TurnStartRequest) (approval : ApprovalRequest)
    (s t : RuntimeCoordinator) : Prop where
  approvals : t.approvals = s.approvals.insert approval.id approval
  waiting : ∃ turn, t.turnManager.activeTurns.lookup approval.turnId = some turn ∧
    turn.goal = some (Text.trim request.input)

theorem turnStart_asksFor (request : TurnStartRequest) (answers : List GatewayAnswer)
    (s : AppServer) :
    wp (handleRequest (.turnStart request) answers)
      (fun _ t => t.runtime.approvals = s.runtime.approvals ∨
        ∃ approval, AsksFor request approval s.runtime t.runtime)
      (fun _ t => t.runtime.approvals = s.runtime.approvals) s := by
  rw [handleRequest_eq, wp_bind]
  refine wp_mono (wp_and (dispatched_turnStart request s)
    (dispatched_turnStart_keepsMemory request s)) ?_ (fun _ _ h => h.1.elim)
  rintro response m ⟨⟨turn, rfl, hbegins⟩ | ⟨hnone, hworks⟩, -, hgoal⟩
  · rw [wp_bind]
    refine wp_mono (continueTurnAfterPolicy_continues request answers turn m) ?_
      (fun _ t h => h.approvals.trans hbegins.approvals)
    rintro _ t (h | ⟨approval, h, -⟩)
    · exact Or.inl (h.approvals.trans hbegins.approvals)
    · obtain ⟨waiting, hwaiting, -⟩ := h.waiting
      obtain ⟨started, hstarted, -, hsame⟩ := h.turns.known turn.id waiting hwaiting
      rw [hbegins.starts.activeTurns, AList.lookup_insert, Option.some.injEq] at hstarted
      refine Or.inr ⟨approval, hbegins.approvals ▸ h.approvals, waiting, ?_, ?_⟩
      · rw [h.names, hwaiting]
      · rw [hsame, ← hstarted, hgoal turn rfl]
  · rw [continueAfter_of_not_started hnone, wp_bind, wp_pure]
    exact Or.inl hworks.approvals

theorem runResumedTurn_prepared {before : TurnRuntime} {s : AppServer} {request : TurnStartRequest}
    {turn : Turn} (hbefore : KeepsMemory before s.runtime.toTurnRuntime)
    (hgoal : turn.goal = some (Text.trim request.input)) (approval : ApprovalRequest)
    (answers : List GatewayAnswer) :
    wp (runResumedTurn approval answers turn)
      (fun _ t => Adds (CallsPrepared before.stores (.afterApproval request)) s t)
      (fun _ t => Adds (CallsPrepared before.stores (.afterApproval request)) s t) s := by
  have hidle : ∀ turns : TurnRuntime, Adds (CallsPrepared before.stores (.afterApproval request)) s
      { s with runtime := { s.runtime with toTurnRuntime := turns } } := fun _ => .of_eq rfl
  unfold runResumedTurn
  rw [wp_bind, wp_onRuntime, wp_onTurns]
  refine wp_mono (readThread_sameMemory approval.threadId _) ?_ (fun _ turns _ => hidle turns)
  rintro (_ | thread) turns hread
  · exact hidle turns
  · dsimp only
    rw [hgoal, wp_bind, wp_onRuntime, wp_onTurns]
    refine wp_mono (assembleContextForInteraction_assembles (hbefore.trans hread.keeps) thread.id
      (.afterApproval request)) ?_ (fun _ after _ => hidle after)
    intro context after hcontext
    exact wp_mono (streamModelTurn_prepared hcontext thread turn answers _)
      (fun _ _ h => h.trace) (fun _ _ h => h.trace)

theorem approvalRespond_prepared {before : TurnRuntime} {s : AppServer} {request : TurnStartRequest}
    {approval : ApprovalRequest} {turn : Turn}
    (hbefore : KeepsMemory before s.runtime.toTurnRuntime)
    {respond : ApprovalRespondRequest} (hdecision : respond.decision ≠ .deny)
    (happroval : s.runtime.approvals.lookup respond.approvalId = some approval)
    (hturn : s.runtime.turnManager.activeTurns.lookup approval.turnId = some turn)
    (hgoal : turn.goal = some (Text.trim request.input)) (answers : List GatewayAnswer) :
    wp (handleRequest (.approvalRespond respond) answers)
      (fun _ t => Adds (CallsPrepared before.stores (.afterApproval request)) s t)
      (fun _ t => Adds (CallsPrepared before.stores (.afterApproval request)) s t) s := by
  rw [handleRequest_eq, wp_bind]
  refine wp_mono (dispatched_approvalRespond respond s) ?_ (fun _ _ h => h.elim)
  rintro response m (⟨found, rfl, hanswers⟩ | ⟨⟨code, message, retryable, rfl⟩, hworks⟩)
  · obtain rfl : found = approval := Option.some.inj (hanswers.found.symm.trans happroval)
    have hresume : ∀ decision, continueAfter answers (.approvalRespond respond)
        (.success (.approvalRespond (RuntimeCoordinator.answered decision found))) =
        resumeAfterApproval (RuntimeCoordinator.answered decision found) answers := by
      intro decision
      change continueAfterApproval respond.decision answers _ = _
      cases hrespond : respond.decision with
      | deny => exact absurd hrespond hdecision
      | approveOnce => rfl
      | approveAndPersist => rfl
    have hm : Adds (CallsPrepared before.stores (.afterApproval request)) s m :=
      .prepared_of_runsOnly hanswers.trace
    have hmemory : KeepsMemory before m.runtime.toTurnRuntime := by
      rw [hanswers.runtime]
      exact hbefore
    rw [wp_bind, hresume]
    unfold resumeAfterApproval RuntimeCoordinator.resumeApprovedTurn markRunning
    rw [wp_bind, wp_onRuntime, wp_onTurns]
    refine wp_mono (wp_and markTurn_marks (markTurn_sameMemory _ _ _ _ _ _ _)) ?_
      (fun _ _ _ => hm.trans (.of_eq rfl))
    rintro _ runtime ⟨⟨waiting, hwaiting, rfl, -⟩, hkeeps⟩
    rw [hanswers.runtime] at hwaiting
    obtain rfl : waiting = turn := Option.some.inj (hwaiting.symm.trans hturn)
    have hresumed : waiting.resumed.goal = some (Text.trim request.input) := hgoal
    have hrun : KeepsMemory before runtime := hmemory.trans hkeeps.keeps
    exact wp_mono (runResumedTurn_prepared (s := { m with runtime := { m.runtime with
        toTurnRuntime := runtime } }) hrun hresumed _ answers)
      (fun _ _ h => hm.trans h) (fun _ _ h => hm.trans h)
  · exact Adds.prepared_of_runsOnly hworks.trace

end Calls

/-! ### The two runs -/

/-- A call of the model, with the context its output is checked for. -/
abbrev ModelCall : Type := ModelTurnRequest × Option InteractionContext

def Observation.modelCall : Observation → Option ModelCall
  | .modelCalled request outputContext => some (request, outputContext)
  | _ => none

/-- The calls of the model that come between two states. -/
def modelCalls (s t : AppServer) : List ModelCall :=
  (t.trace.drop s.trace.length).filterMap Observation.modelCall

/-- Both calls ask the same, the prompts are filtered in the same way, and so is the output. -/
structure SameRun [Unicode] (memory : GlobalMemorySnapshot) (request : TurnStartRequest)
    (detour direct : ModelCall) : Prop where
  userPrompt : detour.1.userPrompt = direct.1.userPrompt
  filtering : SameFiltering memory (.afterApproval request) (.direct request)
  outputContext : detour.2 = direct.2

section Runs

variable [World]

/-- The server after the request has been put up for approval, if it needs one. -/
def AppServer.asked (server : AppServer) (request : TurnStartRequest)
    (answers : List GatewayAnswer) : AppServer :=
  { server with approvalPolicy := .onRequest }.step { request := .turnStart request, answers := answers }

/-- The server after the same request when nothing needs an approval. -/
def AppServer.ran (server : AppServer) (request : TurnStartRequest)
    (answers : List GatewayAnswer) : AppServer :=
  { server with approvalPolicy := .dangerFullAccess }.step
    { request := .turnStart request, answers := answers }

/-- The server after an approval has been answered. -/
def AppServer.answered (server : AppServer) (approvalId : ApprovalId) (decision : ApprovalDecision)
    (answers : List GatewayAnswer) : AppServer :=
  server.step
    { request := .approvalRespond { approvalId := approvalId, decision := decision }
      answers := answers }

omit [World] in
theorem Adds.of_mem_modelCalls {O : Observation → Prop} {s t : AppServer} (h : Adds O s t)
    {call : ModelCall} (hcall : call ∈ modelCalls s t) : O (.modelCalled call.1 call.2) := by
  obtain ⟨more, hmore, hin⟩ := h
  unfold modelCalls at hcall
  rw [hmore, List.drop_left, List.mem_filterMap] at hcall
  obtain ⟨observation, hobservation, heq⟩ := hcall
  cases observation with
  | modelCalled request outputContext =>
      obtain rfl := Option.some.inj heq
      exact hin _ hobservation
  | _ => exact absurd heq (by simp [Observation.modelCall])

/-- The run after an approval is the run without one exactly when the request carries nothing that
matters beside what the turn remembers. -/
theorem run_after_approval_iff (server : AppServer) (request : TurnStartRequest)
    (decision : ApprovalDecision) (approvalId : ApprovalId)
    (answers answers' answers'' : List GatewayAnswer) (detour direct : ModelCall)
    (hnew : server.runtime.approvals.lookup approvalId = none)
    (hasked : (server.asked request answers).runtime.approvals.lookup approvalId ≠ none)
    (hdecision : decision ≠ .deny)
    (hdetour : detour ∈ modelCalls (server.asked request answers)
      ((server.asked request answers).answered approvalId decision answers'))
    (hdirect : direct ∈ modelCalls server (server.ran request answers'')) :
    ∃ memory, storedMemory server.runtime.stores = some memory ∧
      Prepared memory (.afterApproval request) detour.1 detour.2 ∧
      Prepared memory (.direct request) direct.1 direct.2 ∧
      (SameRun memory request detour direct ↔ Remembered memory request) := by
  have hprepares : Prepares server.runtime.toTurnRuntime (.direct request)
      { server with approvalPolicy := .onRequest } (server.asked request answers) :=
    wp_after.mp (turnStart_prepares request answers { server with approvalPolicy := .onRequest })
  have hask : (server.asked request answers).runtime.approvals = server.runtime.approvals ∨
      ∃ approval, AsksFor request approval server.runtime
        (server.asked request answers).runtime := by
    refine (wp_after (R := fun t => t.runtime.approvals = server.runtime.approvals ∨
      ∃ approval, AsksFor request approval server.runtime t.runtime)).mp
      (wp_mono (turnStart_asksFor request answers { server with approvalPolicy := .onRequest }) ?_ ?_)
    · exact fun _ _ h => h
    · exact fun _ _ h => Or.inl h
  have hchanged : (server.asked request answers).runtime.approvals ≠ server.runtime.approvals := by
    intro hsame
    exact hasked (hsame ▸ hnew)
  obtain ⟨approval, happrovals, turn, hturn, hgoal⟩ := hask.resolve_left hchanged
  have hfound : (server.asked request answers).runtime.approvals.lookup approvalId =
      some approval := by
    rw [happrovals] at hasked ⊢
    by_cases hid : approvalId = approval.id
    · rw [hid, AList.lookup_insert]
    · rw [AList.lookup_insert_ne hid] at hasked
      exact absurd hnew hasked
  have hresumed : Adds (CallsPrepared server.runtime.stores (.afterApproval request))
      (server.asked request answers)
      ((server.asked request answers).answered approvalId decision answers') :=
    wp_after.mp (approvalRespond_prepared (hprepares.memory hchanged) hdecision hfound hturn hgoal
      answers')
  obtain ⟨memory, hmemory, hcall⟩ := hresumed.of_mem_modelCalls hdetour
  have hran : Prepares server.runtime.toTurnRuntime (.direct request)
      { server with approvalPolicy := .dangerFullAccess } (server.ran request answers'') :=
    wp_after.mp (turnStart_prepares request answers''
      { server with approvalPolicy := .dangerFullAccess })
  obtain ⟨memory', hmemory', hcall'⟩ := hran.calls.of_mem_modelCalls hdirect
  obtain rfl : memory' = memory := Option.some.inj (hmemory'.symm.trans hmemory)
  refine ⟨memory', hmemory, hcall, hcall', Iff.trans ?_ (sameRun_iff memory' request)⟩
  rw [← hcall.userPrompt, ← hcall'.userPrompt, ← hcall.outputContext, ← hcall'.outputContext]
  exact ⟨fun h => ⟨h.userPrompt, h.filtering, h.outputContext⟩, fun h => ⟨h.1, h.2.1, h.2.2⟩⟩

end Runs

/-! ### The detour on a server with one thread -/

/-- The deletion, asked for by somebody. -/
def deletionRequest (interactionContext : Option InteractionContext) : TurnStartRequest :=
  { turnRequest "delete .env" with interactionContext := interactionContext }

def askedForDeletion (interactionContext : Option InteractionContext) : AppServer :=
  @AppServer.asked plainWorld oneThreadServer (deletionRequest interactionContext) []

/-- The calls after the approval. -/
def detourCalls (interactionContext : Option InteractionContext) : List ModelCall :=
  modelCalls (askedForDeletion interactionContext)
    (@AppServer.answered plainWorld (askedForDeletion interactionContext) "approval_0_3"
      .approveOnce [plainAnswer "Done."])

/-- The calls without an approval. -/
def directCalls (interactionContext : Option InteractionContext) : List ModelCall :=
  modelCalls oneThreadServer (@AppServer.ran plainWorld oneThreadServer
    (deletionRequest interactionContext) [plainAnswer "Done."])

theorem run_after_approval_of_deletion :
    ∃ detour direct memory, storedMemory oneThreadServer.runtime.stores = some memory ∧
      @Prepared asciiTable memory (.afterApproval (deletionRequest none)) detour.1 detour.2 ∧
      @Prepared asciiTable memory (.direct (deletionRequest none)) direct.1 direct.2 ∧
      (@SameRun asciiTable memory (deletionRequest none) detour direct ↔
        Remembered memory (deletionRequest none)) := by
  have hdetour : (detourCalls none).isEmpty = false := by decide +kernel
  have hdirect : (directCalls none).isEmpty = false := by decide +kernel
  obtain ⟨detour, hdetour⟩ := List.exists_mem_of_ne_nil _ (List.isEmpty_eq_false_iff.mp hdetour)
  obtain ⟨direct, hdirect⟩ := List.exists_mem_of_ne_nil _ (List.isEmpty_eq_false_iff.mp hdirect)
  have hnew : oneThreadServer.runtime.approvals.lookup "approval_0_3" = none := by decide +kernel
  have hasked : (askedForDeletion none).runtime.approvals.lookup "approval_0_3" ≠ none := by
    decide +kernel
  unfold detourCalls askedForDeletion at hdetour
  unfold directCalls at hdirect
  unfold askedForDeletion at hasked
  have hrun := @run_after_approval_iff plainWorld oneThreadServer (deletionRequest none)
    .approveOnce "approval_0_3" [] [plainAnswer "Done."] [plainAnswer "Done."] detour direct
    hnew hasked (by decide) hdetour hdirect
  exact ⟨detour, direct, hrun⟩

/-- The output of a deletion that a group asked for is checked for the group, and after an approval
for nobody. -/
theorem approval_forgets_group :
    ¬ ∀ (world : World) (server : AppServer) (request : TurnStartRequest)
      (decision : ApprovalDecision) (approvalId : ApprovalId)
      (answers answers' answers'' : List GatewayAnswer) (detour direct : ModelCall)
      (memory : GlobalMemorySnapshot),
      server.runtime.approvals.lookup approvalId = none →
      (@AppServer.asked world server request answers).runtime.approvals.lookup approvalId ≠ none →
      decision ≠ .deny →
      detour ∈ modelCalls (@AppServer.asked world server request answers)
        (@AppServer.answered world (@AppServer.asked world server request answers) approvalId decision
          answers') →
      direct ∈ modelCalls server (@AppServer.ran world server request answers'') →
      storedMemory server.runtime.stores = some memory →
      @SameRun world.toUnicode memory request detour direct := by
  intro hclaim
  have hdetour : (detourCalls (some (visitor .humanContact))).map Prod.snd = [none] := by
    decide +kernel
  have hdirect : (directCalls (some (visitor .humanContact))).map Prod.snd =
      [some (visitor .humanContact)] := by decide +kernel
  obtain ⟨detour, hdetour, hnone⟩ := List.mem_map.mp (hdetour ▸ List.mem_singleton_self _)
  obtain ⟨direct, hdirect, hsome⟩ := List.mem_map.mp (hdirect ▸ List.mem_singleton_self _)
  have hnew : oneThreadServer.runtime.approvals.lookup "approval_0_3" = none := by decide +kernel
  have hasked : (askedForDeletion (some (visitor .humanContact))).runtime.approvals.lookup
      "approval_0_3" ≠ none := by decide +kernel
  have hmemory : storedMemory oneThreadServer.runtime.stores = some .empty := by decide +kernel
  unfold detourCalls askedForDeletion at hdetour
  unfold directCalls at hdirect
  unfold askedForDeletion at hasked
  have hsame := hclaim plainWorld oneThreadServer (deletionRequest (some (visitor .humanContact)))
    .approveOnce "approval_0_3" [] [plainAnswer "Done."] [plainAnswer "Done."] detour direct .empty
    hnew hasked (by decide) hdetour hdirect hmemory
  have houtput : detour.2 = direct.2 := @SameRun.outputContext asciiTable _ _ _ _ hsame
  rw [houtput, hsome] at hnone
  exact absurd hnone (by simp)

end Liz
