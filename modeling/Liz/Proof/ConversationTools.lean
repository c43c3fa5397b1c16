import Liz.Proof.ExecutionScope
import Liz.Proof.GatewayTurns

/-!
# Conversations without a workspace

A thread without a workspace is offered no tools, and no live adapter finds a call in a response
then, because an empty surface knows no name. The server itself executes whatever it is given, and
three of the simulated adapters make up a call without a look at the tools. Such a call names the
prompt as a path, so it is executed exactly when the tool is `workspace.read`.
-/

namespace Liz

open Program

/-! ### The calls of an answer -/

/-- The names that a surface has for its tools. -/
def ToolSurfaceSpec.toolNames (surface : ToolSurfaceSpec) : List String :=
  surface.nameMap.pairs.map Prod.fst

theorem mem_toolNames_of_aliased {surface : ToolSurfaceSpec} {name toolName : String}
    (h : aliasedToolName surface name = some toolName) : toolName ∈ surface.toolNames := by
  obtain ⟨pair, hfound, rfl⟩ := Option.map_eq_some_iff.mp h
  exact List.mem_map_of_mem (List.mem_of_find?_eq_some hfound)

/-- A name that is normalized is one of the surface. -/
theorem mem_toolNames_of_normalized {surface : ToolSurfaceSpec} {name toolName : String}
    (h : normalizeToolName surface name = some toolName) : toolName ∈ surface.toolNames := by
  unfold normalizeToolName at h
  cases haliased : surface.nameMap.canonicalName name with
  | some aliased =>
      rw [haliased, Option.orElse_some, Option.some.injEq] at h
      exact mem_toolNames_of_aliased (haliased.trans (congrArg some h))
  | none =>
      rw [haliased, Option.orElse_none] at h
      obtain ⟨_, hprovider, rfl⟩ := Option.map_eq_some_iff.mp h
      obtain ⟨pair, hfound, -⟩ := Option.map_eq_some_iff.mp hprovider
      have hname : pair.1 = name := by simpa using List.find?_some hfound
      exact hname ▸ List.mem_map_of_mem (List.mem_of_find?_eq_some hfound)

/-- The calls of a list are of tools of the surface. -/
theorem ToolCallFormat.toolName_of_mem_calls {format : ToolCallFormat} {surface : ToolSurfaceSpec}
    {items : List Json} {call : ProviderToolCall}
    (h : format.canonicalName = normalizeToolName ∨ format.canonicalName = aliasedToolName)
    (hcall : call ∈ format.calls surface items) : call.toolName ∈ surface.toolNames := by
  obtain ⟨⟨item, index⟩, -, hitem⟩ := List.mem_filterMap.mp hcall
  replace hitem : format.call surface index item = some call := hitem
  simp only [ToolCallFormat.call, Option.bind_eq_bind, Option.bind_eq_some_iff,
    Option.some.injEq] at hitem
  obtain ⟨carrier, -, name, -, toolName, htoolName, arguments, -, rfl⟩ := hitem
  rcases h with h | h
  · exact mem_toolNames_of_normalized (h ▸ htoolName)
  · exact mem_toolNames_of_aliased (h ▸ htoolName)

section Adapters

variable [JsonText] (provider : ResolvedProvider) (protocol : ProviderToolProtocol)

/-- A live adapter finds calls of the tools that are offered. -/
theorem liveTurn_toolNames {surface : ToolSurfaceSpec} {response : Json} {call : ProviderToolCall}
    (hcall : call ∈ (liveTurn provider surface response).toolCalls) :
    call.toolName ∈ surface.toolNames := by
  unfold liveTurn at hcall
  cases hadapter : provider.family.adapter with
  | anthropic =>
      rw [hadapter] at hcall
      exact anthropicFormat.toolName_of_mem_calls (.inr rfl) hcall
  | bedrock =>
      rw [hadapter] at hcall
      exact bedrockFormat.toolName_of_mem_calls (.inr rfl) hcall
  | google =>
      rw [hadapter] at hcall
      replace hcall : call ∈ GoogleAdapter.parseToolCalls provider surface response := hcall
      unfold GoogleAdapter.parseToolCalls at hcall
      dsimp only at hcall
      split at hcall
      · exact googleAnthropicFormat.toolName_of_mem_calls (.inr rfl) hcall
      · exact googleFormat.toolName_of_mem_calls (.inr rfl) hcall
  | openAiStyle =>
      rw [hadapter] at hcall
      replace hcall : call ∈ OpenAiStyleAdapter.parseProviderToolCalls provider surface response _ :=
        hcall
      unfold OpenAiStyleAdapter.parseProviderToolCalls at hcall
      dsimp only at hcall
      split at hcall
      · exact structuredFormat.toolName_of_mem_calls (.inl rfl) hcall
      · split at hcall
        · split at hcall
          · exact anthropicMessageFormat.toolName_of_mem_calls (.inl rfl) hcall
          · exact chatFormat.toolName_of_mem_calls (.inl rfl) hcall
        · split at hcall
          · exact anthropicMessageFormat.toolName_of_mem_calls (.inl rfl) hcall
          · exact openAiNativeFormat.toolName_of_mem_calls (.inl rfl) hcall

/-- Where no tools are offered, no live adapter finds a call. -/
theorem liveTurn_toolCalls_conversationOnly (response : Json) :
    (liveTurn provider (.conversationOnly protocol) response).toolCalls = [] := by
  rw [List.eq_nil_iff_forall_not_mem]
  exact fun call hcall => List.not_mem_nil (liveTurn_toolNames provider hcall)

/-- The call that the gateway makes up. -/
def ModelGateway.madeUpCall (gateway : ModelGateway) (request : ModelTurnRequest) :
    Option ProviderToolCall :=
  match gateway.provider with
  | .error _ => none
  | .ok provider =>
      if gateway.simulate = true ∧ provider.family.adapter ≠ .openAiStyle then
        promptAsPath (.conversationOnly (providerToolProtocol provider)) request
      else none

omit [JsonText] in
/-- The calls of a simulated answer. -/
theorem simulatedTurn_toolCalls_conversationOnly (request : ModelTurnRequest) :
    (simulatedTurn provider request (.conversationOnly protocol)).toolCalls =
      if provider.family.adapter = .openAiStyle then []
      else (promptAsPath (.conversationOnly protocol) request).toList := by
  unfold simulatedTurn
  cases provider.family.adapter <;> rfl

/-- Where no tools are offered, the only call is one that the gateway makes up. -/
theorem ModelGateway.runTurn_toolCalls (gateway : ModelGateway) {request : ModelTurnRequest}
    (hmode : request.toolSurfaceMode = .conversationOnly) (reply : Except ModelError Json) :
    (gateway.runTurn request reply).toolCalls = (gateway.madeUpCall request).toList := by
  unfold ModelGateway.runTurn ModelGateway.madeUpCall
  cases gateway.provider with
  | error error => rfl
  | ok provider =>
      rw [hmode]
      show GatewayAnswer.toolCalls (if gateway.simulate = true then
        simulatedTurn provider request (.conversationOnly (providerToolProtocol provider)) else _) = _
      cases gateway.simulate with
      | true =>
          rw [if_pos rfl, simulatedTurn_toolCalls_conversationOnly]
          by_cases hadapter : provider.family.adapter = .openAiStyle
          · simp [hadapter]
          · simp [hadapter]
      | false =>
          cases reply with
          | error error => rfl
          | ok response =>
              show (liveTurn provider (.conversationOnly _) response).toolCalls = _
              rw [liveTurn_toolCalls_conversationOnly]
              rfl

/-- A simulated adapter of the three makes up a call that reads the prompt. -/
def ModelGateway.ReadsPrompt (gateway : ModelGateway) (userPrompt : String) : Prop :=
  gateway.simulate = true ∧
    (∃ provider, gateway.provider = .ok provider ∧ provider.family.adapter ≠ .openAiStyle) ∧
    needsToolCall userPrompt = true ∧ inferToolName userPrompt = "workspace.read"

/-- A call that the server can execute. -/
def ProviderToolCall.Parses (toolCall : ProviderToolCall) : Prop :=
  ∃ invocation, parseToolInvocation toolCall.toolName toolCall.arguments = .ok invocation

omit [JsonText] in
theorem inferToolName_cases (userPrompt : String) :
    inferToolName userPrompt = "workspace.apply_patch" ∨
      inferToolName userPrompt = "shell.exec" ∨ inferToolName userPrompt = "workspace.read" := by
  unfold inferToolName
  dsimp only
  split
  · exact .inl rfl
  · split
    · exact .inr (.inl rfl)
    · exact .inr (.inr rfl)

omit [JsonText] in
/-- Of the three tools that a prompt sounds like, only one takes a path and nothing else. -/
theorem parses_promptAsPath (surface : ToolSurfaceSpec) (userPrompt : String) :
    (simulatedToolCall surface userPrompt (.object [("path", .string userPrompt)])).Parses ↔
      inferToolName userPrompt = "workspace.read" := by
  simp only [ProviderToolCall.Parses, simulatedToolCall]
  rcases inferToolName_cases userPrompt with h | h | h
  · rw [h]
    exact iff_of_false (fun ⟨_, hok⟩ => by cases hok) (by decide)
  · rw [h]
    exact iff_of_false (fun ⟨_, hok⟩ => by cases hok) (by decide)
  · rw [h]
    exact iff_of_true ⟨.workspaceRead userPrompt none none, rfl⟩ rfl

omit [JsonText] in
/-- The gateway answers a first request with a call that the server can execute exactly when it reads
the prompt, and a later one with no call at all. -/
theorem ModelGateway.madeUpCall_parses (gateway : ModelGateway) (request : ModelTurnRequest) :
    (∃ call ∈ gateway.madeUpCall request, call.Parses) ↔
      request.toolResultInjections = [] ∧ gateway.ReadsPrompt request.userPrompt := by
  unfold ModelGateway.madeUpCall ModelGateway.ReadsPrompt
  cases gateway.provider with
  | error error => simp
  | ok provider =>
      by_cases hmade : gateway.simulate = true ∧ provider.family.adapter ≠ .openAiStyle
      · obtain ⟨hsimulate, hadapter⟩ := hmade
        have hparses := parses_promptAsPath (.conversationOnly (providerToolProtocol provider))
          request.userPrompt
        simp only [hsimulate, hadapter, promptAsPath, simulatesToolCall, Bool.and_eq_true,
          List.isEmpty_iff, ne_eq, not_false_eq_true, and_self, if_true, true_and]
        by_cases hcall : request.toolResultInjections = [] ∧ needsToolCall request.userPrompt = true
        · rw [if_pos hcall]
          simpa [hcall, hadapter] using hparses
        · rw [if_neg hcall]
          simp only [Option.mem_def, reduceCtorEq, false_and, exists_false, false_iff]
          exact fun h => hcall ⟨h.1, h.2.2.1⟩
      · simp only [if_neg hmade, Option.mem_def, reduceCtorEq, false_and, exists_false, false_iff]
        intro ⟨_, hsimulate, ⟨found, hfound, hadapter⟩, _⟩
        obtain rfl : provider = found := Except.ok.inj hfound
        exact hmade ⟨hsimulate, hadapter⟩

end Adapters

/-! ### Rounds without an execution -/

/-- Nothing has been executed for the model, and the threads and their logs are as they were. -/
structure Idle (s t : AppServer) : Prop where
  executions : modelExecutions t = modelExecutions s
  threads : t.runtime.stores.threads = s.runtime.stores.threads
  turnLogs : t.runtime.stores.turnLogs = s.runtime.stores.turnLogs

theorem Idle.refl (s : AppServer) : Idle s s := ⟨rfl, rfl, rfl⟩

theorem Idle.trans ⦃s t u : AppServer⦄ (h : Idle s t) (h' : Idle t u) : Idle s u :=
  ⟨h'.executions.trans h.executions, h'.threads.trans h.threads, h'.turnLogs.trans h.turnLogs⟩

theorem observe_idle {observation : Observation} (h : Tacit observation) :
    Always Idle (observe observation) := by
  intro s
  have hadds : Adds Tacit s (s.observed observation) :=
    ⟨[observation], rfl, fun other hother => by rwa [List.mem_singleton.mp hother]⟩
  exact ⟨hadds.noneExecuted, rfl, rfl⟩

section Rounds

variable [World]

theorem localThreadExecutionScope_idle (threadId : ThreadId) :
    Always Idle (localThreadExecutionScope threadId) :=
  localThreadExecutionScope_always threadId fun _ => ⟨rfl, rfl, rfl⟩

theorem handleModelEvents_idle (threadId : ThreadId) (turnId : TurnId)
    (outputContext : Option InteractionContext) (events : List NormalizedTurnEvent) :
    Always Idle (handleModelEvents threadId turnId outputContext events) :=
  handleModelEvents_always Idle.refl Idle.trans (localThreadExecutionScope_idle _)
    (fun _ _ => observe_idle rfl) outputContext events

theorem executeModelToolCalls_idle (threadId : ThreadId) (turnId : TurnId)
    {toolCalls : List ProviderToolCall} (h : ∀ call ∈ toolCalls, ¬ call.Parses) :
    Always Idle (executeModelToolCalls threadId turnId toolCalls) := by
  apply executeModelToolCalls_always Idle.refl Idle.trans
  intro call hcall
  apply Always.bind Idle.trans (localThreadExecutionScope_idle _)
  intro scope
  cases hparse : parseToolInvocation call.toolName call.arguments with
  | error message =>
      exact Always.bind Idle.trans (observe_idle rfl) fun _ => Always.pure Idle.refl _
  | ok invocation => exact absurd ⟨invocation, hparse⟩ (h call hcall)

theorem loopDiagnostics_idle (repeatedToolRounds : Nat) :
    Always Idle (loopDiagnostics repeatedToolRounds) := by
  apply loopDiagnostics_always Idle.refl Idle.trans
  exact fun _ _ => Always.modifyGet fun _ => ⟨rfl, rfl, rfl⟩

/-- Calls that the server cannot execute leave everything as it is, in any number of rounds. -/
theorem runRounds_idle (baseRequest : ModelTurnRequest)
    (outputContext : Option InteractionContext) {answers : List GatewayAnswer}
    (h : ∀ answer ∈ answers, ∀ call ∈ answer.toolCalls, ¬ call.Parses)
    (results : List ToolResultInjection) (fingerprint : String) (repeated : Nat) :
    Guarantees Idle (runRounds baseRequest outputContext answers results fingerprint repeated) := by
  apply runRounds_guarantees Idle.refl Idle.trans
  · exact fun _ => observe_idle rfl
  · exact handleModelEvents_idle _ _ _
  · intro answer hanswer summary houtcome
    apply executeModelToolCalls_idle
    intro call hcall
    apply h answer hanswer
    rw [GatewayAnswer.toolCalls, houtcome]
    exact hcall
  · exact loopDiagnostics_idle

/-! ### A round with an execution -/

/-- A call of a thread without a mount is executed when the server can execute it. -/
theorem executed_ne_nil (moment : ToolCallMoment) (hparses : moment.toolCall.Parses)
    (hmount : mountOf moment.server.runtime.stores moment.threadId = none) :
    moment.executed ≠ [] := by
  have hlocal : (scopeOf moment.server moment.threadId).1 = "local" := by
    unfold scopeOf foundThread
    unfold mountOf at hmount
    cases Disk.fault moment.server.runtime.stores.operations with
    | some fault => rfl
    | none =>
        rcases hfile : moment.server.runtime.stores.threads.lookup moment.threadId with
          _ | ⟨thread⟩ | message
        · rfl
        · rw [hfile] at hmount
          simp only [readOutcome, show thread.workspaceMountId = none from hmount]
        · rfl
  obtain ⟨invocation, hinvocation⟩ := hparses
  rw [moment.executed_eq, hinvocation]
  simp [hlocal]

/-- A first answer with a call that the server can execute has it executed. -/
theorem runRounds_executes {baseRequest : ModelTurnRequest}
    {outputContext : Option InteractionContext} {answer : GatewayAnswer} {call : ProviderToolCall}
    (hcall : answer.toolCalls = [call]) (hparses : call.Parses) (answers : List GatewayAnswer)
    (results : List ToolResultInjection) (fingerprint : String) (repeated : Nat) {s : AppServer}
    (hmount : mountOf s.runtime.stores baseRequest.thread.id = none) :
    modelExecutions (after (runRounds baseRequest outputContext (answer :: answers) results
      fingerprint repeated) s) ≠ modelExecutions s := by
  rw [runRounds_executesAt]
  obtain ⟨_, t, hevents, hidle⟩ := exists_ok_of_wp (handleModelEvents_idle baseRequest.thread.id
    baseRequest.turn.id outputContext answer.events
    (s.observed (.modelCalled (baseRequest.withToolResultInjections results) outputContext)))
  have hmounted : mountOf t.runtime.stores baseRequest.thread.id = none := by
    unfold mountOf at hmount ⊢
    rw [hidle.threads]
    exact hmount
  have hexecuted := executed_ne_nil ⟨t, baseRequest.thread.id, baseRequest.turn.id, call⟩ hparses
    hmounted
  unfold GatewayAnswer.toolCalls at hcall
  cases houtcome : answer.outcome with
  | error _ => rw [houtcome] at hcall; exact absurd hcall.symm (List.cons_ne_nil _ _)
  | ok summary =>
      rw [houtcome] at hcall
      obtain ⟨message, toolCalls⟩ := summary
      obtain rfl : toolCalls = [call] := hcall
      intro hsame
      have hmoments := List.append_right_eq_self.mp hsame
      apply hexecuted
      apply List.flatMap_eq_nil_iff.mp hmoments
      simp only [roundMoments]
      rw [onward_observe, onward_of_ok hevents]
      simp only [houtcome]
      exact List.mem_cons_self

/-! ### The log -/

/-- The completed tools that the log of a thread tells of. -/
def RuntimeStores.toolCompletions (stores : RuntimeStores) (threadId : ThreadId) :
    List TurnLogEntry :=
  (stores.turnLog threadId).entries.filter (·.event == "tool_completed")

/-- The log of the thread tells of no other completed tools. -/
def SameCompletions (threadId : ThreadId) (s t : TurnRuntime) : Prop :=
  t.stores.toolCompletions threadId = s.stores.toolCompletions threadId

omit [World] in
theorem SameCompletions.refl {threadId : ThreadId} (s : TurnRuntime) :
    SameCompletions threadId s s := rfl

omit [World] in
theorem SameCompletions.trans {threadId : ThreadId} ⦃s t u : TurnRuntime⦄
    (h : SameCompletions threadId s t) (h' : SameCompletions threadId t u) :
    SameCompletions threadId s u := Eq.trans h' h

omit [World] in
theorem SameLogs.sameCompletions {threadId : ThreadId} {s t : TurnRuntime} (h : SameLogs s t) :
    SameCompletions threadId s t := by
  show List.filter _ (t.stores.turnLog threadId).entries = List.filter _ _
  rw [h.turnLog threadId]

omit [World] in
/-- Another event is no completed tool, whatever becomes of the append. -/
theorem toolCompletions_appended (stores : RuntimeStores) {entry : TurnLogEntry}
    (hevent : entry.event ≠ "tool_completed") (fault : Option Fault) (threadId : ThreadId) :
    (stores.appended entry fault).toolCompletions threadId = stores.toolCompletions threadId := by
  have happend : ∀ file : TurnLogFile, (file.entries ++ [entry]).filter (·.event == "tool_completed")
      = file.entries.filter (·.event == "tool_completed") := by
    intro file
    rw [List.filter_append, List.filter_singleton, beq_eq_false_iff_ne.mpr hevent]
    exact List.append_nil _
  unfold RuntimeStores.toolCompletions
  rw [turnLog_appended]
  split
  · rcases fault with _ | message | message | message
    · exact happend _
    · rfl
    · rfl
    · exact happend _
  · rfl

omit [World] in
theorem appendTransition_sameCompletions [Disk] (threadId target : ThreadId) (turnId : TurnId)
    (recordedAt : Timestamp) {event : String} (hevent : event ≠ "tool_completed")
    (summary : String) :
    Guarantees (SameCompletions threadId)
      (appendTransition target turnId recordedAt event summary) := by
  intro runtime
  rw [wp_appendTransition]
  constructor
  · intro entries _ entry hentry
    have hevent : entry.event ≠ "tool_completed" := by
      rw [hentry]
      exact hevent
    constructor
    · intro _
      exact toolCompletions_appended _ hevent none threadId
    · intro fault _
      exact toolCompletions_appended _ hevent (some fault) threadId
  · intro e _
    rfl

omit [World] in
theorem closeTurn_sameCompletions [Disk] [Clock] (threadId : ThreadId) (thread : Thread)
    (turnId : TurnId) (turn : Turn) {event : String} (hevent : event ≠ "tool_completed")
    (finish : Timestamp → Turn → Turn) (project : Timestamp → Turn → Thread → Thread) :
    Guarantees (SameCompletions threadId) (closeTurn thread turnId turn event finish project) := by
  have hput : ∀ thread, Guarantees (SameCompletions threadId)
      (stored (RuntimeStores.putThread thread)) := fun thread =>
    (putThread_sameLogs thread).mono fun _ _ h => h.sameCompletions
  have hremoved : Guarantees (SameCompletions threadId)
      (modifyTurns (TurnManager.removeTurn turnId)) := Guarantees.modify fun _ => rfl
  have hclock : Guarantees (SameCompletions threadId) (drawn IdGenerator.nowTimestamp) :=
    Guarantees.modifyGet fun _ => rfl
  apply Guarantees.bind SameCompletions.trans hremoved
  intro _
  apply Guarantees.bind SameCompletions.trans hclock
  intro endedAt
  apply Guarantees.bind SameCompletions.trans (appendTransition_sameCompletions _ _ _ _ hevent _)
  intro _
  apply Guarantees.bind SameCompletions.trans (hput _)
  intro _
  exact Guarantees.pure SameCompletions.refl _

omit [World] in
/-- A turn that is looked up and closed. -/
theorem lookups_sameCompletions [Disk] {threadId target : ThreadId} {turnId : TurnId}
    {next : Thread → Turn → TurnM Turn}
    (hnext : ∀ thread turn, Guarantees (SameCompletions threadId) (next thread turn)) :
    Guarantees (SameCompletions threadId) (do
      let thread ← requireThread target
      let turn ← requireTurn turnId
      next thread turn) := by
  intro runtime
  rw [wp_lookups]
  refine ⟨fun _ _ => rfl, fun thread _ => ⟨fun _ => rfl, fun turn _ => ?_⟩⟩
  exact hnext thread turn _

/-- Nothing has been executed for the model, and the log of the thread tells of no other completed
tools. -/
def Toolless (threadId : ThreadId) (s t : AppServer) : Prop :=
  modelExecutions t = modelExecutions s ∧
    t.runtime.stores.toolCompletions threadId = s.runtime.stores.toolCompletions threadId

omit [World] in
theorem Toolless.trans {threadId : ThreadId} ⦃s t u : AppServer⦄ (h : Toolless threadId s t)
    (h' : Toolless threadId t u) : Toolless threadId s u :=
  ⟨h'.1.trans h.1, h'.2.trans h.2⟩

omit [World] in
theorem Idle.toolless {s t : AppServer} (h : Idle s t) (threadId : ThreadId) :
    Toolless threadId s t := by
  have hlogs : SameLogs s.runtime.toTurnRuntime t.runtime.toTurnRuntime := h.turnLogs
  exact ⟨h.executions, hlogs.sameCompletions⟩

theorem compileMemoryForThread_idle (threadId : ThreadId) (turnId : Option TurnId) :
    Always Idle (compileMemoryForThread threadId turnId) := by
  apply compileMemoryForThread_always Idle.refl Idle.trans
  · exact fun _ _ => ⟨rfl, rfl, rfl⟩
  · exact fun _ _ => observe_idle rfl

/-- The end of a turn is no completed tool. -/
theorem finishModelTurn_toolless (threadId target : ThreadId) (turnId : TurnId)
    (outputContext : Option InteractionContext) (ending : Except ModelError (Option String)) :
    Guarantees (Toolless threadId) (finishModelTurn target turnId outputContext ending) := by
  have hclosed : ∀ {p : TurnM Turn}, Guarantees (SameCompletions threadId) p →
      Always (Toolless threadId) (onRuntime (onTurns p)) := by
    intro p hp s
    rw [wp_onRuntime, wp_onTurns]
    exact wp_mono (hp s.runtime.toTurnRuntime) (fun _ _ h => ⟨rfl, h⟩) (fun _ _ h => ⟨rfl, h⟩)
  have hidle : ∀ {p : ServerM Unit}, Always Idle p → Always (Toolless threadId) p := by
    intro p hp s
    exact wp_mono (hp s) (fun _ _ h => h.toolless threadId) (fun _ _ h => h)
  apply Always.guarantees
  apply finishModelTurn_always (fun _ => ⟨rfl, rfl⟩) Toolless.trans
  · exact fun _ => hclosed (lookups_sameCompletions fun thread turn =>
      closeTurn_sameCompletions threadId thread turnId turn (by decide) _ _)
  · exact fun _ => hclosed (lookups_sameCompletions fun thread turn =>
      closeTurn_sameCompletions threadId thread turnId turn (by decide) _ _)
  · exact fun _ _ _ => hidle (observe_idle rfl)
  · exact hidle (compileMemoryForThread_idle target (some turnId))

/-! ### Turns -/

section Turns

variable [JsonText] {thread : Thread}

/-- The thread has no workspace, as the turn knows it and as it is stored. -/
structure Conversation (thread : Thread) (s : AppServer) : Prop where
  workspaceRef : thread.workspaceRef = none
  workspaceMountId : thread.workspaceMountId = none
  stored : mountOf s.runtime.stores thread.id = none

omit [World] [JsonText] in
theorem toolSurfaceMode_conversation (href : thread.workspaceRef = none)
    (hmount : thread.workspaceMountId = none) (turn : Turn)
    (systemPrompt developerPrompt userPrompt : String) :
    (baseRequestFor thread turn systemPrompt developerPrompt userPrompt).toolSurfaceMode =
      .conversationOnly := by
  unfold baseRequestFor
  rw [href, hmount]
  rfl

omit [World] in
/-- The answers of the gateway where no tools are offered: a call that the server can execute is in
the first of them, and the gateway has made it up. -/
theorem ModelGateway.answers_parses (gateway : ModelGateway) {baseRequest : ModelTurnRequest}
    (hmode : baseRequest.toolSurfaceMode = .conversationOnly)
    (replies : List (Except ModelError Json)) :
    (∃ answer ∈ gateway.answers baseRequest replies, ∃ call ∈ answer.toolCalls, call.Parses) ↔
      replies ≠ [] ∧ gateway.ReadsPrompt baseRequest.userPrompt := by
  have hcalls : ∀ results reply,
      (∃ call ∈ (gateway.runTurn (baseRequest.withToolResultInjections results) reply).toolCalls,
        call.Parses) ↔ results = [] ∧ gateway.ReadsPrompt baseRequest.userPrompt := by
    intro results reply
    have hmode : (baseRequest.withToolResultInjections results).toolSurfaceMode =
        .conversationOnly := hmode
    have hmade := gateway.madeUpCall_parses (baseRequest.withToolResultInjections results)
    rw [gateway.runTurn_toolCalls hmode]
    simp only [Option.mem_toList]
    exact hmade
  cases replies with
  | nil => simp [ModelGateway.answers]
  | cons reply rest => simp [ModelGateway.answers, hcalls]

omit [JsonText] in
/-- What the model has executed in a turn it has executed in its rounds. -/
theorem modelExecutions_streamModelTurn (thread : Thread) (turn : Turn)
    (systemPrompt developerPrompt userPrompt : String)
    (outputContext : Option InteractionContext) (answers : List GatewayAnswer) (s : AppServer) :
    modelExecutions (after (streamModelTurn thread turn systemPrompt developerPrompt userPrompt
        outputContext answers) s) =
      modelExecutions (after (runRounds (baseRequestFor thread turn systemPrompt developerPrompt
        userPrompt) outputContext answers [] "" 0) s) := by
  have hfinish : ∀ ending, Guarantees NoneExecuted
      (finishModelTurn thread.id turn.id outputContext ending) := fun ending =>
    (finishModelTurn_toolless thread.id thread.id turn.id outputContext ending).mono
      fun _ _ h => h.1
  have hrounds := runRounds_executesAt (baseRequestFor thread turn systemPrompt developerPrompt
    userPrompt) outputContext answers [] "" 0
  rw [hrounds s]
  exact Accounts.bind_nothing hrounds hfinish s

/-- A turn on a thread without a workspace runs no tools exactly when the gateway does not read the
prompt, or does not get to answer. -/
theorem conversation_runs_no_tools_iff {s : AppServer} (h : Conversation thread s)
    (gateway : ModelGateway) (turn : Turn) (systemPrompt developerPrompt userPrompt : String)
    (outputContext : Option InteractionContext) (replies : List (Except ModelError Json)) :
    Toolless thread.id s (after (streamGatewayTurn gateway thread turn systemPrompt developerPrompt
        userPrompt outputContext replies) s) ↔
      (gateway.ReadsPrompt userPrompt → replies = []) := by
  rw [streamGatewayTurn_eq]
  have hmode := toolSurfaceMode_conversation h.workspaceRef h.workspaceMountId turn systemPrompt
    developerPrompt userPrompt
  have hstored : mountOf s.runtime.stores (baseRequestFor thread turn systemPrompt developerPrompt
      userPrompt).thread.id = none := h.stored
  have hparses := gateway.answers_parses hmode replies
  constructor
  · intro htoolless hreads
    by_contra hne
    -- the first answer is the one with the call
    obtain ⟨reply, rest, rfl⟩ := List.exists_cons_of_ne_nil hne
    generalize hbase : baseRequestFor thread turn systemPrompt developerPrompt userPrompt = base
      at hmode hstored
    have hprompt : base.userPrompt = userPrompt := by
      rw [← hbase]
      rfl
    have hmode : (base.withToolResultInjections []).toolSurfaceMode = .conversationOnly := hmode
    obtain ⟨call, hcall, hcallParses⟩ :=
      (gateway.madeUpCall_parses (base.withToolResultInjections [])).mpr ⟨rfl, hprompt ▸ hreads⟩
    have hfirst := gateway.runTurn_toolCalls hmode reply
    rw [hcall] at hfirst
    have hnone := htoolless.1
    rw [modelExecutions_streamModelTurn, hbase] at hnone
    exact runRounds_executes hfirst hcallParses _ _ _ _ hstored hnone
  · intro hcondition
    have hunparsable : ∀ answer ∈ gateway.answers (baseRequestFor thread turn systemPrompt
        developerPrompt userPrompt) replies, ∀ call ∈ answer.toolCalls, ¬ call.Parses := by
      intro answer hanswer call hcall hcallParses
      obtain ⟨hne, hreads⟩ := hparses.mp ⟨answer, hanswer, call, hcall, hcallParses⟩
      exact hne (hcondition hreads)
    have hrounds := (runRounds_idle (baseRequestFor thread turn systemPrompt developerPrompt
      userPrompt) outputContext hunparsable [] "" 0).mono
      fun _ _ hidle => hidle.toolless thread.id
    exact wp_after.mp (Guarantees.bind Toolless.trans hrounds
      (finishModelTurn_toolless thread.id thread.id turn.id outputContext) s)

end Turns

end Rounds

/-! ### A prompt that sounds like a tool call -/

def ModelProviderFamily.simulated (family : ModelProviderFamily) : ModelGateway :=
  { simulate := true, provider := .ok family.provider }

/-- A turn of the thread, with two replies of the provider. -/
def toolPromptTurn (family : ModelProviderFamily) : AppServer :=
  after (@streamGatewayTurn plainWorld noJson family.simulated (Thread.blank "thread_0_1")
    firstTurn "" "" "Which tool is best?" none [.ok .null, .ok .null]) oneThreadServer

theorem conversation_runs_no_tools_openAi :
    Toolless "thread_0_1" oneThreadServer (toolPromptTurn .openAiResponses) :=
  (@conversation_runs_no_tools_iff plainWorld noJson (Thread.blank "thread_0_1") oneThreadServer
    ⟨rfl, rfl, rfl⟩ _ _ _ _ _ _ _).mpr fun ⟨_, ⟨_, hprovider, hadapter⟩, _⟩ => by
      cases hprovider
      exact absurd rfl hadapter

theorem simulated_anthropic_reads_prompt :
    ¬ ∀ (world : World) (json : JsonText) (gateway : ModelGateway) (s : AppServer) (thread : Thread)
      (turn : Turn) (systemPrompt developerPrompt userPrompt : String)
      (outputContext : Option InteractionContext) (replies : List (Except ModelError Json)),
      Conversation thread s → Toolless thread.id s (after (@streamGatewayTurn world json gateway
        thread turn systemPrompt developerPrompt userPrompt outputContext replies) s) := by
  intro h
  have htoolless := h plainWorld noJson (ModelProviderFamily.anthropicMessages.simulated)
    oneThreadServer (Thread.blank "thread_0_1") firstTurn "" "" "Which tool is best?" none
    [.ok .null, .ok .null] ⟨rfl, rfl, rfl⟩
  have hnone : modelExecutions (toolPromptTurn .anthropicMessages) =
      modelExecutions oneThreadServer := htoolless.1
  have hexecuted : (modelExecutions (toolPromptTurn .anthropicMessages)).length = 1 := by
    decide +kernel
  rw [hnone] at hexecuted
  exact absurd hexecuted (by decide)

end Liz
