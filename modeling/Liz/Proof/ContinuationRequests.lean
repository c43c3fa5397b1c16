import Liz.Model.RequestBodies
import Liz.Proof.CallIdentifiers

/-!
# The conversation in a continuation request

A request is read as its provider reads it: as calls that the model made, answers to calls and texts
of the model. Every answer has to answer a call that stands before it, and every call is answered
once. The adapters send the answers only, so the rule holds of the first request of a turn, and of a
later one where the results are written into the prompt.
-/

namespace Liz

open Program

/-! ### What a provider reads -/

/-- An item of a conversation. Calls and answers are matched by their key. -/
inductive WireEntry
  | call (key name : String) (arguments : Json)
  | answer (key : String)
  | quoted (text : String)

namespace WireEntry

def callKey : WireEntry → Option String
  | call key _ _ => some key
  | _ => none

def answerKey : WireEntry → Option String
  | answer key => some key
  | _ => none

/-- How often a call with the key is made. -/
def calls (key : String) (entries : List WireEntry) : Nat :=
  (entries.filterMap callKey).count key

/-- How often a call with the key is answered. -/
def answers (key : String) (entries : List WireEntry) : Nat :=
  (entries.filterMap answerKey).count key

end WireEntry

/-- No answer stands before its call, every call is answered once, and a call in the conversation is
one that the model has made. -/
structure WellFormedConversation (made : List ProviderToolCall) (entries : List WireEntry) :
    Prop where
  inOrder : ∀ before, before <+: entries → ∀ key,
    WireEntry.answers key before ≤ WireEntry.calls key before
  answered : ∀ key, WireEntry.answers key entries = WireEntry.calls key entries
  faithful : ∀ key name arguments, .call key name arguments ∈ entries →
    ∃ call ∈ made, name = call.providerToolName ∧ arguments = call.arguments

/-- A conversation of answers is well formed if there are none. -/
theorem wellFormed_answers_iff (made : List ProviderToolCall) (keys : List String) :
    WellFormedConversation made (keys.map WireEntry.answer) ↔ keys = [] := by
  constructor
  · intro h
    cases keys with
    | nil => rfl
    | cons key rest =>
        have hfirst := h.inOrder [.answer key] (by simp) key
        simp [WireEntry.answers, WireEntry.calls, WireEntry.answerKey, WireEntry.callKey] at hfirst
  · rintro rfl
    refine ⟨?_, fun _ => rfl, fun _ _ _ hmem => absurd hmem List.not_mem_nil⟩
    intro before hbefore key
    rw [List.prefix_nil.mp hbefore]
    exact Nat.le_refl _

/-- A call that a request repeats, in the format of the responses. -/
def ToolCallFormat.repeated (format : ToolCallFormat) (key : Json → Option String) (item : Json) :
    List WireEntry :=
  ((format.carrier item).bind fun carrier =>
    (format.providerToolName carrier).map fun name =>
      .call ((key carrier).getD "") name ((format.arguments carrier).getD .null)).toList

def answerAt (carrier : Option Json) (field : String) : List WireEntry :=
  ((carrier.bind (·.textAt field)).map .answer).toList

def quotedText (text : Option String) : List WireEntry := (text.map .quoted).toList

/-- The texts and the calls in a message of the assistant. -/
def assistantEntries (content : Json) (role : String) (entries : Json → List WireEntry) :
    List WireEntry :=
  if content.textAt "role" = some role then entries content else []

def toolResultEntries (block : Json) : List WireEntry :=
  answerAt (itemOfType "tool_result" block) "tool_use_id"

def anthropicMessageEntries (message : Json) : List WireEntry :=
  (assistantEntries message "assistant" fun message =>
    quotedText (message.textAt "content") ++
      (message.itemsAt "content").flatMap fun block =>
        quotedText (block.textAt "text") ++
          anthropicFormat.repeated anthropicFormat.issuedId block) ++
  (message.itemsAt "content").flatMap toolResultEntries

def bedrockMessageEntries (message : Json) : List WireEntry :=
  (assistantEntries message "assistant" fun message =>
    (message.itemsAt "content").flatMap fun block =>
      quotedText (block.textAt "text") ++ bedrockFormat.repeated bedrockFormat.issuedId block) ++
  (message.itemsAt "content").flatMap fun block => answerAt (block.get? "toolResult") "toolUseId"

/-- Calls and answers are matched by the name of the function. -/
def googleContentEntries (content : Json) : List WireEntry :=
  (assistantEntries content "model" fun content =>
    (content.itemsAt "parts").flatMap fun part =>
      quotedText (part.textAt "text") ++
        googleFormat.repeated googleFormat.providerToolName part) ++
  (content.itemsAt "parts").flatMap fun part => answerAt (part.get? "functionResponse") "name"

/-- The format in which a provider takes a conversation. -/
inductive WireFormat
  | responses | chat | anthropic | bedrock | google | prompt
  deriving DecidableEq, Repr

def wireFormat (provider : ResolvedProvider) : WireFormat :=
  match provider.family with
  | .openAiResponses => .responses
  | .openAiCompatible => .chat
  | .anthropicMessages | .googleVertexAnthropic => .anthropic
  | .googleGenerativeAi | .googleVertex => .google
  | .awsBedrockConverse => .bedrock
  | .gitHubCopilot =>
      if OpenAiStyleAdapter.copilotUsesAnthropicMessagesModel provider.modelId then .anthropic
      else if OpenAiStyleAdapter.shouldUseCopilotResponsesApi provider.modelId then .responses
      else .chat
  | .gitLabDuo => .prompt

section Readers

variable [JsonText]

def openAiItemEntries (item : Json) : List WireEntry :=
  openAiNativeFormat.repeated openAiNativeFormat.issuedId item ++
    answerAt (itemOfType "function_call_output" item) "call_id" ++
    assistantEntries item "assistant" fun message =>
      (message.itemsAt "content").flatMap fun part => quotedText (part.textAt "text")

def chatMessageEntries (message : Json) : List WireEntry :=
  (assistantEntries message "assistant" fun message =>
    quotedText (message.textAt "content") ++
      (message.itemsAt "tool_calls").flatMap (chatFormat.repeated chatFormat.issuedId)) ++
  if message.textAt "role" = some "tool" then answerAt (some message) "tool_call_id" else []

/-- The conversation in the body of a request; a prompt has none. -/
def WireFormat.entries (body : Json) : WireFormat → List WireEntry
  | .responses => (body.itemsAt "input").flatMap openAiItemEntries
  | .chat => (body.itemsAt "messages").flatMap chatMessageEntries
  | .anthropic => (body.itemsAt "messages").flatMap anthropicMessageEntries
  | .bedrock => (body.itemsAt "messages").flatMap bedrockMessageEntries
  | .google => (body.itemsAt "contents").flatMap googleContentEntries
  | .prompt => []

/-- The conversation that a provider reads in a request. -/
def conversation (provider : ResolvedProvider) (cacheEphemeral : Bool) (surface : ToolSurfaceSpec)
    (request : ModelTurnRequest) : List WireEntry :=
  (wireFormat provider).entries (requestBody provider cacheEphemeral surface request)

/-! ### What the adapters send -/

/-- The results have items of their own; elsewhere they are written into the prompt. -/
def sendsToolResults (provider : ResolvedProvider) : Bool :=
  match provider.family with
  | .googleVertexAnthropic | .gitLabDuo => false
  | .gitHubCopilot => !OpenAiStyleAdapter.copilotUsesAnthropicMessagesModel provider.modelId
  | _ => true

/-- What a result answers: a call, or for Google a function. -/
def ToolResultInjection.wireKey (provider : ResolvedProvider) (surface : ToolSurfaceSpec)
    (injection : ToolResultInjection) : String :=
  if wireFormat provider = .google then injection.aliasIn surface else injection.callId

theorem functionCallOutput_entries (surface : ToolSurfaceSpec)
    (injection : ToolResultInjection) :
    openAiItemEntries (OpenAiStyleAdapter.functionCallOutput surface injection) =
      [.answer injection.callId] := rfl

theorem toolMessage_entries (surface : ToolSurfaceSpec) (injection : ToolResultInjection) :
    chatMessageEntries (OpenAiStyleAdapter.toolMessage surface injection) =
      [.answer injection.callId] := rfl

omit [JsonText] in
/-- Items that are read as one answer each are read as the answers in their order. -/
theorem flatMap_answers {entries : Json → List WireEntry} {item : ToolResultInjection → Json}
    {key : ToolResultInjection → String} (h : ∀ injection, entries (item injection) =
      [.answer (key injection)]) (injections : List ToolResultInjection) :
    (injections.map item).flatMap entries = (injections.map key).map .answer := by
  rw [List.flatMap_map, List.map_map, ← List.flatMap_pure_eq_map]
  exact List.flatMap_congr fun injection _ => h injection

theorem responsesBody_entries (surface : ToolSurfaceSpec) (request : ModelTurnRequest) :
    WireFormat.responses.entries (OpenAiStyleAdapter.responsesBody surface request) =
      (request.toolResultInjections.map ToolResultInjection.callId).map .answer := by
  show ((OpenAiStyleAdapter.responsesBody surface request).itemsAt "input").flatMap _ = _
  rw [← flatMap_answers (functionCallOutput_entries surface)]
  show ((OpenAiStyleAdapter.openAiResponsesInputPayload surface request).asArray.getD []).flatMap
    _ = _
  unfold OpenAiStyleAdapter.openAiResponsesInputPayload
  cases request.toolResultInjections with
  | nil => rfl
  | cons injection rest => rfl

theorem chatBody_entries (surface : ToolSurfaceSpec) (request : ModelTurnRequest) :
    WireFormat.chat.entries (OpenAiStyleAdapter.chatBody surface request) =
      (request.toolResultInjections.map ToolResultInjection.callId).map .answer := by
  rw [← flatMap_answers (toolMessage_entries surface)]
  rfl

theorem anthropicBody_entries (cacheEphemeral : Bool) (request : ModelTurnRequest) :
    WireFormat.anthropic.entries (AnthropicAdapter.requestBody cacheEphemeral request) =
      (request.toolResultInjections.map ToolResultInjection.callId).map .answer := by
  have hblock : ∀ injection : ToolResultInjection,
      toolResultEntries (AnthropicAdapter.toolResultBlock injection) =
        [.answer injection.callId] := fun _ => rfl
  rw [← flatMap_answers hblock]
  cases cacheEphemeral <;> exact List.append_nil _

theorem bedrockBody_entries (surface : ToolSurfaceSpec) (request : ModelTurnRequest) :
    WireFormat.bedrock.entries (AwsBedrockAdapter.requestBody surface request) =
      (request.toolResultInjections.map ToolResultInjection.callId).map .answer := by
  have hmessage : ∀ injection : ToolResultInjection,
      bedrockMessageEntries (AwsBedrockAdapter.toolResultMessage surface injection) =
        [.answer injection.callId] := fun _ => rfl
  rw [← flatMap_answers hmessage]
  rfl

theorem googleBody_entries (provider : ResolvedProvider)
    (hfamily : provider.family ≠ .googleVertexAnthropic) (surface : ToolSurfaceSpec)
    (request : ModelTurnRequest) :
    WireFormat.google.entries (GoogleAdapter.requestBody provider surface request) =
      (request.toolResultInjections.map (·.aliasIn surface)).map .answer := by
  have hcontents : ∀ injection : ToolResultInjection, googleContentEntries
      (GoogleAdapter.userContents (GoogleAdapter.functionResponse surface injection)) =
        [.answer (injection.aliasIn surface)] := fun _ => rfl
  rw [GoogleAdapter.requestBody, if_neg hfamily, ← flatMap_answers hcontents]
  rfl

/-- A provider reads the answers to the results and nothing else. -/
theorem conversation_eq (provider : ResolvedProvider) (cacheEphemeral : Bool)
    (surface : ToolSurfaceSpec) (request : ModelTurnRequest) :
    conversation provider cacheEphemeral surface request =
      if sendsToolResults provider then
        (request.toolResultInjections.map (·.wireKey provider surface)).map .answer
      else [] := by
  unfold conversation sendsToolResults ToolResultInjection.wireKey wireFormat requestBody
  cases hfamily : provider.family with
  | openAiResponses =>
      show WireFormat.responses.entries (OpenAiStyleAdapter.requestBody provider surface request) = _
      rw [OpenAiStyleAdapter.requestBody, hfamily]
      exact responsesBody_entries surface request
  | openAiCompatible =>
      show WireFormat.chat.entries (OpenAiStyleAdapter.requestBody provider surface request) = _
      rw [OpenAiStyleAdapter.requestBody, hfamily]
      exact chatBody_entries surface request
  | anthropicMessages => exact anthropicBody_entries cacheEphemeral request
  | googleGenerativeAi =>
      exact googleBody_entries provider (by rw [hfamily]; decide) surface request
  | googleVertex => exact googleBody_entries provider (by rw [hfamily]; decide) surface request
  | googleVertexAnthropic =>
      show WireFormat.anthropic.entries (GoogleAdapter.requestBody provider surface request) = []
      rw [GoogleAdapter.requestBody, if_pos hfamily]
      rfl
  | awsBedrockConverse => exact bedrockBody_entries surface request
  | gitLabDuo => rfl
  | gitHubCopilot =>
      show WireFormat.entries (OpenAiStyleAdapter.requestBody provider surface request) _ = _
      rw [OpenAiStyleAdapter.requestBody, hfamily]
      dsimp only
      cases OpenAiStyleAdapter.copilotUsesAnthropicMessagesModel provider.modelId with
      | true => rfl
      | false =>
          cases OpenAiStyleAdapter.shouldUseCopilotResponsesApi provider.modelId with
          | true => exact responsesBody_entries surface request
          | false => exact chatBody_entries surface request

/-- A request is a well-formed conversation if its results are written into the prompt, or there are
none. -/
theorem conversation_wellFormed_iff (provider : ResolvedProvider) (cacheEphemeral : Bool)
    (surface : ToolSurfaceSpec) (request : ModelTurnRequest) (made : List ProviderToolCall) :
    WellFormedConversation made (conversation provider cacheEphemeral surface request) ↔
      sendsToolResults provider = false ∨ request.toolResultInjections = [] := by
  rw [conversation_eq]
  cases sendsToolResults provider with
  | true =>
      rw [if_pos rfl, wellFormed_answers_iff, List.map_eq_nil_iff]
      exact ⟨.inr, fun h => h.resolve_left (Bool.noConfusion ·)⟩
  | false =>
      rw [if_neg Bool.false_ne_true]
      exact iff_of_true ((wellFormed_answers_iff made []).mpr rfl) (.inl rfl)

end Readers

/-! ### The requests of a turn -/

section Turns

variable [World] [JsonText]

/-- The requests that the gateway is called with between two states. -/
def requestsSent (s t : AppServer) : List ModelTurnRequest :=
  (modelRequests t).drop (modelRequests s).length

/-- The calls of the model in a turn. -/
def callsMade (provider : ResolvedProvider) (surface : ToolSurfaceSpec)
    (replies : List (Except ModelError Json)) : List ProviderToolCall :=
  (heardResponses provider surface replies).flatMap fun response =>
    (liveTurn provider surface response).toolCalls

/-- The calls of the first response. -/
def firstCalls (provider : ResolvedProvider) (surface : ToolSurfaceSpec)
    (replies : List (Except ModelError Json)) : List ProviderToolCall :=
  match replies with
  | .ok response :: _ => (liveTurn provider surface response).toolCalls
  | _ => []

/-- From given results on: the first request carries these, and another one follows exactly after an
answer with calls and carries some. -/
def SendsFrom (results : List ToolResultInjection) (first : List ProviderToolCall)
    (s t : AppServer) : Prop :=
  ∃ request rest, modelRequests t = modelRequests s ++ request :: rest ∧
    request.toolResultInjections = results ∧
    (∀ later ∈ rest, later.toolResultInjections ≠ []) ∧ (rest = [] ↔ first = [])

omit [World] [JsonText] in
theorem modelRequests_called (s : AppServer) (request : ModelTurnRequest)
    (outputContext : Option InteractionContext) :
    modelRequests (s.observed (.modelCalled request outputContext)) =
      modelRequests s ++ [request] := by
  show List.filterMap _ (s.trace ++ [_]) = _
  rw [List.filterMap_append]
  rfl

omit [World] [JsonText] in
theorem SendsFrom.of_waits {s t : AppServer} {request : ModelTurnRequest}
    {outputContext : Option InteractionContext}
    (h : Waits (s.observed (.modelCalled request outputContext)) t) :
    SendsFrom request.toolResultInjections [] s t := by
  refine ⟨request, [], ?_, rfl, fun _ hno => absurd hno List.not_mem_nil, iff_of_true rfl rfl⟩
  rw [h.1, modelRequests_called]

theorem gatewayRounds_sendsFrom {provider : ResolvedProvider} {baseRequest : ModelTurnRequest}
    {surface : ToolSurfaceSpec} (hsurface : surface =
      .forMode (providerToolProtocol provider) baseRequest.toolSurfaceMode)
    (outputContext : Option InteractionContext) (replies : List (Except ModelError Json))
    (results : List ToolResultInjection) (fingerprint : String) (repeated : Nat) :
    Guarantees (SendsFrom results (firstCalls provider surface replies))
      (gatewayRounds { simulate := false, provider := .ok provider } baseRequest outputContext
        replies results fingerprint repeated) := by
  induction replies generalizing results fingerprint repeated with
  | nil =>
      intro s
      rw [gatewayRounds, wp_bind, wp_observe]
      exact .of_waits ⟨rfl, rfl⟩
  | cons reply rest ih =>
      intro s
      rw [gatewayRounds]
      cases reply with
      | error error =>
          rw [wp_bind, wp_observe]
          exact .of_waits ⟨rfl, rfl⟩
      | ok response =>
          have hfirst : firstCalls provider surface (.ok response :: rest) =
              (liveTurn provider surface response).toolCalls := rfl
          rw [ModelGateway.runTurn_live hsurface, hfirst]
          generalize liveTurn provider surface response = answer
          unfold GatewayAnswer.toolCalls
          refine wp_round ?_ ?_ ?_
          · intro error t houtcome ht
            rw [houtcome]
            exact .of_waits ht
          · intro summary t houtcome hempty ht
            simp only [houtcome, hempty]
            exact .of_waits ht
          · intro summary roundResults u houtcome hcalls hu hanswers
            rw [houtcome, wp_bind]
            refine wp_mono (loopDiagnostics_waits _ u) (fun diagnostics v hv => ?_)
              (fun _ _ h => h.elim)
            -- the round has results, since it has calls
            have hne : roundResults ≠ [] := by
              rintro rfl
              exact hcalls (List.forall₂_nil_right_iff.mp hanswers)
            have hsame : modelRequests v = modelRequests s ++
                [baseRequest.withToolResultInjections results] := by
              rw [hv.1, hu.1, modelRequests_called]
            have hnext : ∀ w, SendsFrom (results ++ roundResults ++ diagnostics)
                (firstCalls provider surface rest) v w →
                SendsFrom results summary.toolCalls s w := by
              rintro w ⟨request, later, hrequests, hresults, hlater, -⟩
              refine ⟨baseRequest.withToolResultInjections results, request :: later, ?_, rfl,
                ?_, ?_⟩
              · rw [hrequests, hsame, List.append_assoc]
                rfl
              · intro other hother
                rcases List.mem_cons.mp hother with rfl | hother
                · rw [hresults]
                  simp [hne]
                · exact hlater other hother
              · exact iff_of_false (List.cons_ne_nil _ _) hcalls
            exact wp_mono (ih _ _ _ v) (fun _ w hw => hnext w hw) (fun _ w hw => hnext w hw)

/-- A turn sends one request without results, and others exactly if the model asks for tools. -/
theorem liveGatewayTurn_sendsFrom (provider : ResolvedProvider) (thread : Thread) (turn : Turn)
    (systemPrompt developerPrompt userPrompt : String) (outputContext : Option InteractionContext)
    (replies : List (Except ModelError Json)) :
    Guarantees (SendsFrom [] (firstCalls provider (turnSurface provider thread) replies))
      (liveGatewayTurn provider thread turn systemPrompt developerPrompt userPrompt outputContext
        replies) := by
  intro s
  have hsurface := turnSurface_eq provider thread turn systemPrompt developerPrompt userPrompt
  have hrounds := gatewayRounds_sendsFrom hsurface outputContext replies [] "" 0 s
  have hkept : ∀ {t u : AppServer}, modelRequests u = modelRequests t →
      SendsFrom [] (firstCalls provider (turnSurface provider thread) replies) s t →
      SendsFrom [] (firstCalls provider (turnSurface provider thread) replies) s u := by
    rintro t u hsame ⟨request, rest, hrequests, hrest⟩
    exact ⟨request, rest, hsame.trans hrequests, hrest⟩
  unfold liveGatewayTurn streamGatewayTurn
  rw [wp_bind]
  refine wp_mono hrounds (fun ending t ht => ?_) (fun _ _ ht => ht)
  exact wp_mono (finishModelTurn_requests _ _ _ ending t) (fun _ u hu => hkept hu ht)
    (fun _ _ hno => hno.elim)

omit [World] in
theorem SendsFrom.wellFormed_iff {first made : List ProviderToolCall} {s t : AppServer}
    (h : SendsFrom [] first s t) (provider : ResolvedProvider) (cacheEphemeral : Bool)
    (surface : ToolSurfaceSpec) :
    (∀ request ∈ requestsSent s t,
        WellFormedConversation made (conversation provider cacheEphemeral surface request)) ↔
      sendsToolResults provider = false ∨ first = [] := by
  obtain ⟨request, rest, hrequests, hnone, hlater, hfirst⟩ := h
  rw [requestsSent, hrequests, List.drop_left]
  simp only [conversation_wellFormed_iff, List.forall_mem_cons, hnone, or_true, true_and]
  rw [← hfirst]
  constructor
  · intro h
    cases rest with
    | nil => exact .inr rfl
    | cons later others =>
        exact .inl ((h later List.mem_cons_self).resolve_right (hlater later List.mem_cons_self))
  · intro h later hmem
    rcases h with hprompt | hnil
    · exact .inl hprompt
    · rw [hnil] at hmem
      exact absurd hmem List.not_mem_nil

/-- The requests of a turn are well-formed conversations exactly when the results of tools are
written into the prompt, or the first response asks for no tool. -/
theorem continuations_wellFormed_iff (provider : ResolvedProvider) (cacheEphemeral : Bool)
    (thread : Thread) (turn : Turn) (systemPrompt developerPrompt userPrompt : String)
    (outputContext : Option InteractionContext) (replies : List (Except ModelError Json))
    (s : AppServer) :
    let surface := turnSurface provider thread
    (∀ request ∈ requestsSent s (after (liveGatewayTurn provider thread turn systemPrompt
          developerPrompt userPrompt outputContext replies) s),
        WellFormedConversation (callsMade provider surface replies)
          (conversation provider cacheEphemeral surface request)) ↔
      sendsToolResults provider = false ∨ firstCalls provider surface replies = [] := by
  have hturn := wp_after.mp (liveGatewayTurn_sendsFrom provider thread turn systemPrompt
    developerPrompt userPrompt outputContext replies s)
  exact hturn.wellFormed_iff provider cacheEphemeral _

end Turns

/-! ### A turn with one tool call -/

/-- The server after the listing and a second response. -/
def listingTurn : AppServer :=
  after (@liveGatewayTurn plainWorld noJson ModelProviderFamily.anthropicMessages.provider
    workspaceThread firstTurn "" "" "" none [.ok (toolUseResponse "toolu_1"), .ok .null])
    firstTurnServer

/-- The second request answers `toolu_1`, and no message of it has asked for it. -/
theorem listing_answered_without_call :
    ¬ ∀ request ∈ requestsSent firstTurnServer listingTurn,
      WellFormedConversation
        (@callsMade noJson ModelProviderFamily.anthropicMessages.provider
          (turnSurface ModelProviderFamily.anthropicMessages.provider workspaceThread)
          [.ok (toolUseResponse "toolu_1"), .ok .null])
        (@conversation noJson ModelProviderFamily.anthropicMessages.provider true
          (turnSurface ModelProviderFamily.anthropicMessages.provider workspaceThread) request) := by
  intro h
  have hturn := wp_after.mp (@liveGatewayTurn_sendsFrom plainWorld noJson
    ModelProviderFamily.anthropicMessages.provider workspaceThread firstTurn "" "" "" none
    [.ok (toolUseResponse "toolu_1"), .ok .null] firstTurnServer)
  rcases (@SendsFrom.wellFormed_iff noJson _ _ _ _ hturn _ true _).mp h with hprompt | hnone
  · exact absurd hprompt (by decide)
  · have hcalls : (@firstCalls noJson ModelProviderFamily.anthropicMessages.provider
        (turnSurface ModelProviderFamily.anthropicMessages.provider workspaceThread)
        [.ok (toolUseResponse "toolu_1"), .ok .null]).length = 1 := by decide +kernel
    rw [hnone] at hcalls
    cases hcalls

end Liz
