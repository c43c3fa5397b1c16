import Liz.Proof.Disclosure
import Liz.Proof.Lifecycle

/-!
# What the output policy keeps from being delivered

What the assistant is heard to say leaves the server as chunks while the model is streaming, as
completed messages, and as the summary of the completed turn. A message that the output policy does
not let pass for the turn's interaction context should not be among them, whole or in chunks. Chunks
go out as they come, the policy is applied to the messages only, and a turn that has waited for its
approval is run without its context.
-/

namespace Liz

open Program

/-! ### What the model says -/

def NormalizedTurnEvent.delta : NormalizedTurnEvent → Option String
  | .assistantDelta chunk => some chunk
  | _ => none

def NormalizedTurnEvent.message : NormalizedTurnEvent → Option String
  | .assistantMessage message => some message
  | _ => none

namespace GatewayAnswer

def deltas (answer : GatewayAnswer) : List String := answer.events.filterMap NormalizedTurnEvent.delta

def messages (answer : GatewayAnswer) : List String := answer.events.filterMap NormalizedTurnEvent.message

def summaryMessage (answer : GatewayAnswer) : Option String :=
  match answer.outcome with
  | .ok summary => summary.assistantMessage
  | .error _ => none

end GatewayAnswer

/-- The answers up to the one that ends the turn. -/
def consumed : List GatewayAnswer → List GatewayAnswer
  | [] => []
  | answer :: rest =>
      answer :: match answer.outcome with
        | .ok summary => if summary.toolCalls.isEmpty then [] else consumed rest
        | .error _ => []

/-- How the turn ends, when the answers get that far. -/
def endingOf : List GatewayAnswer → Option (Except ModelError (Option String))
  | [] => none
  | answer :: rest =>
      match answer.outcome with
      | .ok summary =>
          if summary.toolCalls.isEmpty then some (.ok summary.assistantMessage) else endingOf rest
      | .error error => some (.error error)

/-- The model says the message as a whole, or streams it in consecutive chunks. -/
def Says (answers : List GatewayAnswer) (message : String) : Prop :=
  ∃ answer ∈ consumed answers, message ∈ answer.messages ∨ answer.summaryMessage = some message ∨
    ∃ chunks, chunks ≠ [] ∧ chunks <:+: answer.deltas ∧ String.join chunks = message

/-! ### What is delivered -/

def Delivery.chunkText : Delivery → Option String
  | .chunk text => some text
  | _ => none

/-- The chunks between two calls of the model. -/
def streams : List Delivery → List (List String)
  | [] => []
  | .round :: rest => (rest.takeWhile (· ≠ .round)).filterMap Delivery.chunkText :: streams rest
  | _ :: rest => streams rest

/-- What the assistant is heard to say while the program runs. -/
def deliveredBy (p : ServerM Unit) (s : AppServer) : List Delivery :=
  ((after p s).trace.drop s.trace.length).filterMap Observation.delivery

/-- No message of the model that is not allowed has been delivered. -/
structure Withheld (context : InteractionContext) (answers : List GatewayAnswer)
    (delivered : List Delivery) : Prop where
  completed : ∀ message, Says answers message → checkOutput context message ≠ .allowed →
    .completed message ∉ delivered
  ended : ∀ message, Says answers message → checkOutput context message ≠ .allowed →
    .ended (some message) ∉ delivered
  /-- The chunks published for consecutive deltas do not make up what the deltas make up. -/
  streamed : ∀ answer stream, (answer, stream) ∈ (consumed answers).zip (streams delivered) →
    ∀ i k, (answer.deltas.drop i).take k ≠ [] →
      checkOutput context (String.join ((answer.deltas.drop i).take k)) ≠ .allowed →
        String.join ((stream.drop i).take k) ≠ String.join ((answer.deltas.drop i).take k)

/-- How a turn that was started with an interaction context comes to the model. -/
inductive TurnEntry
  | direct | resumed
  deriving DecidableEq, Repr

/-- The context that the output of the turn is checked for. -/
def TurnEntry.outputContext (context : InteractionContext) : TurnEntry → Option InteractionContext
  | .direct => some context
  | .resumed => none

/-- What becomes of the message is allowed, or is no message of the model. -/
def LetsPass (context : InteractionContext) (said : String → Prop) : TurnEntry → String → Prop
  | .resumed, message => said message → checkOutput context message = .allowed
  | .direct, message =>
      match checkOutput context message with
      | .redacted redacted => said redacted → checkOutput context redacted = .allowed
      | .needsOwnerConfirmation reason =>
          ¬ said ("I need owner confirmation before sharing this response. " ++ reason)
      | _ => True

/-- Where the policy gets hold of everything the model says. -/
structure Guarded (context : InteractionContext) (entry : TurnEntry)
    (answers : List GatewayAnswer) : Prop where
  streamed : ∀ answer ∈ consumed answers, answer.deltas ≠ [] →
    checkOutput context (String.join answer.deltas) = .allowed
  completed : ∀ answer ∈ consumed answers, ∀ message ∈ answer.messages,
    LetsPass context (Says answers) entry message
  ended : ∀ message, endingOf answers = some (.ok message) →
    LetsPass context (Says answers) entry (message.getD "Completed turn")

/-! ### The policy -/

section Policy

variable {context : InteractionContext}

theorem contains_of_part {part whole needle : String} (h : part.toList <:+: whole.toList)
    (hneedle : Text.contains (Text.toAsciiLowercase part) needle = true) :
    Text.contains (Text.toAsciiLowercase whole) needle = true := by
  simp only [Text.contains_eq_true, Text.toList_toAsciiLowercase] at hneedle ⊢
  exact hneedle.trans (h.map Char.toLower)

/-- A part of an allowed text is allowed. -/
theorem checkOutput_of_part {part whole : String} (h : part.toList <:+: whole.toList)
    (hwhole : checkOutput context whole = .allowed) : checkOutput context part = .allowed := by
  have hidentity : mentionsPrivateIdentity part = true → mentionsPrivateIdentity whole = true := by
    simp only [mentionsPrivateIdentity, List.any_eq_true]
    rintro ⟨needle, hmem, hneedle⟩
    exact ⟨needle, hmem, contains_of_part h hneedle⟩
  unfold checkOutput at hwhole ⊢
  split at hwhole
  · exact absurd hwhole (by simp)
  · next howner =>
      split at hwhole
      · exact absurd hwhole (by simp)
      · next hnode =>
          split at hwhole
          · exact absurd hwhole (by simp)
          · next hpublic =>
              rw [if_neg howner, if_neg fun hp => hnode ⟨hp.1, hp.2.1, hidentity hp.2.2⟩,
                if_neg fun hp => hpublic ⟨hp.1, hp.2.1, contains_of_part h hp.2.2⟩]

/-- Where the owner's confirmation is required nothing is allowed. -/
theorem checkOutput_ne_allowed {message other reason : String}
    (h : checkOutput context message = .needsOwnerConfirmation reason) :
    checkOutput context other ≠ .allowed := by
  unfold checkOutput at h ⊢
  split at h
  · next howner => simp [howner]
  · split at h
    · exact absurd h (by simp)
    · split at h <;> exact absurd h (by simp)

theorem checkOutput_of_harmless {output : String}
    (howner : ¬ context.authority.requiresOwnerConfirmation = true)
    (hidentity : mentionsPrivateIdentity output = false)
    (hcommitment : Text.contains (Text.toAsciiLowercase output) "commitment" = false) :
    checkOutput context output = .allowed := by
  unfold checkOutput
  rw [if_neg howner, if_neg fun h => by simp [hidentity] at h,
    if_neg fun h => by simp [hcommitment] at h]

theorem contains_lower_append (text more needle : List Char) :
    Text.contains (Text.toAsciiLowercase (String.ofList text ++ String.ofList more))
      (String.ofList needle) = decide (needle <:+: (text ++ more).map Char.toLower) := by
  simp only [Text.contains, Text.toList_toAsciiLowercase, String.toList_append, String.toList_ofList]

/-- The notice that stands in for a denied message is allowed. -/
theorem checkOutput_denied {message reason : String}
    (h : checkOutput context message = .denied reason) :
    checkOutput context ("I cannot share that response in this interaction. " ++ reason) =
      .allowed := by
  unfold checkOutput at h
  split at h
  · exact absurd h (by simp)
  · next howner =>
      split at h
      · obtain rfl := OutputPolicyDecision.denied.inj h
        refine checkOutput_of_harmless howner ?_
          ((contains_lower_append _ _ _).trans (by decide +kernel))
        simp only [mentionsPrivateIdentity, List.any_cons, List.any_nil, Bool.or_eq_false_iff]
        exact ⟨(contains_lower_append _ _ _).trans (by decide +kernel),
          (contains_lower_append _ _ _).trans (by decide +kernel),
          (contains_lower_append _ _ _).trans (by decide +kernel), trivial⟩
      · split at h <;> exact absurd h (by simp)

theorem letsPass_iff {said : String → Prop} {entry : TurnEntry} {message : String} :
    LetsPass context said entry message ↔
      (said (applyOutputPolicy (entry.outputContext context) message) →
        checkOutput context (applyOutputPolicy (entry.outputContext context) message) =
          .allowed) := by
  cases entry with
  | resumed => exact Iff.rfl
  | direct =>
      simp only [LetsPass, TurnEntry.outputContext, applyOutputPolicy]
      cases hdecision : checkOutput context message with
      | allowed => simp [hdecision]
      | redacted redacted => exact Iff.rfl
      | needsOwnerConfirmation reason =>
          exact ⟨fun hsaid h => absurd h hsaid, fun h hsaid =>
            checkOutput_ne_allowed hdecision (h hsaid)⟩
      | denied reason => exact iff_of_true trivial fun _ => checkOutput_denied hdecision

end Policy

/-! ### What the programs deliver -/

/-- What the server lets be heard of one event of the model. -/
def eventDelivery (outputContext : Option InteractionContext) :
    NormalizedTurnEvent → Option Delivery
  | .assistantDelta chunk => some (.chunk chunk)
  | .assistantMessage message => some (.completed (applyOutputPolicy outputContext message))
  | _ => none

def roundDeliveries (outputContext : Option InteractionContext) (answer : GatewayAnswer) :
    List Delivery :=
  .round :: answer.events.filterMap (eventDelivery outputContext)

/-- What is delivered between two states. -/
def Delivers (delivered : List Delivery) (s t : AppServer) : Prop :=
  ∃ more, t.trace = s.trace ++ more ∧ more.filterMap Observation.delivery = delivered

theorem Delivers.refl (s : AppServer) : Delivers [] s s := ⟨[], by simp, rfl⟩

theorem Delivers.append {first second : List Delivery} {s t u : AppServer}
    (h : Delivers first s t) (h' : Delivers second t u) : Delivers (first ++ second) s u := by
  obtain ⟨more, hmore, hfirst⟩ := h
  obtain ⟨more', hmore', hsecond⟩ := h'
  refine ⟨more ++ more', ?_, ?_⟩
  · rw [hmore', hmore, List.append_assoc]
  · rw [List.filterMap_append, hfirst, hsecond]

theorem Delivers.observed (observation : Observation) (s : AppServer) :
    Delivers observation.delivery.toList s (s.observed observation) := by
  refine ⟨[observation], rfl, ?_⟩
  cases hdelivery : observation.delivery <;> simp [hdelivery]

theorem Does.delivers {P : TurnId → Prop} {s t : AppServer}
    (h : Does P (fun observation => observation.delivery = none) s t) : Delivers [] s t := by
  obtain ⟨more, hmore, hsilent⟩ := h.trace
  exact ⟨more, hmore, List.filterMap_eq_nil_iff.mpr hsilent⟩

section Programs

variable [World]

theorem handleModelEvent_delivers (threadId : ThreadId) (turnId : TurnId)
    (outputContext : Option InteractionContext) (event : NormalizedTurnEvent) (s : AppServer) :
    wp (handleModelEvent threadId turnId outputContext event)
      (fun _ t => Delivers (eventDelivery outputContext event).toList s t) (fun _ _ => False) s := by
  cases event with
  | toolCallCommitted callId toolName arguments =>
      have hscope := localThreadExecutionScope_does (P := fun _ => False)
        (O := fun observation => observation.delivery = none) threadId s
      exact (wp_bind _ _).mpr (wp_mono hscope (fun _ t ht => ht.delivers.append (.observed _ t))
        (fun _ _ h => h))
  | usageDelta => exact .refl s
  | providerRawEvent label => exact .refl s
  | _ => exact .observed _ s

theorem handleModelEvents_delivers (threadId : ThreadId) (turnId : TurnId)
    (outputContext : Option InteractionContext) (events : List NormalizedTurnEvent)
    (s : AppServer) :
    wp (handleModelEvents threadId turnId outputContext events)
      (fun _ t => Delivers (events.filterMap (eventDelivery outputContext)) s t)
      (fun _ _ => False) s := by
  induction events generalizing s with
  | nil => exact .refl s
  | cons event rest ih =>
      rw [handleModelEvents, wp_bind]
      refine wp_mono (handleModelEvent_delivers threadId turnId outputContext event s)
        (fun _ t ht => ?_) (fun _ _ h => h)
      refine wp_mono (ih t) (fun _ u hu => ?_) (fun _ _ h => h)
      have hboth := ht.append hu
      cases hevent : eventDelivery outputContext event <;> simpa [hevent] using hboth

/-- Every answer that is consumed is heard in full, one after another. -/
theorem runRounds_delivers (baseRequest : ModelTurnRequest)
    (outputContext : Option InteractionContext) (answers : List GatewayAnswer)
    (results : List ToolResultInjection) (fingerprint : String) (repeatedToolRounds : Nat)
    (s : AppServer) :
    wp (runRounds baseRequest outputContext answers results fingerprint repeatedToolRounds)
      (fun ending t => endingOf answers = some ending ∧
        Delivers ((consumed answers).flatMap (roundDeliveries outputContext)) s t)
      (fun _ t => endingOf answers = none ∧
        Delivers ((consumed answers).flatMap (roundDeliveries outputContext) ++ [.round]) s t)
      s := by
  induction answers generalizing results fingerprint repeatedToolRounds s with
  | nil =>
      rw [runRounds, wp_bind, wp_observe, wp_throw]
      exact ⟨rfl, .observed _ s⟩
  | cons answer answers ih =>
      rw [runRounds, wp_bind, wp_observe, wp_bind]
      refine wp_mono (handleModelEvents_delivers _ _ _ answer.events _) (fun _ t ht => ?_)
        (fun _ _ h => h.elim)
      have hround : Delivers (roundDeliveries outputContext answer) s t :=
        (Delivers.observed _ s).append ht
      unfold endingOf consumed
      cases answer.outcome with
      | error error => exact ⟨rfl, by simpa using hround⟩
      | ok summary =>
          dsimp only
          split
          · exact ⟨rfl, by simpa using hround⟩
          · rw [wp_bind]
            refine wp_mono (executeModelToolCalls_does (P := fun _ => False)
              (O := fun observation => observation.delivery = none) (fun _ h => h) _
              (fun _ _ => rfl) summary.toolCalls t) (fun results u hu => ?_) (fun _ _ h => h.elim)
            rw [wp_bind]
            refine wp_mono (loopDiagnostics_does (P := fun _ => False)
              (O := fun observation => observation.delivery = none) _ u) (fun diagnostics v hv => ?_)
              (fun _ _ h => h.elim)
            have hsilent : Delivers (roundDeliveries outputContext answer) s v := by
              simpa using hround.append (hu.trans hv).delivers
            simp only [List.flatMap_cons, List.append_assoc]
            exact wp_mono (ih _ _ _ v) (fun _ w hw => ⟨hw.1, hsilent.append hw.2⟩)
              (fun _ w hw => ⟨hw.1, hsilent.append hw.2⟩)

theorem completeTurn_summary (threadId : ThreadId) (turnId : TurnId) (finalMessage : String)
    (s : TurnRuntime) :
    wp (completeTurn threadId turnId finalMessage)
      (fun turn _ => turn.summary = some finalMessage) (fun _ _ => True) s := by
  unfold completeTurn
  rw [wp_lookups]
  refine ⟨fun _ _ => trivial, fun thread _ => ⟨fun _ => trivial, fun turn _ => ?_⟩⟩
  unfold closeTurn
  rw [wp_bind, wp_modifyTurns, wp_bind, wp_drawn, wp_bind]
  refine wp_mono (appendTransition_keepsTurns _ _ _ _ _ _) (fun _ t _ => ?_) (fun _ _ _ => trivial)
  rw [wp_bind]
  exact wp_mono (stored_keepsTurns _ t) (fun _ _ _ => rfl) (fun _ _ _ => trivial)

/-- What the end of a turn may add to its rounds. -/
inductive Closing (outputContext : Option InteractionContext) :
    Option (Except ModelError (Option String)) → List Delivery → Prop
  /-- The gateway has not answered yet. -/
  | waiting : Closing outputContext none [.round]
  | silent (ending : Except ModelError (Option String)) : Closing outputContext (some ending) []
  | completed (message : Option String) : Closing outputContext (some (.ok message))
      [.ended (some (applyOutputPolicy outputContext (message.getD "Completed turn")))]

theorem finishModelTurn_delivers (threadId : ThreadId) (turnId : TurnId)
    (outputContext : Option InteractionContext) (ending : Except ModelError (Option String))
    (s : AppServer) :
    wp (finishModelTurn threadId turnId outputContext ending)
      (fun _ t => ∃ tail, Closing outputContext (some ending) tail ∧ Delivers tail s t)
      (fun _ _ => False) s := by
  have hcompile := compileMemoryForThread_does (P := fun _ => False)
    (O := fun observation => observation.delivery = none) (fun _ h => h)
  cases ending with
  | error error =>
      unfold finishModelTurn failModelTurn
      rw [wp_bind, wp_onRuntime, wp_onTurns]
      refine wp_mono (failTurn_erases threadId turnId error.display) (fun turn turns _ => ?_)
        (fun _ turns _ => ⟨[], .silent _, [], by simp, rfl⟩)
      dsimp only
      rw [wp_bind, wp_publish]
      refine wp_mono (hcompile threadId (some turnId) _) (fun _ t ht => ?_) (fun _ _ h => h)
      exact ⟨[], .silent _, (Delivers.observed (.published
        ⟨threadId, some turn.id, .turnFailed turn error.display⟩) _).append ht.delivers⟩
  | ok message =>
      unfold finishModelTurn completeModelTurn
      dsimp only
      rw [wp_bind, wp_onRuntime, wp_onTurns]
      refine wp_mono (completeTurn_summary threadId turnId _ _) (fun turn turns hturn => ?_)
        (fun _ turns _ => ⟨[], .silent _, [], by simp, rfl⟩)
      dsimp only
      rw [wp_bind, wp_publish]
      refine wp_mono (hcompile threadId (some turnId) _) (fun _ t ht => ?_) (fun _ _ h => h)
      refine ⟨_, .completed message, ?_⟩
      have hended : Delivers [.ended turn.summary] s t := (Delivers.observed (.published
        ⟨threadId, some turn.id, .turnCompleted turn⟩) _).append ht.delivers
      rwa [hturn] at hended

/-- What is heard of a turn at the model: every answer that is consumed, and the end of the turn. -/
theorem streamModelTurn_delivers (thread : Thread) (turn : Turn)
    (systemPrompt developerPrompt userPrompt : String)
    (outputContext : Option InteractionContext) (answers : List GatewayAnswer) (s : AppServer) :
    ∃ tail, Closing outputContext (endingOf answers) tail ∧
      deliveredBy (streamModelTurn thread turn systemPrompt developerPrompt userPrompt outputContext
        answers) s = (consumed answers).flatMap (roundDeliveries outputContext) ++ tail := by
  let heard (t : AppServer) : Prop := ∃ tail, Closing outputContext (endingOf answers) tail ∧
    Delivers ((consumed answers).flatMap (roundDeliveries outputContext) ++ tail) s t
  have hheard : wp (streamModelTurn thread turn systemPrompt developerPrompt userPrompt
      outputContext answers) (fun _ => heard) (fun _ => heard) s := by
    rw [streamModelTurn, wp_bind]
    refine wp_mono (runRounds_delivers _ _ _ _ _ _ s) ?_ ?_
    · rintro ending t ⟨hending, ht⟩
      refine wp_mono (finishModelTurn_delivers thread.id turn.id outputContext ending t) ?_
        (fun _ _ h => h.elim)
      rintro _ u ⟨tail, hclosing, hu⟩
      exact ⟨tail, hending ▸ hclosing, ht.append hu⟩
    · rintro _ t ⟨hending, ht⟩
      exact ⟨[.round], hending ▸ .waiting, ht⟩
  obtain ⟨tail, hclosing, more, hmore, hdelivered⟩ := wp_after.mp hheard
  refine ⟨tail, hclosing, ?_⟩
  rw [deliveredBy, hmore, List.drop_left, hdelivered]

end Programs

/-! ### What is withheld -/

section Analysis

variable {context : InteractionContext} {outputContext : Option InteractionContext}
  {answers : List GatewayAnswer} {ending : Option (Except ModelError (Option String))}
  {tail : List Delivery}

theorem streams_append {delivered rest : List Delivery} (h : ∀ d ∈ delivered, d ≠ .round) :
    streams (delivered ++ rest) = streams rest := by
  induction delivered with
  | nil => rfl
  | cons d delivered ih =>
      rw [List.forall_mem_cons] at h
      cases d with
      | round => exact absurd rfl h.1
      | _ => exact ih h.2

/-- The chunks heard in a round are the chunks of its answer. -/
theorem streams_round (answer : GatewayAnswer) {rest : List Delivery}
    (hrest : (rest.takeWhile (· ≠ .round)).filterMap Delivery.chunkText = []) :
    streams (roundDeliveries outputContext answer ++ rest) = answer.deltas :: streams rest := by
  have hnoround : ∀ d ∈ answer.events.filterMap (eventDelivery outputContext), d ≠ .round := by
    intro d hd
    obtain ⟨event, -, hevent⟩ := List.mem_filterMap.mp hd
    cases event <;> simp only [eventDelivery, Option.some.injEq, reduceCtorEq] at hevent <;>
      simp [← hevent]
  have hchunk : ∀ event, (eventDelivery outputContext event).bind Delivery.chunkText = event.delta := by
    intro event
    cases event <;> rfl
  rw [roundDeliveries, List.cons_append, streams, streams_append hnoround,
    List.takeWhile_append_of_pos (by simpa using hnoround), List.filterMap_append, hrest,
    List.append_nil, List.filterMap_filterMap]
  simp only [hchunk, GatewayAnswer.deltas]

theorem streams_rounds (answers : List GatewayAnswer)
    (htail : (tail.takeWhile (· ≠ .round)).filterMap Delivery.chunkText = []) :
    streams (answers.flatMap (roundDeliveries outputContext) ++ tail) =
      answers.map GatewayAnswer.deltas ++ streams tail := by
  induction answers with
  | nil => rfl
  | cons answer rest ih =>
      have hrest : ((rest.flatMap (roundDeliveries outputContext) ++ tail).takeWhile
          (· ≠ .round)).filterMap Delivery.chunkText = [] := by
        cases rest with
        | nil => exact htail
        | cons next rest => simp [roundDeliveries]
      rw [List.flatMap_cons, List.append_assoc, streams_round answer hrest, ih, List.map_cons,
        List.cons_append]

theorem zip_map_append {α β : Type} (l : List α) (f : α → β) (more : List β) :
    l.zip (l.map f ++ more) = l.map fun a => (a, f a) := by
  induction l with
  | nil => rfl
  | cons a l ih => simp [ih]

theorem eventDelivery_eq_completed {event : NormalizedTurnEvent} {text : String} :
    eventDelivery outputContext event = some (.completed text) ↔
      ∃ message, event.message = some message ∧ applyOutputPolicy outputContext message = text := by
  cases event <;> simp [eventDelivery, NormalizedTurnEvent.message]

theorem completed_mem_iff {text : String}
    (hclosing : Closing outputContext ending tail) :
    .completed text ∈ (consumed answers).flatMap (roundDeliveries outputContext) ++ tail ↔
      ∃ answer ∈ consumed answers, ∃ message ∈ answer.messages,
        applyOutputPolicy outputContext message = text := by
  have htail : Delivery.completed text ∉ tail := by cases hclosing <;> simp
  simp only [List.mem_append, htail, or_false, List.mem_flatMap, roundDeliveries, List.mem_cons,
    reduceCtorEq, false_or, List.mem_filterMap, eventDelivery_eq_completed, GatewayAnswer.messages]
  grind

theorem ended_mem_iff {text : String} (hclosing : Closing outputContext ending tail) :
    .ended (some text) ∈ (consumed answers).flatMap (roundDeliveries outputContext) ++ tail ↔
      tail = [.ended (some text)] := by
  have hrounds : .ended (some text) ∉ (consumed answers).flatMap (roundDeliveries outputContext) := by
    simp only [List.mem_flatMap, roundDeliveries, List.mem_cons, reduceCtorEq, false_or,
      List.mem_filterMap]
    rintro ⟨answer, -, event, -, hevent⟩
    cases event <;> simp [eventDelivery] at hevent
  rw [List.mem_append, or_iff_right hrounds]
  cases hclosing <;> simp [eq_comm]

theorem join_of_chunks {chunks more : List String} (h : chunks <:+: more) :
    (String.join chunks).toList <:+: (String.join more).toList := by
  obtain ⟨before, later, rfl⟩ := h
  simp only [String.toList_join, List.flatMap_append]
  exact ⟨_, _, rfl⟩

/-- What is heard withholds what is not allowed exactly when every streamed text, every delivered
message of the model and its delivered summary are allowed. -/
theorem withheld_iff (hclosing : Closing outputContext ending tail) :
    Withheld context answers
        ((consumed answers).flatMap (roundDeliveries outputContext) ++ tail) ↔
      (∀ answer ∈ consumed answers, answer.deltas ≠ [] →
        checkOutput context (String.join answer.deltas) = .allowed) ∧
      (∀ answer ∈ consumed answers, ∀ message ∈ answer.messages,
        Says answers (applyOutputPolicy outputContext message) →
          checkOutput context (applyOutputPolicy outputContext message) = .allowed) ∧
      ∀ text, tail = [.ended (some text)] → Says answers text →
        checkOutput context text = .allowed := by
  have htail : (tail.takeWhile (· ≠ .round)).filterMap Delivery.chunkText = [] := by
    cases hclosing <;> rfl
  have hzip : (consumed answers).zip
        (streams ((consumed answers).flatMap (roundDeliveries outputContext) ++ tail)) =
      (consumed answers).map fun answer => (answer, answer.deltas) := by
    rw [streams_rounds _ htail, zip_map_append]
  constructor
  · intro h
    refine ⟨fun answer hanswer hdeltas => ?_, fun answer hanswer message hmessage hsays => ?_,
      fun text htext hsays => ?_⟩
    · by_contra hallowed
      have hmem : (answer, answer.deltas) ∈ (consumed answers).zip
          (streams ((consumed answers).flatMap (roundDeliveries outputContext) ++ tail)) := by
        rw [hzip]
        exact List.mem_map_of_mem hanswer
      have hne := h.streamed answer answer.deltas hmem 0 answer.deltas.length
      simp only [List.drop_zero, List.take_length] at hne
      exact hne hdeltas hallowed rfl
    · by_contra hallowed
      exact h.completed _ hsays hallowed
        ((completed_mem_iff hclosing).mpr ⟨answer, hanswer, message, hmessage, rfl⟩)
    · by_contra hallowed
      exact h.ended _ hsays hallowed ((ended_mem_iff hclosing).mpr htext)
  · rintro ⟨hstreamed, hcompleted, hended⟩
    refine ⟨fun text hsays hallowed hmem => ?_, fun text hsays hallowed hmem => ?_,
      fun answer stream hmem i k hchunks hallowed => ?_⟩
    · obtain ⟨answer, hanswer, message, hmessage, rfl⟩ := (completed_mem_iff hclosing).mp hmem
      exact hallowed (hcompleted answer hanswer message hmessage hsays)
    · exact hallowed (hended text ((ended_mem_iff hclosing).mp hmem) hsays)
    · rw [hzip] at hmem
      obtain ⟨same, hanswer, heq⟩ := List.mem_map.mp hmem
      obtain ⟨rfl, rfl⟩ := Prod.mk.inj heq
      have hpart : (same.deltas.drop i).take k <:+: same.deltas :=
        (List.take_prefix _ _).isInfix.trans (List.drop_suffix _ _).isInfix
      have hdeltas : same.deltas ≠ [] := by
        intro hnil
        simp [hnil] at hchunks
      exact absurd (checkOutput_of_part (join_of_chunks hpart) (hstreamed same hanswer hdeltas)) hallowed

end Analysis

/-! ### A turn that is completed

On a disk that never fails, and without tools, the rounds leave threads, logs and turns as they are,
and the turn can be completed. -/

/-- Threads, logs and active turns are as they were. -/
structure Stands (s t : RuntimeCoordinator) : Prop where
  threads : t.stores.threads = s.stores.threads
  turnLogs : t.stores.turnLogs = s.stores.turnLogs
  activeTurns : t.turnManager.activeTurns = s.turnManager.activeTurns

theorem Stands.refl (s : RuntimeCoordinator) : Stands s s := ⟨rfl, rfl, rfl⟩

theorem Stands.trans ⦃s t u : RuntimeCoordinator⦄ (h : Stands s t) (h' : Stands t u) :
    Stands s u :=
  ⟨h'.threads.trans h.threads, h'.turnLogs.trans h.turnLogs, h'.activeTurns.trans h.activeTurns⟩

abbrev ServerStands (s t : AppServer) : Prop := Stands s.runtime t.runtime

theorem ServerStands.refl (s : AppServer) : ServerStands s s := Stands.refl s.runtime

theorem ServerStands.trans ⦃s t u : AppServer⦄ (h : ServerStands s t) (h' : ServerStands t u) :
    ServerStands s u := Stands.trans h h'

section Completion

variable [World]

theorem localThreadExecutionScope_stands (threadId : ThreadId) :
    Always ServerStands (localThreadExecutionScope threadId) :=
  localThreadExecutionScope_always threadId fun _ => ⟨rfl, rfl, rfl⟩

theorem handleModelEvents_stands (threadId : ThreadId) (turnId : TurnId)
    (outputContext : Option InteractionContext) (events : List NormalizedTurnEvent) :
    Always ServerStands (handleModelEvents threadId turnId outputContext events) :=
  handleModelEvents_always ServerStands.refl ServerStands.trans
    (localThreadExecutionScope_stands _) (fun _ _ s => .refl s) outputContext events

theorem loopDiagnostics_stands (repeatedToolRounds : Nat) :
    Always ServerStands (loopDiagnostics repeatedToolRounds) := by
  apply loopDiagnostics_always ServerStands.refl ServerStands.trans
  exact fun _ _ => Always.modifyGet fun _ => ⟨rfl, rfl, rfl⟩

variable (hnotools : ∀ n request, ∃ e, World.executeTool n request = .error e)
include hnotools

theorem executeModelToolCalls_stands (threadId : ThreadId) (turnId : TurnId)
    (toolCalls : List ProviderToolCall) :
    Always ServerStands (executeModelToolCalls threadId turnId toolCalls) := by
  have hexecute : ∀ caller request s, wp (executeTool caller request)
      (fun result t => (∃ e, result = .error e) ∧ ServerStands s t) (fun _ _ => False) s := by
    intro caller request s
    unfold executeTool
    dsimp only
    split
    · exact ⟨⟨_, rfl⟩, .refl s⟩
    · obtain ⟨e, he⟩ := hnotools s.executions request
      simp only [wp_bind, wp_get, wp_modify, wp_observe, wp_pure, he]
      exact ⟨⟨e, rfl⟩, .refl s⟩
  apply executeModelToolCalls_always ServerStands.refl ServerStands.trans
  intro toolCall _
  apply Always.bind ServerStands.trans (localThreadExecutionScope_stands threadId)
  intro scope
  cases parseToolInvocation toolCall.toolName toolCall.arguments with
  | error _ => exact fun s => ServerStands.refl s
  | ok invocation =>
      intro s
      dsimp only
      rw [wp_bind]
      refine wp_mono (hexecute _ _ s) ?_ (fun _ _ h => h.elim)
      intro result t hresult
      obtain ⟨⟨e, hfailed⟩, ht⟩ := hresult
      rw [hfailed]
      exact ht

theorem runRounds_stands (baseRequest : ModelTurnRequest)
    (outputContext : Option InteractionContext) (answers : List GatewayAnswer)
    (results : List ToolResultInjection) (fingerprint : String) (repeatedToolRounds : Nat) :
    Guarantees ServerStands
      (runRounds baseRequest outputContext answers results fingerprint repeatedToolRounds) := by
  apply runRounds_guarantees ServerStands.refl ServerStands.trans
  · exact fun _ s => .refl s
  · exact handleModelEvents_stands _ _ _
  · exact fun _ _ _ _ => executeModelToolCalls_stands hnotools _ _ _
  · exact loopDiagnostics_stands

omit hnotools in
/-- A turn of a stored thread is completed when the disk does not fail. -/
theorem completeTurn_succeeds (hcalm : ∀ n, Disk.fault n = none) {threadId : ThreadId}
    {turnId : TurnId} {thread : Thread} {turn : Turn} {s : TurnRuntime}
    (hthread : s.stores.threads.lookup threadId = some (.intact thread))
    (hlog : (s.stores.turnLog thread.id).tail ≠ .torn)
    (hturn : s.turnManager.activeTurns.lookup turnId = some turn) (finalMessage : String) :
    wp (completeTurn threadId turnId finalMessage)
      (fun turn _ => turn.summary = some finalMessage) (fun _ _ => False) s := by
  have hfound : foundThread s.stores threadId = .ok thread := by
    simp [foundThread, hcalm, hthread, readOutcome]
  have hread : ∀ e, logOutcome none (s.stores.turnLog thread.id) ≠ .error e := by
    intro e h
    simp only [logOutcome, TurnLogFile.read] at h
    exact absurd h (by simp)
  unfold completeTurn closeTurn
  rw [wp_lookups]
  refine ⟨fun e he => ?_, fun found hok => ⟨fun hnone => ?_, fun active hactive => ?_⟩⟩
  · rw [hfound] at he
    exact absurd he (by simp)
  · rw [hturn] at hnone
    exact absurd hnone (by simp)
  · obtain rfl := Except.ok.inj (hfound.symm.trans hok)
    rw [wp_bind, wp_modifyTurns, wp_bind, wp_drawn, wp_bind, wp_appendTransition]
    refine ⟨fun entries _ entry _ => ⟨fun _ => ?_, fun fault hfault => ?_⟩, fun e he => ?_⟩
    · simp only [wp_bind, wp_stored, wp_putThread, wp_pure]
      refine ⟨fun _ => trivial, fun fault hfault => ?_⟩
      rw [hcalm] at hfault
      exact absurd hfault (by simp)
    · rw [hcalm] at hfault
      exact absurd hfault (by simp)
    · rw [readLog, hcalm] at he
      exact hread e he

/-- The summary of a turn that ends without an error is delivered. -/
theorem ended_mem_deliveredBy (hcalm : ∀ n, Disk.fault n = none) {thread stored : Thread}
    {turn active : Turn} {s : AppServer}
    (hthread : s.runtime.stores.threads.lookup thread.id = some (.intact stored))
    (hlog : (s.runtime.stores.turnLog stored.id).tail ≠ .torn)
    (hturn : s.runtime.turnManager.activeTurns.lookup turn.id = some active)
    (systemPrompt developerPrompt userPrompt : String)
    (outputContext : Option InteractionContext) {answers : List GatewayAnswer}
    {message : Option String} (hending : endingOf answers = some (.ok message)) :
    .ended (some (applyOutputPolicy outputContext (message.getD "Completed turn"))) ∈
      deliveredBy (streamModelTurn thread turn systemPrompt developerPrompt userPrompt
        outputContext answers) s := by
  let ended := Delivery.ended (some (applyOutputPolicy outputContext
    (message.getD "Completed turn")))
  let heard (t : AppServer) : Prop := ∃ before, Delivers (before ++ [ended]) s t
  have hheard : wp (streamModelTurn thread turn systemPrompt developerPrompt userPrompt
      outputContext answers) (fun _ => heard) (fun _ => heard) s := by
    rw [streamModelTurn, wp_bind]
    refine wp_mono (wp_and (runRounds_delivers _ _ _ _ _ _ s)
      (runRounds_stands hnotools _ _ answers _ _ _ s)) ?_ ?_
    · rintro _ t ⟨⟨hsome, ht⟩, hstands⟩
      obtain rfl := Option.some.inj (hending.symm.trans hsome)
      unfold finishModelTurn completeModelTurn
      dsimp only
      rw [wp_bind, wp_onRuntime, wp_onTurns]
      refine wp_mono (completeTurn_succeeds hcalm (hstands.threads ▸ hthread) ?_
        (hstands.activeTurns ▸ hturn) _) (fun completed turns hsummary => ?_) (fun _ _ h => h.elim)
      · rwa [RuntimeStores.turnLog, hstands.turnLogs]
      · dsimp only
        rw [wp_bind, wp_publish]
        refine wp_mono (compileMemoryForThread_does (P := fun _ => False)
          (O := fun observation => observation.delivery = none) (fun _ h => h) _ _ _)
          (fun _ u hu => ?_) (fun _ _ h => h.elim)
        have hended : Delivers [.ended completed.summary] t u := (Delivers.observed (.published
          ⟨thread.id, some completed.id, .turnCompleted completed⟩) _).append hu.delivers
        rw [hsummary] at hended
        exact ⟨_, ht.append hended⟩
    · rintro _ t ⟨⟨hnone, -⟩, -⟩
      rw [hending] at hnone
      exact absurd hnone (by simp)
  obtain ⟨before, more, hmore, hdelivered⟩ := wp_after.mp hheard
  rw [deliveredBy, hmore, List.drop_left, hdelivered]
  exact List.mem_append_right _ (List.mem_singleton_self _)

end Completion

/-! ### A server with a started turn -/

/-- The server while its first turn runs. -/
def startedServer : AppServer :=
  after (@onRuntime Turn (@RuntimeCoordinator.startTurn plainWorld.toDisk plainWorld.toClock
    (turnRequest "Any news?"))) oneThreadServer

def startedTurn : Turn :=
  Turn.started "turn_0_1" "unix:0.000000000" (Thread.blank "thread_0_1") (turnRequest "Any news?")

def startedThread : Thread :=
  (Thread.blank "thread_0_1").started "turn_0_1" "unix:0.000000000" "Any news?"

theorem startedServer_thread :
    startedServer.runtime.stores.threads.lookup "thread_0_1" = some (.intact startedThread) := by
  decide +kernel

theorem startedServer_log :
    (startedServer.runtime.stores.turnLog "thread_0_1").tail ≠ .torn := by
  decide +kernel

theorem startedServer_turn :
    startedServer.runtime.turnManager.activeTurns.lookup "turn_0_1" = some startedTurn := by
  decide +kernel

/-! ### Turns started with an interaction context -/

section Entries

variable [World] {request : TurnStartRequest} {context : InteractionContext}

/-- A turn that needs no approval comes to the model with the context it was started with. -/
theorem decideTurn_direct (hcontext : request.interactionContext = some context)
    (answers : List GatewayAnswer) (turn : Turn) (thread : Thread) (assembled : AssembledContext)
    (s : AppServer) (hmay : MayRun s.approvalPolicy request.input) :
    decideTurn request answers turn thread assembled s =
      streamModelTurn thread turn assembled.systemPrompt assembled.developerPrompt
        assembled.userPrompt (TurnEntry.direct.outputContext context) answers s := by
  change (if s.approvalPolicy = .onRequest ∧
      (evaluatePolicy request.input assembled).requiresApproval = true then
    requestApproval thread.id turn.id (evaluatePolicy request.input assembled)
    else streamModelTurn thread turn assembled.systemPrompt assembled.developerPrompt
      assembled.userPrompt request.interactionContext answers) s = _
  rw [requiresApproval_eq, if_neg hmay, hcontext]
  rfl

/-- A turn that has waited for its approval comes to the model without a context. -/
theorem runResumedTurn_resumed (context : InteractionContext) (approval : ApprovalRequest)
    (answers : List GatewayAnswer) (turn : Turn) :
    runResumedTurn approval answers turn = (do
      match ← onRuntime (onTurns (readThread approval.threadId)) with
      | .ok (some thread) => do
          match ← onRuntime (onTurns (assembleContext thread.id (turn.goal.getD ""))) with
          | .ok assembled =>
              streamModelTurn thread turn assembled.systemPrompt assembled.developerPrompt
                assembled.userPrompt (TurnEntry.resumed.outputContext context) answers
          | .error _ => pure ()
      | _ => pure ()) := rfl

end Entries

/-- Every state of the server and every storage behaviour withholds what is not allowed exactly when
the policy gets hold of everything the model says. -/
theorem output_withheld_iff (context : InteractionContext) (entry : TurnEntry)
    (answers : List GatewayAnswer) :
    (∀ (world : World) (thread : Thread) (turn : Turn)
        (systemPrompt developerPrompt userPrompt : String) (s : AppServer),
      Withheld context answers (deliveredBy (@streamModelTurn world thread turn systemPrompt
        developerPrompt userPrompt (entry.outputContext context) answers) s)) ↔
      Guarded context entry answers := by
  constructor
  · intro h
    have hstarted := h plainWorld startedThread startedTurn "" "" "" startedServer
    obtain ⟨tail, hclosing, hdelivered⟩ := @streamModelTurn_delivers plainWorld startedThread
      startedTurn "" "" "" (entry.outputContext context) answers startedServer
    rw [hdelivered, withheld_iff hclosing] at hstarted
    obtain ⟨hstreamed, hcompleted, hended⟩ := hstarted
    refine ⟨hstreamed, fun answer hanswer message hmessage =>
      letsPass_iff.mpr (hcompleted answer hanswer message hmessage), fun message hending =>
      letsPass_iff.mpr (hended _ ?_)⟩
    have hmem := @ended_mem_deliveredBy plainWorld (fun _ _ => ⟨_, rfl⟩) (fun _ => rfl)
      startedThread startedThread startedTurn startedTurn startedServer startedServer_thread
      startedServer_log startedServer_turn "" "" "" (entry.outputContext context) answers message
      hending
    rw [hdelivered] at hmem
    exact (ended_mem_iff hclosing).mp hmem
  · intro h world thread turn systemPrompt developerPrompt userPrompt s
    obtain ⟨tail, hclosing, hdelivered⟩ := @streamModelTurn_delivers world thread turn systemPrompt
      developerPrompt userPrompt (entry.outputContext context) answers s
    rw [hdelivered, withheld_iff hclosing]
    refine ⟨h.streamed, fun answer hanswer message hmessage =>
      letsPass_iff.mp (h.completed answer hanswer message hmessage), fun text htext => ?_⟩
    generalize hending : endingOf answers = ending at hclosing
    cases hclosing with
    | waiting => exact absurd htext (by simp)
    | silent => exact absurd htext (by simp)
    | completed message =>
        obtain rfl : applyOutputPolicy (entry.outputContext context)
            (message.getD "Completed turn") = text := by simpa using htext
        exact letsPass_iff.mp (h.ended message hending)

/-! ### A commitment in two chunks -/

def commitmentAnswer : GatewayAnswer :=
  { events := [.assistantDelta "Current commit", .assistantDelta "ment: finish the review."]
    outcome := .ok
      { assistantMessage := some "Current commitment: finish the review.", toolCalls := [] } }

/-- The group hears the commitment that its summary leaves out. -/
theorem commitment_streamed_to_group :
    ¬ ∀ (context : InteractionContext) (entry : TurnEntry) (answers : List GatewayAnswer)
      (world : World) (thread : Thread) (turn : Turn)
      (systemPrompt developerPrompt userPrompt : String) (s : AppServer),
      Withheld context answers (deliveredBy (@streamModelTurn world thread turn systemPrompt
        developerPrompt userPrompt (entry.outputContext context) answers) s) := by
  intro hclaim
  have hwithheld := hclaim (visitor .humanContact) .direct [commitmentAnswer] plainWorld startedThread
    startedTurn "" "" "" startedServer
  have hdelivered : deliveredBy (@streamModelTurn plainWorld startedThread startedTurn "" "" ""
      (TurnEntry.direct.outputContext (visitor .humanContact)) [commitmentAnswer]) startedServer =
        [.round, .chunk "Current commit", .chunk "ment: finish the review.",
          .ended (some "Current follow-up: finish the review.")] := by
    decide +kernel
  rw [hdelivered] at hwithheld
  exact hwithheld.streamed commitmentAnswer ["Current commit", "ment: finish the review."]
    (List.mem_singleton_self _) 0 2 (by decide) (by decide +kernel) rfl

end Liz
