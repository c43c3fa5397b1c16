import Liz.Runtime.ContextAssembler

/-!
# What the assembled context discloses

Three boundaries a relationship draws: the private state of a thread when neither active state nor
commitments are shared, the topics that are forbidden, and everything when nothing is shared at all.
The wake-up is filtered by each of them; what stands next to the filters (the thread projection, the
subject of a fact, the citations) is not.
-/

namespace Liz

/-- Two snapshots, threads and logs that differ in private state only. -/
structure PrivatelyEqual (snapshot snapshot' : GlobalMemorySnapshot) (thread thread' : Thread)
    (log log' : List TurnLogEntry) : Prop where
  snapshot : snapshot' = { snapshot with activeStateSummary := snapshot'.activeStateSummary }
  thread : thread' = { thread with
    pendingCommitments := thread'.pendingCommitments
    activeGoal := thread'.activeGoal
    activeSummary := thread'.activeSummary }
  log : List.Forall₂ (fun entry entry' => entry' = { entry with summary := entry'.summary }) log log'

/-- The relationship shares neither active state nor commitments, and is not the owner's. -/
structure RelationshipContext.ClosedToState (relationship : RelationshipContext) : Prop where
  notOwner : relationship.trustLevel ≠ .owner
  activeState : relationship.boundary.shareActiveState = false
  commitments : relationship.boundary.shareCommitments = false

/-! ### Private state -/

section PrivateState

variable [Unicode] {snapshot snapshot' : GlobalMemorySnapshot} {thread thread' : Thread}
  {log log' : List TurnLogEntry} {input : String} {relationship : RelationshipContext}

omit [Unicode] in
theorem not_allowsActiveState (h : relationship.ClosedToState) :
    relationshipAllowsActiveState relationship = false := by
  simp [relationshipAllowsActiveState, h.notOwner, h.activeState]

/-- The wake-up, and with it the system prompt, does not depend on private state. -/
theorem systemPrompt_eq (h : relationship.ClosedToState)
    (hequal : PrivatelyEqual snapshot snapshot' thread thread' log log') :
    (assembleFor relationship snapshot' thread' log' input).systemPrompt =
      (assembleFor relationship snapshot thread log input).systemPrompt := by
  have hwakeup : assembleWakeup snapshot' thread' relationship =
      assembleWakeup snapshot thread relationship := by
    rw [hequal.snapshot]
    simp only [assembleWakeup, filterIdentitySummary, filterActiveState, filterCommitments,
      filterRecent, not_allowsActiveState h, h.commitments, shownFacts, liveFacts]
    rfl
  unfold assembleFor renderSystemPrompt assembleLayers
  dsimp only
  rw [hwakeup]

omit [Unicode] in
/-- The developer prompt repeats the thread projection whatever the relationship. -/
theorem threadProjection_eq_of_developerPrompt_eq {layers layers' : ContextLayers}
    (hworkspace : thread'.workspaceRef = thread.workspaceRef)
    (hrecent : layers'.recentConversation = layers.recentConversation)
    (htask : layers'.taskLocal = layers.taskLocal)
    (hexecutor : layers'.executorBoundary = layers.executorBoundary)
    (h : renderDeveloperPrompt snapshot thread' relationship layers' =
      renderDeveloperPrompt snapshot thread relationship layers) :
    layers'.threadProjection = layers.threadProjection := by
  unfold renderDeveloperPrompt at h
  rw [hrecent, htask, hexecutor, hworkspace] at h
  dsimp only at h
  simpa only [String.append_left_inj, String.append_right_inj] using h

omit [Unicode] in
theorem goal_eq_of_threadProjection_eq {goal : String}
    (h : renderThreadProjection { thread with activeGoal := some goal } =
      renderThreadProjection thread) : goal = thread.activeGoal.getD "" := by
  unfold renderThreadProjection at h
  simpa only [String.append_left_inj, String.append_right_inj, Option.getD_some] using h

theorem developerPrompt_ne_of_goal {goal : String} (hgoal : goal ≠ thread.activeGoal.getD "") :
    (assembleFor relationship snapshot { thread with activeGoal := some goal } log
        input).developerPrompt ≠ (assembleFor relationship snapshot thread log input).developerPrompt := by
  intro h
  have hprojection : (assembleLayers snapshot { thread with activeGoal := some goal } log input
      relationship).threadProjection =
        (assembleLayers snapshot thread log input relationship).threadProjection := by
    simp only [assembleFor] at h
    refine threadProjection_eq_of_developerPrompt_eq ?_ ?_ ?_ ?_ h
    all_goals rfl
  exact hgoal (goal_eq_of_threadProjection_eq hprojection)

/-- No input, relationship, memory, thread or log is without a private change that reaches the
developer prompt. -/
theorem private_state_reaches_prompts (input : String) (participant : Option ParticipantRef)
    (interactionContext : Option InteractionContext) (snapshot : GlobalMemorySnapshot)
    (thread : Thread) (log : List TurnLogEntry)
    (_hclosed : (resolveRelationship snapshot participant interactionContext).ClosedToState) :
    ¬ ∀ snapshot' thread' log', PrivatelyEqual snapshot snapshot' thread thread' log log' →
      (assemble snapshot' thread' log' input participant interactionContext).systemPrompt =
          (assemble snapshot thread log input participant interactionContext).systemPrompt ∧
        (assemble snapshot' thread' log' input participant interactionContext).developerPrompt =
          (assemble snapshot thread log input participant interactionContext).developerPrompt := by
  intro hall
  have hrefl : List.Forall₂
      (fun entry entry' : TurnLogEntry => entry' = { entry with summary := entry'.summary }) log log :=
    List.forall₂_same.mpr fun _ _ => rfl
  obtain ⟨-, hprompt⟩ := hall snapshot
    { thread with activeGoal := some (thread.activeGoal.getD "" ++ "!") } log ⟨rfl, rfl, hrefl⟩
  refine developerPrompt_ne_of_goal ?_ hprompt
  intro happend
  have hlength := congrArg String.length happend
  simp at hlength

end PrivateState

theorem private_state_reaches_prompts_of_stranger :
    (resolveRelationship .empty none none).ClosedToState ∧
      ¬ ∀ snapshot' thread' log',
        PrivatelyEqual .empty snapshot' (Thread.blank "thread_0_1") thread' [] log' →
        (@assemble asciiTable snapshot' thread' log' "hello" none none).systemPrompt =
            (@assemble asciiTable .empty (Thread.blank "thread_0_1") [] "hello" none none).systemPrompt ∧
          (@assemble asciiTable snapshot' thread' log' "hello" none none).developerPrompt =
            (@assemble asciiTable .empty (Thread.blank "thread_0_1") [] "hello" none
              none).developerPrompt :=
  ⟨⟨by decide, rfl, rfl⟩,
    @private_state_reaches_prompts asciiTable "hello" none none .empty (Thread.blank "thread_0_1") []
      ⟨by decide, rfl, rfl⟩⟩

/-- A stranger asks the same question twice; only the goal of the thread has changed. -/
theorem private_goal_in_developerPrompt :
    ¬ ∀ (unicode : Unicode) (input : String) (participant : Option ParticipantRef)
      (interactionContext : Option InteractionContext) (snapshot snapshot' : GlobalMemorySnapshot)
      (thread thread' : Thread) (log log' : List TurnLogEntry),
      (resolveRelationship snapshot participant interactionContext).ClosedToState →
      PrivatelyEqual snapshot snapshot' thread thread' log log' →
      (@assemble unicode snapshot' thread' log' input participant interactionContext).systemPrompt =
          (@assemble unicode snapshot thread log input participant interactionContext).systemPrompt ∧
        (@assemble unicode snapshot' thread' log' input participant interactionContext).developerPrompt =
          (@assemble unicode snapshot thread log input participant interactionContext).developerPrompt := by
  intro hclaim
  have hprompts := hclaim asciiTable "What is new?" none none .empty .empty (Thread.blank "thread_0_1")
    { Thread.blank "thread_0_1" with activeGoal := some "Buy an engagement ring" } [] []
    ⟨by decide, rfl, rfl⟩ ⟨rfl, rfl, .nil⟩
  exact @developerPrompt_ne_of_goal asciiTable _ _ _ _ _ _ (by decide) hprompts.2

/-! ### Forbidden topics -/

/-- The strings of a wake-up, notes of citations included. -/
def MemoryWakeup.texts (wakeup : MemoryWakeup) : List String :=
  wakeup.activeState.toList ++ wakeup.relevantFacts ++ wakeup.openCommitments ++
    wakeup.recentTopics ++ wakeup.recentKeywords ++ wakeup.citations.map MemoryCitationRef.note

section ForbiddenTopics

variable {relationship : RelationshipContext} {topic text : String}

/-- What the filter lets through mentions no forbidden topic. -/
theorem not_mentions_of_allowsText (howner : relationship.trustLevel ≠ .owner)
    (htopic : topic ∈ relationship.boundary.forbiddenTopics)
    (hallows : relationshipAllowsText relationship text = true) : mentionsTopic text topic = false := by
  unfold relationshipAllowsText at hallows
  rw [if_neg howner] at hallows
  by_cases hany : relationship.boundary.forbiddenTopics.any (mentionsTopic text) = true
  · rw [if_pos hany] at hallows
    exact absurd hallows Bool.false_ne_true
  · rw [List.any_eq_true] at hany
    exact Bool.eq_false_iff.mpr fun hmentions => hany ⟨topic, htopic, hmentions⟩

theorem not_mentions_of_mem_filterRecent (howner : relationship.trustLevel ≠ .owner)
    (htopic : topic ∈ relationship.boundary.forbiddenTopics) {recent : List String}
    (htext : text ∈ filterRecent recent relationship) : mentionsTopic text topic = false := by
  unfold filterRecent at htext
  split at htext
  · exact not_mentions_of_allowsText howner htopic (List.of_mem_filter htext)
  · exact absurd htext List.not_mem_nil

theorem not_mentions_of_filterActiveState (howner : relationship.trustLevel ≠ .owner)
    (htopic : topic ∈ relationship.boundary.forbiddenTopics) {snapshot : GlobalMemorySnapshot}
    {thread : Thread} (htext : filterActiveState snapshot thread relationship = some text) :
    mentionsTopic text topic = false := by
  unfold filterActiveState at htext
  split at htext
  · exact not_mentions_of_allowsText howner htopic (Option.filter_eq_some_iff.mp htext).2
  · exact absurd htext (by simp)

theorem not_mentions_of_mem_filterCommitments (howner : relationship.trustLevel ≠ .owner)
    (htopic : topic ∈ relationship.boundary.forbiddenTopics) {thread : Thread}
    (htext : text ∈ filterCommitments thread relationship) : mentionsTopic text topic = false := by
  unfold filterCommitments at htext
  split at htext
  · exact not_mentions_of_allowsText howner htopic (List.of_mem_filter htext)
  · exact absurd htext List.not_mem_nil

end ForbiddenTopics

/-- A forbidden topic stays out of the wake-up exactly when it is neither in the line of a fact that
is shown for its value nor in the note of a citation that is shown unchecked. -/
theorem forbidden_topic_hidden_iff [Unicode] (snapshot : GlobalMemorySnapshot) (thread : Thread)
    (log : List TurnLogEntry) (input : String) (participant : Option ParticipantRef)
    (interactionContext : Option InteractionContext) (relationship : RelationshipContext)
    (topic : String)
    (hrelationship : resolveRelationship snapshot participant interactionContext = relationship)
    (howner : relationship.trustLevel ≠ .owner)
    (htopic : topic ∈ relationship.boundary.forbiddenTopics) (hblank : Text.isBlank topic = false) :
    (∀ text ∈ (assemble snapshot thread log input participant interactionContext).wakeup.texts,
        Text.containsIgnoreCase text topic = false) ↔
      (∀ fact ∈ shownFacts snapshot relationship,
        Text.containsIgnoreCase (factLine fact) topic = false) ∧
      (∀ citation ∈ ((liveFacts snapshot).flatMap StoredMemoryFact.citations).take 3,
        Text.containsIgnoreCase citation.note topic = false) := by
  have hmentions : ∀ text, mentionsTopic text topic = Text.containsIgnoreCase text topic := by
    intro text
    simp [mentionsTopic, hblank]
  unfold assemble
  rw [hrelationship]
  simp only [assembleFor, assembleWakeup, MemoryWakeup.texts, List.forall_mem_append,
    List.forall_mem_map]
  simp only [← hmentions]
  constructor
  · rintro ⟨⟨⟨⟨⟨-, hfacts⟩, -⟩, -⟩, -⟩, hcitations⟩
    exact ⟨hfacts, hcitations⟩
  · rintro ⟨hfacts, hcitations⟩
    refine ⟨⟨⟨⟨⟨?_, hfacts⟩, ?_⟩, ?_⟩, ?_⟩, hcitations⟩
    · intro text htext
      exact not_mentions_of_filterActiveState howner htopic (Option.mem_toList.mp htext)
    · exact fun text => not_mentions_of_mem_filterCommitments howner htopic
    · exact fun text => not_mentions_of_mem_filterRecent howner htopic
    · exact fun text => not_mentions_of_mem_filterRecent howner htopic

def salaryFact : StoredMemoryFact :=
  { id := "fact_0_1", kind := .topic, subject := "Salary", value := "95k since May", keywords := [],
    relatedThreadIds := [], citations := [], updatedAt := "unix:0.000000000", invalidatedAt := none,
    invalidatedBy := none }

/-- A trusted contact who must not hear about the owner's salary. -/
def alice : RelationshipEntry :=
  { personId := "telegram_user_7"
    displayName := "Alice"
    trustLevel := .trusted
    infoBoundary := { InfoBoundary.strangerDefault with forbiddenTopics := ["salary"] }
    interactionStance := "friendly_bounded"
    notes := none }

def aliceParticipant : ParticipantRef :=
  { externalParticipantId := "telegram_user_7", displayName := some "Alice" }

def memoryWithAlice (facts : List StoredMemoryFact) : GlobalMemorySnapshot :=
  { GlobalMemorySnapshot.empty with facts := facts, relationships := [alice] }

theorem forbidden_topic_hidden_without_facts :
    (∀ text ∈ (@assemble asciiTable (memoryWithAlice []) (Thread.blank "thread_0_1") [] "Hi"
        (some aliceParticipant) none).wakeup.texts, Text.containsIgnoreCase text "salary" = false) ↔
      (∀ fact ∈ shownFacts (memoryWithAlice [])
          (resolveRelationship (memoryWithAlice []) (some aliceParticipant) none),
        Text.containsIgnoreCase (factLine fact) "salary" = false) ∧
      (∀ citation ∈ ((liveFacts (memoryWithAlice [])).flatMap StoredMemoryFact.citations).take 3,
        Text.containsIgnoreCase citation.note "salary" = false) :=
  @forbidden_topic_hidden_iff asciiTable (memoryWithAlice []) (Thread.blank "thread_0_1") [] "Hi"
    (some aliceParticipant) none _ "salary" rfl (by decide) (by decide) (by decide)

/-- The value of the fact is harmless, its subject is the forbidden topic. -/
theorem forbidden_topic_in_subject :
    ¬ ∀ (unicode : Unicode) (snapshot : GlobalMemorySnapshot) (thread : Thread)
      (log : List TurnLogEntry) (input : String) (participant : Option ParticipantRef)
      (interactionContext : Option InteractionContext) (topic : String),
      (resolveRelationship snapshot participant interactionContext).trustLevel ≠ .owner →
      topic ∈ (resolveRelationship snapshot participant
        interactionContext).boundary.forbiddenTopics →
      Text.isBlank topic = false →
      ∀ text ∈ (@assemble unicode snapshot thread log input participant
        interactionContext).wakeup.texts, Text.containsIgnoreCase text topic = false := by
  intro hclaim
  have hhidden := hclaim asciiTable (memoryWithAlice [salaryFact]) (Thread.blank "thread_0_1") []
    "How is the owner doing?" (some aliceParticipant) none "salary" (by decide) (by decide)
    (by decide) "Salary: 95k since May" (by decide)
  exact absurd hhidden (by decide)

/-! ### Nothing shared -/

/-- Nothing of the owner's memory is in the wake-up. -/
structure MemoryWakeup.RevealsNothing (wakeup : MemoryWakeup) : Prop where
  relevantFacts : wakeup.relevantFacts = []
  citationFactIds : wakeup.citationFactIds = []
  citations : wakeup.citations = []
  identitySummary : wakeup.identitySummary = none
  activeState : wakeup.activeState = none
  openCommitments : wakeup.openCommitments = []

section NothingShared

variable {context : InteractionContext} {snapshot : GlobalMemorySnapshot}

/-- With an empty list of topics a trusted actor is told everything, every other actor nothing. -/
theorem allowsText_of_strangerDefault (howner : context.actor.kind ≠ .owner)
    (hdisclosure : context.disclosure = .strangerDefault) (participant : Option ParticipantRef)
    (text : String) :
    relationshipAllowsText (resolveRelationship snapshot participant (some context)) text = true ↔
      context.actor.kind = .humanContact ∨ context.actor.kind = .externalAgent := by
  simp only [relationshipAllowsText, resolveRelationship, hdisclosure, DisclosurePolicy.boundary,
    DisclosurePolicy.strangerDefault]
  cases hkind : context.actor.kind <;> simp_all [ActorKind.trustLevel]

theorem shownFacts_eq_nil_iff (howner : context.actor.kind ≠ .owner)
    (hdisclosure : context.disclosure = .strangerDefault) (participant : Option ParticipantRef) :
    shownFacts snapshot (resolveRelationship snapshot participant (some context)) = [] ↔
      (context.actor.kind = .humanContact ∨ context.actor.kind = .externalAgent →
        liveFacts snapshot = []) := by
  rw [shownFacts, List.take_eq_nil_iff, or_iff_right (by decide), List.filter_eq_nil_iff]
  simp only [allowsText_of_strangerDefault howner hdisclosure participant]
  constructor
  · intro hall htrusted
    exact List.eq_nil_iff_forall_not_mem.mpr fun fact hfact => hall fact hfact htrusted
  · intro hnil fact hfact htrusted
    rw [hnil htrusted] at hfact
    exact List.not_mem_nil hfact

/-- The default that is meant to reveal nothing reveals nothing exactly when no live fact has a
citation and, if the actor counts as trusted, there is no live fact at all. -/
theorem strangerDefault_revealsNothing_iff [Unicode] (snapshot : GlobalMemorySnapshot)
    (thread : Thread) (log : List TurnLogEntry) (input : String)
    (participant : Option ParticipantRef) (context : InteractionContext)
    (howner : context.actor.kind ≠ .owner) (hdisclosure : context.disclosure = .strangerDefault) :
    (assemble snapshot thread log input participant (some context)).wakeup.RevealsNothing ↔
      (∀ fact ∈ liveFacts snapshot, fact.citations = []) ∧
      (context.actor.kind = .humanContact ∨ context.actor.kind = .externalAgent →
        liveFacts snapshot = []) := by
  have hfacts : shownFacts snapshot (resolveRelationship snapshot participant (some context)) = [] ↔
      (context.actor.kind = .humanContact ∨ context.actor.kind = .externalAgent →
        liveFacts snapshot = []) := shownFacts_eq_nil_iff howner hdisclosure participant
  have hcitations : ((liveFacts snapshot).flatMap StoredMemoryFact.citations).take 3 = [] ↔
      ∀ fact ∈ liveFacts snapshot, fact.citations = [] := by
    rw [List.take_eq_nil_iff, or_iff_right (by decide), List.flatMap_eq_nil_iff]
  rw [← hfacts, ← hcitations]
  constructor
  · intro hnothing
    exact ⟨hnothing.citations, List.map_eq_nil_iff.mp hnothing.relevantFacts⟩
  · rintro ⟨hnocitations, hnofacts⟩
    have hkind : context.actor.kind.trustLevel ≠ .owner := by
      cases hcase : context.actor.kind <;> simp_all [ActorKind.trustLevel]
    refine ⟨List.map_eq_nil_iff.mpr hnofacts, List.map_eq_nil_iff.mpr hnofacts, hnocitations, ?_, ?_, ?_⟩
    all_goals simp [assemble, assembleFor, assembleWakeup, filterIdentitySummary, filterActiveState,
      filterCommitments, relationshipAllowsActiveState, resolveRelationship,
      DisclosurePolicy.boundary, hdisclosure, DisclosurePolicy.strangerDefault, hkind]

end NothingShared

/-- Someone in a group chat to whom nothing is to be disclosed. -/
def visitor (kind : ActorKind) : InteractionContext :=
  { ingress := { kind := "telegram", sourceId := "bot", conversationId := none }
    actor := { actorId := "telegram_user_9", kind := kind, displayName := none, proof := none }
    audience := { visibility := .group, participants := [] }
    role := .publicRepresentative
    authority := { AuthorityScope.restrictedDefault with requiresOwnerConfirmation := false }
    disclosure := .strangerDefault
    taskMandate := none
    provenance := { channel := none, receivedAt := none, authenticatedBy := none, rawEventRef := none } }

theorem strangerDefault_revealsNothing_of_visitor :
    (@assemble asciiTable (memoryWithAlice [salaryFact]) (Thread.blank "thread_0_1") [] "Hi" none
        (some (visitor .stranger))).wakeup.RevealsNothing ↔
      (∀ fact ∈ liveFacts (memoryWithAlice [salaryFact]), fact.citations = []) ∧
      ((visitor .stranger).actor.kind = .humanContact ∨
          (visitor .stranger).actor.kind = .externalAgent →
        liveFacts (memoryWithAlice [salaryFact]) = []) :=
  @strangerDefault_revealsNothing_iff asciiTable (memoryWithAlice [salaryFact])
    (Thread.blank "thread_0_1") [] "Hi" none (visitor .stranger) (by decide) rfl

/-- The evidence behind a fact is shown to a stranger from whom the fact itself is kept. -/
theorem strangerDefault_reveals_citations :
    ¬ ∀ (unicode : Unicode) (snapshot : GlobalMemorySnapshot) (thread : Thread)
      (log : List TurnLogEntry) (input : String) (participant : Option ParticipantRef)
      (context : InteractionContext), context.actor.kind ≠ .owner →
      context.disclosure = .strangerDefault →
      (@assemble unicode snapshot thread log input participant
        (some context)).wakeup.RevealsNothing := by
  intro hclaim
  have hnothing := hclaim asciiTable
    (memoryWithAlice [{ salaryFact with
      citations := [⟨"thread_0_1", none, none, "Salary raised to 95k"⟩] }])
    (Thread.blank "thread_0_1") [] "Hi" none (visitor .stranger) (by decide) rfl
  exact absurd hnothing.citations (by decide)

end Liz
