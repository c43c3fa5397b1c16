import Liz.Base.Text
import Liz.Protocol.Memory
import Liz.Runtime.Prompts
import Mathlib.Data.List.Sort

/-!
# Context assembly

From the memory snapshot, the thread and its turn log to the prompts of one turn. Who is talking is
resolved first, from the interaction context, else from the participant; everything that is private
is then rendered, or left out, for that relationship.
-/

namespace Liz

inductive RetrievalScope
  | focused | expanded
  deriving DecidableEq, Repr

def RetrievalScope.debug : RetrievalScope → String
  | .focused => "Focused"
  | .expanded => "Expanded"

structure TaskLocalRetrieval where
  queryTerms : List String
  requiresFullRepoScan : Bool
  deriving DecidableEq, Repr

structure RecentConversationWakeup where
  recentSummaries : List String
  activeTopics : List String
  recentKeywords : List String
  deriving DecidableEq, Repr

structure ExecutorBoundaryMetadata where
  memoryOwner : String
  approvalOwner : String
  executorRole : String
  relationshipHistoryShared : Bool
  deriving DecidableEq, Repr

structure ContextLayers where
  resident : String
  recentConversation : String
  threadProjection : String
  taskLocal : String
  executorBoundary : String
  deriving DecidableEq, Repr

structure AssembledContext where
  wakeup : MemoryWakeup
  recentConversation : RecentConversationWakeup
  threadProjection : String
  retrieval : TaskLocalRetrieval
  scope : RetrievalScope
  layers : ContextLayers
  executorBoundary : ExecutorBoundaryMetadata
  systemPrompt : String
  developerPrompt : String
  userPrompt : String
  prompt : String
  deriving DecidableEq, Repr

/-! ### Who is talking -/

structure RelationshipContext where
  participantName : String
  trustLevel : TrustLevel
  boundary : InfoBoundary
  interactionStance : Option String
  role : InteractionRole
  disclosure : Option DisclosurePolicy
  deriving DecidableEq, Repr

def ActorKind.trustLevel : ActorKind → TrustLevel
  | .owner => .owner
  | .humanContact => .trusted
  | .externalAgent => .trusted
  | .localNode => .acquaintance
  | .remoteNode => .acquaintance
  | .systemService => .acquaintance
  | .stranger => .stranger
  | .webhookSource => .stranger
  | .automation => .stranger

def DisclosurePolicy.boundary (disclosure : DisclosurePolicy) : InfoBoundary :=
  { sharedTopics := disclosure.allowedTopics
    forbiddenTopics := disclosure.forbiddenTopics
    shareActiveState := disclosure.shareActiveState
    shareCommitments := disclosure.shareCommitments }

def resolveRelationship (snapshot : GlobalMemorySnapshot) (participant : Option ParticipantRef)
    (interactionContext : Option InteractionContext) : RelationshipContext :=
  match interactionContext, participant with
  | some context, _ =>
      { participantName := context.actor.displayName.getD context.actor.actorId
        trustLevel := context.actor.kind.trustLevel
        boundary := context.disclosure.boundary
        interactionStance := none
        role := context.role
        disclosure := some context.disclosure }
  | none, none =>
      { participantName := "unknown participant"
        trustLevel := .stranger
        boundary := snapshot.defaultStrangerBoundary
        interactionStance := none
        role := .publicRepresentative
        disclosure := none }
  | none, some participant =>
      if participant.externalParticipantId = "owner" then
        { participantName := participant.displayName.getD "owner"
          trustLevel := .owner
          boundary := .ownerDefault
          interactionStance := none
          role := .privateCompanion
          disclosure := some .ownerDefault }
      else
        match snapshot.relationships.find? fun entry =>
            entry.personId == participant.externalParticipantId with
        | some relationship =>
            { participantName := relationship.displayName
              trustLevel := relationship.trustLevel
              boundary := relationship.infoBoundary
              interactionStance := some relationship.interactionStance
              role := .groupParticipant
              disclosure := none }
        | none =>
            { participantName := participant.displayName.getD participant.externalParticipantId
              trustLevel := .stranger
              boundary := snapshot.defaultStrangerBoundary
              interactionStance := none
              role := .publicRepresentative
              disclosure := none }

/-! ### Filters -/

def relationshipAllowsActiveState (relationship : RelationshipContext) : Bool :=
  relationship.trustLevel == .owner || relationship.boundary.shareActiveState

/-- A topic that is blank matches nothing. -/
def mentionsTopic (text topic : String) : Bool :=
  !Text.isBlank topic && Text.containsIgnoreCase text topic

def relationshipAllowsText (relationship : RelationshipContext) (text : String) : Bool :=
  if relationship.trustLevel = .owner then true
  else if relationship.boundary.forbiddenTopics.any (mentionsTopic text) then false
  else
    match relationship.trustLevel with
    | .trusted =>
        relationship.boundary.sharedTopics.isEmpty ||
          relationship.boundary.sharedTopics.any (mentionsTopic text)
    | .acquaintance => false
    | .stranger => false
    | .owner => true

def filterIdentitySummary (snapshot : GlobalMemorySnapshot) (relationship : RelationshipContext) :
    Option String :=
  if relationship.trustLevel == .owner || relationship.disclosure.any (·.shareIdentity) then
    snapshot.identitySummary
  else none

def filterActiveState (snapshot : GlobalMemorySnapshot) (thread : Thread)
    (relationship : RelationshipContext) : Option String :=
  if relationshipAllowsActiveState relationship then
    (snapshot.activeStateSummary.or thread.activeSummary).filter
      (relationshipAllowsText relationship)
  else none

def filterCommitments (thread : Thread) (relationship : RelationshipContext) : List String :=
  if relationship.boundary.shareCommitments then
    thread.pendingCommitments.filter (relationshipAllowsText relationship)
  else []

/-- Recent topics and recent keywords pass the same two checks. -/
def filterRecent (recent : List String) (relationship : RelationshipContext) : List String :=
  if relationshipAllowsActiveState relationship then
    recent.filter (relationshipAllowsText relationship)
  else []

def liveFacts (snapshot : GlobalMemorySnapshot) : List StoredMemoryFact :=
  snapshot.facts.filter StoredMemoryFact.live

/-- The facts whose value may be told, at most three of them. -/
def shownFacts (snapshot : GlobalMemorySnapshot) (relationship : RelationshipContext) :
    List StoredMemoryFact :=
  ((liveFacts snapshot).filter fun fact => relationshipAllowsText relationship fact.value).take 3

def factLine (fact : StoredMemoryFact) : String := fact.subject ++ ": " ++ fact.value

def assembleWakeup (snapshot : GlobalMemorySnapshot) (thread : Thread)
    (relationship : RelationshipContext) : MemoryWakeup :=
  { identitySummary := filterIdentitySummary snapshot relationship
    activeState := filterActiveState snapshot thread relationship
    relevantFacts := (shownFacts snapshot relationship).map factLine
    openCommitments := filterCommitments thread relationship
    recentTopics := filterRecent snapshot.recentTopics relationship
    recentKeywords := filterRecent snapshot.recentKeywords relationship
    citationFactIds := (shownFacts snapshot relationship).map StoredMemoryFact.id
    citations := ((liveFacts snapshot).flatMap StoredMemoryFact.citations).take 3 }

/-! ### What is derived from the input and the log -/

def classifyScope (input : String) : RetrievalScope :=
  let lower := Text.toAsciiLowercase input
  let focusedHints := ["only", "just", "small", "single", "one line", "minor"]
  let expandedHints := ["refactor", "rewrite", "whole repo", "entire", "across files"]
  if expandedHints.any (Text.contains lower) then .expanded
  else if focusedHints.any (Text.contains lower) then .focused
  else .focused

section Unicode

variable [Unicode]

def deriveQueryTerms (input : String) : List String :=
  (((Text.splitOn (fun c => !Unicode.isAlphanumeric c && c != '_' && c != '.') input).filter
    fun term => 3 ≤ term.utf8ByteSize).take 6).map Text.toAsciiLowercase

/-- The words of the summaries in order, in lower case. -/
def summaryTokens (summaries : List String) : List String :=
  (summaries.flatMap (Text.splitOn fun c => !Unicode.isAlphanumeric c && c != '_')).map
    Text.toAsciiLowercase

/-- The first six different words of at least four bytes. -/
def deriveRecentTopics (summaries : List String) : List String :=
  ((summaryTokens summaries).filter fun token => 4 ≤ token.utf8ByteSize).eraseDups.take 6

/-- The eight most frequent words of at least three bytes, ties in the order of the words. -/
def deriveRecentKeywords (summaries : List String) : List String :=
  let tokens := (summaryTokens summaries).filter fun token => 3 ≤ token.utf8ByteSize
  let counts := tokens.eraseDups.map fun token => (token, tokens.count token)
  let ranked := counts.insertionSort fun left right =>
    right.2 < left.2 ∨ (left.2 = right.2 ∧ left.1 ≤ right.1)
  (ranked.take 8).map Prod.fst

end Unicode

/-- The last four summaries that are not blank. -/
def collectRecentSummaries (entries : List TurnLogEntry) : List String :=
  ((entries.reverse.filterMap fun entry =>
    let trimmed := Text.trim entry.summary
    if trimmed.isEmpty then none else some trimmed).take 4).reverse

/-! ### Prompt sections -/

/-- `goal`, `summary` and `commitments` of the thread, as they are. -/
def renderThreadProjection (thread : Thread) : String :=
  "goal: " ++ thread.activeGoal.getD "" ++ "\nsummary: " ++ thread.activeSummary.getD "" ++
    "\ncommitments: " ++ Text.join thread.pendingCommitments " | "

def lizExecutorBoundary : ExecutorBoundaryMetadata :=
  { memoryOwner := "liz"
    approvalOwner := "liz"
    executorRole := "controlled task executor"
    relationshipHistoryShared := false }

def renderBool (b : Bool) : String := if b then "true" else "false"

def lizRelationshipStanceInjection (relationship : RelationshipContext) : String :=
  let stance := ((relationship.interactionStance.filter fun stance => !Text.isBlank stance).map
    fun stance => "\nOwner-defined stance: " ++ stance ++ ".").getD ""
  match relationship.trustLevel with
  | .owner => ""
  | .trusted =>
      "\n\nrelationship_context:\nYou are talking to " ++ relationship.participantName ++
        ", a trusted contact. Be friendly and bounded. Only discuss explicitly shared topics: " ++
        Text.join relationship.boundary.sharedTopics ", " ++ ". Do not mention forbidden topics: " ++
        Text.join relationship.boundary.forbiddenTopics ", " ++
        ". If asked outside the sharing boundary, say you need the owner's permission." ++ stance
  | .acquaintance =>
      "\n\nrelationship_context:\nYou are talking to " ++ relationship.participantName ++
        ", a known contact with limited sharing. Be polite, professional, and conservative. Share only public information and answer questions about liz's own capabilities. Do not discuss owner work details, preferences, emotional state, or private context without permission." ++
        stance
  | .stranger =>
      "\n\nrelationship_context:\nYou are talking to someone not recognized by the owner. Be polite but extremely conservative. Share only that liz is a personal agent. Do not reveal owner information, work, contacts, preferences, active state, or commitments. If asked for more, say you need the owner's permission."

def InteractionRole.label : InteractionRole → String
  | .privateCompanion => "private_companion"
  | .taskExecutor => "task_executor"
  | .ownerDelegate => "owner_delegate"
  | .publicRepresentative => "public_representative"
  | .groupParticipant => "group_participant"
  | .agentPeer => "agent_peer"
  | .agentCoordinator => "agent_coordinator"
  | .nodeController => "node_controller"
  | .webhookObserver => "webhook_observer"
  | .backgroundAutomation => "background_automation"

def lizInteractionRoleInjection (relationship : RelationshipContext) : String :=
  "\n\ninteraction_context:\nrole: " ++ relationship.role.label ++
    "\nPolicy and filtering already decided what context is available. Treat this role as the current social or operational position of the same liz self, not a persona switch."

def renderResident (wakeup : MemoryWakeup) : String :=
  "identity_summary: " ++ wakeup.identitySummary.getD "" ++ "\nactive_state: " ++
    wakeup.activeState.getD "" ++ "\nrelevant_facts: " ++ Text.join wakeup.relevantFacts " | " ++
    "\nopen_commitments: " ++ Text.join wakeup.openCommitments " | "

def renderRecentConversation (recent : RecentConversationWakeup) : String :=
  "recent_summaries: " ++ Text.join recent.recentSummaries " | " ++ "\nactive_topics: " ++
    Text.join recent.activeTopics ", " ++ "\nrecent_keywords: " ++ Text.join recent.recentKeywords ", "

def renderTaskLocal (scope : RetrievalScope) (retrieval : TaskLocalRetrieval) (input : String) :
    String :=
  "retrieval_scope: " ++ scope.debug ++ "\nretrieval_terms: " ++
    Text.join retrieval.queryTerms ", " ++ "\nfull_repo_scan: " ++
    renderBool retrieval.requiresFullRepoScan ++ "\ninput: " ++ input

def renderExecutorBoundary (boundary : ExecutorBoundaryMetadata) : String :=
  "memory_owner: " ++ boundary.memoryOwner ++ "\napproval_owner: " ++ boundary.approvalOwner ++
    "\nexecutor_role: " ++ boundary.executorRole ++ "\nrelationship_history_shared: " ++
    renderBool boundary.relationshipHistoryShared

def renderSystemPrompt (layers : ContextLayers) : String :=
  "liz_identity:\n" ++ lizSystemConstitution ++ "\n\nresident_wakeup:\n" ++ layers.resident

def renderDeveloperPrompt (snapshot : GlobalMemorySnapshot) (thread : Thread)
    (relationship : RelationshipContext) (layers : ContextLayers) : String :=
  let onboarding := if snapshot.identitySummary.isNone then
    "\n\nfirst_meeting:\n" ++ lizOnboardingInjection else ""
  "turn_operating_contract:\n" ++ lizTurnOperatingContract ++ "\n\nrecent_conversation_wakeup:\n" ++
    layers.recentConversation ++ "\n\nthread_projection:\n" ++ layers.threadProjection ++
    "\n\ntask_local:\n" ++ layers.taskLocal ++ "\n\nexecutor_boundary:\n" ++
    layers.executorBoundary ++ "\n\ntooling_surface:\n" ++
    lizToolSurfaceSummary thread.workspaceRef ++ "\n\nexecution_boundaries:\n" ++
    lizExecutionBoundaryContract thread.workspaceRef.isSome ++ onboarding ++
    lizRelationshipStanceInjection relationship ++ lizInteractionRoleInjection relationship

/-! ### Assembly -/

section Assembly

variable [Unicode]

def recentConversationWakeup (recentEntries : List TurnLogEntry) : RecentConversationWakeup :=
  let recentSummaries := collectRecentSummaries recentEntries
  { recentSummaries := recentSummaries
    activeTopics := deriveRecentTopics recentSummaries
    recentKeywords := deriveRecentKeywords recentSummaries }

def taskLocalRetrieval (input : String) : TaskLocalRetrieval :=
  { queryTerms := deriveQueryTerms input
    requiresFullRepoScan := classifyScope input == .expanded }

def assembleLayers (snapshot : GlobalMemorySnapshot) (thread : Thread)
    (recentEntries : List TurnLogEntry) (input : String) (relationship : RelationshipContext) :
    ContextLayers :=
  { resident := renderResident (assembleWakeup snapshot thread relationship)
    recentConversation := renderRecentConversation (recentConversationWakeup recentEntries)
    threadProjection := renderThreadProjection thread
    taskLocal := renderTaskLocal (classifyScope input) (taskLocalRetrieval input) input
    executorBoundary := renderExecutorBoundary lizExecutorBoundary }

/-- Everything that follows the resolution of the relationship. -/
def assembleFor (relationship : RelationshipContext) (snapshot : GlobalMemorySnapshot)
    (thread : Thread) (recentEntries : List TurnLogEntry) (input : String) : AssembledContext :=
  let layers := assembleLayers snapshot thread recentEntries input relationship
  let systemPrompt := renderSystemPrompt layers
  let developerPrompt := renderDeveloperPrompt snapshot thread relationship layers
  { wakeup := assembleWakeup snapshot thread relationship
    recentConversation := recentConversationWakeup recentEntries
    threadProjection := renderThreadProjection thread
    retrieval := taskLocalRetrieval input
    scope := classifyScope input
    layers := layers
    executorBoundary := lizExecutorBoundary
    systemPrompt := systemPrompt
    developerPrompt := developerPrompt
    userPrompt := input
    prompt := "system:\n" ++ systemPrompt ++ "\n\ndeveloper:\n" ++ developerPrompt ++
      "\n\nuser:\n" ++ input }

/-- Builds an assembled context envelope from memory, thread state, and input. -/
def assemble (snapshot : GlobalMemorySnapshot) (thread : Thread) (recentEntries : List TurnLogEntry)
    (input : String) (participant : Option ParticipantRef)
    (interactionContext : Option InteractionContext) : AssembledContext :=
  assembleFor (resolveRelationship snapshot participant interactionContext) snapshot thread
    recentEntries input

end Assembly

end Liz
