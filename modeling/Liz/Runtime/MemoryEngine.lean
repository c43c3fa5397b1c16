import Liz.Base.Records
import Liz.Runtime.MemoryDelta

/-!
# The memory engine

A pass of compilation writes facts by subject. A write that finds a live fact of its subject with
the same kind and value refreshes it; one that finds another supersedes it; one that finds none
appends. Between the writes the commitments the thread has dropped and the subjects the delta gives
up are invalidated, and at the end the topics are brought up to date. The pass works on the snapshot
it has read and writes it back as a whole.
-/

namespace Liz

/-! ### Facts -/

structure FactSpec where
  kind : MemoryFactKind
  subject : String
  value : String
  keywords : List String
  relatedThreadIds : List ThreadId
  citations : List MemoryCitationRef
  updatedAt : Timestamp
  deriving DecidableEq, Repr

/-- The fact that is stored for a write. -/
def FactSpec.stored (spec : FactSpec) (id : MemoryFactId) : StoredMemoryFact :=
  { id := id
    kind := spec.kind
    subject := spec.subject
    value := spec.value
    keywords := spec.keywords
    relatedThreadIds := spec.relatedThreadIds
    citations := spec.citations
    updatedAt := spec.updatedAt
    invalidatedAt := none
    invalidatedBy := none }

/-- A fact that says what the write says is brought up to date. -/
def FactSpec.refresh (spec : FactSpec) (fact : StoredMemoryFact) : StoredMemoryFact :=
  { fact with
    keywords := spec.keywords
    relatedThreadIds := spec.relatedThreadIds
    citations := spec.citations
    updatedAt := spec.updatedAt }

def FactSpec.same (spec : FactSpec) (fact : StoredMemoryFact) : Bool :=
  fact.value = spec.value && fact.kind = spec.kind

def StoredMemoryFact.liveAt (subject : String) (fact : StoredMemoryFact) : Bool :=
  fact.subject = subject && fact.live

def StoredMemoryFact.superseded (id : MemoryFactId) (now : Timestamp) (fact : StoredMemoryFact) :
    StoredMemoryFact :=
  { fact with invalidatedAt := some now, invalidatedBy := some id }

/-- The facts as the pass has left them so far, the generator it draws from, and the identifiers it
is going to report. -/
structure FactDraft where
  facts : List StoredMemoryFact
  ids : IdGenerator
  updatedFactIds : List MemoryFactId
  invalidatedFactIds : List MemoryFactId
  deriving DecidableEq

/-- A draft nothing has been written to. -/
def FactDraft.start (facts : List StoredMemoryFact) (ids : IdGenerator) : FactDraft :=
  { facts := facts, ids := ids, updatedFactIds := [], invalidatedFactIds := [] }

section Passes

variable [Clock]

def upsertFact (spec : FactSpec) (draft : FactDraft) : FactDraft :=
  match draft.facts.find? (StoredMemoryFact.liveAt spec.subject) with
  | some existing =>
      if spec.same existing then
        { draft with
          facts := Records.modifyFirst (StoredMemoryFact.liveAt spec.subject) spec.refresh
            draft.facts
          updatedFactIds := draft.updatedFactIds ++ [existing.id] }
      else
        let (replacementId, ids) := draft.ids.nextMemoryFactId
        { facts :=
            Records.modifyFirst (StoredMemoryFact.liveAt spec.subject)
              (StoredMemoryFact.superseded replacementId spec.updatedAt) draft.facts ++
                [spec.stored replacementId]
          ids := ids
          updatedFactIds := draft.updatedFactIds ++ [replacementId]
          invalidatedFactIds := draft.invalidatedFactIds ++ [existing.id] }
  | none =>
      let (id, ids) := draft.ids.nextMemoryFactId
      { draft with
        facts := draft.facts ++ [spec.stored id]
        ids := ids
        updatedFactIds := draft.updatedFactIds ++ [id] }

def upsertFacts : List FactSpec → FactDraft → FactDraft
  | [], draft => draft
  | spec :: rest, draft => upsertFacts rest (upsertFact spec draft)

/-- The loop over the facts that invalidates some of them, each in the name of an identifier that is
drawn for it. -/
def invalidateWhere (doomed : StoredMemoryFact → Bool) (now : Timestamp) :
    List StoredMemoryFact → IdGenerator → List StoredMemoryFact × IdGenerator
  | [], ids => ([], ids)
  | fact :: rest, ids =>
      if doomed fact then
        let (id, ids) := ids.nextMemoryFactId
        let (facts, ids) := invalidateWhere doomed now rest ids
        (fact.superseded id now :: facts, ids)
      else
        let (facts, ids) := invalidateWhere doomed now rest ids
        (fact :: facts, ids)

def invalidateFacts (doomed : StoredMemoryFact → Bool) (now : Timestamp) (draft : FactDraft) :
    FactDraft :=
  let (facts, ids) := invalidateWhere doomed now draft.facts draft.ids
  { draft with
    facts := facts
    ids := ids
    invalidatedFactIds :=
      draft.invalidatedFactIds ++ (draft.facts.filter doomed).map StoredMemoryFact.id }

/-! ### The pass -/

/-- What a pass writes from. -/
structure CompilationPass where
  thread : Thread
  recentEntries : List TurnLogEntry
  citations : List MemoryCitationRef
  delta : MemoryCompilationDelta
  now : Timestamp

def MemoryCompilationInput.passWith (input : MemoryCompilationInput)
    (delta : MemoryCompilationDelta) (now : Timestamp) : CompilationPass :=
  { thread := input.thread
    recentEntries := input.recentEntries
    citations := input.citations
    delta := delta
    now := now }

def activeStateSubject (threadId : ThreadId) : String := "thread:" ++ threadId ++ ":active_state"

def currentGoalSubject (threadId : ThreadId) : String := "thread:" ++ threadId ++ ":current_goal"

section Slugs

variable [Unicode]

def commitmentSubject (threadId : ThreadId) (commitment : String) : String :=
  "thread:" ++ threadId ++ ":commitment:" ++ slugify commitment

def procedureSubject (threadId : ThreadId) (procedure : String) : String :=
  "thread:" ++ threadId ++ ":procedure:" ++ slugify procedure

end Slugs

def identitySubject : String := "owner:identity_summary"

/-- The subjects that are given up, trimmed. -/
def candidateSubjects (subjects : List String) : List String :=
  (subjects.map Text.trim).filter fun subject => !subject.isEmpty

def MemoryDeltaFact.factKind (fact : MemoryDeltaFact) : MemoryFactKind :=
  fact.kind.getD .identity

namespace CompilationPass

variable (pass : CompilationPass)

def spec (kind : MemoryFactKind) (subject value : String) : FactSpec :=
  { kind := kind
    subject := subject
    value := value
    keywords := pass.delta.recentKeywords
    relatedThreadIds := [pass.thread.id]
    citations := pass.citations
    updatedAt := pass.now }

def activeStateSpecs : List FactSpec :=
  pass.thread.activeSummary.toList.map (pass.spec .activeState (activeStateSubject pass.thread.id))

def goalSpecs : List FactSpec :=
  pass.thread.activeGoal.toList.map (pass.spec .decision (currentGoalSubject pass.thread.id))

def identitySpecs : List FactSpec :=
  pass.delta.identitySummaryUpdate.toList.map (pass.spec .identity identitySubject)

/-- Facts to keep that are not procedures; what has no kind is about the owner. -/
def durableSpecs : List FactSpec :=
  (pass.delta.durableFacts.filter fun fact => fact.factKind ≠ .procedureCandidate).map fun fact =>
    { pass.spec fact.factKind fact.subject fact.value with
      keywords := if fact.keywords.isEmpty then pass.delta.recentKeywords else fact.keywords }

variable [Unicode]

def commitmentSpecs : List FactSpec :=
  pass.delta.commitments.map fun commitment =>
    pass.spec .commitment (commitmentSubject pass.thread.id commitment) commitment

def procedureSpecs : List FactSpec :=
  pass.delta.candidateProcedures.map fun procedure =>
    pass.spec .procedureCandidate (procedureSubject pass.thread.id procedure) procedure

/-- A live commitment of the thread that the delta does not carry on. -/
def dropped (fact : StoredMemoryFact) : Bool :=
  fact.kind = .commitment && fact.relatedThreadIds.contains pass.thread.id &&
    !(pass.delta.commitments.map (commitmentSubject pass.thread.id)).contains fact.subject &&
    fact.live

/-- A live fact whose subject the delta gives up. -/
def givenUp (fact : StoredMemoryFact) : Bool :=
  fact.live && (candidateSubjects pass.delta.invalidationCandidates).contains fact.subject

def syncCommitmentFacts (draft : FactDraft) : FactDraft :=
  upsertFacts pass.commitmentSpecs (invalidateFacts pass.dropped pass.now draft)

def invalidateCandidateSubjects (draft : FactDraft) : FactDraft :=
  invalidateFacts pass.givenUp pass.now draft

/-- The facts of the pass. -/
def compileFacts (draft : FactDraft) : FactDraft :=
  let draft := upsertFacts (pass.activeStateSpecs ++ pass.goalSpecs) draft
  let draft := pass.syncCommitmentFacts draft
  let draft := upsertFacts (pass.identitySpecs ++ pass.durableSpecs) draft
  let draft := pass.invalidateCandidateSubjects draft
  upsertFacts pass.procedureSpecs draft

end CompilationPass

end Passes

/-! ### Topics -/

/-- A sorted list without repetitions. -/
def sortedSet {α : Type} [DecidableEq α] [Ord α] (values : List α) : List α :=
  values.eraseDups.insertionSort fun left right => (compare left right).isLE

def mergeIntoVec {α : Type} [DecidableEq α] [Ord α] (target values : List α) : List α :=
  sortedSet (target ++ values)

def ThreadStatus.topicStatus : ThreadStatus → MemoryTopicStatus
  | .completed => .resolved
  | .failed => .stale
  | .archived => .stale
  | _ => .active

def StoredTopicRecord.isNamed (name : String) (topic : StoredTopicRecord) : Bool :=
  topic.name = name || topic.aliases.contains name

namespace CompilationPass

variable (pass : CompilationPass) (updatedFactIds : List MemoryFactId)

def topicSummary (name : String) : String :=
  pass.thread.activeSummary.getD ("Recent topic around " ++ name)

def relatedArtifactIds : List ArtifactId :=
  sortedSet (pass.recentEntries.flatMap TurnLogEntry.artifactIds)

def newTopic (name : String) : StoredTopicRecord :=
  { name := name
    aliases := []
    summary := pass.topicSummary name
    status := pass.thread.status.topicStatus
    lastActiveAt := pass.now
    relatedThreadIds := [pass.thread.id]
    relatedArtifactIds := pass.relatedArtifactIds
    citationFactIds := updatedFactIds
    recentKeywords := pass.delta.recentKeywords
    citations := pass.citations }

def refreshTopic (name : String) (topic : StoredTopicRecord) : StoredTopicRecord :=
  { topic with
    summary := pass.topicSummary name
    status := pass.thread.status.topicStatus
    lastActiveAt := pass.now
    relatedThreadIds := mergeIntoVec topic.relatedThreadIds [pass.thread.id]
    relatedArtifactIds := mergeIntoVec topic.relatedArtifactIds pass.relatedArtifactIds
    citationFactIds := mergeIntoVec topic.citationFactIds updatedFactIds
    recentKeywords := pass.delta.recentKeywords
    citations := mergeIntoVec topic.citations pass.citations }

def syncTopic (name : String) (topics : List StoredTopicRecord) : List StoredTopicRecord :=
  if topics.any (StoredTopicRecord.isNamed name) then
    Records.modifyFirst (StoredTopicRecord.isNamed name) (pass.refreshTopic updatedFactIds name) topics
  else topics ++ [pass.newTopic updatedFactIds name]

def syncTopicIndex (topics : List StoredTopicRecord) : List StoredTopicRecord :=
  pass.delta.recentTopics.foldl (fun topics name => pass.syncTopic updatedFactIds name topics)
    topics

end CompilationPass

/-! ### Compilation -/

/-- What the owner is told about a delta. -/
def memoryCompilationUserSummary (delta : MemoryCompilationDelta) : String :=
  let count (values : Nat) (noun : String) : List String :=
    if values = 0 then [] else [Nat.repr values ++ " " ++ noun]
  let parts := count delta.commitments.length "commitment(s)" ++
    count delta.durableFacts.length "durable note(s)" ++
    count delta.recentTopics.length "topic(s)"
  if parts.isEmpty then "No durable memory changes were needed."
  else "Updated memory with " ++ Text.join parts ", " ++ "."

section Programs

variable [Disk] [Clock] [Unicode]

/-- The snapshot after the facts have been compiled. -/
def CompilationPass.snapshotAfter (pass : CompilationPass) (snapshot : GlobalMemorySnapshot)
    (draft : FactDraft) : GlobalMemorySnapshot :=
  { snapshot with
    identitySummary := pass.delta.identitySummaryUpdate.or snapshot.identitySummary
    activeStateSummary := pass.delta.activeStateSummary
    recentTopics := pass.delta.recentTopics
    recentKeywords := pass.delta.recentKeywords
    facts := draft.facts
    topicIndex := pass.syncTopicIndex draft.updatedFactIds snapshot.topicIndex }

def buildCompilationInput (threadId : ThreadId) : TurnM MemoryCompilationInput := do
  let thread ← requireThread threadId
  let entries ← stored (RuntimeStores.readTurnLog threadId)
  let snapshot ← stored RuntimeStores.readGlobalMemory
  pure (compilationInput threadId thread entries snapshot.facts)

def applyCompilationDelta (input : MemoryCompilationInput) (delta : MemoryCompilationDelta) :
    TurnM MemoryCompilationSummary := do
  let snapshot ← stored RuntimeStores.readGlobalMemory
  let now ← drawn IdGenerator.nowTimestamp
  let pass := input.passWith delta now
  let draft ← drawn fun ids =>
    let draft := pass.compileFacts (.start snapshot.facts ids)
    (draft, draft.ids)
  stored (RuntimeStores.writeGlobalMemory (pass.snapshotAfter snapshot draft))
  pure
    { deltaSummary := memoryCompilationUserSummary delta
      updatedFactIds := draft.updatedFactIds
      invalidatedFactIds := draft.invalidatedFactIds
      recentTopics := delta.recentTopics
      recentKeywords := delta.recentKeywords
      candidateProcedures := delta.candidateProcedures }

/-- A compilation with the compiler that makes the delta. -/
def compileWith (compile : MemoryCompilationInput → Except RuntimeError MemoryCompilationDelta)
    (threadId : ThreadId) : TurnM MemoryCompilationSummary := do
  let input ← buildCompilationInput threadId
  match compile input with
  | .ok delta => applyCompilationDelta input delta
  | .error e => throw e

def compileThread (threadId : ThreadId) : TurnM MemoryCompilationSummary :=
  compileWith (fun input => .ok (heuristicDelta input)) threadId

def compileThreadFromLlmOutput [JsonText] (threadId : ThreadId) (rawJson : String) :
    TurnM MemoryCompilationSummary :=
  compileWith (parseLlmMemoryDelta rawJson) threadId

end Programs

end Liz
