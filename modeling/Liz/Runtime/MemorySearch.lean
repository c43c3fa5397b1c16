import Liz.Runtime.MemoryEngine

/-!
# Recall

A search goes over the topics, the live facts and the threads with their logs; each that matches is
a hit, which points to a thread, a turn, an artifact and a fact. A client expands a hit into the
session of its thread, or into the evidence for its turn, artifact and fact.
-/

namespace Liz

inductive MemorySearchMode
  | keyword | semantic
  deriving DecidableEq, Repr

inductive MemorySearchHitKind
  | topic | session | fact | artifact
  deriving DecidableEq, Repr

structure MemorySearchHit where
  kind : MemorySearchHitKind
  title : String
  summary : String
  score : Nat
  threadId : Option ThreadId
  turnId : Option TurnId
  artifactId : Option ArtifactId
  factId : Option MemoryFactId
  deriving DecidableEq, Repr

structure MemoryOpenEvidenceRequest where
  threadId : ThreadId
  turnId : Option TurnId
  artifactId : Option ArtifactId
  factId : Option MemoryFactId
  deriving DecidableEq, Repr

structure MemoryEvidenceView where
  citation : MemoryCitationRef
  threadTitle : Option String
  turnSummary : Option String
  factId : Option MemoryFactId
  factKind : Option MemoryFactKind
  factValue : Option String
  artifact : Option ArtifactRef
  artifactBody : Option String
  deriving DecidableEq, Repr

/-- The score of a semantic search, from the query, the text and the number of shared words; it is
computed with floating-point numbers. -/
class SemanticScore where
  score : String → String → Nat → Nat

/-! ### Stores -/

namespace RuntimeStores

/-- The names of the thread files, in the order of their paths. -/
def threadFiles (stores : RuntimeStores) : List ThreadId :=
  stores.threads.keys.insertionSort fun left right => left ++ ".json" ≤ right ++ ".json"

variable [Disk]

/-- The threads of these files; a file that is gone by now is left out. -/
def readThreads : List ThreadId → StoreM (List Thread)
  | [] => pure []
  | threadId :: rest => do
      let found ← getThread threadId
      let threads ← readThreads rest
      pure (found.toList ++ threads)

def listThreads : StoreM (List Thread) := do
  let files ← operation (fun fault stores => match fault with
    | some fault => .error (.io fault.message)
    | none => .ok stores.threadFiles) fun _ stores => stores
  readThreads files

def getArtifact (artifactId : ArtifactId) : StoreM (Option StoredArtifact) :=
  readJson fun stores => stores.artifacts.lookup artifactId

end RuntimeStores

/-! ### Matching -/

section Matching

variable [Unicode] [SemanticScore]

def scoreMatch (query : String) (queryTokens : List String) (mode : MemorySearchMode)
    (haystack : String) : Nat :=
  let haystackTokens := normalizeTokens haystack
  if haystackTokens.isEmpty then 0
  else
    let shared := queryTokens.countP haystackTokens.contains
    match mode with
    | .keyword => shared * 100
    | .semantic => SemanticScore.score query haystack shared

omit [Unicode] [SemanticScore] in
/-- A text that does not match is no hit. -/
def hitOf (score : Nat) (hit : Nat → MemorySearchHit) : Option MemorySearchHit :=
  if score = 0 then none else some (hit score)

end Matching

/-! ### Hits -/

def StoredTopicRecord.haystack (topic : StoredTopicRecord) : String :=
  topic.name ++ " " ++ Text.join topic.aliases " " ++ " " ++ topic.summary ++ " " ++
    Text.join topic.recentKeywords " "

def topicHit (topic : StoredTopicRecord) (score : Nat) : MemorySearchHit :=
  { kind := .topic
    title := topic.name
    summary := topic.summary
    score := score
    threadId := topic.relatedThreadIds.head?
    turnId := topic.citations.head?.bind MemoryCitationRef.turnId
    artifactId := topic.relatedArtifactIds.head?
    factId := topic.citationFactIds.head? }

def StoredMemoryFact.haystack (fact : StoredMemoryFact) : String :=
  fact.subject ++ " " ++ fact.value ++ " " ++ Text.join fact.keywords " "

def factHit (fact : StoredMemoryFact) (score : Nat) : MemorySearchHit :=
  { kind := .fact
    title := fact.subject
    summary := fact.value
    score := score
    threadId := fact.relatedThreadIds.head?
    turnId := fact.citations.head?.bind MemoryCitationRef.turnId
    artifactId := fact.citations.head?.bind MemoryCitationRef.artifactId
    factId := some fact.id }

def Thread.haystack (thread : Thread) (recent : List TurnLogEntry) : String :=
  thread.title ++ " " ++ thread.activeGoal.getD "" ++ " " ++ thread.activeSummary.getD "" ++ " " ++
    Text.join (recent.map TurnLogEntry.summary) " "

def sessionHit (thread : Thread) (recent : List TurnLogEntry) (score : Nat) : MemorySearchHit :=
  { kind := .session
    title := thread.title
    summary := thread.activeSummary.getD
      ((recent.getLast?.map TurnLogEntry.summary).getD "No session summary available")
    score := score
    threadId := some thread.id
    turnId := recent.getLast?.bind TurnLogEntry.turnId
    artifactId := recent.getLast?.bind fun entry => entry.artifactIds.head?
    factId := none }

/-- The better hit goes first, of two equal ones the one whose title comes first. -/
def MemorySearchHit.before (left right : MemorySearchHit) : Prop :=
  right.score < left.score ∨ (left.score = right.score ∧ left.title ≤ right.title)

instance (left right : MemorySearchHit) : Decidable (left.before right) :=
  inferInstanceAs (Decidable (_ ∨ _))

/-! ### Search -/

section Programs

variable [Disk]

/-- The hits among these threads. -/
def sessionHits (score : String → Nat) : List Thread → TurnM (List MemorySearchHit)
  | [] => pure []
  | thread :: rest => do
      let recent := recentEntries (← stored (RuntimeStores.readTurnLog thread.id))
      let hits ← sessionHits score rest
      pure ((hitOf (score (thread.haystack recent)) (sessionHit thread recent)).toList ++ hits)

/-- Searches topic, fact, and session memory using a recall mode. -/
def search [Unicode] [SemanticScore] (query : String) (mode : MemorySearchMode)
    (limit : Option Nat) : TurnM (List MemorySearchHit) := do
  let snapshot ← stored RuntimeStores.readGlobalMemory
  let queryTokens := normalizeTokens query
  if queryTokens.isEmpty then pure []
  else
    let score := scoreMatch query queryTokens mode
    let topics := snapshot.topicIndex.filterMap fun topic =>
      hitOf (score topic.haystack) (topicHit topic)
    let live := snapshot.facts.filter fun fact =>
      fact.invalidatedAt.isNone && fact.invalidatedBy.isNone
    let facts := live.filterMap fun fact => hitOf (score fact.haystack) (factHit fact)
    let sessions ← sessionHits score (← stored RuntimeStores.listThreads)
    pure (((topics ++ facts ++ sessions).insertionSort MemorySearchHit.before).take (limit.getD 8))

/-! ### Expansion -/

/-- The first summary that the log has for the turn. -/
def turnSummary (entries : List TurnLogEntry) (turnId : TurnId) : Option String :=
  (entries.find? fun entry => entry.turnId = some turnId).map TurnLogEntry.summary

def evidenceCitation (thread : Thread) (turnId : Option TurnId) (artifactId : Option ArtifactId)
    (turnSummary : Option String) (fact : Option StoredMemoryFact)
    (artifact : Option StoredArtifact) : MemoryCitationRef :=
  match artifact, fact with
  | some artifact, _ =>
      { threadId := thread.id
        turnId := some artifact.reference.turnId
        artifactId := some artifact.reference.id
        note := artifact.reference.summary }
  | none, some fact => fact.citations.head?.getD
      { threadId := thread.id, turnId := turnId, artifactId := none, note := fact.subject }
  | none, none =>
      { threadId := thread.id
        turnId := turnId
        artifactId := artifactId
        note := turnSummary.getD "Session evidence" }

/-- Expands one piece of memory evidence into a raw view. -/
def openEvidence (threadId : ThreadId) (turnId : Option TurnId) (artifactId : Option ArtifactId)
    (factId : Option MemoryFactId) : TurnM MemoryEvidenceView := do
  if turnId.isNone && artifactId.isNone && factId.isNone then
    throw (.invalidState "memory_evidence_target_required"
      "memory/open_evidence requires a turn, artifact, or fact target")
  let thread ← requireThread threadId
  let snapshot ← stored RuntimeStores.readGlobalMemory
  let entries ← stored (RuntimeStores.readTurnLog threadId)
  let summary := turnId.bind (turnSummary entries)
  let fact := factId.bind fun id => snapshot.facts.find? fun fact => fact.id = id
  let artifact ← match artifactId with
    | some artifactId => stored (RuntimeStores.getArtifact artifactId)
    | none => pure none
  pure
    { citation := evidenceCitation thread turnId artifactId summary fact artifact
      threadTitle := some thread.title
      turnSummary := summary
      factId := fact.map StoredMemoryFact.id
      factKind := fact.map StoredMemoryFact.kind
      factValue := fact.map StoredMemoryFact.value
      artifact := artifact.map StoredArtifact.reference
      artifactBody := artifact.map StoredArtifact.body }

/-- Expands a fact or artifact citation into raw evidence. -/
def openMemoryEvidence (request : MemoryOpenEvidenceRequest) : TurnM MemoryEvidenceView :=
  openEvidence request.threadId request.turnId request.artifactId request.factId

end Programs

end Liz
