import Liz.Protocol.Json
import Liz.Runtime.Basic
import Mathlib.Data.List.Sort

/-!
# What a memory pass is told

A pass of memory compilation starts from the thread, the last entries of its log and the facts that
are stored, and comes down to a delta: the summaries, topics and keywords to store, the commitments
and procedures of the thread, facts to keep and subjects to invalidate. One compiler derives the
delta from the words of the input; the other reads it from the JSON text a model returned.
-/

namespace Liz

structure MemoryCompilationInput where
  thread : Thread
  recentEntries : List TurnLogEntry
  citations : List MemoryCitationRef
  existingFacts : List StoredMemoryFact
  deriving DecidableEq, Repr

structure MemoryDeltaFact where
  kind : Option MemoryFactKind
  subject : String
  value : String
  keywords : List String
  deriving DecidableEq, Repr

structure MemoryCompilationDelta where
  identitySummaryUpdate : Option String
  activeStateSummary : Option String
  recentTopics : List String
  recentKeywords : List String
  commitments : List String
  candidateProcedures : List String
  durableFacts : List MemoryDeltaFact
  invalidationCandidates : List String
  deriving DecidableEq, Repr

/-! ### The input -/

/-- The last eight entries whose summary is not blank, oldest first. -/
def recentEntries (entries : List TurnLogEntry) : List TurnLogEntry :=
  ((entries.reverse.filter fun entry => !Text.isBlank entry.summary).take 8).reverse

/-- The first four of the entries, as evidence. -/
def citationsFromEntries (threadId : ThreadId) (entries : List TurnLogEntry) :
    List MemoryCitationRef :=
  (entries.take 4).map fun entry =>
    { threadId := threadId
      turnId := entry.turnId
      artifactId := entry.artifactIds.head?
      note := entry.summary }

/-- The input of a pass over a thread, its log and the facts that are stored. -/
def compilationInput (threadId : ThreadId) (thread : Thread) (entries : List TurnLogEntry)
    (facts : List StoredMemoryFact) : MemoryCompilationInput :=
  { thread := thread
    recentEntries := recentEntries entries
    citations := citationsFromEntries threadId (recentEntries entries)
    existingFacts := facts }

/-! ### Words -/

section Words

variable [Unicode]

def stopWords : List String :=
  ["the", "and", "that", "with", "from", "this", "have", "into", "your", "were", "while", "after",
    "before", "only", "just", "there", "their", "about", "would", "could", "should", "thread",
    "turn", "work", "task", "then", "when", "what"]

/-- The words of a text in lower case, without short words and stop words. -/
def normalizeTokens (text : String) : List String :=
  ((Text.splitOn (fun c => !Unicode.isAlphanumeric c && c != '_') text).map
    Text.toAsciiLowercase).filter fun token => 3 ≤ token.utf8ByteSize && !stopWords.contains token

/-- The first `limit` different words of at least four bytes. -/
def deriveTopicsFromText (texts : List String) (limit : Nat) : List String :=
  ((texts.flatMap normalizeTokens).filter fun token => 4 ≤ token.utf8ByteSize).eraseDups.take limit

/-- The most frequent words, ties in the order of the words. -/
def deriveKeywordsFromText (texts : List String) (limit : Nat) : List String :=
  let tokens := texts.flatMap normalizeTokens
  let counts := tokens.eraseDups.map fun token => (token, tokens.count token)
  let ranked := counts.insertionSort fun left right =>
    right.2 < left.2 ∨ (left.2 = right.2 ∧ left.1 ≤ right.1)
  (ranked.take limit).map Prod.fst

/-- The first six words of a text, joined to a name. -/
def slugify (text : String) : String :=
  let tokens := normalizeTokens text
  if tokens.isEmpty then "item" else Text.join (tokens.take 6) "_"

end Words

/-! ### The heuristic compiler -/

/-- Two completed tools or more make a procedure. -/
def deriveCandidateProcedures (entries : List TurnLogEntry) (topics : List String) : List String :=
  let toolSteps := (entries.filter fun entry => entry.event == "tool_completed").map
    TurnLogEntry.summary
  if toolSteps.length < 2 then []
  else
    let topicPart := (topics.head?.map fun topic => "For " ++ topic ++ ", ").getD ""
    [topicPart ++ "repeat the proven flow: " ++ Text.join toolSteps " -> "]

def identitySignals : List String :=
  ["my name is", "call me", "i am ", "i'm ", "i work on", "i prefer", "prefers", "likes",
    "wants to be called"]

/-- The first three summaries that say something about the owner. -/
def identityLines (entries : List TurnLogEntry) : List String :=
  ((entries.map fun entry => Text.trim entry.summary).filter fun summary =>
    identitySignals.any (Text.contains (Text.toAsciiLowercase summary))).take 3

/-- The value of the first live fact about the owner. -/
def previousIdentity (facts : List StoredMemoryFact) : Option String :=
  (facts.find? fun fact => fact.kind = .identity && fact.live).map StoredMemoryFact.value

def deriveIdentitySummaryUpdate (input : MemoryCompilationInput) : Option String :=
  if input.citations.isEmpty then none
  else
    let lines := identityLines input.recentEntries
    if lines.isEmpty then none
    else
      let update := Text.join lines " "
      if previousIdentity input.existingFacts = some update then none else some update

/-- The delta that is derived without a model. -/
def heuristicDelta [Unicode] (input : MemoryCompilationInput) : MemoryCompilationDelta :=
  let recentSummaries := (input.recentEntries.map TurnLogEntry.summary).filter fun summary =>
    !Text.isBlank summary
  let texts := input.thread.title ::
    (input.thread.activeGoal.toList ++ input.thread.activeSummary.toList ++ recentSummaries)
  let recentTopics := deriveTopicsFromText texts 6
  { identitySummaryUpdate := deriveIdentitySummaryUpdate input
    activeStateSummary := input.thread.activeSummary
    recentTopics := recentTopics
    recentKeywords := deriveKeywordsFromText texts 8
    commitments := input.thread.pendingCommitments
    candidateProcedures := deriveCandidateProcedures input.recentEntries recentTopics
    durableFacts := []
    invalidationCandidates := [] }

/-! ### The model's delta -/

def sanitizeOptionalString (value : Option String) : Option String :=
  (value.map Text.trim).filter fun trimmed => !trimmed.isEmpty

/-- The first `limit` strings, trimmed, that are not blank and differ in more than case. -/
def sanitizeStringList (values : List String) (limit : Nat) : List String :=
  (((values.map Text.trim).filter fun trimmed => !trimmed.isEmpty).eraseDupsBy fun left right =>
    Text.toAsciiLowercase left == Text.toAsciiLowercase right).take limit

def preferSanitizedList (values fallback : List String) (limit : Nat) : List String :=
  let sanitized := sanitizeStringList values limit
  if sanitized.isEmpty then fallback else sanitized

def memoryFactKindOf (value : Json) : Option MemoryFactKind := do
  match ← value.unitVariant with
  | "identity" => some .identity
  | "active_state" => some .activeState
  | "commitment" => some .commitment
  | "decision" => some .decision
  | "topic" => some .topic
  | "procedure_candidate" => some .procedureCandidate
  | "keyword" => some .keyword
  | _ => none

structure LlmMemoryDeltaFact where
  kind : Option MemoryFactKind
  subject : String
  value : String
  keywords : List String

structure LlmMemoryCompilationDelta where
  identitySummaryUpdate : Option String
  activeStateSummary : Option String
  recentTopics : List String
  recentKeywords : List String
  commitments : List String
  candidateProcedures : List String
  durableFacts : List LlmMemoryDeltaFact
  invalidationCandidates : List String

/-- A list of strings that may be left out. -/
def stringsField (field : Option Json) : Option (List String) :=
  Json.orDefault [] (Json.decodeList Json.asStr) field

def decodeLlmMemoryDeltaFact (value : Json) : Option LlmMemoryDeltaFact := do
  match ← value.structFields ["kind", "subject", "value", "keywords"] with
  | [kind, subject, value, keywords] =>
      some
        { kind := ← Json.orDefault none (Json.optionally memoryFactKindOf) kind
          subject := ← subject.bind Json.asStr
          value := ← value.bind Json.asStr
          keywords := ← stringsField keywords }
  | _ => none

def decodeLlmMemoryDelta (value : Json) : Option LlmMemoryCompilationDelta := do
  match ← value.structFields ["identity_summary_update", "active_state_summary", "recent_topics",
    "recent_keywords", "commitments", "candidate_procedures", "durable_facts",
    "invalidation_candidates"] with
  | [identity, active, topics, keywords, commitments, procedures, durable, candidates] =>
      some
        { identitySummaryUpdate := ← Json.orDefault none (Json.optionally Json.asStr) identity
          activeStateSummary := ← Json.orDefault none (Json.optionally Json.asStr) active
          recentTopics := ← stringsField topics
          recentKeywords := ← stringsField keywords
          commitments := ← stringsField commitments
          candidateProcedures := ← stringsField procedures
          durableFacts := ← Json.orDefault [] (Json.decodeList decodeLlmMemoryDeltaFact) durable
          invalidationCandidates := ← stringsField candidates }
  | _ => none

def readLlmMemoryDelta [JsonText] (rawJson : String) : Except String LlmMemoryCompilationDelta := do
  let value ← JsonText.parse rawJson
  match decodeLlmMemoryDelta value with
  | some parsed => pure parsed
  | none => throw (JsonText.mismatch value)

/-- A fact with a subject and a value. -/
def sanitizeDeltaFact (fact : LlmMemoryDeltaFact) : Option MemoryDeltaFact :=
  let subject := Text.trim fact.subject
  let value := Text.trim fact.value
  if subject.isEmpty || value.isEmpty then none
  else
    some
      { kind := fact.kind
        subject := subject
        value := value
        keywords := sanitizeStringList fact.keywords 12 }

section Llm

variable [Unicode]

/-- What of a model's answer counts: an identity needs evidence, and where the answer says nothing
the thread and its log speak. -/
def llmDelta (parsed : LlmMemoryCompilationDelta) (input : MemoryCompilationInput) :
    MemoryCompilationDelta :=
  let recentSummaries := input.recentEntries.map TurnLogEntry.summary
  { identitySummaryUpdate := (sanitizeOptionalString parsed.identitySummaryUpdate).filter fun _ =>
      !input.citations.isEmpty
    activeStateSummary :=
      (sanitizeOptionalString parsed.activeStateSummary).or input.thread.activeSummary
    recentTopics :=
      preferSanitizedList parsed.recentTopics (deriveTopicsFromText recentSummaries 6) 8
    recentKeywords :=
      preferSanitizedList parsed.recentKeywords (deriveKeywordsFromText recentSummaries 8) 12
    commitments := preferSanitizedList parsed.commitments input.thread.pendingCommitments 12
    candidateProcedures := sanitizeStringList parsed.candidateProcedures 8
    durableFacts := parsed.durableFacts.filterMap sanitizeDeltaFact
    invalidationCandidates := sanitizeStringList parsed.invalidationCandidates 16 }

def parseLlmMemoryDelta [JsonText] (rawJson : String) (input : MemoryCompilationInput) :
    Except RuntimeError MemoryCompilationDelta :=
  match readLlmMemoryDelta rawJson with
  | .ok parsed => .ok (llmDelta parsed input)
  | .error message =>
      .error (.invalidState "memory_compilation_json_invalid"
        ("memory compiler returned invalid JSON: " ++ message))

end Llm

end Liz
