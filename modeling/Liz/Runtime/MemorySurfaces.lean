import Liz.Protocol.Memory
import Liz.Runtime.MemoryEngine

/-!
# The owner's edits of the memory

An About You update replaces the identity summary and edits the facts about the owner item by item;
a correction replaces the value of one fact. With the two ways to compile a thread these are all the
requests that write facts, and a run of the memory is a sequence of them between which the rest of
the server may have done anything to the threads, their logs and the generator.
-/

namespace Liz

/-- Lower case over all of Unicode; on ASCII it is the usual one. -/
class UnicodeCase where
  toLowercase : String → String
  ascii : ∀ s : String, (∀ c ∈ s.toList, c.val < 128) → toLowercase s = Text.toAsciiLowercase s

/-- Lower case of ASCII letters only. -/
@[reducible] def asciiCase : UnicodeCase := ⟨Text.toAsciiLowercase, fun _ _ => rfl⟩

def memoryFactKindLabel : MemoryFactKind → String
  | .identity => "identity"
  | .activeState => "active_state"
  | .commitment => "commitment"
  | .decision => "decision"
  | .topic => "topic"
  | .procedureCandidate => "procedure"
  | .keyword => "keyword"

/-- The characters between the parts of a key. -/
def separatesKeyParts (c : Char) : Bool := c == ':' || c == '_' || c == '-'

def humanizeKey (key : String) : String :=
  Text.join ((Text.splitOn separatesKeyParts key).filter fun part => !part.isEmpty) " "

/-- Without the characters at both ends that satisfy `p`. -/
def trimMatches (p : Char → Bool) (s : String) : String :=
  String.ofList (((s.toList.dropWhile p).reverse.dropWhile p).reverse)

section Keywords

variable [Unicode] [UnicodeCase]

def aboutYouKeywords (subject value : String) : List String :=
  let words := (Text.splitOn Text.isWhitespace value).filter fun word => !word.isEmpty
  let tokens := (Text.splitOn separatesKeyParts subject ++ words).map
    (trimMatches fun c => !Unicode.isAlphanumeric c)
  sortedSet ((tokens.filter fun token => 3 ≤ token.utf8ByteSize).map UnicodeCase.toLowercase)

end Keywords

/-! ### About You -/

def StoredMemoryFact.identityAt (subject : String) (fact : StoredMemoryFact) : Bool :=
  fact.kind = .identity && fact.liveAt subject

def aboutYouItems (snapshot : GlobalMemorySnapshot) : List AboutYouItem :=
  (snapshot.identitySummary.toList.map fun summary =>
    { key := "identity_summary"
      label := "How liz understands you"
      value := summary
      confirmed := true
      sourceFactId := none }) ++
  ((snapshot.facts.filter fun fact =>
    fact.kind = .identity && fact.live && fact.invalidatedBy.isNone).map fun fact =>
    { key := fact.subject
      label := humanizeKey fact.subject
      value := fact.value
      confirmed := true
      sourceFactId := some fact.id })

section Edits

variable [Clock] [Unicode] [UnicodeCase]

/-- The value of a live identity fact is replaced. -/
def StoredMemoryFact.edited (subject value : String) (now : Timestamp) (fact : StoredMemoryFact) :
    StoredMemoryFact :=
  { fact with
    value := value
    keywords := aboutYouKeywords subject value
    updatedAt := now
    invalidatedBy := none }

/-- The fact of an item nobody knew of. -/
def aboutYouFact (id : MemoryFactId) (subject value : String) (now : Timestamp) :
    StoredMemoryFact :=
  { id := id
    kind := .identity
    subject := subject
    value := value
    keywords := aboutYouKeywords subject value
    relatedThreadIds := []
    citations := []
    updatedAt := now
    invalidatedAt := none
    invalidatedBy := none }

/-- One item of an update: a blank value takes the item back. -/
def updateItem (now : Timestamp) (item : AboutYouItem)
    (state : List StoredMemoryFact × IdGenerator) : List StoredMemoryFact × IdGenerator :=
  let (facts, ids) := state
  let subject := Text.trim item.key
  let value := Text.trim item.value
  if item.key = "identity_summary" ∨ subject.isEmpty then (facts, ids)
  else if value.isEmpty then
    (facts.map fun fact =>
      if fact.identityAt subject then { fact with invalidatedAt := some now } else fact, ids)
  else if facts.any (StoredMemoryFact.identityAt subject) then
    (Records.modifyFirst (StoredMemoryFact.identityAt subject) (.edited subject value now) facts,
      ids)
  else
    let (id, ids) := ids.nextMemoryFactId
    (facts ++ [aboutYouFact id subject value now], ids)

def updateItems (now : Timestamp) (items : List AboutYouItem)
    (state : List StoredMemoryFact × IdGenerator) : List StoredMemoryFact × IdGenerator :=
  items.foldl (fun state item => updateItem now item state) state

end Edits

section Programs

variable [Disk] [Clock] [Unicode] [UnicodeCase]

def buildAboutYouSurface : TurnM AboutYouSurface := do
  let snapshot ← stored RuntimeStores.readGlobalMemory
  pure { identitySummary := snapshot.identitySummary, items := aboutYouItems snapshot }

def updateAboutYouSurface (update : AboutYouUpdate) : TurnM AboutYouSurface := do
  let snapshot ← stored RuntimeStores.readGlobalMemory
  let now ← drawn IdGenerator.nowTimestamp
  let facts ← drawn fun ids => updateItems now update.items (snapshot.facts, ids)
  stored (RuntimeStores.writeGlobalMemory
    { snapshot with identitySummary := update.identitySummary, facts := facts })
  buildAboutYouSurface

/-! ### Knowledge -/

def StoredMemoryFact.hasId (id : MemoryFactId) (fact : StoredMemoryFact) : Bool := fact.id = id

def knowledgeItem (fact : StoredMemoryFact) : KnowledgeItem :=
  { factId := fact.id
    kind := memoryFactKindLabel fact.kind
    subject := fact.subject
    summary := fact.value
    stale := !fact.live || fact.invalidatedBy.isSome
    updatedAt := fact.updatedAt
    citations := fact.citations }

def StoredMemoryFact.corrected (value : String) (now : Timestamp) (fact : StoredMemoryFact) :
    StoredMemoryFact :=
  { fact with value := value, updatedAt := now }

def correctKnowledgeSurface (correction : KnowledgeCorrection) : TurnM KnowledgeItem := do
  let snapshot ← stored RuntimeStores.readGlobalMemory
  let now ← drawn IdGenerator.nowTimestamp
  match snapshot.facts.find? (StoredMemoryFact.hasId correction.factId) with
  | none => throw (.notFound "knowledge_fact_not_found" "knowledge fact does not exist")
  | some fact =>
      stored (RuntimeStores.writeGlobalMemory
        { snapshot with
          facts := Records.modifyFirst (StoredMemoryFact.hasId correction.factId)
            (.corrected correction.correctedValue now) snapshot.facts })
      pure (knowledgeItem (fact.corrected correction.correctedValue now))

end Programs

/-! ### Runs -/

inductive MemoryRequest
  | compile (threadId : ThreadId)
  | compileFromLlmOutput (threadId : ThreadId) (rawJson : String)
  | updateAboutYou (update : AboutYouUpdate)
  | correctKnowledge (correction : KnowledgeCorrection)

/-- A memory request, and what the rest of the server has done before it: the threads and logs as
they are by then, and the operations, identifiers and clock readings spent on them. -/
structure MemoryInput where
  threads : Table ThreadId (JsonFile Thread)
  turnLogs : Table ThreadId TurnLogFile
  operations : Nat
  identifiers : Nat
  readings : Nat
  request : MemoryRequest

/-- A runtime over a storage root without files. -/
def TurnRuntime.fresh : TurnRuntime := { stores := .blank, ids := .new, turnManager := .default }

/-- The runtime when the request arrives. -/
def MemoryInput.arrival (input : MemoryInput) (runtime : TurnRuntime) : TurnRuntime :=
  { runtime with
    stores := { runtime.stores with
      threads := input.threads
      turnLogs := input.turnLogs
      operations := runtime.stores.operations + input.operations }
    ids :=
      { sequence := runtime.ids.sequence + input.identifiers
        readings := runtime.ids.readings + input.readings } }

section Runs

variable [Disk] [Clock] [Unicode] [UnicodeCase] [JsonText]

def MemoryRequest.handle : MemoryRequest → TurnM Unit
  | compile threadId => do
      let _ ← compileThread threadId
  | compileFromLlmOutput threadId rawJson => do
      let _ ← compileThreadFromLlmOutput threadId rawJson
  | updateAboutYou update => do
      let _ ← updateAboutYouSurface update
  | correctKnowledge correction => do
      let _ ← correctKnowledgeSurface correction

def memoryStep (runtime : TurnRuntime) (input : MemoryInput) : TurnRuntime :=
  Program.after input.request.handle (input.arrival runtime)

end Runs

end Liz
