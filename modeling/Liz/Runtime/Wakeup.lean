import Liz.Runtime.ContextAssembler
import Liz.Runtime.MemoryEngine

/-!
# Waking up

What a client is told about a thread when it takes it up again: the recent conversation as the log
has it, and the memory with the facts that matter to the thread in front.
-/

namespace Liz

/-- The recent conversation and the evidence behind it. -/
structure RecentConversationWakeupView where
  recentSummaries : List String
  activeTopics : List String
  recentKeywords : List String
  citations : List MemoryCitationRef
  deriving DecidableEq, Repr

def buildRecentConversation [Unicode] (threadId : ThreadId) (entries : List TurnLogEntry) :
    RecentConversationWakeupView :=
  let recent := recentEntries entries
  let recentSummaries := (recent.map TurnLogEntry.summary).filter fun summary =>
    !Text.isBlank summary
  { recentSummaries := recentSummaries
    activeTopics := deriveTopicsFromText recentSummaries 6
    recentKeywords := deriveKeywordsFromText recentSummaries 8
    citations := citationsFromEntries threadId recent }

def MemoryFactKind.wakeupScore : MemoryFactKind → Nat
  | .identity => 40
  | .commitment => 35
  | .activeState => 30
  | .decision => 25
  | .procedureCandidate => 15
  | .topic => 10
  | .keyword => 10

/-- How much a fact matters to the thread. -/
def wakeupFactScore (thread : Thread) (fact : StoredMemoryFact) : Nat :=
  (if fact.relatedThreadIds.contains thread.id then 50 else 0) + fact.kind.wakeupScore +
    (if fact.keywords.any (Text.containsIgnoreCase thread.title) then 10 else 0)

/-- The live facts of all threads and of this one, the ones that matter most in front, the later
ones first among equals. -/
def rankedWakeupFacts (snapshot : GlobalMemorySnapshot) (thread : Thread) :
    List StoredMemoryFact :=
  let facts := (snapshot.facts.filter fun fact =>
    fact.invalidatedAt.isNone && fact.invalidatedBy.isNone).filter fun fact =>
      fact.relatedThreadIds.isEmpty || fact.relatedThreadIds.contains thread.id
  facts.insertionSort fun left right =>
    wakeupFactScore thread right < wakeupFactScore thread left ∨
      (wakeupFactScore thread left = wakeupFactScore thread right ∧
        right.updatedAt ≤ left.updatedAt)

def buildMemoryWakeup (snapshot : GlobalMemorySnapshot) (thread : Thread)
    (recent : RecentConversationWakeupView) : MemoryWakeup :=
  let rankedFacts := rankedWakeupFacts snapshot thread
  { identitySummary := snapshot.identitySummary
    activeState := snapshot.activeStateSummary.or thread.activeSummary
    relevantFacts := (rankedFacts.take 6).map factLine
    openCommitments := thread.pendingCommitments
    recentTopics :=
      if snapshot.recentTopics.isEmpty then recent.activeTopics else snapshot.recentTopics
    recentKeywords :=
      if snapshot.recentKeywords.isEmpty then recent.recentKeywords else snapshot.recentKeywords
    citationFactIds := (rankedFacts.take 6).map StoredMemoryFact.id
    citations := recent.citations }

def readWakeup [Disk] [Unicode] (threadId : ThreadId) :
    TurnM (MemoryWakeup × RecentConversationWakeupView) := do
  let thread ← requireThread threadId
  let snapshot ← stored RuntimeStores.readGlobalMemory
  let entries ← stored (RuntimeStores.readTurnLog threadId)
  let recentConversation := buildRecentConversation threadId entries
  pure (buildMemoryWakeup snapshot thread recentConversation, recentConversation)

/-! ### Which facts are ranked -/

theorem mem_rankedWakeupFacts {snapshot : GlobalMemorySnapshot} {thread : Thread}
    {fact : StoredMemoryFact} (h : fact ∈ rankedWakeupFacts snapshot thread) :
    fact ∈ snapshot.facts ∧ fact.live = true := by
  unfold rankedWakeupFacts at h
  rw [List.mem_insertionSort] at h
  obtain ⟨hmem, hlive⟩ := List.mem_filter.mp (List.mem_of_mem_filter h)
  exact ⟨hmem, (Bool.and_eq_true_iff.mp hlive).1⟩

end Liz
