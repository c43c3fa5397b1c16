import Mathlib.Data.String.Basic
import Liz.Base.KeyedLists
import Liz.Base.Runs
import Liz.Runtime.MemorySurfaces
import Liz.Runtime.ThreadManager

/-!
# The people the owner knows

A boundary is stored as a relationship, which has no field for the kind of the actor and none for
the confirmation of the owner; both are derived again whenever the surface is built.
-/

namespace Liz

def personBoundaryFromRelationship (relationship : RelationshipEntry) : PersonBoundary :=
  { personId := relationship.personId
    displayName := relationship.displayName
    actorKind :=
      if Text.contains relationship.interactionStance "agent" ||
          "agent:".toList.isPrefixOf relationship.personId.toList then "external_agent"
      else "human"
    trustLevel := relationship.trustLevel
    sharedTopics := relationship.infoBoundary.sharedTopics
    forbiddenTopics := relationship.infoBoundary.forbiddenTopics
    shareActiveState := relationship.infoBoundary.shareActiveState
    shareCommitments := relationship.infoBoundary.shareCommitments
    interactionStance := relationship.interactionStance
    notes := relationship.notes
    requiresOwnerConfirmation := relationship.trustLevel != .owner }

def relationshipEntryFromBoundary (person : PersonBoundary) : RelationshipEntry :=
  { personId := person.personId
    displayName := person.displayName
    trustLevel := person.trustLevel
    infoBoundary :=
      { sharedTopics := person.sharedTopics
        forbiddenTopics := person.forbiddenTopics
        shareActiveState := person.shareActiveState
        shareCommitments := person.shareCommitments }
    interactionStance :=
      if Text.isBlank person.interactionStance then
        if person.actorKind = "external_agent" then "agent_task_scoped" else "bounded_contact"
      else person.interactionStance
    notes := person.notes.filter fun notes => !Text.isBlank notes }

def PersonBoundary.isExternalAgent (person : PersonBoundary) : Bool :=
  person.actorKind == "external_agent"

def buildPeopleSurface (snapshot : GlobalMemorySnapshot) : PeopleSurface :=
  let boundaries := snapshot.relationships.map personBoundaryFromRelationship
  let humans := boundaries.filter fun person => !person.isExternalAgent
  let externalAgents := boundaries.filter PersonBoundary.isExternalAgent
  { humans := humans.insertionSort fun left right => left.displayName ≤ right.displayName
    externalAgents :=
      externalAgents.insertionSort fun left right => left.displayName ≤ right.displayName
    defaultStrangerBoundary := snapshot.defaultStrangerBoundary }

def validatePersonBoundary (person : PersonBoundary) : TurnM Unit :=
  if Text.isBlank person.personId then
    throw (.invalidState "people_boundary_id_required" "people boundary id must not be empty")
  else if Text.isBlank person.displayName then
    throw (.invalidState "people_boundary_display_name_required"
      "people boundary display name must not be empty")
  else if person.actorKind ≠ "human" ∧ person.actorKind ≠ "external_agent" then
    throw (.invalidState "people_boundary_actor_kind_invalid"
      "people boundary actor kind must be human or external_agent")
  else pure ()

section Requests

variable [Disk]

def readPeopleSurface : TurnM PeopleSurface := do
  let snapshot ← stored RuntimeStores.readGlobalMemory
  pure (buildPeopleSurface snapshot)

/-- The relationship takes the place of the one with its id, or is a new one. -/
def upsertPeopleSurface (person : PersonBoundary) : TurnM PeopleSurface := do
  let snapshot ← stored RuntimeStores.readGlobalMemory
  validatePersonBoundary person
  let relationships := KeyedLists.put RelationshipEntry.personId
    (relationshipEntryFromBoundary person) snapshot.relationships
  let changed :=
    { snapshot with
      relationships := relationships.insertionSort fun left right =>
        left.displayName ≤ right.displayName }
  stored (RuntimeStores.writeGlobalMemory changed)
  pure (buildPeopleSurface changed)

def deletePeopleSurface (personId : String) : TurnM PeopleSurface := do
  let snapshot ← stored RuntimeStores.readGlobalMemory
  let kept := snapshot.relationships.filter fun relationship => relationship.personId ≠ personId
  if kept.length = snapshot.relationships.length then
    throw (.notFound "people_boundary_not_found" "people boundary does not exist")
  let changed := { snapshot with relationships := kept }
  stored (RuntimeStores.writeGlobalMemory changed)
  pure (buildPeopleSurface changed)

inductive PeopleRequest
  | read
  | upsert (person : PersonBoundary)
  | delete (personId : String)
  deriving DecidableEq

def PeopleRequest.handle : PeopleRequest → TurnM PeopleSurface
  | read => readPeopleSurface
  | upsert person => upsertPeopleSurface person
  | delete personId => deletePeopleSurface personId

end Requests

/-! ### Runs -/

/-- What happens to the memory file. A request comes after some more operations on other files. -/
inductive PeopleEvent
  | memory (input : MemoryInput)
  | activeThread (operations : Nat) (threadId : ThreadId) (shouldBePresent : Bool)
  | people (operations : Nat) (request : PeopleRequest)

/-- The runtime after operations on other files. -/
def TurnRuntime.idle (runtime : TurnRuntime) (operations : Nat) : TurnRuntime :=
  { runtime with
    stores := { runtime.stores with operations := runtime.stores.operations + operations } }

/-- The event is an edit of this person. -/
def PeopleEvent.Edits (personId : String) : PeopleEvent → Prop
  | people _ (.upsert person) => person.personId = personId
  | people _ (.delete deleted) => deleted = personId
  | _ => False

instance (personId : String) : ∀ event : PeopleEvent, Decidable (event.Edits personId)
  | .people _ (.upsert person) => inferInstanceAs (Decidable (person.personId = personId))
  | .people _ (.delete deleted) => inferInstanceAs (Decidable (deleted = personId))
  | .people _ .read => inferInstanceAs (Decidable False)
  | .memory _ => inferInstanceAs (Decidable False)
  | .activeThread _ _ _ => inferInstanceAs (Decidable False)

variable [Disk] [Clock] [Unicode] [UnicodeCase] [JsonText]

def peopleStep (runtime : TurnRuntime) : PeopleEvent → TurnRuntime
  | .memory input => memoryStep runtime input
  | .activeThread operations threadId shouldBePresent =>
      Program.after (syncActiveThreadIds threadId shouldBePresent) (runtime.idle operations)
  | .people operations request => Program.after request.handle (runtime.idle operations)

end Liz
