import Liz.Proof.MemoryRuns
import Liz.Runtime.People

/-!
# What the people surface shows of a person

The relationships are a finite map from person ids, whatever has been written to the memory file,
and the surface shows each of them under its id. A boundary that is accepted is shown again as it was
given exactly if its kind and its confirmation are the ones that the surface derives.
-/

namespace Liz

open Program KeyedLists

/-- The relationship with each person. -/
abbrev Acquaintances := String → Option RelationshipEntry

/-- The relationships of the memory file; one that does not read has none to contradict. -/
def Knows (m : Acquaintances) (runtime : TurnRuntime) : Prop :=
  ∀ snapshot, storedMemory runtime.stores = some snapshot →
    Holds RelationshipEntry.personId snapshot.relationships m

/-! ### What a surface shows -/

def PeopleSurface.people (surface : PeopleSurface) : List PersonBoundary :=
  surface.humans ++ surface.externalAgents

/-- What the surface shows under an id, among the humans and among the agents. -/
def PeopleSurface.shown (surface : PeopleSurface) (personId : String) :
    List PersonBoundary × List PersonBoundary :=
  (surface.humans.filter fun person => person.personId = personId,
    surface.externalAgents.filter fun person => person.personId = personId)

/-- The boundary with blank notes counted as none. -/
def PersonBoundary.withoutBlankNotes (person : PersonBoundary) : PersonBoundary :=
  { person with notes := person.notes.filter fun notes => !Text.isBlank notes }

/-- The surface shows the person once, in the right list and with all its fields. -/
structure ShownAs (person : PersonBoundary) (surface : PeopleSurface) : Prop where
  once : (surface.people.filter fun other => other.personId = person.personId) =
    [person.withoutBlankNotes]
  listed : (∃ agent ∈ surface.externalAgents, agent.personId = person.personId) ↔
    person.actorKind = "external_agent"

/-- What is shown of a relationship. -/
def shownOf (relationship : Option RelationshipEntry) :
    List PersonBoundary × List PersonBoundary :=
  let boundary := relationship.map personBoundaryFromRelationship
  ((boundary.filter fun person => !person.isExternalAgent).toList,
    (boundary.filter PersonBoundary.isExternalAgent).toList)

theorem shown_buildPeopleSurface {snapshot : GlobalMemorySnapshot} {m : Acquaintances}
    (h : Holds RelationshipEntry.personId snapshot.relationships m) (personId : String) :
    (buildPeopleSurface snapshot).shown personId = shownOf (m personId) := by
  have hboundaries : Holds PersonBoundary.personId
      (snapshot.relationships.map personBoundaryFromRelationship) _ :=
    h.map fun _ => rfl
  have hlist : ∀ p : PersonBoundary → Bool,
      (((snapshot.relationships.map personBoundaryFromRelationship).filter p).insertionSort
          fun left right => left.displayName ≤ right.displayName).filter
            (fun person => person.personId = personId) =
        (((m personId).map personBoundaryFromRelationship).filter p).toList := by
    intro p
    exact ((hboundaries.filter p).perm (List.perm_insertionSort _ _)).filter_key personId
  exact Prod.ext (hlist _) (hlist _)

/-- The kind and the confirmation are what the surface derives from the other fields. -/
def PersonBoundary.Derivable (person : PersonBoundary) : Prop :=
  (person.actorKind = "external_agent" ↔
    Text.contains person.interactionStance "agent" = true ∨
      "agent:".toList <+: person.personId.toList) ∧
    (person.requiresOwnerConfirmation = true ↔ person.trustLevel ≠ .owner)

/-- The boundary passes the checks. -/
structure PersonBoundary.Valid (person : PersonBoundary) : Prop where
  id : Text.isBlank person.personId = false
  name : Text.isBlank person.displayName = false
  kind : person.actorKind = "human" ∨ person.actorKind = "external_agent"

theorem boundary_round_trip_iff {person : PersonBoundary} (hvalid : person.Valid)
    (hstance : Text.isBlank person.interactionStance = false) :
    personBoundaryFromRelationship (relationshipEntryFromBoundary person) =
      person.withoutBlankNotes ↔ person.Derivable := by
  have hkind : (if Text.contains person.interactionStance "agent" ||
        "agent:".toList.isPrefixOf person.personId.toList then "external_agent" else "human") =
      person.actorKind ↔ (person.actorKind = "external_agent" ↔
        Text.contains person.interactionStance "agent" = true ∨
          "agent:".toList <+: person.personId.toList) := by
    rw [← List.isPrefixOf_iff_prefix, ← Bool.or_eq_true]
    cases Text.contains person.interactionStance "agent" ||
        "agent:".toList.isPrefixOf person.personId.toList with
    | false => rcases hvalid.kind with hkind | hkind <;> simp [hkind]
    | true => rcases hvalid.kind with hkind | hkind <;> simp [hkind]
  have hconfirmation : (person.trustLevel != .owner) = person.requiresOwnerConfirmation ↔
      (person.requiresOwnerConfirmation = true ↔ person.trustLevel ≠ .owner) := by
    cases person.requiresOwnerConfirmation <;> simp
  simp only [personBoundaryFromRelationship, relationshipEntryFromBoundary,
    PersonBoundary.withoutBlankNotes, hstance]
  rw [PersonBoundary.Derivable, ← hkind, ← hconfirmation]
  simp [PersonBoundary.mk.injEq, -String.reduceToList]

theorem shownOf_some (relationship : RelationshipEntry) :
    shownOf (some relationship) =
      if (personBoundaryFromRelationship relationship).isExternalAgent then
        ([], [personBoundaryFromRelationship relationship])
      else ([personBoundaryFromRelationship relationship], []) := by
  simp only [shownOf, Option.map_some, Option.filter_some]
  cases (personBoundaryFromRelationship relationship).isExternalAgent <;> rfl

theorem shownAs_iff {person : PersonBoundary} {surface : PeopleSurface}
    {relationship : RelationshipEntry}
    (h : surface.shown person.personId = shownOf (some relationship)) :
    ShownAs person surface ↔
      personBoundaryFromRelationship relationship = person.withoutBlankNotes := by
  rw [shownOf_some, PeopleSurface.shown] at h
  generalize personBoundaryFromRelationship relationship = boundary at h ⊢
  have honce : (surface.people.filter fun other => other.personId = person.personId) =
      [boundary] := by
    rw [PeopleSurface.people, List.filter_append]
    split at h
    · rw [(Prod.mk.inj h).1, (Prod.mk.inj h).2, List.nil_append]
    · rw [(Prod.mk.inj h).1, (Prod.mk.inj h).2, List.append_nil]
  have hlisted : (∃ agent ∈ surface.externalAgents, agent.personId = person.personId) ↔
      boundary.isExternalAgent = true := by
    have hempty := @List.filter_eq_nil_iff _
      (fun other => decide (other.personId = person.personId)) surface.externalAgents
    split at h
    next hagent =>
      rw [(Prod.mk.inj h).2] at hempty
      simpa [hagent] using hempty
    next hhuman =>
      rw [(Prod.mk.inj h).2] at hempty
      simpa [hhuman] using hempty
  constructor
  · intro hshown
    exact List.singleton_inj.mp (honce.symm.trans hshown.once)
  · intro heq
    refine ⟨honce.trans (congrArg (fun b => [b]) heq), hlisted.trans ?_⟩
    rw [heq]
    exact beq_iff_eq

/-! ### Requests -/

section Requests

variable [Disk]

/-- Between the two runtimes the relationships have not changed, unless they no longer read. -/
def KeepsPeople (s t : TurnRuntime) : Prop :=
  ∀ later, storedMemory t.stores = some later →
    ∃ before, storedMemory s.stores = some before ∧ later.relationships = before.relationships

omit [Disk] in
theorem KeepsPeople.knows {m : Acquaintances} {s t : TurnRuntime} (h : KeepsPeople s t)
    (hm : Knows m s) : Knows m t := by
  intro later hlater
  obtain ⟨before, hbefore, hsame⟩ := h later hlater
  rw [hsame]
  exact hm before hbefore

omit [Disk] in
theorem KeepsPeople.of_same {s t : TurnRuntime}
    (h : t.stores.globalMemory = s.stores.globalMemory) : KeepsPeople s t := by
  intro later hlater
  rw [storedMemory, h] at hlater
  exact ⟨later, hlater, rfl⟩

omit [Disk] in
theorem KeepsPeople.of_unread {s t : TurnRuntime} (h : storedMemory t.stores = none) :
    KeepsPeople s t := by
  intro later hlater
  rw [h] at hlater
  cases hlater

/-- The request has made this of the relationships, and returns the surface over them. -/
def Wrote (change : List RelationshipEntry → List RelationshipEntry) (s : TurnRuntime)
    (surface : PeopleSurface) (t : TurnRuntime) : Prop :=
  ∃ before after : GlobalMemorySnapshot, storedMemory s.stores = some before ∧
    storedMemory t.stores = some after ∧ surface = buildPeopleSurface after ∧
    after.relationships = change before.relationships

theorem readPeopleSurface_wrote (runtime : TurnRuntime) :
    wp readPeopleSurface (Wrote id runtime) (fun _ t => KeepsPeople runtime t) runtime := by
  unfold readPeopleSurface
  rw [wp_bind, wp_stored]
  refine wp_readGlobalMemory (fun snapshot hsnapshot => ?_) (fun _ => .of_same rfl)
  exact ⟨snapshot, snapshot, hsnapshot, hsnapshot, rfl, rfl⟩

-- The checks stay folded when a goal about a request is looked at.
attribute [local irreducible] Text.isBlank

omit [Disk] in
theorem wp_validatePersonBoundary {Q : Unit → TurnRuntime → Prop}
    {E : RuntimeError → TurnRuntime → Prop} {person : PersonBoundary} {runtime : TurnRuntime}
    (hvalid : person.Valid → Q () runtime) (hinvalid : ∀ e, E e runtime) :
    wp (validatePersonBoundary person) Q E runtime := by
  unfold validatePersonBoundary
  split
  · exact hinvalid _
  · next hid =>
      split
      · exact hinvalid _
      · next hname =>
          split
          · exact hinvalid _
          · next hkind =>
              refine hvalid ⟨Bool.eq_false_iff.mpr hid, Bool.eq_false_iff.mpr hname, ?_⟩
              exact or_iff_not_imp_left.mpr fun h => not_not.mp fun h' => hkind ⟨h, h'⟩

/-- The relationship goes where the one with its id was, and the list is sorted again. -/
def upserted (entry : RelationshipEntry) (relationships : List RelationshipEntry) :
    List RelationshipEntry :=
  (put RelationshipEntry.personId entry relationships).insertionSort fun left right =>
    left.displayName ≤ right.displayName

theorem upsertPeopleSurface_wrote (person : PersonBoundary) (runtime : TurnRuntime) :
    wp (upsertPeopleSurface person)
      (fun surface t => person.Valid ∧
        Wrote (upserted (relationshipEntryFromBoundary person)) runtime surface t)
      (fun _ t => KeepsPeople runtime t) runtime := by
  unfold upsertPeopleSurface
  rw [wp_bind, wp_stored]
  refine wp_readGlobalMemory (fun snapshot hsnapshot => ?_) (fun _ => .of_same rfl)
  rw [wp_bind]
  refine wp_validatePersonBoundary (fun hvalid => ?_) (fun _ => .of_same rfl)
  rw [wp_bind, wp_stored]
  exact wp_writeGlobalMemory ⟨hvalid, snapshot, _, hsnapshot, rfl, rfl, rfl⟩
    (fun _ => .of_same rfl) (fun _ _ => .of_unread rfl)

theorem deletePeopleSurface_wrote (personId : String) (runtime : TurnRuntime) :
    wp (deletePeopleSurface personId)
      (Wrote (fun relationships => relationships.filter fun relationship =>
        relationship.personId ≠ personId) runtime)
      (fun _ t => KeepsPeople runtime t) runtime := by
  unfold deletePeopleSurface
  rw [wp_bind, wp_stored]
  refine wp_readGlobalMemory (fun snapshot hsnapshot => ?_) (fun _ => .of_same rfl)
  dsimp only
  split
  · exact .of_same rfl
  · rw [wp_bind, wp_stored]
    exact wp_writeGlobalMemory ⟨snapshot, _, hsnapshot, rfl, rfl, rfl⟩
      (fun _ => .of_same rfl) (fun _ _ => .of_unread rfl)

theorem syncActiveThreadIds_keepsPeople (threadId : ThreadId) (shouldBePresent : Bool)
    (runtime : TurnRuntime) :
    KeepsPeople runtime (after (syncActiveThreadIds threadId shouldBePresent) runtime) := by
  rw [← wp_after (R := fun t => KeepsPeople runtime t)]
  unfold syncActiveThreadIds
  rw [wp_bind, wp_stored]
  refine wp_readGlobalMemory (fun snapshot hsnapshot => ?_) (fun _ => .of_same rfl)
  rw [wp_stored]
  refine wp_writeGlobalMemory ?_ (fun _ => .of_same rfl) (fun _ _ => .of_unread rfl)
  intro later hlater
  exact ⟨snapshot, hsnapshot, by rw [← Option.some.inj hlater]⟩

end Requests

/-! ### Runs -/

section Runs

variable [Disk] [Clock] [Unicode] [UnicodeCase] [JsonText]

omit [Disk] in
/-- No memory request writes relationships. -/
theorem MemoryRequest.changes_relationships {runtime : TurnRuntime} {request : MemoryRequest}
    {snapshot after : GlobalMemorySnapshot} {ids : IdGenerator}
    (h : request.Changes runtime snapshot after ids) :
    after.relationships = snapshot.relationships := by
  cases request with
  | compile threadId =>
      obtain ⟨_, _, _, _, _, _, rfl, _⟩ := h
      rfl
  | compileFromLlmOutput threadId rawJson =>
      obtain ⟨_, _, _, _, _, _, rfl, _⟩ := h
      rfl
  | updateAboutYou update => rw [h.1]
  | correctKnowledge correction => rw [h.1]

theorem memoryStep_keepsPeople (runtime : TurnRuntime) (input : MemoryInput) :
    KeepsPeople runtime (memoryStep runtime input) := by
  intro later hlater
  rcases memoryStep_cases runtime input with hkept | hchanged
  · rcases hkept.2 with hsame | hnone
    · rw [storedMemory, hsame] at hlater
      exact ⟨later, hlater, rfl⟩
    · rw [hnone] at hlater
      cases hlater
  · obtain ⟨snapshot, after, hsnapshot, hafter, hchanges⟩ := hchanged.applied
    obtain rfl : after = later := Option.some.inj (hafter.symm.trans hlater)
    exact ⟨snapshot, hsnapshot, MemoryRequest.changes_relationships hchanges⟩

omit [Clock] [Unicode] [UnicodeCase] [JsonText] [Disk] in
theorem Wrote.knows {change : List RelationshipEntry → List RelationshipEntry}
    {m m' : Acquaintances} {s t : TurnRuntime} {surface : PeopleSurface}
    (h : Wrote change s surface t) (hm : Knows m s)
    (hchange : ∀ relationships, Holds RelationshipEntry.personId relationships m →
      Holds RelationshipEntry.personId (change relationships) m') : Knows m' t := by
  obtain ⟨before, after, hbefore, hafter, -, hchanged⟩ := h
  intro later hlater
  obtain rfl : after = later := Option.some.inj (hafter.symm.trans hlater)
  rw [hchanged]
  exact hchange _ (hm before hbefore)

omit [Disk] [Clock] [Unicode] [UnicodeCase] [JsonText] in
theorem Holds.upserted {m : Acquaintances} {relationships : List RelationshipEntry}
    (h : Holds RelationshipEntry.personId relationships m) (entry : RelationshipEntry) :
    Holds RelationshipEntry.personId (upserted entry relationships)
      (Function.update m entry.personId (some entry)) :=
  (h.put entry).perm (List.perm_insertionSort _ _)

/-- What a request makes of the relationships. -/
def PeopleRequest.apply (m : Acquaintances) : PeopleRequest → Acquaintances
  | read => m
  | upsert person => Function.update m person.personId (some (relationshipEntryFromBoundary person))
  | delete personId => Function.update m personId none

omit [Clock] [Unicode] [UnicodeCase] [JsonText] in
/-- A request is carried out or changes nothing. -/
theorem PeopleRequest.handle_knows {m : Acquaintances} {runtime : TurnRuntime}
    (hm : Knows m runtime) (request : PeopleRequest) :
    wp request.handle (fun _ t => Knows (request.apply m) t) (fun _ t => Knows m t) runtime := by
  cases request with
  | read =>
      exact wp_mono (readPeopleSurface_wrote runtime) (fun _ _ h => h.knows hm fun _ h => h)
        (fun _ _ h => h.knows hm)
  | upsert person =>
      exact wp_mono (upsertPeopleSurface_wrote person runtime)
        (fun _ _ h => h.2.knows hm fun _ h => Holds.upserted h _) (fun _ _ h => h.knows hm)
  | delete personId =>
      exact wp_mono (deletePeopleSurface_wrote personId runtime)
        (fun _ _ h => h.knows hm fun _ h => h.erase personId) (fun _ _ h => h.knows hm)

omit [Disk] [Clock] [Unicode] [UnicodeCase] [JsonText] in
theorem PeopleRequest.apply_of_not_edits {m : Acquaintances} {request : PeopleRequest}
    {operations : Nat} {personId : String}
    (h : ¬ (PeopleEvent.people operations request).Edits personId) :
    request.apply m personId = m personId := by
  cases request with
  | read => rfl
  | upsert person => exact Function.update_of_ne (fun heq => h heq.symm) _ _
  | delete deleted => exact Function.update_of_ne (fun heq => h heq.symm) _ _

/-- An event changes at most the relationship that it edits. -/
theorem peopleStep_knows {m : Acquaintances} {runtime : TurnRuntime} (hm : Knows m runtime)
    (event : PeopleEvent) :
    ∃ m', Knows m' (peopleStep runtime event) ∧
      ∀ personId, ¬ event.Edits personId → m' personId = m personId := by
  cases event with
  | memory input => exact ⟨m, (memoryStep_keepsPeople runtime input).knows hm, fun _ _ => rfl⟩
  | activeThread operations threadId shouldBePresent =>
      have hidle : Knows m (runtime.idle operations) := hm
      exact ⟨m, (syncActiveThreadIds_keepsPeople threadId shouldBePresent _).knows hidle,
        fun _ _ => rfl⟩
  | people operations request =>
      have hidle : Knows m (runtime.idle operations) := hm
      have hcases : Knows (request.apply m) (peopleStep runtime (.people operations request)) ∨
          Knows m (peopleStep runtime (.people operations request)) := by
        rw [peopleStep, ← wp_after (R := fun t => Knows (request.apply m) t ∨ Knows m t)]
        exact wp_mono (request.handle_knows hidle) (fun _ _ h => .inl h) (fun _ _ h => .inr h)
      rcases hcases with happlied | hkept
      · exact ⟨_, happlied, fun _ h => PeopleRequest.apply_of_not_edits h⟩
      · exact ⟨m, hkept, fun _ _ => rfl⟩

theorem peopleRun_knows {m : Acquaintances} {runtime : TurnRuntime} (hm : Knows m runtime)
    (events : List PeopleEvent) :
    ∃ m', Knows m' (Runs.final peopleStep runtime events) ∧
      ∀ personId, (∀ event ∈ events, ¬ event.Edits personId) → m' personId = m personId := by
  induction events generalizing m runtime with
  | nil => exact ⟨m, hm, fun _ _ => rfl⟩
  | cons event rest ih =>
      obtain ⟨next, hnext, hstep⟩ := peopleStep_knows hm event
      obtain ⟨last, hlast, hrest⟩ := ih hnext
      refine ⟨last, hlast, fun personId hall => ?_⟩
      rw [List.forall_mem_cons] at hall
      rw [hrest personId hall.2, hstep personId hall.1]

omit [Clock] [Unicode] [UnicodeCase] [JsonText] [Disk] in
theorem Wrote.shown {change : List RelationshipEntry → List RelationshipEntry} {m : Acquaintances}
    {s t : TurnRuntime} {surface : PeopleSurface} (h : Wrote change s surface t) (hm : Knows m t)
    (personId : String) : surface.shown personId = shownOf (m personId) := by
  obtain ⟨-, after, -, hafter, rfl, -⟩ := h
  exact shown_buildPeopleSurface (hm after hafter) personId

omit [Clock] [Unicode] [UnicodeCase] [JsonText] in
/-- What is read shows the relationships as they are. -/
theorem shown_read {m : Acquaintances} {runtime : TurnRuntime} (hm : Knows m runtime)
    {surface : PeopleSurface} (h : result readPeopleSurface runtime = some surface)
    (personId : String) : surface.shown personId = shownOf (m personId) := by
  obtain ⟨hwrote, hafter⟩ := wp_of_result
    (wp_and (readPeopleSurface_wrote runtime) (PeopleRequest.read.handle_knows hm)) h
  exact hwrote.shown hafter personId

/-- The boundary is shown as it was given, at once and until the person is edited again. What is
shown of the others is what was shown before, until they are edited. -/
structure RoundTrip (person : PersonBoundary) (runtime : TurnRuntime) (surface : PeopleSurface) :
    Prop where
  returned : ShownAs person surface
  read : ∀ events, (∀ event ∈ events, ¬ PeopleEvent.Edits person.personId event) → ∀ later,
    result readPeopleSurface
      (Runs.final peopleStep (after (upsertPeopleSurface person) runtime) events) = some later →
    ShownAs person later
  others : ∀ before, result readPeopleSurface runtime = some before →
    ∀ personId ≠ person.personId, surface.shown personId = before.shown personId
  othersRead : ∀ before, result readPeopleSurface runtime = some before →
    ∀ personId ≠ person.personId, ∀ events,
      (∀ event ∈ events, ¬ PeopleEvent.Edits personId event) → ∀ later,
    result readPeopleSurface
      (Runs.final peopleStep (after (upsertPeopleSurface person) runtime) events) = some later →
    later.shown personId = before.shown personId

/-- An accepted boundary with a stance comes back as it was given if and only if the surface derives
its kind and its confirmation from the other fields. -/
theorem people_round_trip_iff (history : List PeopleEvent) (person : PersonBoundary)
    (surface : PeopleSurface) (hstance : Text.isBlank person.interactionStance = false)
    (haccepted : result (upsertPeopleSurface person) (Runs.final peopleStep .fresh history) =
      some surface) :
    RoundTrip person (Runs.final peopleStep .fresh history) surface ↔ person.Derivable := by
  have hfresh : Knows (fun _ => none) .fresh := by
    intro snapshot hsnapshot
    rw [← Option.some.inj hsnapshot]
    exact holds_nil
  obtain ⟨m, hm, -⟩ := peopleRun_knows hfresh history
  generalize Runs.final peopleStep .fresh history = runtime at haccepted hm ⊢
  obtain ⟨⟨hvalid, hwrote⟩, hafter⟩ := wp_of_result
    (wp_and (upsertPeopleSurface_wrote person runtime)
      ((PeopleRequest.upsert person).handle_knows hm)) haccepted
  have hself : (PeopleRequest.upsert person).apply m person.personId =
      some (relationshipEntryFromBoundary person) := Function.update_self _ _ _
  have hother : ∀ personId ≠ person.personId,
      (PeopleRequest.upsert person).apply m personId = m personId := fun personId hne =>
    Function.update_of_ne hne _ _
  have hderived := boundary_round_trip_iff hvalid hstance
  have hreturned := shownAs_iff ((hwrote.shown hafter _).trans (congrArg shownOf hself))
  constructor
  · intro h
    exact hderived.mp (hreturned.mp h.returned)
  · intro h
    have hboundary := hderived.mpr h
    constructor
    case returned => exact hreturned.mpr hboundary
    case read =>
      intro events hnone later hlater
      obtain ⟨last, hlast, hsame⟩ := peopleRun_knows hafter events
      refine (shownAs_iff ((shown_read hlast hlater _).trans (congrArg shownOf ?_))).mpr hboundary
      rw [hsame _ hnone, hself]
    case others =>
      intro before hbefore personId hne
      rw [hwrote.shown hafter, shown_read hm hbefore, hother personId hne]
    case othersRead =>
      intro before hbefore personId hne events hnone later hlater
      obtain ⟨last, hlast, hsame⟩ := peopleRun_knows hafter events
      rw [shown_read hlast hlater, shown_read hm hbefore, hsame _ hnone, hother personId hne]

end Runs

/-- Somebody who was met once; the owner is to be asked first. -/
def acquaintance : PersonBoundary :=
  { personId := "p"
    displayName := "P"
    actorKind := "human"
    trustLevel := .acquaintance
    sharedTopics := []
    forbiddenTopics := []
    shareActiveState := false
    shareCommitments := false
    interactionStance := "peer"
    notes := none
    requiresOwnerConfirmation := true }

/-- A surface with one human on it. -/
def surfaceOf (person : PersonBoundary) : PeopleSurface :=
  { humans := [person], externalAgents := [], defaultStrangerBoundary := .strangerDefault }

theorem acquaintance_round_trip :
    @RoundTrip calmDisk stoppedClock asciiTable asciiCase noJson acquaintance .fresh
      (surfaceOf acquaintance) ↔ acquaintance.Derivable :=
  @people_round_trip_iff calmDisk stoppedClock asciiTable asciiCase noJson [] acquaintance
    (surfaceOf acquaintance) (by decide +kernel) (by decide +kernel)

/-- That the owner need not be asked is forgotten. -/
theorem confirmation_forgotten :
    ¬ ∀ (_ : Disk) (_ : Clock) (_ : Unicode) (_ : UnicodeCase) (_ : JsonText)
      (history : List PeopleEvent) (person : PersonBoundary) (surface : PeopleSurface),
      Text.isBlank person.interactionStance = false →
      result (upsertPeopleSurface person) (Runs.final peopleStep .fresh history) = some surface →
      RoundTrip person (Runs.final peopleStep .fresh history) surface := by
  intro h
  have htrip := h calmDisk stoppedClock asciiTable asciiCase noJson []
    { acquaintance with requiresOwnerConfirmation := false } (surfaceOf acquaintance)
    (by decide +kernel) (by decide +kernel)
  have hshown := @RoundTrip.returned calmDisk stoppedClock asciiTable asciiCase noJson _ _ _ htrip
  exact absurd hshown.once (by decide +kernel)

end Liz
