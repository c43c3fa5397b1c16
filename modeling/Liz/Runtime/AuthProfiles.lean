import Liz.Model.Credentials
import Liz.Base.KeyedLists
import Liz.Runtime.Basic

/-!
# The saved auth profiles

All profiles stand in one file, in the order of their ids. The file is read before each request and
written anew when the request changes it, and the gateway takes its overrides from it.
-/

namespace Liz

structure AuthProfileSnapshot where
  profiles : List ProviderAuthProfile
  deriving DecidableEq

/-- The file, and the number of operations issued on it so far. -/
structure AuthProfileStore where
  operations : Nat
  snapshot : Option (JsonFile AuthProfileSnapshot)
  deriving DecidableEq

/-- Nothing has been saved. -/
def AuthProfileStore.blank : AuthProfileStore := { operations := 0, snapshot := none }

def AuthProfileStore.tick (store : AuthProfileStore) : AuthProfileStore :=
  { store with operations := store.operations + 1 }

/-- The profiles as the file reads; none when it does not parse. -/
def AuthProfileStore.saved (store : AuthProfileStore) : Option (List ProviderAuthProfile) :=
  match store.snapshot with
  | none => some []
  | some (.intact snapshot) => some snapshot.profiles
  | some (.corrupt _) => none

def AuthProfileStore.withSnapshot (store : AuthProfileStore) (snapshot : AuthProfileSnapshot)
    (fault : Option Fault) : AuthProfileStore :=
  match writtenFile snapshot fault with
  | some file => { store with snapshot := some file }
  | none => store

abbrev AuthM := EStateM RuntimeError AuthProfileStore

section Requests

variable [Disk]

def readAuthProfiles : AuthM AuthProfileSnapshot := fun store =>
  match readOutcome (Disk.fault store.operations) store.snapshot with
  | .ok snapshot => .ok (snapshot.getD ⟨[]⟩) store.tick
  | .error error => .error (.storage error) store.tick

def writeAuthProfiles (snapshot : AuthProfileSnapshot) : AuthM Unit := fun store =>
  let fault := Disk.fault store.operations
  match writeOutcome fault with
  | .ok () => .ok () (store.withSnapshot snapshot fault).tick
  | .error error => .error (.storage error) (store.withSnapshot snapshot fault).tick

def listProviderAuthProfiles (providerId : Option String) : AuthM (List ProviderAuthProfile) := do
  let snapshot ← readAuthProfiles
  match providerId with
  | some providerId => pure (snapshot.profiles.filter (·.providerId == providerId))
  | none => pure snapshot.profiles

def validateProviderAuthProfile (profile : ProviderAuthProfile) : AuthM Unit :=
  if Text.isBlank profile.profileId then
    throw (.invalidState "provider_auth_profile_id_required"
      "provider auth profile id must not be empty")
  else if Text.isBlank profile.providerId then
    throw (.invalidState "provider_auth_provider_id_required"
      "provider auth provider id must not be empty")
  else pure ()

def upsertProviderAuthProfile (profile : ProviderAuthProfile) : AuthM ProviderAuthProfile := do
  validateProviderAuthProfile profile
  let snapshot ← readAuthProfiles
  let profiles := KeyedLists.put ProviderAuthProfile.profileId profile snapshot.profiles
  writeAuthProfiles ⟨profiles.insertionSort fun left right => left.profileId ≤ right.profileId⟩
  pure profile

def deleteProviderAuthProfile (profileId : String) : AuthM String := do
  let snapshot ← readAuthProfiles
  let kept := snapshot.profiles.filter fun profile => profile.profileId ≠ profileId
  if kept.length = snapshot.profiles.length then
    throw (.notFound "provider_auth_profile_not_found"
      ("provider auth profile " ++ profileId ++ " does not exist"))
  writeAuthProfiles ⟨kept⟩
  pure profileId

def readProviderAuthProfiles : AuthM (List ProviderAuthProfile) :=
  AuthProfileSnapshot.profiles <$> readAuthProfiles

/-- The overrides of the gateway; they stay as they are when the profiles cannot be read. -/
def gatewayOverrides (overrides : Table String ProviderOverride) :
    AuthM (Table String ProviderOverride) := do
  match ← Program.attempt readProviderAuthProfiles with
  | .ok profiles => pure (gatewayWithProviderAuthProfiles overrides profiles)
  | .error _ => pure overrides

/-- A request that may change the saved profiles. -/
inductive ProfileRequest
  | upsert (profile : ProviderAuthProfile)
  | delete (profileId : String)
  deriving DecidableEq

def ProfileRequest.handle : ProfileRequest → AuthM Unit
  | upsert profile => do
      let _ ← upsertProviderAuthProfile profile
  | delete profileId => do
      let _ ← deleteProviderAuthProfile profileId

end Requests

end Liz
