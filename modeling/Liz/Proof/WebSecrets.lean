import Liz.Base.Tables
import Liz.Web.Workbench

/-!
# Secrets in the web client

Before profiles are kept, each secret field of a credential is replaced by a word that says it is
configured. The metadata of a token is kept as it is, whatever the login flows have written there.
-/

namespace Liz.Web

/-! ### Metadata as a list -/

theorem mem_sortedEntries (metadata : Table String String) (entry : String × String) :
    entry ∈ sortedEntries metadata ↔ metadata.lookup entry.1 = some entry.2 := by
  obtain ⟨key, value⟩ := entry
  rw [sortedEntries, List.mem_insertionSort, List.mem_map, ← Option.mem_def,
    AList.mem_lookup_iff]
  constructor
  · rintro ⟨⟨k, v⟩, hmem, heq⟩
    obtain ⟨rfl, rfl⟩ := Prod.mk.inj heq
    exact hmem
  · exact fun hmem => ⟨⟨key, value⟩, hmem, rfl⟩

/-- The list says all of the map, and nothing of the order it was filled in. -/
theorem sortedEntries_eq_iff {first second : Table String String} :
    sortedEntries first = sortedEntries second ↔ Tables.Same second first := by
  constructor
  · intro h key
    apply Option.ext
    intro value
    have hfirst := mem_sortedEntries first (key, value)
    rw [h] at hfirst
    exact hfirst.symm.trans (mem_sortedEntries second (key, value))
  · intro h
    have hperm : (sortedEntries first).Perm (sortedEntries second) := by
      refine (List.perm_insertionSort _ _).trans (.trans ?_ (List.perm_insertionSort _ _).symm)
      exact h.perm.map _
    refine hperm.eq_of_pairwise (fun left right hleft hright hle hge => ?_)
      (List.pairwise_insertionSort _ _) (List.pairwise_insertionSort _ _)
    have hkey : left.1 = right.1 := String.le_antisymm hle hge
    have hvalue := (mem_sortedEntries _ _).mp hleft
    rw [hkey, h right.1, (mem_sortedEntries _ _).mp hright] at hvalue
    exact Prod.ext hkey (Option.some.inj hvalue).symm

/-! ### Profiles that differ in their secrets -/

section Secrets

variable (secretKey : String → Bool)

/-- The credentials differ in nothing but secrets: API keys, access tokens, refresh tokens, and the
metadata that stands under secret keys. -/
inductive CredentialsDiffer : ProviderCredential → ProviderCredential → Prop
  | apiKey (first second : String) : CredentialsDiffer (.apiKey first) (.apiKey second)
  | oAuth (first second : String) {refresh refresh' : Option String} (expiresAtMs : Option Nat)
      (accountId email : Option String) (hrefresh : refresh.isSome = refresh'.isSome) :
      CredentialsDiffer (.oAuth first refresh expiresAtMs accountId email)
        (.oAuth second refresh' expiresAtMs accountId email)
  | token (first second : String) (expiresAtMs : Option Nat) {metadata metadata' : Table String String}
      (hkeys : ∀ key, (metadata.lookup key).isSome = (metadata'.lookup key).isSome)
      (hpublic : ∀ key, secretKey key = false → metadata.lookup key = metadata'.lookup key) :
      CredentialsDiffer (.token first expiresAtMs metadata) (.token second expiresAtMs metadata')

structure ProfilesDiffer (first second : ProviderAuthProfile) : Prop where
  profileId : first.profileId = second.profileId
  providerId : first.providerId = second.providerId
  displayName : first.displayName = second.displayName
  credential : CredentialsDiffer secretKey first.credential second.credential

/-- The metadata has the same secrets, where there is metadata. -/
def SameMetadataSecrets (first second : ProviderAuthProfile) : Prop :=
  match first.credential, second.credential with
  | .token _ _ metadata, .token _ _ metadata' =>
      ∀ key, secretKey key = true → metadata.lookup key = metadata'.lookup key
  | _, _ => True

end Secrets

/-- What the page keeps of a stored credential; of an OAuth credential nothing. -/
def keptCredential : ProviderCredential → Option Credential
  | .apiKey _ => some (.apiKey "configured")
  | .oAuth .. => none
  | .token _ expiresAtMs metadata => some (.token "configured" expiresAtMs (sortedEntries metadata))

def keptProfile (profile : ProviderAuthProfile) : ProviderProfile :=
  { ProviderProfile.ofStored profile with credential := keptCredential profile.credential }

theorem sanitize_ofStored (profile : ProviderAuthProfile) :
    sanitizeProviderProfile (ProviderProfile.ofStored profile) = some (keptProfile profile) := by
  unfold sanitizeProviderProfile ProviderProfile.ofStored keptProfile
  cases profile.credential <;> rfl

theorem keptProfile_eq_iff {secretKey : String → Bool} {first second : ProviderAuthProfile}
    (h : ProfilesDiffer secretKey first second) :
    keptProfile first = keptProfile second ↔ SameMetadataSecrets secretKey first second := by
  have hkept : keptProfile first = keptProfile second ↔
      keptCredential first.credential = keptCredential second.credential := by
    rw [keptProfile, keptProfile, ProviderProfile.mk.injEq]
    simp [ProviderProfile.ofStored, h.profileId, h.providerId, h.displayName]
  rw [hkept, SameMetadataSecrets]
  obtain ⟨-, -, -, hcredential⟩ := h
  revert hcredential
  cases first.credential <;> cases second.credential <;> intro hcredential <;> cases hcredential
  case apiKey => exact iff_of_true rfl trivial
  case oAuth => exact iff_of_true rfl trivial
  case token expiresAtMs metadata _ metadata' hkeys hpublic =>
    rw [keptCredential, keptCredential, Option.some.injEq, Credential.token.injEq,
      sortedEntries_eq_iff]
    constructor
    · exact fun h key _ => h.2.2 key
    · intro h
      refine ⟨rfl, rfl, fun key => ?_⟩
      cases hkey : secretKey key with
      | true => exact h key hkey
      | false => exact hpublic key hkey

/-! ### Updates -/

/-- The two ways in which stored profiles come into the state. -/
inductive ProfileUpdate
  | set (profiles : List ProviderAuthProfile)
  | upsert (profile : ProviderAuthProfile)

namespace ProfileUpdate

def action : ProfileUpdate → WorkbenchAction
  | set profiles => .providerProfilesSet (profiles.map ProviderProfile.ofStored)
  | upsert profile => .providerProfileUpsert (ProviderProfile.ofStored profile)

def profiles : ProfileUpdate → List ProviderAuthProfile
  | set profiles => profiles
  | upsert profile => [profile]

/-- The profiles of the state that the update leaves in place. -/
def others (state : WorkbenchState) : ProfileUpdate → List ProviderProfile
  | set _ => []
  | upsert profile => state.providerProfiles.filter (·.profileId != profile.profileId)

/-- Updates of one kind whose profiles differ in nothing but secrets. -/
inductive Differ (secretKey : String → Bool) : ProfileUpdate → ProfileUpdate → Prop
  | set {first second : List ProviderAuthProfile}
      (h : List.Forall₂ (ProfilesDiffer secretKey) first second) :
      Differ secretKey (set first) (set second)
  | upsert {first second : ProviderAuthProfile} (h : ProfilesDiffer secretKey first second) :
      Differ secretKey (upsert first) (upsert second)

theorem Differ.profiles {secretKey : String → Bool} {first second : ProfileUpdate}
    (h : Differ secretKey first second) :
    List.Forall₂ (ProfilesDiffer secretKey) first.profiles second.profiles := by
  cases h with
  | set h => exact h
  | upsert h => exact .cons h .nil

theorem Differ.others {secretKey : String → Bool} {first second : ProfileUpdate}
    (h : Differ secretKey first second) (state : WorkbenchState) :
    first.others state = second.others state := by
  cases h with
  | set h => rfl
  | upsert h => rw [ProfileUpdate.others, ProfileUpdate.others, h.profileId]

/-- The profiles in the state after the update, unless the reducer throws. -/
def shown [Collation] (now : PageTime) (state : WorkbenchState) (update : ProfileUpdate) :
    Option (List ProviderProfile) :=
  (workbenchReducer now state update.action).map WorkbenchState.providerProfiles

theorem sanitize_stored_append (stored : List ProviderAuthProfile)
    (others : List ProviderProfile) :
    sanitizeProviderProfiles (stored.map ProviderProfile.ofStored ++ others) =
      (sanitizeProviderProfiles others).map fun others => stored.map keptProfile ++ others := by
  induction stored with
  | nil => simp [sanitizeProviderProfiles]
  | cons profile rest ih =>
      have hcons : sanitizeProviderProfiles
          ((profile :: rest).map ProviderProfile.ofStored ++ others) =
          (sanitizeProviderProfile (ProviderProfile.ofStored profile)).bind fun first =>
            (sanitizeProviderProfiles (rest.map ProviderProfile.ofStored ++ others)).map
              fun rest => first :: rest := by
        rw [List.map_cons, List.cons_append, sanitizeProviderProfiles, List.mapM_cons]
        simp [sanitizeProviderProfiles, Option.map_eq_bind, Function.comp_def]
      rw [hcons, sanitize_ofStored, Option.bind_some, ih, Option.map_map]
      rfl

/-- An update puts its profiles in front of the others, unless one of these cannot be read again. -/
theorem shown_eq [Collation] (now : PageTime) (state : WorkbenchState) (update : ProfileUpdate) :
    update.shown now state =
      (sanitizeProviderProfiles (update.others state)).map
        fun others => update.profiles.map keptProfile ++ others := by
  cases update with
  | set profiles =>
      have hset := sanitize_stored_append profiles []
      rw [List.append_nil] at hset
      show Option.map _ ((sanitizeProviderProfiles (profiles.map ProviderProfile.ofStored)).bind _) = _
      rw [hset]
      rfl
  | upsert profile =>
      have hupsert := sanitize_stored_append [profile]
        (state.providerProfiles.filter (·.profileId != profile.profileId))
      show Option.map _ ((sanitizeProviderProfiles ([profile].map ProviderProfile.ofStored ++
        state.providerProfiles.filter (·.profileId != profile.profileId))).bind _) =
          (sanitizeProviderProfiles
            (state.providerProfiles.filter (·.profileId != profile.profileId))).map _
      rw [hupsert]
      cases sanitizeProviderProfiles
        (state.providerProfiles.filter (·.profileId != profile.profileId)) <;> rfl

end ProfileUpdate

theorem sanitizeProviderProfile_eq_none_iff (profile : ProviderProfile) :
    sanitizeProviderProfile profile = none ↔ profile.credential = none := by
  unfold sanitizeProviderProfile
  cases profile.credential with
  | none => exact iff_of_true rfl rfl
  | some credential =>
      have hsome : ∃ kept, sanitizeCredential (some credential) = some kept := by
        cases credential <;> exact ⟨_, rfl⟩
      obtain ⟨kept, hkept⟩ := hsome
      rw [hkept]
      exact iff_of_false (Option.some_ne_none _) (Option.some_ne_none _)

theorem sanitize_eq_none_iff (profiles : List ProviderProfile) :
    sanitizeProviderProfiles profiles = none ↔
      ∃ profile ∈ profiles, profile.credential = none := by
  induction profiles with
  | nil => simp [sanitizeProviderProfiles]
  | cons profile rest ih =>
      rw [sanitizeProviderProfiles, List.mapM_cons, ← sanitizeProviderProfiles]
      simp only [List.mem_cons, exists_eq_or_imp]
      rw [← ih, ← sanitizeProviderProfile_eq_none_iff]
      cases sanitizeProviderProfile profile <;> cases sanitizeProviderProfiles rest <;> simp

/-- Profiles that differ in nothing but secrets come out the same if and only if they have the same
secrets in their metadata, or the update fails on a profile that was there before. -/
theorem profiles_hidden_iff [Collation] (secretKey : String → Bool) (now : PageTime)
    (state : WorkbenchState) {first second : ProfileUpdate}
    (h : ProfileUpdate.Differ secretKey first second) :
    first.shown now state = second.shown now state ↔
      List.Forall₂ (SameMetadataSecrets secretKey) first.profiles second.profiles ∨
        ∃ profile ∈ first.others state, profile.credential = none := by
  have hkept : first.profiles.map keptProfile = second.profiles.map keptProfile ↔
      List.Forall₂ (SameMetadataSecrets secretKey) first.profiles second.profiles := by
    rw [← List.forall₂_eq_eq_eq, List.forall₂_map_left_iff, List.forall₂_map_right_iff]
    constructor
    · exact fun heq => List.Forall₂.mp (fun p q hpq heq => (keptProfile_eq_iff hpq).mp heq)
        h.profiles heq
    · exact fun hsame => List.Forall₂.mp (fun p q hpq hsame => (keptProfile_eq_iff hpq).mpr hsame)
        h.profiles hsame
  rw [first.shown_eq, second.shown_eq, ← h.others state, ← sanitize_eq_none_iff, ← hkept]
  cases sanitizeProviderProfiles (first.others state) with
  | none => simp
  | some others => simp

/-- The keys under which the login flows write secrets. -/
def loginSecretKey (key : String) : Bool :=
  ["gitlab.oauth_client_secret", "gitlab.oauth.refresh_token",
    "minimax.oauth.refresh_token"].contains key

/-- A profile of a personal access token. -/
def patProfile (token : String) : ProviderAuthProfile :=
  { profileId := "gitlab:default", providerId := "gitlab", displayName := some "GitLab PAT",
    credential := .token token none
      ((∅ : Table String String).insert "gitlab.instance_url" "https://gitlab.com") }

theorem profiles_hidden_pat :
    letI := codePointOrder
    (ProfileUpdate.set [patProfile "glpat-1"]).shown ⟨0, ""⟩ initialWorkbenchState =
      (ProfileUpdate.set [patProfile "glpat-2"]).shown ⟨0, ""⟩ initialWorkbenchState :=
  letI := codePointOrder
  (profiles_hidden_iff loginSecretKey ⟨0, ""⟩ initialWorkbenchState
    (.set (.cons ⟨rfl, rfl, rfl, .token _ _ _ (fun _ => rfl) fun _ _ => rfl⟩ .nil))).mpr
    (.inl (.cons (fun _ _ => rfl) .nil))

/-- A profile of a GitLab login, with the client secret in its metadata. -/
def gitlabProfile (clientSecret : String) : ProviderAuthProfile :=
  { profileId := "gitlab:default", providerId := "gitlab", displayName := some "GitLab OAuth",
    credential := .token "access" none
      ((∅ : Table String String).insert "gitlab.oauth_client_secret" clientSecret) }

/-- Two profiles that differ in the client secret can be told apart in the state. -/
theorem client_secret_shown :
    letI := codePointOrder
    ¬ ∀ first second : ProfileUpdate, ProfileUpdate.Differ loginSecretKey first second →
      first.shown ⟨0, ""⟩ initialWorkbenchState = second.shown ⟨0, ""⟩ initialWorkbenchState := by
  let _ : Collation := codePointOrder
  intro h
  have hdiffer : ProfilesDiffer loginSecretKey (gitlabProfile "first") (gitlabProfile "second") := by
    refine ⟨rfl, rfl, rfl, .token _ _ _ (fun key => ?_) fun key hkey => ?_⟩
    · by_cases heq : key = "gitlab.oauth_client_secret"
      · rw [heq, AList.lookup_insert, AList.lookup_insert]
        rfl
      · rw [AList.lookup_insert_ne heq, AList.lookup_insert_ne heq]
    · have hne : key ≠ "gitlab.oauth_client_secret" := fun heq => by
        rw [heq] at hkey
        exact absurd hkey (by decide)
      rw [AList.lookup_insert_ne hne, AList.lookup_insert_ne hne]
  have hsame := h (.set [gitlabProfile "first"]) (.set [gitlabProfile "second"])
    (.set (.cons hdiffer .nil))
  revert hsame
  decide +kernel

end Liz.Web
