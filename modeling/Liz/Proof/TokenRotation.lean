import Mathlib.Data.List.Dedup
import Liz.Model.Credentials

/-!
# Refresh tokens over a run

A call of the gateway resolves its credential anew from the saved profile, and what a refresh returns
is not saved. So every refresh of a run sends the token that the profile holds.
-/

namespace Liz

open Program

/-! ### What one call sends -/

namespace ResolvedCredential

variable (credential : ResolvedCredential) (provider : RefreshingProvider)

/-- The refresh token that the profile, the configuration or the environment holds. -/
def refreshToken : Option String := credential.metadata.lookup provider.refreshTokenKey

/-- The access token is missing or has expired. -/
def Expired (now : ClockReading) : Prop :=
  liveAccess now credential.apiKey
    ((credential.metadata.lookup provider.expiresAtKey).bind parseU64) = none

/-- There is all that a refresh needs: a refresh token, and what the provider asks for beside it. -/
def CanRefresh (now : ClockReading) : Prop :=
  present (credential.refreshToken provider) ≠ none ∧
    match provider with
    | .openaiCodex => now ≠ none
    | .gitlab =>
        credential.apiKey ≠ none ∧ credential.metadata.lookup "gitlab.auth_mode" = some "oauth" ∧
          present (credential.metadata.lookup "gitlab.oauth_client_id") ≠ none
    | .minimaxPortal =>
        (normalizeMinimaxRegion ((credential.metadata.lookup "minimax.region").getD "global")).isOk

/-- The call refreshes the access token. -/
def Refreshes (now : ClockReading) : Prop :=
  credential.Expired provider now ∧ credential.CanRefresh provider now

instance (now : ClockReading) : Decidable (credential.Expired provider now) :=
  inferInstanceAs (Decidable (_ = none))

instance (now : ClockReading) : Decidable (credential.CanRefresh provider now) := by
  unfold CanRefresh
  cases provider <;> exact inferInstanceAs (Decidable (_ ∧ _))

instance (now : ClockReading) : Decidable (credential.Refreshes provider now) :=
  inferInstanceAs (Decidable (_ ∧ _))

/-- The endpoint that refreshes go to. -/
def refreshUrl (env : Environment) : String :=
  match provider with
  | .openaiCodex =>
      (credential.metadata.lookup "openai_codex.token_url").getD "https://auth.openai.com/oauth/token"
  | .gitlab =>
      (credential.metadata.lookup "gitlab.oauth_token_url").getD
        (withoutFinal '/'
          ((credential.metadata.lookup "gitlab.instance_url").getD credential.baseUrl) ++
          "/oauth/token")
  | .minimaxPortal =>
      minimaxTokenUrl env
        ((normalizeMinimaxRegion
          ((credential.metadata.lookup "minimax.region").getD "global")).toOption.getD "")

/-- The refresh token as it is sent. -/
def sentToken : String := (present (credential.refreshToken provider)).getD ""

variable {credential provider}

/-- What is sent is the token that is held, without the white space around it. -/
theorem Refreshes.sentToken {now : ClockReading} (h : credential.Refreshes provider now) :
    ∃ token, credential.refreshToken provider = some token ∧
      credential.sentToken provider = Text.trim token := by
  have hpresent := h.2.1
  unfold ResolvedCredential.sentToken
  cases htoken : credential.refreshToken provider with
  | none =>
      rw [htoken] at hpresent
      exact absurd rfl hpresent
  | some token =>
      refine ⟨token, rfl, ?_⟩
      rw [htoken] at hpresent
      simp only [present, Option.map_some] at hpresent ⊢
      by_cases hempty : (Text.trim token).isEmpty = true
      · simp [Option.filter, hempty] at hpresent
      · simp [Option.filter, hempty]

end ResolvedCredential

namespace TokenService

variable [TokenEndpoint]

/-- What a refresh does to the endpoint. -/
def refresh (url token : String) (service : TokenService) : TokenService :=
  { issued :=
      if service.issued.head? = some token then TokenEndpoint.fresh service.issued :: service.issued
      else service.issued
    refreshes := service.refreshes ++ [⟨url, token, service.issued.head?⟩] }

/-- Whatever comes of a refresh, it has reached the endpoint. -/
theorem wp_postForm {label url token : String} {form : List (String × String)}
    (h : form.lookup "refresh_token" = some token) {service : TokenService}
    {R : TokenService → Prop} :
    wp (postForm label url form) (fun _ => R) (fun _ => R) service ↔
      R (service.refresh url token) := by
  unfold postForm refresh
  rw [wp_bind, wp_get, h]
  by_cases hlatest : service.issued.head? = some token
  · simp [hlatest]
  · simp [hlatest]

end TokenService

section Call

variable [TokenEndpoint] [JwtClaims] {service : TokenService} {R : TokenService → Prop}

/-- A call does nothing to the endpoint, or it refreshes with the token that is held. -/
theorem wp_openaiCodex (now : ClockReading) (accessToken refreshToken : Option String)
    (expiresAtMs : Option Nat) (accountId tokenUrl : Option String) :
    wp (resolveOpenaiCodexRuntimeAuth now accessToken refreshToken expiresAtMs accountId tokenUrl)
        (fun _ => R) (fun _ => R) service ↔
      R (if liveAccess now accessToken expiresAtMs = none ∧ present refreshToken ≠ none ∧ now ≠ none
        then service.refresh (tokenUrl.getD "https://auth.openai.com/oauth/token")
          ((present refreshToken).getD "")
        else service) := by
  unfold resolveOpenaiCodexRuntimeAuth
  cases now with
  | none => simp
  | some millis =>
      cases hrefresh : present refreshToken with
      | none => simp [required]
      | some token =>
          cases hlive : liveAccess (some millis) accessToken expiresAtMs with
          | some access => simp [required]
          | none =>
              simp only [required, refreshOpenaiCodexToken]
              simpa using TokenService.wp_postForm rfl

omit [JwtClaims] in
theorem wp_gitlab (now : ClockReading) (accessToken refreshToken : Option String)
    (expiresAtMs : Option Nat) (instanceUrl : String)
    (clientId clientSecret tokenUrl : Option String) :
    wp (resolveGitlabOauthRuntimeAuth now accessToken refreshToken expiresAtMs instanceUrl clientId
        clientSecret tokenUrl) (fun _ => R) (fun _ => R) service ↔
      R (if liveAccess now accessToken expiresAtMs = none ∧ present refreshToken ≠ none ∧
          present clientId ≠ none
        then service.refresh (tokenUrl.getD (withoutFinal '/' instanceUrl ++ "/oauth/token"))
          ((present refreshToken).getD "")
        else service) := by
  unfold resolveGitlabOauthRuntimeAuth
  cases hlive : liveAccess now accessToken expiresAtMs with
  | some access => simp
  | none =>
      cases hrefresh : present refreshToken with
      | none => simp [required]
      | some token =>
          cases hclient : present clientId with
          | none => simp [required]
          | some client =>
              simp only [required, refreshGitlabOauthToken]
              simpa using TokenService.wp_postForm rfl

omit [JwtClaims] [TokenEndpoint] in
/-- An answer without an expiry comes too late to matter to the endpoint. -/
theorem wp_materializeMinimax (now : ClockReading) (response : TokenResponse)
    (fallbackResourceUrl : String) :
    wp (materializeMinimaxOauthRuntimeAuth now response fallbackResourceUrl) (fun _ => R)
      (fun _ => R) = R := by
  funext service
  unfold materializeMinimaxOauthRuntimeAuth
  cases response.expiresIn <;> simp

omit [JwtClaims] in
theorem wp_minimaxPortal (env : Environment) (now : ClockReading)
    (accessToken refreshToken : Option String) (expiresAtMs : Option Nat) (region : String)
    (resourceUrl : Option String) :
    wp (resolveMinimaxOauthRuntimeAuth env now accessToken refreshToken expiresAtMs region
        resourceUrl) (fun _ => R) (fun _ => R) service ↔
      R (if liveAccess now accessToken expiresAtMs = none ∧ present refreshToken ≠ none ∧
          (normalizeMinimaxRegion region).isOk = true
        then service.refresh (minimaxTokenUrl env ((normalizeMinimaxRegion region).toOption.getD ""))
          ((present refreshToken).getD "")
        else service) := by
  unfold resolveMinimaxOauthRuntimeAuth
  cases hregion : normalizeMinimaxRegion region with
  | error message => simp [Except.isOk, Except.toBool]
  | ok region =>
      cases hlive : liveAccess now accessToken expiresAtMs with
      | some access => simp
      | none =>
          cases hrefresh : present refreshToken with
          | none => simp [required]
          | some token =>
              simp only [required, refreshMinimaxOauthToken, wp_bind, wp_pure,
                wp_materializeMinimax]
              simpa [Except.isOk, Except.toBool, Except.toOption] using TokenService.wp_postForm rfl

omit [TokenEndpoint] [JwtClaims] in
theorem after_eq_iff {ε σ α : Type} {p : EStateM ε σ α} {s t : σ} :
    after p s = t ↔ wp p (fun _ u => u = t) (fun _ u => u = t) s :=
  (wp_after (R := fun u => u = t)).symm

omit [TokenEndpoint] [JwtClaims] in
theorem after_bind_pure {ε σ α β : Type} (p : EStateM ε σ α) (f : α → β) (s : σ) :
    after (p >>= fun a => pure (f a)) s = after p s :=
  after_eq_iff.mpr (by
    rw [wp_bind]
    exact after_eq_iff.mp rfl)

/-- A call sends the refresh token that is held when it refreshes, and nothing otherwise. -/
theorem after_requestCredential (env : Environment) (provider : RefreshingProvider)
    (credential : ResolvedCredential) (now : ClockReading) :
    after (requestCredential env provider credential now) service =
      if credential.Refreshes provider now then
        service.refresh (credential.refreshUrl provider env) (credential.sentToken provider)
      else service := by
  cases provider with
  | openaiCodex =>
      rw [requestCredential, after_bind_pure, after_eq_iff, wp_openaiCodex]
      exact if_congr Iff.rfl rfl rfl
  | gitlab =>
      rw [requestCredential]
      cases hkey : credential.apiKey with
      | none =>
          rw [if_neg fun h => h.2.2.1 hkey]
          rfl
      | some apiKey =>
          show after (if _ then _ else _) service = _
          by_cases hmode : credential.metadata.lookup "gitlab.auth_mode" = some "oauth"
          · rw [if_pos hmode, after_bind_pure, after_eq_iff, wp_gitlab, ← hkey]
            refine if_congr ?_ rfl rfl
            exact ⟨fun h => ⟨h.1, h.2.1, by simp [hkey], hmode, h.2.2⟩,
              fun h => ⟨h.1, h.2.1, h.2.2.2.2⟩⟩
          · rw [if_neg hmode, if_neg fun h => hmode h.2.2.2.1]
            rfl
  | minimaxPortal =>
      rw [requestCredential, after_bind_pure, after_eq_iff, wp_minimaxPortal]
      exact if_congr Iff.rfl rfl rfl

/-! ### Runs -/

/-- The endpoint after the calls of a run; each one resolves the saved credential anew. -/
def runCalls (env : Environment) (provider : RefreshingProvider) (credential : ResolvedCredential)
    (times : List ClockReading) (service : TokenService) : TokenService :=
  times.foldl
    (fun service now => after (requestCredential env provider credential now) service) service

/-- Every refresh sends the token that was issued last, so none is refused. -/
def Rotates (refreshes : List TokenRefresh) : Prop :=
  ∀ refresh ∈ refreshes, refresh.latest = some refresh.token

instance (refreshes : List TokenRefresh) : Decidable (Rotates refreshes) :=
  inferInstanceAs (Decidable (∀ refresh ∈ refreshes, _))

/-- Only the calls that refresh count. -/
theorem runCalls_eq (env : Environment) (provider : RefreshingProvider)
    (credential : ResolvedCredential) (times : List ClockReading) :
    runCalls env provider credential times service =
      (TokenService.refresh (credential.refreshUrl provider env) (credential.sentToken provider))^[
        (times.filter fun now => credential.Refreshes provider now).length] service := by
  induction times generalizing service with
  | nil => rfl
  | cons now rest ih =>
      rw [runCalls, List.foldl_cons, ← runCalls, ih, after_requestCredential]
      by_cases h : credential.Refreshes provider now
      · rw [if_pos h, List.filter_cons_of_pos (by simpa using h), List.length_cons,
          Function.iterate_succ_apply]
      · rw [if_neg h, List.filter_cons_of_neg (by simpa using h)]

omit [JwtClaims] in
theorem refreshes_prefix (url token : String) (n : Nat) (service : TokenService) :
    service.refreshes <+: ((TokenService.refresh url token)^[n] service).refreshes := by
  induction n generalizing service with
  | zero => exact List.prefix_rfl
  | succ n ih => exact (List.prefix_append _ [_]).trans (ih (service.refresh url token))

omit [JwtClaims] in
/-- Two refreshes with one token do not both send the token that was issued last. -/
theorem not_rotates_twice (url token : String) (n : Nat) :
    ¬ Rotates ((TokenService.refresh url token)^[n + 2] service).refreshes := by
  intro h
  rw [Function.iterate_add_apply] at h
  have hearlier := refreshes_prefix url token n ((TokenService.refresh url token)^[2] service)
  have hsent : ∀ refresh, refresh ∈ ((TokenService.refresh url token)^[2] service).refreshes →
      refresh.latest = some refresh.token := fun refresh hmem => h refresh (hearlier.subset hmem)
  have hfirst := hsent ⟨url, token, service.issued.head?⟩ (by
    simp [TokenService.refresh])
  have hhead : service.issued.head? = some token := hfirst
  have hsecond := hsent ⟨url, token, some (TokenEndpoint.fresh service.issued)⟩ (by
    simp [TokenService.refresh, hhead])
  have hfresh : TokenEndpoint.fresh service.issued = token := Option.some.inj hsecond
  exact TokenEndpoint.fresh_new service.issued (hfresh ▸ List.mem_of_mem_head? hhead)

/-- The saved profiles over the configuration, resolved for the provider. -/
def savedCredential (env : Environment) (provider : RefreshingProvider)
    (overrides : Table String ProviderOverride) (profiles : List ProviderAuthProfile) :
    ResolvedCredential :=
  resolveCredential env provider
    ((gatewayWithProviderAuthProfiles overrides profiles).lookup provider.id)

/-- In a run of calls at any times, every refresh sends the token issued last if and only if at most
one call refreshes, and the saved token, when it is sent, has no white space around it. -/
theorem rotates_iff (env : Environment) (provider : RefreshingProvider)
    (overrides : Table String ProviderOverride) (profiles : List ProviderAuthProfile)
    (times : List ClockReading) (hnone : service.refreshes = [])
    (hissued : ∀ token,
      (savedCredential env provider overrides profiles).refreshToken provider = some token →
        service.issued.head? = some token) :
    Rotates (runCalls env provider (savedCredential env provider overrides profiles) times
        service).refreshes ↔
      (times.filter fun now =>
        (savedCredential env provider overrides profiles).Refreshes provider now).length ≤ 1 ∧
      ∀ token,
        (savedCredential env provider overrides profiles).refreshToken provider = some token →
          Text.trim token = token ∨
          ∀ now ∈ times,
            ¬ (savedCredential env provider overrides profiles).Refreshes provider now := by
  generalize savedCredential env provider overrides profiles = credential at hissued ⊢
  rw [runCalls_eq]
  generalize hcalls : times.filter (fun now => credential.Refreshes provider now) = calls
  match calls with
  | [] =>
      have hnever : ∀ now ∈ times, ¬ credential.Refreshes provider now := by
        simpa [List.filter_eq_nil_iff] using hcalls
      simp only [Rotates, List.length_nil, Function.iterate_zero, id, hnone]
      exact iff_of_true (by simp) ⟨Nat.zero_le 1, fun _ _ => .inr hnever⟩
  | [now] =>
      have hmem : now ∈ times ∧ credential.Refreshes provider now := by
        have : now ∈ times.filter fun now => credential.Refreshes provider now := by simp [hcalls]
        simpa using List.mem_filter.mp this
      obtain ⟨hnow, hrefreshes⟩ := hmem
      obtain ⟨token, htoken, hsent⟩ := hrefreshes.sentToken
      have hlog : ((TokenService.refresh (credential.refreshUrl provider env)
          (credential.sentToken provider))^[[now].length] service).refreshes =
          [⟨credential.refreshUrl provider env, Text.trim token, some token⟩] := by
        simp [TokenService.refresh, hnone, hsent, hissued token htoken]
      rw [Rotates, hlog]
      constructor
      · intro h
        refine ⟨Nat.le_refl 1, fun other hother => .inl ?_⟩
        obtain rfl : token = other := Option.some.inj (htoken.symm.trans hother)
        exact (Option.some.inj (h _ (List.mem_singleton_self _))).symm
      · rintro ⟨-, h⟩ refresh hrefresh
        obtain rfl := List.mem_singleton.mp hrefresh
        rcases h token htoken with htrim | hnever
        · rw [htrim]
        · exact absurd hrefreshes (hnever now hnow)
  | _ :: _ :: rest =>
      refine iff_of_false (not_rotates_twice _ _ rest.length) fun h => ?_
      simp at h

end Call

/-! ### The token of a saved profile -/

section Saved

variable {profile : ProviderAuthProfile} {profiles : List ProviderAuthProfile}

/-- The refresh token that a profile holds for its provider. -/
def ProviderAuthProfile.refreshToken (profile : ProviderAuthProfile)
    (provider : RefreshingProvider) : Option String :=
  match profile.credential with
  | .apiKey _ => none
  | .oAuth _ refreshToken _ _ _ => refreshToken.filter fun _ => provider ≠ .minimaxPortal
  | .token _ _ metadata => metadata.lookup provider.refreshTokenKey

theorem lookup_withMetadata? {override : ProviderOverride} {key other token : String}
    {value : Option String} (h : override.metadata.lookup key = some token) (hne : key ≠ other) :
    (override.withMetadata? other value).metadata.lookup key = some token := by
  cases value with
  | none => exact h
  | some value => exact (AList.lookup_insert_ne hne).trans h

theorem lookup_override {provider : RefreshingProvider} {token : String}
    (hprovider : profile.providerId = provider.id)
    (htoken : profile.refreshToken provider = some token) :
    (providerOverrideFromAuthProfile profile).metadata.lookup provider.refreshTokenKey =
      some token := by
  unfold ProviderAuthProfile.refreshToken at htoken
  unfold providerOverrideFromAuthProfile
  cases hcredential : profile.credential with
  | apiKey apiKey => simp [hcredential] at htoken
  | oAuth accessToken refreshToken expiresAtMs accountId email =>
      rw [hcredential, Option.filter_eq_some_iff] at htoken
      obtain ⟨rfl, hother⟩ := htoken
      rw [hprovider]
      cases provider with
      | openaiCodex =>
          refine lookup_withMetadata? (lookup_withMetadata? (lookup_withMetadata? ?_ (by decide))
            (by decide)) (by decide)
          exact AList.lookup_insert _
      | gitlab =>
          refine lookup_withMetadata? ?_ (by decide)
          exact AList.lookup_insert _
      | minimaxPortal => simp at hother
  | token token expiresAtMs metadata =>
      simp only [hcredential] at htoken ⊢
      cases expiresAtMs with
      | none => exact htoken
      | some expiresAtMs =>
          refine (AList.lookup_insert_ne (by cases provider <;> decide)).trans ?_
          split
          · exact (AList.lookup_insert_ne (by cases provider <;> decide)).trans htoken
          · exact htoken

theorem lookup_withProviderOverride_self (overrides : Table String ProviderOverride)
    (providerId : String) (override : ProviderOverride) :
    ∃ merged, (withProviderOverride overrides providerId override).lookup providerId = some merged ∧
      ∀ key value, override.metadata.lookup key = some value →
        merged.metadata.lookup key = some value := by
  unfold withProviderOverride
  cases overrides.lookup providerId with
  | none => exact ⟨override, AList.lookup_insert _, fun key value h => h⟩
  | some existing =>
      refine ⟨_, AList.lookup_insert _, fun key value h => ?_⟩
      exact (AList.lookup_union_left (AList.lookup_isSome.mp (by simp [h]))).trans h

theorem lookup_withProviderOverride_ne {overrides : Table String ProviderOverride}
    {providerId other : String} (override : ProviderOverride) (h : other ≠ providerId) :
    (withProviderOverride overrides providerId override).lookup other = overrides.lookup other := by
  unfold withProviderOverride
  split <;> exact AList.lookup_insert_ne h

/-- What is selected for a provider is a profile of that provider. -/
theorem selected_providerId (providerId : String)
    (h : ((((profiles.filter (·.providerId == providerId)).insertionSort
      fun left right => left.profileId ≤ right.profileId).find?
        (·.profileId == providerId ++ ":default")).or
      ((profiles.filter (·.providerId == providerId)).insertionSort
        fun left right => left.profileId ≤ right.profileId).head?) = some profile) :
    profile.providerId = providerId := by
  have hmem : profile ∈ (profiles.filter (·.providerId == providerId)).insertionSort
      fun left right => left.profileId ≤ right.profileId := by
    rcases Option.or_eq_some_iff.mp h with hfound | ⟨-, hfirst⟩
    · exact List.mem_of_find?_eq_some hfound
    · exact List.mem_of_mem_head? hfirst
  simpa using List.of_mem_filter ((List.mem_insertionSort _).mp hmem)

theorem filterMap_map_of_key {α β : Type} {f : α → Option β} {key : β → α}
    (h : ∀ a b, f a = some b → key b = a) (l : List α) :
    (l.filterMap f).map key = l.filter fun a => (f a).isSome := by
  induction l with
  | nil => rfl
  | cons a rest ih =>
      cases hfa : f a with
      | none => rw [List.filterMap_cons_none hfa, List.filter_cons_of_neg (by simp [hfa]), ih]
      | some b =>
          rw [List.filterMap_cons_some hfa, List.filter_cons_of_pos (by simp [hfa]), List.map_cons,
            ih, h a b hfa]

/-- No two profiles are selected for one provider. -/
theorem selected_nodup (profiles : List ProviderAuthProfile) :
    ((selectDefaultAuthProfiles profiles).map ProviderAuthProfile.providerId).Nodup := by
  unfold selectDefaultAuthProfiles
  rw [filterMap_map_of_key fun _ _ => selected_providerId _]
  exact ((List.perm_insertionSort _ _).nodup_iff.mpr (List.nodup_dedup _)).filter _

theorem lookup_of_others {others : List ProviderAuthProfile} {providerId : String}
    (h : providerId ∉ others.map ProviderAuthProfile.providerId)
    (overrides : Table String ProviderOverride) :
    (others.foldl (fun overrides profile =>
        withProviderOverride overrides profile.providerId
          (providerOverrideFromAuthProfile profile)) overrides).lookup providerId =
      overrides.lookup providerId := by
  induction others generalizing overrides with
  | nil => rfl
  | cons first rest ih =>
      rw [List.map_cons, List.mem_cons, not_or] at h
      rw [List.foldl_cons, ih h.2, lookup_withProviderOverride_ne _ h.1]

/-- What a selected profile says of its provider stands over the configuration. -/
theorem lookup_of_selected {selected : List ProviderAuthProfile}
    (hnodup : (selected.map ProviderAuthProfile.providerId).Nodup) (hprofile : profile ∈ selected)
    (overrides : Table String ProviderOverride) {key value : String}
    (hvalue : (providerOverrideFromAuthProfile profile).metadata.lookup key = some value) :
    ∃ merged, (selected.foldl (fun overrides profile =>
        withProviderOverride overrides profile.providerId
          (providerOverrideFromAuthProfile profile)) overrides).lookup profile.providerId =
        some merged ∧ merged.metadata.lookup key = some value := by
  induction selected generalizing overrides with
  | nil => exact absurd hprofile List.not_mem_nil
  | cons first rest ih =>
      rw [List.map_cons, List.nodup_cons] at hnodup
      rcases List.mem_cons.mp hprofile with rfl | hrest
      · obtain ⟨merged, hmerged, hkept⟩ := lookup_withProviderOverride_self overrides
          profile.providerId (providerOverrideFromAuthProfile profile)
        refine ⟨merged, ?_, hkept key value hvalue⟩
        rw [List.foldl_cons, lookup_of_others hnodup.1, hmerged]
      · exact ih hnodup.2 hrest _

theorem lookup_orInsert {metadata : Table String String} {key value : String}
    (h : metadata.lookup key = some value) (other : String) (fallback : Option String) :
    (orInsert metadata other fallback).lookup key = some value := by
  unfold orInsert
  cases fallback with
  | none => exact h
  | some fallback =>
      by_cases hother : other ∈ metadata
      · simp only [if_pos hother, h]
      · have hne : key ≠ other := fun heq => hother (heq ▸ AList.lookup_isSome.mp (by simp [h]))
        simp only [if_neg hother, AList.lookup_insert_ne hne, h]

/-- The refresh token of a saved profile is the one that a call holds. -/
theorem savedCredential_refreshToken (env : Environment) {provider : RefreshingProvider}
    (overrides : Table String ProviderOverride)
    (hprofile : profile ∈ selectDefaultAuthProfiles profiles)
    (hprovider : profile.providerId = provider.id) {token : String}
    (htoken : profile.refreshToken provider = some token) :
    (savedCredential env provider overrides profiles).refreshToken provider = some token := by
  obtain ⟨merged, hmerged, hkey⟩ := lookup_of_selected (selected_nodup profiles) hprofile overrides
    (lookup_override hprovider htoken)
  rw [hprovider] at hmerged
  rw [savedCredential, gatewayWithProviderAuthProfiles, hmerged]
  cases provider with
  | openaiCodex =>
      exact lookup_orInsert (lookup_orInsert (lookup_orInsert (lookup_orInsert (lookup_orInsert
        hkey _ _) _ _) _ _) _ _) _ _
  | gitlab => exact lookup_orInsert (lookup_orInsert (lookup_orInsert hkey _ _) _ _) _ _
  | minimaxPortal =>
      exact lookup_orInsert (lookup_orInsert (lookup_orInsert (lookup_orInsert hkey _ _) _ _) _ _)
        _ _

end Saved

/-! ### A profile that expires -/

/-- Every new token is longer than all tokens before it. -/
@[reducible] def longerTokens : TokenEndpoint where
  fresh issued := String.ofList ('r' :: issued.flatMap String.toList)
  fresh_new issued h := by
    have hlength : ∀ tokens : List String, ∀ token ∈ tokens,
        token.toList.length ≤ (tokens.flatMap String.toList).length := by
      intro tokens token htoken
      exact (List.sublist_flatten_of_mem (List.mem_map_of_mem htoken)).length_le
    have hshorter := hlength issued _ h
    rw [String.toList_ofList, List.length_cons] at hshorter
    omega
  answer issued :=
    { accessToken := "access", refreshToken := "", idToken := none, expiresIn := some 3600,
      resourceUrl := none }
  refusal := "400 Bad Request: invalid_grant"

@[reducible] def noClaims : JwtClaims := ⟨fun _ => none⟩

/-- An account of the provider whose access token is good for a second. -/
def codexProfile : ProviderAuthProfile :=
  { profileId := "openai-codex:default", providerId := "openai-codex", displayName := none,
    credential := .oAuth "access_1" (some "refresh_1") (some 1000) none none }

def codexCredential : ResolvedCredential :=
  savedCredential (fun _ => none) .openaiCodex ∅ [codexProfile]

/-- The login has given the first refresh token. -/
def codexLogin : TokenService := { issued := ["refresh_1"], refreshes := [] }

theorem codexCredential_refreshToken :
    codexCredential.refreshToken .openaiCodex = some "refresh_1" :=
  have hselected : codexProfile ∈ selectDefaultAuthProfiles [codexProfile] := by decide +kernel
  savedCredential_refreshToken _ ∅ hselected rfl rfl

theorem rotates_one_refresh :
    letI := longerTokens
    letI := noClaims
    Rotates (runCalls (fun _ => none) .openaiCodex codexCredential [some 500, some 2000]
      codexLogin).refreshes :=
  letI := longerTokens
  letI := noClaims
  have htoken : ∀ token, codexCredential.refreshToken .openaiCodex = some token →
      "refresh_1" = token := fun token h =>
    Option.some.inj (codexCredential_refreshToken.symm.trans h)
  (@rotates_iff _ _ codexLogin (fun _ => none) .openaiCodex ∅ [codexProfile] [some 500, some 2000]
    rfl fun token h => congrArg some (htoken token h)).mpr
    ⟨by decide +kernel, fun token h => .inl (htoken token h ▸ by decide +kernel)⟩

/-- The second call after the expiry sends the first token again. -/
theorem rotates_second_refresh_refused :
    letI := longerTokens
    letI := noClaims
    ¬ Rotates (runCalls (fun _ => none) .openaiCodex codexCredential [some 2000, some 3000]
      codexLogin).refreshes := by
  decide +kernel

end Liz
