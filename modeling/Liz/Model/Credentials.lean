import Mathlib.Algebra.Group.Nat.Defs
import Mathlib.Data.List.Sort
import Liz.Base.Program
import Liz.Protocol.Resources
import Liz.Server.Gateway

/-!
# Credentials that are refreshed

Three providers give access tokens that expire, with a refresh token to get the next one. The gateway
puts the saved profiles over its configuration, resolves the credential of its provider from this and
the environment, and asks the token endpoint when the access token is missing or has expired. The
endpoint here is one that rotates its refresh tokens.
-/

namespace Liz

/-- The variables of the process. -/
abbrev Environment := String → Option String

def firstEnv (env : Environment) (keys : List String) : Option String :=
  keys.findSome? fun key => (env key).filter fun value => !Text.isBlank value

/-- Milliseconds since 1970, when the clock is not set before. -/
abbrev ClockReading := Option Nat

def currentUnixTimeMs (now : ClockReading) : Nat := now.getD 0

/-- The value without the white space around it, if anything is left. -/
def present (value : Option String) : Option String :=
  (value.map Text.trim).filter fun value => !value.isEmpty

def withoutFinal (c : Char) (value : String) : String :=
  String.ofList (value.toList.reverse.dropWhile (· = c)).reverse

/-- An unsigned number of 64 bits in decimal digits, which may have a plus sign. -/
def parseU64 (value : String) : Option Nat :=
  let digits := if value.toList.head? = some '+' then value.toList.tail else value.toList
  if digits.isEmpty || !digits.all Char.isDigit then none
  else (some (digits.foldl (fun n c => 10 * n + (c.toNat - '0'.toNat)) 0)).filter (· < 2 ^ 64)

example : parseU64 "+42" = some 42 ∧ parseU64 "4.2" = none := by decide

/-! ### Overrides and profiles -/

structure ProviderOverride where
  baseUrl : Option String
  apiKey : Option String
  modelId : Option String
  headers : Table String String
  metadata : Table String String

namespace ProviderOverride

def empty : ProviderOverride :=
  { baseUrl := none, apiKey := none, modelId := none, headers := ∅, metadata := ∅ }

def withMetadata (override : ProviderOverride) (key value : String) : ProviderOverride :=
  { override with metadata := override.metadata.insert key value }

/-- Nothing is written when there is no value. -/
def withMetadata? (override : ProviderOverride) (key : String) (value : Option String) :
    ProviderOverride :=
  match value with
  | none => override
  | some value => override.withMetadata key value

end ProviderOverride

/-- Adds or merges a provider override. -/
def withProviderOverride (overrides : Table String ProviderOverride) (providerId : String)
    (override : ProviderOverride) : Table String ProviderOverride :=
  match overrides.lookup providerId with
  | none => overrides.insert providerId override
  | some existing =>
      overrides.insert providerId
        { baseUrl := override.baseUrl.or existing.baseUrl
          apiKey := override.apiKey.or existing.apiKey
          modelId := override.modelId.or existing.modelId
          headers := override.headers ∪ existing.headers
          metadata := override.metadata ∪ existing.metadata }

/-- One profile for each provider: the one named default, or the first by name. -/
def selectDefaultAuthProfiles (profiles : List ProviderAuthProfile) : List ProviderAuthProfile :=
  let providerIds := (profiles.map ProviderAuthProfile.providerId).dedup.insertionSort (· ≤ ·)
  providerIds.filterMap fun providerId =>
    let group := (profiles.filter (·.providerId == providerId)).insertionSort
      fun left right => left.profileId ≤ right.profileId
    (group.find? (·.profileId == providerId ++ ":default")).or group.head?

def providerOverrideFromAuthProfile (profile : ProviderAuthProfile) : ProviderOverride :=
  match profile.credential with
  | .apiKey apiKey => { ProviderOverride.empty with apiKey := some apiKey }
  | .oAuth accessToken refreshToken expiresAtMs accountId email =>
      let override := { ProviderOverride.empty with apiKey := some accessToken }
      match refreshToken with
      | none => override
      | some refreshToken =>
          match profile.providerId with
          | "openai-codex" =>
              (((override.withMetadata "openai_codex.refresh_token" refreshToken).withMetadata?
                "openai_codex.expires_at_ms" (expiresAtMs.map toString)).withMetadata?
                "openai_codex.account_id" accountId).withMetadata? "openai_codex.email" email
          | "gitlab" =>
              ((override.withMetadata "gitlab.auth_mode" "oauth").withMetadata
                "gitlab.oauth.refresh_token" refreshToken).withMetadata?
                "gitlab.oauth.expires_at_ms" (expiresAtMs.map toString)
          | _ => override.withMetadata "oauth.refresh_token" refreshToken
  | .token token expiresAtMs metadata =>
      let override := { ProviderOverride.empty with apiKey := some token, metadata := metadata }
      match expiresAtMs with
      | none => override
      | some expiresAtMs =>
          (if profile.providerId = "minimax-portal" then
            override.withMetadata "minimax.oauth.expires_at_ms" (toString expiresAtMs)
          else override).withMetadata "auth.expires_at_ms" (toString expiresAtMs)

/-- The saved profiles go over the configuration of the gateway. -/
def gatewayWithProviderAuthProfiles (overrides : Table String ProviderOverride)
    (profiles : List ProviderAuthProfile) : Table String ProviderOverride :=
  (selectDefaultAuthProfiles profiles).foldl
    (fun overrides profile =>
      withProviderOverride overrides profile.providerId (providerOverrideFromAuthProfile profile))
    overrides

/-! ### Resolution -/

/-- The providers whose access tokens are refreshed. -/
inductive RefreshingProvider
  | openaiCodex | gitlab | minimaxPortal
  deriving DecidableEq, Repr

namespace RefreshingProvider

def id : RefreshingProvider → String
  | openaiCodex => "openai-codex"
  | gitlab => "gitlab"
  | minimaxPortal => "minimax-portal"

def defaultBaseUrl : RefreshingProvider → String
  | openaiCodex => "https://chatgpt.com/backend-api"
  | gitlab => "https://gitlab.com"
  | minimaxPortal => "https://api.minimax.io/anthropic"

def refreshTokenKey : RefreshingProvider → String
  | openaiCodex => "openai_codex.refresh_token"
  | gitlab => "gitlab.oauth.refresh_token"
  | minimaxPortal => "minimax.oauth.refresh_token"

def expiresAtKey : RefreshingProvider → String
  | openaiCodex => "openai_codex.expires_at_ms"
  | gitlab => "gitlab.oauth.expires_at_ms"
  | minimaxPortal => "minimax.oauth.expires_at_ms"

end RefreshingProvider

/-- What a resolved provider holds for its requests. -/
structure ResolvedCredential where
  baseUrl : String
  apiKey : Option String
  metadata : Table String String

/-- A value for a key that has none yet. -/
def orInsert (metadata : Table String String) (key : String) (value : Option String) :
    Table String String :=
  match value with
  | none => metadata
  | some value => if key ∈ metadata then metadata else metadata.insert key value

def minimaxDefaultResourceUrl (region : String) : String :=
  if region = "cn" then "https://api.minimaxi.com/anthropic"
  else "https://api.minimax.io/anthropic"

def resolveMinimaxBaseUrl (region : String) : String :=
  if Text.toAsciiLowercase region = "cn" then "https://api.minimaxi.com/anthropic"
  else "https://api.minimax.io/anthropic"

/-- The configuration of the provider with the environment under it. -/
def resolveCredential (env : Environment) (provider : RefreshingProvider)
    (override : Option ProviderOverride) : ResolvedCredential :=
  let configured := override.bind ProviderOverride.baseUrl
  let metadata := (override.map ProviderOverride.metadata).getD ∅
  let apiKey := override.bind ProviderOverride.apiKey
  match provider with
  | .gitlab =>
      { baseUrl := (configured.or (env "GITLAB_AI_GATEWAY_URL")).getD provider.defaultBaseUrl
        apiKey := apiKey.or (firstEnv env ["GITLAB_TOKEN"])
        metadata := orInsert (orInsert (orInsert metadata
          "gitlab.instance_url" (env "GITLAB_INSTANCE_URL"))
          "gitlab.ai_gateway_url" (env "GITLAB_AI_GATEWAY_URL"))
          "gitlab.oauth_client_id" (env "GITLAB_OAUTH_CLIENT_ID") }
  | .openaiCodex =>
      { baseUrl := configured.getD provider.defaultBaseUrl
        apiKey := apiKey.or (firstEnv env ["OPENAI_CODEX_ACCESS_TOKEN"])
        metadata := orInsert (orInsert (orInsert (orInsert (orInsert metadata
          "openai_codex.refresh_token" (firstEnv env ["OPENAI_CODEX_REFRESH_TOKEN"]))
          "openai_codex.expires_at_ms" (firstEnv env ["OPENAI_CODEX_EXPIRES_AT_MS"]))
          "openai_codex.account_id" (firstEnv env ["OPENAI_CODEX_ACCOUNT_ID"]))
          "openai_codex.email" (firstEnv env ["OPENAI_CODEX_EMAIL"]))
          "openai_codex.token_url" (firstEnv env ["OPENAI_CODEX_TOKEN_URL"]) }
  | .minimaxPortal =>
      let region := ((metadata.lookup "minimax.region").or (firstEnv env ["MINIMAX_REGION"])).getD
        "global"
      let metadata := orInsert (orInsert (orInsert (orInsert metadata
        "minimax.region" (some region))
        "minimax.oauth.refresh_token" (firstEnv env ["MINIMAX_OAUTH_REFRESH_TOKEN"]))
        "minimax.oauth.expires_at_ms" (firstEnv env ["MINIMAX_OAUTH_EXPIRES_AT_MS"]))
        "minimax.resource_url" (firstEnv env ["MINIMAX_RESOURCE_URL"])
      { baseUrl := (configured.or (metadata.lookup "minimax.resource_url")).getD
          (resolveMinimaxBaseUrl region)
        apiKey := apiKey.or (firstEnv env ["MINIMAX_OAUTH_TOKEN", "MINIMAX_API_KEY"])
        metadata := metadata }

/-! ### The token endpoint -/

structure TokenResponse where
  accessToken : String
  refreshToken : String
  idToken : Option String
  expiresIn : Option Nat
  resourceUrl : Option String

/-- An endpoint that answers every refresh with a new refresh token. -/
class TokenEndpoint where
  /-- The next refresh token, after the ones issued so far. -/
  fresh : List String → String
  fresh_new : ∀ issued, fresh issued ∉ issued
  /-- The rest of the answer. -/
  answer : List String → TokenResponse
  refusal : String

/-- A refresh as it reaches the endpoint: what it sends, and the token issued last. -/
structure TokenRefresh where
  url : String
  token : String
  latest : Option String
  deriving DecidableEq, Repr

/-- The refresh tokens issued so far, the latest first, and the refreshes that were sent. -/
structure TokenService where
  issued : List String
  refreshes : List TokenRefresh
  deriving DecidableEq, Repr

abbrev Refreshing (α : Type) := EStateM ModelError TokenService α

/-- What is posted names the refresh token; only the latest one is accepted. -/
def postForm [TokenEndpoint] (label url : String) (form : List (String × String)) :
    Refreshing TokenResponse := do
  let service ← get
  let token := (form.lookup "refresh_token").getD ""
  let refreshes := service.refreshes ++ [⟨url, token, service.issued.head?⟩]
  if service.issued.head? = some token then
    let next := TokenEndpoint.fresh service.issued
    set { issued := next :: service.issued, refreshes := refreshes : TokenService }
    pure { TokenEndpoint.answer service.issued with refreshToken := next }
  else
    set { service with refreshes := refreshes }
    throw (.providerFailure (label ++ " returned " ++ TokenEndpoint.refusal))

/-! ### Runtime credentials -/

/-- What the claims of an access token or an identity token say of the account. -/
structure OpenAiCodexJwtClaims where
  accountId : Option String
  email : Option String

class JwtClaims where
  decode : String → Option OpenAiCodexJwtClaims

structure OpenAiCodexRuntimeAuth where
  accessToken : String
  refreshToken : String
  expiresAtMs : Nat
  accountId : Option String
  email : Option String

structure GitLabOAuthRuntimeAuth where
  accessToken : String
  refreshToken : Option String
  expiresAtMs : Option Nat

structure MiniMaxOAuthRuntimeAuth where
  accessToken : String
  refreshToken : String
  expiresAtMs : Nat
  resourceUrl : String

/-- The access token with its expiry, while it has not expired. -/
def liveAccess (now : ClockReading) (accessToken : Option String) (expiresAtMs : Option Nat) :
    Option (String × Nat) :=
  (present accessToken).bind fun access =>
    expiresAtMs.bind fun expiry =>
      if currentUnixTimeMs now < expiry then some (access, expiry) else none

/-- The value, or a failure of the provider. -/
def required (value : Option String) (message : String) : Refreshing String :=
  match value with
  | some value => pure value
  | none => throw (.providerFailure message)

section Resolve

variable [TokenEndpoint]

def materializeOpenaiCodexRuntimeAuth [JwtClaims] (now : ClockReading) (response : TokenResponse) :
    OpenAiCodexRuntimeAuth :=
  let claims := (response.idToken.bind JwtClaims.decode).or (JwtClaims.decode response.accessToken)
  { accessToken := response.accessToken
    refreshToken := response.refreshToken
    expiresAtMs := currentUnixTimeMs now + response.expiresIn.getD 3600 * 1000
    accountId := claims.bind OpenAiCodexJwtClaims.accountId
    email := claims.bind OpenAiCodexJwtClaims.email }

def refreshOpenaiCodexToken [JwtClaims] (now : ClockReading) (refreshToken : String)
    (tokenUrlOverride : Option String) : Refreshing OpenAiCodexRuntimeAuth := do
  let response ← postForm "OpenAI Codex OAuth endpoint"
    (tokenUrlOverride.getD "https://auth.openai.com/oauth/token")
    [("grant_type", "refresh_token"), ("refresh_token", refreshToken),
      ("client_id", "app_EMoamEEZ73f0CkXaXp7hrann")]
  pure (materializeOpenaiCodexRuntimeAuth now response)

def resolveOpenaiCodexRuntimeAuth [JwtClaims] (now : ClockReading)
    (accessToken refreshToken : Option String) (expiresAtMs : Option Nat)
    (accountId tokenUrlOverride : Option String) : Refreshing OpenAiCodexRuntimeAuth := do
  if now.isNone then
    throw (.providerFailure ("failed to read system clock for Codex OAuth: " ++
      "second time provided was later than self"))
  let currentRefresh ← required (present refreshToken)
    "openai-codex requires a refresh token or externally managed OAuth credential"
  match liveAccess now accessToken expiresAtMs with
  | some (access, expiry) =>
      let claims := JwtClaims.decode access
      pure { accessToken := access, refreshToken := currentRefresh, expiresAtMs := expiry,
             accountId := accountId.or (claims.bind OpenAiCodexJwtClaims.accountId),
             email := claims.bind OpenAiCodexJwtClaims.email }
  | none =>
      let refreshed ← refreshOpenaiCodexToken now currentRefresh tokenUrlOverride
      pure { refreshed with accountId := refreshed.accountId.or accountId }

def materializeGitlabOauthRuntimeAuth (now : ClockReading) (response : TokenResponse) :
    GitLabOAuthRuntimeAuth :=
  { accessToken := response.accessToken
    refreshToken := some response.refreshToken
    expiresAtMs := response.expiresIn.map fun seconds => currentUnixTimeMs now + seconds * 1000 }

def refreshGitlabOauthToken (now : ClockReading) (instanceUrl clientId : String)
    (clientSecret : Option String) (refreshToken : String) (tokenUrlOverride : Option String) :
    Refreshing GitLabOAuthRuntimeAuth := do
  let secret := (clientSecret.filter fun value => !Text.isBlank value).toList
  let response ← postForm "OAuth endpoint"
    (tokenUrlOverride.getD (withoutFinal '/' instanceUrl ++ "/oauth/token"))
    ([("grant_type", "refresh_token"), ("client_id", clientId), ("refresh_token", refreshToken)] ++
      secret.map fun value => ("client_secret", value))
  pure (materializeGitlabOauthRuntimeAuth now response)

def resolveGitlabOauthRuntimeAuth (now : ClockReading) (accessToken refreshToken : Option String)
    (expiresAtMs : Option Nat) (instanceUrl : String)
    (clientId clientSecret tokenUrlOverride : Option String) :
    Refreshing GitLabOAuthRuntimeAuth :=
  match liveAccess now accessToken expiresAtMs with
  | some (access, expiry) =>
      pure { accessToken := access, refreshToken := refreshToken, expiresAtMs := some expiry }
  | none => do
      let refreshToken ← required (present refreshToken)
        "gitlab oauth requires a refresh token when the access token is expired"
      let clientId ← required (present clientId) "gitlab oauth refresh requires a client id"
      refreshGitlabOauthToken now instanceUrl clientId clientSecret refreshToken tokenUrlOverride

def normalizeMinimaxRegion (region : String) : Except String String :=
  match Text.toAsciiLowercase (Text.trim region) with
  | "global" => .ok "global"
  | "cn" => .ok "cn"
  | other => .error ("unsupported MiniMax region " ++ other)

def normalizeMinimaxTimestamp (now : ClockReading) (raw : Nat) : Nat :=
  if raw > 1000000000000 then raw
  else if raw > 10000000000 then raw * 1000
  else currentUnixTimeMs now + raw * 1000

def materializeMinimaxOauthRuntimeAuth (now : ClockReading) (response : TokenResponse)
    (fallbackResourceUrl : String) : Refreshing MiniMaxOAuthRuntimeAuth :=
  match response.expiresIn with
  | none => throw (.providerFailure
      "MiniMax OAuth returned an incomplete token payload (missing expiry)")
  | some raw =>
      pure { accessToken := response.accessToken, refreshToken := response.refreshToken,
             expiresAtMs := normalizeMinimaxTimestamp now raw,
             resourceUrl := (response.resourceUrl.filter fun value => !Text.isBlank value).getD
               fallbackResourceUrl }

/-- The endpoint of a region, unless the environment names another one. -/
def minimaxTokenUrl (env : Environment) (region : String) : String :=
  (firstEnv env ["LIZ_MINIMAX_OAUTH_TOKEN_URL"]).getD
    (if region = "cn" then "https://api.minimaxi.com/oauth/token"
    else "https://api.minimax.io/oauth/token")

def refreshMinimaxOauthToken (env : Environment) (now : ClockReading) (region refreshToken : String)
    (fallbackResourceUrl : Option String) : Refreshing MiniMaxOAuthRuntimeAuth := do
  let response ← postForm "OAuth endpoint" (minimaxTokenUrl env region)
    [("grant_type", "refresh_token"), ("client_id", "78257093-7e40-4613-99e0-527b14b39113"),
      ("refresh_token", refreshToken)]
  materializeMinimaxOauthRuntimeAuth now response
    (fallbackResourceUrl.getD (minimaxDefaultResourceUrl region))

def resolveMinimaxOauthRuntimeAuth (env : Environment) (now : ClockReading)
    (accessToken refreshToken : Option String) (expiresAtMs : Option Nat) (region : String)
    (resourceUrl : Option String) : Refreshing MiniMaxOAuthRuntimeAuth :=
  match normalizeMinimaxRegion region with
  | .error message => throw (.providerFailure message)
  | .ok region =>
      match liveAccess now accessToken expiresAtMs with
      | some (access, expiry) =>
          pure { accessToken := access, refreshToken := refreshToken.getD "",
                 expiresAtMs := expiry,
                 resourceUrl := (resourceUrl.filter fun value => !Text.isBlank value).getD
                   (minimaxDefaultResourceUrl region) }
      | none => do
          let refreshToken ← required (present refreshToken)
            "MiniMax OAuth refresh requires a refresh token"
          refreshMinimaxOauthToken env now region refreshToken resourceUrl

/-- The access token that a live request of the provider carries. -/
def requestCredential [JwtClaims] (env : Environment) (provider : RefreshingProvider)
    (credential : ResolvedCredential) (now : ClockReading) : Refreshing String :=
  let value := fun key => credential.metadata.lookup key
  let refreshToken := value provider.refreshTokenKey
  let expiresAtMs := (value provider.expiresAtKey).bind parseU64
  match provider with
  | .openaiCodex => do
      let runtime ← resolveOpenaiCodexRuntimeAuth now credential.apiKey refreshToken expiresAtMs
        (value "openai_codex.account_id") (value "openai_codex.token_url")
      pure runtime.accessToken
  | .gitlab => do
      let apiKey ← required credential.apiKey "gitlab provider requires a token for live mode"
      if value "gitlab.auth_mode" = some "oauth" then
        let runtime ← resolveGitlabOauthRuntimeAuth now credential.apiKey refreshToken expiresAtMs
          ((value "gitlab.instance_url").getD credential.baseUrl) (value "gitlab.oauth_client_id")
          (value "gitlab.oauth_client_secret") (value "gitlab.oauth_token_url")
        pure runtime.accessToken
      else pure apiKey
  | .minimaxPortal => do
      let runtime ← resolveMinimaxOauthRuntimeAuth env now credential.apiKey refreshToken
        expiresAtMs ((value "minimax.region").getD "global") (value "minimax.resource_url")
      pure runtime.accessToken

end Resolve

end Liz
