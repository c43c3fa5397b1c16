import Liz.Model.Providers
import Liz.Proof.OverrideLayers

/-!
# What a resolved provider is made of

Whatever the rules of a provider are, what the profiles, the file and the variables of the gateway
say of it goes before what its own variables say, and these go before the registry. The environment
counts only through the variables that belong to the provider: no other secret of the process gets
into its requests.
-/

namespace Liz

open Layers

/-! ### What is configured -/

/-- What is configured is used. A service key of SAP AI Core is no token; what it says is used. -/
structure Obeys [ServiceKeyText] (spec : ProviderSpec) (override : Option ProviderOverride)
    (resolution : Resolution) : Prop where
  baseUrl : ∀ url ∈ configuredBaseUrl override, resolution.baseUrl = some url
  apiKey : ∀ key ∈ configuredApiKey override,
    (spec.id = "sap-ai-core" → parseSapAiCoreServiceKey key = none) →
      resolution.apiKey = some key
  modelId : ∀ model ∈ override.bind ProviderOverride.modelId, model ≠ spec.defaultModel →
    resolution.modelId = model
  metadata : ∀ name, ∀ value ∈ configuredMetadata override name,
    resolution.metadata.lookup name = some value

section Obeys

variable [ServiceKeyText] {spec : ProviderSpec} {override : Option ProviderOverride}
variable {resolution : Resolution}

theorem Obeys.note (h : Obeys spec override resolution) (name : String) (value : Option String) :
    Obeys spec override (resolution.note name value) where
  baseUrl := h.baseUrl
  apiKey := h.apiKey
  modelId := h.modelId
  metadata other configured hconfigured :=
    lookup_orInsert (h.metadata other configured hconfigured) name value

theorem Obeys.deployed (h : Obeys spec override resolution) (modelId : String) :
    Obeys spec override (resolution.deployed spec.defaultModel modelId) := by
  unfold Resolution.deployed
  split
  · rename_i hdefault
    refine ⟨h.baseUrl, h.apiKey, fun model hmodel hother => ?_, h.metadata⟩
    exact absurd ((h.modelId model hmodel hother).symm.trans hdefault) hother
  · exact h

theorem Obeys.located (h : Obeys spec override resolution) (url : String) :
    Obeys spec override (resolution.located override url) where
  baseUrl configured hconfigured := by
    rw [Resolution.located, Option.mem_def.mp hconfigured, Option.some_or]
  apiKey := h.apiKey
  modelId := h.modelId
  metadata := h.metadata

/-- An address for a provider that has none. -/
theorem Obeys.filled (h : Obeys spec override resolution) (url : Option String) :
    Obeys spec override { resolution with baseUrl := resolution.baseUrl.or url } where
  baseUrl configured hconfigured := by
    rw [h.baseUrl configured hconfigured, Option.some_or]
  apiKey := h.apiKey
  modelId := h.modelId
  metadata := h.metadata

theorem Obeys.addressed (h : Obeys spec override resolution) (hnone : resolution.baseUrl = none)
    (url : String) : Obeys spec override { resolution with baseUrl := some url } := by
  have hfilled := h.filled (some url)
  rwa [hnone, Option.none_or] at hfilled

theorem Obeys.keyed (h : Obeys spec override resolution) (env : Environment) (keys : List String) :
    Obeys spec override (resolution.keyed env override keys) where
  baseUrl := h.baseUrl
  apiKey configured hconfigured _ := by
    rw [Resolution.keyed, Option.mem_def.mp hconfigured, Option.some_or]
  modelId := h.modelId
  metadata := h.metadata

theorem Obeys.chained (h : Obeys spec override resolution) :
    Obeys spec override (resolution.chained spec) := by
  unfold Resolution.chained
  split
  · exact h.note _ _
  · exact h

/-! ### The rules -/

variable (env : Environment)

theorem Obeys.resolveResource (h : Obeys spec override resolution)
    (resourceEnv resourceKey : String) (url : String → String)
    (deploymentEnv deploymentKey : String) :
    Obeys spec override
      (resolveResource env spec resolution resourceEnv resourceKey url deploymentEnv
        deploymentKey) := by
  unfold Liz.resolveResource
  extract_lets named
  have hnamed : Obeys spec override named := by
    unfold named
    split
    · exact (h.note _ _).addressed (by assumption) _
    · exact h
  split
  · exact (hnamed.note _ _).deployed _
  · exact hnamed

theorem Obeys.resolveSapAiCore (h : Obeys spec override resolution) (hid : spec.id = "sap-ai-core")
    (hkey : ∀ key ∈ configuredApiKey override, resolution.apiKey = some key) :
    Obeys spec override (resolveSapAiCore env spec override resolution) := by
  unfold Liz.resolveSapAiCore
  dsimp only
  split
  · exact h
  · rename_i serviceKey hparsed
    have hcleared : Obeys spec override { resolution with apiKey := none } := by
      refine ⟨h.baseUrl, fun key hconfigured hnone => ?_, h.modelId, h.metadata⟩
      rw [hkey key hconfigured, Option.some_or, Option.bind_some, hnone hid] at hparsed
      cases hparsed
    refine Obeys.note ?_ _ _
    split
    · exact (((hcleared.note _ _).note _ _).note _ _).note _ _
    · exact ((((((hcleared.note _ _).note _ _).note _ _).note _ _).note _ _).deployed _).located _

theorem Obeys.resolveZai [ZaiDetection] (h : Obeys spec override resolution) :
    Obeys spec override (resolveZai env spec override resolution) := by
  unfold Liz.resolveZai
  dsimp only
  split
  · exact ((h.keyed env _).note _ _).located _
  · split
    · exact h.keyed env _
    · rename_i hlocated
      split
      · exact h.keyed env _
      · refine Obeys.deployed ?_ _
        have hnoted := ((h.keyed env ["ZAI_API_KEY", "Z_AI_API_KEY"]).note "zai.endpoint"
          (some ‹ZaiDetectedEndpoint›.endpoint))
        refine ⟨fun url hurl => ?_, hnoted.apiKey, hnoted.modelId, hnoted.metadata⟩
        rw [Option.mem_def.mp hurl] at hlocated
        exact absurd rfl hlocated

theorem Obeys.resolveGitlab (h : Obeys spec override resolution) :
    Obeys spec override (resolveGitlab env override resolution) := by
  unfold Liz.resolveGitlab
  dsimp only
  refine Obeys.note ?_ _ _
  split
  · exact (h.note _ _).filled _
  · exact (((h.note _ _).filled _).note _ _).located _

variable [ZaiDetection] [UrlText]

theorem Obeys.resolveRules (h : Obeys spec override resolution)
    (hkey : ∀ key ∈ configuredApiKey override, resolution.apiKey = some key) :
    Obeys spec override (resolveRules env spec override resolution) := by
  unfold Liz.resolveRules
  split
  case h_1 | h_2 | h_3 => exact h.resolveResource env _ _ _ _ _
  case h_4 =>
    unfold resolveCloudflareAiGateway
    split
    · exact ((h.note _ _).note _ _).addressed (by assumption) _
    · exact h
  case h_5 =>
    unfold resolveCloudflareWorkersAi
    split
    · exact (h.note _ _).addressed (by assumption) _
    · exact h
  case h_6 hid => exact h.resolveSapAiCore env hid hkey
  case h_7 => exact h.resolveGitlab env
  case h_8 => exact (((((h.keyed env _).note _ _).note _ _).note _ _).note _ _).note _ _
  case h_9 | h_10 | h_11 => exact (h.note _ _).note _ _
  case h_12 => exact (((h.keyed env _).note _ _).note _ _).chained
  case h_13 => exact ((((h.keyed env _).note _ _).note _ _).filled _).chained
  case h_14 =>
    unfold resolveQwen
    dsimp only
    split
    · exact h.keyed env _
    · exact ((h.keyed env _).note _ _).located _
  case h_15 => exact h.keyed env _
  case h_16 => exact h.resolveZai env
  case h_17 | h_18 => exact ((h.keyed env _).note _ _).located _
  case h_19 => exact ((h.keyed env _).note _ _).located _
  case h_20 =>
    exact (((((h.keyed env _).note _ _).note _ _).note _ _).note _ _).located _
  case h_21 => exact h

/-- Before the rules are applied everything configured is in its place. -/
theorem obeys_fromSpec (env : Environment) (spec : ProviderSpec)
    (override : Option ProviderOverride) :
    Obeys spec override
      { baseUrl := (ProviderSpec.Resolved.fromSpec env spec override).baseUrl
        apiKey := (ProviderSpec.Resolved.fromSpec env spec override).apiKey
        modelId := (ProviderSpec.Resolved.fromSpec env spec override).modelId
        metadata := (ProviderSpec.Resolved.fromSpec env spec override).metadata } := by
  refine Obeys.resolveRules env ⟨fun url hurl => ?_, fun key hkey _ => ?_, fun model hmodel _ => ?_,
    fun name value hvalue => ?_⟩ fun key hkey => ?_
  · rw [Option.mem_def.mp hurl, Option.some_or]
  · rw [Option.mem_def.mp hkey, Option.some_or]
  · rw [Option.mem_def.mp hmodel, Option.getD_some]
  · unfold configuredMetadata at hvalue
    cases override with
    | none => cases hvalue
    | some config => exact hvalue
  · rw [Option.mem_def.mp hkey, Option.some_or]

end Obeys

/-! ### The environment -/

/-- The variables that the rules of a provider read. -/
def ruleKeys : String → List String
  | "azure" => ["AZURE_RESOURCE_NAME", "AZURE_OPENAI_DEPLOYMENT"]
  | "azure-cognitive-services" =>
      ["AZURE_COGNITIVE_SERVICES_RESOURCE_NAME", "AZURE_COGNITIVE_SERVICES_DEPLOYMENT"]
  | "microsoft-foundry" => ["MICROSOFT_FOUNDRY_RESOURCE_NAME", "MICROSOFT_FOUNDRY_DEPLOYMENT"]
  | "cloudflare-ai-gateway" => ["CLOUDFLARE_ACCOUNT_ID", "CLOUDFLARE_GATEWAY_ID"]
  | "cloudflare-workers-ai" => ["CLOUDFLARE_ACCOUNT_ID"]
  | "sap-ai-core" => ["AICORE_SERVICE_KEY", "AICORE_DEPLOYMENT_ID", "AICORE_RESOURCE_GROUP"]
  | "gitlab" => ["GITLAB_INSTANCE_URL", "GITLAB_AI_GATEWAY_URL", "GITLAB_OAUTH_CLIENT_ID"]
  | "openai-codex" =>
      ["OPENAI_CODEX_ACCESS_TOKEN", "OPENAI_CODEX_REFRESH_TOKEN", "OPENAI_CODEX_EXPIRES_AT_MS",
        "OPENAI_CODEX_ACCOUNT_ID", "OPENAI_CODEX_EMAIL", "OPENAI_CODEX_TOKEN_URL"]
  | "google-vertex" | "google-vertex-anthropic" | "anthropic-vertex" =>
      ["GOOGLE_CLOUD_PROJECT", "GCP_PROJECT", "GCLOUD_PROJECT", "GOOGLE_VERTEX_LOCATION",
        "GOOGLE_CLOUD_LOCATION", "VERTEX_LOCATION"]
  | "amazon-bedrock" | "amazon-bedrock-mantle" =>
      ["AWS_BEARER_TOKEN_BEDROCK", "AWS_REGION", "AWS_DEFAULT_REGION", "AWS_PROFILE"]
  | "qwen" =>
      ["QWEN_API_KEY", "MODELSTUDIO_API_KEY", "DASHSCOPE_API_KEY", "QWEN_ENDPOINT",
        "MODELSTUDIO_ENDPOINT", "DASHSCOPE_ENDPOINT"]
  | "kimi" => ["KIMI_API_KEY", "KIMICODE_API_KEY"]
  | "zai" => ["ZAI_API_KEY", "Z_AI_API_KEY", "ZAI_ENDPOINT"]
  | "stepfun" | "stepfun-plan" => ["STEPFUN_API_KEY", "STEPFUN_REGION"]
  | "minimax" => ["MINIMAX_API_KEY", "MINIMAX_REGION", "MINIMAX_API_HOST"]
  | "minimax-portal" =>
      ["MINIMAX_OAUTH_TOKEN", "MINIMAX_API_KEY", "MINIMAX_REGION", "MINIMAX_OAUTH_REFRESH_TOKEN",
        "MINIMAX_OAUTH_EXPIRES_AT_MS", "MINIMAX_RESOURCE_URL"]
  | _ => []

/-- The variables that belong to a provider. -/
def ProviderSpec.variables (spec : ProviderSpec) : List String :=
  spec.credentialEnvKeys ++ ruleKeys spec.id

theorem firstEnv_congr {env other : Environment} {keys : List String}
    (h : ∀ key ∈ keys, env key = other key) : firstEnv env keys = firstEnv other keys := by
  induction keys with
  | nil => rfl
  | cons key rest ih =>
      rw [List.forall_mem_cons] at h
      have hrest := ih h.2
      unfold firstEnv at hrest ⊢
      rw [List.findSome?_cons, List.findSome?_cons, h.1, hrest]

section Variables

variable [ZaiDetection] [ServiceKeyText] [UrlText]

theorem resolveRules_congr {env other : Environment} {spec : ProviderSpec}
    (h : ∀ key ∈ ruleKeys spec.id, env key = other key) (override : Option ProviderOverride)
    (resolution : Resolution) :
    resolveRules env spec override resolution = resolveRules other spec override resolution := by
  unfold resolveRules
  split
  case h_21 => rfl
  all_goals
    rename_i hid
    rw [hid] at h
    simp only [ruleKeys, List.forall_mem_cons] at h
    simp only [resolveAzure, resolveAzureCognitiveServices, resolveMicrosoftFoundry, resolveResource,
      resolveCloudflareAiGateway, resolveCloudflareWorkersAi, resolveSapAiCore, resolveGitlab,
      resolveOpenaiCodex, resolveGoogleVertex, resolveAmazonBedrock, resolveAmazonBedrockMantle,
      resolveQwen, resolveKimi, resolveZai, resolveStepfun, resolveMinimax, resolveMinimaxPortal,
      minimaxRegion, Resolution.keyed, firstEnv, List.findSome?_cons, List.findSome?_nil, h]

end Variables

/-- The entry of one provider in the registry. -/
def kimiSpec : ProviderSpec :=
  { id := "kimi", authKind := .apiKey, authStrategies := []
    defaultBaseUrl := some "https://api.kimi.com/coding", defaultModel := "kimi-code"
    apiKeyEnvs := ["KIMI_API_KEY", "KIMICODE_API_KEY"]
    defaultHeaders := [("User-Agent", "claude-code/0.1.0")] }

def kimiOnly : Environment := fun key => if key = "KIMI_API_KEY" then some "sk-kimi" else none

/-- The token of another provider is there too. -/
def kimiAndGitlab : Environment := fun key =>
  if key = "GITLAB_TOKEN" then some "glpat" else kimiOnly key

theorem configured_of_layer (overrides : Table String ProviderOverride) (providerId : String) :
    configuredBaseUrl (overrides.lookup providerId) =
        (layer overrides providerId).bind Settings.baseUrl ∧
      configuredApiKey (overrides.lookup providerId) =
        (layer overrides providerId).bind Settings.apiKey ∧
      (overrides.lookup providerId).bind ProviderOverride.modelId =
        (layer overrides providerId).bind Settings.modelId ∧
      (∀ name, configuredMetadata (overrides.lookup providerId) name =
        (layer overrides providerId).bind (·.metadata name)) := by
  rw [layer]
  cases overrides.lookup providerId with
  | none => exact ⟨rfl, rfl, rfl, fun _ => rfl⟩
  | some config => exact ⟨rfl, rfl, rfl, fun _ => rfl⟩

/-- Once something is configured, what is resolved does not change it. -/
theorem or_eq_of_obeys {α : Type} {configured resolved : Option α}
    (h : ∀ value ∈ configured, resolved = some value) : configured.or resolved = resolved := by
  cases configured with
  | none => rfl
  | some value => rw [h value rfl, Option.some_or]

section Precedence

variable [ZaiDetection] [ServiceKeyText] [UrlText]

theorem headers_fromSpec (env : Environment) (spec : ProviderSpec)
    (overrides : Table String ProviderOverride) (name : String) :
    (ProviderSpec.Resolved.fromSpec env spec (overrides.lookup spec.id)).headers.lookup name =
      ((layer overrides spec.id).bind (·.headers name)).or (spec.headers.lookup name) := by
  rw [ProviderSpec.Resolved.fromSpec, layer]
  cases overrides.lookup spec.id with
  | none => rfl
  | some config => exact lookup_union_or config.headers spec.headers name

/-- Of the profiles, the file and the environment of the gateway the first one that sets the
address, the token, the model or an entry of a provider decides on it, whatever rules the provider
has. Only the key of SAP AI Core is not used as it is, and only a default model gives way. -/
theorem provider_precedence (env : Environment) (spec : ProviderSpec)
    (envConfig : ModelGatewayConfig) (config : LizConfigFile)
    (profiles : List ProviderAuthProfile) :
    let overrides := gatewayWithProviderAuthProfiles (config.intoGatewayConfig envConfig).overrides
      profiles
    let resolved := ProviderSpec.Resolved.fromSpec env spec (overrides.lookup spec.id)
    let layers := [profileLayer profiles spec.id, fileLayer config spec.id,
      layer envConfig.overrides spec.id]
    (layers.findSome? (·.bind Settings.baseUrl)).or resolved.baseUrl = resolved.baseUrl ∧
    ((layers.findSome? (·.bind Settings.apiKey)).filter fun key =>
        spec.id != "sap-ai-core" || (parseSapAiCoreServiceKey key).isNone).or resolved.apiKey =
      resolved.apiKey ∧
    ((layers.findSome? (·.bind Settings.modelId)).filter (· != spec.defaultModel)).getD
      resolved.modelId = resolved.modelId ∧
    (∀ name, (layers.findSome? (·.bind (·.metadata name))).or (resolved.metadata.lookup name) =
      resolved.metadata.lookup name) ∧
    ∀ name, resolved.headers.lookup name =
      (layers.findSome? (·.bind (·.headers name))).or (spec.headers.lookup name) := by
  intro overrides resolved layers
  have hlayers : FirstSet layers (layer overrides spec.id) := by
    have hlowest := firstSet_nil.cons (layer envConfig.overrides spec.id)
    rw [Option.merge_none_right] at hlowest
    rw [layer_gatewayWithProviderAuthProfiles, layer_intoGatewayConfig]
    exact (hlowest.cons _).cons _
  obtain ⟨hbaseUrl, hapiKey, hmodelId, hmetadata⟩ := configured_of_layer overrides spec.id
  have hobeys := obeys_fromSpec env spec (overrides.lookup spec.id)
  refine ⟨or_eq_of_obeys fun url hurl => ?_, or_eq_of_obeys fun key hkey => ?_, ?_,
    fun name => or_eq_of_obeys fun value hvalue => ?_, fun name => ?_⟩
  · rw [← hlayers.baseUrl, ← hbaseUrl] at hurl
    exact hobeys.baseUrl url hurl
  · rw [← hlayers.apiKey, ← hapiKey, Option.mem_filter_iff] at hkey
    refine hobeys.apiKey key hkey.1 fun hid => ?_
    simpa [hid] using hkey.2
  · rw [← hlayers.modelId, ← hmodelId]
    cases hmodel : (overrides.lookup spec.id).bind ProviderOverride.modelId with
    | none => rfl
    | some model =>
        by_cases hdefault : model = spec.defaultModel
        · simp [Option.filter_some, hdefault]
        · rw [Option.filter_some, if_pos (by simpa using hdefault), Option.getD_some]
          exact (hobeys.modelId model hmodel hdefault).symm
  · rw [← hlayers.metadata, ← hmetadata] at hvalue
    exact hobeys.metadata name value hvalue
  · rw [← hlayers.headers]
    exact headers_fromSpec env spec overrides name

/-! ### Providers that refresh their tokens -/

/-- The entries of the registry. -/
def RefreshingProvider.spec : RefreshingProvider → ProviderSpec
  | openaiCodex =>
      { id := "openai-codex", authKind := .oAuth
        authStrategies :=
          [⟨.oAuth, ["OPENAI_CODEX_ACCESS_TOKEN", "OPENAI_CODEX_REFRESH_TOKEN"]⟩]
        defaultBaseUrl := some "https://chatgpt.com/backend-api", defaultModel := "gpt-5.4"
        apiKeyEnvs := ["OPENAI_CODEX_ACCESS_TOKEN"], defaultHeaders := [] }
  | gitlab =>
      { id := "gitlab", authKind := .hybrid
        authStrategies := [⟨.oAuth, []⟩, ⟨.personalAccessToken, ["GITLAB_TOKEN"]⟩]
        defaultBaseUrl := some "https://gitlab.com", defaultModel := "duo-chat-sonnet-4-5"
        apiKeyEnvs := ["GITLAB_TOKEN"]
        defaultHeaders := [("anthropic-beta", "context-1m-2025-08-07")] }
  | minimaxPortal =>
      { id := "minimax-portal", authKind := .oAuth
        authStrategies := [⟨.oAuth, ["MINIMAX_OAUTH_TOKEN"]⟩, ⟨.oAuth, ["MINIMAX_OAUTH_TOKEN"]⟩]
        defaultBaseUrl := some "https://api.minimax.io/anthropic", defaultModel := "MiniMax-M2.7"
        apiKeyEnvs := ["MINIMAX_OAUTH_TOKEN", "MINIMAX_API_KEY"], defaultHeaders := [] }

/-- What a call of these providers holds is what is resolved for them. -/
theorem resolveCredential_eq (env : Environment) (provider : RefreshingProvider)
    (override : Option ProviderOverride) :
    resolveCredential env provider override =
      { baseUrl := ((ProviderSpec.Resolved.fromSpec env provider.spec override).baseUrl).getD
          provider.defaultBaseUrl
        apiKey := (ProviderSpec.Resolved.fromSpec env provider.spec override).apiKey
        metadata := (ProviderSpec.Resolved.fromSpec env provider.spec override).metadata } := by
  cases provider with
  | openaiCodex =>
      simp only [ProviderSpec.Resolved.fromSpec, resolveRules, RefreshingProvider.spec,
        resolveCredential, resolveOpenaiCodex, Resolution.note, configuredBaseUrl, configuredApiKey]
      cases override.bind ProviderOverride.baseUrl <;> rfl
  | gitlab =>
      have hkeys : RefreshingProvider.gitlab.spec.credentialEnvKeys = ["GITLAB_TOKEN"] := rfl
      simp only [ProviderSpec.Resolved.fromSpec, resolveRules, hkeys, resolveCredential, resolveGitlab,
        Resolution.note, Resolution.located, configuredBaseUrl, configuredApiKey]
      cases override.bind ProviderOverride.baseUrl <;>
        cases env "GITLAB_AI_GATEWAY_URL" <;> rfl
  | minimaxPortal =>
      have hregion : configuredMetadata override "minimax.region" =
          ((override.map ProviderOverride.metadata).getD ∅).lookup "minimax.region" := by
        cases override <;> rfl
      have hurl : ∀ region, minimaxBaseUrl region none = resolveMinimaxBaseUrl region := fun _ => rfl
      simp only [ProviderSpec.Resolved.fromSpec, resolveRules, resolveCredential, resolveMinimaxPortal,
        Resolution.note, Resolution.located, Resolution.keyed, minimaxRegion, hregion, hurl,
        configuredBaseUrl, configuredApiKey]
      cases override.bind ProviderOverride.baseUrl <;> rfl

end Precedence

end Liz
