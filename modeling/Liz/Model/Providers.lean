import Liz.Model.Credentials

/-!
# Resolved providers

What a request needs of its provider is put together from the entry of the registry, the override of
the gateway and the environment: the address, the credential, the model, and what else the adapter
of the provider wants to know. Most providers have rules of their own. Of an entry of the registry
only what these rules read is kept.
-/

namespace Liz

inductive ProviderAuthKind
  | apiKey | oAuth | deviceCode | awsCredentialChain | googleApplicationDefault | serviceKey
  | setupToken | cliSession | personalAccessToken | entraId | localRuntime | hybrid
  deriving DecidableEq, Repr

/-- One way to authenticate, and the variables that may serve it. -/
structure ProviderAuthStrategy where
  kind : ProviderAuthKind
  envKeys : List String
  deriving DecidableEq, Repr

structure ProviderSpec where
  id : String
  authKind : ProviderAuthKind
  authStrategies : List ProviderAuthStrategy
  defaultBaseUrl : Option String
  defaultModel : String
  apiKeyEnvs : List String
  defaultHeaders : List (String × String)
  deriving DecidableEq, Repr

namespace ProviderSpec

/-- The last header of a name counts. -/
def headers (spec : ProviderSpec) : Table String String :=
  spec.defaultHeaders.foldl (fun headers header => headers.insert header.1 header.2) ∅

def credentialEnvKeys (spec : ProviderSpec) : List String :=
  (spec.authStrategies.flatMap ProviderAuthStrategy.envKeys).foldl
    (fun keys key => if key ∈ keys then keys else keys ++ [key]) spec.apiKeyEnvs

end ProviderSpec

/-! ### What other services tell -/

structure ZaiDetectedEndpoint where
  endpoint : String
  modelId : String
  deriving DecidableEq, Repr

/-- The first endpoint of Z.AI that takes the key, if one answers. -/
class ZaiDetection where
  detect : String → Option ZaiDetectedEndpoint

/-- A service key as it stands in its JSON text. -/
structure SapAiCoreServiceKeyPayload where
  clientId : String
  clientSecret : String
  url : String
  aiApiUrl : String
  deriving DecidableEq, Repr

class ServiceKeyText where
  payload : String → Option SapAiCoreServiceKeyPayload

structure SapAiCoreServiceKey where
  clientId : String
  clientSecret : String
  oauthBaseUrl : String
  aiApiUrl : String
  deriving DecidableEq, Repr

def parseSapAiCoreServiceKey [ServiceKeyText] (raw : String) : Option SapAiCoreServiceKey :=
  (ServiceKeyText.payload raw).bind fun payload =>
    let clientId := Text.trim payload.clientId
    let clientSecret := Text.trim payload.clientSecret
    let oauthBaseUrl := Text.trim payload.url
    let aiApiUrl := Text.trim payload.aiApiUrl
    if clientId.isEmpty || clientSecret.isEmpty || oauthBaseUrl.isEmpty || aiApiUrl.isEmpty then none
    else
      some
        { clientId := clientId
          clientSecret := clientSecret
          oauthBaseUrl := withoutFinal '/' oauthBaseUrl
          aiApiUrl := withoutFinal '/' aiApiUrl }

/-- The origin and the path of an address. -/
structure ParsedUrl where
  origin : String
  path : String
  deriving DecidableEq, Repr

class UrlText where
  parse : String → Option ParsedUrl

/-! ### Addresses -/

def resolveQwenBaseUrl (endpoint : String) : String :=
  match Text.toAsciiLowercase (Text.trim endpoint) with
  | "coding-cn" | "cn-coding" => "https://coding.dashscope.aliyuncs.com/v1"
  | "standard-cn" | "cn-standard" | "cn" => "https://dashscope.aliyuncs.com/compatible-mode/v1"
  | "standard-global" | "global-standard" | "standard" =>
      "https://dashscope-intl.aliyuncs.com/compatible-mode/v1"
  | _ => "https://coding-intl.dashscope.aliyuncs.com/v1"

def resolveZaiBaseUrl (endpoint : String) : String :=
  match Text.toAsciiLowercase (Text.trim endpoint) with
  | "coding-cn" => "https://open.bigmodel.cn/api/coding/paas/v4"
  | "cn" => "https://open.bigmodel.cn/api/paas/v4"
  | "coding-global" => "https://api.z.ai/api/coding/paas/v4"
  | _ => "https://api.z.ai/api/paas/v4"

/-- A host that is given goes before the region, when it is an address. -/
def minimaxBaseUrl [UrlText] (region : String) (hostOverride : Option String) : String :=
  match (present hostOverride).bind UrlText.parse with
  | some url =>
      let path := withoutFinal '/' url.path
      if "/anthropic".toList.isSuffixOf path.toList then url.origin ++ path
      else withoutFinal '/' url.origin ++ "/anthropic"
  | none => resolveMinimaxBaseUrl region

def resolveStepfunBaseUrl (providerId region : String) : String :=
  match providerId, Text.toAsciiLowercase region with
  | "stepfun-plan", "cn" => "https://api.stepfun.com/step_plan/v1"
  | "stepfun-plan", _ => "https://api.stepfun.ai/step_plan/v1"
  | "stepfun", "cn" => "https://api.stepfun.com/v1"
  | _, _ => "https://api.stepfun.ai/v1"

/-! ### Resolution -/

/-- What the rules of a provider work on. -/
structure Resolution where
  baseUrl : Option String
  apiKey : Option String
  modelId : String
  metadata : Table String String

namespace Resolution

/-- An entry that is there already stays. -/
def note (resolution : Resolution) (key : String) (value : Option String) : Resolution :=
  { resolution with metadata := orInsert resolution.metadata key value }

/-- A model that is not the default one stays. -/
def deployed (resolution : Resolution) (defaultModel modelId : String) : Resolution :=
  if resolution.modelId = defaultModel then { resolution with modelId := modelId } else resolution

end Resolution

section Rules

variable (env : Environment) (spec : ProviderSpec) (override : Option ProviderOverride)
variable (resolution : Resolution)

def configuredBaseUrl : Option String := override.bind ProviderOverride.baseUrl

def configuredApiKey : Option String := override.bind ProviderOverride.apiKey

def configuredMetadata (key : String) : Option String :=
  override.bind fun config => config.metadata.lookup key

/-- An address that is not overridden. -/
def Resolution.located (url : String) : Resolution :=
  { resolution with baseUrl := (configuredBaseUrl override).or (some url) }

/-- The three services of one vendor name a resource and a deployment alike. -/
def resolveResource (resourceEnv resourceKey : String) (url : String → String)
    (deploymentEnv deploymentKey : String) : Resolution :=
  let named := match resolution.baseUrl, env resourceEnv with
    | none, some resourceName =>
        { resolution.note resourceKey (some resourceName) with baseUrl := some (url resourceName) }
    | _, _ => resolution
  match firstEnv env [deploymentEnv] with
  | some deployment =>
      (named.note deploymentKey (some deployment)).deployed spec.defaultModel deployment
  | none => named

def resolveAzure : Resolution :=
  resolveResource env spec resolution "AZURE_RESOURCE_NAME" "azure.resource_name"
    (fun resourceName => "https://" ++ resourceName ++ ".openai.azure.com/openai/v1")
    "AZURE_OPENAI_DEPLOYMENT" "azure.deployment"

def resolveAzureCognitiveServices : Resolution :=
  resolveResource env spec resolution "AZURE_COGNITIVE_SERVICES_RESOURCE_NAME"
    "azure.cognitive.resource_name"
    (fun resourceName =>
      "https://" ++ resourceName ++ ".cognitiveservices.azure.com/openai/v1")
    "AZURE_COGNITIVE_SERVICES_DEPLOYMENT" "azure.cognitive.deployment"

def resolveMicrosoftFoundry : Resolution :=
  resolveResource env spec resolution "MICROSOFT_FOUNDRY_RESOURCE_NAME"
    "microsoft_foundry.resource_name"
    (fun resourceName => "https://" ++ resourceName ++ ".services.ai.azure.com/openai/v1")
    "MICROSOFT_FOUNDRY_DEPLOYMENT" "microsoft_foundry.deployment"

def resolveCloudflareAiGateway : Resolution :=
  match resolution.baseUrl, env "CLOUDFLARE_ACCOUNT_ID" with
  | none, some accountId =>
      let gatewayId := (env "CLOUDFLARE_GATEWAY_ID").getD "default"
      { (resolution.note "cloudflare.account_id" (some accountId)).note "cloudflare.gateway_id"
          (some gatewayId) with
        baseUrl := some ("https://gateway.ai.cloudflare.com/v1/" ++ accountId ++ "/" ++ gatewayId ++
          "/compat") }
  | _, _ => resolution

def resolveCloudflareWorkersAi : Resolution :=
  match resolution.baseUrl, env "CLOUDFLARE_ACCOUNT_ID" with
  | none, some accountId =>
      { resolution.note "cloudflare.account_id" (some accountId) with
        baseUrl := some ("https://api.cloudflare.com/client/v4/accounts/" ++ accountId ++
          "/ai/v1") }
  | _, _ => resolution

/-- A service key is no token: what it says takes its place. -/
def resolveSapAiCore [ServiceKeyText] : Resolution :=
  let raw := resolution.apiKey.or (firstEnv env ["AICORE_SERVICE_KEY"])
  match raw.bind parseSapAiCoreServiceKey with
  | none => resolution
  | some serviceKey =>
      let keyed := ((({ resolution with apiKey := none }.note
        "sap_ai_core.client_id" (some serviceKey.clientId)).note
        "sap_ai_core.client_secret" (some serviceKey.clientSecret)).note
        "sap_ai_core.oauth_base_url" (some serviceKey.oauthBaseUrl)).note
        "sap_ai_core.ai_api_url" (some serviceKey.aiApiUrl)
      let deployed :=
        match (configuredMetadata override "sap_ai_core.deployment_id").or
          (firstEnv env ["AICORE_DEPLOYMENT_ID"]) with
        | none => keyed
        | some deploymentId =>
            ((keyed.note "sap_ai_core.deployment_id" (some deploymentId)).deployed
              spec.defaultModel deploymentId).located override
                (withoutFinal '/' serviceKey.aiApiUrl ++ "/v2/inference/deployments/" ++ deploymentId)
      deployed.note "sap_ai_core.resource_group"
        (some (((configuredMetadata override "sap_ai_core.resource_group").or
          (firstEnv env ["AICORE_RESOURCE_GROUP"])).getD "default"))

def resolveGitlab : Resolution :=
  let named := resolution.note "gitlab.instance_url" (env "GITLAB_INSTANCE_URL")
  let named := { named with baseUrl := named.baseUrl.or (env "GITLAB_INSTANCE_URL") }
  let gateway := match env "GITLAB_AI_GATEWAY_URL" with
    | none => named
    | some aiGatewayUrl =>
        (named.note "gitlab.ai_gateway_url" (some aiGatewayUrl)).located override aiGatewayUrl
  gateway.note "gitlab.oauth_client_id" (env "GITLAB_OAUTH_CLIENT_ID")

def resolveOpenaiCodex : Resolution :=
  (((({ resolution with
    apiKey := (configuredApiKey override).or (firstEnv env ["OPENAI_CODEX_ACCESS_TOKEN"]) }.note
    "openai_codex.refresh_token" (firstEnv env ["OPENAI_CODEX_REFRESH_TOKEN"])).note
    "openai_codex.expires_at_ms" (firstEnv env ["OPENAI_CODEX_EXPIRES_AT_MS"])).note
    "openai_codex.account_id" (firstEnv env ["OPENAI_CODEX_ACCOUNT_ID"])).note
    "openai_codex.email" (firstEnv env ["OPENAI_CODEX_EMAIL"])).note
    "openai_codex.token_url" (firstEnv env ["OPENAI_CODEX_TOKEN_URL"])

def resolveGoogleVertex : Resolution :=
  (resolution.note "google.project"
    (firstEnv env ["GOOGLE_CLOUD_PROJECT", "GCP_PROJECT", "GCLOUD_PROJECT"])).note
    "google.location"
    (firstEnv env ["GOOGLE_VERTEX_LOCATION", "GOOGLE_CLOUD_LOCATION", "VERTEX_LOCATION"])

/-- Only the variables that are named here count for a key that is not overridden. -/
def Resolution.keyed (keys : List String) : Resolution :=
  { resolution with apiKey := (configuredApiKey override).or (firstEnv env keys) }

/-- Without a key the chain of credentials is used. -/
def Resolution.chained : Resolution :=
  if spec.authKind = .awsCredentialChain ∧ resolution.apiKey = none then
    resolution.note "aws.auth" (some "credential-chain-or-bearer-token")
  else resolution

def resolveAmazonBedrock : Resolution :=
  (((resolution.keyed env override ["AWS_BEARER_TOKEN_BEDROCK"]).note "aws.region"
    (firstEnv env ["AWS_REGION", "AWS_DEFAULT_REGION"])).note "aws.profile"
    (firstEnv env ["AWS_PROFILE"])).chained spec

def resolveAmazonBedrockMantle : Resolution :=
  let region := (firstEnv env ["AWS_REGION", "AWS_DEFAULT_REGION"]).getD "us-east-1"
  let noted := ((resolution.keyed env override ["AWS_BEARER_TOKEN_BEDROCK"]).note "aws.region"
    (some region)).note "aws.profile" (firstEnv env ["AWS_PROFILE"])
  Resolution.chained spec
    { noted with
      baseUrl := noted.baseUrl.or (some ("https://bedrock-mantle." ++ region ++ ".api.aws/v1")) }

def resolveQwen : Resolution :=
  let keyed := resolution.keyed env override
    ["QWEN_API_KEY", "MODELSTUDIO_API_KEY", "DASHSCOPE_API_KEY"]
  match (configuredMetadata override "qwen.endpoint").or
    (firstEnv env ["QWEN_ENDPOINT", "MODELSTUDIO_ENDPOINT", "DASHSCOPE_ENDPOINT"]) with
  | none => keyed
  | some endpoint =>
      (keyed.note "qwen.endpoint" (some endpoint)).located override (resolveQwenBaseUrl endpoint)

def resolveKimi : Resolution := resolution.keyed env override ["KIMI_API_KEY", "KIMICODE_API_KEY"]

/-- An endpoint that nobody names is looked for with the key. -/
def resolveZai [ZaiDetection] : Resolution :=
  let keyed := resolution.keyed env override ["ZAI_API_KEY", "Z_AI_API_KEY"]
  match (configuredMetadata override "zai.endpoint").or (firstEnv env ["ZAI_ENDPOINT"]) with
  | some endpoint =>
      (keyed.note "zai.endpoint" (some endpoint)).located override (resolveZaiBaseUrl endpoint)
  | none =>
      if (configuredBaseUrl override).isSome then keyed
      else
        match keyed.apiKey.bind ZaiDetection.detect with
        | none => keyed
        | some detected =>
            Resolution.deployed
              { keyed.note "zai.endpoint" (some detected.endpoint) with
                baseUrl := some (resolveZaiBaseUrl detected.endpoint) }
              spec.defaultModel detected.modelId

def resolveStepfun : Resolution :=
  let region := (firstEnv env ["STEPFUN_REGION"]).getD "intl"
  ((resolution.keyed env override ["STEPFUN_API_KEY"]).note "stepfun.region"
    (some region)).located override (resolveStepfunBaseUrl spec.id region)

def minimaxRegion : String :=
  ((configuredMetadata override "minimax.region").or (firstEnv env ["MINIMAX_REGION"])).getD "global"

def resolveMinimax [UrlText] : Resolution :=
  let region := minimaxRegion env override
  ((resolution.keyed env override ["MINIMAX_API_KEY"]).note "minimax.region"
    (some region)).located override (minimaxBaseUrl region (firstEnv env ["MINIMAX_API_HOST"]))

def resolveMinimaxPortal [UrlText] : Resolution :=
  let region := minimaxRegion env override
  let noted := ((((resolution.keyed env override ["MINIMAX_OAUTH_TOKEN", "MINIMAX_API_KEY"]).note
    "minimax.region" (some region)).note
    "minimax.oauth.refresh_token" (firstEnv env ["MINIMAX_OAUTH_REFRESH_TOKEN"])).note
    "minimax.oauth.expires_at_ms" (firstEnv env ["MINIMAX_OAUTH_EXPIRES_AT_MS"])).note
    "minimax.resource_url" (firstEnv env ["MINIMAX_RESOURCE_URL"])
  noted.located override
    ((noted.metadata.lookup "minimax.resource_url").getD (minimaxBaseUrl region none))

end Rules

/-- A provider with all that its rules put in. -/
structure ProviderSpec.Resolved where
  spec : ProviderSpec
  baseUrl : Option String
  apiKey : Option String
  modelId : String
  headers : Table String String
  metadata : Table String String

section Resolve

variable [ZaiDetection] [ServiceKeyText] [UrlText]

/-- The rules of the provider. -/
def resolveRules (env : Environment) (spec : ProviderSpec) (override : Option ProviderOverride)
    (resolution : Resolution) : Resolution :=
  match spec.id with
  | "azure" => resolveAzure env spec resolution
  | "azure-cognitive-services" => resolveAzureCognitiveServices env spec resolution
  | "microsoft-foundry" => resolveMicrosoftFoundry env spec resolution
  | "cloudflare-ai-gateway" => resolveCloudflareAiGateway env resolution
  | "cloudflare-workers-ai" => resolveCloudflareWorkersAi env resolution
  | "sap-ai-core" => resolveSapAiCore env spec override resolution
  | "gitlab" => resolveGitlab env override resolution
  | "openai-codex" => resolveOpenaiCodex env override resolution
  | "google-vertex" | "google-vertex-anthropic" | "anthropic-vertex" =>
      resolveGoogleVertex env resolution
  | "amazon-bedrock" => resolveAmazonBedrock env spec override resolution
  | "amazon-bedrock-mantle" => resolveAmazonBedrockMantle env spec override resolution
  | "qwen" => resolveQwen env override resolution
  | "kimi" => resolveKimi env override resolution
  | "zai" => resolveZai env spec override resolution
  | "stepfun" | "stepfun-plan" => resolveStepfun env spec override resolution
  | "minimax" => resolveMinimax env override resolution
  | "minimax-portal" => resolveMinimaxPortal env override resolution
  | _ => resolution

def ProviderSpec.Resolved.fromSpec (env : Environment) (spec : ProviderSpec)
    (override : Option ProviderOverride) : ProviderSpec.Resolved :=
  let resolution := resolveRules env spec override
    { baseUrl := (configuredBaseUrl override).or spec.defaultBaseUrl
      apiKey := (configuredApiKey override).or (firstEnv env spec.credentialEnvKeys)
      modelId := (override.bind ProviderOverride.modelId).getD spec.defaultModel
      metadata := (override.map ProviderOverride.metadata).getD ∅ }
  { spec := spec
    baseUrl := resolution.baseUrl
    apiKey := resolution.apiKey
    modelId := resolution.modelId
    headers := (override.map fun config => config.headers ∪ spec.headers).getD spec.headers
    metadata := resolution.metadata }

end Resolve

end Liz
