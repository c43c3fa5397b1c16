import Liz.Server.Gateway

/-!
# Providers and the tools they are offered

A provider belongs to a family, which decides the adapter that talks to it. The tools a request
offers are known to the provider under aliases, and a surface without tools knows no alias either.
-/

namespace Liz

inductive ModelProviderFamily
  | openAiResponses | openAiCompatible | anthropicMessages | googleGenerativeAi | googleVertex
  | googleVertexAnthropic | awsBedrockConverse | gitHubCopilot | gitLabDuo
  deriving DecidableEq, Repr

def ModelProviderFamily.transportLabel : ModelProviderFamily → String
  | openAiResponses => "openai-responses"
  | openAiCompatible => "openai-compatible"
  | anthropicMessages => "anthropic-messages"
  | googleGenerativeAi => "google-generative-ai"
  | googleVertex => "google-vertex"
  | googleVertexAnthropic => "google-vertex-anthropic"
  | awsBedrockConverse => "aws-bedrock-converse"
  | gitHubCopilot => "github-copilot"
  | gitLabDuo => "gitlab-duo"

/-- Tool-call protocol strategy used for one provider request. -/
inductive ProviderToolProtocol
  | native | structuredFallback
  deriving DecidableEq, Repr

/-- A provider as it is configured. -/
structure ResolvedProvider where
  id : String
  displayName : String
  family : ModelProviderFamily
  modelId : String
  nativeToolCalls : Bool
  structuredToolProtocol : Bool
  /-- The region or the location that requests go to. -/
  location : String
  /-- The path or the operation of the transport. -/
  transport : String
  /-- What it shows of a request, from the instructions, the input and the transcript. -/
  payloadPreview : String → String → String → String

def providerToolProtocol (provider : ResolvedProvider) : ProviderToolProtocol :=
  if provider.family = .gitLabDuo ∧ provider.structuredToolProtocol then .structuredFallback
  else if provider.nativeToolCalls then .native
  else .structuredFallback

/-! ### Tool surfaces -/

/-- Tools under their canonical names and their aliases. -/
structure ProviderToolNameMap where
  pairs : List (String × String)
  deriving DecidableEq, Repr

namespace ProviderToolNameMap

/-- Resolves a provider alias to the canonical runtime name. -/
def canonicalName (nameMap : ProviderToolNameMap) (providerName : String) : Option String :=
  (nameMap.pairs.find? (·.2 == providerName)).map Prod.fst

/-- Resolves a canonical runtime name to the provider alias. -/
def providerName (nameMap : ProviderToolNameMap) (canonicalName : String) : Option String :=
  (nameMap.pairs.find? (·.1 == canonicalName)).map Prod.snd

end ProviderToolNameMap

structure ProviderToolSchema where
  canonicalName : String
  providerName : String
  deriving DecidableEq, Repr

structure ToolSurfaceSpec where
  protocol : ProviderToolProtocol
  tools : List ProviderToolSchema
  nameMap : ProviderToolNameMap

def toolNamePairs : List (String × String) :=
  [("workspace.list", "workspace_list"),
   ("workspace.search", "workspace_search"),
   ("workspace.read", "workspace_read"),
   ("workspace.write_text", "workspace_write_text"),
   ("workspace.apply_patch", "workspace_apply_patch"),
   ("shell.exec", "shell_exec"),
   ("shell.spawn", "shell_spawn"),
   ("shell.wait", "shell_wait"),
   ("shell.read_output", "shell_read_output"),
   ("shell.terminate", "shell_terminate")]

namespace ToolSurfaceSpec

/-- The standard tool surface. -/
def standard (protocol : ProviderToolProtocol) : ToolSurfaceSpec :=
  { protocol := protocol
    tools := toolNamePairs.map fun (canonicalName, providerName) => ⟨canonicalName, providerName⟩
    nameMap := ⟨toolNamePairs⟩ }

/-- A surface with no tools. -/
def conversationOnly (protocol : ProviderToolProtocol) : ToolSurfaceSpec :=
  { protocol := protocol, tools := [], nameMap := ⟨[]⟩ }

def forMode (protocol : ProviderToolProtocol) : ToolSurfaceMode → ToolSurfaceSpec
  | .standard => .standard protocol
  | .conversationOnly => .conversationOnly protocol

end ToolSurfaceSpec

/-- An alias or a canonical name stands for the tool. -/
def normalizeToolName (surface : ToolSurfaceSpec) (providerToolName : String) : Option String :=
  (surface.nameMap.canonicalName providerToolName).orElse fun _ =>
    (surface.nameMap.providerName providerToolName).map fun _ => providerToolName

end Liz
