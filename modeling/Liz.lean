import Liz.Base.Text
import Liz.Base.Bytes
import Liz.Base.Paths
import Liz.Base.Program
import Liz.Base.Moments
import Liz.Base.Runs
import Liz.Base.Records
import Liz.Base.Files
import Liz.Base.FileTree
import Liz.Base.FileAccess
import Liz.Base.Tables
import Liz.Base.Numbering
import Liz.Base.Decoding
import Liz.Protocol.Resources
import Liz.Protocol.Memory
import Liz.Protocol.Json
import Liz.Protocol.Tools
import Liz.Protocol.ToolOutputs
import Liz.Protocol.Events
import Liz.Storage.Stores
import Liz.Storage.Files
import Liz.Runtime.Ids
import Liz.Runtime.Basic
import Liz.Runtime.ThreadManager
import Liz.Runtime.TurnManager
import Liz.Runtime.Prompts
import Liz.Runtime.ContextAssembler
import Liz.Runtime.PolicyEngine
import Liz.Runtime.Interactions
import Liz.Runtime.MemoryDelta
import Liz.Runtime.MemoryEngine
import Liz.Runtime.MemorySurfaces
import Liz.Runtime.NodeRegistry
import Liz.Runtime.Coordinator
import Liz.Executor.Workspace
import Liz.Executor.Shell
import Liz.Executor.LocalNode
import Liz.Executor.ShellTask
import Liz.Model.Tooling
import Liz.Model.ToolCalls
import Liz.Model.Adapters
import Liz.Model.MarkedCalls
import Liz.Protocol.ToolDecoding
import Liz.Server.Gateway
import Liz.Server.App
import Liz.Server.TurnLoop
import Liz.Server.Requests
import Liz.Server.GatewayTurn
import Liz.Proof.Atomicity
import Liz.Proof.LogSequence
import Liz.Proof.Disclosure
import Liz.Proof.Ledger
import Liz.Proof.ServerEffects
import Liz.Proof.Lifecycle
import Liz.Proof.RiskyRuns
import Liz.Proof.ApprovalFinality
import Liz.Proof.SettledTurns
import Liz.Proof.OutputDelivery
import Liz.Proof.MemoryFile
import Liz.Proof.ApprovalDetour
import Liz.Proof.LiveFacts
import Liz.Proof.MemoryRuns
import Liz.Proof.SingleLive
import Liz.Proof.Commitments
import Liz.Proof.Supersession
import Liz.Proof.Idempotence
import Liz.Proof.IdentityEvidence
import Liz.Proof.PathContainment
import Liz.Proof.CrashRecovery
import Liz.Proof.ExecutionScope
import Liz.Proof.WorkspaceAccess
import Liz.Proof.Confinement
import Liz.Proof.RegistryRuns
import Liz.Proof.MountIdentifiers
import Liz.Proof.LocalMounts
import Liz.Proof.RegistryAgreement
import Liz.Proof.BackgroundOutput
import Liz.Proof.ShellThreads
import Liz.Proof.GatewayTurns
import Liz.Proof.ConversationTools
import Liz.Proof.DroppedCalls
import Liz.Proof.CallIdentifiers
import Liz.Proof.TurnWork
import Liz.Proof.Authority
import Liz.Proof.FactHistory
import Liz.Proof.AboutYou
import Liz.Proof.ActiveTurns
import Liz.Proof.ThreadStatus
import Liz.Proof.ThreadIndex
import Liz.Proof.IdentityCitations
import Liz.Proof.OneIdentity
import Liz.Proof.InvocationDecoding
import Liz.Proof.ContinuationRequests
import Liz.Proof.ModelText
import Liz.Proof.CliTranscripts
import Liz.Proof.WebToolCalls
import Liz.Proof.WebSessions
import Liz.Proof.TokenRotation
import Liz.Proof.ConfigAgreement
import Liz.Proof.WebSecrets
import Liz.Proof.FirstMessages
import Liz.Proof.ReconnectTimers
import Liz.Proof.CheckpointFiles
import Liz.Proof.CoveredTurns
import Liz.Proof.CheckpointedRuns
import Liz.Proof.IncrementalOutput
import Liz.Proof.ConfigEdits
import Liz.Proof.ProfileStore
import Liz.Proof.WebActiveTurn
import Liz.Proof.TelegramAnswers
import Liz.Proof.ToolCallAttribution
import Liz.Proof.TopicIndex
import Liz.Proof.CompilationFrame
import Liz.Proof.FiledRecords
import Liz.Proof.MemoryOwners
import Liz.Proof.SearchCoherence
import Liz.Proof.TurnPhases
import Liz.Proof.TurnEvents
import Liz.Proof.ConnectionProgress
import Liz.Proof.WebMessages
import Liz.Proof.WebRequests
import Liz.Proof.WebConnection
import Liz.Proof.CliActiveThread
import Liz.Proof.CliPreview
import Liz.Proof.CliScrollback
import Liz.Proof.ConfigKeys
import Liz.Proof.ResumedCommitments
import Liz.Proof.ToolResultBlocks
import Liz.Proof.FallbackCodec
import Liz.Base.Replacement
import Liz.Proof.Redaction
import Liz.Runtime.People
import Liz.Proof.PeopleSurface
import Liz.Base.Limits
import Liz.Proof.BoundedListing
import Liz.Proof.SearchResults
import Liz.Proof.EditReports
import Liz.Proof.EvidenceCitations
import Liz.Base.Codes
import Liz.Proof.RenderedJson
import Liz.Proof.ToolLoop
import Liz.Proof.CliReopening
import Liz.Base.SExpr
import Liz.Proof.SeatbeltProfile
import Liz.Base.Descents
import Liz.Base.LinkedTree
import Liz.Executor.LinkedWorkspace
import Liz.Proof.LinkedTraversal
import Liz.Proof.RangedReads
import Liz.Base.Base64
import Liz.Model.Pkce
import Liz.Proof.FallbackCleaning
import Liz.Proof.TokenExpiry
import Liz.Proof.OverrideLayers
import Liz.Proof.CliThreads
import Liz.Proof.FreshConversations
import Liz.Proof.DraftRoundTrip
import Liz.Base.Cells
import Liz.Proof.LiveGeometry
import Liz.Proof.TelegramChats
import Liz.Proof.ComposerRuns
import Liz.Proof.TerminalDecisions
import Liz.Proof.ProviderResolution
