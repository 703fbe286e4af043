import NitpickerDaemon.Effect.Procedure
import NitpickerDaemon.Effect.Pool
import NitpickerDaemon.Effect.Monitor
import NitpickerDaemon.Effect.Lockstep
import NitpickerDaemon.JobStore
import NitpickerDaemon.JobStoreSteps
import NitpickerDaemon.JobStoreHistory
import NitpickerDaemon.Idempotency
import NitpickerDaemon.Controller
import NitpickerDaemon.ControllerStages
import NitpickerDaemon.ControllerRun
import NitpickerDaemon.RunState
import NitpickerDaemon.Recovery
import NitpickerDaemon.Settlement
import NitpickerDaemon.StateEdges
import NitpickerDaemon.Verdicts
import NitpickerDaemon.GreenLight
import NitpickerDaemon.History
import NitpickerDaemon.Failures
import NitpickerDaemon.Duplicates
import NitpickerDaemon.Interference
import NitpickerDaemon.Channels
import NitpickerDaemon.AutoFix
import NitpickerDaemon.Rollback
import NitpickerDaemon.Retry
import NitpickerDaemon.DeepReview
import NitpickerDaemon.AutoFixReport
import NitpickerDaemon.Permissions
import NitpickerDaemon.InternalErrors
import NitpickerDaemon.LlmReviewGate
import NitpickerDaemon.OllamaProvider
import NitpickerDaemon.MiniReviewer
import NitpickerDaemon.Evidence
import NitpickerDaemon.SilentPass
import NitpickerDaemon.GitIndex
import NitpickerDaemon.JemminCli
import NitpickerDaemon.StagedGate
import NitpickerDaemon.PreCommitHook
import NitpickerDaemon.GateReplies
import NitpickerDaemon.Text.Regex
import NitpickerDaemon.AddedLines
import NitpickerDaemon.UnifiedDiff
import NitpickerDaemon.LineNotions
import NitpickerDaemon.StageEvents
import NitpickerDaemon.Publications
import NitpickerDaemon.ContextCache
import NitpickerDaemon.Redaction
import NitpickerDaemon.PassiveSave
import NitpickerDaemon.Data.Memo
import NitpickerDaemon.ContextService
import NitpickerDaemon.PatchVerification
import NitpickerDaemon.CacheLifecycle
import NitpickerDaemon.CacheConcurrency
import NitpickerDaemon.Data.Directory
import NitpickerDaemon.LatestReviewFile
import NitpickerDaemon.Effect.Labelled
import NitpickerDaemon.WatchDaemon
import NitpickerDaemon.Text.Json
import NitpickerDaemon.ZmqRouter
import NitpickerDaemon.Data.Traverse
import NitpickerDaemon.LspServer
import NitpickerDaemon.LspWatcher
import NitpickerDaemon.QuickFix
import NitpickerDaemon.Text.Edits
import NitpickerDaemon.GitDiff
import NitpickerDaemon.QuickFixHunks
import NitpickerDaemon.QuickFixEdits
import NitpickerDaemon.Consensus
import NitpickerDaemon.ErringAgents
import NitpickerDaemon.Confidence
import NitpickerDaemon.SchemaMigration
import NitpickerDaemon.MiniAudit
import NitpickerDaemon.ReviewHistory
import NitpickerDaemon.Text.Numeral
import NitpickerDaemon.Text.JsonParser
import NitpickerDaemon.Text.Utf8
import NitpickerDaemon.JsonRpc
import NitpickerDaemon.LocalConfig
import NitpickerDaemon.AstSecurity
import NitpickerDaemon.ImportAliases
import NitpickerDaemon.AstNodes
import NitpickerDaemon.Text.Search
import NitpickerDaemon.Data.Nesting
import NitpickerDaemon.LoopRules
import NitpickerDaemon.DiffFiles
import NitpickerDaemon.SecurityRules
import NitpickerDaemon.Text.Utf16
import NitpickerDaemon.DiffInput
import NitpickerDaemon.Text.JsonPadding
import NitpickerDaemon.JsoncComments
import NitpickerDaemon.Data.Scan
import NitpickerDaemon.DamagedLog
import NitpickerDaemon.Text.JsonAscii
import NitpickerDaemon.SimilarReviews
import NitpickerDaemon.Data.Admission
import NitpickerDaemon.ResourceManager
import NitpickerDaemon.FencedDiff
import NitpickerDaemon.Data.Fallback
import NitpickerDaemon.ModelFallback
import NitpickerDaemon.Text.Components
import NitpickerDaemon.PathInvalidation
import NitpickerDaemon.ConfigWatcher
import NitpickerDaemon.Text.Literals
import NitpickerDaemon.ToastScript
import NitpickerDaemon.Text.Pieces
import NitpickerDaemon.Instructions
import NitpickerDaemon.Data.BreadthFirst
import NitpickerDaemon.SymbolGraph
import NitpickerDaemon.RouterShutdown
import NitpickerDaemon.PyJson
import NitpickerDaemon.DaemonPath
import NitpickerDaemon.LspSession
import NitpickerDaemon.ScanAgents
import NitpickerDaemon.FastGate
import NitpickerDaemon.DefaultAgents
import NitpickerDaemon.DefaultPipeline
import NitpickerDaemon.Analytics
import NitpickerDaemon.Data.Grouping
import NitpickerDaemon.ReviewReport
import NitpickerDaemon.ReportPage
import NitpickerDaemon.Text.Html
import NitpickerDaemon.Data.Stamped
import NitpickerDaemon.PromptLoader
import NitpickerDaemon.Data.Fitting
import NitpickerDaemon.PolicyProvider
