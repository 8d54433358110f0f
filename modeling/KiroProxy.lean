import KiroProxy.Lib.Run
import KiroProxy.Daemon.UsageBound
import KiroProxy.Daemon.KeyLedger
import KiroProxy.Daemon.Persistence
import KiroProxy.Translate.ToolHistoryConserve
import KiroProxy.Translate.ToolHistoryFixed
import KiroProxy.Kiro.Event
import KiroProxy.Lib.Bytes
import KiroProxy.Lib.Chunks
import KiroProxy.Kiro.EventStreamChunks
import KiroProxy.Pool.Account
import KiroProxy.Pool.System
import KiroProxy.Lib.Census
import KiroProxy.Pool.Slots
import KiroProxy.Pool.Ban
import KiroProxy.Pool.Access
import KiroProxy.Pool.Wake
import KiroProxy.Pool.Refresh
import KiroProxy.Pool.RefreshOnce
import KiroProxy.Http.Response
import KiroProxy.Lib.Blocks
import KiroProxy.Http.ClaudeStream
import KiroProxy.Http.ClaudeStreamOrder
import KiroProxy.Http.StopSequence
import KiroProxy.Lib.SortedMap
import KiroProxy.Http.Decode
import KiroProxy.Http.Rounds
import KiroProxy.Http.RoundsSum
import KiroProxy.Http.ClientView
import KiroProxy.Http.Agreement
import KiroProxy.Translate.Attachments
import KiroProxy.Translate.AttachmentsKept
import KiroProxy.Translate.ToolNameTrip
import KiroProxy.Http.ResponsesStore
import KiroProxy.Pool.Reload
import KiroProxy.Translate.CacheHints
import KiroProxy.Translate.CacheOff
import KiroProxy.Translate.CacheControls
import KiroProxy.Translate.CacheLimit
import KiroProxy.Http.CompactionReplay
import KiroProxy.Http.Continuation
import KiroProxy.Http.ResponsesStream
import KiroProxy.Http.ResponsesStreamOrder
import KiroProxy.Translate.Compaction
import KiroProxy.Kiro.Endpoint
import KiroProxy.Kiro.EndpointReports
import KiroProxy.Notify.Incident
import KiroProxy.Notify.OneAlert
import KiroProxy.Lib.Files
import KiroProxy.Store.Accounts
import KiroProxy.Store.Crash
import KiroProxy.Daemon.AccountTransactions
import KiroProxy.Daemon.RotatedCredentials
import KiroProxy.Http.OutputBudget
import KiroProxy.Daemon.StatsBucket
import KiroProxy.Daemon.StatsHistory
import KiroProxy.Daemon.StatsKept
import KiroProxy.Daemon.StatsWindow
import KiroProxy.Http.OpenAiStream
import KiroProxy.Http.StreamAbandoned
import KiroProxy.Daemon.UsageSums
import KiroProxy.Http.StopBytes
import KiroProxy.Kiro.HeaderBlock
import KiroProxy.Http.ProviderRoute
import KiroProxy.Http.UsageEvents
import KiroProxy.Kiro.GovCloud
import KiroProxy.Copilot.Access
import KiroProxy.Copilot.RemovedAccount
import KiroProxy.Copilot.SingleUse
import KiroProxy.Copilot.AccountsFile
import KiroProxy.Copilot.Reload
import KiroProxy.Lib.Scan
import KiroProxy.Translate.Error
import KiroProxy.Translate.ErrorClean
import KiroProxy.Lib.Glob
import KiroProxy.Http.ModelAllowed
import KiroProxy.Http.ModelFallback
import KiroProxy.Http.ContextLimit
import KiroProxy.Http.Dispatch
import KiroProxy.Http.DispatchLeases
import KiroProxy.Translate.SummaryFraming
import KiroProxy.Translate.SummaryLossless
import KiroProxy.Http.ParameterHints
import KiroProxy.Http.MarkdownPosition
import KiroProxy.Http.ThinkingFilter
import KiroProxy.Http.ThinkingSpans
import KiroProxy.Lib.Aged
import KiroProxy.Kiro.EndpointCache
import KiroProxy.Translate.BoundaryExact
import KiroProxy.Http.MergeUsage
import KiroProxy.Notify.Debounced
import KiroProxy.Notify.QuotaAlerts
import KiroProxy.Lib.Utf8Cut
import KiroProxy.Translate.ShortenSliced
import KiroProxy.Http.OpenAiArguments
import KiroProxy.Http.StoppedAnswer
import KiroProxy.Translate.ServerHistory
import KiroProxy.Translate.PendingViews
import KiroProxy.Http.PointerMut
import KiroProxy.Http.RemoteAttachments
import KiroProxy.Http.HydrateOrder
import KiroProxy.Lib.Gregorian
import KiroProxy.Lib.Digits
import KiroProxy.Daemon.ShardNames
import KiroProxy.Lib.Newest
import KiroProxy.Translate.ContextEditsExact
import KiroProxy.Http.PromptCache
import KiroProxy.Http.FrameText
import KiroProxy.Translate.ClaudeCode
