import Mathlib.Algebra.BigOperators.Group.List.Basic
import Mathlib.Algebra.Ring.Nat
import Mathlib.Data.Char
import Mathlib.Data.List.Basic
import Mathlib.Data.List.Induction
import Mathlib.Data.List.Lex
import Mathlib.Data.List.Permutation
import Mathlib.Data.List.TakeWhile
import Metidos.Auth.Base32
import Metidos.Auth.OneShot
import Metidos.Auth.TotpCounters
import Metidos.Calendar.EventVersions
import Metidos.Calendar.ListingSpec
import Metidos.Calendar.RefreshAtomicity
import Metidos.Calendar.TimedColumns
import Metidos.Calendar.TimedLayout
import Metidos.Calendar.WindowExpansion
import Metidos.Client.DiffParsing
import Metidos.Client.GroupedMessages
import Metidos.Client.MessageHistory
import Metidos.Client.MessageOrder
import Metidos.Client.MessageRetention
import Metidos.Client.PollSafety
import Metidos.Client.RequestQueueRuns
import Metidos.Client.TranscriptPages
import Metidos.Client.TurnRollback
import Metidos.Cron.CronItems
import Metidos.Cron.CronUtc
import Metidos.Cron.RunnerOverlap
import Metidos.CronScheduler.Firings
import Metidos.CronScheduler.SchedulerRuns
import Metidos.Git.CommitHistory
import Metidos.Git.WorktreeStatus
import Metidos.Ingress.ChatImages
import Metidos.Ingress.LinkUsers
import Metidos.Ingress.MessageRows
import Metidos.Ingress.RateLimitRuns
import Metidos.Library.Brackets
import Metidos.Library.IntervalColumns
import Metidos.Library.KeysetPages
import Metidos.Library.OrderedMatches
import Metidos.Library.SortedMerge
import Metidos.Library.TomlText
import Metidos.Library.UrlReference
import Metidos.Markdown.BlockPartition
import Metidos.Markdown.LinkSanitizer
import Metidos.Markdown.ParserProgress
import Metidos.Memory.MemoryRuns
import Metidos.Memory.RecallIsolation
import Metidos.Net.AddressBlocking
import Metidos.Plugin.DataQuotaRuns
import Metidos.Plugin.FsDecision
import Metidos.Plugin.GlobMatch
import Metidos.Plugin.NetworkDecision
import Metidos.Plugin.StructuredData
import Metidos.Plugin.StructuredDocument
import Metidos.Plugin.StructuredText
import Metidos.Plugin.WebSocketRuns
import Metidos.Procedures.CommandDisplay
import Metidos.Procedures.ConcurrencySafety
import Metidos.RateLimit.AuthRouteRuns
import Metidos.RateLimit.FixedWindow
import Metidos.RateLimit.NotificationLimit
import Metidos.RateLimit.TokenBucket
import Metidos.Rpc.CodecFraming
import Metidos.Rpc.TransportIndex
import Metidos.Rpc.TransportRegistry
import Metidos.Rpc.TransportReplies
import Metidos.Schema.AccessKept
import Metidos.Schema.CronTitles
import Metidos.Settings.LegacySecrets
import Metidos.Sidecar.CancelOutcome
import Metidos.Sidecar.LineStreams
import Metidos.Sql.LexAppend
import Metidos.Sql.LexedCalls
import Metidos.Sql.RowCap
import Metidos.Sql.SplitAgreement
import Metidos.Terminal.CleanLines
import Metidos.Terminal.RegistryRuns
import Metidos.Terminal.ReplayBuffer
import Metidos.Terminal.ReplaySuffix
import Metidos.Terminal.TerminalRuns
import Metidos.Thread.ActivityFailures
import Metidos.Thread.DetailCache
import Metidos.Thread.MessagePages
import Metidos.Thread.StatusCoalescer
import Metidos.Thread.TurnRunner
import Metidos.WebShare.ProxyRedirects
