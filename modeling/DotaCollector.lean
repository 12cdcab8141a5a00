import DotaCollector.Matches.StatusOrder
import DotaCollector.Matches.LiveFinish
import DotaCollector.Matches.HistoryWaiter
import DotaCollector.Matches.HistoryMisses
import DotaCollector.Replays.Agreement
import DotaCollector.Parser.Publication
import DotaCollector.Parser.FailedRows
import DotaCollector.Parser.Concurrency
import DotaCollector.SeqWalk.Coverage
import DotaCollector.SeqWalk.GlobalSeq
import DotaCollector.Persist.DraftPersistence
import DotaCollector.Persist.FirstSource
import DotaCollector.Persist.Extract
import DotaCollector.Persist.Collisions
import DotaCollector.Gc.Protobuf
import DotaCollector.Gc.WireFormat
import DotaCollector.Gc.RoundTrip
import DotaCollector.Gc.Soundness
import DotaCollector.Gc.Repeated
import DotaCollector.Gc.MatchDecoder
import DotaCollector.Gc.ScalarFields
import DotaCollector.Resources.RateLimit
import DotaCollector.Library.Processes
import DotaCollector.Marketplace.Orders
import DotaCollector.Marketplace.Settlement
import DotaCollector.Resources.Health
import DotaCollector.Resources.GivenUp
import DotaCollector.Library.Retention
import DotaCollector.Resources.AttemptWindow
import DotaCollector.Resources.AccountRest
import DotaCollector.Library.Batches
import DotaCollector.Parser.Session
import DotaCollector.Parser.Streaming
import DotaCollector.Jobs.Enqueue
import DotaCollector.Jobs.Budget
import DotaCollector.Jobs.System
import DotaCollector.Jobs.Tracking
import DotaCollector.Jobs.Preservation
import DotaCollector.Jobs.LostJobs
import DotaCollector.Jobs.RetryBudget
import DotaCollector.Jobs.Loops
import DotaCollector.Jobs.LoopRows
import DotaCollector.Jobs.LoopRecovery
import DotaCollector.Jobs.ListenRecovery
import DotaCollector.Library.Patches
import DotaCollector.Replays.Patch
import DotaCollector.SeqWalk.Targets
import DotaCollector.SeqWalk.StartTime
import DotaCollector.Library.Paging
import DotaCollector.Matches.HistoryCrawl
import DotaCollector.Matches.HistoryListing
import DotaCollector.Matches.Series
import DotaCollector.Live.Scoreboard
import DotaCollector.Live.ChangeCache
import DotaCollector.Library.Rotation
import DotaCollector.Live.RealtimePoll
import DotaCollector.LeagueWalk.Coverage
import DotaCollector.Replays.ArchiveDest
import DotaCollector.Replays.Archive
import DotaCollector.Live.RealtimeRotation
import DotaCollector.Library.PositionalDiff
import DotaCollector.Parser.DraftTimeline
import DotaCollector.Persist.PublishDraft
import DotaCollector.Persist.DraftClocks
import DotaCollector.Library.FirstOccurrences
import DotaCollector.Persist.DraftSequence
import DotaCollector.Persist.Objectives
import DotaCollector.Persist.FileInfoDraft
import DotaCollector.Library.Search
import DotaCollector.Parser.Names
import DotaCollector.Parser.HeroKey
import DotaCollector.Parser.Barracks
import DotaCollector.Parser.Wards
import DotaCollector.Library.Champion
import DotaCollector.Steam.Confirmations
import DotaCollector.Steam.Imap
import DotaCollector.Library.JsonTokens
import DotaCollector.Library.JsonText
import DotaCollector.Steam.SteamJson.Large
import DotaCollector.Gc.Session
import DotaCollector.Gc.SingleFlight
import DotaCollector.Resources.Proxies
import DotaCollector.Resources.KeyRotation
import DotaCollector.Parser.Seats
import DotaCollector.Parser.ChangeLogs
import DotaCollector.Steam.ImapSession
import DotaCollector.Steam.SchemaDrift
import DotaCollector.Steam.ApiClient
import DotaCollector.Persist.EndItems
import DotaCollector.Live.Circuit
import DotaCollector.Replays.Locate
import DotaCollector.Metrics.Tallies
import DotaCollector.Marketplace.Replenish
import DotaCollector.Persist.Links
