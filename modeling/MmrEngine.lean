import MmrEngine.Lib.Transition
import MmrEngine.Lib.RowStore
import MmrEngine.Lib.OwnedTable
import MmrEngine.Lib.UniqueTable
import MmrEngine.Lib.SerialTable
import MmrEngine.Lib.Journal
import MmrEngine.Lib.Ranking
import MmrEngine.Lib.Greedy
import MmrEngine.Lib.Coverage
import MmrEngine.Lib.OrderedDict
import MmrEngine.Lib.Regex
import MmrEngine.Core.Text
import MmrEngine.Core.Json
import MmrEngine.Core.Clock
import MmrEngine.Core.Score
import MmrEngine.Core.Binary64
import MmrEngine.Core.Decimal
import MmrEngine.Core.Library
import MmrEngine.Engine.Idempotency
import MmrEngine.Engine.Normaliser
import MmrEngine.Engine.Pii
import MmrEngine.Engine.Masking
import MmrEngine.Engine.CanonicalRecord
import MmrEngine.Engine.Matching
import MmrEngine.Engine.MatchingErrors
import MmrEngine.Engine.Discrepancy
import MmrEngine.Flows.MatchAll
import MmrEngine.Flows.GapDetection
import MmrEngine.Flows.Gold
import MmrEngine.Flows.GoldSteps
import MmrEngine.Flows.GoldCalls
import MmrEngine.Flows.MatchingFlow
import MmrEngine.Theory.Deduplication
import MmrEngine.Theory.Assignment
import MmrEngine.Theory.GapCoverage
import MmrEngine.Theory.AuditTrail
import MmrEngine.Theory.OneMatch
import MmrEngine.Flows.Ingestion
import MmrEngine.Theory.Acknowledgement
import MmrEngine.Flows.Transform
import MmrEngine.Flows.Consumer
import MmrEngine.Theory.NoMessageSkipped
import MmrEngine.Theory.GoldHistory
import MmrEngine.Theory.MissingSettlement
import MmrEngine.Theory.FxExplanation
import MmrEngine.Theory.TwoTierRule
import MmrEngine.Api.RateLimit
import MmrEngine.Theory.RateBound
import MmrEngine.Api.Webhooks
import MmrEngine.Theory.ReferenceExtraction
import MmrEngine.Theory.PermanentFailures
import MmrEngine.Theory.AmountDiscrepancies
import MmrEngine.Lib.Query
import MmrEngine.Core.Calendar
import MmrEngine.Api.Reconciliation
import MmrEngine.Theory.OpenExposure
import MmrEngine.Flows.SummaryView
import MmrEngine.Api.Transactions
import MmrEngine.Theory.DayFigures
import MmrEngine.Lib.Timeline
import MmrEngine.Engine.Fx
import MmrEngine.Theory.FxChain
import MmrEngine.Lib.ClosingTimes
import MmrEngine.Core.Datetime
import MmrEngine.Engine.Settlement
import MmrEngine.Theory.ExpectedSettlement
import MmrEngine.Engine.Divisions
import MmrEngine.Theory.ScoreBounds
import MmrEngine.Theory.SecondRun
import MmrEngine.Theory.ThresholdSetting
import MmrEngine.Theory.OverdueClassification
import MmrEngine.Theory.RecordExactness
import MmrEngine.Flows.SilverTransform
import MmrEngine.Theory.OneTimestamp
import MmrEngine.Theory.ClockSteps
import MmrEngine.Theory.RetryAfter
import MmrEngine.Theory.Masks
import MmrEngine.Connectors.Polling
import MmrEngine.Theory.BulkResolution
import MmrEngine.Theory.BackfillCompleteness
import MmrEngine.Flows.Alerts
import MmrEngine.Theory.AlertsOnce
import MmrEngine.Flows.BronzeArchive
import MmrEngine.Theory.OneObject
import MmrEngine.Theory.DisplayedTrail
import MmrEngine.Lib.Overlap
import MmrEngine.Lib.RegexSemantics
import MmrEngine.Theory.NameTokens
import MmrEngine.Lib.RegexRuns
import MmrEngine.Theory.ScrubbedNarration
import MmrEngine.Dashboard.ListNav
import MmrEngine.Theory.ListNavigation
import MmrEngine.Api.Search
import MmrEngine.Theory.LiteralPrefix
import MmrEngine.Theory.TwoSearches
import MmrEngine.Alembic.IntegrityHardening
import MmrEngine.Theory.BackfilledMatches
import MmrEngine.Api.ExposureAging
import MmrEngine.Theory.DisplayedTotals
import MmrEngine.Dashboard.Money
import MmrEngine.Theory.KoboRoundTrip
import MmrEngine.Api.MoneyText
import MmrEngine.Theory.TwoRoundings
import MmrEngine.Core.UtcDatetime
import MmrEngine.Theory.TimestampOrder
import MmrEngine.Engine.CbnReport
import MmrEngine.Flows.DailyReport
import MmrEngine.Lib.Clusters
import MmrEngine.Theory.VelocityAnomalies
import MmrEngine.Theory.DailyReturn
import MmrEngine.Lib.UrlEncoded
import MmrEngine.Lib.Utf16
import MmrEngine.Lib.JsText
import MmrEngine.Dashboard.UrlState
import MmrEngine.Theory.CanonicalUrl
import MmrEngine.Lib.Framing
import MmrEngine.Theory.KeyComponents
import MmrEngine.Lib.JsonText
import MmrEngine.Core.JsonText
import MmrEngine.Lib.Base64
import MmrEngine.Storage.KafkaMessages
import MmrEngine.Connectors.Signatures
import MmrEngine.Flows.Pipeline
import MmrEngine.Theory.Provenance
import MmrEngine.Theory.EndToEnd
import MmrEngine.Api.Access
import MmrEngine.Theory.AccessControl
import MmrEngine.Flows.Scheduler
import MmrEngine.Theory.DailySchedule
import MmrEngine.Flows.DailyReturns
import MmrEngine.Theory.LockedReturns
import MmrEngine.Api.TransactionPages
import MmrEngine.Theory.Counterparts
import MmrEngine.Theory.FxFinality
import MmrEngine.Flows.MatchingRun
import MmrEngine.Theory.MatchingRerun
import MmrEngine.Lib.UrlPath
import MmrEngine.Dashboard.Proxy
import MmrEngine.Theory.ProxyConfinement
import MmrEngine.Lib.LivePages
import MmrEngine.Dashboard.Pagination
import MmrEngine.Api.Listings
import MmrEngine.Theory.PagedListings
