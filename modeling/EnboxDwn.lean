import EnboxDwn.Message
import EnboxDwn.Lib.Journal
import EnboxDwn.Reply
import EnboxDwn.Indexes
import EnboxDwn.Query
import EnboxDwn.MessageStore
import EnboxDwn.DataStore
import EnboxDwn.StorageController
import EnboxDwn.RecordsHandlers
import EnboxDwn.Lib.TombstoneMachine
import EnboxDwn.WellFormed
import EnboxDwn.RejectedWrite
import EnboxDwn.RecordLog
import EnboxDwn.RecordRun
import EnboxDwn.Convergence
import EnboxDwn.ReplicationApply
import EnboxDwn.FeedConvergence
import EnboxDwn.ConcurrentRuns
import EnboxDwn.DataStoreRuns
import EnboxDwn.StoreCalls
import EnboxDwn.LogRead
import EnboxDwn.Fingerprints
import EnboxDwn.DurableEventLog
import EnboxDwn.DurableDelivery
import EnboxDwn.DurableRuns
import EnboxDwn.WriteEffects
import EnboxDwn.ContextTree
import EnboxDwn.Lib.TemporalFloor
import EnboxDwn.SquashConvergence
import EnboxDwn.LastWriterWins
import EnboxDwn.SyncLinkExecutor
import EnboxDwn.SyncLinkRuns
import EnboxDwn.ReplicationLinkStore
import EnboxDwn.SyncScope
import EnboxDwn.Lib.Level
import EnboxDwn.ProgressKey
import EnboxDwn.ProgressStore
import EnboxDwn.ProgressRuns
import EnboxDwn.ProgressIsolation
import EnboxDwn.ProgressLossless
import EnboxDwn.Lib.Kahn
import EnboxDwn.FeedPage
import EnboxDwn.PushPage
import EnboxDwn.PullPage
import EnboxDwn.CoveredDelivery
import EnboxDwn.DurableFeed
import EnboxDwn.DurableFeedCheckpoints
import EnboxDwn.DurableFeedRuns
import EnboxDwn.DeliveryService
import EnboxDwn.DirectDelivery
import EnboxDwn.EndpointForwarding
import EnboxDwn.DataStoreSql
import EnboxDwn.ResumableTasks
import EnboxDwn.ModuleUpgrade
import EnboxDwn.ConfigureLog
import EnboxDwn.ConfigureConcurrency
import EnboxDwn.ConfigureRetry
import EnboxDwn.ConfigureReads
import EnboxDwn.ConfigureConvergence
import EnboxDwn.DataIntegrityRuns
import EnboxDwn.DidDhtDns
import EnboxDwn.DidDhtRoundTrip
import EnboxDwn.FlowController
import EnboxDwn.Lib.KeyedMap
import EnboxDwn.ProofOfWorkManager
import EnboxDwn.LocalNodePairing
import EnboxDwn.IndexLevel
import EnboxDwn.IndexSort
import EnboxDwn.SocketConnection
import EnboxDwn.Lib.Process
import EnboxDwn.SyncQuotaManager
import EnboxDwn.SyncQuotaRuns
import EnboxDwn.SyncQuotaReports
import EnboxDwn.JsonRpcSocket
import EnboxDwn.JsonRpcSocketRuns
import EnboxDwn.DidDhtAnswerOrder
import EnboxDwn.Lib.CompareSort
import EnboxDwn.RetryOrder
import EnboxDwn.RetryRotation
import EnboxDwn.Lib.Routine
import EnboxDwn.PushAccounting
import EnboxDwn.SyncNextWork
import EnboxDwn.SyncNextRunner
import EnboxDwn.SyncNextBudget
import EnboxDwn.SquashResume
import EnboxDwn.RecordsWriteCreate
import EnboxDwn.RecordsWriteUpdate
import EnboxDwn.ReconcileOutcome
import EnboxDwn.FeedEnumeration
import EnboxDwn.Lib.TokenBucket
import EnboxDwn.RateLimiter
import EnboxDwn.Lib.Binary64
import EnboxDwn.ProofOfWorkDifficulty
import EnboxDwn.GuardedSubscription
import EnboxDwn.AudienceKeyDelivery
import EnboxDwn.CanonicalJson
import EnboxDwn.CanonicalJsonMemory
import EnboxDwn.GrantKeyCoverage
import EnboxDwn.Lib.FixedDigits
import EnboxDwn.Lib.Gregorian
import EnboxDwn.Lib.HeapOrder
import EnboxDwn.Lib.IpAddress
import EnboxDwn.Lib.JsonSchema
import EnboxDwn.ModuleTags
import EnboxDwn.ModuleTagsMeaning
import EnboxDwn.PrivateHostname
import EnboxDwn.PublicFetch
import EnboxDwn.RecordLimitRank
import EnboxDwn.SerializedByKey
import EnboxDwn.Timestamp
import EnboxDwn.TimestampOrder
import EnboxDwn.TtlCache
import EnboxDwn.TtlCacheLedger
import EnboxDwn.TtlCacheRuns
import EnboxDwn.VaultRestore
import EnboxDwn.VaultRestoreUndone
import EnboxDwn.DrainCoordinator
import EnboxDwn.DrainHandoff
