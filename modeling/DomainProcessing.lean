import DomainProcessing.Models
import DomainProcessing.TaskRepository
import DomainProcessing.Runs
import DomainProcessing.WriteHelpers
import DomainProcessing.Ingestion
import DomainProcessing.ServiceRuns
import DomainProcessing.TaskBudget
import DomainProcessing.JobContract
import DomainProcessing.Backoff
import DomainProcessing.BoundedQueue
import DomainProcessing.TerminalStates
import DomainProcessing.JobCompletionRace
import DomainProcessing.QueueTransactions
import DomainProcessing.SkipLocked
import DomainProcessing.Dispatch
import DomainProcessing.SingleDispatch
import DomainProcessing.ProcessTask
import DomainProcessing.LockContention
import DomainProcessing.DomainProbing
import DomainProcessing.DoubleCheck
import DomainProcessing.RowInserts
import DomainProcessing.ConcurrentIngestion
import DomainProcessing.IngestionEffects
import DomainProcessing.IdempotentIngestion
import DomainProcessing.SerialIngestion
import DomainProcessing.SerialProbing
import DomainProcessing.Config
import DomainProcessing.JobRetrieval
import DomainProcessing.KeysetPaging
import DomainProcessing.Pagination
import DomainProcessing.Normalization
import DomainProcessing.RequestHash
import DomainProcessing.JobSubmission
import DomainProcessing.IngestionAccounting
import DomainProcessing.VersionedCell
import DomainProcessing.DetailHistory
import DomainProcessing.PrefixMasks
import DomainProcessing.IpAddresses
import DomainProcessing.IpValidator
import DomainProcessing.SsrfProtection
import DomainProcessing.QueueDrain
import DomainProcessing.StaleWrites
import DomainProcessing.RefreshScheduler
import DomainProcessing.TaskExecutions
import DomainProcessing.CompletedResults
import DomainProcessing.SerialSubmissions
import DomainProcessing.ConcurrentSubmissions
import DomainProcessing.SingleRefresh
import DomainProcessing.RefreshCompletion
import DomainProcessing.TaskExits
import DomainProcessing.DnsLookups
import DomainProcessing.ExhaustionPaths
import DomainProcessing.LockOwnership
import DomainProcessing.LockTime
import DomainProcessing.ObservationOrder
import DomainProcessing.RefreshFairness
import DomainProcessing.PythonStrings
import DomainProcessing.StoringRoute
import DomainProcessing.ClientScopes
import DomainProcessing.CanonicalPayload
import DomainProcessing.WriteRaces
import DomainProcessing.ReplaySoundness
import DomainProcessing.Deduplication
import DomainProcessing.Spellings
import DomainProcessing.ProbeTargets
import DomainProcessing.ClaimOrder
import DomainProcessing.StorableText
import DomainProcessing.CursorDecoding
import DomainProcessing.GracefulStop
import DomainProcessing.QueueReservation
import DomainProcessing.BodyReading
import DomainProcessing.QueueConservation
import DomainProcessing.Shutdown
import DomainProcessing.ShutdownAccounting
import DomainProcessing.BacktrackingRegex
import DomainProcessing.Utf8
import DomainProcessing.TitleExtraction
import DomainProcessing.HttpProbe
import DomainProcessing.JsonLogs
import DomainProcessing.FixedDigits
import DomainProcessing.Gregorian
import DomainProcessing.IsoFormat
import DomainProcessing.CursorText
import DomainProcessing.JobViews
import DomainProcessing.ProcessingResults
import DomainProcessing.BulkIngestion
import DomainProcessing.RelationalSchema
import DomainProcessing.Migrations
import DomainProcessing.MigratedStore
import DomainProcessing.StoredDetails
