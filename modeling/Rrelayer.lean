import Rrelayer.Lib.Machine
import Rrelayer.Lib.Ledger
import Rrelayer.Lib.Allocation
import Rrelayer.Lib.Pages
import Rrelayer.Database
import Rrelayer.NonceManager
import Rrelayer.SendError
import Rrelayer.GasPrice
import Rrelayer.SendTransaction
import Rrelayer.ProcessPending
import Rrelayer.Admission
import Rrelayer.Compete
import Rrelayer.ProcessInmempool
import Rrelayer.ProcessMined
import Rrelayer.Startup
import Rrelayer.System
import Rrelayer.Book
import Rrelayer.DatabaseFrame
import Rrelayer.QueueBook
import Rrelayer.Effects
import Rrelayer.InmempoolEffect
import Rrelayer.PendingEffect
import Rrelayer.RequestEffect
import Rrelayer.SystemEffect
import Rrelayer.LiveNonces
import Rrelayer.StrandedNonces
import Rrelayer.InmempoolReassignment
import Rrelayer.PendingReassignment
import Rrelayer.LandedAttempts
import Rrelayer.StartupRows
import Rrelayer.StartupGaps
import Rrelayer.ClosedOut
import Rrelayer.Relayers
import Rrelayer.RelayerEffect
import Rrelayer.SigningIdentity
import Rrelayer.LiveRelayers
import Rrelayer.AppState
import Rrelayer.PayloadPermissions
import Rrelayer.Competition
import Rrelayer.ExternalIds
import Rrelayer.WriteTrace
import Rrelayer.SafeNonces
import Rrelayer.AuditLog
import Rrelayer.MemoryCopies
import Rrelayer.DurableAttempts
import Rrelayer.BroadcastEvidence
import Rrelayer.TrackedEntries
import Rrelayer.TrackedRuns
import Rrelayer.FailedCompetitors
import Rrelayer.ExclusiveCompetition
import Rrelayer.ResolvedCompetition
import Rrelayer.MirroredRows
import Rrelayer.MirroredEntries
import Rrelayer.MirroredRaces
import Rrelayer.MirroredRuns
import Rrelayer.Shutdown
import Rrelayer.RateLimiter
import Rrelayer.RateWindows
import Rrelayer.RateSafety
import Rrelayer.RelayerUsage
import Rrelayer.RateRaces
import Rrelayer.Webhooks
import Rrelayer.WebhookRuns
import Rrelayer.AutomaticTopUp
import Rrelayer.TopUpQueues
import Rrelayer.TopUpChains
import Rrelayer.QueueMoves
import Rrelayer.QueueConservation
import Rrelayer.HeadNonces
import Rrelayer.AttemptFees
import Rrelayer.ExpiredPayloads
import Rrelayer.GasBumps
import Rrelayer.HandedAttempts
import Rrelayer.SafeGasLimits
import Rrelayer.BlobReplacements
import Rrelayer.ReloadedRows
import Rrelayer.AdmissionDigest
import Rrelayer.RepeatedCompetition
import Rrelayer.RepairRaces
import Rrelayer.CacheCoherence
import Rrelayer.CompetitorErrors
import Rrelayer.ApiKeys
import Rrelayer.ResolutionWrites
import Rrelayer.TransactionBlobs
import Rrelayer.RelayerSettings
import Rrelayer.BalanceGate
import Rrelayer.MinedPasses
import Rrelayer.ElapsedTimes
import Rrelayer.RequestPolicy
import Rrelayer.SentRecords
import Rrelayer.CronJobs
import Rrelayer.FallbackFees
import Rrelayer.NonceRuns
import Rrelayer.WalletIndexes
import Rrelayer.Pkcs11Keys
import Rrelayer.TurnkeyAccounts
import Rrelayer.TokenAmounts
import Rrelayer.AuditSnapshots
import Rrelayer.StartupPages
import Rrelayer.WebhookPasses
import Rrelayer.WalletIndexEncoding
import Rrelayer.Intervals
import Rrelayer.KmsRuns
import Rrelayer.Fleet
import Rrelayer.FinalStatuses
import Rrelayer.MinedRows
import Rrelayer.CronSchedule
import Rrelayer.PrivyWallets
import Rrelayer.FireblocksVaults
