import StellarForge.Soroban.Contract
import StellarForge.Soroban.Coupling
import StellarForge.Soroban.Frame
import StellarForge.Soroban.Storage
import StellarForge.Soroban.Tiers
import StellarForge.Soroban.Entries
import StellarForge.Soroban.Access
import StellarForge.Soroban.Checked
import StellarForge.Transition.Run
import StellarForge.Transition.Loop
import StellarForge.Concurrency.Process
import StellarForge.Concurrency.Pool
import StellarForge.Concurrency.Fleet
import StellarForge.Collections.Pages
import StellarForge.Collections.Keyset
import StellarForge.Collections.Keyed
import StellarForge.Collections.Expiring
import StellarForge.Collections.Numerals
import StellarForge.Collections.Collect
import StellarForge.Collections.Sorting
import StellarForge.Collections.Windows
import StellarForge.Encoding.Radix
import StellarForge.Encoding.Crc16
import StellarForge.Encoding.Utf16
import StellarForge.Encoding.Double
import StellarForge.Encoding.Decimal
import StellarForge.Apportionment.LargestRemainder
import StellarForge.Factory.Types
import StellarForge.Factory.World
import StellarForge.Factory.Helpers
import StellarForge.Factory.Fee
import StellarForge.Factory.Registry
import StellarForge.Factory.Token
import StellarForge.Factory.Governance
import StellarForge.Factory.Entrypoint
import StellarForge.Factory.Frames
import StellarForge.Factory.Lifetimes
import StellarForge.Factory.Reentry.Nested
import StellarForge.Factory.Reentry.Guarded
import StellarForge.Factory.Reentry.Lock
import StellarForge.Factory.Abstract
import StellarForge.Factory.Refinement.Content
import StellarForge.Factory.Refinement.Helpers
import StellarForge.Factory.Refinement.Registration
import StellarForge.Factory.Refinement.Governance
import StellarForge.Factory.Refinement.Records
import StellarForge.Factory.Refinement.Tokens
import StellarForge.Factory.Refinement.Step
import StellarForge.Factory.Properties.Histories
import StellarForge.Factory.Properties.Calls
import StellarForge.Factory.Properties.Pending
import StellarForge.Factory.Properties.Supply
import StellarForge.Factory.Properties.Allocation
import StellarForge.Factory.Properties.Fees
import StellarForge.Factory.Properties.Enumeration
import StellarForge.Factory.Properties.CreatorLists
import StellarForge.Factory.Properties.TokenUpdates
import StellarForge.Factory.Properties.Isolation
import StellarForge.Factory.Properties.Metadata
import StellarForge.Factory.Properties.CreationOrder
import StellarForge.Factory.Properties.Creation
import StellarForge.Factory.Properties.Growth
import StellarForge.Factory.Properties.CreatedEvents
import StellarForge.Factory.Properties.Upgrade
import StellarForge.Factory.Properties.Rotation
import StellarForge.Factory.Properties.Schema
import StellarForge.Factory.Properties.Settings
import StellarForge.Factory.Properties.StateFrame
import StellarForge.Factory.Properties.Catalog
import StellarForge.Factory.Properties.ChunkedMigration
import StellarForge.Factory.Properties.WellFormed
import StellarForge.Factory.Properties.NestedUpdates
import StellarForge.Factory.Properties.Renewal
import StellarForge.Collections.Table
import StellarForge.Collections.Text
import StellarForge.Submission.Client
import StellarForge.Indexer.Chain
import StellarForge.Indexer.Ingest
import StellarForge.Indexer.Readiness
import StellarForge.Indexer.Writes
import StellarForge.Indexer.Cycles
import StellarForge.Indexer.Completeness
import StellarForge.Indexer.Convergence
import StellarForge.Indexer.Replay
import StellarForge.Indexer.TokenStore
import StellarForge.Indexer.PostgresStore
import StellarForge.Indexer.StoreAgreement
import StellarForge.Indexer.EventPages
import StellarForge.Indexer.TokenWalk
import StellarForge.Pinning.LiveContent
import StellarForge.Pinning.GuardRails
import StellarForge.Server.Services
import StellarForge.Server.RateLimit
import StellarForge.Server.Jwt
import StellarForge.Server.Challenge
import StellarForge.Server.Properties.WriteLog
import StellarForge.Server.Properties.RateBound
import StellarForge.Server.Properties.SteadyClient
import StellarForge.Server.Properties.Lockout
import StellarForge.Server.Properties.PendingChallenge
import StellarForge.Server.Properties.WalletAuth
import StellarForge.Server.PinOwnership
import StellarForge.Server.Properties.CidOwnership
import StellarForge.Submission.Network
import StellarForge.Submission.RetrySafety
import StellarForge.Submission.Rejection
import StellarForge.Submission.Polling
import StellarForge.Ipfs.Service
import StellarForge.Ipfs.Reclaim
import StellarForge.Ipfs.Metadata
import StellarForge.Ipfs.Integrity
import StellarForge.Ipfs.ImageHeader
import StellarForge.Ipfs.RoundTrip
import StellarForge.Ipfs.ReaderAgreement
import StellarForge.Frontend.Calls
import StellarForge.Frontend.Forms
import StellarForge.Frontend.ErrorText
import StellarForge.Frontend.Handlers
import StellarForge.Frontend.Page
import StellarForge.Frontend.Confirmation
import StellarForge.Frontend.Reads
import StellarForge.Frontend.NetworkCoherence
import StellarForge.Frontend.Wallet
import StellarForge.Frontend.WalletSession
import StellarForge.Frontend.Amounts
import StellarForge.Frontend.Addresses
import StellarForge.Frontend.Events
import StellarForge.Frontend.EventHistory
import StellarForge.Frontend.TokenReads
import StellarForge.Frontend.CreatorWalk
import StellarForge.Frontend.TokenForm
import StellarForge.Frontend.TokenIndex
import StellarForge.Frontend.TokenEvents
import StellarForge.Frontend.ExplorerSession
import StellarForge.Frontend.TokenPages
import StellarForge.Frontend.TransactionHistory
import StellarForge.Frontend.CsvExport
import StellarForge.Transition.Throughout
import StellarForge.Frontend.StatusPolling
import StellarForge.Frontend.UploadToken
import StellarForge.Frontend.BalanceSession
import StellarForge.Concurrency.KeyedRead
import StellarForge.Concurrency.Rejections
import StellarForge.Frontend.KeyedReads
import StellarForge.Frontend.TokenDetail
import StellarForge.Indexer.Interrupted
import StellarForge.Indexer.CrashSafety
import StellarForge.Indexer.Undisturbed
import StellarForge.Frontend.FeeDisplay
import StellarForge.Encoding.Json
import StellarForge.Frontend.GatewayUrl
import StellarForge.Frontend.TokenWindows
import StellarForge.Frontend.TokenDashboard
import StellarForge.Frontend.SupplyForms
import StellarForge.Indexer.Health
import StellarForge.Frontend.ErrorReports
import StellarForge.Indexer.ReadApi
import StellarForge.Indexer.Provenance
import StellarForge.Frontend.TokenSource
import StellarForge.Frontend.TokenIdentity
import StellarForge.Factory.Properties.Views
import StellarForge.Factory.Properties.EventRecords
import StellarForge.System.Deployment
import StellarForge.System.IndexSoundness
import StellarForge.System.ServedTokens
import StellarForge.Soroban.Lockstep
import StellarForge.Factory.Properties.Layouts
import StellarForge.Factory.Properties.LazyMigration
import StellarForge.Indexer.Checkpoints
import StellarForge.Indexer.CycleEnds
import StellarForge.Indexer.Retention
import StellarForge.System.EventNode
import StellarForge.System.CatchUp
