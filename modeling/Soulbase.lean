import Soulbase.Foundation.Transition
import Soulbase.Foundation.Program
import Soulbase.Foundation.FiniteMap
import Soulbase.Foundation.MachineInt
import Soulbase.Foundation.Given
import Soulbase.Foundation.Lockstep
import Soulbase.Foundation.Records
import Soulbase.Tx.Memory.OutboxStore
import Soulbase.Tx.Dispatcher
import Soulbase.Tx.Fleet
import Soulbase.Tx.LeaseFencing
import Soulbase.Tx.TerminalStatus
import Soulbase.Tx.Delivery
import Soulbase.Tx.Memory.DeadStore
import Soulbase.Tx.Memory.TxStore
import Soulbase.Tx.DeadLetters
import Soulbase.Storage
import Soulbase.Tx.Idempo
import Soulbase.Tx.Surreal.Mapper
import Soulbase.Tx.Surreal.IdempoStore
import Soulbase.Tx.IdempotencyGrant
import Soulbase.Tx.Memory.IdempoStore
import Soulbase.Tx.IdempotentResults
import Soulbase.Tx.Saga
import Soulbase.Tx.SagaRun
import Soulbase.Tx.SagaPhase
import Soulbase.Tx.SagaShape
import Soulbase.Tx.SagaUndo
import Soulbase.Tx.SagaReplay
import Soulbase.Tx.KeyedLeases
import Soulbase.Tx.DeadLetterTenants
import Soulbase.Tx.DeliveryOrder
import Soulbase.Tx.Replay
import Soulbase.Tx.ReviveOnce
import Soulbase.Tx.SagaTicks
import Soulbase.Foundation.Text
import Soulbase.Foundation.LexicalPath
import Soulbase.Sandbox.Errors
import Soulbase.Sandbox.Exec
import Soulbase.Sandbox.Guard
import Soulbase.Sandbox.Evidence
import Soulbase.Sandbox.Select
import Soulbase.Sandbox.Exec.Fs
import Soulbase.Sandbox.PathConfinement
import Soulbase.Sandbox.Exec.Net
import Soulbase.Sandbox.NetConfinement
import Soulbase.Sandbox.Profile
import Soulbase.Sandbox.Whitelists
import Soulbase.Sandbox.LeastPrivilege
import Soulbase.Sandbox.Manager
import Soulbase.Sandbox.Trace
import Soulbase.Sandbox.ReferenceMonitor
import Soulbase.Sandbox.Closing
import Soulbase.Sandbox.Defaults
import Soulbase.Sandbox.GrantBudget
import Soulbase.Tx.Surreal.IdempoSolo
import Soulbase.Tx.IdempoAgreement
import Soulbase.Tx.Surreal.OutboxStore
import Soulbase.Tx.OutboxAgreement
import Soulbase.Tx.Surreal.DeadStore
import Soulbase.Tx.DeadLetterAgreement
import Soulbase.Tx.Surreal.SagaStore
import Soulbase.Tx.RecordIds
import Soulbase.Tx.Qos
import Soulbase.Tx.InflightBudget
import Soulbase.Foundation.Trail
import Soulbase.Auth.Facade
import Soulbase.Interceptors.Context
import Soulbase.Interceptors.Idempotency
import Soulbase.Interceptors.Chain
import Soulbase.Interceptors.RequestStages
import Soulbase.Auth.Cache
import Soulbase.Interceptors.ResponseStages
import Soulbase.Interceptors.Course
import Soulbase.Interceptors.Service
import Soulbase.Interceptors.AuthorizedReplies
import Soulbase.Interceptors.HandledOnce
import Soulbase.Interceptors.FaithfulReplay
import Soulbase.Interceptors.StampedResponses
import Soulbase.Tools.Errors
import Soulbase.Tools.Manifest
import Soulbase.Tools.Mapping
import Soulbase.Tools.Preflight
import Soulbase.Tools.Invoker
import Soulbase.Tools.Invocations
import Soulbase.Tools.IsolatedResults
import Soulbase.Tools.KeyedOnce
import Soulbase.Tools.SerialExclusion
import Soulbase.Tools.PlannedExecution
import Soulbase.Auth.Authorizations
import Soulbase.Auth.QuotaSoundness
import Soulbase.Auth.CacheTransparency
import Soulbase.Storage.Repository
import Soulbase.Storage.RecordOwnership
import Soulbase.Storage.SurrealRepository
import Soulbase.Storage.TenantWrites
import Soulbase.Storage.OptimisticConcurrency
import Soulbase.Foundation.Condition
import Soulbase.Storage.Filter
import Soulbase.Storage.FilterMeaning
import Soulbase.Storage.SurrealSelect
import Soulbase.Storage.TenantCondition
import Soulbase.Foundation.Paging
import Soulbase.Storage.Pagination
import Soulbase.Storage.InMemoryVector
import Soulbase.Storage.InMemoryGraph
import Soulbase.Storage.Migrations
import Soulbase.Config.SnapshotSwitch
import Soulbase.Tx.RecordLifetime
import Soulbase.Foundation.FirstOfEach
import Soulbase.Tx.SelectMessages
import Soulbase.Tx.LeaseSelection
import Soulbase.Tx.BudgetWindows
import Soulbase.Foundation.Digits
import Soulbase.Sandbox.Addresses
import Soulbase.Sandbox.PrivateAddresses
import Soulbase.Sandbox.EffectEvidence
import Soulbase.Sandbox.ToolBinding
import Soulbase.Foundation.FirstMatch
import Soulbase.Sandbox.CapabilityOrder
import Soulbase.Auth.QuotaArithmetic
import Soulbase.Tx.Retention
import Soulbase.Interceptors.Resilience
import Soulbase.Interceptors.IdempotencyKeys
import Soulbase.Foundation.RealArithmetic
import Soulbase.Tx.Backoff
import Soulbase.Tools.AuditedOutputs
import Soulbase.Json.Equality
import Soulbase.Config.ChangedKeys
import Soulbase.Tools.OwnWhitelist
import Soulbase.Foundation.Nesting
import Soulbase.Json.Places
import Soulbase.Tools.MaskedOutputs
import Soulbase.Interceptors.MaskedBodies
import Soulbase.Config.Defaults
import Soulbase.Config.DefaultOrder
import Soulbase.Config.Enforcement
import Soulbase.Config.Merging
import Soulbase.Envelope
import Soulbase.Sandbox.NormalPaths
import Soulbase.Interceptors.TenantPartitions
import Soulbase.Storage.MigrationTransactions
import Soulbase.Llm
import Soulbase.Storage.FailedWrites
import Soulbase.Llm.Streaming
import Soulbase.Config.Loader
import Soulbase.Config.BootOnly
import Soulbase.Foundation.Potential
import Soulbase.Tx.FleetDelivery
import Soulbase.Tx.Progress
import Soulbase.Tx.SagaAtLeastOnce
import Soulbase.Tx.Worker
import Soulbase.Tx.RuntimeFleet
import Soulbase.Foundation.Permits
import Soulbase.Interceptors.Concurrency
import Soulbase.Foundation.Simulation
import Soulbase.Tx.SagaAgreement
import Soulbase.Config.Sources
import Soulbase.Foundation.Noninterference
import Soulbase.Storage.InMemorySearch
import Soulbase.Storage.TenantViews
import Soulbase.Tx.Transports
import Soulbase.Foundation.Moments
import Soulbase.Tools.RegisteredPlans
import Soulbase.Foundation.Layers
import Soulbase.Storage.SurrealClient
import Soulbase.Storage.SurrealTraffic
import Soulbase.Foundation.Ledger
import Soulbase.Tx.Surreal.OutboxQueries
import Soulbase.Tx.SurrealDelivery
import Soulbase.Foundation.Alike
import Soulbase.Interceptors.PublicErrors
import Soulbase.Gateway.Api
import Soulbase.Gateway.DevMessages
import Soulbase.Storage.RawStatements
