import Aegis.Lib.Runs
import Aegis.Lib.Progress
import Aegis.Lib.Table
import Aegis.Lib.Precedes
import Aegis.Lib.Double
import Aegis.Lib.Keyspace
import Aegis.Lib.Broker
import Aegis.Lib.Base64
import Aegis.Lib.Scheduling
import Aegis.Lib.Delimited
import Aegis.Lib.Lines
import Aegis.Lib.Sha256
import Aegis.Go
import Aegis.Request
import Aegis.Auth
import Aegis.Budget
import Aegis.Provider
import Aegis.JsonText
import Aegis.JsonText.WholeFormat
import Aegis.Idempotency
import Aegis.Provider.OpenAI
import Aegis.Provider.Mock
import Aegis.Api.Sse
import Aegis.Api.MockProvider
import Aegis.CircuitBreaker
import Aegis.CircuitBreaker.Reports
import Aegis.CircuitBreaker.Window
import Aegis.RateLimit.Limiter
import Aegis.RateLimit.Limits
import Aegis.RateLimit.Crashes
import Aegis.RateLimit.Admission
import Aegis.Routing
import Aegis.Routing.Capacity
import Aegis.Routing.Prices
import Aegis.Routing.Select
import Aegis.Routing.RoundRobin
import Aegis.Routing.Latency
import Aegis.Events
import Aegis.Evaluation
import Aegis.Persistence.Store
import Aegis.Persistence.Memory
import Aegis.Persistence.MemoryBooks
import Aegis.Persistence.Schema
import Aegis.Persistence.Postgres
import Aegis.Persistence.PostgresSpec
import Aegis.Persistence.Slice
import Aegis.Persistence.Effects
import Aegis.Persistence.Keys
import Aegis.Persistence.Reuse
import Aegis.Persistence.TenantView
import Aegis.Persistence.Isolation
import Aegis.Persistence.MemorySlice
import Aegis.Persistence.Commit
import Aegis.Persistence.Mirror
import Aegis.Persistence.Agreement
import Aegis.Persistence.Lifecycle
import Aegis.Persistence.Evaluations
import Aegis.Persistence.EvaluationEffects
import Aegis.Outbox
import Aegis.Pipeline
import Aegis.Projection
import Aegis.MonthlyBudget
import Aegis.TenantOrder
import Aegis.Gateway.Service
import Aegis.Gateway.Branch
import Aegis.Gateway.System
import Aegis.Gateway.Custody
import Aegis.Gateway.Idempotency
import Aegis.Gateway.Streaming
import Aegis.Gateway.Cancellation
import Aegis.Gateway.AuditFacts
import Aegis.Gateway.Attempts
import Aegis.Gateway.Release
import Aegis.Gateway.Finalization
import Aegis.Gateway.Charging
import Aegis.Gateway.Leases
import Aegis.Gateway.MemoryBudget
import Aegis.Gateway.Faults
import Aegis.Gateway.Failover
import Aegis.Gateway.Backoff
import Aegis.Gateway.Replay
import Aegis.Gateway.Policy
import Aegis.Gateway.Coverage
import Aegis.Gateway.Return
import Aegis.Api.Chat
import Aegis.Admin
import Aegis.Api.Access
import Aegis.Api.Refusals
import Aegis.Deployment
import Aegis.RabbitMQ
import Aegis.RabbitMQ.Confirms
import Aegis.EvaluationJob
import Aegis.Evaluations.System
import Aegis.Evaluations.Commands
import Aegis.Evaluations.Results
import Aegis.Evaluations.Conservation
import Aegis.Evaluations.Termination
import Aegis.Evaluations.Retryable
import Aegis.Evaluations.Acceptance
import Aegis.Evaluations.ManualRetry
import Aegis.Evaluations.Performance
