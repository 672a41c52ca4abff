import MollisRuntime.Executors.FunctionExecutor
import MollisRuntime.Executors.Injection
import MollisRuntime.Executors.LegacyAdapter
import MollisRuntime.Executors.Lookup
import MollisRuntime.Executors.Middleware
import MollisRuntime.Executors.Registry
import MollisRuntime.Executors.RetryMiddleware
import MollisRuntime.Executors.TimedPipeline
import MollisRuntime.Executors.Versions
import MollisRuntime.Library.AwaitedCalls
import MollisRuntime.Library.Connection
import MollisRuntime.Library.Descent
import MollisRuntime.Library.Dialogue
import MollisRuntime.Library.Kahn
import MollisRuntime.Library.LockOrder
import MollisRuntime.Library.Machine
import MollisRuntime.Library.MinHeap
import MollisRuntime.Library.OrderedDict
import MollisRuntime.Library.Outputs
import MollisRuntime.Library.Overwriting
import MollisRuntime.Library.Paging
import MollisRuntime.Library.Paths
import MollisRuntime.Library.Pointwise
import MollisRuntime.Library.Precedence
import MollisRuntime.Library.Projection
import MollisRuntime.Library.Statements
import MollisRuntime.Library.TextOrder
import MollisRuntime.Library.TimedCalls
import MollisRuntime.Library.UniqueQueue
import MollisRuntime.Library.Weights
import MollisRuntime.Observability.BusDelivery
import MollisRuntime.Observability.BusProxy
import MollisRuntime.Observability.Counters
import MollisRuntime.Observability.Diagnostics
import MollisRuntime.Observability.Health
import MollisRuntime.Observability.MetricSeries
import MollisRuntime.Observability.Metrics
import MollisRuntime.Observability.ReplayEngine
import MollisRuntime.Observability.SpanContext
import MollisRuntime.Observability.SpanLeaks
import MollisRuntime.Observability.Subscriber
import MollisRuntime.Observability.TraceIndex
import MollisRuntime.Observability.Tracing
import MollisRuntime.Persistence.Archive
import MollisRuntime.Persistence.Boundary
import MollisRuntime.Persistence.Completeness
import MollisRuntime.Persistence.Drift
import MollisRuntime.Persistence.EventLog
import MollisRuntime.Persistence.EventRecords
import MollisRuntime.Persistence.EventRefinement
import MollisRuntime.Persistence.EventTable
import MollisRuntime.Persistence.Events
import MollisRuntime.Persistence.Genesis
import MollisRuntime.Persistence.Interleaving
import MollisRuntime.Persistence.Overlap
import MollisRuntime.Persistence.Pagination
import MollisRuntime.Persistence.Recovery
import MollisRuntime.Persistence.RoundTrip
import MollisRuntime.Persistence.Snapshots
import MollisRuntime.Persistence.State
import MollisRuntime.Persistence.StateStore
import MollisRuntime.Persistence.StoreCalls
import MollisRuntime.Persistence.StoreQueries
import MollisRuntime.Persistence.Transaction
import MollisRuntime.Persistence.WellFormed
import MollisRuntime.Python.Json
import MollisRuntime.Python.Numbers
import MollisRuntime.Python.Values
import MollisRuntime.Runtime.Draining
import MollisRuntime.Runtime.Fulfilment
import MollisRuntime.Runtime.Gate
import MollisRuntime.Runtime.Lifecycle
import MollisRuntime.Runtime.LiveStatus
import MollisRuntime.Runtime.Locks
import MollisRuntime.Runtime.Restarts
import MollisRuntime.Runtime.Submission
import MollisRuntime.Runtime.Wiring
import MollisRuntime.Scheduling.Accounting
import MollisRuntime.Scheduling.Admission
import MollisRuntime.Scheduling.Atomicity
import MollisRuntime.Scheduling.Backlog
import MollisRuntime.Scheduling.Conservation
import MollisRuntime.Scheduling.Crashes
import MollisRuntime.Scheduling.Custody
import MollisRuntime.Scheduling.DelayedRelease
import MollisRuntime.Scheduling.DelayedSet
import MollisRuntime.Scheduling.Engine
import MollisRuntime.Scheduling.EventSourcing
import MollisRuntime.Scheduling.Failures
import MollisRuntime.Scheduling.Handlers
import MollisRuntime.Scheduling.Journal
import MollisRuntime.Scheduling.Load
import MollisRuntime.Scheduling.NoLoss
import MollisRuntime.Scheduling.Policies
import MollisRuntime.Scheduling.PoolLifecycle
import MollisRuntime.Scheduling.PoolStop
import MollisRuntime.Scheduling.Ranking
import MollisRuntime.Scheduling.Recorded
import MollisRuntime.Scheduling.ReferenceQueue
import MollisRuntime.Scheduling.Refinement
import MollisRuntime.Scheduling.Reliable
import MollisRuntime.Scheduling.Resubmission
import MollisRuntime.Scheduling.Retry
import MollisRuntime.Scheduling.RetryBudget
import MollisRuntime.Scheduling.ServiceOrder
import MollisRuntime.Scheduling.Supersession
import MollisRuntime.Scheduling.TaskQueue
import MollisRuntime.Scheduling.Worker
import MollisRuntime.Scheduling.WorkerPool
import MollisRuntime.Task
import MollisRuntime.Workflow.Absorbing
import MollisRuntime.Workflow.Agreement
import MollisRuntime.Workflow.Builder
import MollisRuntime.Workflow.Cancellation
import MollisRuntime.Workflow.Checkpoint
import MollisRuntime.Workflow.Codec
import MollisRuntime.Workflow.Completion
import MollisRuntime.Workflow.Confluence
import MollisRuntime.Workflow.Correlation
import MollisRuntime.Workflow.CycleDetection
import MollisRuntime.Workflow.Delivery
import MollisRuntime.Workflow.Discipline
import MollisRuntime.Workflow.Dispatch
import MollisRuntime.Workflow.Endings
import MollisRuntime.Workflow.InputResolution
import MollisRuntime.Workflow.Interruption
import MollisRuntime.Workflow.Isolation
import MollisRuntime.Workflow.LongestPaths
import MollisRuntime.Workflow.Models
import MollisRuntime.Workflow.NonInterference
import MollisRuntime.Workflow.Orchestrator
import MollisRuntime.Workflow.Pausing
import MollisRuntime.Workflow.Planner
import MollisRuntime.Workflow.Progress
import MollisRuntime.Workflow.Recovery
import MollisRuntime.Workflow.Replay
import MollisRuntime.Workflow.Rounds
import MollisRuntime.Workflow.Runs
import MollisRuntime.Workflow.Sdk
import MollisRuntime.Workflow.Stability
import MollisRuntime.Workflow.Steps
import MollisRuntime.Workflow.TraceCompilation
import MollisRuntime.Workflow.Unvalidated
