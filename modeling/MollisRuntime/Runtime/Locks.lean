import MollisRuntime.Library.LockOrder

/-!
The locks of the runtime. Every function that takes a lock, joins a thread or calls
such a function is given by its blocks, in the order of its text. Threads that use
the runtime and the threads that it starts never wait for each other in a circle,
and tasks may use the runtime themselves, as long as they do not stop it.
-/
namespace MollisRuntime.Locks

open Locking

/-- One lock for each object of the class. `poolMetrics` is the second lock of a pool;
`store` is shared by the state store and the event store. -/
inductive LockClass
  | orchestrator
  | scheduler
  | pool
  | worker
  | tracker
  | timeouts
  | queue
  | poolMetrics
  | bus
  | health
  | metrics
  | tracer
  | store
  deriving DecidableEq

/-- Locks are taken in this order. -/
def LockClass.rank : LockClass → ℕ
  | orchestrator => 0
  | scheduler => 1
  | pool => 2
  | worker => 3
  | tracker => 4
  | timeouts => 5
  | queue => 6
  | poolMetrics => 7
  | bus => 8
  | health => 9
  | metrics => 10
  | tracer => 11
  | store => 12

abbrev Skeleton := Code LockClass

open Code (sequence block loop joins)

/-- `with self._lock:` around code that takes no lock. -/
def guarded (c : LockClass) : Skeleton := block c []

section Storing

/-- The methods of the SQLite event store, each under the lock as a whole. -/
def SQLiteEventStore.append : Skeleton := guarded .store
def SQLiteEventStore.appendBatch : Skeleton := guarded .store
def SQLiteEventStore.read : Skeleton := guarded .store
def SQLiteEventStore.truncate : Skeleton := guarded .store

/-- `with self.transaction():` in a method of the state store. -/
def SQLiteStateStore.call : Skeleton := guarded .store

def HealthMonitor.onEvent : Skeleton := guarded .health
def HealthMonitor.checkHealth : Skeleton := guarded .health
def MetricsRegistry.call : Skeleton := guarded .metrics
def Tracer.call : Skeleton := guarded .tracer

def EventStoreSubscriber.call : Skeleton := SQLiteEventStore.append

def ObservabilitySubscriber.call : Skeleton :=
  sequence [HealthMonitor.onEvent, MetricsRegistry.call, Tracer.call]

/-- The subscribers are copied under the lock and called without it. -/
def RuntimeEventBus.publish : Skeleton :=
  sequence [guarded .bus, loop [EventStoreSubscriber.call, ObservabilitySubscriber.call]]

def RuntimeEventBus.batchPublish : Skeleton := loop [RuntimeEventBus.publish]
def RuntimeEventBus.subscribe : Skeleton := guarded .bus

/-- `self._store.event_store` is the SQLite store or the proxy of a bus. -/
def EventStore.append : Skeleton := sequence [SQLiteEventStore.append, RuntimeEventBus.publish]

def EventStore.appendBatch : Skeleton :=
  sequence [SQLiteEventStore.appendBatch, RuntimeEventBus.batchPublish]

end Storing

section Scheduling

def InMemoryTaskQueue.enqueue : Skeleton := block .queue [EventStore.append]
def InMemoryTaskQueue.dequeue : Skeleton := block .queue [EventStore.append]
def InMemoryTaskQueue.cancel : Skeleton := block .queue [EventStore.append]

/-- peek, lookup, contains, get_metrics, size and is_empty. -/
def InMemoryTaskQueue.read : Skeleton := guarded .queue

def DelayedTaskTracker.start : Skeleton := guarded .tracker
def DelayedTaskTracker.stop : Skeleton := sequence [guarded .tracker, joins]
def DelayedTaskTracker.size : Skeleton := guarded .tracker

def IntelligentScheduler.onDelayedTaskReady : Skeleton :=
  sequence [InMemoryTaskQueue.enqueue, EventStore.append]

def DelayedTaskTracker.addDelayedTask : Skeleton :=
  sequence [IntelligentScheduler.onDelayedTaskReady, guarded .tracker]

def DelayedTaskTracker.runLoop : Skeleton :=
  loop [guarded .tracker, loop [IntelligentScheduler.onDelayedTaskReady], guarded .tracker]

def IntelligentScheduler.handleTaskFailure : Skeleton :=
  sequence [DelayedTaskTracker.addDelayedTask, EventStore.append, EventStore.append,
    EventStore.append]

def IntelligentScheduler.handleTaskTimeout : Skeleton :=
  sequence [guarded .poolMetrics, EventStore.append, EventStore.append,
    IntelligentScheduler.handleTaskFailure]

def Worker.start : Skeleton := guarded .worker
def Worker.stop : Skeleton := guarded .worker
def Worker.join : Skeleton := sequence [guarded .worker, joins]

def WorkerPool.start : Skeleton := block .pool [loop [Worker.start], loop [EventStore.append]]

/-- The join of the supervisor gives up after two seconds. -/
def WorkerPool.stop : Skeleton :=
  sequence [guarded .pool, loop [Worker.stop], loop [Worker.join, EventStore.append]]

def WorkerPool.submit : Skeleton := guarded .pool
def WorkerPool.activeWorkers : Skeleton := guarded .pool
def WorkerPool.idleWorkers : Skeleton := guarded .pool
def WorkerPool.statistics : Skeleton := sequence [guarded .pool, guarded .poolMetrics]

def WorkerPool.supervise : Skeleton :=
  loop [guarded .pool, block .pool [loop [EventStore.append, EventStore.append, Worker.start]]]

def WorkerPool.onTaskCompleted : Skeleton := guarded .poolMetrics

def WorkerPool.onTaskFailed : Skeleton :=
  sequence [guarded .pool, guarded .poolMetrics, IntelligentScheduler.handleTaskFailure]

/-- `execute` is what the executor does with the task. -/
def Worker.run (execute : Skeleton) : Skeleton :=
  sequence [
    loop [
      guarded .worker,
      guarded .worker, EventStore.append, EventStore.append,
      execute, guarded .worker, EventStore.append, WorkerPool.onTaskCompleted, guarded .worker,
      WorkerPool.onTaskFailed, guarded .worker,
      guarded .worker],
    guarded .worker]

def TimeoutManager.start : Skeleton := guarded .timeouts
def TimeoutManager.stop : Skeleton := sequence [guarded .timeouts, joins]

def TimeoutManager.runLoop : Skeleton :=
  loop [WorkerPool.activeWorkers,
    loop [guarded .worker, guarded .worker, IntelligentScheduler.handleTaskTimeout]]

def IntelligentScheduler.start : Skeleton :=
  block .scheduler [DelayedTaskTracker.start, TimeoutManager.start, EventStore.append]

def IntelligentScheduler.stop : Skeleton :=
  sequence [guarded .scheduler, DelayedTaskTracker.stop, TimeoutManager.stop, joins,
    EventStore.append]

def IntelligentScheduler.schedule : Skeleton :=
  sequence [DelayedTaskTracker.addDelayedTask, EventStore.append, InMemoryTaskQueue.enqueue]

def IntelligentScheduler.getMetrics : Skeleton :=
  sequence [InMemoryTaskQueue.read, WorkerPool.statistics, DelayedTaskTracker.size]

def IntelligentScheduler.runLoop : Skeleton :=
  loop [WorkerPool.idleWorkers, InMemoryTaskQueue.read, InMemoryTaskQueue.dequeue,
    WorkerPool.submit]

end Scheduling

section Workflows

def WorkflowOrchestrator.checkpointWorkflow : Skeleton := SQLiteStateStore.call

def WorkflowOrchestrator.dispatchEligibleNodes : Skeleton :=
  sequence [loop [IntelligentScheduler.schedule], WorkflowOrchestrator.checkpointWorkflow]

/-- start_workflow, resume_workflow and on_runtime_event. -/
def WorkflowOrchestrator.advance : Skeleton :=
  block .orchestrator [WorkflowOrchestrator.checkpointWorkflow,
    WorkflowOrchestrator.dispatchEligibleNodes]

def WorkflowOrchestrator.pauseWorkflow : Skeleton :=
  block .orchestrator [WorkflowOrchestrator.checkpointWorkflow]

def WorkflowOrchestrator.cancelWorkflow : Skeleton :=
  block .orchestrator [loop [InMemoryTaskQueue.read, InMemoryTaskQueue.cancel],
    WorkflowOrchestrator.checkpointWorkflow]

def WorkflowOrchestrator.recoverWorkflow : Skeleton :=
  block .orchestrator [SQLiteEventStore.read, WorkflowOrchestrator.dispatchEligibleNodes]

end Workflows

section Threads

def RecoveryManager.recover : Skeleton := sequence [SQLiteStateStore.call, SQLiteEventStore.read]

def Runtime.submitTask : Skeleton := sequence [EventStore.append, IntelligentScheduler.schedule]

/-- What can be called without stopping the runtime. -/
def calls : List Skeleton :=
  [Runtime.submitTask, IntelligentScheduler.schedule, IntelligentScheduler.getMetrics,
    InMemoryTaskQueue.enqueue, InMemoryTaskQueue.dequeue, InMemoryTaskQueue.cancel,
    InMemoryTaskQueue.read, WorkerPool.submit, WorkerPool.statistics, WorkerPool.activeWorkers,
    WorkerPool.idleWorkers, DelayedTaskTracker.addDelayedTask, DelayedTaskTracker.size,
    WorkflowOrchestrator.advance, WorkflowOrchestrator.pauseWorkflow,
    WorkflowOrchestrator.cancelWorkflow, WorkflowOrchestrator.recoverWorkflow,
    EventStore.append, EventStore.appendBatch, SQLiteEventStore.read, SQLiteEventStore.truncate,
    SQLiteStateStore.call, RecoveryManager.recover, RuntimeEventBus.subscribe,
    RuntimeEventBus.publish, RuntimeEventBus.batchPublish, HealthMonitor.checkHealth,
    MetricsRegistry.call, Tracer.call]

/-- A task may itself use the runtime. -/
def execute : Skeleton := loop calls

def Runtime.executeTask : Skeleton := execute

def Runtime.start : Skeleton :=
  sequence [WorkerPool.start, IntelligentScheduler.start, EventStore.append]

def Runtime.stop : Skeleton :=
  sequence [IntelligentScheduler.stop, WorkerPool.stop, EventStore.append]

/-- A thread that uses the runtime, in any way and as long as it wants. -/
def client : Skeleton :=
  loop (calls ++ [Runtime.executeTask, Runtime.start, Runtime.stop, WorkerPool.start,
    WorkerPool.stop, IntelligentScheduler.start, IntelligentScheduler.stop,
    DelayedTaskTracker.start, DelayedTaskTracker.stop, TimeoutManager.start,
    TimeoutManager.stop])

/-- The threads that the runtime starts. -/
inductive Background
  | worker
  | supervisor
  | orchestration
  | delayed
  | monitor

def Background.code : Background → Skeleton
  | worker => Worker.run execute
  | supervisor => WorkerPool.supervise
  | orchestration => IntelligentScheduler.runLoop
  | delayed => DelayedTaskTracker.runLoop
  | monitor => TimeoutManager.runLoop

inductive ThreadAction
  | client
  | background (thread : Background)
  | turn (i : ℕ) (choice : Choice)

def ThreadAction.toAction : ThreadAction → Action LockClass
  | client => .spawn false Locks.client
  | background thread => .spawn true thread.code
  | turn i choice => .turn i choice

/-- Threads may come at any time. -/
def run (actions : List ThreadAction) : System LockClass :=
  (actions.map ThreadAction.toAction).foldl System.step []

theorem ordered_client : client.ordered LockClass.rank true 0 = true := by decide +kernel

theorem ordered_background (thread : Background) :
    thread.code.ordered LockClass.rank false 0 = true := by
  cases thread <;> decide +kernel

/-- However the threads follow each other: a lock is in the hands of one thread, no
thread waits for itself through others, and behind each that waits for a lock or
for the end of a thread there is one that can go on. -/
theorem runtime_deadlock_free (actions : List ThreadAction) : DeadlockFree (run actions) := by
  suffices h : ∀ a ∈ actions.map ThreadAction.toAction, a.Ordered LockClass.rank from
    (safe_run h).deadlockFree
  intro a ha
  obtain ⟨action, -, rfl⟩ := List.mem_map.mp ha
  cases action with
  | client => exact ordered_client
  | background thread => exact ordered_background thread
  | turn i choice => trivial

end Threads

end MollisRuntime.Locks
