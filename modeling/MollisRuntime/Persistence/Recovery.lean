import MollisRuntime.Persistence.StateStore

/-!
RecoveryManager. The state is rebuilt from the saved one, or from nothing, by
applying events to the local variables of `recover`; they are packed into a new
runtime state at the end. After a saved state the events are selected by its
timestamp and read with the default limit of the event store.
-/
namespace MollisRuntime.Persistence

open Ordered Python

inductive RecoveryPolicy
  | fromLatestSnapshot
  | fromGenesis

def RecoveryPolicy.value : RecoveryPolicy → String
  | .fromLatestSnapshot => "FROM_LATEST_SNAPSHOT"
  | .fromGenesis => "FROM_GENESIS"

structure RecoveryReport where
  success : Bool
  policyApplied : String
  snapshotLoaded : Bool
  snapshotTimestamp : Option String
  eventsReplayedCount : ℕ
  tasksRecoveredCount : ℕ
  workersRecoveredCount : ℕ
  durationSeconds : ℚ

/-- What one recovery reads from the clock. -/
structure Clock where
  loading : Timestamp
  starting : Timestamp
  packing : Timestamp
  duration : ℚ

/-- The local variables of `recover` that the events change. -/
structure Reconstruction where
  tasks : Dict String TaskExecutionState
  workers : Dict String WorkerStateSnapshot
  queuedTaskIds : List String
  queueSize : ℤ
  schedStarted : Bool
  delayedIds : List String
  activeTimeouts : Dict String ℚ

/-- `if key in d: d[key] = dataclass_replace(d[key], ...)` -/
def replaceAt {α : Type} (d : Dict String α) (key : String) (f : α → α) : Dict String α :=
  match d.get? key with
  | some a => d.set key (f a)
  | none => d

namespace Reconstruction

def unpack (base : RuntimeState) : Reconstruction where
  tasks := base.tasks
  workers := base.workers
  queuedTaskIds := base.queue.queuedTaskIds
  queueSize := base.queue.size
  schedStarted := base.scheduler.started
  delayedIds := base.scheduler.delayedTaskIds
  activeTimeouts := base.scheduler.activeTimeouts

def pack (r : Reconstruction) (base : RuntimeState) (now : Timestamp) : RuntimeState where
  timestamp := now.val
  tasks := r.tasks
  workers := r.workers
  queue :=
    { queuedTaskIds := r.queuedTaskIds
      size := r.queueSize
      capacity := base.queue.capacity
      policyType := base.queue.policyType
      version := base.queue.version }
  scheduler :=
    { started := r.schedStarted
      uptimeSeconds := base.scheduler.uptimeSeconds
      delayedTaskIds := r.delayedIds
      activeTimeouts := r.activeTimeouts
      version := base.scheduler.version }

def enqueue (r : Reconstruction) (taskId : String) : Reconstruction :=
  let ids := if taskId ∈ r.queuedTaskIds then r.queuedTaskIds else r.queuedTaskIds ++ [taskId]
  { r with queuedTaskIds := ids, queueSize := ids.length }

def unqueue (r : Reconstruction) (taskId : String) : Reconstruction :=
  let ids := r.queuedTaskIds.erase taskId
  { r with queuedTaskIds := ids, queueSize := ids.length }

def changeTask (r : Reconstruction) (taskId : String)
    (f : TaskExecutionState → TaskExecutionState) : Reconstruction :=
  { r with tasks := replaceAt r.tasks taskId f }

def changeWorker (r : Reconstruction) (workerId : String)
    (f : WorkerStateSnapshot → WorkerStateSnapshot) : Reconstruction :=
  { r with workers := replaceAt r.workers workerId f }

/-- A task that has ended leaves the queue. -/
def finish (r : Reconstruction) (taskId : String)
    (f : TaskExecutionState → TaskExecutionState) : Reconstruction :=
  (r.changeTask taskId f).unqueue taskId

/-- One turn of the loop over the events. -/
def apply (r : Reconstruction) (event : RuntimeEvent) : Reconstruction :=
  match event.kind with
  | .taskSubmitted taskId title taskType =>
      { r with tasks := r.tasks.set taskId {
          taskId, title, taskType
          status := "Pending"
          createdAt := event.timestamp
          metadata := event.metadata } }
  | .taskQueued taskId =>
      (r.enqueue taskId).changeTask taskId fun t => { t with status := "Pending" }
  | .taskDequeued taskId => r.unqueue taskId
  | .taskStarted taskId =>
      r.changeTask taskId fun t =>
        { t with status := "Running", startedAt := some event.timestamp }
  | .taskCompleted taskId =>
      r.finish taskId fun t =>
        { t with status := "Completed", completedAt := some event.timestamp }
  | .taskFailed taskId errorMessage =>
      r.finish taskId fun t =>
        { t with
          status := "Failed", completedAt := some event.timestamp
          errorMessage := some errorMessage }
  | .taskCancelled taskId =>
      r.finish taskId fun t =>
        { t with
          status := "Failed", completedAt := some event.timestamp
          errorMessage := some "Task cancelled." }
  | .taskTimedOut taskId =>
      r.finish taskId fun t =>
        { t with
          status := "Failed", completedAt := some event.timestamp
          errorMessage := some "Task timed out." }
  | .taskRetried taskId retryCount =>
      r.changeTask taskId fun t => { t with status := "Pending", retryCount }
  | .workerStarted workerId =>
      { r with workers := r.workers.set workerId {
          workerId
          state := "idle"
          currentTaskId := none
          heartbeatTime := event.timestamp
          tasksProcessed := 0
          failures := 0
          startTime := event.timestamp } }
  | .workerStopped workerId => r.changeWorker workerId fun w => { w with state := "stopped" }
  | .workerHeartbeat workerId heartbeatTime =>
      r.changeWorker workerId fun w => { w with heartbeatTime }
  | .workerFailed workerId _ =>
      r.changeWorker workerId fun w => { w with state := "failed", failures := w.failures + 1 }
  | .workerRecovered workerId => r.changeWorker workerId fun w => { w with state := "idle" }
  | .schedulerStarted => { r with schedStarted := true }
  | .schedulerStopped => { r with schedStarted := false }
  | .retryScheduled taskId _ =>
      if taskId ∈ r.delayedIds then r else { r with delayedIds := r.delayedIds ++ [taskId] }
  | .timeoutTriggered taskId timeoutSeconds =>
      { r with activeTimeouts := r.activeTimeouts.set taskId timeoutSeconds }
  | .delayedTaskReleased taskId => { r with delayedIds := r.delayedIds.erase taskId }
  | .runtimeStarted | .runtimeStopped | .runtimeRecovered | .snapshotCreated _
  | .snapshotLoaded _ => r

end Reconstruction

namespace RecoveryManager

/-- The base state when none is loaded. -/
def genesisState (now : Timestamp) : RuntimeState where
  timestamp := now.val
  tasks := .empty
  workers := .empty
  queue := { queuedTaskIds := [], size := 0, capacity := none, policyType := "FIFO" }
  scheduler :=
    { started := false, uptimeSeconds := 0, delayedTaskIds := [], activeTimeouts := .empty }

def eventsToReplay (log : EventStore) (loaded : Option RuntimeState) : List RuntimeEvent :=
  match loaded with
  | some base =>
    if base.timestamp ≠ "" then log.streamFrom base.timestamp else log.stream 100000
  | none => log.stream 100000

def recover (store : StateStore) (policy : RecoveryPolicy) (clock : Clock) :
    Except PyError (RuntimeState × RecoveryReport) := do
  let loaded ← match policy with
    | .fromLatestSnapshot => store.loadRuntimeState clock.loading
    | .fromGenesis => pure none
  let base := loaded.getD (genesisState clock.starting)
  let events := eventsToReplay store.eventStore loaded
  let r := events.foldl Reconstruction.apply (.unpack base)
  return (r.pack base clock.packing, {
    success := true
    policyApplied := policy.value
    snapshotLoaded := loaded.isSome
    snapshotTimestamp := loaded.map RuntimeState.timestamp
    eventsReplayedCount := events.length
    tasksRecoveredCount := r.tasks.entries.length
    workersRecoveredCount := r.workers.entries.length
    durationSeconds := clock.duration })

/-- The state that a recovery returns. -/
def recoveredState (store : StateStore) (policy : RecoveryPolicy) (clock : Clock) :
    Except PyError RuntimeState :=
  Prod.fst <$> recover store policy clock

end RecoveryManager

section Selection

open RecoveryManager

variable {store saved : StateStore} {state : RuntimeState}

theorem recoveredState_genesis (store : StateStore) (clock : Clock) :
    recoveredState store .fromGenesis clock =
      .ok (((store.eventStore.stream 100000).foldl Reconstruction.apply
        (.unpack (genesisState clock.starting))).pack (genesisState clock.starting)
          clock.packing) := rfl

theorem RuntimeState.stamp_ne_empty (state : RuntimeState) (now : Timestamp) :
    state.stamp now ≠ "" := by
  unfold RuntimeState.stamp
  split
  · exact now.ne_empty
  · assumption

/-- The state that is loaded after a save. -/
def reloaded (state : RuntimeState) (now : Timestamp) : RuntimeState where
  timestamp := state.stamp now
  tasks := savedTasks state
  workers := savedWorkers state
  queue := state.queue
  scheduler := state.scheduler

theorem recoveredState_snapshot (h : store.saveRuntimeState state = .ok saved)
    (log : EventStore) (clock : Clock) :
    recoveredState { saved with eventStore := log } .fromLatestSnapshot clock =
      .ok (((log.streamFrom (state.stamp clock.loading)).foldl Reconstruction.apply
        (.unpack (reloaded state clock.loading))).pack (reloaded state clock.loading)
          clock.packing) := by
  have hload := loadRuntimeState_saved h log clock.loading
  have hevents : eventsToReplay log (some (reloaded state clock.loading)) =
      log.streamFrom (state.stamp clock.loading) :=
    if_pos (state.stamp_ne_empty clock.loading)
  simp only [recoveredState, recover, hload, ok_bind]
  rw [← hevents]
  rfl

end Selection

end MollisRuntime.Persistence
