import Mathlib.Algebra.Ring.Int.Defs
import MollisRuntime.Persistence.State

/-!
The SQLite state store. Saving clears the tables of the tasks and the workers
and writes all rows anew in one transaction, so a save that raises leaves the
store as it was. A JSON text in a column is represented by the value it denotes.
-/
namespace MollisRuntime.Persistence

open Ordered Python
open Workflow (encodeOptStr encodeStrs)

/-- The columns of one row, by name. -/
abbrev Row := List (String × Value)

/-- Rows by primary key, in the order of their row ids. -/
abbrev Table := Dict String Row

/-- The parameters of an INSERT; sqlite3 takes an int only in 64 bits. -/
def bindParams (row : Row) : Except PyError Row :=
  if row.all fun e => fits e.2 then .ok row
  else .error (.overflowError "Python int too large to convert to SQLite INTEGER")
where
  fits : Value → Bool
    | .int n => decide (-2 ^ 63 ≤ n ∧ n < 2 ^ 63)
    | _ => true

theorem bindParams_eq_ok {row bound : Row} (h : bindParams row = .ok bound) : bound = row := by
  unfold bindParams at h
  split at h
  · exact (Except.ok.inj h).symm
  · cases h

theorem bindParams_ok {row : Row} (h : row.all (fun e => bindParams.fits e.2) = true) :
    bindParams row = .ok row := if_pos h

theorem bindParams_returns_iff (row : Row) :
    (∃ bound, bindParams row = .ok bound) ↔ row.all (fun e => bindParams.fits e.2) = true := by
  unfold bindParams
  split <;> rename_i hfits <;> simp [hfits]

namespace SQLiteTaskStateRepository

def columns (t : TaskExecutionState) : Row :=
  [("task_id", .str t.taskId), ("title", .str t.title), ("task_type", .str t.taskType),
    ("status", .str t.status), ("created_at", .str t.createdAt),
    ("started_at", encodeOptStr t.startedAt), ("completed_at", encodeOptStr t.completedAt),
    ("retry_count", .int t.retryCount), ("metadata", encodeAttrs t.metadata),
    ("error_message", encodeOptStr t.errorMessage), ("version", .int t.version)]

/-- INSERT OR REPLACE: a replaced row gets a new row id. -/
def save (table : Table) (t : TaskExecutionState) : Except PyError Table := do
  let _ ← jsonPayload (encodeAttrs t.metadata)
  let row ← bindParams (columns t)
  return table.replace t.taskId row

/-- `json.loads(data["metadata"]) if data.get("metadata") else {}` -/
def loadsMetadata (row : Row) : Row :=
  upsert "metadata"
    (match getD row "metadata" .none with
      | .none => .dict []
      | metadata => metadata) row

def listAll (table : Table) : Except PyError (List TaskExecutionState) :=
  table.entries.mapM fun e => TaskExecutionState.fromDict (loadsMetadata e.2)

end SQLiteTaskStateRepository

namespace SQLiteWorkerStateRepository

def columns (w : WorkerStateSnapshot) : Row :=
  [("worker_id", .str w.workerId), ("state", .str w.state),
    ("current_task_id", encodeOptStr w.currentTaskId),
    ("heartbeat_time", .str w.heartbeatTime), ("tasks_processed", .int w.tasksProcessed),
    ("failures", .int w.failures), ("start_time", .str w.startTime),
    ("version", .int w.version)]

def save (table : Table) (w : WorkerStateSnapshot) : Except PyError Table := do
  let row ← bindParams (columns w)
  return table.replace w.workerId row

def listAll (table : Table) : Except PyError (List WorkerStateSnapshot) :=
  table.entries.mapM fun e => WorkerStateSnapshot.fromDict e.2

end SQLiteWorkerStateRepository

/-- The tables that the runtime state is kept in, the snapshots and the events.
The queue and the scheduler have a single row each. -/
structure StateStore where
  tasks : Table := .empty
  workers : Table := .empty
  queueState : Option Row := none
  schedulerState : Option Row := none
  snapshots : Table := .empty
  eventStore : EventStore := .empty

namespace StateStore

def queueColumns (queue : QueueStateSnapshot) : Row :=
  [("id", .int 1), ("queued_task_ids", encodeStrs queue.queuedTaskIds),
    ("size", .int queue.size), ("capacity", encodeOptInt queue.capacity),
    ("policy_type", .str queue.policyType), ("version", .int queue.version)]

def schedulerColumns (state : RuntimeState) : Row :=
  [("id", .int 1), ("started", .int (if state.scheduler.started then 1 else 0)),
    ("uptime_seconds", .float state.scheduler.uptimeSeconds),
    ("delayed_task_ids", encodeStrs state.scheduler.delayedTaskIds),
    ("active_timeouts", encodeDict .float state.scheduler.activeTimeouts),
    ("timestamp", .str state.timestamp), ("version", .int state.scheduler.version)]

def saveRuntimeState (store : StateStore) (state : RuntimeState) :
    Except PyError StateStore := do
  let tasks ← state.tasks.entries.foldlM
    (fun table e => SQLiteTaskStateRepository.save table e.2) .empty
  let workers ← state.workers.entries.foldlM
    (fun table e => SQLiteWorkerStateRepository.save table e.2) .empty
  let queueState ← bindParams (queueColumns state.queue)
  let schedulerState ← bindParams (schedulerColumns state)
  return { store with
    tasks, workers, queueState := some queueState, schedulerState := some schedulerState }

/-- `s_data["started"] = bool(s_data["started"])` -/
def loadsStarted (row : Row) : Except PyError Row := do
  let started ← getItem row "started"
  return upsert "started" (.bool started.truthy) row

/-- `s_data.get("timestamp") or datetime.now().isoformat()` -/
def loadsTimestamp (row : Row) (now : Timestamp) : Except PyError String :=
  let timestamp := getD row "timestamp" .none
  if timestamp.truthy then timestamp.asStr else .ok now.val

def loadRuntimeState (store : StateStore) (now : Timestamp) :
    Except PyError (Option RuntimeState) :=
  match store.queueState with
  | none => .ok none
  | some queueRow => do
    let queue ← QueueStateSnapshot.fromDict queueRow
    match store.schedulerState with
    | none => return none
    | some schedulerRow => do
      let scheduler ← SchedulerStateSnapshot.fromDict (← loadsStarted schedulerRow)
      let timestamp ← loadsTimestamp schedulerRow now
      let tasks ← SQLiteTaskStateRepository.listAll store.tasks
      let workers ← SQLiteWorkerStateRepository.listAll store.workers
      return some {
        timestamp
        tasks := .ofList (tasks.map fun t => (t.taskId, t))
        workers := .ofList (workers.map fun w => (w.workerId, w))
        queue
        scheduler }

end StateStore

section Rows

theorem fromDict_columns (t : TaskExecutionState) : TaskExecutionState.fromDict
    (SQLiteTaskStateRepository.loadsMetadata (SQLiteTaskStateRepository.columns t)) = .ok t := by
  have hmetadata := decodeAttrs_encodeAttrs t.metadata
  have hkept : SQLiteTaskStateRepository.loadsMetadata (SQLiteTaskStateRepository.columns t) =
      SQLiteTaskStateRepository.columns t := rfl
  rw [hkept]
  simp [TaskExecutionState.fromDict, SQLiteTaskStateRepository.columns, getItem, getD, lookup,
    Value.asStr, Value.asInt, hmetadata]

theorem workerFromDict_columns (w : WorkerStateSnapshot) :
    WorkerStateSnapshot.fromDict (SQLiteWorkerStateRepository.columns w) = .ok w := by
  simp [WorkerStateSnapshot.fromDict, SQLiteWorkerStateRepository.columns, getItem, getD, lookup,
    Value.asStr, Value.asInt]

theorem queueFromDict_columns (q : QueueStateSnapshot) :
    QueueStateSnapshot.fromDict (StateStore.queueColumns q) = .ok q := by
  simp [QueueStateSnapshot.fromDict, StateStore.queueColumns, getItem, getD, lookup,
    Value.asStr, Value.asInt]

theorem schedulerFromDict_columns (state : RuntimeState) :
    (StateStore.loadsStarted (StateStore.schedulerColumns state) >>=
      SchedulerStateSnapshot.fromDict) = .ok state.scheduler := by
  have htimeouts := decodeDict_encodeDict Value.float Value.asFloat (fun _ => rfl)
    state.scheduler.activeTimeouts
  have hstarted : StateStore.loadsStarted (StateStore.schedulerColumns state) =
      .ok (upsert "started" (.bool state.scheduler.started)
        (StateStore.schedulerColumns state)) := by
    cases hs : state.scheduler.started <;>
      simp [StateStore.loadsStarted, StateStore.schedulerColumns, getItem, lookup, hs,
        Value.truthy]
  rw [hstarted]
  simp [SchedulerStateSnapshot.fromDict, StateStore.schedulerColumns, upsert, getItem, getD,
    lookup, Value.asBool, Value.asFloat, Value.asInt, htimeouts]

end Rows

section Saving

/-- Rows written one after the other are the rows of the values under their keys. -/
theorem foldlM_save {α : Type} {save : Table → α → Except PyError Table} (key : α → String)
    (columns : α → Row)
    (hsave : ∀ table table' a, save table a = .ok table' →
      table' = table.replace (key a) (columns a))
    (entries : List (String × α)) {d : Dict String α} {table : Table}
    (h : entries.foldlM (fun table e => save table e.2) (d.mapVal columns) = .ok table) :
    table = (Dict.rekey key entries d).mapVal columns := by
  induction entries generalizing d with
  | nil => exact (Except.ok.inj h).symm
  | cons e rest ih =>
    rw [List.foldlM_cons] at h
    obtain ⟨next, hnext, hrest⟩ := bind_eq_ok h
    rw [hsave _ _ _ hnext, ← Dict.mapVal_replace] at hrest
    exact ih hrest

theorem saveTask_eq_ok {table table' : Table} {t : TaskExecutionState}
    (h : SQLiteTaskStateRepository.save table t = .ok table') :
    table' = table.replace t.taskId (SQLiteTaskStateRepository.columns t) := by
  obtain ⟨_, _, h⟩ := bind_eq_ok h
  obtain ⟨row, hrow, h⟩ := bind_eq_ok h
  rw [← bindParams_eq_ok hrow]
  exact (Except.ok.inj h).symm

theorem saveWorker_eq_ok {table table' : Table} {w : WorkerStateSnapshot}
    (h : SQLiteWorkerStateRepository.save table w = .ok table') :
    table' = table.replace w.workerId (SQLiteWorkerStateRepository.columns w) := by
  obtain ⟨row, hrow, h⟩ := bind_eq_ok h
  rw [← bindParams_eq_ok hrow]
  exact (Except.ok.inj h).symm

/-- The tasks and the workers under the ids they carry. -/
def savedTasks (state : RuntimeState) : Dict String TaskExecutionState :=
  Dict.rekey TaskExecutionState.taskId state.tasks.entries .empty

def savedWorkers (state : RuntimeState) : Dict String WorkerStateSnapshot :=
  Dict.rekey WorkerStateSnapshot.workerId state.workers.entries .empty

theorem keyed_savedTasks (state : RuntimeState) :
    ∀ e ∈ (savedTasks state).entries, e.2.taskId = e.1 :=
  Dict.keyed_rekey _ (by simp [Dict.empty])

theorem keyed_savedWorkers (state : RuntimeState) :
    ∀ e ∈ (savedWorkers state).entries, e.2.workerId = e.1 :=
  Dict.keyed_rekey _ (by simp [Dict.empty])

theorem saveRuntimeState_eq_ok {store saved : StateStore} {state : RuntimeState}
    (h : store.saveRuntimeState state = .ok saved) :
    saved = {
      tasks := (savedTasks state).mapVal SQLiteTaskStateRepository.columns
      workers := (savedWorkers state).mapVal SQLiteWorkerStateRepository.columns
      queueState := some (StateStore.queueColumns state.queue)
      schedulerState := some (StateStore.schedulerColumns state)
      snapshots := store.snapshots
      eventStore := store.eventStore } := by
  obtain ⟨tasks, htasks, h⟩ := bind_eq_ok h
  obtain ⟨workers, hworkers, h⟩ := bind_eq_ok h
  obtain ⟨queueRow, hqueue, h⟩ := bind_eq_ok h
  obtain ⟨schedulerRow, hscheduler, h⟩ := bind_eq_ok h
  rw [← bindParams_eq_ok hqueue, ← bindParams_eq_ok hscheduler]
  have htasks' : tasks = (savedTasks state).mapVal SQLiteTaskStateRepository.columns :=
    foldlM_save TaskExecutionState.taskId SQLiteTaskStateRepository.columns
      (fun _ _ _ => saveTask_eq_ok) state.tasks.entries htasks
  have hworkers' : workers = (savedWorkers state).mapVal SQLiteWorkerStateRepository.columns :=
    foldlM_save WorkerStateSnapshot.workerId SQLiteWorkerStateRepository.columns
      (fun _ _ _ => saveWorker_eq_ok) state.workers.entries hworkers
  rw [← htasks', ← hworkers']
  exact (Except.ok.inj h).symm

/-- The timestamp of the snapshot; without one, the clock at the time of loading. -/
def RuntimeState.stamp (state : RuntimeState) (now : Timestamp) : String :=
  if state.timestamp = "" then now.val else state.timestamp

/-- A dictionary whose values carry their keys, rebuilt from the values. -/
theorem ofList_values {α : Type} (key : α → String) {d : Dict String α}
    (h : ∀ e ∈ d.entries, key e.2 = e.1) :
    Dict.ofList ((d.entries.map Prod.snd).map fun a => (key a, a)) = d := by
  have hentries : (d.entries.map Prod.snd).map (fun a => (key a, a)) = d.entries := by
    rw [List.map_map]
    refine (List.map_congr_left fun e he => ?_).trans (List.map_id _)
    exact Prod.ext (h e he) rfl
  rw [hentries, Dict.ofList_entries]

theorem mapM_rows {α : Type} (columns : α → Row) (dec : Row → Except PyError α)
    (h : ∀ a, dec (columns a) = .ok a) (entries : List (String × α)) :
    (entries.map fun e => (e.1, columns e.2)).mapM (fun e => dec e.2) =
      .ok (entries.map Prod.snd) := by
  induction entries with
  | nil => rfl
  | cons e rest ih =>
    simp only [List.map_cons, List.mapM_cons, h e.2, ih]
    rfl

/-- What was saved is what is loaded, whatever was in the tables before. -/
theorem loadRuntimeState_saved {store saved : StateStore} {state : RuntimeState}
    (h : store.saveRuntimeState state = .ok saved) (log : EventStore) (now : Timestamp) :
    StateStore.loadRuntimeState { saved with eventStore := log } now = .ok (some {
      timestamp := state.stamp now
      tasks := savedTasks state
      workers := savedWorkers state
      queue := state.queue
      scheduler := state.scheduler }) := by
  have htasks : SQLiteTaskStateRepository.listAll
      ((savedTasks state).mapVal SQLiteTaskStateRepository.columns) =
        .ok ((savedTasks state).entries.map Prod.snd) :=
    mapM_rows _ (fun row => TaskExecutionState.fromDict
      (SQLiteTaskStateRepository.loadsMetadata row)) fromDict_columns _
  have hworkers : SQLiteWorkerStateRepository.listAll
      ((savedWorkers state).mapVal SQLiteWorkerStateRepository.columns) =
        .ok ((savedWorkers state).entries.map Prod.snd) :=
    mapM_rows _ _ workerFromDict_columns _
  have htimestamp : StateStore.loadsTimestamp (StateStore.schedulerColumns state) now =
      .ok (state.stamp now) := by
    by_cases hempty : state.timestamp = "" <;>
      simp [StateStore.loadsTimestamp, StateStore.schedulerColumns, getD, lookup, Value.truthy,
        RuntimeState.stamp, hempty, Value.asStr]
  have hscheduler := schedulerFromDict_columns state
  obtain ⟨row, hrow, hdecoded⟩ := bind_eq_ok hscheduler
  rw [saveRuntimeState_eq_ok h]
  simp only [StateStore.loadRuntimeState, queueFromDict_columns, ok_bind, hrow, hdecoded,
    htimestamp, htasks, hworkers]
  rw [ofList_values TaskExecutionState.taskId (keyed_savedTasks state),
    ofList_values WorkerStateSnapshot.workerId (keyed_savedWorkers state)]
  rfl

end Saving

end MollisRuntime.Persistence
