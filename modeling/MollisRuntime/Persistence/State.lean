import MollisRuntime.Persistence.Events
import MollisRuntime.Workflow.Codec

/-!
Snapshots of the runtime state and their from_dict. A snapshot of a task or a
worker belongs to one row of its table, the snapshots of the queue and of the
scheduler to the single row of theirs.
-/
namespace MollisRuntime.Persistence

open Ordered Python
open Workflow (encodeOptStr encodeStrs decodeStrs)

/-- The text of a clock reading, `datetime.now().isoformat()`. -/
structure Timestamp where
  val : String
  ne_empty : val ≠ ""

structure TaskExecutionState where
  taskId : String
  title : String
  taskType : String
  status : String
  createdAt : String
  startedAt : Option String := none
  completedAt : Option String := none
  retryCount : ℤ := 0
  metadata : Attrs := .empty
  errorMessage : Option String := none
  version : ℤ := 1

structure WorkerStateSnapshot where
  workerId : String
  state : String
  currentTaskId : Option String
  heartbeatTime : String
  tasksProcessed : ℤ
  failures : ℤ
  startTime : String
  version : ℤ := 1

structure QueueStateSnapshot where
  queuedTaskIds : List String
  size : ℤ
  capacity : Option ℤ
  policyType : String
  version : ℤ := 1

structure SchedulerStateSnapshot where
  started : Bool
  uptimeSeconds : ℚ
  delayedTaskIds : List String
  activeTimeouts : Dict String ℚ
  version : ℤ := 1

structure RuntimeState where
  timestamp : String
  tasks : Dict String TaskExecutionState
  workers : Dict String WorkerStateSnapshot
  queue : QueueStateSnapshot
  scheduler : SchedulerStateSnapshot
  schemaVersion : ℤ := 1

section Decoding

/-- `data.get(key) or {}` -/
def orEmpty (v : Value) : Value := if v.truthy then v else .dict []

def encodeOptInt : Option ℤ → Value
  | none => .none
  | some n => .int n

def asOptInt : Value → Except PyError (Option ℤ)
  | .none => .ok none
  | v => do return some (← v.asInt)

@[simp] theorem asOptInt_encodeOptInt (n : Option ℤ) : asOptInt (encodeOptInt n) = .ok n := by
  cases n <;> rfl

def TaskExecutionState.fromDict (data : List (String × Value)) :
    Except PyError TaskExecutionState := do
  let taskId ← (← getItem data "task_id").asStr
  let title ← (← getItem data "title").asStr
  let taskType ← (← getItem data "task_type").asStr
  let status ← (← getItem data "status").asStr
  let createdAt ← (← getItem data "created_at").asStr
  let startedAt ← (getD data "started_at" .none).asOptStr
  let completedAt ← (getD data "completed_at" .none).asOptStr
  let retryCount ← (getD data "retry_count" (.int 0)).asInt
  let metadata ← decodeAttrs (orEmpty (getD data "metadata" .none))
  let errorMessage ← (getD data "error_message" .none).asOptStr
  let version ← (getD data "version" (.int 1)).asInt
  return { taskId, title, taskType, status, createdAt, startedAt, completedAt, retryCount,
           metadata, errorMessage, version }

def WorkerStateSnapshot.fromDict (data : List (String × Value)) :
    Except PyError WorkerStateSnapshot := do
  let workerId ← (← getItem data "worker_id").asStr
  let state ← (← getItem data "state").asStr
  let currentTaskId ← (getD data "current_task_id" .none).asOptStr
  let heartbeatTime ← (← getItem data "heartbeat_time").asStr
  let tasksProcessed ← (getD data "tasks_processed" (.int 0)).asInt
  let failures ← (getD data "failures" (.int 0)).asInt
  let startTime ← (← getItem data "start_time").asStr
  let version ← (getD data "version" (.int 1)).asInt
  return { workerId, state, currentTaskId, heartbeatTime, tasksProcessed, failures, startTime,
           version }

def QueueStateSnapshot.fromDict (data : List (String × Value)) :
    Except PyError QueueStateSnapshot := do
  let queuedTaskIds ← decodeStrs (← getItem data "queued_task_ids")
  let size ← (← getItem data "size").asInt
  let capacity ← asOptInt (getD data "capacity" .none)
  let policyType ← (← getItem data "policy_type").asStr
  let version ← (getD data "version" (.int 1)).asInt
  return { queuedTaskIds, size, capacity, policyType, version }

/-- `data.get(key) or []` -/
def orNil (v : Value) : Value := if v.truthy then v else .list []

def SchedulerStateSnapshot.fromDict (data : List (String × Value)) :
    Except PyError SchedulerStateSnapshot := do
  let started ← (← getItem data "started").asBool
  let uptimeSeconds ← (← getItem data "uptime_seconds").asFloat
  let delayedTaskIds ← decodeStrs (orNil (getD data "delayed_task_ids" .none))
  let activeTimeouts ← decodeDict Value.asFloat (orEmpty (getD data "active_timeouts" .none))
  let version ← (getD data "version" (.int 1)).asInt
  return { started, uptimeSeconds, delayedTaskIds, activeTimeouts, version }

@[simp] theorem orEmpty_dict (entries : List (String × Value)) :
    orEmpty (.dict entries) = .dict entries := by
  cases entries <;> rfl

@[simp] theorem orEmpty_encodeAttrs (d : Attrs) : orEmpty (encodeAttrs d) = encodeAttrs d :=
  orEmpty_dict d.entries

@[simp] theorem orEmpty_encodeDict {α : Type} (enc : α → Value) (d : Dict String α) :
    orEmpty (encodeDict enc d) = encodeDict enc d :=
  orEmpty_dict _

@[simp] theorem orNil_encodeStrs (xs : List String) : orNil (encodeStrs xs) = encodeStrs xs := by
  cases xs <;> rfl

end Decoding

end MollisRuntime.Persistence
