import MollisRuntime.Python.Numbers

/-!
Runtime events and the append-only event store. The store keeps its events in
append order; append runs json.dumps on the metadata, so every stored event has
JSON metadata. Reading is paged, by default a hundred events at a time.
-/
namespace MollisRuntime.Persistence

open Ordered Python

inductive EventKind
  | taskSubmitted (taskId title taskType : String)
  | taskQueued (taskId : String)
  | taskDequeued (taskId : String)
  | taskStarted (taskId : String)
  | taskCompleted (taskId : String)
  | taskFailed (taskId errorMessage : String)
  | taskCancelled (taskId : String)
  | taskTimedOut (taskId : String)
  | taskRetried (taskId : String) (retryCount : ℤ)
  | workerStarted (workerId : String)
  | workerStopped (workerId : String)
  | workerHeartbeat (workerId heartbeatTime : String)
  | workerFailed (workerId errorMessage : String)
  | workerRecovered (workerId : String)
  | schedulerStarted
  | schedulerStopped
  | retryScheduled (taskId : String) (delaySeconds : Number)
  | timeoutTriggered (taskId : String) (timeoutSeconds : ℚ)
  | delayedTaskReleased (taskId : String)
  | runtimeStarted
  | runtimeStopped
  | runtimeRecovered
  | snapshotCreated (snapshotId : String)
  | snapshotLoaded (snapshotId : String)
  deriving DecidableEq, Repr

structure RuntimeEvent where
  kind : EventKind
  timestamp : String
  metadata : Attrs := .empty

namespace RuntimeEvent

def isStart (e : RuntimeEvent) : Bool :=
  match e.kind with
  | .taskStarted _ => true
  | _ => false

def isCompletion (e : RuntimeEvent) : Bool :=
  match e.kind with
  | .taskCompleted _ => true
  | _ => false

/-- `isinstance(event, (TaskFailed, TaskTimedOut, TaskCancelled))` -/
def isFailure (e : RuntimeEvent) : Bool :=
  match e.kind with
  | .taskFailed _ _ => true
  | .taskTimedOut _ => true
  | .taskCancelled _ => true
  | _ => false

def isTerminal (e : RuntimeEvent) : Bool := e.isCompletion || e.isFailure

/-- An id read from the metadata. Ids are strings: an absent, empty or
non-string entry gives none, the case in which the callers do nothing. -/
def correlation (e : RuntimeEvent) (key : String) : Option String :=
  match e.metadata.get? key with
  | some (.str s) => if s = "" then none else some s
  | _ => none

def workflowInstanceId (e : RuntimeEvent) : Option String := e.correlation "workflow_instance_id"

def nodeId (e : RuntimeEvent) : Option String := e.correlation "node_id"

/-- `event.metadata.get("result")` -/
def result (e : RuntimeEvent) : Value := (e.metadata.get? "result").getD .none

/-- The output frame a completion stores for its node. -/
def outputFrame (e : RuntimeEvent) : Attrs := Dict.empty.set "result" e.result

def isJson (e : RuntimeEvent) : Bool := (encodeAttrs e.metadata).isJson

theorem not_failure_of_completion {e : RuntimeEvent} (h : e.isCompletion = true) :
    e.isFailure = false := by
  unfold isCompletion at h
  unfold isFailure
  split at h <;> simp_all

theorem not_terminal_of_start {e : RuntimeEvent} (h : e.isStart = true) :
    e.isTerminal = false := by
  unfold isStart at h
  unfold isTerminal isCompletion isFailure
  split at h <;> simp_all

theorem isJson_result {e : RuntimeEvent} (h : e.isJson = true) : e.result.isJson = true := by
  unfold result
  cases hget : e.metadata.get? "result" with
  | none => rfl
  | some v =>
    exact (isJson_encodeAttrs e.metadata).mp h _ ((e.metadata.mem_entries_iff _ _).mpr hget)

theorem outputFrame_entries (e : RuntimeEvent) : e.outputFrame.entries = [("result", e.result)] :=
  rfl

theorem isJson_outputFrame {e : RuntimeEvent} (h : e.result.isJson = true) :
    (encodeAttrs e.outputFrame).isJson = true := by
  rw [isJson_encodeAttrs, outputFrame_entries]
  simpa using h

end RuntimeEvent

/-- The events table, in sequence order. -/
structure EventStore where
  events : List RuntimeEvent
  serialisable : ∀ e ∈ events, e.isJson = true

namespace EventStore

def empty : EventStore := ⟨[], by simp⟩

def append (log : EventStore) (event : RuntimeEvent) : Except PyError EventStore :=
  if h : event.isJson = true then
    .ok ⟨log.events ++ [event], by
      intro e he
      rcases List.mem_append.mp he with he | he
      · exact log.serialisable e he
      · rw [List.mem_singleton.mp he]
        exact h⟩
  else .error (.typeError "Object is not JSON serializable")

theorem append_returns_iff (log : EventStore) (e : RuntimeEvent) :
    (∃ log', log.append e = .ok log') ↔ e.isJson = true := by
  unfold append
  split <;> rename_i hjson
  · exact iff_of_true ⟨_, rfl⟩ hjson
  · exact iff_of_false (fun ⟨_, h⟩ => by cases h) hjson

theorem append_events {log log' : EventStore} {e : RuntimeEvent} (h : log.append e = .ok log') :
    log'.events = log.events ++ [e] := by
  unfold append at h
  split at h
  · cases h
    rfl
  · cases h

def streamFrom (log : EventStore) (startTimestamp : String) (limit : ℕ := 100)
    (offset : ℕ := 0) : List RuntimeEvent :=
  ((log.events.filter fun e => startTimestamp ≤ e.timestamp).drop offset).take limit

def stream (log : EventStore) (limit : ℕ := 100) (offset : ℕ := 0) : List RuntimeEvent :=
  (log.events.drop offset).take limit

theorem mem_of_streamFrom {log : EventStore} {start : String} {limit offset : ℕ}
    {e : RuntimeEvent} (h : e ∈ log.streamFrom start limit offset) : e ∈ log.events :=
  List.mem_of_mem_filter (List.mem_of_mem_drop (List.mem_of_mem_take h))

theorem isJson_of_streamFrom {log : EventStore} {start : String} {limit offset : ℕ}
    {e : RuntimeEvent} (h : e ∈ log.streamFrom start limit offset) : e.isJson = true :=
  log.serialisable e (mem_of_streamFrom h)

/-- A short log that was recorded after the start is returned whole. -/
theorem streamFrom_eq_events {log : EventStore} {start : String}
    (hsince : ∀ e ∈ log.events, start ≤ e.timestamp) (hlength : log.events.length ≤ 100) :
    log.streamFrom start = log.events := by
  unfold streamFrom
  rw [List.filter_eq_self.mpr (fun e he => by simpa using hsince e he), List.drop_zero,
    List.take_of_length_le hlength]

end EventStore

end MollisRuntime.Persistence
