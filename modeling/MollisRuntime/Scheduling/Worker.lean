import MollisRuntime.Persistence.Events
import MollisRuntime.Task

/-!
Workers of the pool. One turn of the worker's loop takes a task, marks it
RUNNING, lets the executor work on it and records the outcome, with an event
store whose appends succeed. A worker does not know about workflows: the events
it appends carry the task's id and no metadata.
-/
namespace MollisRuntime.Scheduling

open Ordered Python Persistence

inductive WorkerState
  | idle
  | running
  | stopping
  | stopped
  | failed
  deriving DecidableEq, Repr

structure Worker where
  workerId : String
  state : WorkerState := .stopped
  currentTask : Option Task := none
  heartbeatTime : String
  taskStartTime : Option String := none
  tasksProcessed : ℕ := 0
  failures : ℕ := 0

/-- `registry.get_executor(task.task_type).execute(task)`: what becomes of the
task object, and whether one of the calls raised. -/
def Execution : Type := Task → Task × Except PyError Unit

/-- What one turn leaves: the worker, the task, the appended events, and the
exception that was reported to `on_task_failed` if there was one. -/
structure Turn where
  worker : Worker
  task : Task
  events : List RuntimeEvent
  result : Except PyError Unit

namespace Worker

/-- Dequeued, under the worker's lock. -/
def take (worker : Worker) (now : String) (task : Task) : Worker :=
  { worker with
    state := .running, currentTask := some task, heartbeatTime := now, taskStartTime := some now }

/-- The `finally` block; a worker that is being stopped does not become idle. -/
def release (worker : Worker) (now : String) (stopping : Bool) : Worker :=
  { worker with
    state := if stopping then worker.state else .idle
    currentTask := none, taskStartTime := none, heartbeatTime := now }

def startedEvents (worker : Worker) (now : String) (task : Task) : List RuntimeEvent :=
  [{ kind := .taskStarted task.id, timestamp := now },
    { kind := .workerHeartbeat worker.workerId now, timestamp := now }]

/-- One turn of `_run` after `get` has returned a task. A status that was set to
FAILED meanwhile, by a timeout, is not overwritten. -/
def process (worker : Worker) (now : String) (execute : Execution) (stopping : Bool)
    (task : Task) : Turn :=
  let taken := worker.take now task
  match execute { task with status := .running } with
  | (done, .ok ()) =>
    { worker := { taken with tasksProcessed := taken.tasksProcessed + 1 }.release now stopping
      task := if done.status = .failed then done else { done with status := .completed }
      events := taken.startedEvents now task ++
        [{ kind := .taskCompleted done.id, timestamp := now }]
      result := .ok () }
  | (done, .error e) =>
    { worker := { taken with failures := taken.failures + 1 }.release now stopping
      task := if done.status = .failed then done else { done with status := .failed }
      events := taken.startedEvents now task
      result := .error e }

/-- A successful turn appends one completion, and its metadata is empty. -/
theorem process_completion {worker : Worker} {now : String} {execute : Execution}
    {stopping : Bool} {task : Task}
    (h : (worker.process now execute stopping task).result = .ok ()) :
    ∃ id, (worker.process now execute stopping task).events.filter RuntimeEvent.isCompletion =
      [{ kind := .taskCompleted id, timestamp := now }] := by
  unfold process at h ⊢
  cases hexecute : execute { task with status := .running } with
  | mk done result =>
    cases result with
    | ok _ => exact ⟨done.id, rfl⟩
    | error e =>
      simp only [hexecute] at h
      cases h

end Worker

end MollisRuntime.Scheduling
