import MollisRuntime.Library.Machine
import MollisRuntime.Scheduling.Retry
import MollisRuntime.Scheduling.TaskQueue

/-!
IntelligentScheduler with its queue, its delayed tasks, the worker pool and the
timeout manager. Each handler is one step: a call of schedule, the release of
one matured task, a round of the dispatch loop, the start and the end of an
attempt, the firing of one timeout. What the handlers append to the event store
and what they do to the counters is noted. An append may raise; it then ends the
handler as it does in the code.
-/
namespace MollisRuntime.Scheduling

open Ordered Python Persistence MinHeap

/-- What surrounds one handler: the time of its events, the clock in seconds, and
the append of the event store when there is one. -/
structure StepEnv where
  now : String
  time : ℚ
  append : Option (RuntimeEvent → Except Raised Unit)

namespace StepEnv

/-- No store. -/
def plain (now : String) (time : ℚ) : StepEnv := { now, time, append := none }

/-- A store whose appends succeed. -/
def recording (now : String) (time : ℚ) : StepEnv :=
  { now, time, append := some fun _ => .ok () }

def log (env : StepEnv) (event : RuntimeEvent) : Except Raised Unit :=
  match env.append with
  | none => .ok ()
  | some append => append event

/-- The queue's own publisher is the NullEventPublisher. -/
def queue (env : StepEnv) : QueueEnv where
  now := env.now
  publish _ := .ok ()
  append := env.append.map fun append kind =>
    (append { kind, timestamp := env.now }).mapError fun e => .schedulingError e.message

end StepEnv

namespace Raised

def ofPyError : PyError → Raised
  | .keyError key => .keyError key
  | .valueError message => ⟨["ValueError", "Exception"], message⟩
  | .typeError message => .typeError message
  | .overflowError message => ⟨["OverflowError", "ArithmeticError", "Exception"], message⟩
  | .schedulingError message => ⟨["SchedulingError", "Exception"], message⟩
  | .diverges => ⟨[], ""⟩

def ofQueueError : QueueError → Raised
  | .queueFull message =>
      ⟨["QueueFullError", "QueueError", "SchedulingError", "Exception"], message⟩
  | .queueEmpty message =>
      ⟨["QueueEmptyError", "QueueError", "SchedulingError", "Exception"], message⟩
  | .taskNotFound message => ⟨["TaskNotFoundError", "TaskError", "Exception"], message⟩
  | .raised e => ofPyError e

def duplicateTask (taskId : String) : Raised :=
  ⟨["DuplicateTaskError", "TaskError", "Exception"], s!"Task with ID '{taskId}' already exixts."⟩

end Raised

/-- The chain of admission plugins: what it makes of the metadata, and whether
one of the plugins rejected the task. -/
def Admission : Type := Metadata → Metadata × Except Raised Unit

/-- No plugins. -/
def Admission.pass : Admission := fun metadata => (metadata, .ok ())

/-- One execution of a task by a worker. The number and the mark that its
timeout has led to a retry are not in the code. -/
structure Attempt where
  number : ℕ
  task : TaskHandle
  startTime : Option ℚ
  superseded : Bool := false
  deriving DecidableEq

/-- A worker that waits, one that executes, and one whose thread has crashed. -/
inductive Slot
  | idle
  | executing (attempt : Attempt)
  | crashed
  deriving DecidableEq

def Slot.task : Slot → Option TaskHandle
  | .executing attempt => some attempt.task
  | _ => none

/-- The heap holds the time at which a task is due, the number of its push, and the task. -/
structure DelayedTaskTracker where
  heap : Heap Number TaskHandle := .empty
  counter : ℕ := 0

def DelayedTaskTracker.tasks (tracker : DelayedTaskTracker) : List TaskHandle :=
  tracker.heap.entries.map Entry.item

inductive Note
  /-- `schedule` returned. -/
  | accepted (task : TaskHandle)
  /-- An event was appended; the start and the outcome of an attempt name it. -/
  | logged (event : RuntimeEvent) (attempt : Option ℕ)
  /-- The retry engine was asked about a failure. -/
  | evaluated (task : TaskHandle) (retry : Bool)
  /-- An attempt was added to `tasks_completed` or to `tasks_failed`. -/
  | counted (attempt : ℕ) (completed : Bool)
  /-- The worker is done with an attempt. -/
  | ended (attempt : ℕ)

structure RuntimeEngine (P : Type) where
  objects : ℕ → TaskObject
  taskManager : Dict String TaskHandle := .empty
  queue : InMemoryTaskQueue P
  tracker : DelayedTaskTracker := {}
  pool : List TaskHandle := []
  workers : Dict String Slot
  tasksCompleted : ℕ := 0
  tasksFailed : ℕ := 0
  attempts : ℕ := 0

/-- How a handler ends. -/
structure Outcome (P : Type) where
  system : RuntimeEngine P
  notes : List Note := []
  result : Except Raised Unit := .ok ()

namespace Outcome

variable {P : Type}

def andThen (o : Outcome P) (next : RuntimeEngine P → Outcome P) : Outcome P :=
  match o.result with
  | .error _ => o
  | .ok () => { next o.system with notes := o.notes ++ (next o.system).notes }

/-- `except Exception`, with a line in the log. -/
def caught (o : Outcome P) : Outcome P := { o with result := .ok () }

def noting (notes : List Note) (o : Outcome P) : Outcome P := { o with notes := notes ++ o.notes }

end Outcome

namespace RuntimeEngine

variable {P : Type}

section Parts

variable (sys : RuntimeEngine P)

def object (task : TaskHandle) : TaskObject := sys.objects task.ref

def setObject (task : TaskHandle) (object : TaskObject) : RuntimeEngine P :=
  { sys with objects := Function.update sys.objects task.ref object }

def setStatus (task : TaskHandle) (status : TaskStatus) : RuntimeEngine P :=
  sys.setObject task { sys.object task with status }

def setMetadata (task : TaskHandle) (metadata : Metadata) : RuntimeEngine P :=
  sys.setObject task { sys.object task with metadata }

def setSlot (workerId : String) (slot : Slot) : RuntimeEngine P :=
  { sys with workers := sys.workers.set workerId slot }

/-- `task_manager.add_task` -/
def register (task : TaskHandle) : RuntimeEngine P :=
  { sys with taskManager := sys.taskManager.set task.id task }

/-- A status that is FAILED already stays. -/
def settle (task : TaskHandle) (status : TaskStatus) : RuntimeEngine P :=
  if (sys.object task).status = .failed then sys else sys.setStatus task status

def countCompleted : RuntimeEngine P := { sys with tasksCompleted := sys.tasksCompleted + 1 }

def countFailed : RuntimeEngine P := { sys with tasksFailed := sys.tasksFailed + 1 }

def running : List TaskHandle := sys.workers.values.filterMap Slot.task

/-- The task that a worker would take from the pool's queue. -/
def offered (workerId : String) : Option TaskHandle :=
  match sys.workers.get? workerId, sys.pool with
  | some .idle, task :: _ => some task
  | _, _ => none

def idleWorkers : List Slot := sys.workers.values.filter fun slot => decide (slot = .idle)

def record (env : StepEnv) (kind : EventKind) (attempt : Option ℕ) (metadata : Attrs) :
    Outcome P :=
  let event := { kind, timestamp := env.now, metadata }
  match env.log event with
  | .error e => { system := sys, result := .error e }
  | .ok () => { system := sys, notes := if env.append.isSome then [.logged event attempt] else [] }

end Parts

section Handlers

variable [SchedulingPolicy P] (sys : RuntimeEngine P) (env : StepEnv)

def enqueue (task : TaskHandle) : Outcome P :=
  let reply := sys.queue.enqueue env.queue task (sys.object task).metadata.entries
  { system := { sys with queue := reply.queue }
    notes := reply.events.map fun event => .logged event none
    result := reply.result.mapError .ofQueueError }

/-- `_on_delayed_task_ready` -/
def onDelayedTaskReady (task : TaskHandle) : Outcome P :=
  ((sys.enqueue env task).andThen fun s =>
    s.record env (.delayedTaskReleased task.id) none .empty).caught

variable [FloatArith]

def pushDelayed (task : TaskHandle) (delay : Number) : RuntimeEngine P :=
  { sys with
    tracker.heap := sys.tracker.heap.push
      ⟨FloatArith.add (.finite env.time) delay, sys.tracker.counter, task⟩
    tracker.counter := sys.tracker.counter + 1 }

/-- Without a delay the task is ready at once. -/
def addDelayedTask (task : TaskHandle) (delay : Number) : Outcome P :=
  if delay ≤ .finite 0 then sys.onDelayedTaskReady env task
  else { system := sys.pushDelayed env task delay }

/-- `_handle_task_failure` -/
def handleTaskFailure (task : TaskHandle) (error : Raised) : Outcome P :=
  match RetryEngine.shouldRetry (sys.object task).metadata error with
  | .error e => { system := sys, notes := [.evaluated task false], result := .error e }
  | .ok false =>
    (sys.record env (.taskFailed task.id error.message) none .empty).noting
      [.evaluated task false]
  | .ok true =>
    match RetryEngine.prepareRetry (sys.object task) with
    | (object, .error e) =>
      { system := sys.setObject task object, notes := [.evaluated task true], result := .error e }
    | (object, .ok delay) =>
      let count := object.metadata.retryCount.toOption.getD 0
      ((((sys.setObject task object).addDelayedTask env task delay).andThen fun s =>
        s.record env (.taskRetried task.id count) none .empty).andThen fun s =>
        s.record env (.retryScheduled task.id delay) none .empty).noting [.evaluated task true]

def schedule (task : TaskHandle) (admission : Admission) (delay : Number) : Outcome P :=
  let admitted := admission (sys.object task).metadata
  let sys := sys.setMetadata task admitted.1
  match admitted.2 with
  | .error e => { system := sys, result := .error e }
  | .ok () =>
    let routed :=
      if .finite 0 < delay then
        (sys.addDelayedTask env task delay).andThen fun s =>
          s.record env (.retryScheduled task.id delay) none .empty
      else sys.enqueue env task
    routed.andThen fun s => { system := s, notes := [.accepted task] }

/-- `Runtime.submit_task` for a new task object. -/
def submitTask (task : TaskHandle) (title : String) (taskType : TaskType) (metadata : Metadata)
    (admission : Admission) (delay : Number) : Outcome P :=
  if sys.taskManager.contains task.id then
    { system := sys, result := .error (.duplicateTask task.id) }
  else
    (((sys.register task).setObject task { metadata }).record env
      (.taskSubmitted task.id title taskType.name) none metadata.dump).andThen fun s =>
      s.schedule env task admission delay

/-- The tracker's loop, for the first task in its heap. -/
def release : Outcome P :=
  match sys.tracker.heap.entries with
  | [] => { system := sys }
  | entry :: _ =>
    if entry.key ≤ .finite env.time then
      { sys with tracker.heap := sys.tracker.heap.pop }.onDelayedTaskReady env entry.item
    else { system := sys }

/-- One round of the scheduler's loop. -/
def dispatch : Outcome P :=
  if sys.idleWorkers ≠ [] ∧ sys.queue.isEmpty = false then
    let reply := sys.queue.dequeue env.queue
    { system := { sys with
        queue := reply.queue
        pool := sys.pool ++ reply.result.toOption.toList }
      notes := reply.events.map fun event => .logged event none }
  else { system := sys }

/-- An idle worker gets a task. An append that raises here ends its thread. -/
def start (workerId : String) : Outcome P :=
  match sys.workers.get? workerId, sys.pool with
  | some .idle, task :: rest =>
    let sys := { sys with pool := rest }
    let told :=
      (sys.record env (.taskStarted task.id) (some sys.attempts) .empty).andThen fun s =>
        s.record env (.workerHeartbeat workerId env.now) none .empty
    match told.result with
    | .error _ => { system := sys.setSlot workerId .crashed, notes := told.notes }
    | .ok () =>
      let attempt : Attempt := { number := sys.attempts, task, startTime := some env.time }
      { system := ({ sys with attempts := sys.attempts + 1 }.setStatus task .running).setSlot
          workerId (.executing attempt)
        notes := told.notes }
  | _, _ => { system := sys }

/-- The `except` branch of the worker, with the pool's callback. -/
def attemptFailed (attempt : Attempt) (error : Raised) : Outcome P :=
  (((sys.settle attempt.task .failed).countFailed.handleTaskFailure env attempt.task
    error).caught).noting [.counted attempt.number false]

/-- The `try` branch of the worker after the executor has returned. -/
def attemptSucceeded (attempt : Attempt) : Outcome P :=
  let told := (sys.settle attempt.task .completed).record env (.taskCompleted attempt.task.id)
    (some attempt.number) .empty
  match told.result with
  | .error e => told.system.attemptFailed env attempt e
  | .ok () =>
    { system := told.system.countCompleted
      notes := told.notes ++ [.counted attempt.number true] }

/-- The executor returns, or it raises. -/
def executed (attempt : Attempt) : Except Raised Unit → Outcome P
  | .ok () => sys.attemptSucceeded env attempt
  | .error e => sys.attemptFailed env attempt e

/-- The `finally` branch. -/
def finish (workerId : String) (attempt : Attempt) (o : Outcome P) : Outcome P :=
  { system := o.system.setSlot workerId .idle, notes := o.notes ++ [.ended attempt.number] }

/-- A worker comes to the end of its attempt. -/
def conclude (workerId : String) (result : Except Raised Unit) : Outcome P :=
  match sys.workers.get? workerId with
  | some (.executing attempt) => finish workerId attempt (sys.executed env attempt result)
  | _ => { system := sys }

/-- The attempt of a worker that has run for longer than its limit. -/
def firing (workerId : String) : Option Attempt :=
  match sys.workers.get? workerId with
  | some (.executing attempt) =>
    match attempt.startTime, (sys.object attempt.task).metadata.timeoutPolicy with
    | some start, some policy =>
      match FloatArith.timedelta policy.timeoutSeconds with
      | .ok limit => if limit < env.time - start then some attempt else none
      | .error _ => none
    | _, _ => none
  | _ => none

/-- The two events of a timeout. -/
def reportTimeout (attempt : Attempt) : Outcome P :=
  let seconds := ((sys.object attempt.task).metadata.timeoutPolicy.map
    TimeoutPolicy.timeoutSeconds).getD 0
  (sys.record env (.taskTimedOut attempt.task.id) (some attempt.number) .empty).andThen fun s =>
    s.record env (.timeoutTriggered attempt.task.id seconds) none .empty

/-- `_handle_task_timeout` -/
def handleTaskTimeout (attempt : Attempt) : Outcome P :=
  ((sys.countFailed.reportTimeout env attempt).andThen fun s =>
    s.handleTaskFailure env attempt.task .timeout).noting [.counted attempt.number false]

/-- A round of the timeout manager for one worker. The attempt is superseded when
the retry engine has made its task PENDING. -/
def timeout (workerId : String) : Outcome P :=
  match sys.firing env workerId with
  | none => { system := sys }
  | some attempt =>
    let o := ((sys.setStatus attempt.task .failed).handleTaskTimeout env attempt).caught
    { o with
      system := o.system.setSlot workerId (.executing { attempt with
        startTime := none
        superseded := attempt.superseded ||
          decide ((o.system.object attempt.task).status = .pending) }) }

/-- The supervisor replaces a crashed worker. -/
def respawn (workerId : String) : Outcome P :=
  match sys.workers.get? workerId with
  | some .crashed =>
    (((sys.record env (.workerFailed workerId "Worker thread crashed") none .empty).andThen
      fun s => s.record env (.workerRecovered workerId) none .empty).andThen
      fun s => { system := s.setSlot workerId .idle }).caught
  | _ => { system := sys }

end Handlers

end RuntimeEngine

inductive Action
  | schedule (task : TaskHandle) (admission : Admission) (delay : Number)
  | submitTask (task : TaskHandle) (title : String) (taskType : TaskType) (metadata : Metadata)
      (admission : Admission) (delay : Number)
  | release
  | dispatch
  | start (workerId : String)
  | conclude (workerId : String) (result : Except Raised Unit)
  | timeout (workerId : String)
  | respawn (workerId : String)

namespace RuntimeEngine

variable {P : Type} [SchedulingPolicy P] [FloatArith]

def perform (sys : RuntimeEngine P) (env : StepEnv) : Action → Outcome P
  | .schedule task admission delay => sys.schedule env task admission delay
  | .submitTask task title taskType metadata admission delay =>
      sys.submitTask env task title taskType metadata admission delay
  | .release => sys.release env
  | .dispatch => sys.dispatch env
  | .start workerId => sys.start env workerId
  | .conclude workerId result => sys.conclude env workerId result
  | .timeout workerId => sys.timeout env workerId
  | .respawn workerId => sys.respawn env workerId

def step (sys : RuntimeEngine P) (a : StepEnv × Action) : RuntimeEngine P × List Note :=
  ((sys.perform a.1 a.2).system, (sys.perform a.1 a.2).notes)

/-- `W-001` and so on. -/
def workerName (i : ℕ) : String :=
  let digits := toString (i + 1)
  "W-" ++ String.ofList (List.replicate (3 - digits.length) '0') ++ digits

/-- A started system with some number of workers. -/
def create (maxSize : Option ℤ) (poolSize : ℕ) (objects : ℕ → TaskObject) : RuntimeEngine P where
  objects
  queue := .create maxSize SchedulingPolicy.init
  workers := Dict.fromKeys ((List.range poolSize).map workerName) .idle

/-- The system and the notes after some steps. -/
def run (maxSize : Option ℤ) (poolSize : ℕ) (objects : ℕ → TaskObject)
    (actions : List (StepEnv × Action)) : RuntimeEngine P × List Note :=
  Machine.exec step actions (create maxSize poolSize objects, [])

end RuntimeEngine

end MollisRuntime.Scheduling
