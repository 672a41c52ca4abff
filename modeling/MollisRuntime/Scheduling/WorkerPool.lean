import MollisRuntime.Scheduling.Engine
import MollisRuntime.Scheduling.Worker

/-!
The threads of the worker pool. Every start makes new workers, and the
supervisor replaces a crashed one by a new one of the same name, so a worker is
told from the others by when it was made. One thread calls start and stop, any
threads call submit. A worker's loop is cut where other threads can come between.
-/
namespace MollisRuntime.Scheduling

open Ordered Python Persistence

namespace RuntimeEngine

/-- The number behind the padding. -/
theorem workerName_injective : Function.Injective workerName := by
  intro i j h
  have hvalue : ∀ n, Nat.ofDigitChars 10 ((workerName n).toList.drop 2) 0 = n + 1 := by
    intro n
    have htext : (workerName n).toList.drop 2 =
        List.replicate (3 - (toString (n + 1)).length) '0' ++ Nat.toDigits 10 (n + 1) := by
      simp [workerName]
    rw [htext, Nat.ofDigitChars_append, Nat.ofDigitChars_replicate_zero, Nat.mul_zero,
      Nat.ofDigitChars_ten_toDigits]
  have hi := hvalue i
  rw [h, hvalue j] at hi
  omega

end RuntimeEngine

/-- Where the thread of a worker stands. -/
inductive Phase
  /-- At the head of the loop. -/
  | checking
  /-- Inside `get`, which gives up after a tenth of a second. -/
  | getting
  /-- It has a task and has not taken its own lock yet. -/
  | holding (task : Task)
  /-- Its state is RUNNING, the two events are not appended yet. -/
  | marked (task : Task)
  | executing (task : Task)
  /-- Behind the loop. -/
  | leaving
  | dead

def Phase.isDead : Phase → Bool
  | .dead => true
  | _ => false

/-- The task that was taken from the queue and is not done. -/
def Phase.task : Phase → Option Task
  | .holding task => some task
  | .marked task => some task
  | .executing task => some task
  | _ => none

structure WorkerThread where
  worker : Worker
  stopEvent : Bool := false
  phase : Phase := .checking

/-- What one turn of a worker meets: the clock, whether the event store appends,
and whether the executor returns. -/
structure TurnEnv where
  now : String
  appends : Bool
  executes : Bool

inductive PoolNote
  /-- Put into the pool's queue. -/
  | put (task : Task)
  | taken (task : Task)
  | started (task : Task)
  /-- The worker has crashed with it. -/
  | dropped (task : Task)
  | finished (task : Task)

namespace PoolNote

def asPut : PoolNote → Option Task
  | put task => some task
  | _ => none

def asTaken : PoolNote → Option Task
  | taken task => some task
  | _ => none

/-- Finished, or dropped by a crash. -/
def asEnded : PoolNote → Option Task
  | finished task => some task
  | dropped task => some task
  | _ => none

end PoolNote

namespace Worker

/-- The turn is over; `on_task_completed` or `on_task_failed` was called. -/
def conclude (worker : Worker) (now : String) (completed stopping : Bool) : Worker :=
  (if completed then { worker with tasksProcessed := worker.tasksProcessed + 1 }
    else { worker with failures := worker.failures + 1 }).release now stopping

/-- `worker.stop()` returns at once when the thread has ended. -/
def hasEnded (worker : Worker) : Bool := worker.state = .stopped || worker.state = .failed

theorem process_worker (worker : Worker) (now : String) (execute : Execution) (stopping : Bool)
    (task : Task) :
    (worker.process now execute stopping task).worker = (worker.take now task).conclude now
      (worker.process now execute stopping task).result.isOk stopping := by
  unfold process
  cases hexecute : execute { task with status := .running } with
  | mk done result => cases result <;> rfl

end Worker

namespace WorkerThread

/-- `worker.stop()` -/
def stop (t : WorkerThread) : WorkerThread :=
  if t.worker.hasEnded then t
  else { t with worker := { t.worker with state := .stopping }, stopEvent := true }

/-- The next step of a worker's thread, with the pool's queue. -/
def turn (t : WorkerThread) (env : TurnEnv) (queue : List Task) :
    WorkerThread × List Task × List PoolNote :=
  match t.phase with
  | .checking => ({ t with phase := if t.stopEvent then .leaving else .getting }, queue, [])
  | .getting =>
    match queue with
    | [] =>
      let worker :=
        if t.stopEvent then t.worker else { t.worker with heartbeatTime := env.now }
      ({ t with worker, phase := .checking }, [], [])
    | task :: rest => ({ t with phase := .holding task }, rest, [.taken task])
  | .holding task => ({ t with worker := t.worker.take env.now task, phase := .marked task },
      queue, [])
  | .marked task =>
    if env.appends then ({ t with phase := .executing task }, queue, [.started task])
    else ({ t with worker := { t.worker with state := .failed }, phase := .dead }, queue,
      [.dropped task])
  | .executing task =>
    ({ t with worker := t.worker.conclude env.now env.executes t.stopEvent, phase := .checking },
      queue, [.finished task])
  | .leaving =>
    ({ t with worker := { t.worker with state := .stopped }, phase := .dead }, queue, [])
  | .dead => (t, queue, [])

end WorkerThread

/-- The thread that calls start and stop, and what `stop` has still to do. -/
inductive Control
  | outside
  | notifying (rest joins : List ℕ)
  | joining (rest : List ℕ)

/-- All workers ever made, in this order, and the ones that the pool knows by
their names. `submit` checks that the pool is running before it puts the task. -/
structure WorkerPool where
  size : ℕ
  started : Bool := false
  threads : List WorkerThread := []
  workers : Dict String ℕ := .empty
  taskQueue : List Task := []
  submitting : List Task := []
  control : Control := .outside

inductive PoolAction
  | start (now : String)
  | stop
  | notify
  | join
  | submit (task : Task)
  | put (n : ℕ)
  | supervise (workerId now : String)
  | turn (i : ℕ) (env : TurnEnv)

namespace WorkerPool

variable (pool : WorkerPool)

def setThread (i : ℕ) (t : WorkerThread) : WorkerPool :=
  { pool with threads := pool.threads.set i t }

/-- A new worker of this name, started. -/
def launch (now : String) (workerId : String) : WorkerPool :=
  { pool with
    threads := pool.threads ++ [{ worker := { workerId, state := .idle, heartbeatTime := now } }]
    workers := pool.workers.set workerId pool.threads.length }

/-- The pool's lock is held throughout. -/
def start (now : String) : WorkerPool :=
  match pool.control with
  | .outside =>
    if pool.started then pool
    else ((List.range pool.size).map RuntimeEngine.workerName).foldl
      (fun pool workerId => pool.launch now workerId) { pool with started := true }
  | _ => pool

/-- The first part of `stop`, under the lock. -/
def stop : WorkerPool :=
  match pool.control with
  | .outside =>
    if pool.started then
      { pool with
        started := false
        control := .notifying pool.workers.values pool.workers.values }
    else pool
  | _ => pool

def notify : WorkerPool :=
  match pool.control with
  | .notifying (i :: rest) joins =>
    match pool.threads[i]? with
    | some t => { pool.setThread i t.stop with control := .notifying rest joins }
    | none => { pool with control := .notifying rest joins }
  | .notifying [] joins => { pool with control := .joining joins }
  | _ => pool

/-- Joining waits for the thread. -/
def join : WorkerPool :=
  match pool.control with
  | .joining (i :: rest) =>
    if (pool.threads[i]?).all fun t => t.phase.isDead then { pool with control := .joining rest }
    else pool
  | .joining [] => { pool with control := .outside }
  | _ => pool

/-- The check of `submit`; it raises when the pool is not running. -/
def submit (task : Task) : WorkerPool :=
  if pool.started then { pool with submitting := pool.submitting ++ [task] } else pool

def put (n : ℕ) : WorkerPool × List PoolNote :=
  match pool.submitting[n]? with
  | some task =>
    ({ pool with
      submitting := pool.submitting.eraseIdx n
      taskQueue := pool.taskQueue ++ [task] }, [.put task])
  | none => (pool, [])

/-- A round of the supervisor for one worker. It ends with the pool. -/
def supervise (workerId now : String) : WorkerPool :=
  if pool.started then
    match (pool.workers.get? workerId).bind fun i => pool.threads[i]? with
    | some t => if t.worker.state = .failed then pool.launch now workerId else pool
    | none => pool
  else pool

def turn (i : ℕ) (env : TurnEnv) : WorkerPool × List PoolNote :=
  match pool.threads[i]? with
  | some t =>
    let (t', queue, notes) := t.turn env pool.taskQueue
    ({ pool.setThread i t' with taskQueue := queue }, notes)
  | none => (pool, [])

def step : PoolAction → WorkerPool × List PoolNote
  | .start now => (pool.start now, [])
  | .stop => (pool.stop, [])
  | .notify => (pool.notify, [])
  | .join => (pool.join, [])
  | .submit task => (pool.submit task, [])
  | .put n => pool.put n
  | .supervise workerId now => (pool.supervise workerId now, [])
  | .turn i env => pool.turn i env

/-- A pool of some size after some steps, with what was noted. -/
def run (size : ℕ) (actions : List PoolAction) : WorkerPool × List PoolNote :=
  Machine.exec step actions ({ size }, [])

end WorkerPool

end MollisRuntime.Scheduling
