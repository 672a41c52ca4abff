import MollisRuntime.Scheduling.Handlers

/-!
The handlers where no append raises. Each appends its events in full, so what it
notes is determined by the state it starts from; without a store it notes no event.
-/
namespace MollisRuntime.Scheduling

open Ordered Python Persistence MinHeap

namespace StepEnv

/-- No append raises: there is no store, or the store takes every event. -/
def Reliable (env : StepEnv) : Prop := ∀ event, env.log event = .ok ()

theorem reliable_of_none {env : StepEnv} (h : env.append = none) : env.Reliable := by
  intro event
  rw [log, h]

end StepEnv

namespace RuntimeEngine

variable {P : Type}

section Queueing

variable [SchedulingPolicy P]

/-- There is room in the queue, and its policy takes the task. -/
def Accepts (sys : RuntimeEngine P) (task : TaskHandle) : Prop :=
  sys.queue.reached = none ∧
    (SchedulingPolicy.add sys.queue.policy task.id (sys.object task).metadata.entries).2 = .ok ()

instance (sys : RuntimeEngine P) (task : TaskHandle) : Decidable (sys.Accepts task) :=
  inferInstanceAs (Decidable (_ ∧ _))

variable {sys : RuntimeEngine P} {env : StepEnv} {task : TaskHandle}

/-- An enqueue that is refused raises before anything is appended. -/
theorem enqueue_refused (env : StepEnv) (h : ¬ sys.Accepts task) :
    (sys.enqueue env task).notes = [] ∧ ∃ e, (sys.enqueue env task).result = .error e := by
  unfold enqueue
  cases hreached : sys.queue.reached with
  | some bound =>
    rw [InMemoryTaskQueue.enqueue_full hreached]
    exact ⟨rfl, _, rfl⟩
  | none =>
    cases hadd : SchedulingPolicy.add sys.queue.policy task.id
        (sys.object task).metadata.entries with
    | mk policy added =>
      cases added with
      | ok _ => exact absurd ⟨hreached, congrArg Prod.snd hadd⟩ h
      | error e =>
        rw [InMemoryTaskQueue.enqueue_refused hreached hadd]
        exact ⟨rfl, _, rfl⟩

theorem onDelayedTaskReady_refused (h : ¬ sys.Accepts task) :
    sys.onDelayedTaskReady env task = { system := (sys.enqueue env task).system } := by
  obtain ⟨hnotes, e, hresult⟩ := enqueue_refused env h
  rw [onDelayedTaskReady, Outcome.andThen_error hresult, Outcome.caught, hnotes]

theorem result_addDelayedTask [FloatArith] (sys : RuntimeEngine P) (env : StepEnv)
    (task : TaskHandle) (delay : Number) : (sys.addDelayedTask env task delay).result = .ok () := by
  unfold addDelayedTask
  split <;> rfl

end Queueing

section Reliable

/-- The seconds that the timeout policy of a task allows. -/
def limit (sys : RuntimeEngine P) (task : TaskHandle) : ℚ :=
  ((sys.object task).metadata.timeoutPolicy.map TimeoutPolicy.timeoutSeconds).getD 0

/-- What a step notes of an event that was appended. -/
def appended (env : StepEnv) (kind : EventKind) (attempt : Option ℕ) : List Note :=
  if env.append.isSome then [.logged { kind, timestamp := env.now } attempt] else []

theorem mem_appended {env : StepEnv} {kind : EventKind} {attempt : Option ℕ} {note : Note}
    (h : note ∈ appended env kind attempt) :
    note = .logged { kind, timestamp := env.now } attempt := by
  unfold appended at h
  split at h
  · exact List.mem_singleton.mp h
  · cases h

variable {sys : RuntimeEngine P} {env : StepEnv}

/-- The queue's announcement of an event that can be appended. -/
theorem announce_logged {kind : EventKind}
    (hlog : env.log { kind, timestamp := env.now } = .ok ()) (event : QueueEvent) :
    (env.queue.announce event kind).2 = .ok () ∧
      (env.queue.announce event kind).1.map (fun event => Note.logged event none) =
        appended env kind none := by
  unfold QueueEnv.announce StepEnv.queue appended
  cases happend : env.append with
  | none => exact ⟨rfl, rfl⟩
  | some append =>
    rw [StepEnv.log, happend] at hlog
    dsimp only at hlog
    dsimp only [Option.map_some]
    rw [hlog]
    exact ⟨rfl, rfl⟩

theorem enqueue_logged [SchedulingPolicy P] {task : TaskHandle}
    (hlog : env.log { kind := .taskQueued task.id, timestamp := env.now } = .ok ())
    (h : sys.Accepts task) :
    (sys.enqueue env task).result = .ok () ∧
      (sys.enqueue env task).notes = appended env (.taskQueued task.id) none := by
  obtain ⟨hroom, hadd⟩ := h
  have htold := announce_logged hlog (.taskQueued task.id)
  unfold enqueue
  rw [InMemoryTaskQueue.enqueue_accepted hroom (Prod.ext rfl hadd)]
  dsimp only
  rw [htold.1, htold.2]
  exact ⟨rfl, rfl⟩

variable (hreliable : env.Reliable)
include hreliable

theorem record_reliable (sys : RuntimeEngine P) (kind : EventKind) (attempt : Option ℕ) :
    sys.record env kind attempt .empty =
      { system := sys, notes := appended env kind attempt } := by
  unfold record
  dsimp only
  rw [hreliable]
  rfl

theorem result_record_reliable (sys : RuntimeEngine P) (kind : EventKind) (attempt : Option ℕ)
    (metadata : Attrs) : (sys.record env kind attempt metadata).result = .ok () := by
  rw [result_record, hreliable]

/-- An idle worker starts the first task of the pool. -/
theorem start_reliable {workerId : String} {task : TaskHandle} {rest : List TaskHandle}
    (hslot : sys.workers.get? workerId = some .idle) (hpool : sys.pool = task :: rest) :
    sys.start env workerId =
      { system := ({ sys with pool := rest, attempts := sys.attempts + 1 }.setStatus task
          .running).setSlot workerId
            (.executing { number := sys.attempts, task, startTime := some env.time })
        notes := appended env (.taskStarted task.id) (some sys.attempts) ++
          appended env (.workerHeartbeat workerId env.now) none } := by
  unfold start
  rw [hslot, hpool]
  dsimp only
  rw [record_reliable hreliable, Outcome.andThen_ok rfl]
  dsimp only
  rw [record_reliable hreliable]

theorem reportTimeout_reliable (sys : RuntimeEngine P) (attempt : Attempt) :
    sys.reportTimeout env attempt =
      { system := sys
        notes := appended env (.taskTimedOut attempt.task.id) (some attempt.number) ++
          appended env (.timeoutTriggered attempt.task.id (sys.limit attempt.task)) none } := by
  rw [reportTimeout, record_reliable hreliable, Outcome.andThen_ok rfl,
    record_reliable hreliable]
  rfl

variable [SchedulingPolicy P] {task : TaskHandle}

theorem onDelayedTaskReady_accepted (h : sys.Accepts task) :
    sys.onDelayedTaskReady env task =
      { system := (sys.enqueue env task).system
        notes := appended env (.taskQueued task.id) none ++
          appended env (.delayedTaskReleased task.id) none } := by
  obtain ⟨hresult, hnotes⟩ := enqueue_logged (hreliable _) h
  rw [onDelayedTaskReady, Outcome.andThen_ok hresult]
  dsimp only
  rw [record_reliable hreliable, hnotes]
  rfl

variable [FloatArith] {error : Raised}

theorem attemptSucceeded_reliable (attempt : Attempt) :
    sys.attemptSucceeded env attempt =
      { system := (sys.settle attempt.task .completed).countCompleted
        notes := appended env (.taskCompleted attempt.task.id) (some attempt.number) ++
          [.counted attempt.number true] } := by
  unfold attemptSucceeded
  rw [record_reliable hreliable]

/-- The failure is final. -/
theorem handleTaskFailure_denied
    (h : RetryEngine.shouldRetry (sys.object task).metadata error = .ok false) :
    sys.handleTaskFailure env task error =
      { system := sys
        notes := .evaluated task false ::
          appended env (.taskFailed task.id error.message) none } := by
  simp only [handleTaskFailure, h]
  rw [record_reliable hreliable]
  rfl

/-- The task is counted, PENDING again, and on its way to the queue. -/
theorem handleTaskFailure_retried {object : TaskObject} {delay : Number}
    (h : RetryEngine.shouldRetry (sys.object task).metadata error = .ok true)
    (hprepare : RetryEngine.prepareRetry (sys.object task) = (object, .ok delay)) :
    sys.handleTaskFailure env task error =
      { system := ((sys.setObject task object).addDelayedTask env task delay).system
        notes := .evaluated task true ::
          (((sys.setObject task object).addDelayedTask env task delay).notes ++
            appended env (.taskRetried task.id (object.metadata.retryCount.toOption.getD 0))
              none ++
            appended env (.retryScheduled task.id delay) none) } := by
  simp only [handleTaskFailure, h, hprepare]
  rw [Outcome.andThen_ok (o := (sys.setObject task object).addDelayedTask env task delay)
    (result_addDelayedTask _ _ _ _)]
  rw [record_reliable hreliable, Outcome.andThen_ok rfl, record_reliable hreliable]
  rfl

theorem handleTaskTimeout_reliable (attempt : Attempt) :
    sys.handleTaskTimeout env attempt =
      ((sys.countFailed.handleTaskFailure env attempt.task .timeout).noting
        (appended env (.taskTimedOut attempt.task.id) (some attempt.number) ++
          appended env (.timeoutTriggered attempt.task.id (sys.limit attempt.task))
            none)).noting [.counted attempt.number false] := by
  rw [handleTaskTimeout, reportTimeout_reliable hreliable, Outcome.andThen_ok rfl]
  rfl

/-- A task under a new id is registered before it is scheduled. -/
theorem system_submitTask_new (sys : RuntimeEngine P) (title : String) (taskType : TaskType)
    (metadata : Metadata) (admission : Admission) (delay : Number)
    (hnew : ¬ sys.taskManager.contains task.id = true) :
    (sys.submitTask env task title taskType metadata admission delay).system =
      (((sys.register task).setObject task { metadata }).schedule env task admission
        delay).system := by
  rw [submitTask, if_neg hnew, Outcome.andThen_ok (result_record_reliable hreliable _ _ _ _)]
  dsimp only
  rw [system_record]

/-- A new task has the metadata that the admission leaves, also when it is rejected. -/
theorem system_submitTask_fresh (sys : RuntimeEngine P) (task : TaskHandle) (title : String)
    (taskType : TaskType) (metadata : Metadata) (admission : Admission) (delay : Number)
    (hnew : ¬ sys.taskManager.contains task.id = true) : ∃ queue tracker,
    (sys.submitTask env task title taskType metadata admission delay).system =
      (sys.register task).amend task { metadata := (admission metadata).1 } queue tracker := by
  have hobject : ((sys.register task).setObject task { metadata }).object task = { metadata } :=
    (sys.register task).object_setObject_self rfl _
  obtain ⟨queue, tracker, hsystem⟩ :=
    ((sys.register task).setObject task { metadata }).system_schedule env task admission delay
  rw [hobject, amend_setObject] at hsystem
  exact ⟨queue, tracker, (system_submitTask_new hreliable sys title taskType metadata admission
    delay hnew).trans hsystem⟩

end Reliable

end RuntimeEngine

end MollisRuntime.Scheduling
