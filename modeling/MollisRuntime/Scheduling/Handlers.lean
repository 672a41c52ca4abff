import MollisRuntime.Scheduling.Engine

/-!
What the handlers do to the system. Appending an event changes nothing in it, so
a handler that calls the retry engine changes one task object, the queue and the
delayed tasks at most.
-/
namespace MollisRuntime.Scheduling

open Ordered Python Persistence MinHeap

namespace Outcome

variable {P : Type} {o : Outcome P} {next : RuntimeEngine P → Outcome P}

theorem andThen_ok (h : o.result = .ok ()) :
    o.andThen next = { next o.system with notes := o.notes ++ (next o.system).notes } := by
  simp only [andThen, h]

theorem andThen_error {e : Raised} (h : o.result = .error e) : o.andThen next = o := by
  simp only [andThen, h]

/-- What follows leaves the system as it is. -/
theorem system_andThen (h : ∀ s, (next s).system = s) : (o.andThen next).system = o.system := by
  cases hresult : o.result with
  | error e => rw [andThen_error hresult]
  | ok _ => rw [andThen_ok hresult]; exact h o.system

@[simp] theorem system_caught : o.caught.system = o.system := rfl

@[simp] theorem notes_caught : o.caught.notes = o.notes := rfl

@[simp] theorem result_caught : o.caught.result = .ok () := rfl

@[simp] theorem system_noting (notes : List Note) : (o.noting notes).system = o.system := rfl

@[simp] theorem notes_noting (notes : List Note) : (o.noting notes).notes = notes ++ o.notes := rfl

@[simp] theorem result_noting (notes : List Note) : (o.noting notes).result = o.result := rfl

end Outcome

namespace RuntimeEngine

variable {P : Type}

section Record

variable (sys : RuntimeEngine P) (env : StepEnv) (kind : EventKind) (attempt : Option ℕ)
  (metadata : Attrs)

@[simp] theorem system_record : (sys.record env kind attempt metadata).system = sys := by
  unfold record
  dsimp only
  split <;> rfl

@[simp] theorem system_andThen_record (o : Outcome P) :
    (o.andThen fun s => s.record env kind attempt metadata).system = o.system :=
  Outcome.system_andThen fun s => s.system_record env kind attempt metadata

theorem result_record : (sys.record env kind attempt metadata).result =
    env.log { kind, timestamp := env.now, metadata } := by
  unfold record
  dsimp only
  split
  · rename_i e h
    exact h.symm
  · rename_i h
    exact h.symm

/-- One event is appended, or the append raises. -/
theorem notes_record :
    (sys.record env kind attempt metadata).notes = [] ∨
      (sys.record env kind attempt metadata).notes =
        [.logged { kind, timestamp := env.now, metadata } attempt] := by
  unfold record
  dsimp only
  split
  · exact .inl rfl
  · dsimp only
    split
    · exact .inr rfl
    · exact .inl rfl

@[simp] theorem system_reportTimeout (outcome : Attempt) :
    (sys.reportTimeout env outcome).system = sys := by
  rw [reportTimeout, system_andThen_record, system_record]

/-- Whether the events of a timeout can be appended depends on the policy alone. -/
theorem result_reportTimeout {s sys : RuntimeEngine P} {env : StepEnv} {attempt : Attempt}
    (h : (s.object attempt.task).metadata = (sys.object attempt.task).metadata) :
    (s.reportTimeout env attempt).result = (sys.reportTimeout env attempt).result := by
  simp only [reportTimeout, Outcome.andThen, result_record, h]
  split
  · rw [result_record, result_record]
  · rfl

end Record

section Objects

variable (sys : RuntimeEngine P) (task : TaskHandle)

theorem object_setObject_self {task other : TaskHandle} (h : other.ref = task.ref)
    (object : TaskObject) : (sys.setObject task object).object other = object := by
  simp [RuntimeEngine.object, setObject, h]

theorem object_setObject_ne {task other : TaskHandle} (h : other.ref ≠ task.ref)
    (object : TaskObject) : (sys.setObject task object).object other = sys.object other := by
  simp [RuntimeEngine.object, setObject, h]

theorem setObject_object : sys.setObject task (sys.object task) = sys := by
  simp [RuntimeEngine.object, setObject]

/-- Failing a task that has failed already changes nothing. -/
theorem settle_failed : sys.settle task .failed = sys.setStatus task .failed := by
  unfold settle
  split
  · rename_i h
    rw [setStatus, ← h]
    exact (sys.setObject_object task).symm
  · rfl

theorem settle_eq (status : TaskStatus) :
    ∃ object, sys.settle task status = sys.setObject task object := by
  unfold settle
  split
  · exact ⟨_, (sys.setObject_object task).symm⟩
  · exact ⟨_, rfl⟩

/-- Another object, another queue and other delayed tasks. -/
def amend (object : TaskObject)
    (queue : InMemoryTaskQueue P) (tracker : DelayedTaskTracker) : RuntimeEngine P :=
  { sys with objects := Function.update sys.objects task.ref object, queue, tracker }

theorem amend_setObject (first second : TaskObject)
    (queue : InMemoryTaskQueue P) (tracker : DelayedTaskTracker) :
    (sys.setObject task first).amend task second queue tracker =
      sys.amend task second queue tracker := by
  simp only [amend, setObject, Function.update_idem]

end Objects

section Firing

variable [FloatArith] {sys : RuntimeEngine P} {env : StepEnv}

theorem firing_some {workerId : String} {attempt : Attempt}
    (h : sys.firing env workerId = some attempt) :
    sys.workers.get? workerId = some (.executing attempt) := by
  unfold firing at h
  split at h
  · rename_i other hslot
    split at h
    · split at h
      · split at h
        · rw [hslot, Option.some.inj h]
        · cases h
      · cases h
    · cases h
  · cases h

end Firing

section Frames

variable [SchedulingPolicy P] {sys : RuntimeEngine P} {env : StepEnv} {task : TaskHandle}

theorem system_enqueue :
    (sys.enqueue env task).system = { sys with
      queue := (sys.queue.enqueue env.queue task (sys.object task).metadata.entries).queue } := rfl

theorem system_onDelayedTaskReady :
    (sys.onDelayedTaskReady env task).system = (sys.enqueue env task).system := by
  rw [onDelayedTaskReady, Outcome.system_caught, system_andThen_record]

variable [FloatArith] {error : Raised} {delay : Number}

theorem addDelayedTask_ready (h : delay ≤ .finite 0) :
    sys.addDelayedTask env task delay = sys.onDelayedTaskReady env task := if_pos h

theorem addDelayedTask_later (h : ¬ delay ≤ .finite 0) :
    sys.addDelayedTask env task delay = { system := sys.pushDelayed env task delay } := if_neg h

theorem system_addDelayedTask (sys : RuntimeEngine P) (env : StepEnv) (task : TaskHandle)
    (delay : Number) : ∃ queue tracker,
    (sys.addDelayedTask env task delay).system = { sys with queue, tracker } := by
  by_cases h : delay ≤ .finite 0
  · rw [addDelayedTask_ready h, system_onDelayedTaskReady]
    exact ⟨_, sys.tracker, rfl⟩
  · rw [addDelayedTask_later h]
    exact ⟨sys.queue, _, rfl⟩

/-- The retry engine says no, or it cannot compare the count. -/
theorem system_handleTaskFailure_denied
    (h : RetryEngine.shouldRetry (sys.object task).metadata error ≠ .ok true) :
    (sys.handleTaskFailure env task error).system = sys := by
  unfold handleTaskFailure
  split
  · rfl
  · exact sys.system_record _ _ _ _
  · rename_i hretry
    exact absurd hretry h

/-- A delay that cannot be computed leaves the task counted and PENDING. -/
theorem handleTaskFailure_overflow {object : TaskObject} {e : Raised}
    (h : RetryEngine.shouldRetry (sys.object task).metadata error = .ok true)
    (hprepare : RetryEngine.prepareRetry (sys.object task) = (object, .error e)) :
    sys.handleTaskFailure env task error =
      { system := sys.setObject task object
        notes := [.evaluated task true]
        result := .error e } := by
  simp only [handleTaskFailure, h, hprepare]

theorem system_handleTaskFailure_retried {object : TaskObject}
    (h : RetryEngine.shouldRetry (sys.object task).metadata error = .ok true)
    (hprepare : RetryEngine.prepareRetry (sys.object task) = (object, .ok delay)) :
    (sys.handleTaskFailure env task error).system =
      ((sys.setObject task object).addDelayedTask env task delay).system := by
  simp only [handleTaskFailure, h, hprepare, Outcome.system_noting, system_andThen_record]

/-- The failure handler touches the object of the task, the queue and the delayed
tasks. -/
theorem system_handleTaskFailure (sys : RuntimeEngine P) (env : StepEnv) (task : TaskHandle)
    (error : Raised) : ∃ object queue tracker,
    (sys.handleTaskFailure env task error).system = sys.amend task object queue tracker := by
  by_cases h : RetryEngine.shouldRetry (sys.object task).metadata error = .ok true
  · cases hprepare : RetryEngine.prepareRetry (sys.object task) with
    | mk object computed =>
      cases computed with
      | error e =>
        rw [handleTaskFailure_overflow h hprepare]
        exact ⟨object, sys.queue, sys.tracker, rfl⟩
      | ok delay =>
        obtain ⟨queue, tracker, hadd⟩ :=
          (sys.setObject task object).system_addDelayedTask env task delay
        rw [system_handleTaskFailure_retried h hprepare, hadd]
        exact ⟨object, queue, tracker, rfl⟩
  · rw [system_handleTaskFailure_denied h]
    exact ⟨sys.object task, sys.queue, sys.tracker, (sys.setObject_object task).symm⟩

theorem system_attemptFailed (sys : RuntimeEngine P) (env : StepEnv) (attempt : Attempt)
    (error : Raised) : ∃ object queue tracker, (sys.attemptFailed env attempt error).system =
      (sys.amend attempt.task object queue tracker).countFailed := by
  obtain ⟨object, queue, tracker, h⟩ :=
    (sys.setStatus attempt.task .failed).countFailed.system_handleTaskFailure env attempt.task
      error
  refine ⟨object, queue, tracker, ?_⟩
  rw [attemptFailed, Outcome.system_noting, Outcome.system_caught, settle_failed, h]
  simp [amend, setStatus, setObject, countFailed]

/-- An append that raises turns a success into a failure. -/
theorem system_attemptSucceeded (sys : RuntimeEngine P) (env : StepEnv) (attempt : Attempt) :
    (∃ e, env.log { kind := .taskCompleted attempt.task.id, timestamp := env.now } = .error e ∧
      sys.attemptSucceeded env attempt =
        (sys.settle attempt.task .completed).attemptFailed env attempt e) ∨
    env.log { kind := .taskCompleted attempt.task.id, timestamp := env.now } = .ok () ∧
      sys.attemptSucceeded env attempt =
        { system := (sys.settle attempt.task .completed).countCompleted
          notes := ((sys.settle attempt.task .completed).record env
            (.taskCompleted attempt.task.id) (some attempt.number) .empty).notes ++
              [.counted attempt.number true] } := by
  unfold attemptSucceeded
  dsimp only
  rw [result_record, system_record]
  cases h : env.log { kind := .taskCompleted attempt.task.id, timestamp := env.now } with
  | error e => exact .inl ⟨e, rfl, rfl⟩
  | ok _ => exact .inr ⟨rfl, rfl⟩

/-- The end of an attempt is counted once. -/
theorem system_executed (sys : RuntimeEngine P) (env : StepEnv) (attempt : Attempt)
    (result : Except Raised Unit) : ∃ object queue tracker,
    (sys.executed env attempt result).system =
        (sys.amend attempt.task object queue tracker).countCompleted ∨
      (sys.executed env attempt result).system =
        (sys.amend attempt.task object queue tracker).countFailed := by
  cases result with
  | error e =>
    obtain ⟨object, queue, tracker, h⟩ := sys.system_attemptFailed env attempt e
    exact ⟨object, queue, tracker, .inr h⟩
  | ok _ =>
    obtain ⟨object, hsettled⟩ := sys.settle_eq attempt.task .completed
    obtain ⟨e, -, hraised⟩ | ⟨-, hdone⟩ := sys.system_attemptSucceeded env attempt
    · obtain ⟨next, queue, tracker, h⟩ :=
        (sys.settle attempt.task .completed).system_attemptFailed env attempt e
      refine ⟨next, queue, tracker, .inr ?_⟩
      rw [executed, hraised, h, hsettled, amend_setObject]
    · refine ⟨object, sys.queue, sys.tracker, .inl ?_⟩
      rw [executed, hdone, hsettled]
      rfl

/-- Neither the workers nor the number of attempts are touched before the end. -/
theorem workers_executed (sys : RuntimeEngine P) (env : StepEnv) (attempt : Attempt)
    (result : Except Raised Unit) :
    (sys.executed env attempt result).system.workers = sys.workers ∧
      (sys.executed env attempt result).system.attempts = sys.attempts := by
  obtain ⟨object, queue, tracker, h | h⟩ := sys.system_executed env attempt result
  · rw [h]
    exact ⟨rfl, rfl⟩
  · rw [h]
    exact ⟨rfl, rfl⟩

theorem conclude_executing {workerId : String} {attempt : Attempt}
    (h : sys.workers.get? workerId = some (.executing attempt)) (result : Except Raised Unit) :
    sys.conclude env workerId result =
      finish workerId attempt (sys.executed env attempt result) := by
  simp only [conclude, h]

theorem conclude_idle {workerId : String}
    (h : ∀ attempt, sys.workers.get? workerId ≠ some (.executing attempt))
    (result : Except Raised Unit) : sys.conclude env workerId result = { system := sys } := by
  unfold conclude
  split
  · rename_i attempt hslot
    exact absurd hslot (h attempt)
  · rfl

theorem timeout_idle {workerId : String} (h : sys.firing env workerId = none) :
    sys.timeout env workerId = { system := sys } := by
  rw [timeout, h]

/-- When the events of a timeout have been appended, the failure handler is called. -/
theorem system_handleTaskTimeout (attempt : Attempt) :
    (sys.handleTaskTimeout env attempt).system =
      if (sys.reportTimeout env attempt).result = .ok () then
        (sys.countFailed.handleTaskFailure env attempt.task .timeout).system
      else sys.countFailed := by
  have hsame : (sys.countFailed.reportTimeout env attempt).result =
      (sys.reportTimeout env attempt).result := result_reportTimeout rfl
  rw [handleTaskTimeout, Outcome.system_noting]
  cases h : (sys.reportTimeout env attempt).result with
  | error e =>
    rw [Outcome.andThen_error (hsame.trans h), system_reportTimeout, if_neg (by simp)]
  | ok _ =>
    rw [Outcome.andThen_ok (hsame.trans h), if_pos rfl]
    dsimp only
    rw [system_reportTimeout]

theorem system_handleTaskTimeout_frame (sys : RuntimeEngine P) (env : StepEnv) (attempt : Attempt) :
    ∃ object queue tracker, (sys.handleTaskTimeout env attempt).system =
      (sys.amend attempt.task object queue tracker).countFailed := by
  rw [system_handleTaskTimeout]
  split
  · exact sys.countFailed.system_handleTaskFailure env attempt.task .timeout
  · exact ⟨sys.object attempt.task, sys.queue, sys.tracker,
      congrArg countFailed (sys.setObject_object attempt.task).symm⟩

/-- A timeout fires, its events are appended, and the retry engine is in favour. -/
def RetriesTimeout (sys : RuntimeEngine P) (env : StepEnv) (workerId : String) : Prop :=
  ∃ attempt, sys.firing env workerId = some attempt ∧
    (sys.reportTimeout env attempt).result = .ok () ∧
    RetryEngine.shouldRetry (sys.object attempt.task).metadata .timeout = .ok true

instance (sys : RuntimeEngine P) (env : StepEnv) (workerId : String) :
    Decidable (sys.RetriesTimeout env workerId) :=
  match h : sys.firing env workerId with
  | none => .isFalse fun ⟨_, hfiring, _⟩ => nomatch h.symm.trans hfiring
  | some attempt =>
    decidable_of_iff ((sys.reportTimeout env attempt).result = .ok () ∧
      RetryEngine.shouldRetry (sys.object attempt.task).metadata .timeout = .ok true)
      ⟨fun hretry => ⟨attempt, h, hretry⟩, fun ⟨_, hfiring, hretry⟩ =>
        Option.some.inj (h.symm.trans hfiring) ▸ hretry⟩

/-- Otherwise the attempt goes on, with its task FAILED. -/
theorem system_timeout_denied {workerId : String} {attempt : Attempt}
    (h : sys.firing env workerId = some attempt) (hdenied : ¬ sys.RetriesTimeout env workerId) :
    (sys.timeout env workerId).system =
      (sys.setStatus attempt.task .failed).countFailed.setSlot workerId
        (.executing { attempt with startTime := none }) := by
  have hmetadata : ((sys.setStatus attempt.task .failed).object attempt.task).metadata =
      (sys.object attempt.task).metadata := by
    rw [setStatus, object_setObject_self _ rfl]
  have hsystem : ((sys.setStatus attempt.task .failed).handleTaskTimeout env attempt).system =
      (sys.setStatus attempt.task .failed).countFailed := by
    rw [system_handleTaskTimeout, result_reportTimeout hmetadata]
    split
    · rename_i hreported
      refine system_handleTaskFailure_denied fun hretry => hdenied ⟨attempt, h, hreported, ?_⟩
      rw [← hmetadata]
      exact hretry
    · rfl
  have hfailed : (((sys.setStatus attempt.task .failed).handleTaskTimeout env
      attempt).system.object attempt.task).status = .failed := by
    rw [hsystem]
    exact congrArg TaskObject.status (object_setObject_self sys rfl _)
  rw [timeout, h]
  dsimp only
  rw [Outcome.system_caught, hfailed, hsystem]
  simp

/-- Scheduling changes the metadata of the task, also when it raises. -/
theorem system_schedule (sys : RuntimeEngine P) (env : StepEnv) (task : TaskHandle)
    (admission : Admission) (delay : Number) : ∃ queue tracker,
    (sys.schedule env task admission delay).system =
      sys.amend task { sys.object task with metadata := (admission (sys.object task).metadata).1 }
        queue tracker := by
  unfold schedule
  dsimp only
  split
  · exact ⟨sys.queue, sys.tracker, rfl⟩
  · rw [Outcome.system_andThen fun _ => rfl]
    split
    · obtain ⟨queue, tracker, h⟩ := system_addDelayedTask
        (sys.setMetadata task (admission (sys.object task).metadata).1) env task delay
      rw [system_andThen_record, h]
      exact ⟨queue, tracker, rfl⟩
    · exact ⟨_, sys.tracker, rfl⟩

/-- A task under a new id is registered with its object. -/
theorem system_submitTask (sys : RuntimeEngine P) (env : StepEnv) (task : TaskHandle)
    (title : String) (taskType : TaskType) (metadata : Metadata) (admission : Admission)
    (delay : Number) :
    (sys.submitTask env task title taskType metadata admission delay).system = sys ∨
      task.id ∉ sys.taskManager.keys ∧ ∃ object queue tracker,
        (sys.submitTask env task title taskType metadata admission delay).system =
          (sys.register task).amend task object queue tracker := by
  unfold submitTask
  split
  · exact .inl rfl
  · rename_i hnew
    refine .inr ⟨by simpa [Dict.contains] using hnew, ?_⟩
    rw [Outcome.andThen]
    split
    · rw [system_record]
      exact ⟨{ metadata }, sys.queue, sys.tracker, rfl⟩
    · dsimp only
      rw [system_record]
      obtain ⟨queue, tracker, h⟩ :=
        ((sys.register task).setObject task { metadata }).system_schedule env task admission delay
      rw [h, amend_setObject]
      exact ⟨_, queue, tracker, rfl⟩

end Frames

section Offers

variable {sys : RuntimeEngine P} {workerId : String}

theorem offered_eq_some {task : TaskHandle} : sys.offered workerId = some task ↔
    sys.workers.get? workerId = some .idle ∧ ∃ rest, sys.pool = task :: rest := by
  unfold offered
  split
  · rename_i first rest hslot hpool
    rw [hslot, hpool]
    constructor
    · rintro ⟨⟩
      exact ⟨rfl, rest, rfl⟩
    · rintro ⟨-, others, hothers⟩
      rw [(List.cons.inj hothers).1]
  · rename_i hnone
    refine iff_of_false (by simp) ?_
    rintro ⟨hslot, rest, hpool⟩
    exact hnone task rest hslot hpool

/-- A worker that gets nothing. -/
theorem start_idle {env : StepEnv} (h : sys.offered workerId = none) :
    sys.start env workerId = { system := sys } := by
  unfold start
  split
  · rename_i task rest hslot hpool
    have hoffered := offered_eq_some.mpr ⟨hslot, rest, hpool⟩
    rw [h] at hoffered
    cases hoffered
  · rfl

end Offers

section Moves

variable (sys : RuntimeEngine P) (env : StepEnv)

theorem system_start (workerId : String) : ∃ objects pool workers attempts,
    (sys.start env workerId).system = { sys with objects, pool, workers, attempts } ∧
      sys.attempts ≤ attempts := by
  unfold start
  split
  · dsimp only
    split
    · exact ⟨sys.objects, _, _, sys.attempts, rfl, le_rfl⟩
    · exact ⟨_, _, _, sys.attempts + 1, rfl, Nat.le_succ _⟩
  · exact ⟨sys.objects, sys.pool, sys.workers, sys.attempts, rfl, le_rfl⟩


theorem system_respawn (workerId : String) : ∃ workers,
    (sys.respawn env workerId).system = { sys with workers } := by
  unfold respawn
  split
  · rw [Outcome.system_caught, Outcome.andThen]
    split
    · rw [system_andThen_record, system_record]
      exact ⟨sys.workers, rfl⟩
    · dsimp only
      rw [system_andThen_record, system_record]
      exact ⟨_, rfl⟩
  · exact ⟨sys.workers, rfl⟩

/-- A crashed worker is replaced, or the workers stay as they are. -/
theorem workers_respawn (workerId : String) :
    (sys.respawn env workerId).system.workers = sys.workers ∨
      sys.workers.get? workerId = some .crashed ∧
        (sys.respawn env workerId).system.workers = sys.workers.set workerId .idle := by
  unfold respawn
  split
  · rename_i hslot
    rw [Outcome.system_caught, Outcome.andThen]
    split
    · rw [system_andThen_record, system_record]
      exact .inl rfl
    · dsimp only
      rw [system_andThen_record, system_record]
      exact .inr ⟨hslot, rfl⟩
  · exact .inl rfl

variable [SchedulingPolicy P]

theorem system_release : ∃ queue tracker,
    (sys.release env).system = { sys with queue, tracker } := by
  unfold release
  split
  · exact ⟨sys.queue, sys.tracker, rfl⟩
  · split
    · rw [system_onDelayedTaskReady]
      exact ⟨_, _, rfl⟩
    · exact ⟨sys.queue, sys.tracker, rfl⟩

theorem system_dispatch : ∃ queue pool,
    (sys.dispatch env).system = { sys with queue, pool } := by
  unfold dispatch
  split
  · exact ⟨_, _, rfl⟩
  · exact ⟨sys.queue, sys.pool, rfl⟩

end Moves

section Notes

variable {p : Note → Prop}

theorem forall_notes_andThen {o : Outcome P} {next : RuntimeEngine P → Outcome P}
    (ho : ∀ note ∈ o.notes, p note) (hnext : ∀ s, ∀ note ∈ (next s).notes, p note) :
    ∀ note ∈ (o.andThen next).notes, p note := by
  cases hresult : o.result with
  | error e =>
    rw [Outcome.andThen_error hresult]
    exact ho
  | ok _ =>
    rw [Outcome.andThen_ok hresult]
    intro note hnote
    exact (List.mem_append.mp hnote).elim (ho note) (hnext o.system note)

theorem forall_notes_record {sys : RuntimeEngine P} {env : StepEnv} {kind : EventKind}
    {attempt : Option ℕ} {metadata : Attrs}
    (h : p (.logged { kind, timestamp := env.now, metadata } attempt)) :
    ∀ note ∈ (sys.record env kind attempt metadata).notes, p note := by
  obtain hnone | hone := sys.notes_record env kind attempt metadata
  · rw [hnone]
    simp
  · rw [hone]
    exact List.forall_mem_singleton.mpr h

variable {sys : RuntimeEngine P} {env : StepEnv} {task : TaskHandle}
  (hlogged : ∀ event, p (.logged event none))
include hlogged

theorem forall_notes_start {workerId : String}
    (hstarted : ∀ (task : TaskHandle),
      p (.logged { kind := .taskStarted task.id, timestamp := env.now } (some sys.attempts))) :
    ∀ note ∈ (sys.start env workerId).notes, p note := by
  unfold start
  split
  · dsimp only
    split <;> exact forall_notes_andThen (forall_notes_record (hstarted _))
      fun _ => forall_notes_record (hlogged _)
  · simp

theorem forall_notes_respawn {workerId : String} :
    ∀ note ∈ (sys.respawn env workerId).notes, p note := by
  unfold respawn
  split
  · exact forall_notes_andThen (forall_notes_andThen (forall_notes_record (hlogged _))
      fun _ => forall_notes_record (hlogged _)) fun _ => (by simp)
  · simp

variable [SchedulingPolicy P]

theorem forall_notes_enqueue : ∀ note ∈ (sys.enqueue env task).notes, p note := by
  intro note hnote
  obtain ⟨event, -, rfl⟩ := List.mem_map.mp hnote
  exact hlogged event

theorem forall_notes_onDelayedTaskReady :
    ∀ note ∈ (sys.onDelayedTaskReady env task).notes, p note :=
  forall_notes_andThen (forall_notes_enqueue hlogged) fun _ => forall_notes_record (hlogged _)

theorem forall_notes_release : ∀ note ∈ (sys.release env).notes, p note := by
  unfold release
  split
  · simp
  · split
    · exact forall_notes_onDelayedTaskReady hlogged
    · simp

theorem forall_notes_dispatch : ∀ note ∈ (sys.dispatch env).notes, p note := by
  unfold dispatch
  split
  · intro note hnote
    obtain ⟨event, -, rfl⟩ := List.mem_map.mp hnote
    exact hlogged event
  · simp

variable [FloatArith] {error : Raised} {delay : Number}

theorem forall_notes_addDelayedTask :
    ∀ note ∈ (sys.addDelayedTask env task delay).notes, p note := by
  by_cases h : delay ≤ .finite 0
  · rw [addDelayedTask_ready h]
    exact forall_notes_onDelayedTaskReady hlogged
  · rw [addDelayedTask_later h]
    simp

theorem forall_notes_handleTaskFailure (hevaluated : ∀ retry, p (.evaluated task retry)) :
    ∀ note ∈ (sys.handleTaskFailure env task error).notes, p note := by
  unfold handleTaskFailure
  split
  · exact List.forall_mem_singleton.mpr (hevaluated false)
  · exact List.forall_mem_cons.mpr ⟨hevaluated false, forall_notes_record (hlogged _)⟩
  · split
    · exact List.forall_mem_singleton.mpr (hevaluated true)
    · exact List.forall_mem_cons.mpr ⟨hevaluated true, forall_notes_andThen
        (forall_notes_andThen (forall_notes_addDelayedTask hlogged)
          fun _ => forall_notes_record (hlogged _))
        fun _ => forall_notes_record (hlogged _)⟩

theorem forall_notes_schedule {admission : Admission} (haccepted : p (.accepted task)) :
    ∀ note ∈ (sys.schedule env task admission delay).notes, p note := by
  unfold schedule
  dsimp only
  split
  · simp
  · refine forall_notes_andThen ?_ fun _ => List.forall_mem_singleton.mpr haccepted
    split
    · exact forall_notes_andThen (forall_notes_addDelayedTask hlogged)
        fun _ => forall_notes_record (hlogged _)
    · exact forall_notes_enqueue hlogged

theorem forall_notes_submitTask {title : String} {taskType : TaskType} {metadata : Metadata}
    {admission : Admission} (haccepted : p (.accepted task)) :
    ∀ note ∈ (sys.submitTask env task title taskType metadata admission delay).notes, p note := by
  unfold submitTask
  split
  · simp
  · exact forall_notes_andThen (forall_notes_record (hlogged _))
      fun _ => forall_notes_schedule hlogged haccepted

end Notes

section Workers

theorem idle_of_create [SchedulingPolicy P] {maxSize : Option ℤ} {poolSize : ℕ}
    {objects : ℕ → TaskObject} {workerId : String} {slot : Slot}
    (h : (create maxSize poolSize objects : RuntimeEngine P).workers.get? workerId = some slot) :
    slot = .idle := by
  have hworkers : (create maxSize poolSize objects : RuntimeEngine P).workers.get? workerId =
      if workerId ∈ (List.range poolSize).map workerName then some .idle else none :=
    Dict.get?_setAll_const _ _ _ _
  rw [hworkers] at h
  split at h
  · exact (Option.some.inj h).symm
  · cases h

variable [SchedulingPolicy P] [FloatArith] {sys : RuntimeEngine P} {env : StepEnv}

theorem workers_conclude (sys : RuntimeEngine P) (env : StepEnv) (workerId : String)
    (result : Except Raised Unit) :
    (sys.conclude env workerId result).system.workers = sys.workers ∨
      (sys.conclude env workerId result).system.workers = sys.workers.set workerId .idle := by
  unfold conclude
  split
  · rename_i attempt _
    have hworkers := (sys.workers_executed env attempt result).1
    refine .inr ?_
    rw [finish, setSlot, hworkers]
  · exact .inl rfl

/-- A timeout that fires leaves the attempt with the worker. -/
theorem timeout_firing {workerId : String} {attempt : Attempt}
    (h : sys.firing env workerId = some attempt) : ∃ superseded,
    (sys.timeout env workerId).system =
        ((sys.setStatus attempt.task .failed).handleTaskTimeout env attempt).system.setSlot
          workerId (.executing { attempt with startTime := none, superseded }) ∧
      (sys.timeout env workerId).notes =
        ((sys.setStatus attempt.task .failed).handleTaskTimeout env attempt).notes := by
  rw [timeout, h]
  exact ⟨_, rfl, rfl⟩

theorem workers_timeout {workerId : String} {attempt : Attempt}
    (h : sys.firing env workerId = some attempt) : ∃ superseded,
    (sys.timeout env workerId).system.workers =
      sys.workers.set workerId (.executing { attempt with startTime := none, superseded }) := by
  obtain ⟨object, queue, tracker, hsystem⟩ :=
    (sys.setStatus attempt.task .failed).system_handleTaskTimeout_frame env attempt
  obtain ⟨superseded, hfired, -⟩ := timeout_firing h
  rw [hfired, hsystem]
  exact ⟨superseded, rfl⟩

theorem attempts_perform (sys : RuntimeEngine P) (env : StepEnv) (action : Action) :
    sys.attempts ≤ (sys.perform env action).system.attempts := by
  cases action with
  | schedule task admission delay =>
    obtain ⟨queue, tracker, hsystem⟩ := sys.system_schedule env task admission delay
    exact (congrArg attempts hsystem).ge
  | submitTask task title taskType metadata admission delay =>
    obtain hsystem | ⟨-, object, queue, tracker, hsystem⟩ :=
      sys.system_submitTask env task title taskType metadata admission delay
    · exact (congrArg attempts hsystem).ge
    · exact (congrArg attempts hsystem).ge
  | release =>
    obtain ⟨queue, tracker, hsystem⟩ := sys.system_release env
    exact (congrArg attempts hsystem).ge
  | dispatch =>
    obtain ⟨queue, pool, hsystem⟩ := sys.system_dispatch env
    exact (congrArg attempts hsystem).ge
  | start workerId =>
    obtain ⟨objects, pool, workers, attempts, hsystem, hle⟩ := sys.system_start env workerId
    exact hle.trans (congrArg RuntimeEngine.attempts hsystem).ge
  | conclude workerId result =>
    rw [perform, conclude]
    split
    · rename_i attempt _
      exact (sys.workers_executed env attempt result).2.ge
    · exact le_rfl
  | timeout workerId =>
    rw [perform, timeout]
    split
    · exact le_rfl
    · rename_i attempt _
      obtain ⟨object, queue, tracker, hsystem⟩ :=
        (sys.setStatus attempt.task .failed).system_handleTaskTimeout_frame env attempt
      exact (congrArg attempts hsystem).ge
  | respawn workerId =>
    obtain ⟨workers, hsystem⟩ := sys.system_respawn env workerId
    exact (congrArg attempts hsystem).ge

/-- A submitted task is registered, and no other. -/
theorem taskManager_perform (sys : RuntimeEngine P) (env : StepEnv) (action : Action) :
    (sys.perform env action).system.taskManager = sys.taskManager ∨
      ∃ task title taskType metadata admission delay,
        action = .submitTask task title taskType metadata admission delay ∧
          (sys.perform env action).system.taskManager = sys.taskManager.set task.id task := by
  cases action with
  | schedule task admission delay =>
    obtain ⟨queue, tracker, hsystem⟩ := sys.system_schedule env task admission delay
    rw [perform, hsystem]
    exact .inl rfl
  | submitTask task title taskType metadata admission delay =>
    obtain hsystem | ⟨-, object, queue, tracker, hsystem⟩ :=
      sys.system_submitTask env task title taskType metadata admission delay
    · rw [perform, hsystem]
      exact .inl rfl
    · rw [perform, hsystem]
      exact .inr ⟨task, title, taskType, metadata, admission, delay, rfl, rfl⟩
  | release =>
    obtain ⟨queue, tracker, hsystem⟩ := sys.system_release env
    rw [perform, hsystem]
    exact .inl rfl
  | dispatch =>
    obtain ⟨queue, pool, hsystem⟩ := sys.system_dispatch env
    rw [perform, hsystem]
    exact .inl rfl
  | start workerId =>
    obtain ⟨objects, pool, workers, attempts, hsystem, -⟩ := sys.system_start env workerId
    rw [perform, hsystem]
    exact .inl rfl
  | conclude workerId result =>
    refine .inl ?_
    rw [perform, conclude]
    split
    · rename_i attempt _
      obtain ⟨object, queue, tracker, hsystem | hsystem⟩ := sys.system_executed env attempt result
      · rw [finish, hsystem]
        rfl
      · rw [finish, hsystem]
        rfl
    · rfl
  | timeout workerId =>
    refine .inl ?_
    rw [perform, timeout]
    split
    · rfl
    · rename_i attempt _
      obtain ⟨object, queue, tracker, hsystem⟩ :=
        (sys.setStatus attempt.task .failed).system_handleTaskTimeout_frame env attempt
      dsimp only
      rw [Outcome.system_caught, hsystem]
      rfl
  | respawn workerId =>
    obtain ⟨workers, hsystem⟩ := sys.system_respawn env workerId
    rw [perform, hsystem]
    exact .inl rfl

omit [FloatArith] in
theorem executing_of_set {workers : Dict String Slot} {other workerId : String} {slot : Slot}
    {attempt : Attempt}
    (h : (workers.set other slot).get? workerId = some (.executing attempt)) :
    other = workerId ∧ slot = .executing attempt ∨
      workers.get? workerId = some (.executing attempt) := by
  rw [Dict.get?_set] at h
  split at h
  next hother => exact .inl ⟨hother, Option.some.inj h⟩
  next => exact .inr h

omit [FloatArith] in
/-- A worker that is made idle or has crashed does not come to execute anything. -/
theorem executing_of_set_other {workers : Dict String Slot} {other workerId : String} {slot : Slot}
    {attempt : Attempt} (hslot : slot ≠ .executing attempt)
    (h : (workers.set other slot).get? workerId = some (.executing attempt)) :
    workers.get? workerId = some (.executing attempt) :=
  (executing_of_set h).resolve_left fun hset => hslot hset.2

section Executing

variable {other workerId : String} {attempt : Attempt}

omit [SchedulingPolicy P] [FloatArith] in
theorem executing_start
    (h : (sys.start env other).system.workers.get? workerId = some (.executing attempt)) :
    sys.workers.get? workerId = some (.executing attempt) ∨
      other = workerId ∧ attempt.number = sys.attempts ∧ attempt.superseded = false ∧
        (sys.start env other).system.attempts = sys.attempts + 1 := by
  unfold start at h ⊢
  split at h
  next =>
    dsimp only at h ⊢
    split at h
    next => exact .inl (executing_of_set_other (by simp) h)
    next =>
      rcases executing_of_set h with ⟨rfl, hslot⟩ | hbefore
      · obtain rfl := Slot.executing.inj hslot
        exact .inr ⟨rfl, rfl, rfl, rfl⟩
      · exact .inl hbefore
  next => exact .inl h

theorem executing_conclude {result : Except Raised Unit}
    (h : (sys.conclude env other result).system.workers.get? workerId =
      some (.executing attempt)) :
    sys.workers.get? workerId = some (.executing attempt) := by
  obtain hsystem | hsystem := sys.workers_conclude env other result
  · rwa [hsystem] at h
  · rw [hsystem] at h
    exact executing_of_set_other (by simp) h

theorem executing_timeout
    (h : (sys.timeout env other).system.workers.get? workerId = some (.executing attempt)) :
    sys.workers.get? workerId = some (.executing attempt) ∨
      ∃ old, other = workerId ∧ sys.firing env workerId = some old ∧
        attempt.number = old.number ∧ attempt.task = old.task := by
  cases hfiring : sys.firing env other with
  | none =>
    rw [timeout, hfiring] at h
    exact .inl h
  | some old =>
    obtain ⟨superseded, hsystem⟩ := workers_timeout hfiring
    rw [hsystem] at h
    rcases executing_of_set h with ⟨rfl, hslot⟩ | hbefore
    · obtain rfl := Slot.executing.inj hslot
      exact .inr ⟨old, rfl, hfiring, rfl, rfl⟩
    · exact .inl hbefore

omit [SchedulingPolicy P] [FloatArith] in
theorem executing_respawn
    (h : (sys.respawn env other).system.workers.get? workerId = some (.executing attempt)) :
    sys.workers.get? workerId = some (.executing attempt) := by
  obtain hsystem | ⟨-, hsystem⟩ := sys.workers_respawn env other
  · rwa [hsystem] at h
  · rw [hsystem] at h
    exact executing_of_set_other (by simp) h

end Executing

/-- An attempt that is executed after a step was executed before it, has been
started by it, or is the one whose timeout has fired. -/
theorem executing_perform {action : Action} {workerId : String} {attempt : Attempt}
    (h : (sys.perform env action).system.workers.get? workerId = some (.executing attempt)) :
    sys.workers.get? workerId = some (.executing attempt) ∨
      (action = .start workerId ∧ attempt.number = sys.attempts ∧ attempt.superseded = false ∧
        (sys.perform env action).system.attempts = sys.attempts + 1) ∨
      ∃ old, action = .timeout workerId ∧ sys.firing env workerId = some old ∧
        attempt.number = old.number ∧ attempt.task = old.task := by
  cases action with
  | schedule task admission delay =>
    obtain ⟨queue, tracker, hsystem⟩ := sys.system_schedule env task admission delay
    rw [perform, hsystem] at h
    exact .inl h
  | submitTask task title taskType metadata admission delay =>
    obtain hsystem | ⟨-, object, queue, tracker, hsystem⟩ :=
      sys.system_submitTask env task title taskType metadata admission delay
    · rw [perform, hsystem] at h
      exact .inl h
    · rw [perform, hsystem] at h
      exact .inl h
  | release =>
    obtain ⟨queue, tracker, hsystem⟩ := sys.system_release env
    rw [perform, hsystem] at h
    exact .inl h
  | dispatch =>
    obtain ⟨queue, pool, hsystem⟩ := sys.system_dispatch env
    rw [perform, hsystem] at h
    exact .inl h
  | start other =>
    obtain hbefore | ⟨rfl, hstarted⟩ := executing_start h
    · exact .inl hbefore
    · exact .inr (.inl ⟨rfl, hstarted⟩)
  | conclude other result => exact .inl (executing_conclude h)
  | timeout other =>
    obtain hbefore | ⟨old, rfl, hfired⟩ := executing_timeout h
    · exact .inl hbefore
    · exact .inr (.inr ⟨old, rfl, hfired⟩)
  | respawn other => exact .inl (executing_respawn h)

end Workers

end RuntimeEngine

end MollisRuntime.Scheduling
