import MollisRuntime.Scheduling.Custody
import MollisRuntime.Scheduling.Recorded

/-!
Failed attempts with a store that takes all events. An attempt fails at its end or
when its timeout fires; either way the task is FAILED when the failure handler is
called, and the handler goes one of three ways.
-/
namespace MollisRuntime.Scheduling

open Ordered Python Persistence

namespace RuntimeEngine

variable {P : Type} [FloatArith]

/-- The task whose attempt fails at a step, and what the retry engine is asked about. -/
def failing (sys : RuntimeEngine P) (env : StepEnv) : Action → Option (TaskHandle × Raised)
  | .conclude workerId (.error e) =>
    match sys.workers.get? workerId with
    | some (.executing attempt) => some (attempt.task, e)
    | _ => none
  | .timeout workerId => (sys.firing env workerId).map fun attempt => (attempt.task, .timeout)
  | _ => none

/-- The task of the attempt that a worker executes. -/
def attempted (sys : RuntimeEngine P) (workerId : String) : Option TaskHandle :=
  (sys.workers.get? workerId).bind Slot.task

/-- The delay that is computed when the retry engine is in favour. -/
def retryDelay (sys : RuntimeEngine P) (task : TaskHandle) (error : Raised) :
    Option (Except Raised Number) :=
  if RetryEngine.shouldRetry (sys.object task).metadata error = .ok true then
    some (RetryEngine.prepareRetry (sys.object task)).2
  else none

variable {sys : RuntimeEngine P} {env : StepEnv} {task : TaskHandle} {error : Raised}

theorem mem_custody_of_failing {action : Action} (h : sys.failing env action = some (task, error)) :
    task ∈ sys.custody := by
  cases action with
  | conclude workerId result =>
    cases result with
    | ok _ => cases h
    | error e =>
      simp only [failing] at h
      split at h
      · rename_i attempt hslot
        cases h
        exact mem_custody_of_executing hslot
      · cases h
  | timeout workerId =>
    obtain ⟨attempt, hfiring, hpair⟩ := Option.map_eq_some_iff.mp h
    cases hpair
    exact mem_custody_of_executing (firing_some hfiring)
  | _ => cases h

/-- The status of the task plays no role. -/
theorem retryDelay_failed (sys : RuntimeEngine P) (task : TaskHandle) (error : Raised) :
    (sys.setStatus task .failed).countFailed.retryDelay task error =
      sys.retryDelay task error := by
  have hobject : (sys.setStatus task .failed).countFailed.object task =
      { sys.object task with status := .failed } :=
    sys.object_setObject_self rfl _
  unfold retryDelay
  rw [hobject, RetryEngine.prepareRetry_status]

variable [SchedulingPolicy P]

/-- The handler turns the task down, or it cannot compute the delay, or the task is
PENDING again and on its way to the queue. -/
theorem handleTaskFailure_recorded (hstore : env.Recording) (sys : RuntimeEngine P)
    (task : TaskHandle) (error : Raised) :
    (sys.retryDelay task error = none ∧
      (sys.handleTaskFailure env task error).system = sys ∧
      (kinds (sys.handleTaskFailure env task error).notes = [.taskFailed task.id error.message] ∨
        kinds (sys.handleTaskFailure env task error).notes = [] ∧
          ∃ e, (sys.object task).metadata.retryCount = .error e)) ∨
    (∃ count e, (sys.object task).metadata.retryCount = .ok count ∧
      sys.retryDelay task error = some (.error e) ∧
      (sys.handleTaskFailure env task error).system =
        sys.setObject task (RetryEngine.retried (sys.object task) (count + 1)) ∧
      kinds (sys.handleTaskFailure env task error).notes = []) ∨
    ∃ count delay, (sys.object task).metadata.retryCount = .ok count ∧
      sys.retryDelay task error = some (.ok delay) ∧
      (sys.handleTaskFailure env task error).system =
        ((sys.setObject task (RetryEngine.retried (sys.object task) (count + 1))).addDelayedTask
          env task delay).system ∧
      kinds (sys.handleTaskFailure env task error).notes =
        kinds ((sys.setObject task
          (RetryEngine.retried (sys.object task) (count + 1))).addDelayedTask env task
            delay).notes ++ [.taskRetried task.id (count + 1), .retryScheduled task.id delay] := by
  by_cases hretry : RetryEngine.shouldRetry (sys.object task).metadata error = .ok true
  · obtain ⟨policy, count, -, hcount, -, hprepare⟩ := RetryEngine.shouldRetry_true hretry
    have hdelay : sys.retryDelay task error = some (policy.calculateDelay (count + 1)) := by
      rw [retryDelay, if_pos hretry, hprepare]
    cases hcomputed : policy.calculateDelay (count + 1) with
    | error e =>
      rw [hcomputed] at hprepare hdelay
      rw [handleTaskFailure_overflow hretry hprepare]
      exact .inr (.inl ⟨count, e, hcount, hdelay, rfl, rfl⟩)
    | ok delay =>
      rw [hcomputed] at hprepare hdelay
      have hretried : (RetryEngine.retried (sys.object task)
          (count + 1)).metadata.retryCount.toOption.getD 0 = count + 1 := by
        rw [RetryEngine.retried, Metadata.retryCount_setRetryCount]
        rfl
      refine .inr (.inr ⟨count, delay, hcount, hdelay,
        system_handleTaskFailure_retried hretry hprepare, ?_⟩)
      rw [kinds_handleTaskFailure_retried hstore hretry hprepare, hretried]
  · have hdelay : sys.retryDelay task error = none := if_neg hretry
    refine .inl ⟨hdelay, system_handleTaskFailure_denied hretry, ?_⟩
    cases hasked : RetryEngine.shouldRetry (sys.object task).metadata error with
    | ok favoured =>
      cases favoured with
      | true => exact absurd hasked hretry
      | false => exact .inl (kinds_handleTaskFailure_denied hstore hasked)
    | error e =>
      right
      constructor
      · simp only [handleTaskFailure, hasked]
        rfl
      · cases hcount : (sys.object task).metadata.retryCount with
        | error raised => exact ⟨raised, rfl⟩
        | ok count =>
          obtain ⟨favoured, hok⟩ := RetryEngine.shouldRetry_ok hcount error
          rw [hok] at hasked
          cases hasked

/-- What is left of a step at which an attempt fails, the handler apart. -/
theorem failing_perform (hstore : env.Recording) {action : Action}
    (h : sys.failing env action = some (task, error)) :
    ∃ workers reported,
      (sys.perform env action).system =
        { ((sys.setStatus task .failed).countFailed.handleTaskFailure env task error).system with
          workers } ∧
      kinds (sys.perform env action).notes = reported ++
        kinds ((sys.setStatus task .failed).countFailed.handleTaskFailure env task error).notes ∧
      (reported = [] ∨
        ∃ seconds, reported = [.taskTimedOut task.id, .timeoutTriggered task.id seconds]) := by
  cases action with
  | conclude workerId result =>
    cases result with
    | ok _ => cases h
    | error e =>
      simp only [failing] at h
      split at h
      · rename_i attempt hslot
        cases h
        refine ⟨((sys.setStatus attempt.task .failed).countFailed.handleTaskFailure env
          attempt.task error).system.workers.set workerId .idle, [], ?_, ?_, .inl rfl⟩
        · rw [perform, conclude_executing hslot, finish, executed, attemptFailed, settle_failed]
          rfl
        · rw [perform, conclude_executing hslot, finish, executed, attemptFailed, settle_failed,
            kinds_append]
          exact List.append_nil _
      · cases h
  | timeout workerId =>
    obtain ⟨attempt, hfiring, hpair⟩ := Option.map_eq_some_iff.mp h
    cases hpair
    obtain ⟨superseded, hsystem, hnotes⟩ := timeout_firing hfiring
    let seconds := (sys.setStatus attempt.task .failed).limit attempt.task
    refine ⟨((sys.setStatus attempt.task .failed).countFailed.handleTaskFailure env
      attempt.task .timeout).system.workers.set workerId
        (.executing { attempt with startTime := none, superseded }),
      [.taskTimedOut attempt.task.id, .timeoutTriggered attempt.task.id seconds], ?_, ?_,
      .inr ⟨seconds, rfl⟩⟩
    · rw [perform, hsystem, handleTaskTimeout_reliable hstore.reliable]
      rfl
    · rw [perform, hnotes, kinds_handleTaskTimeout hstore]
      rfl
  | _ => cases h

/-- At the end of an attempt that does not fail the executor has returned. -/
theorem conclude_recorded (hstore : env.Recording) {workerId : String}
    {result : Except Raised Unit} (h : sys.failing env (.conclude workerId result) = none) :
    (sys.attempted workerId = none ∧ sys.conclude env workerId result = { system := sys }) ∨
    ∃ attempt, sys.workers.get? workerId = some (.executing attempt) ∧ result = .ok () ∧
      (sys.conclude env workerId result).system =
        (sys.settle attempt.task .completed).countCompleted.setSlot workerId .idle ∧
      kinds (sys.conclude env workerId result).notes = [.taskCompleted attempt.task.id] := by
  unfold attempted
  cases hslot : sys.workers.get? workerId with
  | none => exact .inl ⟨rfl, conclude_idle (by simp [hslot]) result⟩
  | some slot =>
    cases slot with
    | idle => exact .inl ⟨rfl, conclude_idle (by simp [hslot]) result⟩
    | crashed => exact .inl ⟨rfl, conclude_idle (by simp [hslot]) result⟩
    | executing attempt =>
      cases result with
      | error e =>
        simp only [failing, hslot] at h
        cases h
      | ok _ =>
        refine .inr ⟨attempt, rfl, rfl, ?_, ?_⟩
        · rw [conclude_executing hslot, finish, executed, attemptSucceeded_reliable hstore.reliable]
        · rw [conclude_executing hslot, finish, executed,
            attemptSucceeded_reliable hstore.reliable]
          dsimp only
          rw [kinds_append, kinds_append, kinds_appended hstore]
          rfl

end RuntimeEngine

end MollisRuntime.Scheduling
