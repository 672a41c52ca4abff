import MollisRuntime.Library.Weights
import MollisRuntime.Scheduling.Handlers

/-!
The work that is ahead of the scheduler, as one number. A task weighs more the
further it is from the end of its attempt, and a retry that it has left makes it
four times as heavy; so the attempt that fails outweighs the one that replaces it,
also when a timeout has led to the retry and the first attempt is still running.
-/
namespace MollisRuntime.Scheduling

open Ordered Python Persistence MinHeap

/-- The retries that the retry engine would still grant. -/
def TaskObject.retriesLeft (object : TaskObject) : ℕ :=
  match object.metadata.retryPolicy, object.metadata.retryCount with
  | some policy, .ok count => (policy.maxRetries - count).toNat
  | _, _ => 0

def stake (objects : ℕ → TaskObject) (task : TaskHandle) : ℕ :=
  4 ^ (objects task.ref).retriesLeft

/-- An attempt that can still time out weighs more than one that cannot. -/
def Slot.load (objects : ℕ → TaskObject) : Slot → ℕ
  | .idle => 0
  | .crashed => 1
  | .executing attempt =>
      (if attempt.startTime.isSome then 3 else 2) * stake objects attempt.task

section Stakes

variable {objects objects' : ℕ → TaskObject} {task : TaskHandle}

theorem stake_pos (objects : ℕ → TaskObject) (task : TaskHandle) : 0 < stake objects task :=
  Nat.pow_pos (by decide)

theorem stake_update_le {object : TaskObject}
    (h : object.retriesLeft ≤ (objects task.ref).retriesLeft) (other : TaskHandle) :
    stake (Function.update objects task.ref object) other ≤ stake objects other := by
  unfold stake
  by_cases href : other.ref = task.ref
  · rw [href, Function.update_self]
    exact Nat.pow_le_pow_right (by decide) h
  · rw [Function.update_of_ne href]

theorem Slot.load_mono (h : ∀ other, stake objects' other ≤ stake objects other) (slot : Slot) :
    slot.load objects' ≤ slot.load objects := by
  cases slot with
  | idle => exact le_rfl
  | crashed => exact le_rfl
  | executing attempt => exact Nat.mul_le_mul_left _ (h attempt.task)

theorem Slot.load_executing_pos (objects : ℕ → TaskObject) (attempt : Attempt) :
    2 * stake objects attempt.task ≤ (Slot.executing attempt).load objects := by
  refine Nat.mul_le_mul_right _ ?_
  split <;> decide

/-- A retry that was granted is one of those that were left. -/
theorem retriesLeft_retried {object : TaskObject} {policy : RetryPolicy} {count : ℤ}
    (hpolicy : object.metadata.retryPolicy = some policy)
    (hcount : object.metadata.retryCount = .ok count) (hbudget : count < policy.maxRetries) :
    object.retriesLeft = (RetryEngine.retried object (count + 1)).retriesLeft + 1 := by
  have hpolicy' : (RetryEngine.retried object (count + 1)).metadata.retryPolicy = some policy :=
    hpolicy
  have hcount' : (RetryEngine.retried object (count + 1)).metadata.retryCount = .ok (count + 1) :=
    Metadata.retryCount_setRetryCount _ _
  simp only [TaskObject.retriesLeft, hpolicy, hcount, hpolicy', hcount']
  omega

end Stakes

namespace RuntimeEngine

variable (sys : RuntimeEngine FIFOPolicy)

/-- The tasks that wait, and the ids in the order of the queue. -/
def waitingLoad : ℕ :=
  7 * total (stake sys.objects) sys.tracker.tasks +
    5 * total (stake sys.objects) sys.queue.storage.values +
    4 * total (stake sys.objects) sys.pool + sys.queue.policy.order.length

def load : ℕ := sys.waitingLoad + total (Slot.load sys.objects) sys.workers.values

section Waiting

variable (env : StepEnv) (task : TaskHandle)

variable {sys} {task} in
theorem waitingLoad_setObject_le {object : TaskObject}
    (h : object.retriesLeft ≤ (sys.object task).retriesLeft) :
    (sys.setObject task object).waitingLoad ≤ sys.waitingLoad := by
  have hstakes := stake_update_le h
  have hheap := total_mono hstakes sys.tracker.tasks
  have hstorage := total_mono hstakes sys.queue.storage.values
  have hpool := total_mono hstakes sys.pool
  unfold waitingLoad
  dsimp only [setObject]
  omega

theorem waitingLoad_enqueue :
    (sys.enqueue env task).system.waitingLoad ≤
      sys.waitingLoad + 5 * stake sys.objects task + 1 := by
  rw [system_enqueue]
  cases hreached : sys.queue.reached with
  | some bound =>
    rw [InMemoryTaskQueue.enqueue_full hreached]
    exact Nat.le_add_right_of_le (Nat.le_add_right _ _)
  | none =>
    have hadd : SchedulingPolicy.add sys.queue.policy task.id (sys.object task).metadata.entries =
      (sys.queue.policy.add task.id, .ok ()) := rfl
    have hstorage := Dict.total_set_le (stake sys.objects) sys.queue.storage task.id task
    have horder : (sys.queue.policy.add task.id).order.length =
        sys.queue.policy.order.length + 1 := List.length_append
    rw [InMemoryTaskQueue.enqueue_accepted hreached hadd]
    unfold waitingLoad
    dsimp only
    omega

theorem waitingLoad_onDelayedTaskReady :
    (sys.onDelayedTaskReady env task).system.waitingLoad ≤
      sys.waitingLoad + 5 * stake sys.objects task + 1 := by
  rw [system_onDelayedTaskReady]
  exact sys.waitingLoad_enqueue env task

theorem waitingLoad_pushDelayed [FloatArith] (delay : Number) :
    (sys.pushDelayed env task delay).waitingLoad =
      sys.waitingLoad + 7 * stake sys.objects task := by
  have htasks : (sys.pushDelayed env task delay).tracker.tasks.Perm (task :: sys.tracker.tasks) :=
    (file_perm _ _).map Entry.item
  have hheap := total_perm (stake sys.objects) htasks
  rw [total_cons] at hheap
  have hparts : (sys.pushDelayed env task delay).waitingLoad =
      7 * total (stake sys.objects) (sys.pushDelayed env task delay).tracker.tasks +
        5 * total (stake sys.objects) sys.queue.storage.values +
        4 * total (stake sys.objects) sys.pool + sys.queue.policy.order.length := rfl
  rw [hparts, hheap, waitingLoad]
  omega

theorem waitingLoad_addDelayedTask [FloatArith] (delay : Number) :
    (sys.addDelayedTask env task delay).system.waitingLoad ≤
      sys.waitingLoad + 7 * stake sys.objects task := by
  by_cases hdelay : delay ≤ .finite 0
  · have hready := sys.waitingLoad_onDelayedTaskReady env task
    have hpos := stake_pos sys.objects task
    rw [addDelayedTask_ready hdelay]
    omega
  · rw [addDelayedTask_later hdelay]
    exact (sys.waitingLoad_pushDelayed env task delay).le

end Waiting

/-- What the handler of a failure does: nothing is added, or the task is retried and
what it weighs now is a quarter of what it weighed. -/
inductive Charged (task : TaskHandle) (sys s : RuntimeEngine FIFOPolicy) : Prop
  | kept (hstakes : ∀ other, stake s.objects other ≤ stake sys.objects other)
      (hwaiting : s.waitingLoad ≤ sys.waitingLoad)
  | retried (share : ℕ) (hbefore : stake sys.objects task = 4 * share)
      (hafter : stake s.objects task = share)
      (hstakes : ∀ other, stake s.objects other ≤ stake sys.objects other)
      (hwaiting : s.waitingLoad ≤ sys.waitingLoad + 7 * share)

section Handlers

variable {sys} in
/-- Statuses and counters weigh nothing. -/
theorem Charged.of_stake {task : TaskHandle} {before s : RuntimeEngine FIFOPolicy}
    (h : Charged task before s)
    (hstakes : ∀ other, stake before.objects other = stake sys.objects other)
    (hwaiting : before.waitingLoad = sys.waitingLoad) : Charged task sys s := by
  cases h with
  | kept hle hw =>
    exact .kept (fun other => (hle other).trans (hstakes other).le) (hw.trans hwaiting.le)
  | retried share hbefore hafter hle hw =>
    refine .retried share ((hstakes task).symm.trans hbefore) hafter
      (fun other => (hle other).trans (hstakes other).le) ?_
    rw [← hwaiting]
    exact hw

theorem stake_setStatus (task : TaskHandle) (status : TaskStatus) (other : TaskHandle) :
    stake (sys.setStatus task status).objects other = stake sys.objects other := by
  unfold stake
  dsimp only [setStatus, setObject]
  by_cases href : other.ref = task.ref
  · rw [href, Function.update_self]
    rfl
  · rw [Function.update_of_ne href]

theorem waitingLoad_setStatus (task : TaskHandle) (status : TaskStatus) :
    (sys.setStatus task status).waitingLoad = sys.waitingLoad := by
  have hstake : stake (sys.setStatus task status).objects = stake sys.objects :=
    funext (sys.stake_setStatus task status)
  unfold waitingLoad
  rw [hstake]
  rfl

variable [FloatArith]

theorem charged_handleTaskFailure (sys : RuntimeEngine FIFOPolicy) (env : StepEnv)
    (task : TaskHandle) (error : Raised) :
    Charged task sys (sys.handleTaskFailure env task error).system := by
  by_cases hretry : RetryEngine.shouldRetry (sys.object task).metadata error = .ok true
  · obtain ⟨policy, count, hpolicy, hcount, hbudget, hprepare⟩ :=
      RetryEngine.shouldRetry_true hretry
    have hleft := retriesLeft_retried hpolicy hcount hbudget
    generalize hobject : RetryEngine.retried (sys.object task) (count + 1) = object at *
    have hless : object.retriesLeft ≤ (sys.object task).retriesLeft := by omega
    have hstakes : ∀ other, stake (sys.setObject task object).objects other ≤
        stake sys.objects other := stake_update_le hless
    have hobjects := waitingLoad_setObject_le hless
    cases hdelay : policy.calculateDelay (count + 1) with
    | error e =>
      rw [hdelay] at hprepare
      rw [handleTaskFailure_overflow hretry hprepare]
      exact .kept hstakes hobjects
    | ok delay =>
      rw [hdelay] at hprepare
      rw [system_handleTaskFailure_retried hretry hprepare]
      obtain ⟨queue, tracker, hsystem⟩ :=
        (sys.setObject task object).system_addDelayedTask env task delay
      have hadded := (sys.setObject task object).waitingLoad_addDelayedTask env task delay
      have hsame : ((sys.setObject task object).addDelayedTask env task delay).system.objects =
          (sys.setObject task object).objects := by rw [hsystem]
      have hself : stake (sys.setObject task object).objects task = 4 ^ object.retriesLeft := by
        simp [stake, setObject]
      refine .retried (4 ^ object.retriesLeft) ?_ ?_ ?_ ?_
      · change 4 ^ (sys.object task).retriesLeft = _
        rw [hleft, Nat.pow_succ, Nat.mul_comm]
      · rw [hsame, hself]
      · intro other
        rw [hsame]
        exact hstakes other
      · rw [hself] at hadded
        omega
  · rw [system_handleTaskFailure_denied hretry]
    exact .kept (fun _ => le_rfl) le_rfl

theorem charged_attemptFailed (sys : RuntimeEngine FIFOPolicy) (env : StepEnv)
    (attempt : Attempt) (error : Raised) :
    Charged attempt.task sys (sys.attemptFailed env attempt error).system := by
  rw [attemptFailed, Outcome.system_noting, Outcome.system_caught, settle_failed]
  have hcharged := charged_handleTaskFailure (sys.setStatus attempt.task .failed).countFailed env
    attempt.task error
  exact hcharged.of_stake (sys.stake_setStatus _ .failed) (sys.waitingLoad_setStatus _ .failed)

theorem charged_executed (sys : RuntimeEngine FIFOPolicy) (env : StepEnv) (attempt : Attempt)
    (result : Except Raised Unit) :
    Charged attempt.task sys (sys.executed env attempt result).system := by
  cases result with
  | error e => exact charged_attemptFailed sys env attempt e
  | ok _ =>
    have hsettled : (∀ other, stake (sys.settle attempt.task .completed).objects other =
        stake sys.objects other) ∧
        (sys.settle attempt.task .completed).waitingLoad = sys.waitingLoad := by
      unfold settle
      split
      · exact ⟨fun _ => rfl, rfl⟩
      · exact ⟨sys.stake_setStatus _ .completed, sys.waitingLoad_setStatus _ .completed⟩
    obtain ⟨e, -, hraised⟩ | ⟨-, hdone⟩ := sys.system_attemptSucceeded env attempt
    · rw [executed, hraised]
      exact (charged_attemptFailed _ env attempt e).of_stake hsettled.1 hsettled.2
    · rw [executed, hdone]
      exact .kept (fun other => (hsettled.1 other).le) hsettled.2.le

theorem charged_handleTaskTimeout (sys : RuntimeEngine FIFOPolicy) (env : StepEnv)
    (attempt : Attempt) :
    Charged attempt.task sys (sys.handleTaskTimeout env attempt).system := by
  rw [system_handleTaskTimeout]
  split
  · exact (charged_handleTaskFailure sys.countFailed env attempt.task .timeout).of_stake
      (fun _ => rfl) rfl
  · exact .kept (fun _ => le_rfl) le_rfl

end Handlers

end RuntimeEngine

end MollisRuntime.Scheduling
