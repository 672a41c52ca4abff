import MollisRuntime.Scheduling.Custody
import MollisRuntime.Scheduling.Recorded

/-!
The retry budget of a task that is scheduled once. A retry is the only way in
which another copy of the task comes into being, and it is counted; an attempt
takes a copy out of the pool. So the copies that wait and the attempts that were
started are one more than the retries at most.
-/
namespace MollisRuntime.Scheduling

open Ordered Python Persistence MinHeap
open RuntimeEngine (step create)

section Counts

def retryCountOf (taskId : String) : EventKind → Option ℤ
  | .taskRetried retried count => if retried = taskId then some count else none
  | _ => none

/-- The counts in the TaskRetried events of a task. -/
def retryCounts (taskId : String) (notes : List Note) : List ℤ :=
  (kinds notes).filterMap (retryCountOf taskId)

theorem retryCounts_append (taskId : String) (notes more : List Note) :
    retryCounts taskId (notes ++ more) = retryCounts taskId notes ++ retryCounts taskId more := by
  rw [retryCounts, kinds_append, List.filterMap_append]
  rfl

theorem retryCountOf_other {taskId other : String} (h : other ≠ taskId) (count : ℤ) :
    retryCountOf taskId (.taskRetried other count) = none := if_neg h

theorem retryCountOf_self (taskId : String) (count : ℤ) :
    retryCountOf taskId (.taskRetried taskId count) = some count := if_pos rfl

end Counts

section Effects

variable {P : Type}

/-- What a step may do about a task: nothing that matters, or one retry. -/
inductive Effect (task : TaskHandle) (sys s : RuntimeEngine P) (env : StepEnv)
    (notes : List Note) : Prop
  | calm (hmetadata : (s.object task).metadata = (sys.object task).metadata)
      (hwaiting : s.waiting.count task ≤ sys.waiting.count task)
      (hcounts : env.Recording → retryCounts task.id notes = [])
  | retried (hheld : task ∈ sys.custody) (policy : RetryPolicy) (count : ℤ)
      (hpolicy : (sys.object task).metadata.retryPolicy = some policy)
      (hcount : (sys.object task).metadata.retryCount = .ok count)
      (hbudget : count < policy.maxRetries)
      (hmetadata : (s.object task).metadata =
        (sys.object task).metadata.setRetryCount (count + 1))
      (hwaiting : s.waiting.count task ≤ sys.waiting.count task + 1)
      (hcounts : env.Recording → retryCounts task.id notes = [count + 1])

/-- The same task, or one that shares neither the object nor the id. -/
def Apart (task other : TaskHandle) : Prop :=
  other = task ∨ other.ref ≠ task.ref ∧ other.id ≠ task.id

theorem Apart.ne {task other : TaskHandle} (h : other.ref ≠ task.ref) : task ≠ other := by
  rintro rfl
  exact h rfl

variable {task : TaskHandle} {sys s : RuntimeEngine P} {env : StepEnv} {notes : List Note}

/-- Statuses, workers and counters do not matter, nor do other events. -/
theorem Effect.wrap {sys' s' : RuntimeEngine P} {notes' : List Note}
    (h : Effect task sys s env notes) (hheld : task ∈ sys.custody → task ∈ sys'.custody)
    (hbefore : (sys'.object task).metadata = (sys.object task).metadata)
    (hwaiting : sys'.waiting = sys.waiting)
    (hafter : (s'.object task).metadata = (s.object task).metadata)
    (hwaiting' : s'.waiting = s.waiting)
    (hnotes : env.Recording → retryCounts task.id notes' = retryCounts task.id notes) :
    Effect task sys' s' env notes' := by
  cases h with
  | calm hmetadata hle hcounts =>
    refine .calm (hafter.trans (hmetadata.trans hbefore.symm)) ?_
      fun hstore => (hnotes hstore).trans (hcounts hstore)
    rw [hwaiting, hwaiting']
    exact hle
  | retried hmem policy count hpolicy hcount hbudget hmetadata hle hcounts =>
    refine .retried (hheld hmem) policy count (hbefore ▸ hpolicy) (hbefore ▸ hcount) hbudget ?_ ?_
      fun hstore => (hnotes hstore).trans (hcounts hstore)
    · rw [hafter, hmetadata, hbefore]
    · rw [hwaiting, hwaiting']
      exact hle

/-- A step that moves other tasks. -/
theorem Effect.of_le (more : Multiset TaskHandle) (hmore : task ∉ more)
    (hmetadata : (s.object task).metadata = (sys.object task).metadata)
    (hwaiting : s.waiting ≤ more + sys.waiting)
    (hcounts : env.Recording → retryCounts task.id notes = []) :
    Effect task sys s env notes := by
  refine .calm hmetadata ?_ hcounts
  refine (Multiset.count_le_of_le task hwaiting).trans (le_of_eq ?_)
  rw [Multiset.count_add, Multiset.count_eq_zero.mpr hmore, zero_add]

variable [SchedulingPolicy P] [FloatArith] {error : Raised}

/-- The powers of a backoff factor are in range. -/
def PowersInRange : Prop := ∀ base n, ∃ delay, FloatArith.pow base n = .ok delay

omit [SchedulingPolicy P] in
theorem calculateDelay_ok (hexact : PowersInRange) (policy : RetryPolicy) (count : ℤ) :
    ∃ delay, policy.calculateDelay count = .ok delay := by
  unfold RetryPolicy.calculateDelay
  split
  · exact ⟨_, rfl⟩
  · obtain ⟨delay, hdelay⟩ := hexact policy.backoffFactor (count - 1).toNat
    rw [hdelay]
    exact ⟨_, rfl⟩

/-- The retries that a handler tells of when it has done nothing about a retry. -/
theorem retryCounts_addDelayedTask (hstore : env.Recording) (sys : RuntimeEngine P)
    (other : TaskHandle) (delay : Number) (taskId : String) :
    retryCounts taskId (sys.addDelayedTask env other delay).notes = [] := by
  rw [retryCounts, RuntimeEngine.kinds_addDelayedTask hstore]
  split <;> rfl

/-- The failure is final, or the task is retried and counted. -/
theorem handleTaskFailure_cases (hexact : PowersInRange) (sys : RuntimeEngine P) (env : StepEnv)
    (other : TaskHandle) (error : Raised) :
    ((sys.handleTaskFailure env other error).system = sys ∧ (env.Recording → ∀ taskId,
      retryCounts taskId (sys.handleTaskFailure env other error).notes = [])) ∨
    ∃ policy count delay, (sys.object other).metadata.retryPolicy = some policy ∧
      (sys.object other).metadata.retryCount = .ok count ∧ count < policy.maxRetries ∧
      (sys.handleTaskFailure env other error).system = ((sys.setObject other
        (RetryEngine.retried (sys.object other) (count + 1))).addDelayedTask env other
          delay).system ∧
      (env.Recording → ∀ taskId,
        retryCounts taskId (sys.handleTaskFailure env other error).notes =
          (retryCountOf taskId (.taskRetried other.id (count + 1))).toList) := by
  by_cases hretry : RetryEngine.shouldRetry (sys.object other).metadata error = .ok true
  · obtain ⟨policy, count, hpolicy, hcount, hbudget, hprepare⟩ :=
      RetryEngine.shouldRetry_true hretry
    obtain ⟨delay, hdelay⟩ := calculateDelay_ok hexact policy (count + 1)
    rw [hdelay] at hprepare
    refine .inr ⟨policy, count, delay, hpolicy, hcount, hbudget, ?_, ?_⟩
    · exact RuntimeEngine.system_handleTaskFailure_retried hretry hprepare
    · intro hstore taskId
      have hadded := retryCounts_addDelayedTask hstore (sys.setObject other
        (RetryEngine.retried (sys.object other) (count + 1))) other delay taskId
      rw [retryCounts] at hadded
      rw [retryCounts, RuntimeEngine.kinds_handleTaskFailure_retried hstore hretry hprepare,
        List.filterMap_append, hadded, List.nil_append, RetryEngine.retried,
        Metadata.retryCount_setRetryCount]
      cases hof : retryCountOf taskId (.taskRetried other.id (count + 1)) with
      | none => exact List.filterMap_cons_none hof
      | some n => exact List.filterMap_cons_some hof
  · refine .inl ⟨RuntimeEngine.system_handleTaskFailure_denied hretry, ?_⟩
    intro hstore taskId
    unfold RuntimeEngine.handleTaskFailure
    split
    · rfl
    · rw [Outcome.notes_noting, retryCounts, List.singleton_append, kinds_evaluated,
        RuntimeEngine.kinds_record hstore]
      rfl
    · rename_i hfavoured
      exact absurd hfavoured hretry

theorem effect_handleTaskFailure (env : StepEnv) (hexact : PowersInRange) {other : TaskHandle}
    (hmem : other ∈ sys.custody) (hapart : Apart task other) (error : Raised) :
    Effect task sys (sys.handleTaskFailure env other error).system env
      (sys.handleTaskFailure env other error).notes := by
  obtain ⟨hsystem, hcounts⟩ | ⟨policy, count, delay, hpolicy, hcount, hbudget, hsystem, hcounts⟩ :=
    handleTaskFailure_cases hexact sys env other error
  · rw [hsystem]
    exact .calm rfl le_rfl fun hstore => hcounts hstore task.id
  · obtain ⟨queue, tracker, hadded⟩ := (sys.setObject other
      (RetryEngine.retried (sys.object other) (count + 1))).system_addDelayedTask env other delay
    have hwaiting : (sys.handleTaskFailure env other error).system.waiting ≤
        {other} + sys.waiting := by
      refine RuntimeEngine.waiting_le sys {other} ?_ RuntimeEngine.custody_handleTaskFailure
      rw [hsystem, hadded]
      rfl
    rcases hapart with rfl | ⟨href, hid⟩
    · refine .retried hmem policy count hpolicy hcount hbudget ?_ ?_ ?_
      · rw [hsystem, hadded]
        exact congrArg TaskObject.metadata (sys.object_setObject_self rfl _)
      · refine (Multiset.count_le_of_le other hwaiting).trans (le_of_eq ?_)
        rw [Multiset.count_add, Multiset.count_singleton_self, add_comm]
      · intro hstore
        rw [hcounts hstore, retryCountOf_self]
        rfl
    · refine .of_le {other} ?_ ?_ hwaiting ?_
      · rw [Multiset.mem_singleton]
        exact Apart.ne href
      · rw [hsystem, hadded]
        exact congrArg TaskObject.metadata (sys.object_setObject_ne href.symm _)
      · intro hstore
        rw [hcounts hstore, retryCountOf_other hid]
        rfl

omit [SchedulingPolicy P] [FloatArith] in
theorem metadata_setStatus (sys : RuntimeEngine P) (task other : TaskHandle)
    (status : TaskStatus) :
    ((sys.setStatus other status).object task).metadata = (sys.object task).metadata := by
  by_cases href : task.ref = other.ref
  · rw [RuntimeEngine.setStatus, sys.object_setObject_self href, RuntimeEngine.object,
      RuntimeEngine.object, href]
  · rw [RuntimeEngine.setStatus, sys.object_setObject_ne href]

omit [SchedulingPolicy P] [FloatArith] in
theorem metadata_settle (sys : RuntimeEngine P) (task other : TaskHandle) (status : TaskStatus) :
    ((sys.settle other status).object task).metadata = (sys.object task).metadata := by
  unfold RuntimeEngine.settle
  split
  · rfl
  · exact metadata_setStatus sys task other status

theorem effect_attemptFailed (hexact : PowersInRange) {attempt : Attempt}
    (hmem : attempt.task ∈ sys.custody) (hapart : Apart task attempt.task) (error : Raised) :
    Effect task sys (sys.attemptFailed env attempt error).system env
      (sys.attemptFailed env attempt error).notes := by
  have hfailure := effect_handleTaskFailure env hexact
    (show attempt.task ∈ (sys.setStatus attempt.task .failed).countFailed.custody from hmem)
    hapart error
  rw [RuntimeEngine.attemptFailed, RuntimeEngine.settle_failed]
  refine hfailure.wrap id ?_ rfl rfl rfl fun _ => rfl
  exact (metadata_setStatus sys task attempt.task .failed).symm

theorem effect_executed (hexact : PowersInRange) (hreliable : env.Reliable) {attempt : Attempt}
    (hmem : attempt.task ∈ sys.custody) (hapart : Apart task attempt.task)
    (result : Except Raised Unit) :
    Effect task sys (sys.executed env attempt result).system env
      (sys.executed env attempt result).notes := by
  cases result with
  | error e => exact effect_attemptFailed hexact hmem hapart e
  | ok _ =>
    rw [RuntimeEngine.executed, RuntimeEngine.attemptSucceeded_reliable hreliable]
    refine .calm (metadata_settle sys task attempt.task .completed) ?_ ?_
    · obtain ⟨object, hsettled⟩ := sys.settle_eq attempt.task .completed
      rw [hsettled]
      exact le_rfl
    · intro hstore
      rw [retryCounts, kinds_append, RuntimeEngine.kinds_appended hstore]
      rfl

theorem effect_conclude (hexact : PowersInRange) (hreliable : env.Reliable)
    (hapart : ∀ other ∈ sys.custody, Apart task other) (workerId : String)
    (result : Except Raised Unit) :
    Effect task sys (sys.conclude env workerId result).system env
      (sys.conclude env workerId result).notes := by
  unfold RuntimeEngine.conclude
  split
  · rename_i attempt hslot
    have hmem := RuntimeEngine.mem_custody_of_executing hslot
    refine (effect_executed hexact hreliable hmem (hapart _ hmem) result).wrap id rfl rfl rfl rfl ?_
    intro _
    rw [RuntimeEngine.finish, retryCounts_append]
    exact List.append_nil _
  · exact .calm rfl le_rfl fun _ => rfl

theorem effect_timeout (hexact : PowersInRange) (hreliable : env.Reliable)
    (hapart : ∀ other ∈ sys.custody, Apart task other) (workerId : String) :
    Effect task sys (sys.timeout env workerId).system env (sys.timeout env workerId).notes := by
  cases hfiring : sys.firing env workerId with
  | none =>
    rw [RuntimeEngine.timeout_idle hfiring]
    exact .calm rfl le_rfl fun _ => rfl
  | some attempt =>
    have hmem := RuntimeEngine.mem_custody_of_executing (RuntimeEngine.firing_some hfiring)
    obtain ⟨superseded, hsystem, hnotes⟩ := RuntimeEngine.timeout_firing hfiring
    have hfailure := effect_handleTaskFailure env hexact
      (show attempt.task ∈ (sys.setStatus attempt.task .failed).countFailed.custody from hmem)
      (hapart _ hmem) .timeout
    have hhandled : ((sys.setStatus attempt.task .failed).handleTaskTimeout env attempt).system =
        ((sys.setStatus attempt.task .failed).countFailed.handleTaskFailure env attempt.task
          .timeout).system := by
      rw [RuntimeEngine.handleTaskTimeout_reliable hreliable]
      rfl
    rw [hsystem, hnotes]
    refine hfailure.wrap id ?_ rfl ?_ ?_ ?_
    · exact (metadata_setStatus sys task attempt.task .failed).symm
    · rw [← hhandled]
      rfl
    · rw [← hhandled]
      rfl
    · intro hstore
      rw [retryCounts, RuntimeEngine.kinds_handleTaskTimeout hstore]
      rfl

omit [SchedulingPolicy P] [FloatArith] in
/-- A worker that gets a task takes it out of the waiting ones. -/
theorem waiting_start (hreliable : env.Reliable) (sys : RuntimeEngine P) (workerId : String) :
    sys.waiting = ↑(sys.offered workerId).toList + (sys.start env workerId).system.waiting := by
  cases hoffered : sys.offered workerId with
  | none =>
    rw [RuntimeEngine.start_idle hoffered]
    exact (zero_add _).symm
  | some task =>
    obtain ⟨hslot, rest, hpool⟩ := RuntimeEngine.offered_eq_some.mp hoffered
    rw [RuntimeEngine.start_reliable hreliable hslot hpool]
    simp only [RuntimeEngine.waiting, hpool, ← Multiset.cons_coe, Multiset.add_cons]
    exact (Multiset.singleton_add _ _).symm

omit [SchedulingPolicy P] [FloatArith] in
theorem metadata_start (hreliable : env.Reliable) (sys : RuntimeEngine P) (workerId : String) :
    ((sys.start env workerId).system.object task).metadata = (sys.object task).metadata := by
  cases hoffered : sys.offered workerId with
  | none => rw [RuntimeEngine.start_idle hoffered]
  | some other =>
    obtain ⟨hslot, rest, hpool⟩ := RuntimeEngine.offered_eq_some.mp hoffered
    rw [RuntimeEngine.start_reliable hreliable hslot hpool]
    exact metadata_setStatus _ task other .running

theorem retryCounts_schedule (hstore : env.Recording) (sys : RuntimeEngine P)
    (other : TaskHandle) (admission : Admission) (delay : Number) (taskId : String) :
    retryCounts taskId (sys.schedule env other admission delay).notes = [] := by
  rw [retryCounts, RuntimeEngine.kinds_schedule hstore, RuntimeEngine.routed]
  split
  · split
    · rfl
    · split <;> rfl
  · rfl

theorem retryCounts_submitTask (hstore : env.Recording) (sys : RuntimeEngine P)
    (other : TaskHandle) (title : String) (taskType : TaskType) (metadata : Metadata)
    (admission : Admission) (delay : Number) (taskId : String) :
    retryCounts taskId
      (sys.submitTask env other title taskType metadata admission delay).notes = [] := by
  rw [retryCounts, RuntimeEngine.kinds_submitTask hstore]
  split
  · rfl
  · exact retryCounts_schedule hstore _ other admission delay taskId

/-- What arrives is the only task that may come to wait besides those that do. -/
theorem waiting_arrival {action : Action} {other : TaskHandle}
    (harrival : action.arriving = {other}) (sys : RuntimeEngine P) (env : StepEnv) :
    (sys.perform env action).system.waiting ≤ {other} + sys.waiting := by
  have hcustody : (sys.perform env action).system.custody ≤ {other} + sys.custody := by
    rw [← harrival]
    refine RuntimeEngine.custody_perform ?_
    rintro workerId rfl
    exact absurd harrival.symm (Multiset.singleton_ne_zero other)
  refine sys.waiting_le {other} ?_ hcustody
  cases action with
  | schedule task admission delay =>
    obtain ⟨queue, tracker, hsystem⟩ := sys.system_schedule env task admission delay
    rw [RuntimeEngine.perform, hsystem]
    rfl
  | submitTask task title taskType metadata admission delay =>
    obtain hsystem | ⟨-, object, queue, tracker, hsystem⟩ :=
      sys.system_submitTask env task title taskType metadata admission delay
    · rw [RuntimeEngine.perform, hsystem]
    · rw [RuntimeEngine.perform, hsystem]
      rfl
  | _ => exact absurd harrival.symm (Multiset.singleton_ne_zero other)

theorem retryCounts_arrival {action : Action} {other : TaskHandle}
    (harrival : action.arriving = {other}) (hstore : env.Recording) (sys : RuntimeEngine P)
    (taskId : String) : retryCounts taskId (sys.perform env action).notes = [] := by
  cases action with
  | schedule task admission delay =>
    exact retryCounts_schedule hstore sys task admission delay taskId
  | submitTask task title taskType metadata admission delay =>
    exact retryCounts_submitTask hstore sys task title taskType metadata admission delay taskId
  | _ => exact absurd harrival.symm (Multiset.singleton_ne_zero other)

/-- The arrival of another task leaves the object of the task as it is. -/
theorem metadata_arrival {action : Action} {other : TaskHandle}
    (harrival : action.arriving = {other}) (hother : other.ref ≠ task.ref)
    (sys : RuntimeEngine P) (env : StepEnv) :
    ((sys.perform env action).system.object task).metadata = (sys.object task).metadata := by
  cases action with
  | schedule scheduled admission delay =>
    obtain rfl := Multiset.singleton_inj.mp harrival
    obtain ⟨queue, tracker, hsystem⟩ := sys.system_schedule env scheduled admission delay
    rw [RuntimeEngine.perform, hsystem]
    exact congrArg TaskObject.metadata (sys.object_setObject_ne hother.symm _)
  | submitTask submitted title taskType metadata admission delay =>
    obtain rfl := Multiset.singleton_inj.mp harrival
    obtain hsystem | ⟨-, object, queue, tracker, hsystem⟩ :=
      sys.system_submitTask env submitted title taskType metadata admission delay
    · rw [RuntimeEngine.perform, hsystem]
    · rw [RuntimeEngine.perform, hsystem]
      exact congrArg TaskObject.metadata (sys.object_setObject_ne hother.symm _)
  | _ => exact absurd harrival.symm (Multiset.singleton_ne_zero other)

theorem effect_arrival {action : Action} {other : TaskHandle}
    (harrival : action.arriving = {other}) (hother : other.ref ≠ task.ref)
    (sys : RuntimeEngine P) (env : StepEnv) :
    Effect task sys (sys.perform env action).system env (sys.perform env action).notes := by
  refine .of_le {other} ?_ (metadata_arrival harrival hother sys env)
    (waiting_arrival harrival sys env) fun hstore => retryCounts_arrival harrival hstore sys _
  rw [Multiset.mem_singleton]
  exact Apart.ne hother

omit [FloatArith] in
theorem effect_release (sys : RuntimeEngine P) (env : StepEnv) :
    Effect task sys (sys.release env).system env (sys.release env).notes := by
  obtain ⟨queue, tracker, hsystem⟩ := sys.system_release env
  refine .of_le 0 (Multiset.notMem_zero task) (by rw [hsystem]; rfl) ?_ ?_
  · exact sys.waiting_le 0 (by rw [hsystem])
      (RuntimeEngine.custody_release.trans (zero_add _).ge)
  · intro hstore
    unfold RuntimeEngine.release
    split
    · rfl
    · split
      · rw [retryCounts, RuntimeEngine.kinds_onDelayedTaskReady hstore]
        split <;> rfl
      · rfl

omit [FloatArith] in
theorem effect_dispatch (sys : RuntimeEngine P) (env : StepEnv) :
    Effect task sys (sys.dispatch env).system env (sys.dispatch env).notes := by
  obtain ⟨queue, pool, hsystem⟩ := sys.system_dispatch env
  refine .of_le 0 (Multiset.notMem_zero task) (by rw [hsystem]; rfl) ?_ ?_
  · exact sys.waiting_le 0 (by rw [hsystem])
      (RuntimeEngine.custody_dispatch.trans (zero_add _).ge)
  · intro hstore
    obtain ⟨taken, -, hkinds⟩ := RuntimeEngine.kinds_dispatch hstore sys
    rw [retryCounts, hkinds, List.filterMap_map]
    exact List.filterMap_eq_nil_iff.mpr fun _ _ => rfl

omit [SchedulingPolicy P] [FloatArith] in
theorem effect_respawn (sys : RuntimeEngine P) (env : StepEnv) (workerId : String) :
    Effect task sys (sys.respawn env workerId).system env (sys.respawn env workerId).notes := by
  obtain ⟨workers, hsystem⟩ := sys.system_respawn env workerId
  refine .calm (by rw [hsystem]; rfl) (by rw [hsystem]; rfl) ?_
  intro hstore
  rw [retryCounts, RuntimeEngine.kinds_respawn hstore]
  split <;> rfl

/-- What any step does about the task, but for its arrival and the start of an attempt. -/
theorem effect_perform (hexact : PowersInRange) (hreliable : env.Reliable)
    (hapart : ∀ other ∈ sys.custody, Apart task other) {action : Action}
    (hothers : ∀ other ∈ action.arriving, other.ref ≠ task.ref)
    (hstart : ∀ workerId, action ≠ .start workerId) :
    Effect task sys (sys.perform env action).system env (sys.perform env action).notes := by
  cases action with
  | schedule other admission delay =>
    exact effect_arrival rfl (hothers other (Multiset.mem_singleton_self _)) sys env
  | submitTask other title taskType metadata admission delay =>
    exact effect_arrival rfl (hothers other (Multiset.mem_singleton_self _)) sys env
  | release => exact effect_release sys env
  | dispatch => exact effect_dispatch sys env
  | start workerId => exact absurd rfl (hstart workerId)
  | conclude workerId result => exact effect_conclude hexact hreliable hapart workerId result
  | timeout workerId => exact effect_timeout hexact hreliable hapart workerId
  | respawn workerId => exact effect_respawn sys env workerId

end Effects

/-- The task that an action brings in, with the metadata that the plugins make. -/
def Action.admitted (before : Metadata) : Action → Option (TaskHandle × Metadata)
  | .schedule task admission _ => some (task, (admission before).1)
  | .submitTask task _ _ metadata admission _ => some (task, (admission metadata).1)
  | _ => none

theorem Action.arriving_of_admitted {before metadata : Metadata} {action : Action}
    {task : TaskHandle} (h : action.admitted before = some (task, metadata)) :
    action.arriving = {task} := by
  cases action with
  | schedule other admission delay =>
    exact congrArg (fun task => ({task} : Multiset TaskHandle))
      (Prod.mk.inj (Option.some.inj h)).1
  | submitTask other title taskType given admission delay =>
    exact congrArg (fun task => ({task} : Multiset TaskHandle)) (Prod.mk.inj (Option.some.inj h)).1
  | _ => cases h

section Runs

variable {P : Type}

namespace RuntimeEngine

/-- The tasks that the workers have taken, one for each attempt. -/
def take (sys : RuntimeEngine P) (taken : List TaskHandle) (a : StepEnv × Action) :
    List TaskHandle :=
  match a.2 with
  | .start workerId => taken ++ (sys.offered workerId).toList
  | _ => taken

theorem take_other {sys : RuntimeEngine P} {taken : List TaskHandle} {env : StepEnv}
    {action : Action} (h : ∀ workerId, action ≠ .start workerId) :
    sys.take taken (env, action) = taken := by
  cases action with
  | start workerId => exact absurd rfl (h workerId)
  | _ => rfl

variable [SchedulingPolicy P] [FloatArith]

/-- A run in which the attempts are listed. -/
def attemptRun (maxSize : Option ℤ) (poolSize : ℕ) (objects : ℕ → TaskObject)
    (actions : List (StepEnv × Action)) : (RuntimeEngine P × List TaskHandle) × List Note :=
  Machine.exec (Machine.watch step take) actions ((create maxSize poolSize objects, []), [])

theorem metadata_admitted {sys : RuntimeEngine P} {env : StepEnv} (hreliable : env.Reliable)
    {action : Action} {task : TaskHandle} {metadata : Metadata}
    (h : action.admitted (sys.object task).metadata = some (task, metadata))
    (hnew : task.id ∉ sys.taskManager.keys) :
    ((sys.perform env action).system.object task).metadata = metadata := by
  cases action with
  | schedule other admission delay =>
    obtain ⟨rfl, rfl⟩ := Prod.mk.inj (Option.some.inj h)
    obtain ⟨queue, tracker, hsystem⟩ := sys.system_schedule env other admission delay
    rw [perform, hsystem]
    exact congrArg TaskObject.metadata (sys.object_setObject_self rfl _)
  | submitTask other title taskType given admission delay =>
    obtain ⟨rfl, rfl⟩ := Prod.mk.inj (Option.some.inj h)
    obtain ⟨queue, tracker, hsystem⟩ := system_submitTask_fresh hreliable sys other title taskType
      given admission delay (by simpa [Dict.contains] using hnew)
    rw [perform, hsystem]
    exact congrArg TaskObject.metadata ((sys.register other).object_setObject_self rfl _)
  | _ => cases h

end RuntimeEngine

variable [SchedulingPolicy P] [FloatArith]

/-- A step whose appends succeed, in a run with a store or without, and that brings in
other tasks only. -/
structure Uninvolved (task : TaskHandle) (stored : Prop) (a : StepEnv × Action) : Prop where
  reliable : a.1.Reliable
  recording : stored → a.1.Recording
  others : ∀ other ∈ a.2.arriving, other.ref ≠ task.ref ∧ other.id ≠ task.id

/-- Nothing has been heard of the task. -/
structure Unseen (task : TaskHandle) (metadata : Metadata) (stored : Prop)
    (c : (RuntimeEngine P × List TaskHandle) × List Note) : Prop where
  apart : ∀ other ∈ c.1.1.custody, other.ref ≠ task.ref ∧ other.id ≠ task.id
  unregistered : task.id ∉ c.1.1.taskManager.keys
  metadata : (c.1.1.object task).metadata = metadata
  untaken : task ∉ c.1.2
  counts : stored → retryCounts task.id c.2 = []

/-- The task has been retried so many times. -/
structure WithinBudget (task : TaskHandle) (policy : RetryPolicy) (stored : Prop) (retries : ℕ)
    (c : (RuntimeEngine P × List TaskHandle) × List Note) : Prop where
  apart : ∀ other ∈ c.1.1.custody, Apart task other
  allowed : (c.1.1.object task).metadata.retryPolicy = some policy
  count : (c.1.1.object task).metadata.retryCount = .ok retries
  limit : (retries : ℤ) ≤ policy.maxRetries
  attempts : c.1.1.waiting.count task + c.1.2.count task ≤ retries + 1
  counts : stored → retryCounts task.id c.2 = (List.range retries).map fun i : ℕ => (i : ℤ) + 1

variable {task : TaskHandle} {metadata : Metadata} {policy : RetryPolicy} {stored : Prop}
  {retries : ℕ} {c : (RuntimeEngine P × List TaskHandle) × List Note} {a : StepEnv × Action}

/-- The tasks that are held after such a step were held before. -/
theorem Uninvolved.custody (ha : Uninvolved task stored a) {sys : RuntimeEngine P}
    (h : ∀ other ∈ sys.custody, Apart task other) :
    ∀ other ∈ (step sys a).1.custody, Apart task other := by
  intro other hother
  rcases RuntimeEngine.mem_custody_perform hother with harrived | hheld
  · exact .inr (ha.others other harrived)
  · exact h other hheld

omit [SchedulingPolicy P] [FloatArith] in
theorem retryCounts_start {env : StepEnv} (hstore : env.Recording) (sys : RuntimeEngine P)
    (workerId taskId : String) : retryCounts taskId (sys.start env workerId).notes = [] := by
  cases hoffered : sys.offered workerId with
  | none =>
    rw [RuntimeEngine.start_idle hoffered]
    rfl
  | some task =>
    rw [retryCounts, RuntimeEngine.kinds_start hstore hoffered]
    rfl

omit [SchedulingPolicy P] [FloatArith] in
/-- The invariant of a step that is no retry. -/
theorem WithinBudget.calm {s : RuntimeEngine P × List TaskHandle} {notes : List Note}
    (h : WithinBudget task policy stored retries c)
    (hapart : ∀ other ∈ s.1.custody, Apart task other)
    (hmetadata : (s.1.object task).metadata = (c.1.1.object task).metadata)
    (hattempts : s.1.waiting.count task + s.2.count task ≤
      c.1.1.waiting.count task + c.1.2.count task)
    (hcounts : stored → retryCounts task.id notes = []) :
    WithinBudget task policy stored retries (s, c.2 ++ notes) := by
  refine ⟨hapart, hmetadata ▸ h.allowed, hmetadata ▸ h.count, h.limit,
    hattempts.trans h.attempts, ?_⟩
  intro hstored
  rw [retryCounts_append, hcounts hstored, List.append_nil, h.counts hstored]

/-- A retry is counted, and it is one copy more. -/
theorem WithinBudget.advance (hexact : PowersInRange)
    (h : WithinBudget task policy stored retries c) (ha : Uninvolved task stored a) :
    ∃ retries', WithinBudget task policy stored retries'
      (Machine.advance (Machine.watch step RuntimeEngine.take) c a) := by
  have hapart := ha.custody h.apart
  obtain ⟨env, action⟩ := a
  by_cases hstart : ∃ workerId, action = .start workerId
  · obtain ⟨workerId, rfl⟩ := hstart
    have hreliable : env.Reliable := ha.reliable
    have hwaiting := congrArg (Multiset.count task) (waiting_start hreliable c.1.1 workerId)
    refine ⟨retries, h.calm hapart (metadata_start hreliable c.1.1 workerId) ?_ ?_⟩
    · rw [Multiset.count_add, Multiset.coe_count] at hwaiting
      dsimp only [Machine.watch, RuntimeEngine.take]
      rw [List.count_append, hwaiting]
      change (c.1.1.start env workerId).system.waiting.count task + _ ≤ _
      omega
    · exact fun hstored => retryCounts_start (ha.recording hstored) c.1.1 workerId task.id
  · have heffect : Effect task c.1.1 (c.1.1.perform env action).system env
        (c.1.1.perform env action).notes :=
      effect_perform hexact ha.reliable h.apart (fun other hother => (ha.others other hother).1)
        fun workerId haction => hstart ⟨workerId, haction⟩
    have htaken : c.1.1.take c.1.2 (env, action) = c.1.2 :=
      RuntimeEngine.take_other fun workerId haction => hstart ⟨workerId, haction⟩
    cases heffect with
    | calm hmetadata hwaiting hcounts =>
      refine ⟨retries, h.calm hapart hmetadata ?_ fun hstored => hcounts (ha.recording hstored)⟩
      dsimp only [Machine.watch]
      rw [htaken]
      exact Nat.add_le_add_right hwaiting _
    | retried hheld policy' count hpolicy hcount hbudget hmetadata hwaiting hcounts =>
      obtain rfl := Option.some.inj (h.allowed.symm.trans hpolicy)
      obtain rfl := Except.ok.inj (h.count.symm.trans hcount)
      refine ⟨retries + 1, hapart, ?_, ?_, ?_, ?_, ?_⟩
      · exact (congrArg Metadata.retryPolicy hmetadata).trans h.allowed
      · refine (congrArg Metadata.retryCount hmetadata).trans ?_
        rw [Metadata.retryCount_setRetryCount]
        push_cast
        rfl
      · push_cast
        omega
      · have hbefore := h.attempts
        dsimp only [Machine.advance, Machine.watch]
        rw [htaken]
        change (c.1.1.perform env action).system.waiting.count task + _ ≤ _
        omega
      · intro hstored
        have hlogged : retryCounts task.id (c.2 ++ (c.1.1.perform env action).notes) = _ :=
          retryCounts_append task.id _ _
        rw [h.counts hstored, hcounts (ha.recording hstored)] at hlogged
        refine hlogged.trans ?_
        rw [List.range_succ, List.map_append]
        rfl

/-- Other tasks come and go. -/
theorem Unseen.advance (hexact : PowersInRange) (h : Unseen task metadata stored c)
    (ha : Uninvolved task stored a) :
    Unseen task metadata stored
      (Machine.advance (Machine.watch step RuntimeEngine.take) c a) := by
  obtain ⟨env, action⟩ := a
  have hreliable : env.Reliable := ha.reliable
  have hapart : ∀ other ∈ (c.1.1.perform env action).system.custody,
      other.ref ≠ task.ref ∧ other.id ≠ task.id := by
    intro other hother
    exact (RuntimeEngine.mem_custody_perform hother).elim (ha.others other) (h.apart other)
  have hunregistered : task.id ∉ (c.1.1.perform env action).system.taskManager.keys := by
    obtain hsame | ⟨other, title, taskType, given, admission, delay, rfl, hset⟩ :=
      c.1.1.taskManager_perform env action
    · rw [hsame]
      exact h.unregistered
    · rw [hset, Dict.mem_keys_set]
      have hid := (ha.others other (Multiset.mem_singleton_self _)).2
      exact not_or.mpr ⟨hid.symm, h.unregistered⟩
  by_cases hstart : ∃ workerId, action = .start workerId
  · obtain ⟨workerId, rfl⟩ := hstart
    refine ⟨hapart, hunregistered, (metadata_start hreliable c.1.1 workerId).trans h.metadata,
      ?_, ?_⟩
    · refine List.mem_append.not.mpr (not_or.mpr ⟨h.untaken, ?_⟩)
      intro hoffered
      have hmem := RuntimeEngine.mem_custody_of_offered (Option.mem_toList.mp hoffered)
      exact (h.apart task hmem).1 rfl
    · intro hstored
      refine (retryCounts_append task.id _ _).trans ?_
      rw [h.counts hstored]
      exact retryCounts_start (ha.recording hstored) c.1.1 workerId task.id
  · have heffect : Effect task c.1.1 (c.1.1.perform env action).system env
        (c.1.1.perform env action).notes :=
      effect_perform hexact hreliable (fun other hother => .inr (h.apart other hother))
        (fun other hother => (ha.others other hother).1)
        fun workerId haction => hstart ⟨workerId, haction⟩
    have htaken : c.1.1.take c.1.2 (env, action) = c.1.2 :=
      RuntimeEngine.take_other fun workerId haction => hstart ⟨workerId, haction⟩
    cases heffect with
    | calm hmetadata hwaiting hcounts =>
      have huntaken : task ∉ c.1.1.take c.1.2 (env, action) := by
        rw [htaken]
        exact h.untaken
      refine ⟨hapart, hunregistered, hmetadata.trans h.metadata, huntaken, ?_⟩
      intro hstored
      refine (retryCounts_append task.id _ _).trans ?_
      rw [h.counts hstored]
      exact hcounts (ha.recording hstored)
    | retried hheld => exact absurd rfl (h.apart task hheld).1

/-- The task arrives, for the first time. -/
theorem Unseen.arrive {before : Metadata} {env : StepEnv} {action : Action}
    (h : Unseen task before stored c) (hreliable : env.Reliable)
    (hrecording : stored → env.Recording)
    (hadmitted : action.admitted before = some (task, metadata))
    (hpolicy : metadata.retryPolicy = some policy) (hmax : 0 ≤ policy.maxRetries)
    (hcount : metadata.entries.get? "retry_count" = none) :
    WithinBudget task policy stored 0
      (Machine.advance (Machine.watch step RuntimeEngine.take) c (env, action)) := by
  have harriving := Action.arriving_of_admitted hadmitted
  have hmetadata : ((c.1.1.perform env action).system.object task).metadata = metadata := by
    refine RuntimeEngine.metadata_admitted hreliable ?_ h.unregistered
    rw [h.metadata]
    exact hadmitted
  have htaken : c.1.1.take c.1.2 (env, action) = c.1.2 := by
    refine RuntimeEngine.take_other ?_
    rintro workerId rfl
    cases hadmitted
  refine ⟨?_, ?_, ?_, hmax, ?_, ?_⟩
  · intro other hother
    rcases RuntimeEngine.mem_custody_perform hother with harrived | hheld
    · rw [harriving] at harrived
      exact .inl (Multiset.mem_singleton.mp harrived)
    · exact .inr (h.apart other hheld)
  · exact (congrArg Metadata.retryPolicy hmetadata).trans hpolicy
  · refine (congrArg Metadata.retryCount hmetadata).trans ?_
    rw [Metadata.retryCount, hcount]
    rfl
  · have hwaiting := Multiset.count_le_of_le task (waiting_arrival harriving c.1.1 env)
    have hnone : c.1.1.waiting.count task = 0 := by
      refine Multiset.count_eq_zero.mpr fun hmem => ?_
      exact (h.apart task (Multiset.mem_of_le (Multiset.le_add_right _ _) hmem)).1 rfl
    rw [Multiset.count_add, Multiset.count_singleton_self, hnone] at hwaiting
    have huntaken := List.count_eq_zero.mpr h.untaken
    dsimp only [Machine.advance, Machine.watch]
    rw [htaken, huntaken]
    exact hwaiting
  · intro hstored
    refine (retryCounts_append task.id _ _).trans ?_
    rw [h.counts hstored]
    exact retryCounts_arrival harriving (hrecording hstored) c.1.1 task.id

end Runs

end MollisRuntime.Scheduling
