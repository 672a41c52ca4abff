import Mathlib.Algebra.Order.Group.Multiset
import MollisRuntime.Scheduling.Handlers

/-!
Where the tasks are: in the storage of the queue, in the heap of the delayed
tasks, in the queue of the pool, or with a worker. A step brings nothing into
these places but a task that is scheduled and one whose timeout leads to a retry.
-/
namespace MollisRuntime.Scheduling

open Ordered Python Persistence MinHeap

def Slot.tasks (slot : Slot) : Multiset TaskHandle := slot.task.toList

@[simp] theorem Slot.tasks_idle : Slot.idle.tasks = 0 := rfl

@[simp] theorem Slot.tasks_crashed : Slot.crashed.tasks = 0 := rfl

@[simp] theorem Slot.tasks_executing (attempt : Attempt) :
    (Slot.executing attempt).tasks = {attempt.task} := rfl

/-- The task that an action brings in. -/
def Action.arriving : Action → Multiset TaskHandle
  | .schedule task _ _ => {task}
  | .submitTask task _ _ _ _ _ => {task}
  | _ => 0

namespace RuntimeEngine

variable {P : Type}

def custody (sys : RuntimeEngine P) : Multiset TaskHandle :=
  ↑sys.queue.storage.values + ↑sys.tracker.tasks + ↑sys.pool + ↑sys.running

/-- The tasks that wait for a worker. -/
def waiting (sys : RuntimeEngine P) : Multiset TaskHandle :=
  ↑sys.queue.storage.values + ↑sys.tracker.tasks + ↑sys.pool

section Places

variable (sys : RuntimeEngine P)

/-- A step that leaves the workers alone brings in what it brings in to wait. -/
theorem waiting_le {s : RuntimeEngine P} (more : Multiset TaskHandle)
    (hworkers : s.workers = sys.workers) (h : s.custody ≤ more + sys.custody) :
    s.waiting ≤ more + sys.waiting := by
  have hrunning : s.running = sys.running := by rw [running, hworkers, running]
  have hsum : s.waiting + ↑sys.running ≤ more + sys.waiting + ↑sys.running := by
    rw [add_assoc, ← hrunning]
    refine h.trans (le_of_eq ?_)
    rw [hrunning]
    rfl
  exact le_of_add_le_add_right hsum

@[simp] theorem custody_setObject (task : TaskHandle) (object : TaskObject) :
    (sys.setObject task object).custody = sys.custody := rfl

/-- The places without the one of a worker. -/
theorem custody_setSlot {workerId : String} {old : Slot}
    (h : sys.workers.get? workerId = some old) :
    ∃ rest, sys.custody = old.tasks + rest ∧
      ∀ new, (sys.setSlot workerId new).custody = new.tasks + rest := by
  have hrunning : ∀ slot (slots : List Slot),
      ((slot :: slots).filterMap Slot.task : Multiset TaskHandle) =
        slot.tasks + (slots.filterMap Slot.task : Multiset TaskHandle) := by
    intro slot slots
    rw [List.filterMap_cons, Slot.tasks]
    cases slot.task <;> rfl
  have hbefore : (sys.running : Multiset TaskHandle) = old.tasks +
      ((sys.workers.erase workerId).values.filterMap Slot.task : Multiset TaskHandle) := by
    rw [← hrunning]
    exact Multiset.coe_eq_coe.mpr ((Dict.values_erase_perm h).filterMap _)
  have hafter : ∀ new, ((sys.setSlot workerId new).running : Multiset TaskHandle) = new.tasks +
      ((sys.workers.erase workerId).values.filterMap Slot.task : Multiset TaskHandle) := by
    intro new
    rw [← hrunning]
    exact Multiset.coe_eq_coe.mpr ((Dict.values_set_perm _ _ _).filterMap _)
  refine ⟨↑sys.queue.storage.values + ↑sys.tracker.tasks + ↑sys.pool +
    ((sys.workers.erase workerId).values.filterMap Slot.task : Multiset TaskHandle), ?_, ?_⟩
  · rw [custody, hbefore]
    exact add_left_comm _ _ _
  · intro new
    rw [custody, hafter]
    exact add_left_comm _ _ _

/-- The tasks that are due after the first one. -/
theorem custody_pop {entry : Entry Number TaskHandle} {rest : List (Entry Number TaskHandle)}
    (h : sys.tracker.heap.entries = entry :: rest) :
    sys.custody =
      entry.item ::ₘ { sys with tracker.heap := sys.tracker.heap.pop }.custody := by
  have hpop : sys.tracker.heap.pop.entries = rest := congrArg List.tail h
  simp only [custody, DelayedTaskTracker.tasks, h, hpop, List.map_cons, ← Multiset.cons_coe,
    Multiset.add_cons, Multiset.cons_add]
  rfl

theorem custody_pushDelayed [FloatArith] (env : StepEnv) (task : TaskHandle) (delay : Number) :
    (sys.pushDelayed env task delay).custody = task ::ₘ sys.custody := by
  have htasks : ((sys.pushDelayed env task delay).tracker.tasks : Multiset TaskHandle) =
      task ::ₘ ↑sys.tracker.tasks :=
    Multiset.coe_eq_coe.mpr ((file_perm _ _).map Entry.item)
  rw [custody, htasks, Multiset.add_cons, Multiset.cons_add, Multiset.cons_add]
  rfl

end Places

section Start

variable [SchedulingPolicy P] {maxSize : Option ℤ} {poolSize : ℕ} {objects : ℕ → TaskObject}

theorem custody_create : (create maxSize poolSize objects : RuntimeEngine P).custody = 0 := by
  have hrunning : (create maxSize poolSize objects : RuntimeEngine P).running = [] := by
    refine List.filterMap_eq_nil_iff.mpr ?_
    intro slot hslot
    obtain ⟨⟨workerId, _⟩, hentry, rfl⟩ := List.mem_map.mp hslot
    rw [idle_of_create ((Dict.mem_entries_iff _ _ _).mp hentry)]
    rfl
  rw [custody, hrunning]
  rfl

end Start

section Arrivals

variable [SchedulingPolicy P] {sys : RuntimeEngine P} {env : StepEnv} {task : TaskHandle}

theorem custody_enqueue : (sys.enqueue env task).system.custody ≤ task ::ₘ sys.custody := by
  have hstorage : ((sys.enqueue env task).system.queue.storage.values : Multiset TaskHandle) ≤
      task ::ₘ ↑sys.queue.storage.values := by
    rw [system_enqueue]
    dsimp only
    rw [InMemoryTaskQueue.storage_enqueue]
    split
    · rw [Multiset.coe_eq_coe.mpr (Dict.values_set_perm _ _ _), ← Multiset.cons_coe]
      refine Multiset.cons_le_cons _ (Multiset.coe_le.mpr (List.Sublist.subperm ?_))
      exact List.filter_sublist.map Prod.snd
    · exact Multiset.le_cons_self _ _
  have hsum := add_le_add_left (add_le_add_left (add_le_add_left hstorage
    ↑sys.tracker.tasks) ↑sys.pool) ↑sys.running
  simp only [Multiset.cons_add] at hsum
  exact hsum

theorem custody_onDelayedTaskReady :
    (sys.onDelayedTaskReady env task).system.custody ≤ task ::ₘ sys.custody := by
  rw [system_onDelayedTaskReady]
  exact custody_enqueue

variable [FloatArith] {error : Raised} {delay : Number}

theorem custody_addDelayedTask :
    (sys.addDelayedTask env task delay).system.custody ≤ task ::ₘ sys.custody := by
  by_cases h : delay ≤ .finite 0
  · rw [addDelayedTask_ready h]
    exact custody_onDelayedTaskReady
  · rw [addDelayedTask_later h]
    exact (sys.custody_pushDelayed env task delay).le

theorem custody_handleTaskFailure :
    (sys.handleTaskFailure env task error).system.custody ≤ task ::ₘ sys.custody := by
  by_cases h : RetryEngine.shouldRetry (sys.object task).metadata error = .ok true
  · cases hprepare : RetryEngine.prepareRetry (sys.object task) with
    | mk object computed =>
      cases computed with
      | error e =>
        rw [handleTaskFailure_overflow h hprepare]
        exact Multiset.le_cons_self _ _
      | ok delay =>
        rw [system_handleTaskFailure_retried h hprepare]
        exact custody_addDelayedTask
  · rw [system_handleTaskFailure_denied h]
    exact Multiset.le_cons_self _ _

theorem custody_handleTaskTimeout (attempt : Attempt) :
    (sys.handleTaskTimeout env attempt).system.custody ≤ attempt.task ::ₘ sys.custody := by
  rw [system_handleTaskTimeout]
  split
  · exact custody_handleTaskFailure
  · exact Multiset.le_cons_self _ _

end Arrivals

section Moves

variable {sys : RuntimeEngine P} {env : StepEnv}

theorem custody_release [SchedulingPolicy P] : (sys.release env).system.custody ≤ sys.custody := by
  unfold release
  split
  · exact le_rfl
  · rename_i entry rest hentries
    split
    · rw [sys.custody_pop hentries]
      exact custody_onDelayedTaskReady
    · exact le_rfl

theorem custody_dispatch [SchedulingPolicy P] :
    (sys.dispatch env).system.custody ≤ sys.custody := by
  unfold dispatch
  split
  · dsimp only
    obtain ⟨hstorage, hresult⟩ | ⟨taskId, task, hget, hstorage, hresult⟩ :=
      sys.queue.dequeue_cases env.queue
    · rw [custody, hstorage, hresult, Option.toList_none, List.append_nil]
      exact le_rfl
    · have hbefore : (sys.queue.storage.values : Multiset TaskHandle) =
          task ::ₘ ↑(sys.queue.storage.erase taskId).values :=
        Multiset.coe_eq_coe.mpr (Dict.values_erase_perm hget)
      have hpool : ((sys.pool ++ (sys.queue.dequeue env.queue).result.toOption.toList :
          List TaskHandle) : Multiset TaskHandle) ≤ task ::ₘ ↑sys.pool := by
        rw [hresult]
        cases (env.queue.announce (.taskDequeued task.id) (.taskDequeued task.id)).2 with
        | error e =>
          refine le_trans (le_of_eq ?_) (Multiset.le_cons_self _ _)
          exact congrArg _ (List.append_nil _)
        | ok _ => exact (Multiset.coe_eq_coe.mpr (List.perm_append_singleton _ _)).le
      rw [custody, custody, hstorage, hbefore]
      refine add_le_add_left ?_ _
      refine (add_le_add_right hpool _).trans (le_of_eq ?_)
      rw [Multiset.add_cons, Multiset.cons_add, Multiset.cons_add]
  · exact le_rfl

theorem custody_pool {task : TaskHandle} {rest : List TaskHandle} (h : sys.pool = task :: rest) :
    sys.custody = task ::ₘ { sys with pool := rest }.custody := by
  simp only [custody, h, ← Multiset.cons_coe, Multiset.add_cons, Multiset.cons_add]
  rfl

theorem custody_start {workerId : String} :
    (sys.start env workerId).system.custody ≤ sys.custody := by
  unfold start
  split
  · rename_i task rest hslot hpool
    obtain ⟨others, hbefore, hafter⟩ :=
      custody_setSlot { sys with pool := rest } hslot
    dsimp only
    rw [custody_pool hpool]
    rw [hbefore, Slot.tasks_idle, zero_add]
    split
    · refine (hafter .crashed).le.trans ?_
      rw [Slot.tasks_crashed, zero_add]
      exact Multiset.le_cons_self _ _
    · refine le_of_eq ((hafter _).trans ?_)
      rw [Slot.tasks_executing, Multiset.singleton_add]
  · exact le_rfl

theorem custody_respawn {workerId : String} :
    (sys.respawn env workerId).system.custody = sys.custody := by
  unfold respawn
  split
  · rename_i hslot
    obtain ⟨others, hbefore, hafter⟩ := custody_setSlot _ hslot
    rw [Outcome.system_caught, Outcome.andThen]
    split
    · rw [system_andThen_record, system_record]
    · dsimp only
      rw [system_andThen_record, system_record, hafter, hbefore]
      rfl
  · rfl

/-- The worker lets go of the task of its attempt. -/
theorem custody_finish {workerId : String} {attempt : Attempt} {o : Outcome P}
    (h : o.system.workers.get? workerId = some (.executing attempt)) :
    o.system.custody = attempt.task ::ₘ (finish workerId attempt o).system.custody := by
  obtain ⟨others, hbefore, hafter⟩ := custody_setSlot _ h
  rw [hbefore, finish, hafter, Slot.tasks_idle, zero_add, Slot.tasks_executing,
    Multiset.singleton_add]

theorem mem_custody_of_executing {workerId : String} {attempt : Attempt}
    (h : sys.workers.get? workerId = some (.executing attempt)) : attempt.task ∈ sys.custody := by
  obtain ⟨others, hplaces, -⟩ := custody_setSlot _ h
  rw [hplaces]
  simp

theorem mem_custody {sys : RuntimeEngine P} {task : TaskHandle} :
    task ∈ sys.custody ↔ task ∈ sys.queue.storage.values ∨ task ∈ sys.tracker.tasks ∨
      task ∈ sys.pool ∨ task ∈ sys.running := by
  simp only [custody, Multiset.mem_add, Multiset.mem_coe, or_assoc]

theorem mem_custody_of_offered {sys : RuntimeEngine P} {workerId : String} {task : TaskHandle}
    (h : sys.offered workerId = some task) : task ∈ sys.custody := by
  obtain ⟨-, rest, hpool⟩ := offered_eq_some.mp h
  rw [custody_pool hpool]
  exact Multiset.mem_cons_self task _

end Moves

section Steps

variable [SchedulingPolicy P] [FloatArith] {sys : RuntimeEngine P} {env : StepEnv}

theorem custody_schedule {task : TaskHandle} {admission : Admission} {delay : Number} :
    (sys.schedule env task admission delay).system.custody ≤ task ::ₘ sys.custody := by
  unfold schedule
  dsimp only
  split
  · exact Multiset.le_cons_self _ _
  · rw [Outcome.system_andThen fun _ => rfl]
    split
    · rw [system_andThen_record]
      exact custody_addDelayedTask
    · exact custody_enqueue

theorem custody_submitTask {task : TaskHandle} {title : String} {taskType : TaskType}
    {metadata : Metadata} {admission : Admission} {delay : Number} :
    (sys.submitTask env task title taskType metadata admission delay).system.custody ≤
      task ::ₘ sys.custody := by
  unfold submitTask
  split
  · exact Multiset.le_cons_self _ _
  · rw [Outcome.andThen]
    split
    · rw [system_record]
      exact Multiset.le_cons_self _ _
    · dsimp only
      rw [system_record]
      exact custody_schedule

theorem custody_attemptFailed (attempt : Attempt) (error : Raised) :
    (sys.attemptFailed env attempt error).system.custody ≤ attempt.task ::ₘ sys.custody := by
  rw [attemptFailed, Outcome.system_noting, Outcome.system_caught, settle_failed]
  exact custody_handleTaskFailure

theorem custody_executed (sys : RuntimeEngine P) (env : StepEnv) (attempt : Attempt)
    (result : Except Raised Unit) :
    (sys.executed env attempt result).system.custody ≤ attempt.task ::ₘ sys.custody := by
  cases result with
  | error e => exact custody_attemptFailed attempt e
  | ok _ =>
    obtain ⟨object, hsettled⟩ := sys.settle_eq attempt.task .completed
    obtain ⟨e, -, hraised⟩ | ⟨-, hdone⟩ := sys.system_attemptSucceeded env attempt
    · rw [executed, hraised, hsettled]
      exact custody_attemptFailed attempt e
    · rw [executed, hdone, hsettled]
      exact Multiset.le_cons_self _ _

theorem custody_conclude {workerId : String} {result : Except Raised Unit} :
    (sys.conclude env workerId result).system.custody ≤ sys.custody := by
  unfold conclude
  split
  · rename_i attempt hslot
    have hworker : (sys.executed env attempt result).system.workers.get? workerId =
        some (.executing attempt) := by
      rw [(sys.workers_executed env attempt result).1]
      exact hslot
    have hmore := custody_executed sys env attempt result
    rw [custody_finish hworker] at hmore
    exact (Multiset.cons_le_cons_iff _).mp hmore
  · exact le_rfl

theorem custody_timeout {workerId : String} {attempt : Attempt}
    (h : sys.firing env workerId = some attempt) :
    (sys.timeout env workerId).system.custody ≤ attempt.task ::ₘ sys.custody := by
  obtain ⟨object, queue, tracker, hsystem⟩ :=
    (sys.setStatus attempt.task .failed).system_handleTaskTimeout_frame env attempt
  have hworker : ((sys.setStatus attempt.task .failed).handleTaskTimeout env
      attempt).system.workers.get? workerId = some (.executing attempt) := by
    have hbefore := firing_some h
    rw [hsystem]
    exact hbefore
  obtain ⟨others, hplaces, hafter⟩ := custody_setSlot _ hworker
  have hmore : ((sys.setStatus attempt.task .failed).handleTaskTimeout env
      attempt).system.custody ≤ attempt.task ::ₘ sys.custody :=
    custody_handleTaskTimeout attempt
  rw [timeout, h]
  rw [hplaces] at hmore
  exact (hafter _).le.trans hmore

/-- A timeout that is not retried moves no task. -/
theorem custody_timeout_denied {workerId : String}
    (h : ¬ sys.RetriesTimeout env workerId) :
    (sys.timeout env workerId).system.custody = sys.custody := by
  cases hfiring : sys.firing env workerId with
  | none => rw [timeout, hfiring]
  | some attempt =>
    obtain ⟨others, hbefore, hafter⟩ := custody_setSlot _ (firing_some hfiring)
    rw [system_timeout_denied hfiring h, hbefore]
    exact hafter _

/-- Without such a timeout nothing but a scheduled task is brought in. -/
theorem custody_perform {action : Action}
    (h : ∀ workerId, action = .timeout workerId → ¬ sys.RetriesTimeout env workerId) :
    (sys.perform env action).system.custody ≤ action.arriving + sys.custody := by
  cases action with
  | schedule task admission delay => exact custody_schedule
  | submitTask task title taskType metadata admission delay => exact custody_submitTask
  | release => exact custody_release.trans (zero_add _).ge
  | dispatch => exact custody_dispatch.trans (zero_add _).ge
  | start workerId => exact custody_start.trans (zero_add _).ge
  | conclude workerId result => exact custody_conclude.trans (zero_add _).ge
  | timeout workerId =>
    exact (custody_timeout_denied (h workerId rfl)).le.trans (zero_add _).ge
  | respawn workerId => exact custody_respawn.le.trans (zero_add _).ge

/-- With any timeouts, no other task appears. -/
theorem mem_custody_perform {action : Action} {task : TaskHandle}
    (h : task ∈ (sys.perform env action).system.custody) :
    task ∈ action.arriving ∨ task ∈ sys.custody := by
  by_cases hretries : ∃ workerId, action = .timeout workerId ∧ sys.RetriesTimeout env workerId
  · obtain ⟨workerId, rfl, attempt, hfiring, -⟩ := hretries
    refine .inr ?_
    rcases Multiset.mem_cons.mp (Multiset.mem_of_le (custody_timeout hfiring) h) with rfl | hold
    · exact mem_custody_of_executing (firing_some hfiring)
    · exact hold
  · refine Multiset.mem_add.mp (Multiset.mem_of_le (custody_perform ?_) h)
    intro workerId haction hretry
    exact hretries ⟨workerId, haction, hretry⟩

end Steps

end RuntimeEngine

end MollisRuntime.Scheduling
