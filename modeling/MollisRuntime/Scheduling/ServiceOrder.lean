import MollisRuntime.Scheduling.EventSourcing
import MollisRuntime.Scheduling.Recorded

/-!
First come, first served. With the FIFO policy a task goes through two queues in
series, the task queue and the pool's own, and any number of workers take from the
second. The journal shows that tasks are dequeued, and started, in the order in
which they entered the task queue, also when they came from the delayed tasks or
are retried.
-/
namespace MollisRuntime.Scheduling

open Ordered Python Persistence MinHeap
open RuntimeEngine (step create run)

/-- How far a task has come. -/
inductive Stage
  | queued
  | dequeued
  | started
  deriving DecidableEq

def passage : EventKind → Option (Stage × String)
  | .taskQueued taskId => some (.queued, taskId)
  | .taskDequeued taskId => some (.dequeued, taskId)
  | .taskStarted taskId => some (.started, taskId)
  | _ => none

def passages (ks : List EventKind) : List (Stage × String) := ks.filterMap passage

/-- The ids that have come to a stage, in this order. -/
def atStage (s : Stage) (ks : List EventKind) : List String :=
  ((passages ks).filter fun p => p.1 = s).map Prod.snd

theorem atStage_append (s : Stage) (ks more : List EventKind) :
    atStage s (ks ++ more) = atStage s ks ++ atStage s more := by
  rw [atStage, passages, List.filterMap_append, List.filter_append, List.map_append]
  rfl

theorem atStage_of_passages {s : Stage} {ks : List EventKind} {ps : List (Stage × String)}
    (h : passages ks = ps) : atStage s ks = (ps.filter fun p => p.1 = s).map Prod.snd := by
  rw [atStage, h]

/-- What a handler does to the task queue: nothing, or one task enters it. -/
inductive Feeds (q q' : InMemoryTaskQueue FIFOPolicy) (ks : List EventKind) : Prop
  | quiet (hqueue : q' = q) (hks : passages ks = [])
  | enters (task : TaskHandle) (hstorage : q'.storage = q.storage.set task.id task)
      (horder : q'.policy.order = q.policy.order ++ [task.id])
      (hks : passages ks = [(.queued, task.id)])

theorem Feeds.around {q q' : InMemoryTaskQueue FIFOPolicy} {ks : List EventKind}
    (h : Feeds q q' ks) (before after : List EventKind) (hbefore : passages before = [])
    (hafter : passages after = []) : Feeds q q' (before ++ ks ++ after) := by
  have hmiddle : passages (before ++ ks ++ after) = passages ks := by
    rw [passages, List.filterMap_append, List.filterMap_append]
    change passages before ++ passages ks ++ passages after = _
    rw [hbefore, hafter, List.nil_append, List.append_nil]
  cases h with
  | quiet hqueue hks => exact .quiet hqueue (hmiddle.trans hks)
  | enters task hstorage horder hks => exact .enters task hstorage horder (hmiddle.trans hks)

/-- Only the loop and the workers touch the pool's queue. -/
def Action.touchesPool : Action → Bool
  | .dispatch => true
  | .start _ => true
  | _ => false

namespace RuntimeEngine

variable {sys : RuntimeEngine FIFOPolicy} {env : StepEnv} (hstore : env.Recording)
include hstore

section Feeding

variable {task : TaskHandle}

theorem feeds_enqueue (sys : RuntimeEngine FIFOPolicy) (task : TaskHandle) :
    Feeds sys.queue (sys.enqueue env task).system.queue (kinds (sys.enqueue env task).notes) := by
  rw [kinds_enqueue hstore, system_enqueue]
  have hadd : SchedulingPolicy.add sys.queue.policy task.id (sys.object task).metadata.entries =
    (sys.queue.policy.add task.id, .ok ()) := rfl
  cases hreached : sys.queue.reached with
  | some bound =>
    have hrefused : ¬ sys.Accepts task := by
      rintro ⟨hroom, -⟩
      rw [hreached] at hroom
      cases hroom
    rw [if_neg hrefused, InMemoryTaskQueue.enqueue_full hreached]
    exact .quiet rfl rfl
  | none =>
    have haccepts : sys.Accepts task := ⟨hreached, by rw [hadd]⟩
    rw [if_pos haccepts, InMemoryTaskQueue.enqueue_accepted hreached hadd]
    exact .enters task rfl rfl rfl

theorem feeds_onDelayedTaskReady (sys : RuntimeEngine FIFOPolicy) (task : TaskHandle) :
    Feeds sys.queue (sys.onDelayedTaskReady env task).system.queue
      (kinds (sys.onDelayedTaskReady env task).notes) := by
  have hfeeds := feeds_enqueue hstore sys task
  rw [system_onDelayedTaskReady, kinds_onDelayedTaskReady hstore]
  rw [kinds_enqueue hstore] at hfeeds
  split
  · rename_i haccepts
    rw [if_pos haccepts] at hfeeds
    exact hfeeds.around [] [.delayedTaskReleased task.id] rfl rfl
  · rename_i hrefused
    rw [if_neg hrefused] at hfeeds
    exact hfeeds

variable [FloatArith]

theorem feeds_addDelayedTask (sys : RuntimeEngine FIFOPolicy) (task : TaskHandle)
    (delay : Number) :
    Feeds sys.queue (sys.addDelayedTask env task delay).system.queue
      (kinds (sys.addDelayedTask env task delay).notes) := by
  by_cases hdelay : delay ≤ .finite 0
  · rw [addDelayedTask_ready hdelay]
    exact feeds_onDelayedTaskReady hstore sys task
  · rw [addDelayedTask_later hdelay]
    exact .quiet rfl rfl

theorem feeds_handleTaskFailure (sys : RuntimeEngine FIFOPolicy) (task : TaskHandle)
    (error : Raised) :
    Feeds sys.queue (sys.handleTaskFailure env task error).system.queue
      (kinds (sys.handleTaskFailure env task error).notes) := by
  cases hretry : RetryEngine.shouldRetry (sys.object task).metadata error with
  | error e =>
    simp only [handleTaskFailure, hretry]
    exact .quiet rfl rfl
  | ok retry =>
    cases retry with
    | false =>
      rw [handleTaskFailure_denied hstore.reliable hretry]
      exact .quiet rfl (by dsimp only; rw [kinds_evaluated, kinds_appended hstore]; rfl)
    | true =>
      cases hprepare : RetryEngine.prepareRetry (sys.object task) with
      | mk object computed =>
        cases computed with
        | error e =>
          rw [handleTaskFailure_overflow hretry hprepare]
          exact .quiet rfl rfl
        | ok delay =>
          have hfeeds := feeds_addDelayedTask hstore (sys.setObject task object) task delay
          rw [system_handleTaskFailure_retried hretry hprepare,
            kinds_handleTaskFailure_retried hstore hretry hprepare]
          exact hfeeds.around [] [_, _] rfl rfl

theorem feeds_schedule (sys : RuntimeEngine FIFOPolicy) (task : TaskHandle)
    (admission : Admission) (delay : Number) :
    Feeds sys.queue (sys.schedule env task admission delay).system.queue
      (kinds (sys.schedule env task admission delay).notes) := by
  unfold schedule
  dsimp only
  split
  · exact .quiet rfl rfl
  · rw [kinds_andThen_accepted, Outcome.system_andThen fun _ => rfl]
    split
    · rename_i hdelay
      have hlater : ¬ delay ≤ .finite 0 := not_le.mpr hdelay
      rw [kinds_andThen_record hstore (result_addDelayedTask _ _ _ _), system_andThen_record,
        addDelayedTask_later hlater]
      exact .quiet rfl rfl
    · exact feeds_enqueue hstore (sys.setMetadata task _) task

theorem feeds_submitTask (sys : RuntimeEngine FIFOPolicy) (task : TaskHandle) (title : String)
    (taskType : TaskType) (metadata : Metadata) (admission : Admission) (delay : Number) :
    Feeds sys.queue
      (sys.submitTask env task title taskType metadata admission delay).system.queue
      (kinds (sys.submitTask env task title taskType metadata admission delay).notes) := by
  rw [kinds_submitTask hstore]
  split
  · rename_i hknown
    rw [submitTask, if_pos hknown]
    exact .quiet rfl rfl
  · rename_i hnew
    rw [system_submitTask_new hstore.reliable sys title taskType metadata admission delay hnew]
    have hfeeds := feeds_schedule hstore ((sys.register task).setObject task { metadata }) task
      admission delay
    have haround := hfeeds.around [.taskSubmitted task.id title taskType.name] [] rfl rfl
    rw [List.append_nil] at haround
    exact haround

omit [FloatArith] in
theorem feeds_release (sys : RuntimeEngine FIFOPolicy) :
    Feeds sys.queue (sys.release env).system.queue (kinds (sys.release env).notes) := by
  cases hdue : sys.due env with
  | none =>
    rw [release_none hdue]
    exact .quiet rfl rfl
  | some task =>
    obtain ⟨entry, rest, -, -, hrelease⟩ := release_some hdue
    rw [hrelease]
    exact feeds_onDelayedTaskReady hstore { sys with tracker.heap := sys.tracker.heap.pop } task

theorem feeds_executed (sys : RuntimeEngine FIFOPolicy) (attempt : Attempt)
    (result : Except Raised Unit) :
    Feeds sys.queue (sys.executed env attempt result).system.queue
      (kinds (sys.executed env attempt result).notes) := by
  cases result with
  | ok _ =>
    obtain ⟨object, hsettled⟩ := sys.settle_eq attempt.task .completed
    rw [executed, attemptSucceeded_reliable hstore.reliable, hsettled]
    dsimp only
    rw [kinds_append, kinds_appended hstore]
    exact .quiet rfl rfl
  | error e =>
    rw [executed, attemptFailed, Outcome.system_noting, Outcome.system_caught,
      Outcome.notes_noting, Outcome.notes_caught, settle_failed]
    exact feeds_handleTaskFailure hstore (sys.setStatus attempt.task .failed).countFailed
      attempt.task e

theorem feeds_conclude (sys : RuntimeEngine FIFOPolicy) (workerId : String)
    (result : Except Raised Unit) :
    Feeds sys.queue (sys.conclude env workerId result).system.queue
      (kinds (sys.conclude env workerId result).notes) := by
  unfold conclude
  split
  · rename_i attempt _
    have hfeeds := feeds_executed hstore sys attempt result
    rw [finish, kinds_append]
    exact hfeeds.around [] _ rfl rfl
  · exact .quiet rfl rfl

theorem feeds_timeout (sys : RuntimeEngine FIFOPolicy) (workerId : String) :
    Feeds sys.queue (sys.timeout env workerId).system.queue
      (kinds (sys.timeout env workerId).notes) := by
  unfold timeout
  split
  · exact .quiet rfl rfl
  · rename_i attempt _
    change Feeds sys.queue
      ((sys.setStatus attempt.task .failed).handleTaskTimeout env attempt).system.queue
      (kinds ((sys.setStatus attempt.task .failed).handleTaskTimeout env attempt).notes)
    rw [kinds_handleTaskTimeout hstore, handleTaskTimeout_reliable hstore.reliable,
      Outcome.system_noting, Outcome.system_noting]
    have hfeeds := feeds_handleTaskFailure hstore
      (sys.setStatus attempt.task .failed).countFailed attempt.task .timeout
    have hreport : passages [.taskTimedOut attempt.task.id, .timeoutTriggered attempt.task.id
        ((sys.setStatus attempt.task .failed).limit attempt.task)] = [] := rfl
    have haround := hfeeds.around _ [] hreport rfl
    rw [List.append_nil] at haround
    exact haround

end Feeding

section Pool

variable [FloatArith]

omit hstore in
theorem pool_perform (sys : RuntimeEngine FIFOPolicy) (env : StepEnv) {action : Action}
    (haction : action.touchesPool = false) :
    (sys.perform env action).system.pool = sys.pool := by
  cases action with
  | schedule task admission delay =>
    obtain ⟨queue, tracker, h⟩ := sys.system_schedule env task admission delay
    rw [perform, h]
    rfl
  | submitTask task title taskType metadata admission delay =>
    obtain h | ⟨-, object, queue, tracker, h⟩ :=
      sys.system_submitTask env task title taskType metadata admission delay
    · rw [perform, h]
    · rw [perform, h]
      rfl
  | release =>
    obtain ⟨queue, tracker, h⟩ := sys.system_release env
    rw [perform, h]
  | dispatch => cases haction
  | start workerId => cases haction
  | conclude workerId result =>
    rw [perform]
    unfold conclude
    split
    · rename_i attempt _
      obtain ⟨object, queue, tracker, h | h⟩ := sys.system_executed env attempt result
      · rw [finish, h]
        rfl
      · rw [finish, h]
        rfl
    · rfl
  | timeout workerId =>
    rw [perform]
    cases hfiring : sys.firing env workerId with
    | none => rw [timeout_idle hfiring]
    | some attempt =>
      obtain ⟨superseded, hsystem, -⟩ := timeout_firing hfiring
      obtain ⟨object, queue, tracker, h⟩ :=
        (sys.setStatus attempt.task .failed).system_handleTaskTimeout_frame env attempt
      rw [hsystem, h]
      rfl
  | respawn workerId =>
    obtain ⟨workers, h⟩ := sys.system_respawn env workerId
    rw [perform, h]

end Pool

end RuntimeEngine

/-- The three stages at one moment. -/
structure Served (c : RuntimeEngine FIFOPolicy × List Note) : Prop where
  stored : c.1.queue.policy.order = c.1.queue.storage.keys
  keyed : ∀ taskId task, c.1.queue.storage.get? taskId = some task → task.id = taskId
  queued : atStage .queued (kinds c.2) =
    atStage .dequeued (kinds c.2) ++ c.1.queue.policy.order
  dequeued : atStage .dequeued (kinds c.2) =
    atStage .started (kinds c.2) ++ c.1.pool.map TaskHandle.id

/-- No id enters the queue while it is waiting there. -/
def EntersAbsent [FloatArith] (c : RuntimeEngine FIFOPolicy × List Note)
    (a : StepEnv × Action) : Prop :=
  ∀ taskId ∈ atStage .queued (kinds (step c.1 a).2), taskId ∉ c.1.queue.storage.keys

instance [FloatArith] (c : RuntimeEngine FIFOPolicy × List Note) (a : StepEnv × Action) :
    Decidable (EntersAbsent c a) :=
  inferInstanceAs (Decidable (∀ taskId ∈ atStage .queued (kinds (step c.1 a).2),
    taskId ∉ c.1.queue.storage.keys))

namespace Served

variable {c : RuntimeEngine FIFOPolicy × List Note}

theorem fed (h : Served c) {s : RuntimeEngine FIFOPolicy} {more : List Note}
    (hfeeds : Feeds c.1.queue s.queue (kinds more)) (hpool : s.pool = c.1.pool)
    (habsent : ∀ taskId ∈ atStage .queued (kinds more), taskId ∉ c.1.queue.storage.keys) :
    Served (s, c.2 ++ more) := by
  cases hfeeds with
  | quiet hqueue hks =>
    have hnone : ∀ stage, atStage stage (kinds more) = [] := fun _ => atStage_of_passages hks
    constructor
    · rw [hqueue]
      exact h.stored
    · rw [hqueue]
      exact h.keyed
    · rw [kinds_append, atStage_append, atStage_append, hnone, hnone, List.append_nil,
        List.append_nil, hqueue]
      exact h.queued
    · rw [kinds_append, atStage_append, atStage_append, hnone, hnone, List.append_nil,
        List.append_nil, hpool]
      exact h.dequeued
  | enters task hstorage horder hks =>
    have hqueued : atStage .queued (kinds more) = [task.id] := atStage_of_passages hks
    have hnone : atStage .dequeued (kinds more) = [] := atStage_of_passages hks
    have hstarted : atStage .started (kinds more) = [] := atStage_of_passages hks
    have hnew : task.id ∉ c.1.queue.storage.keys := habsent task.id (by simp [hqueued])
    constructor
    · rw [horder, hstorage, Dict.keys_set_of_notMem _ _ _ hnew, h.stored]
    · intro taskId other hget
      rw [hstorage, Dict.get?_set] at hget
      split at hget
      · rename_i hid
        cases hget
        exact hid
      · exact h.keyed taskId other hget
    · rw [kinds_append, atStage_append, atStage_append, hqueued, hnone, List.append_nil, horder,
        h.queued, List.append_assoc]
    · rw [kinds_append, atStage_append, atStage_append, hnone, hstarted, List.append_nil,
        List.append_nil, hpool]
      exact h.dequeued

variable {env : StepEnv}

/-- Nothing was taken and nothing is told. -/
theorem idle (h : Served c) : Served (c.1, c.2 ++ []) := by
  rw [List.append_nil]
  exact h

/-- The first id leaves the queue and goes to the end of the pool's queue. -/
theorem dispatch (h : Served c) (hstore : env.Recording) :
    Served ((c.1.dispatch env).system, c.2 ++ (c.1.dispatch env).notes) := by
  unfold RuntimeEngine.dispatch
  split
  · rename_i hready
    obtain ⟨taskId, rest, horder⟩ : ∃ taskId rest, c.1.queue.policy.order = taskId :: rest := by
      refine List.exists_cons_of_ne_nil ?_
      intro hempty
      rw [h.stored] at hempty
      have hnone : c.1.queue.storage.entries = [] := List.map_eq_nil_iff.mp hempty
      have hsize : c.1.queue.isEmpty = true := by
        simp [InMemoryTaskQueue.isEmpty, InMemoryTaskQueue.size, hnone]
      rw [hsize] at hready
      exact absurd hready.2 (by simp)
    have hmem : taskId ∈ c.1.queue.storage.keys := by simp [← h.stored, horder]
    obtain ⟨task, hget⟩ := (c.1.queue.storage.mem_keys_iff taskId).mp hmem
    obtain rfl : task.id = taskId := h.keyed taskId task hget
    have hnext : (SchedulingPolicy.next c.1.queue.policy).2 = some task.id :=
      congrArg List.head? horder
    have htail : (SchedulingPolicy.next c.1.queue.policy).1.order = rest :=
      congrArg List.tail horder
    have htold := RuntimeEngine.announce_logged
      (hstore.reliable { kind := .taskDequeued task.id, timestamp := env.now })
      (.taskDequeued task.id)
    rw [InMemoryTaskQueue.dequeue_some hnext hget]
    dsimp only
    rw [htold.1, htold.2]
    have hks : passages (kinds (RuntimeEngine.appended env (.taskDequeued task.id) none)) =
        [(.dequeued, task.id)] := by
      rw [RuntimeEngine.kinds_appended hstore]
      rfl
    have hqueued : atStage .queued (kinds (RuntimeEngine.appended env (.taskDequeued task.id)
      none)) = [] := atStage_of_passages hks
    have hdequeued : atStage .dequeued (kinds (RuntimeEngine.appended env
      (.taskDequeued task.id) none)) = [task.id] := atStage_of_passages hks
    have hstarted : atStage .started (kinds (RuntimeEngine.appended env
      (.taskDequeued task.id) none)) = [] := atStage_of_passages hks
    constructor
    · change (SchedulingPolicy.next c.1.queue.policy).1.order =
        (c.1.queue.storage.erase task.id).keys
      rw [htail, Dict.keys_erase, ← h.stored, horder, List.erase_cons_head]
    · intro other stored hstored
      have herased : (c.1.queue.storage.erase task.id).get? other = some stored := hstored
      rw [Dict.get?_erase] at herased
      split at herased
      · cases herased
      · exact h.keyed other stored herased
    · change _ = _ ++ (SchedulingPolicy.next c.1.queue.policy).1.order
      rw [kinds_append, atStage_append, atStage_append, hqueued, hdequeued, List.append_nil,
        h.queued, horder, htail, List.append_assoc]
      rfl
    · change _ = _ ++ (c.1.pool ++ [task]).map TaskHandle.id
      rw [kinds_append, atStage_append, atStage_append, hdequeued, hstarted, List.append_nil,
        h.dequeued, List.map_append, List.append_assoc]
      rfl
  · exact h.idle

/-- An idle worker starts the first task of the pool's queue. -/
theorem start (h : Served c) (hstore : env.Recording) (workerId : String) :
    Served ((c.1.start env workerId).system, c.2 ++ (c.1.start env workerId).notes) := by
  cases hoffered : c.1.offered workerId with
  | none =>
    rw [RuntimeEngine.start_idle hoffered]
    exact h.idle
  | some task =>
    obtain ⟨hslot, rest, hpool⟩ := RuntimeEngine.offered_eq_some.mp hoffered
    have hks : passages (kinds (c.1.start env workerId).notes) = [(.started, task.id)] := by
      rw [RuntimeEngine.kinds_start hstore hoffered]
      rfl
    have hqueued : atStage .queued (kinds (c.1.start env workerId).notes) = [] :=
      atStage_of_passages hks
    have hdequeued : atStage .dequeued (kinds (c.1.start env workerId).notes) = [] :=
      atStage_of_passages hks
    have hstarted : atStage .started (kinds (c.1.start env workerId).notes) = [task.id] :=
      atStage_of_passages hks
    have hsystem : (c.1.start env workerId).system.queue = c.1.queue ∧
        (c.1.start env workerId).system.pool = rest := by
      rw [RuntimeEngine.start_reliable hstore.reliable hslot hpool]
      exact ⟨rfl, rfl⟩
    constructor
    · rw [hsystem.1]
      exact h.stored
    · rw [hsystem.1]
      exact h.keyed
    · rw [kinds_append, atStage_append, atStage_append, hqueued, hdequeued, List.append_nil,
        List.append_nil, hsystem.1]
      exact h.queued
    · rw [kinds_append, atStage_append, atStage_append, hdequeued, hstarted, List.append_nil,
        hsystem.2, h.dequeued, hpool, List.append_assoc]
      rfl

end Served

section Runs

variable [FloatArith]

omit [FloatArith] in
theorem served_create (maxSize : Option ℤ) (poolSize : ℕ) (objects : ℕ → TaskObject) :
    Served (create maxSize poolSize objects, []) :=
  ⟨rfl, by simp [create, InMemoryTaskQueue.create], rfl, rfl⟩

theorem Served.advance {c : RuntimeEngine FIFOPolicy × List Note} {a : StepEnv × Action}
    (h : Served c) (hstore : a.1.Recording) (habsent : EntersAbsent c a) :
    Served (Machine.advance step c a) := by
  obtain ⟨env, action⟩ := a
  have hpool : action.touchesPool = false → (c.1.perform env action).system.pool = c.1.pool :=
    RuntimeEngine.pool_perform c.1 env
  cases action with
  | schedule task admission delay =>
    exact h.fed (RuntimeEngine.feeds_schedule hstore c.1 task admission delay)
      (hpool rfl) habsent
  | submitTask task title taskType metadata admission delay =>
    exact h.fed (RuntimeEngine.feeds_submitTask hstore c.1 task title taskType metadata admission
      delay) (hpool rfl) habsent
  | release =>
    exact h.fed (RuntimeEngine.feeds_release hstore c.1) (hpool rfl) habsent
  | dispatch => exact h.dispatch hstore
  | start workerId => exact h.start hstore workerId
  | conclude workerId result =>
    exact h.fed (RuntimeEngine.feeds_conclude hstore c.1 workerId result) (hpool rfl)
      habsent
  | timeout workerId =>
    exact h.fed (RuntimeEngine.feeds_timeout hstore c.1 workerId) (hpool rfl) habsent
  | respawn workerId =>
    refine h.fed (.quiet ?_ ?_) (hpool rfl) habsent
    · obtain ⟨workers, hsystem⟩ := c.1.system_respawn env workerId
      change (c.1.respawn env workerId).system.queue = c.1.queue
      rw [hsystem]
    · change passages (kinds (c.1.respawn env workerId).notes) = []
      rw [RuntimeEngine.kinds_respawn hstore]
      split <;> rfl

end Runs

section Samples

def fifoObjects : ℕ → TaskObject := fun _ =>
  { metadata := { retryPolicy := some { maxRetries := 1, initialDelaySeconds := .finite 0 } } }

/-- The second task is dequeued while the first is being executed, and the first comes
back from a failed attempt behind a third one. -/
def fifoSteps : List (StepEnv × Action) :=
  [(.recording "t0" 0, .schedule ⟨0, "a"⟩ .pass (.finite 0)),
    (.recording "t0" 0, .schedule ⟨1, "b"⟩ .pass (.finite 0)), (.recording "t0" 0, .dispatch),
    (.recording "t0" 0, .start "W-001"), (.recording "t1" 1, .dispatch),
    (.recording "t1" 1, .schedule ⟨2, "c"⟩ .pass (.finite 0)),
    (.recording "t2" 2, .conclude "W-001" (.error .timeout))]

example : atStage .queued (kinds (@run FIFOPolicy _ .exact none 1 fifoObjects fifoSteps).2) =
    ["a", "b", "c", "a"] := by decide +kernel

end Samples

end MollisRuntime.Scheduling
