import MollisRuntime.Scheduling.Failures
import MollisRuntime.Scheduling.Journal

/-!
The delayed ids that a recovery finds, against the ids of the tasks in the tracker's
heap. A delayed task is pushed before its event is appended, and released before the
queue is asked. A retry without a delay is released first and listed afterwards.
-/
namespace MollisRuntime.Scheduling

open Ordered Python Persistence MinHeap RecoveryManager

namespace RuntimeEngine

variable {P : Type}

def heapIds (sys : RuntimeEngine P) : List String := sys.tracker.tasks.map TaskHandle.id

theorem mem_heapIds_pushDelayed [FloatArith] (sys : RuntimeEngine P) (env : StepEnv)
    (task : TaskHandle) (delay : Number) (id : String) :
    id ∈ (sys.pushDelayed env task delay).heapIds ↔ id = task.id ∨ id ∈ sys.heapIds := by
  have hentries : (sys.pushDelayed env task delay).tracker.heap.entries =
      file ⟨FloatArith.add (.finite env.time) delay, sys.tracker.counter, task⟩
        sys.tracker.heap.entries := Heap.entries_push _ _
  simp only [heapIds, DelayedTaskTracker.tasks, hentries]
  rw [(((file_perm _ _).map Entry.item).map TaskHandle.id).mem_iff]
  exact List.mem_cons

/-- What is released was the first of the heap. -/
theorem heapIds_release [SchedulingPolicy P] {sys : RuntimeEngine P} {env : StepEnv}
    {task : TaskHandle} (h : sys.due env = some task) :
    sys.heapIds = task.id :: sys.heapIds.tail ∧
      { sys with tracker.heap := sys.tracker.heap.pop }.heapIds = sys.heapIds.tail := by
  obtain ⟨entry, rest, hentries, rfl, -⟩ := release_some h
  have hids : sys.heapIds = entry.item.id :: rest.map (fun e => e.item.id) := by
    simp [heapIds, DelayedTaskTracker.tasks, hentries]
  rw [hids, List.tail_cons]
  refine ⟨rfl, ?_⟩
  simp [heapIds, DelayedTaskTracker.tasks, hentries]

end RuntimeEngine

section Agreement

variable {P : Type}

/-- The recovered ids and those in the heap are the same. -/
def DelaysAgree (c : RuntimeEngine P × List Note) : Prop :=
  ∀ id, id ∈ delayedIds c.2 ↔ id ∈ c.1.heapIds

namespace DelaysAgree

variable {c : RuntimeEngine P × List Note} {s : RuntimeEngine P} {notes : List Note} {id : String}

theorem still (h : DelaysAgree c) (hheap : s.heapIds = c.1.heapIds)
    (hchanges : delayChanges (kinds notes) = []) : DelaysAgree (s, c.2 ++ notes) := by
  intro other
  rw [delayedIds_append, hchanges, hheap]
  exact h other

theorem pushed (h : DelaysAgree c) (hheap : ∀ other, other ∈ s.heapIds ↔
    other = id ∨ other ∈ c.1.heapIds) (hchanges : delayChanges (kinds notes) = [.push id]) :
    DelaysAgree (s, c.2 ++ notes) := by
  intro other
  rw [delayedIds_append, hchanges, hheap, ← h other]
  exact UniqueQueue.mem_step_push

/-- An id is pushed and listed, or nothing is. -/
theorem arrived (h : DelaysAgree c)
    (harrives : ((∀ other, other ∈ s.heapIds ↔ other = id ∨ other ∈ c.1.heapIds) ∧
        delayChanges (kinds notes) = [.push id]) ∨
      s.heapIds = c.1.heapIds ∧ delayChanges (kinds notes) = []) :
    DelaysAgree (s, c.2 ++ notes) := by
  rcases harrives with ⟨hheap, hchanges⟩ | ⟨hheap, hchanges⟩
  · exact h.pushed hheap hchanges
  · exact h.still hheap hchanges

/-- The first id of the heap is dropped: it must not be waiting a second time. -/
theorem released_iff (h : DelaysAgree c) (hheap : c.1.heapIds = id :: s.heapIds)
    (hchanges : delayChanges (kinds notes) = [.drop id]) :
    DelaysAgree (s, c.2 ++ notes) ↔ id ∉ s.heapIds := by
  have hids : ∀ other, other ∈ delayedIds (c.2 ++ notes) ↔ other ≠ id ∧ other ∈ s.heapIds := by
    intro other
    rw [delayedIds_append, hchanges]
    refine (UniqueQueue.mem_step_drop (nodup_delayedIds c.2)).trans ?_
    rw [h other, hheap, List.mem_cons]
    tauto
  constructor
  · intro hagrees hid
    exact ((hids id).mp ((hagrees id).mpr hid)).1 rfl
  · intro hid other
    rw [hids other]
    exact and_iff_right_of_imp fun hother heq => hid (heq ▸ hother)

/-- One more id is listed than the heap has, unless it waits there too. -/
theorem extra_iff (hids : ∀ other, other ∈ delayedIds notes ↔ other = id ∨ other ∈ s.heapIds) :
    DelaysAgree (s, notes) ↔ id ∈ s.heapIds := by
  constructor
  · intro hagrees
    exact (hagrees id).mp ((hids id).mpr (.inl rfl))
  · intro hid other
    rw [hids other]
    exact or_iff_right_of_imp fun heq => heq ▸ hid

/-- The first id of the heap is lost: it must be waiting a second time. -/
theorem refused_iff (h : DelaysAgree c) (hheap : c.1.heapIds = id :: s.heapIds)
    (hchanges : delayChanges (kinds notes) = []) :
    DelaysAgree (s, c.2 ++ notes) ↔ id ∈ s.heapIds := by
  refine extra_iff fun other => ?_
  rw [delayedIds_append, hchanges, ← List.mem_cons, ← hheap]
  exact h other

/-- An id is listed that was not pushed: it must be waiting already. -/
theorem relisted_iff (h : DelaysAgree c) (hheap : s.heapIds = c.1.heapIds)
    (hchanges : delayChanges (kinds notes) = [.push id] ∨
      delayChanges (kinds notes) = [.drop id, .push id]) :
    DelaysAgree (s, c.2 ++ notes) ↔ id ∈ c.1.heapIds := by
  rw [← hheap]
  refine extra_iff fun other => ?_
  rw [delayedIds_append, hheap, ← h other]
  rcases hchanges with hchanges | hchanges
  · rw [hchanges]
    exact UniqueQueue.mem_step_push
  · rw [hchanges]
    refine UniqueQueue.mem_step_push.trans ?_
    rw [UniqueQueue.mem_step_drop (nodup_delayedIds c.2)]
    tauto

end DelaysAgree

end Agreement

section Steps

variable {P : Type} [SchedulingPolicy P] [FloatArith]

namespace RuntimeEngine

variable {sys : RuntimeEngine P} {env : StepEnv} {task : TaskHandle} {delay : Number}

omit [FloatArith] in
theorem delayChanges_onDelayedTaskReady (hstore : env.Recording) (sys : RuntimeEngine P)
    (task : TaskHandle) : delayChanges (kinds (sys.onDelayedTaskReady env task).notes) =
      if sys.Accepts task then [.drop task.id] else [] := by
  rw [kinds_onDelayedTaskReady hstore]
  split <;> rfl

omit [FloatArith] in
theorem heapIds_onDelayedTaskReady (sys : RuntimeEngine P) (env : StepEnv) (task : TaskHandle) :
    (sys.onDelayedTaskReady env task).system.heapIds = sys.heapIds := by
  rw [system_onDelayedTaskReady]
  rfl

/-- A call of schedule delays the task, or it has nothing to do with the delayed tasks. -/
theorem delays_schedule (hstore : env.Recording) (sys : RuntimeEngine P) (task : TaskHandle)
    (admission : Admission) (delay : Number) :
    ((∀ other, other ∈ (sys.schedule env task admission delay).system.heapIds ↔
        other = task.id ∨ other ∈ sys.heapIds) ∧
      delayChanges (kinds (sys.schedule env task admission delay).notes) = [.push task.id]) ∨
    (sys.schedule env task admission delay).system.heapIds = sys.heapIds ∧
      delayChanges (kinds (sys.schedule env task admission delay).notes) = [] := by
  rw [kinds_schedule hstore]
  cases hadmitted : (admission (sys.object task).metadata).2 with
  | error e =>
    right
    rw [if_neg (by simp), schedule]
    dsimp only
    rw [hadmitted]
    exact ⟨rfl, rfl⟩
  | ok _ =>
    rw [if_pos rfl, routed]
    by_cases hdelay : .finite 0 < delay
    · left
      rw [if_pos hdelay]
      refine ⟨?_, rfl⟩
      intro other
      rw [schedule]
      dsimp only
      rw [hadmitted]
      dsimp only
      rw [if_pos hdelay, Outcome.system_andThen fun _ => rfl, system_andThen_record,
        addDelayedTask_later (not_le.mpr hdelay)]
      exact mem_heapIds_pushDelayed _ env task delay other
    · right
      rw [if_neg hdelay, schedule]
      dsimp only
      rw [hadmitted]
      dsimp only
      rw [if_neg hdelay, Outcome.system_andThen fun _ => rfl]
      refine ⟨rfl, ?_⟩
      split <;> rfl

theorem delays_submitTask (hstore : env.Recording) (sys : RuntimeEngine P) (task : TaskHandle)
    (title : String) (taskType : TaskType) (metadata : Metadata) (admission : Admission)
    (delay : Number) :
    ((∀ other, other ∈
          (sys.submitTask env task title taskType metadata admission delay).system.heapIds ↔
        other = task.id ∨ other ∈ sys.heapIds) ∧
      delayChanges (kinds
        (sys.submitTask env task title taskType metadata admission delay).notes) =
          [.push task.id]) ∨
    (sys.submitTask env task title taskType metadata admission delay).system.heapIds =
        sys.heapIds ∧
      delayChanges (kinds
        (sys.submitTask env task title taskType metadata admission delay).notes) = [] := by
  by_cases hknown : sys.taskManager.contains task.id = true
  · right
    rw [submitTask, if_pos hknown]
    exact ⟨rfl, rfl⟩
  · rw [kinds_submitTask hstore, if_neg hknown,
      system_submitTask_new hstore.reliable sys title taskType metadata admission delay hknown]
    exact delays_schedule hstore ((sys.register task).setObject task { metadata }) task admission
      delay

omit [SchedulingPolicy P] [FloatArith] in
theorem delayChanges_dequeued (taken : List TaskHandle) :
    delayChanges (taken.map fun task => .taskDequeued task.id) = [] := by
  rw [delayChanges, List.filterMap_map]
  exact List.filterMap_eq_nil_iff.mpr fun _ _ => rfl

/-- A step at which no attempt fails, and that is not about the delayed tasks. -/
theorem delays_quiet (hstore : env.Recording) {action : Action}
    (hfailing : sys.failing env action = none) (harriving : action.arriving = 0)
    (hrelease : action ≠ .release) :
    (sys.perform env action).system.heapIds = sys.heapIds ∧
      delayChanges (kinds (sys.perform env action).notes) = [] := by
  unfold perform
  cases action with
  | schedule task => exact absurd harriving (Multiset.singleton_ne_zero task)
  | submitTask task => exact absurd harriving (Multiset.singleton_ne_zero task)
  | release => exact absurd rfl hrelease
  | dispatch =>
    obtain ⟨queue, pool, hsystem⟩ := sys.system_dispatch env
    obtain ⟨taken, -, hkinds⟩ := kinds_dispatch hstore sys
    dsimp only
    rw [hsystem, hkinds, delayChanges_dequeued]
    exact ⟨rfl, rfl⟩
  | start workerId =>
    obtain ⟨objects, pool, workers, attempts, hsystem, -⟩ := sys.system_start env workerId
    dsimp only
    rw [hsystem]
    refine ⟨rfl, ?_⟩
    cases hoffered : sys.offered workerId with
    | none =>
      rw [start_idle hoffered]
      rfl
    | some task =>
      rw [kinds_start hstore hoffered]
      rfl
  | conclude workerId result =>
    obtain ⟨-, hidle⟩ | ⟨attempt, -, -, hsystem, hkinds⟩ := conclude_recorded hstore hfailing
    · dsimp only
      rw [hidle]
      exact ⟨rfl, rfl⟩
    · obtain ⟨object, hsettled⟩ := sys.settle_eq attempt.task .completed
      dsimp only
      rw [hsystem, hsettled, hkinds]
      exact ⟨rfl, rfl⟩
  | timeout workerId =>
    dsimp only
    rw [timeout_idle (Option.map_eq_none_iff.mp hfailing)]
    exact ⟨rfl, rfl⟩
  | respawn workerId =>
    obtain ⟨workers, hsystem⟩ := sys.system_respawn env workerId
    dsimp only
    rw [hsystem, kinds_respawn hstore]
    refine ⟨rfl, ?_⟩
    split <;> rfl

end RuntimeEngine

/-- No released id is waiting a second time unless the queue refuses the task, and
a task that is retried without a delay is waiting already. -/
def DelaysInStep (c : RuntimeEngine P × List Note) (a : StepEnv × Action) : Prop :=
  match a.2 with
  | .release => ∀ task ∈ c.1.due a.1, task.id ∈ c.1.heapIds.tail ↔ ¬ c.1.Accepts task
  | action => ∀ failed ∈ c.1.failing a.1 action,
      ∀ delay ∈ (c.1.retryDelay failed.1 failed.2).bind Except.toOption,
        delay ≤ .finite 0 → failed.1.id ∈ c.1.heapIds

instance (c : RuntimeEngine P × List Note) : ∀ a : StepEnv × Action, Decidable (DelaysInStep c a)
  | (_, .release) => inferInstanceAs (Decidable (∀ _ ∈ _, _ ↔ _))
  | (_, .schedule ..) | (_, .submitTask ..) | (_, .dispatch) | (_, .start _) | (_, .conclude ..)
  | (_, .timeout _) | (_, .respawn _) => inferInstanceAs (Decidable (∀ _ ∈ _, ∀ _ ∈ _, _ → _))

theorem delaysInStep_of_quiet {c : RuntimeEngine P × List Note} {env : StepEnv} {action : Action}
    (hfailing : c.1.failing env action = none) (haction : action ≠ .release) :
    DelaysInStep c (env, action) := by
  cases action with
  | release => exact absurd rfl haction
  | _ =>
    dsimp only [DelaysInStep]
    rw [hfailing]
    exact fun failed hfailed => absurd hfailed (Option.not_mem_none failed)

namespace DelaysAgree

variable {c : RuntimeEngine P × List Note} {env : StepEnv}

omit [FloatArith] in
theorem release_iff (h : DelaysAgree c) (hstore : env.Recording) :
    DelaysAgree ((c.1.release env).system, c.2 ++ (c.1.release env).notes) ↔
      ∀ task ∈ c.1.due env, task.id ∈ c.1.heapIds.tail ↔ ¬ c.1.Accepts task := by
  cases hdue : c.1.due env with
  | none =>
    rw [RuntimeEngine.release_none hdue]
    exact iff_of_true (h.still rfl rfl) (by simp)
  | some task =>
    obtain ⟨entry, rest, -, -, hrelease⟩ := RuntimeEngine.release_some hdue
    obtain ⟨hheap, hrest⟩ := RuntimeEngine.heapIds_release hdue
    let popped : RuntimeEngine P := { c.1 with tracker.heap := c.1.tracker.heap.pop }
    have hafter : (c.1.release env).system.heapIds = c.1.heapIds.tail := by
      rw [hrelease, RuntimeEngine.heapIds_onDelayedTaskReady, hrest]
    have hchanges := RuntimeEngine.delayChanges_onDelayedTaskReady hstore popped task
    rw [← hrelease] at hchanges
    rw [← hafter] at hheap
    simp only [Option.mem_some_iff, forall_eq', ← hafter]
    by_cases haccepts : c.1.Accepts task
    · rw [if_pos (show popped.Accepts task from haccepts)] at hchanges
      rw [h.released_iff hheap hchanges]
      exact ⟨fun hout => iff_of_false hout (not_not.mpr haccepts),
        fun hiff hin => hiff.mp hin haccepts⟩
    · rw [if_neg (show ¬ popped.Accepts task from haccepts)] at hchanges
      rw [h.refused_iff hheap hchanges]
      exact ⟨fun hin => iff_of_true hin haccepts, fun hiff => hiff.mpr haccepts⟩

/-- The retry engine decides whether a failed task is delayed. -/
theorem fail_iff (h : DelaysAgree c) (hstore : env.Recording) {action : Action}
    {task : TaskHandle} {error : Raised} (hfailing : c.1.failing env action = some (task, error)) :
    DelaysAgree ((c.1.perform env action).system, c.2 ++ (c.1.perform env action).notes) ↔
      ∀ delay ∈ (c.1.retryDelay task error).bind Except.toOption,
        delay ≤ .finite 0 → task.id ∈ c.1.heapIds := by
  obtain ⟨workers, reported, hsystem, hkinds, hreported⟩ :=
    RuntimeEngine.failing_perform hstore hfailing
  have hsilent : delayChanges reported = [] := by
    rcases hreported with rfl | ⟨seconds, rfl⟩ <;> rfl
  have hdelay := RuntimeEngine.retryDelay_failed c.1 task error
  have hchanges : delayChanges (kinds (c.1.perform env action).notes) =
      delayChanges (kinds ((c.1.setStatus task .failed).countFailed.handleTaskFailure env task
        error).notes) := by
    rw [hkinds, delayChanges_append, hsilent, List.nil_append]
  rw [hsystem]
  obtain ⟨hnone, hsame, htold⟩ | ⟨count, e, -, herror, hset, htold⟩ |
      ⟨count, delay, -, hsome, hadd, htold⟩ :=
    RuntimeEngine.handleTaskFailure_recorded hstore
      (c.1.setStatus task .failed).countFailed task error
  · rw [hdelay] at hnone
    rw [hnone, hsame]
    refine iff_of_true (h.still rfl ?_) (by simp)
    rw [hchanges]
    rcases htold with htold | ⟨htold, -⟩ <;> rw [htold] <;> rfl
  · rw [hdelay] at herror
    rw [herror, hset]
    refine iff_of_true (h.still rfl ?_) (by simp [Except.toOption])
    rw [hchanges, htold]
    rfl
  · rw [hdelay] at hsome
    rw [hsome, hadd]
    simp only [Option.bind_some, Except.toOption, Option.mem_some_iff, forall_eq']
    by_cases hready : delay ≤ .finite 0
    · rw [RuntimeEngine.addDelayedTask_ready hready] at htold ⊢
      have hlisted := (congrArg delayChanges htold).trans (delayChanges_append _ _)
      rw [RuntimeEngine.delayChanges_onDelayedTaskReady hstore] at hlisted
      have htwo : delayChanges (kinds (c.1.perform env action).notes) = [.push task.id] ∨
          delayChanges (kinds (c.1.perform env action).notes) =
            [.drop task.id, .push task.id] := by
        rw [hchanges, hlisted]
        split
        · exact .inr rfl
        · exact .inl rfl
      rw [h.relisted_iff ?_ htwo]
      · exact ⟨fun hin _ => hin, fun hin => hin hready⟩
      · exact RuntimeEngine.heapIds_onDelayedTaskReady _ env task
    · rw [RuntimeEngine.addDelayedTask_later hready] at htold ⊢
      refine iff_of_true (h.pushed (RuntimeEngine.mem_heapIds_pushDelayed _ env task delay) ?_)
        fun hnow => absurd hnow hready
      rw [hchanges, htold]
      rfl

theorem step_iff (h : DelaysAgree c) (hstore : env.Recording) (action : Action) :
    DelaysAgree (Machine.advance RuntimeEngine.step c (env, action)) ↔
      DelaysInStep c (env, action) := by
  change DelaysAgree ((c.1.perform env action).system, c.2 ++ (c.1.perform env action).notes) ↔ _
  cases hfailing : c.1.failing env action with
  | some failed =>
    have hcondition : DelaysInStep c (env, action) ↔ ∀ failed ∈ c.1.failing env action,
        ∀ delay ∈ (c.1.retryDelay failed.1 failed.2).bind Except.toOption,
          delay ≤ .finite 0 → failed.1.id ∈ c.1.heapIds := by
      cases action with
      | release => cases hfailing
      | _ => exact Iff.rfl
    rw [hcondition, hfailing, h.fail_iff hstore hfailing]
    simp only [Option.mem_some_iff, forall_eq']
  | none =>
    by_cases hrelease : action = .release
    · subst hrelease
      exact h.release_iff hstore
    · refine iff_of_true ?_ (delaysInStep_of_quiet hfailing hrelease)
      cases action with
      | schedule task admission delay =>
        exact h.arrived (c.1.delays_schedule hstore task admission delay)
      | submitTask task title taskType metadata admission delay =>
        exact h.arrived
          (c.1.delays_submitTask hstore task title taskType metadata admission delay)
      | _ =>
        obtain ⟨hheap, hchanges⟩ := RuntimeEngine.delays_quiet hstore hfailing rfl hrelease
        exact h.still hheap hchanges

end DelaysAgree

/-- The delayed ids that are recovered are those in the heap, in every state of a run,
exactly when each step meets the condition. -/
theorem delayed_recovered_iff (maxSize : Option ℤ) (poolSize : ℕ) (objects : ℕ → TaskObject)
    (actions : List (StepEnv × Action)) (hrecording : ∀ a ∈ actions, a.1.Recording)
    (store : StateStore) (hlog : store.eventStore.events =
      journal (RuntimeEngine.run maxSize poolSize objects actions : RuntimeEngine P × _).2)
    (hbounded : store.eventStore.events.length ≤ 100000) (clock : Clock) :
    (∀ before, before <+: actions → ∀ earlier : StateStore, earlier.eventStore.events =
        journal (RuntimeEngine.run maxSize poolSize objects before : RuntimeEngine P × _).2 →
      ∃ state, recoveredState earlier .fromGenesis clock = .ok state ∧
        ∀ id, id ∈ state.scheduler.delayedTaskIds ↔
          id ∈ (RuntimeEngine.run maxSize poolSize objects before :
            RuntimeEngine P × List Note).1.heapIds) ↔
    Machine.Along RuntimeEngine.step DelaysInStep actions
      ((RuntimeEngine.create maxSize poolSize objects : RuntimeEngine P), []) := by
  have hstart : DelaysAgree ((RuntimeEngine.create maxSize poolSize objects :
      RuntimeEngine P), []) := fun _ => Iff.rfl
  have hrun := Machine.forall_prefix_iff_along_among (P := DelaysInStep)
    (DelaysAgree (P := P)) DelaysAgree (fun _ h => h) (fun c a ha h => (h.step_iff ha a.2).mpr)
    (fun c a ha h => (h.step_iff ha a.2).mp) hrecording hstart
  refine (forall_recovered_iff hlog hbounded clock
    (R := fun s state => ∀ id, id ∈ state.scheduler.delayedTaskIds ↔ id ∈ s.heapIds) ?_).trans hrun
  intro s notes state hids _
  rw [hids]
  rfl

end Steps

section Samples

def noClock : Clock := ⟨⟨"t9", by decide⟩, ⟨"t9", by decide⟩, ⟨"t9", by decide⟩, 0⟩

def backoffObjects : ℕ → TaskObject := fun _ =>
  { metadata := { retryPolicy := some { maxRetries := 1 } } }

/-- A task is scheduled with a delay, fails once and is retried with a delay. -/
def backoffSteps : List (StepEnv × Action) :=
  [(.recording "t0" 0, .schedule ⟨0, "a"⟩ .pass (.finite 5)), (.recording "t5" 5, .release),
    (.recording "t5" 5, .dispatch), (.recording "t5" 5, .start "W-001"),
    (.recording "t6" 6, .conclude "W-001" (.error (.keyError "x"))),
    (.recording "t6" 6, .release), (.recording "t7" 7, .release)]

theorem delayed_recovered_backoff :
    let _ : FloatArith := .exact
    ∀ before, before <+: backoffSteps → ∀ earlier : StateStore, earlier.eventStore.events =
        journal (RuntimeEngine.run none 1 backoffObjects before : RuntimeEngine FIFOPolicy × _).2 →
      ∃ state, recoveredState earlier .fromGenesis noClock = .ok state ∧
        ∀ id, id ∈ state.scheduler.delayedTaskIds ↔
          id ∈ (RuntimeEngine.run none 1 backoffObjects before :
            RuntimeEngine FIFOPolicy × List Note).1.heapIds :=
  (@delayed_recovered_iff FIFOPolicy _ .exact none 1 backoffObjects backoffSteps
    (by simp [backoffSteps, StepEnv.Recording, StepEnv.recording])
    { eventStore := ⟨journal (@RuntimeEngine.run FIFOPolicy _ .exact none 1 backoffObjects
      backoffSteps).2, by decide +kernel⟩ } rfl (by decide +kernel) noClock).mpr (by decide +kernel)

/-- A retry without a delay is on its way at once, and stays among the recovered
delayed ids. -/
theorem delayed_recovered_stale :
    let _ : FloatArith := .exact
    let objects : ℕ → TaskObject := fun _ => { metadata := {
      retryPolicy := some { maxRetries := 1, initialDelaySeconds := .finite 0 } } }
    let actions := [(.recording "t0" 0, .schedule ⟨0, "a"⟩ .pass (.finite 0)),
      (.recording "t0" 0, .dispatch), (.recording "t0" 0, .start "W-001"),
      (.recording "t1" 1, .conclude "W-001" (.error (.keyError "x")))]
    let failed := (RuntimeEngine.run none 1 objects actions :
      RuntimeEngine FIFOPolicy × List Note)
    let store : StateStore := { eventStore := ⟨journal failed.2, by decide +kernel⟩ }
    ∃ state, recoveredState store .fromGenesis noClock = .ok state ∧
      state.scheduler.delayedTaskIds = ["a"] ∧ failed.1.heapIds = [] := by
  intro _ objects actions failed store
  obtain ⟨state, hstate, hids, -⟩ := recovered_journal
    (show store.eventStore.events = journal failed.2 from rfl) (by decide +kernel) noClock
  refine ⟨state, hstate, hids.trans ?_, ?_⟩
  · decide +kernel
  · decide +kernel

end Samples

end MollisRuntime.Scheduling
