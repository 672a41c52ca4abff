import MollisRuntime.Library.Descent
import MollisRuntime.Runtime.Wiring
import MollisRuntime.Scheduling.Load
import MollisRuntime.Scheduling.Recorded

/-!
The runtime comes to rest. When no more tasks are submitted, every step that gets a
task further takes from the load, whatever the attempts return, which timeouts fire
and which appends raise; and as long as a task waits or a worker is busy there is
such a step.
-/
namespace MollisRuntime.Scheduling

open Ordered Python Persistence MinHeap
open RuntimeEngine (step create run)

section Lasting

variable {P : Type} [SchedulingPolicy P]

/-- What the two operations of the scheduler on its queue keep. -/
structure Lasting (Q : InMemoryTaskQueue P → Prop) : Prop where
  enqueue : ∀ q env task metadata, Q q → Q (q.enqueue env task metadata).queue
  dequeue : ∀ q env, Q q → Q (q.dequeue env).queue

namespace Lasting

variable {Q : InMemoryTaskQueue P → Prop} (hlasts : Lasting Q) (sys : RuntimeEngine P)
  (hqueue : Q sys.queue) (env : StepEnv)
include hlasts hqueue

theorem onDelayedTaskReady (task : TaskHandle) :
    Q (sys.onDelayedTaskReady env task).system.queue := by
  rw [RuntimeEngine.system_onDelayedTaskReady]
  exact hlasts.enqueue _ _ _ _ hqueue

variable [FloatArith]

theorem addDelayedTask (task : TaskHandle) (delay : Number) :
    Q (sys.addDelayedTask env task delay).system.queue := by
  by_cases hdelay : delay ≤ .finite 0
  · rw [RuntimeEngine.addDelayedTask_ready hdelay]
    exact hlasts.onDelayedTaskReady sys hqueue env task
  · rw [RuntimeEngine.addDelayedTask_later hdelay]
    exact hqueue

theorem handleTaskFailure (task : TaskHandle) (error : Raised) :
    Q (sys.handleTaskFailure env task error).system.queue := by
  by_cases hretry : RetryEngine.shouldRetry (sys.object task).metadata error = .ok true
  · cases hprepare : RetryEngine.prepareRetry (sys.object task) with
    | mk object computed =>
      cases computed with
      | error e =>
        rw [RuntimeEngine.handleTaskFailure_overflow hretry hprepare]
        exact hqueue
      | ok delay =>
        rw [RuntimeEngine.system_handleTaskFailure_retried hretry hprepare]
        exact hlasts.addDelayedTask (sys.setObject task object) hqueue env task delay
  · rw [RuntimeEngine.system_handleTaskFailure_denied hretry]
    exact hqueue

theorem attemptFailed (attempt : Attempt) (error : Raised) :
    Q (sys.attemptFailed env attempt error).system.queue := by
  rw [RuntimeEngine.attemptFailed, Outcome.system_noting, Outcome.system_caught,
    RuntimeEngine.settle_failed]
  exact hlasts.handleTaskFailure (sys.setStatus attempt.task .failed).countFailed hqueue
    env attempt.task error

theorem executed (attempt : Attempt) (result : Except Raised Unit) :
    Q (sys.executed env attempt result).system.queue := by
  cases result with
  | error e => exact hlasts.attemptFailed sys hqueue env attempt e
  | ok _ =>
    obtain ⟨object, hsettled⟩ := sys.settle_eq attempt.task .completed
    obtain ⟨e, -, hraised⟩ | ⟨-, hdone⟩ := sys.system_attemptSucceeded env attempt
    · rw [RuntimeEngine.executed, hraised, hsettled]
      exact hlasts.attemptFailed (sys.setObject attempt.task object) hqueue env attempt e
    · rw [RuntimeEngine.executed, hdone, hsettled]
      exact hqueue

theorem schedule (task : TaskHandle) (admission : Admission) (delay : Number) :
    Q (sys.schedule env task admission delay).system.queue := by
  have hadmitted : Q (sys.setMetadata task (admission (sys.object task).metadata).1).queue :=
    hqueue
  unfold RuntimeEngine.schedule
  dsimp only
  split
  · exact hadmitted
  · rw [Outcome.system_andThen fun _ => rfl]
    split
    · rw [RuntimeEngine.system_andThen_record]
      exact hlasts.addDelayedTask _ hadmitted env task delay
    · exact hlasts.enqueue _ _ _ _ hadmitted

theorem submitTask (task : TaskHandle) (title : String) (taskType : TaskType)
    (metadata : Metadata) (admission : Admission) (delay : Number) :
    Q (sys.submitTask env task title taskType metadata admission delay).system.queue := by
  unfold RuntimeEngine.submitTask
  split
  · exact hqueue
  · rw [Outcome.andThen]
    split
    · rw [RuntimeEngine.system_record]
      exact hqueue
    · dsimp only
      rw [RuntimeEngine.system_record]
      exact hlasts.schedule ((sys.register task).setObject task { metadata }) hqueue env
        task admission delay

theorem timeout (workerId : String) : Q (sys.timeout env workerId).system.queue := by
  cases hfiring : sys.firing env workerId with
  | none =>
    rw [RuntimeEngine.timeout_idle hfiring]
    exact hqueue
  | some attempt =>
    obtain ⟨superseded, hsystem, -⟩ := RuntimeEngine.timeout_firing hfiring
    rw [hsystem]
    change Q ((sys.setStatus attempt.task .failed).handleTaskTimeout env attempt).system.queue
    rw [RuntimeEngine.system_handleTaskTimeout]
    split
    · exact hlasts.handleTaskFailure
        (sys.setStatus attempt.task .failed).countFailed hqueue env attempt.task .timeout
    · exact hqueue

/-- An invariant of the queue is one of the runtime. -/
theorem perform (action : Action) : Q (sys.perform env action).system.queue := by
  cases action with
  | schedule task admission delay => exact hlasts.schedule sys hqueue env task admission delay
  | submitTask task title taskType metadata admission delay =>
    exact hlasts.submitTask sys hqueue env task title taskType metadata admission delay
  | release =>
    rw [RuntimeEngine.perform]
    unfold RuntimeEngine.release
    split
    · exact hqueue
    · split
      · exact hlasts.onDelayedTaskReady { sys with tracker.heap := sys.tracker.heap.pop }
          hqueue env _
      · exact hqueue
  | dispatch =>
    rw [RuntimeEngine.perform]
    unfold RuntimeEngine.dispatch
    split
    · exact hlasts.dequeue _ _ hqueue
    · exact hqueue
  | start workerId =>
    obtain ⟨objects, pool, workers, attempts, hsystem, -⟩ := sys.system_start env workerId
    rw [RuntimeEngine.perform, hsystem]
    exact hqueue
  | conclude workerId result =>
    rw [RuntimeEngine.perform]
    unfold RuntimeEngine.conclude
    split
    · exact hlasts.executed sys hqueue env _ result
    · exact hqueue
  | timeout workerId => exact hlasts.timeout sys hqueue env workerId
  | respawn workerId =>
    obtain ⟨workers, hsystem⟩ := sys.system_respawn env workerId
    rw [RuntimeEngine.perform, hsystem]
    exact hqueue

end Lasting

end Lasting

/-- What is stored has its place in the order. -/
def InMemoryTaskQueue.Ordered (q : InMemoryTaskQueue FIFOPolicy) : Prop :=
  ∀ taskId ∈ q.storage.keys, taskId ∈ q.policy.order

theorem lasting_ordered : Lasting InMemoryTaskQueue.Ordered where
  enqueue q env task metadata hordered := by
    cases hreached : q.reached with
    | some bound =>
      rw [InMemoryTaskQueue.enqueue_full hreached]
      exact hordered
    | none =>
      have hadd : SchedulingPolicy.add q.policy task.id metadata =
        (q.policy.add task.id, .ok ()) := rfl
      rw [InMemoryTaskQueue.enqueue_accepted hreached hadd]
      intro taskId hmem
      rcases (Dict.mem_keys_set _ _ _ _).mp hmem with rfl | hold
      · exact List.mem_append_right _ (List.mem_singleton_self _)
      · exact List.mem_append_left _ (hordered taskId hold)
  dequeue q env hordered := by
    cases horder : q.policy.order with
    | nil =>
      have hnone : (SchedulingPolicy.next q.policy).2.bind q.storage.get? = none := by
        change q.policy.order.head?.bind _ = none
        rw [horder]
        rfl
      rw [InMemoryTaskQueue.dequeue_none hnone]
      intro taskId hmem
      have hbefore := hordered taskId hmem
      rw [horder] at hbefore
      cases hbefore
    | cons first rest =>
      have hnext : (SchedulingPolicy.next q.policy).2 = some first := by
        change q.policy.order.head? = _
        rw [horder]
        rfl
      have htail : (SchedulingPolicy.next q.policy).1.order = rest := by
        change q.policy.order.tail = rest
        rw [horder]
        rfl
      have hlater : ∀ taskId ∈ q.storage.keys, taskId ≠ first → taskId ∈ rest := by
        intro taskId hmem hne
        have hbefore := hordered taskId hmem
        rw [horder] at hbefore
        exact (List.mem_cons.mp hbefore).resolve_left hne
      cases hget : q.storage.get? first with
      | none =>
        have hnone : (SchedulingPolicy.next q.policy).2.bind q.storage.get? = none := by
          rw [hnext]
          exact hget
        rw [InMemoryTaskQueue.dequeue_none hnone]
        intro taskId hmem
        change taskId ∈ (SchedulingPolicy.next q.policy).1.order
        rw [htail]
        refine hlater taskId hmem ?_
        rintro rfl
        exact (q.storage.get?_eq_none_iff taskId).mp hget hmem
      | some task =>
        rw [InMemoryTaskQueue.dequeue_some hnext hget]
        intro taskId hmem
        change taskId ∈ (SchedulingPolicy.next q.policy).1.order
        rw [htail]
        obtain ⟨hold, hne⟩ := (q.storage.mem_keys_erase first taskId).mp hmem
        exact hlater taskId hold hne

namespace RuntimeEngine

section Steps

variable [FloatArith] {sys : RuntimeEngine FIFOPolicy} {env : StepEnv}

omit [FloatArith] in
theorem waitingLoad_pop {entry : Entry Number TaskHandle} {rest : List (Entry Number TaskHandle)}
    (h : sys.tracker.heap.entries = entry :: rest) :
    ({ sys with tracker.heap := sys.tracker.heap.pop } : RuntimeEngine FIFOPolicy).waitingLoad +
      7 * stake sys.objects entry.item = sys.waitingLoad := by
  have hbefore : sys.tracker.tasks = entry.item :: rest.map Entry.item := by
    rw [DelayedTaskTracker.tasks, h]
    rfl
  have hafter : sys.tracker.heap.pop.entries.map Entry.item = rest.map Entry.item := by
    rw [Heap.entries_pop, h]
    rfl
  have hpopped : ({ sys with tracker.heap := sys.tracker.heap.pop } :
      RuntimeEngine FIFOPolicy).waitingLoad =
        7 * total (stake sys.objects) (sys.tracker.heap.pop.entries.map Entry.item) +
          5 * total (stake sys.objects) sys.queue.storage.values +
          4 * total (stake sys.objects) sys.pool + sys.queue.policy.order.length := rfl
  rw [hpopped, hafter, waitingLoad, hbefore, total_cons]
  omega

omit [FloatArith] in
theorem load_release {task : TaskHandle} (hdue : sys.due env = some task) :
    (sys.release env).system.load < sys.load := by
  obtain ⟨entry, rest, hentries, rfl, hrelease⟩ := release_some hdue
  have hpos := stake_pos sys.objects entry.item
  have hpopped := waitingLoad_pop hentries
  have hready := waitingLoad_onDelayedTaskReady
    { sys with tracker.heap := sys.tracker.heap.pop } env entry.item
  change _ ≤ _ + 5 * stake sys.objects entry.item + 1 at hready
  have hworkers : (sys.release env).system.workers = sys.workers ∧
      (sys.release env).system.objects = sys.objects := by
    obtain ⟨queue, tracker, hsystem⟩ := sys.system_release env
    rw [hsystem]
    exact ⟨rfl, rfl⟩
  rw [load, load, hworkers.1, hworkers.2, hrelease]
  omega

omit [FloatArith] in
/-- The round takes the first id, and hands the task over if there is one. -/
theorem waitingLoad_dequeue {first : String} {rest : List String}
    (horder : sys.queue.policy.order = first :: rest) :
    7 * total (stake sys.objects) sys.tracker.tasks +
        5 * total (stake sys.objects) (sys.queue.dequeue env.queue).queue.storage.values +
        4 * total (stake sys.objects)
          (sys.pool ++ (sys.queue.dequeue env.queue).result.toOption.toList) +
        (sys.queue.dequeue env.queue).queue.policy.order.length < sys.waitingLoad := by
  have hnext : (SchedulingPolicy.next sys.queue.policy).2 = some first := by
    change sys.queue.policy.order.head? = _
    rw [horder]
    rfl
  have htail : (SchedulingPolicy.next sys.queue.policy).1.order.length + 1 =
      sys.queue.policy.order.length := by
    change sys.queue.policy.order.tail.length + 1 = _
    rw [horder]
    rfl
  unfold waitingLoad
  cases hget : sys.queue.storage.get? first with
  | none =>
    have hnone : (SchedulingPolicy.next sys.queue.policy).2.bind sys.queue.storage.get? = none := by
      rw [hnext]
      exact hget
    rw [InMemoryTaskQueue.dequeue_none hnone, Except.toOption, Option.toList_none,
      List.append_nil]
    dsimp only
    omega
  | some task =>
    have herased := Dict.total_erase (stake sys.objects) sys.queue.storage hget
    have hpos := stake_pos sys.objects task
    rw [InMemoryTaskQueue.dequeue_some hnext hget, total_append]
    dsimp only
    have hmoved : total (stake sys.objects) ((fun _ => task) <$>
        (env.queue.announce (.taskDequeued task.id) (.taskDequeued task.id)).2).toOption.toList ≤
          stake sys.objects task := by
      cases (env.queue.announce (.taskDequeued task.id) (.taskDequeued task.id)).2 with
      | error e => exact Nat.zero_le _
      | ok _ => exact le_rfl
    omega

omit [FloatArith] in
theorem load_dispatch (hidle : sys.idleWorkers ≠ []) (hqueued : sys.queue.isEmpty = false)
    (hordered : sys.queue.Ordered) : (sys.dispatch env).system.load < sys.load := by
  obtain ⟨first, rest, horder⟩ : ∃ first rest, sys.queue.policy.order = first :: rest := by
    refine List.exists_cons_of_ne_nil fun hnone => ?_
    have hkeys : sys.queue.storage.keys = [] := by
      refine List.eq_nil_iff_forall_not_mem.mpr fun taskId hmem => ?_
      have hbefore := hordered taskId hmem
      rw [hnone] at hbefore
      cases hbefore
    have hentries : sys.queue.storage.entries = [] := List.map_eq_nil_iff.mp hkeys
    simp [InMemoryTaskQueue.isEmpty, InMemoryTaskQueue.size, hentries] at hqueued
  unfold dispatch
  rw [if_pos ⟨hidle, hqueued⟩]
  exact Nat.add_lt_add_right (waitingLoad_dequeue horder) _

omit [FloatArith] in
/-- A worker goes on, and no task weighs more than before. -/
theorem load_setSlot_lt {s : RuntimeEngine FIFOPolicy} {workerId : String} {old slot : Slot}
    (hworkers : s.workers = sys.workers) (hold : sys.workers.get? workerId = some old)
    (hstakes : ∀ other, stake s.objects other ≤ stake sys.objects other)
    (hless : s.waitingLoad + slot.load s.objects < sys.waitingLoad + old.load sys.objects) :
    (s.setSlot workerId slot).load < sys.load := by
  have hbefore := Dict.total_erase (Slot.load sys.objects) sys.workers hold
  have hafter := Dict.total_set (Slot.load s.objects) s.workers workerId slot
  have hothers := total_mono (Slot.load_mono hstakes) (sys.workers.erase workerId).values
  change s.waitingLoad + total (Slot.load s.objects) (s.workers.set workerId slot).values < _
  rw [hafter, hworkers, load]
  omega

omit [FloatArith] in
theorem load_start {workerId : String} {task : TaskHandle}
    (hoffered : sys.offered workerId = some task) :
    (sys.start env workerId).system.load < sys.load := by
  obtain ⟨hslot, rest, hpool⟩ := offered_eq_some.mp hoffered
  have hpos := stake_pos sys.objects task
  have htaken : ∀ s : RuntimeEngine FIFOPolicy, s.objects = sys.objects →
      s.queue = sys.queue → s.tracker = sys.tracker → s.pool = rest →
      s.waitingLoad + 4 * stake sys.objects task = sys.waitingLoad := by
    intro s hobjects hqueue htracker hrest
    simp only [waitingLoad, hpool, total_cons, hobjects, hqueue, htracker, hrest]
    omega
  unfold start
  rw [hslot, hpool]
  dsimp only
  split
  · refine load_setSlot_lt rfl hslot (fun _ => le_rfl) ?_
    have hcrashed := htaken { sys with pool := rest } rfl rfl rfl rfl
    change _ + 1 < _ + 0
    omega
  · have hstakes := stake_setStatus { sys with pool := rest, attempts := sys.attempts + 1 } task
      .running
    have hwaiting := waitingLoad_setStatus { sys with pool := rest, attempts := sys.attempts + 1 }
      task .running
    have hstarted := htaken { sys with pool := rest, attempts := sys.attempts + 1 }
      rfl rfl rfl rfl
    refine load_setSlot_lt rfl hslot (fun other => (hstakes other).le) ?_
    rw [hwaiting]
    change _ + 3 * stake _ task < _ + 0
    rw [hstakes task]
    change _ + 3 * stake sys.objects task < _
    omega

theorem load_conclude {workerId : String} {attempt : Attempt}
    (hslot : sys.workers.get? workerId = some (.executing attempt))
    (result : Except Raised Unit) : (sys.conclude env workerId result).system.load < sys.load := by
  have hworkers := (sys.workers_executed env attempt result).1
  have hpos := stake_pos sys.objects attempt.task
  have hattempt := Slot.load_executing_pos sys.objects attempt
  rw [conclude_executing hslot, finish]
  cases charged_executed sys env attempt result with
  | kept hstakes hwaiting =>
    refine load_setSlot_lt hworkers hslot hstakes ?_
    change _ + 0 < _
    omega
  | retried share hbefore hafter hstakes hwaiting =>
    refine load_setSlot_lt hworkers hslot hstakes ?_
    change _ + 0 < _
    omega

/-- A firing attempt still has its start time. -/
theorem firing_startTime {workerId : String} {attempt : Attempt}
    (h : sys.firing env workerId = some attempt) : attempt.startTime.isSome = true := by
  unfold firing at h
  split at h
  · split at h
    · rename_i start policy hstart hpolicy
      split at h
      · split at h
        · cases h
          rw [hstart]
          rfl
        · cases h
      · cases h
    · cases h
  · cases h

theorem load_timeout {workerId : String} {attempt : Attempt}
    (hfiring : sys.firing env workerId = some attempt) :
    (sys.timeout env workerId).system.load < sys.load := by
  obtain ⟨superseded, hsystem, -⟩ := timeout_firing hfiring
  have hslot := firing_some hfiring
  have hcharged : Charged attempt.task sys
      ((sys.setStatus attempt.task .failed).handleTaskTimeout env attempt).system :=
    (charged_handleTaskTimeout (sys.setStatus attempt.task .failed) env attempt).of_stake
      (sys.stake_setStatus _ .failed) (sys.waitingLoad_setStatus _ .failed)
  have hworkers : ((sys.setStatus attempt.task .failed).handleTaskTimeout env
      attempt).system.workers = sys.workers := by
    obtain ⟨object, queue, tracker, hframe⟩ :=
      (sys.setStatus attempt.task .failed).system_handleTaskTimeout_frame env attempt
    rw [hframe]
    rfl
  have hpos := stake_pos sys.objects attempt.task
  have hattempt : (Slot.executing attempt).load sys.objects =
      3 * stake sys.objects attempt.task := by
    rw [Slot.load, firing_startTime hfiring]
    rfl
  rw [hsystem]
  cases hcharged with
  | kept hstakes hwaiting =>
    have hsame := hstakes attempt.task
    refine load_setSlot_lt hworkers hslot hstakes ?_
    change _ + 2 * stake _ attempt.task < _
    omega
  | retried share hbefore hafter hstakes hwaiting =>
    refine load_setSlot_lt hworkers hslot hstakes ?_
    change _ + 2 * stake _ attempt.task < _
    omega

omit [FloatArith] in
/-- The supervisor has replaced a worker, or nothing has happened. -/
theorem load_respawn (workerId : String) :
    (sys.respawn env workerId).system = sys ∨
      (sys.respawn env workerId).system.load < sys.load := by
  unfold respawn
  split
  · rename_i hslot
    rw [Outcome.system_caught, Outcome.andThen]
    split
    · rw [system_andThen_record, system_record]
      exact .inl rfl
    · dsimp only
      rw [system_andThen_record, system_record]
      refine .inr (load_setSlot_lt rfl hslot (fun _ => le_rfl) ?_)
      change _ + 0 < _ + 1
      omega
  · exact .inl rfl

end Steps

end RuntimeEngine

/-- What the runtime does by itself. -/
abbrev InternalStep := { a : StepEnv × Action // a.2.internal = true }

namespace RuntimeEngine

variable [FloatArith]

def internalStep (sys : RuntimeEngine FIFOPolicy) (a : InternalStep) :
    RuntimeEngine FIFOPolicy × List Note := step sys a.1

/-- The step gets a task further, or a crashed worker replaced. -/
def helpful (sys : RuntimeEngine FIFOPolicy) (a : InternalStep) : Bool :=
  match a.1.2 with
  | .release => (sys.due a.1.1).isSome
  | .dispatch => decide (sys.idleWorkers ≠ []) && !sys.queue.isEmpty
  | .start workerId => (sys.offered workerId).isSome
  | .conclude workerId _ => (sys.workers.get? workerId).any fun slot => slot.task.isSome
  | .timeout workerId => (sys.firing a.1.1 workerId).isSome
  | .respawn workerId => decide (sys.workers.get? workerId = some .crashed ∧
      (sys.respawn a.1.1 workerId).system.workers.get? workerId = some .idle)
  | _ => false

/-- A worker executes, or one that is idle could take a task that waits, or a task is
put off, but not for ever. -/
def Busy (sys : RuntimeEngine FIFOPolicy) : Prop :=
  (∃ workerId attempt, sys.workers.get? workerId = some (.executing attempt)) ∨
    (∃ workerId, sys.workers.get? workerId = some .idle ∧
      (sys.queue.isEmpty = false ∨ sys.pool ≠ [])) ∨
    ∃ entry ∈ sys.tracker.heap.entries, entry.key < .posInf

section Descent

variable {sys : RuntimeEngine FIFOPolicy}

theorem ordered_run (maxSize : Option ℤ) (poolSize : ℕ) (objects : ℕ → TaskObject)
    (actions : List (StepEnv × Action)) :
    (run maxSize poolSize objects actions : RuntimeEngine FIFOPolicy × List Note).1.queue.Ordered
    := by
  refine Machine.exec_invariant (P := fun _ _ => True)
    (fun c : RuntimeEngine FIFOPolicy × List Note => c.1.queue.Ordered) ?_ ?_
    (Machine.along_of_forall (fun _ _ _ => trivial) _)
  · intro c a h _
    exact lasting_ordered.perform c.1 h a.1 a.2
  · intro taskId hmem
    cases hmem

theorem load_internalStep (h : sys.queue.Ordered) (a : InternalStep)
    (hhelps : sys.helpful a = true) : (sys.internalStep a).1.load < sys.load := by
  obtain ⟨⟨env, action⟩, hinternal⟩ := a
  cases action with
  | schedule task admission delay => cases hinternal
  | submitTask task title taskType metadata admission delay => cases hinternal
  | release =>
    obtain ⟨task, hdue⟩ := Option.isSome_iff_exists.mp hhelps
    exact load_release hdue
  | dispatch =>
    obtain ⟨hidle, hqueued⟩ : sys.idleWorkers ≠ [] ∧ sys.queue.isEmpty = false := by
      simpa [helpful] using hhelps
    exact load_dispatch hidle hqueued h
  | start workerId =>
    obtain ⟨task, hoffered⟩ := Option.isSome_iff_exists.mp hhelps
    exact load_start hoffered
  | conclude workerId result =>
    obtain ⟨slot, hslot, htask⟩ := (Option.any_eq_true _ _).mp hhelps
    cases slot with
    | executing attempt => exact load_conclude hslot result
    | idle => cases htask
    | crashed => cases htask
  | timeout workerId =>
    obtain ⟨attempt, hfiring⟩ := Option.isSome_iff_exists.mp hhelps
    exact load_timeout hfiring
  | respawn workerId =>
    obtain ⟨hcrashed, hidle⟩ := of_decide_eq_true hhelps
    refine (load_respawn workerId).resolve_left ?_
    intro hsame
    rw [hsame, hcrashed] at hidle
    cases hidle

/-- Any other step leaves everything as it is. -/
theorem internalStep_idle (a : InternalStep) (hidle : sys.helpful a = false) :
    (sys.internalStep a).1 = sys := by
  obtain ⟨⟨env, action⟩, hinternal⟩ := a
  cases action with
  | schedule task admission delay => cases hinternal
  | submitTask task title taskType metadata admission delay => cases hinternal
  | release =>
    have hdue : sys.due env = none := Option.isNone_iff_eq_none.mp (by simpa [helpful] using hidle)
    exact congrArg Outcome.system (release_none hdue)
  | dispatch =>
    refine congrArg Outcome.system (if_neg ?_)
    rintro ⟨hworkers, hqueued⟩
    simp [helpful, hworkers, hqueued] at hidle
  | start workerId =>
    have hoffered : sys.offered workerId = none :=
      Option.isNone_iff_eq_none.mp (by simpa [helpful] using hidle)
    exact congrArg Outcome.system (start_idle hoffered)
  | conclude workerId result =>
    refine congrArg Outcome.system (conclude_idle ?_ result)
    intro attempt hslot
    simp [helpful, hslot, Slot.task] at hidle
  | timeout workerId =>
    have hfiring : sys.firing env workerId = none :=
      Option.isNone_iff_eq_none.mp (by simpa [helpful] using hidle)
    exact congrArg Outcome.system (timeout_idle hfiring)
  | respawn workerId =>
    obtain ⟨workers, hsystem⟩ := sys.system_respawn env workerId
    obtain hworkers | ⟨hcrashed, hworkers⟩ := sys.workers_respawn env workerId
    · change (sys.respawn env workerId).system = sys
      rw [hsystem] at hworkers ⊢
      change workers = sys.workers at hworkers
      rw [hworkers]
    · refine absurd ?_ (of_decide_eq_false hidle)
      exact ⟨hcrashed, by rw [hworkers, Dict.get?_set_self]⟩

omit [FloatArith] in
/-- An entry that is not put off for ever is due at some time. -/
theorem exists_due {entry : Entry Number TaskHandle} (hentry : entry ∈ sys.tracker.heap.entries)
    (hfinite : entry.key < .posInf) : ∃ time, (sys.due (.plain "" time)).isSome = true := by
  cases hentries : sys.tracker.heap.entries with
  | nil =>
    rw [hentries] at hentry
    cases hentry
  | cons first rest =>
    have hle : first.key ≤ entry.key := by
      rcases List.mem_cons.mp (hentries ▸ hentry) with rfl | hlater
      · exact le_rfl
      · have hsorted := sys.tracker.heap.sorted
        rw [hentries] at hsorted
        exact Prod.Lex.monotone_fst _ _ ((List.pairwise_cons.mp hsorted).1 entry hlater)
    obtain ⟨time, htime⟩ : ∃ time : ℚ, first.key ≤ .finite time := by
      have hless := hle.trans_lt hfinite
      cases hkey : first.key with
      | negInf => exact ⟨0, by decide⟩
      | finite q => exact ⟨q, le_rfl⟩
      | posInf =>
        rw [hkey] at hless
        exact absurd hless (lt_irrefl _)
    refine ⟨time, ?_⟩
    have hdue : sys.due (.plain "" time) = some first.item := by
      unfold due
      rw [hentries]
      exact if_pos htime
    rw [hdue]
    rfl

/-- While something is left to do, something can be done. -/
theorem exists_helpful (hbusy : sys.Busy) : ∃ a, sys.helpful a = true := by
  rcases hbusy with ⟨workerId, attempt, hslot⟩ | ⟨workerId, hslot, hqueued | hpool⟩ |
    ⟨entry, hentry, hfinite⟩
  · exact ⟨⟨(.plain "" 0, .conclude workerId (.ok ())), rfl⟩, by
      simp [helpful, hslot, Slot.task]⟩
  · have hidle : sys.idleWorkers ≠ [] := by
      refine List.ne_nil_of_mem (a := .idle) (List.mem_filter.mpr ⟨?_, by decide⟩)
      exact Dict.mem_values_iff.mpr ⟨workerId, hslot⟩
    exact ⟨⟨(.plain "" 0, .dispatch), rfl⟩, by simp [helpful, hidle, hqueued]⟩
  · obtain ⟨task, rest, htasks⟩ := List.exists_cons_of_ne_nil hpool
    have hoffered : sys.offered workerId = some task :=
      offered_eq_some.mpr ⟨hslot, rest, htasks⟩
    exact ⟨⟨(.plain "" 0, .start workerId), rfl⟩, by simp [helpful, hoffered]⟩
  · obtain ⟨time, hdue⟩ := exists_due hentry hfinite
    exact ⟨⟨(.plain "" time, .release), rfl⟩, hdue⟩

theorem descends : Machine.Descends internalStep (fun sys => sys.queue.Ordered) (fun _ => True)
    helpful load where
  keeps sys a h := lasting_ordered.perform sys h a.1.1 a.1.2
  weakly sys a h _ := by
    cases hhelps : sys.helpful a with
    | false => rw [internalStep_idle a hhelps]
    | true => exact (load_internalStep h a hhelps).le
  strictly sys a h _ hhelps := load_internalStep h a hhelps

end Descent

end RuntimeEngine

end MollisRuntime.Scheduling
