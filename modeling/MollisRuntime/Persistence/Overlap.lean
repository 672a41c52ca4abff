import MollisRuntime.Library.UniqueQueue
import MollisRuntime.Persistence.Boundary

/-!
Events that are applied twice. On the tasks, the scheduler's flag, the timeouts
and the members of the queue and of the delayed tasks every event overwrites, so
the events at the snapshot's timestamp leave these parts of a state that
contains them as they are. Both recoveries agree on them.
-/
namespace MollisRuntime.Persistence

open Ordered Python RecoveryManager Overwriting

/-- Fields of a task that an event sets. -/
structure TaskPatch where
  status : Option String := none
  startedAt : Option (Option String) := none
  completedAt : Option (Option String) := none
  retryCount : Option ℤ := none
  errorMessage : Option (Option String) := none

def TaskPatch.apply (t : TaskExecutionState) (p : TaskPatch) : TaskExecutionState :=
  { t with
    status := p.status.getD t.status
    startedAt := p.startedAt.getD t.startedAt
    completedAt := p.completedAt.getD t.completedAt
    retryCount := p.retryCount.getD t.retryCount
    errorMessage := p.errorMessage.getD t.errorMessage }

section Changes

/-- What an event does to the entry of one task. -/
def taskChange (e : RuntimeEvent) :
    Option (String × Change TaskExecutionState TaskPatch) :=
  match e.kind with
  | .taskSubmitted taskId title taskType => some (taskId, .put {
      taskId, title, taskType
      status := "Pending"
      createdAt := e.timestamp
      metadata := e.metadata })
  | .taskQueued taskId => some (taskId, .patch { status := some "Pending" })
  | .taskStarted taskId =>
      some (taskId, .patch { status := some "Running", startedAt := some (some e.timestamp) })
  | .taskCompleted taskId =>
      some (taskId, .patch
        { status := some "Completed", completedAt := some (some e.timestamp) })
  | .taskFailed taskId message => some (taskId, .patch (failure message))
  | .taskCancelled taskId => some (taskId, .patch (failure "Task cancelled."))
  | .taskTimedOut taskId => some (taskId, .patch (failure "Task timed out."))
  | .taskRetried taskId retryCount =>
      some (taskId, .patch { status := some "Pending", retryCount := some retryCount })
  | _ => none
where
  failure (message : String) : TaskPatch :=
    { status := some "Failed"
      completedAt := some (some e.timestamp)
      errorMessage := some (some message) }

def startedChange (e : RuntimeEvent) : Option Bool :=
  match e.kind with
  | .schedulerStarted => some true
  | .schedulerStopped => some false
  | _ => none

def timeoutChange (e : RuntimeEvent) : Option (String × Option ℚ) :=
  match e.kind with
  | .timeoutTriggered taskId seconds => some (taskId, some seconds)
  | _ => none

def queueOp (e : RuntimeEvent) : Option (UniqueQueue.Op String) :=
  match e.kind with
  | .taskQueued taskId => some (.push taskId)
  | .taskDequeued taskId => some (.drop taskId)
  | .taskCompleted taskId => some (.drop taskId)
  | .taskFailed taskId _ => some (.drop taskId)
  | .taskCancelled taskId => some (.drop taskId)
  | .taskTimedOut taskId => some (.drop taskId)
  | _ => none

def delayOp (e : RuntimeEvent) : Option (UniqueQueue.Op String) :=
  match e.kind with
  | .retryScheduled taskId _ => some (.push taskId)
  | .delayedTaskReleased taskId => some (.drop taskId)
  | _ => none

def taskStep (f : String → Option TaskExecutionState) (e : RuntimeEvent) :
    String → Option TaskExecutionState :=
  maybe (keyed (change TaskPatch.apply)) f (taskChange e)

def startedStep (started : Bool) (e : RuntimeEvent) : Bool := (startedChange e).getD started

def timeoutStep (f : String → Option ℚ) (e : RuntimeEvent) : String → Option ℚ :=
  maybe (keyed fun _ v => v) f (timeoutChange e)

end Changes

section Parts

theorem taskPatch_overwrites : Overwrites TaskPatch.apply := by
  have hfields := (overwrites_getD.comap TaskPatch.status).prod
    ((overwrites_getD.comap TaskPatch.startedAt).prod
      ((overwrites_getD.comap TaskPatch.completedAt).prod
        ((overwrites_getD.comap TaskPatch.retryCount).prod
          ((overwrites_getD.comap TaskPatch.errorMessage).prod
            (overwrites_skip
              (σ := String × String × String × String × Attrs × ℤ) (α := TaskPatch))))))
  refine hfields.of_injective (fun t => (t.status, t.startedAt, t.completedAt,
    t.retryCount, t.errorMessage, t.taskId, t.title, t.taskType, t.createdAt, t.metadata,
    t.version)) ?_ (fun _ _ => rfl)
  intro s t hst
  cases s
  cases t
  simp only [Prod.mk.injEq] at hst
  obtain ⟨rfl, rfl, rfl, rfl, rfl, rfl, rfl, rfl, rfl, rfl, rfl⟩ := hst
  rfl

theorem taskStep_overwrites : Overwrites taskStep :=
  taskPatch_overwrites.change.keyed.maybe.comap taskChange

theorem startedStep_overwrites : Overwrites startedStep :=
  overwrites_getD.comap startedChange

theorem timeoutStep_overwrites : Overwrites timeoutStep :=
  overwrites_const.keyed.maybe.comap timeoutChange

end Parts

section Components

variable (r : Reconstruction) (e : RuntimeEvent)

theorem get?_set_update {α : Type} (d : Dict String α) (key : String) (a : α) :
    (d.set key a).get? = Function.update d.get? key (some a) := by
  funext k
  rw [Dict.get?_set, Function.update_apply]
  simp only [eq_comm]

theorem get?_replaceAt_update {α : Type} (d : Dict String α) (key : String) (f : α → α) :
    (replaceAt d key f).get? = Function.update d.get? key ((d.get? key).map f) := by
  funext k
  rw [get?_replaceAt, Function.update_apply]
  simp only [eq_comm]

theorem tasks_apply : (r.apply e).tasks.get? = taskStep r.tasks.get? e := by
  obtain ⟨kind, timestamp, metadata⟩ := e
  cases kind with
  | taskSubmitted => exact get?_set_update _ _ _
  | taskQueued | taskStarted | taskCompleted | taskFailed | taskCancelled | taskTimedOut
  | taskRetried => exact get?_replaceAt_update _ _ _
  | retryScheduled taskId =>
    dsimp only [Reconstruction.apply]
    split <;> rfl
  | _ => rfl

theorem started_apply : (r.apply e).schedStarted = startedStep r.schedStarted e := by
  obtain ⟨kind, timestamp, metadata⟩ := e
  cases kind with
  | retryScheduled taskId =>
    dsimp only [Reconstruction.apply]
    split <;> rfl
  | _ => rfl

theorem timeouts_apply :
    (r.apply e).activeTimeouts.get? = timeoutStep r.activeTimeouts.get? e := by
  obtain ⟨kind, timestamp, metadata⟩ := e
  cases kind with
  | timeoutTriggered => exact get?_set_update _ _ _
  | retryScheduled taskId =>
    dsimp only [Reconstruction.apply]
    split <;> rfl
  | _ => rfl

theorem queued_apply : (r.apply e).queuedTaskIds =
    maybe UniqueQueue.step r.queuedTaskIds (queueOp e) := by
  obtain ⟨kind, timestamp, metadata⟩ := e
  cases kind with
  | retryScheduled taskId =>
    dsimp only [Reconstruction.apply]
    split <;> rfl
  | _ => rfl

theorem delayed_apply : (r.apply e).delayedIds =
    maybe UniqueQueue.step r.delayedIds (delayOp e) := by
  obtain ⟨kind, timestamp, metadata⟩ := e
  cases kind with
  | retryScheduled taskId =>
    dsimp only [Reconstruction.apply, delayOp, maybe, UniqueQueue.step]
    split <;> rfl
  | _ => rfl

end Components

/-- Lists of ids that the events push to and drop from. -/
theorem ids_foldl {ids : Reconstruction → List String}
    {op : RuntimeEvent → Option (UniqueQueue.Op String)}
    (hids : ∀ r e, ids (r.apply e) = maybe UniqueQueue.step (ids r) (op e))
    (events : List RuntimeEvent) (r : Reconstruction) :
    ids (events.foldl Reconstruction.apply r) =
      UniqueQueue.run (events.filterMap op) (ids r) := by
  rw [UniqueQueue.run, ← foldl_maybe]
  exact (List.foldl_hom ids fun r e => (hids r e).symm).symm

namespace Checkpointing

variable (c : Checkpointing)

/-- Where the events overwrite, the boundary events leave no trace. -/
theorem view_overlap {σ : Type} {step : σ → RuntimeEvent → σ} (h : Overwrites step)
    (view : Reconstruction → σ) (hview : ∀ r e, view (r.apply e) = step (view r) e) :
    view (c.later.foldl Reconstruction.apply
        (c.boundary.foldl Reconstruction.apply c.reached)) =
      view (c.later.foldl Reconstruction.apply c.reached) := by
  have hfold : ∀ (events : List RuntimeEvent) (r : Reconstruction),
      view (events.foldl Reconstruction.apply r) = events.foldl step (view r) := fun _ _ =>
    (List.foldl_hom view fun r e => (hview r e).symm).symm
  obtain ⟨front, hfront⟩ := c.before_split
  have htwice : c.boundary.foldl step (view c.reached) = view c.reached := by
    rw [reached, hfold, hfront, List.foldl_append, h.foldl_idem]
  rw [hfold, hfold, htwice, hfold]

/-- The queue at the snapshot has been through the boundary events. -/
theorem ids_reached {ids : Reconstruction → List String}
    {op : RuntimeEvent → Option (UniqueQueue.Op String)}
    (hids : ∀ r e, ids (r.apply e) = maybe UniqueQueue.step (ids r) (op e))
    (hstart : ids (.unpack (genesisState c.clock.starting)) = []) :
    ∃ front : List String, front.Nodup ∧
      ids c.reached = UniqueQueue.run (c.boundary.filterMap op) front := by
  obtain ⟨front, hfront⟩ := c.before_split
  refine ⟨UniqueQueue.run (front.filterMap op) [], UniqueQueue.nodup_run List.nodup_nil _, ?_⟩
  rw [reached, ids_foldl hids, hstart, hfront, List.filterMap_append, UniqueQueue.run_append]

theorem members_overlap {ids : Reconstruction → List String}
    {op : RuntimeEvent → Option (UniqueQueue.Op String)}
    (hids : ∀ r e, ids (r.apply e) = maybe UniqueQueue.step (ids r) (op e))
    (hstart : ids (.unpack (genesisState c.clock.starting)) = []) (k : String) :
    k ∈ ids (c.later.foldl Reconstruction.apply
        (c.boundary.foldl Reconstruction.apply c.reached)) ↔
      k ∈ ids (c.later.foldl Reconstruction.apply c.reached) := by
  obtain ⟨front, hnodup, hreached⟩ := c.ids_reached hids hstart
  have honce := UniqueQueue.nodup_run hnodup (c.boundary.filterMap op)
  rw [ids_foldl hids, ids_foldl hids, ids_foldl hids, hreached]
  exact UniqueQueue.mem_run_congr (UniqueQueue.nodup_run honce _) honce
    (UniqueQueue.mem_run_run hnodup _) _ k

end Checkpointing

/-- The parts of a recovered state on which events overwrite: the tasks, the
scheduler's flag and timeouts, and the members of the two lists. -/
structure SameUpToOrder (s s' : RuntimeState) : Prop where
  tasks : s.tasks.SameItems s'.tasks
  started : s.scheduler.started = s'.scheduler.started
  timeouts : s.scheduler.activeTimeouts.SameItems s'.scheduler.activeTimeouts
  queued : ∀ k, k ∈ s.queue.queuedTaskIds ↔ k ∈ s'.queue.queuedTaskIds
  delayed : ∀ k, k ∈ s.scheduler.delayedTaskIds ↔ k ∈ s'.scheduler.delayedTaskIds

/-- On these parts the recovery from a snapshot agrees with the one from genesis. -/
theorem snapshot_agrees_with_genesis (c : Checkpointing) (clock clock' : Clock) :
    ∃ s s', recoveredState c.reopened .fromLatestSnapshot clock = .ok s ∧
      recoveredState c.reopened .fromGenesis clock' = .ok s' ∧ SameUpToOrder s s' := by
  refine ⟨_, _, c.recovered_snapshot clock, c.recovered_genesis clock', ?_⟩
  constructor
  · exact congrFun (c.view_overlap taskStep_overwrites (fun r => r.tasks.get?) tasks_apply)
  · exact c.view_overlap startedStep_overwrites (fun r => r.schedStarted) started_apply
  · exact congrFun (c.view_overlap timeoutStep_overwrites (fun r => r.activeTimeouts.get?)
      timeouts_apply)
  · exact c.members_overlap queued_apply rfl
  · exact c.members_overlap delayed_apply rfl

end MollisRuntime.Persistence
