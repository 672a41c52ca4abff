import MollisRuntime.Persistence.Genesis

/-!
Well-formed runtime states. The queued and the delayed ids have no duplicates,
the size of the queue is its length, tasks and workers stand under their own ids
and no ended task is queued. Every event keeps these properties, so a recovery
from a well-formed state, or from nothing, leads to a well-formed state whatever
the log says.
-/
namespace MollisRuntime.Persistence

open Ordered Python RecoveryManager Overwriting

def TaskExecutionState.Ended (t : TaskExecutionState) : Prop :=
  t.status = "Completed" ∨ t.status = "Failed"

structure RuntimeState.WellFormed (state : RuntimeState) : Prop where
  queued_nodup : state.queue.queuedTaskIds.Nodup
  size_eq : state.queue.size = state.queue.queuedTaskIds.length
  delayed_nodup : state.scheduler.delayedTaskIds.Nodup
  tasks_keyed : ∀ id task, state.tasks.get? id = some task → task.taskId = id
  workers_keyed : ∀ id worker, state.workers.get? id = some worker → worker.workerId = id
  ended_unqueued : ∀ id task, state.tasks.get? id = some task → task.Ended →
    id ∉ state.queue.queuedTaskIds

namespace Reconstruction

/-- The same of the local variables of a recovery. -/
structure WellFormed (r : Reconstruction) : Prop where
  queued_nodup : r.queuedTaskIds.Nodup
  size_eq : r.queueSize = r.queuedTaskIds.length
  delayed_nodup : r.delayedIds.Nodup
  keyed : r.Keyed
  ended_unqueued : ∀ id task, r.tasks.get? id = some task → task.Ended → id ∉ r.queuedTaskIds

variable {r : Reconstruction}

theorem nodup_maybe_step {ids : List String} (h : ids.Nodup)
    (op : Option (UniqueQueue.Op String)) : (maybe UniqueQueue.step ids op).Nodup := by
  cases op with
  | none => exact h
  | some op => exact UniqueQueue.nodup_step h op

/-- An event that leaves the queue alone and ends no task. -/
theorem ended_changeTask (h : r.WellFormed) (taskId : String)
    {f : TaskExecutionState → TaskExecutionState}
    (hf : ∀ t, (f t).Ended → taskId ∉ r.queuedTaskIds) :
    ∀ id task, (r.changeTask taskId f).tasks.get? id = some task → task.Ended →
      id ∉ (r.changeTask taskId f).queuedTaskIds := by
  intro id task htask hended
  have hget : (replaceAt r.tasks taskId f).get? id = some task := htask
  rw [get?_replaceAt] at hget
  split at hget
  · rename_i heq
    subst heq
    obtain ⟨t, -, rfl⟩ := Option.map_eq_some_iff.mp hget
    exact hf t hended
  · exact h.ended_unqueued id task hget hended

/-- A task that ends leaves the queue, and the others stay where they are. -/
theorem ended_finish (h : r.WellFormed) (taskId : String)
    (f : TaskExecutionState → TaskExecutionState) :
    ∀ id task, (r.finish taskId f).tasks.get? id = some task → task.Ended →
      id ∉ (r.finish taskId f).queuedTaskIds := by
  intro id task htask hended
  have hget : (replaceAt r.tasks taskId f).get? id = some task := htask
  have hids : (r.finish taskId f).queuedTaskIds = r.queuedTaskIds.erase taskId := rfl
  rw [hids, h.queued_nodup.mem_erase_iff]
  rintro ⟨hne, hqueued⟩
  rw [get?_replaceAt, if_neg (Ne.symm hne)] at hget
  exact h.ended_unqueued id task hget hended hqueued

/-- A task that is queued is PENDING again, if it is known. -/
theorem ended_queued (h : r.WellFormed) (taskId : String)
    {f : TaskExecutionState → TaskExecutionState} (hf : ∀ t, ¬ (f t).Ended) :
    ∀ id task, ((r.enqueue taskId).changeTask taskId f).tasks.get? id = some task →
      task.Ended → id ∉ ((r.enqueue taskId).changeTask taskId f).queuedTaskIds := by
  intro id task htask hended hqueued
  have hget : (replaceAt r.tasks taskId f).get? id = some task := htask
  have hids : id ∈ UniqueQueue.step r.queuedTaskIds (.push taskId) := hqueued
  rw [get?_replaceAt] at hget
  split at hget
  · obtain ⟨t, -, rfl⟩ := Option.map_eq_some_iff.mp hget
    exact hf t hended
  · rename_i hne
    rcases UniqueQueue.mem_step_push.mp hids with heq | hold
    · exact hne heq.symm
    · exact h.ended_unqueued id task hget hended hold

theorem ended_apply (h : r.WellFormed) (e : RuntimeEvent) :
    ∀ id task, (r.apply e).tasks.get? id = some task → task.Ended →
      id ∉ (r.apply e).queuedTaskIds := by
  obtain ⟨kind, timestamp, metadata⟩ := e
  cases kind with
  | taskSubmitted taskId title taskType =>
    intro id task htask hended
    dsimp only [apply] at htask
    rw [Dict.get?_set] at htask
    split at htask
    · cases htask
      rcases hended with hended | hended <;> simp at hended
    · exact h.ended_unqueued id task htask hended
  | taskQueued taskId => exact ended_queued h taskId fun t => by simp [TaskExecutionState.Ended]
  | taskStarted taskId =>
    exact ended_changeTask h taskId fun t ht => by simp [TaskExecutionState.Ended] at ht
  | taskRetried taskId =>
    exact ended_changeTask h taskId fun t ht => by simp [TaskExecutionState.Ended] at ht
  | taskCompleted taskId | taskFailed taskId | taskCancelled taskId | taskTimedOut taskId =>
    exact ended_finish h taskId _
  | taskDequeued taskId =>
    intro id task htask hended hqueued
    exact h.ended_unqueued id task htask hended (List.mem_of_mem_erase hqueued)
  | retryScheduled taskId =>
    dsimp only [apply]
    split <;> exact h.ended_unqueued
  | _ => exact h.ended_unqueued

/-- One event keeps the state well formed. -/
theorem WellFormed.apply (h : r.WellFormed) (e : RuntimeEvent) : (r.apply e).WellFormed where
  queued_nodup := by
    rw [queued_apply]
    exact nodup_maybe_step h.queued_nodup _
  size_eq := queueSize_apply h.size_eq e
  delayed_nodup := by
    rw [delayed_apply]
    exact nodup_maybe_step h.delayed_nodup _
  keyed := h.keyed.apply e
  ended_unqueued := ended_apply h e

theorem WellFormed.foldl (h : r.WellFormed) (events : List RuntimeEvent) :
    (events.foldl Reconstruction.apply r).WellFormed := by
  induction events generalizing r with
  | nil => exact h
  | cons e rest ih => exact ih (h.apply e)

theorem wellFormed_unpack {base : RuntimeState} (h : base.WellFormed) :
    (unpack base).WellFormed where
  queued_nodup := h.queued_nodup
  size_eq := h.size_eq
  delayed_nodup := h.delayed_nodup
  keyed := ⟨h.tasks_keyed, h.workers_keyed⟩
  ended_unqueued := h.ended_unqueued

theorem WellFormed.pack (h : r.WellFormed) (base : RuntimeState) (now : Timestamp) :
    (r.pack base now).WellFormed where
  queued_nodup := h.queued_nodup
  size_eq := h.size_eq
  delayed_nodup := h.delayed_nodup
  tasks_keyed := h.keyed.tasks
  workers_keyed := h.keyed.workers
  ended_unqueued := h.ended_unqueued

end Reconstruction

theorem wellFormed_genesis (now : Timestamp) : (genesisState now).WellFormed where
  queued_nodup := List.nodup_nil
  size_eq := rfl
  delayed_nodup := List.nodup_nil
  tasks_keyed := by
    intro id task h
    cases h
  workers_keyed := by
    intro id worker h
    cases h
  ended_unqueued := by
    intro id task h
    cases h

/-- Replaying any events on a well-formed state gives a well-formed state, and
so does every recovery whose saved state is well formed or not asked for. -/
theorem recovered_well_formed :
    (∀ base : RuntimeState, base.WellFormed → ∀ (events : List RuntimeEvent) (now : Timestamp),
      ((events.foldl Reconstruction.apply (.unpack base)).pack base now).WellFormed) ∧
    (∀ now, (genesisState now).WellFormed) ∧
    ∀ store policy clock state report, recover store policy clock = .ok (state, report) →
      (policy = .fromLatestSnapshot → ∀ base,
        store.loadRuntimeState clock.loading = .ok (some base) → base.WellFormed) →
      state.WellFormed := by
  have hreplay : ∀ base : RuntimeState, base.WellFormed →
      ∀ (events : List RuntimeEvent) (now : Timestamp),
        ((events.foldl Reconstruction.apply (.unpack base)).pack base now).WellFormed := by
    intro base hbase events now
    exact ((Reconstruction.wellFormed_unpack hbase).foldl events).pack base now
  refine ⟨hreplay, wellFormed_genesis, ?_⟩
  intro store policy clock state report hrecover hloaded
  cases policy with
  | fromGenesis =>
    cases hrecover
    exact hreplay _ (wellFormed_genesis clock.starting) _ clock.packing
  | fromLatestSnapshot =>
    obtain ⟨loaded, hload, hrest⟩ := bind_eq_ok hrecover
    cases hrest
    cases loaded with
    | none => exact hreplay _ (wellFormed_genesis clock.starting) _ clock.packing
    | some base => exact hreplay base (hloaded rfl base hload) _ clock.packing

end MollisRuntime.Persistence
