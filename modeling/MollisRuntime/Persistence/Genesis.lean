import MollisRuntime.Persistence.Overlap

/-!
Recovery from genesis of a log that is read whole. Each part of the recovered
state is what the events make of an empty part.
-/
namespace MollisRuntime.Persistence

open Ordered Python RecoveryManager Overwriting

/-- The reconstruction that the events lead to from nothing. -/
def replay (events : List RuntimeEvent) (clock : Clock) : Reconstruction :=
  events.foldl Reconstruction.apply (.unpack (genesisState clock.starting))

theorem recoveredState_replay {store : StateStore}
    (h : store.eventStore.events.length ≤ 100000) (clock : Clock) :
    recoveredState store .fromGenesis clock =
      .ok ((replay store.eventStore.events clock).pack (genesisState clock.starting)
        clock.packing) := by
  have hall : store.eventStore.stream 100000 = store.eventStore.events := by
    rw [EventStore.stream, List.drop_zero, List.take_of_length_le h]
  rw [recoveredState_genesis, hall]
  rfl

section Parts

variable (events : List RuntimeEvent) (clock : Clock)

theorem queued_replay : (replay events clock).queuedTaskIds =
    UniqueQueue.run (events.filterMap queueOp) [] :=
  ids_foldl queued_apply events _

theorem delayed_replay : (replay events clock).delayedIds =
    UniqueQueue.run (events.filterMap delayOp) [] :=
  ids_foldl delayed_apply events _

theorem tasks_replay : (replay events clock).tasks.get? = events.foldl taskStep fun _ => none :=
  (List.foldl_hom (fun r => r.tasks.get?) fun r e => (tasks_apply r e).symm).symm

theorem queueSize_apply {r : Reconstruction} (h : r.queueSize = r.queuedTaskIds.length)
    (e : RuntimeEvent) : (r.apply e).queueSize = (r.apply e).queuedTaskIds.length := by
  obtain ⟨kind, timestamp, metadata⟩ := e
  cases kind with
  | retryScheduled taskId =>
    dsimp only [Reconstruction.apply]
    split <;> exact h
  | taskQueued | taskDequeued | taskCompleted | taskFailed | taskCancelled | taskTimedOut => rfl
  | _ => exact h

theorem queueSize_replay :
    (replay events clock).queueSize = (replay events clock).queuedTaskIds.length :=
  List.foldlRecOn (motive := fun r : Reconstruction => r.queueSize = r.queuedTaskIds.length)
    events _ rfl fun _ h e _ => queueSize_apply h e

end Parts

end MollisRuntime.Persistence
