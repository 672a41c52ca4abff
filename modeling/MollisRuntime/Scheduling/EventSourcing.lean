import MollisRuntime.Persistence.Genesis
import MollisRuntime.Scheduling.TaskQueue

/-!
Event sourcing of the FIFO queue. The store is appended to after every change,
and a call that is rejected appends nothing, so the ids that a recovery from the
log finds waiting are those that the queue hands out, in the same order.
-/
namespace MollisRuntime.Scheduling

open Ordered Python Persistence RecoveryManager Overwriting
open InMemoryTaskQueue (create run logged EnqueuesAbsent)

/-- NullEventPublisher, and an event store whose appends succeed. -/
def QueueEnv.recording (now : String) : QueueEnv :=
  { now, publish := fun _ => .ok (), append := some fun _ => .ok () }

theorem QueueEnv.announce_recording (now : String) (event : QueueEvent) (kind : EventKind) :
    (QueueEnv.recording now).announce event kind = ([{ kind, timestamp := now }], .ok ()) := rfl

/-- Calls with their times, on a queue that records. -/
def recorded (calls : List (String × QueueCall)) : List (QueueEnv × QueueCall) :=
  calls.map fun a => (.recording a.1, a.2)

/-- What the queue returns when it is dequeued until it raises, some times at most. -/
def InMemoryTaskQueue.drain {P : Type} [SchedulingPolicy P] (now : String) :
    ℕ → InMemoryTaskQueue P → List TaskHandle
  | 0, _ => []
  | fuel + 1, q =>
    match (q.dequeue (.recording now)).result with
    | .error _ => []
    | .ok task => task :: drain now fuel (q.dequeue (.recording now)).queue

/-- The deque holds the stored ids in the order of the dictionary, each task is
stored under its id, and the events lead to the same ids. -/
structure InOrder (q : InMemoryTaskQueue FIFOPolicy) (events : List RuntimeEvent) : Prop where
  order : q.policy.order = q.storage.keys
  keyed : ∀ taskId task, q.storage.get? taskId = some task → task.id = taskId
  replayed : UniqueQueue.run (events.filterMap queueOp) [] = q.policy.order

namespace InOrder

variable {q : InMemoryTaskQueue FIFOPolicy} {events : List RuntimeEvent}

theorem replayed_concat (h : InOrder q events) {event : RuntimeEvent}
    {op : UniqueQueue.Op String} (hop : queueOp event = some op) :
    UniqueQueue.run ((events ++ [event]).filterMap queueOp) [] =
      UniqueQueue.step q.policy.order op := by
  rw [List.filterMap_append, List.filterMap_cons_some hop, List.filterMap_nil,
    UniqueQueue.run_concat, h.replayed]

/-- A stored id leaves the storage, the order and the replayed ids. -/
theorem taken (h : InOrder q events) {q' : InMemoryTaskQueue FIFOPolicy} {taskId : String}
    {event : RuntimeEvent} (hop : queueOp event = some (.drop taskId))
    (hstorage : q'.storage = q.storage.erase taskId)
    (horder : q'.policy.order = q.policy.order.erase taskId) :
    InOrder q' (events ++ [event]) := by
  refine ⟨?_, ?_, ?_⟩
  · rw [horder, hstorage, Dict.keys_erase, h.order]
  · intro other task hget
    rw [hstorage, Dict.get?_erase] at hget
    split at hget
    · cases hget
    · exact h.keyed other task hget
  · rw [h.replayed_concat hop, horder]
    rfl

theorem enqueue (h : InOrder q events) {now : String} {task : TaskHandle} {metadata : Attrs}
    (hnew : task.id ∉ q.storage.keys) :
    InOrder (q.answer (.recording now) (.enqueue task metadata)).queue
      (events ++ (q.answer (.recording now) (.enqueue task metadata)).events) := by
  dsimp only [InMemoryTaskQueue.answer]
  cases hreached : q.reached with
  | some bound =>
    rw [InMemoryTaskQueue.enqueue_full hreached]
    simpa [Reply.map] using h
  | none =>
    have hadd : SchedulingPolicy.add q.policy task.id metadata =
      (q.policy.add task.id, .ok ()) := rfl
    rw [InMemoryTaskQueue.enqueue_accepted hreached hadd, QueueEnv.announce_recording]
    refine ⟨?_, ?_, ?_⟩
    · change q.policy.order ++ [task.id] = (q.storage.set task.id task).keys
      rw [Dict.keys_set_of_notMem _ _ _ hnew, h.order]
    · intro other stored hget
      have hset : (q.storage.set task.id task).get? other = some stored := hget
      rw [Dict.get?_set] at hset
      split at hset
      · rename_i hid
        obtain rfl := Option.some.inj hset
        exact hid
      · exact h.keyed other stored hset
    · have hpush : UniqueQueue.step q.policy.order (.push task.id) =
          q.policy.order ++ [task.id] := if_neg (h.order ▸ hnew)
      exact (h.replayed_concat rfl).trans hpush

/-- From an empty deque nothing is taken, and nothing is appended. -/
theorem dequeue_empty (hempty : q.policy.order = []) (now : String) :
    q.dequeue (.recording now) = { queue := q, result := .error InMemoryTaskQueue.emptyError } := by
  have hnext : SchedulingPolicy.next q.policy = (q.policy, none) := by
    rcases hpolicy : q.policy with ⟨order⟩
    rw [hpolicy] at hempty
    obtain rfl : order = [] := hempty
    rfl
  rw [InMemoryTaskQueue.dequeue_none (by rw [hnext]; rfl), hnext]

/-- Otherwise the first id is taken, with the task that is stored under it. -/
theorem dequeue_cons (h : InOrder q events) {taskId : String} {rest : List String}
    (horder : q.policy.order = taskId :: rest) (now : String) :
    ∃ task, task.id = taskId ∧ q.size = (q.dequeue (.recording now)).queue.size + 1 ∧
      (q.dequeue (.recording now)).result = .ok task ∧
      (q.dequeue (.recording now)).queue.policy.order = rest ∧
      InOrder (q.dequeue (.recording now)).queue
        (events ++ (q.dequeue (.recording now)).events) := by
  have hmem : taskId ∈ q.storage.keys := by simp [← h.order, horder]
  obtain ⟨task, hget⟩ := (q.storage.mem_keys_iff taskId).mp hmem
  have hid : task.id = taskId := h.keyed taskId task hget
  have hnext : (SchedulingPolicy.next q.policy).2 = some taskId := congrArg List.head? horder
  have htail : (SchedulingPolicy.next q.policy).1.order = rest := congrArg List.tail horder
  have hsize := (Dict.entries_erase_perm hget).length_eq
  have hop : queueOp { kind := .taskDequeued task.id, timestamp := now } =
      some (.drop taskId) := by
    rw [← hid]
    rfl
  rw [InMemoryTaskQueue.dequeue_some hnext hget, QueueEnv.announce_recording]
  refine ⟨task, hid, hsize, rfl, htail, h.taken hop rfl ?_⟩
  rw [horder, List.erase_cons_head]
  exact htail

theorem dequeue (h : InOrder q events) (now : String) :
    InOrder (q.dequeue (.recording now)).queue
      (events ++ (q.dequeue (.recording now)).events) := by
  cases horder : q.policy.order with
  | nil =>
    rw [dequeue_empty horder]
    simpa using h
  | cons taskId rest =>
    obtain ⟨-, -, -, -, -, hafter⟩ := h.dequeue_cons horder now
    exact hafter

theorem cancel (h : InOrder q events) (now taskId : String) :
    InOrder (q.cancel (.recording now) taskId).queue
      (events ++ (q.cancel (.recording now) taskId).events) := by
  cases hget : q.storage.get? taskId with
  | none =>
    rw [InMemoryTaskQueue.cancel_none hget]
    simpa using h
  | some task =>
    rw [InMemoryTaskQueue.cancel_some hget, QueueEnv.announce_recording]
    exact h.taken rfl rfl rfl

theorem advance {c : InMemoryTaskQueue FIFOPolicy × List Response}
    (h : InOrder c.1 (logged c.2)) {now : String} {call : QueueCall}
    (hcall : EnqueuesAbsent c (.recording now, call)) :
    InOrder (Machine.advance InMemoryTaskQueue.step c (.recording now, call)).1
      (logged (Machine.advance InMemoryTaskQueue.step c (.recording now, call)).2) := by
  rw [InMemoryTaskQueue.advance_eq]
  dsimp only [logged]
  rw [List.flatMap_append, List.flatMap_singleton]
  cases call with
  | enqueue task metadata => exact h.enqueue hcall
  | dequeue => exact h.dequeue now
  | cancel taskId => exact h.cancel now taskId
  | peek | lookup | contains =>
    rw [← List.append_nil (logged c.2)] at h
    exact h

/-- Dequeued until empty, the queue returns the tasks in the order of the deque. -/
theorem drain (h : InOrder q events) (now : String) {fuel : ℕ} (hfuel : q.size ≤ fuel) :
    (q.drain now fuel).map TaskHandle.id = q.policy.order := by
  induction fuel generalizing q events with
  | zero =>
    have hlength : q.storage.keys.length = 0 := by
      rw [Dict.keys, List.length_map]
      exact Nat.le_zero.mp hfuel
    rw [h.order, List.length_eq_zero_iff.mp hlength]
    rfl
  | succ fuel ih =>
    cases horder : q.policy.order with
    | nil =>
      rw [InMemoryTaskQueue.drain, dequeue_empty horder]
      rfl
    | cons taskId rest =>
      obtain ⟨task, hid, hsize, hresult, hrest, hafter⟩ := h.dequeue_cons horder now
      rw [InMemoryTaskQueue.drain, hresult]
      dsimp only
      rw [List.map_cons, ih hafter (by omega), hid, hrest]

end InOrder

theorem inOrder_run (maxSize : Option ℤ) (calls : List (String × QueueCall))
    (h : Machine.Along InMemoryTaskQueue.step EnqueuesAbsent (recorded calls)
      (create maxSize (SchedulingPolicy.init : FIFOPolicy), [])) :
    InOrder (run (P := FIFOPolicy) maxSize (recorded calls)).1
      (logged (run (P := FIFOPolicy) maxSize (recorded calls)).2) := by
  have hrecording : ∀ a ∈ recorded calls, ∃ now, a.1 = .recording now := by
    intro a ha
    obtain ⟨timed, -, rfl⟩ := List.mem_map.mp ha
    exact ⟨timed.1, rfl⟩
  have hstart : InOrder (create maxSize (SchedulingPolicy.init : FIFOPolicy)) (logged []) := by
    refine ⟨rfl, ?_, rfl⟩
    intro taskId task hget
    cases hget
  refine Machine.exec_invariant (fun c => InOrder c.1 (logged c.2)) ?_ hstart
    (h.and_forall hrecording)
  rintro c ⟨-, call⟩ hc ⟨habsent, now, rfl⟩
  exact hc.advance habsent

/-- The recovery finds the ids that the queue would hand out, in their order, and
as many as the queue has. -/
theorem recovered_queue_eq_drain (maxSize : Option ℤ) (calls : List (String × QueueCall))
    (h : Machine.Along InMemoryTaskQueue.step EnqueuesAbsent (recorded calls)
      (create maxSize (SchedulingPolicy.init : FIFOPolicy), []))
    (store : StateStore)
    (hstore : store.eventStore.events =
      logged (run (P := FIFOPolicy) maxSize (recorded calls)).2)
    (hbounded : store.eventStore.events.length ≤ 100000) (clock : Clock) :
    ∃ state, recoveredState store .fromGenesis clock = .ok state ∧
      state.queue.size = (run (P := FIFOPolicy) maxSize (recorded calls)).1.size ∧
      ∀ now fuel, (run (P := FIFOPolicy) maxSize (recorded calls)).1.size ≤ fuel →
        state.queue.queuedTaskIds =
          ((run (P := FIFOPolicy) maxSize (recorded calls)).1.drain now fuel).map
            TaskHandle.id := by
  have hrun := inOrder_run maxSize calls h
  have hids : (replay store.eventStore.events clock).queuedTaskIds =
      (run (P := FIFOPolicy) maxSize (recorded calls)).1.policy.order := by
    rw [queued_replay, hstore, hrun.replayed]
  refine ⟨_, recoveredState_replay hbounded clock, ?_, ?_⟩
  · change (replay store.eventStore.events clock).queueSize = _
    rw [queueSize_replay, hids, hrun.order, Dict.keys, List.length_map]
    rfl
  · intro now fuel hfuel
    rw [hrun.drain now hfuel]
    exact hids

/-- A cancelled id comes back behind the others, and a full queue rejects one. -/
theorem recovered_queue_eq_drain_return :
    let calls := [("t0", .enqueue ⟨0, "a"⟩ .empty), ("t1", .enqueue ⟨1, "b"⟩ .empty),
      ("t2", .cancel "a"), ("t3", .enqueue ⟨0, "a"⟩ .empty), ("t4", .enqueue ⟨2, "c"⟩ .empty)]
    let store : StateStore := { eventStore :=
      ⟨logged (run (P := FIFOPolicy) (some 2) (recorded calls)).2, by decide⟩ }
    let clock : Clock := ⟨⟨"t5", by decide⟩, ⟨"t5", by decide⟩, ⟨"t5", by decide⟩, 0⟩
    ∃ state, recoveredState store .fromGenesis clock = .ok state ∧
      state.queue.size = (run (P := FIFOPolicy) (some 2) (recorded calls)).1.size ∧
      ∀ now fuel, (run (P := FIFOPolicy) (some 2) (recorded calls)).1.size ≤ fuel →
        state.queue.queuedTaskIds =
          ((run (P := FIFOPolicy) (some 2) (recorded calls)).1.drain now fuel).map
            TaskHandle.id :=
  recovered_queue_eq_drain (some 2) _ (by decide) _ rfl (by decide) _

end MollisRuntime.Scheduling
