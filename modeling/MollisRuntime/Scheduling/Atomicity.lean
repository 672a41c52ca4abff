import MollisRuntime.Scheduling.TaskQueue

/-!
Calls that raise. Every operation changes the queue before it calls out, and
nothing is undone, so a call that raises leaves the queue as it was only when it
raises before its first change, or when its changes write what was there.
-/
namespace MollisRuntime.Scheduling

open Ordered Python Persistence

variable {P : Type} [SchedulingPolicy P]

namespace InMemoryTaskQueue

/-- The storage, the order of the policy and the counters are the same. -/
structure Unchanged [OrderedPolicy P] (q q' : InMemoryTaskQueue P) : Prop where
  storage : q'.storage = q.storage
  order : OrderedPolicy.order q'.policy = OrderedPolicy.order q.policy
  counts : q'.enqueueCount = q.enqueueCount ∧ q'.dequeueCount = q.dequeueCount ∧
    q'.cancelCount = q.cancelCount

theorem Unchanged.refl [OrderedPolicy P] (q : InMemoryTaskQueue P) : q.Unchanged q :=
  ⟨rfl, rfl, rfl, rfl, rfl⟩

/-- The queue is full, or the policy refuses a task that is stored already; the
policy has no id left; the id to cancel is not stored. -/
def RaisesEarly [OrderedPolicy P] (q : InMemoryTaskQueue P) : QueueCall → Prop
  | .enqueue task metadata =>
    q.reached ≠ none ∨
      (SchedulingPolicy.add q.policy task.id metadata).2 ≠ .ok () ∧
        q.storage.get? task.id = some task
  | .dequeue => OrderedPolicy.order q.policy = []
  | .cancel taskId => taskId ∉ q.storage.keys
  | _ => True

/-- No stored id is among those that the policy takes as removed. -/
def Kept [OrderedPolicy P] (q : InMemoryTaskQueue P) : Prop :=
  ∀ taskId ∈ q.storage.keys, ¬ OrderedPolicy.Dropped q.policy taskId

section Steps

variable [OrderedPolicy P] {q : InMemoryTaskQueue P}

theorem Kept.stored (h : q.Kept) {task : TaskHandle} {metadata : Attrs} {taskId : String}
    (hmem : taskId ∈ (q.storage.set task.id task).keys) :
    ¬ OrderedPolicy.Dropped (SchedulingPolicy.add q.policy task.id metadata).1 taskId := by
  intro hdropped
  obtain ⟨hbefore, hne⟩ := OrderedPolicy.dropped_add _ _ _ _ hdropped
  rcases (Dict.mem_keys_set _ _ _ _).mp hmem with rfl | hmem
  · exact hne rfl
  · exact h taskId hmem hbefore

theorem Kept.answer (h : q.Kept) (env : QueueEnv) (call : QueueCall) :
    (q.answer env call).queue.Kept := by
  cases call with
  | enqueue task metadata =>
    dsimp only [InMemoryTaskQueue.answer]
    cases hreached : q.reached with
    | some bound =>
      rw [enqueue_full hreached]
      exact h
    | none =>
      have hstored : ∀ taskId ∈ (q.storage.set task.id task).keys, ¬ OrderedPolicy.Dropped
          (SchedulingPolicy.add q.policy task.id metadata).1 taskId :=
        fun _ hmem => h.stored hmem
      rcases hadd : SchedulingPolicy.add q.policy task.id metadata with ⟨policy, result⟩
      rw [hadd] at hstored
      cases result with
      | error e =>
        rw [enqueue_refused hreached hadd]
        exact hstored
      | ok _ =>
        rw [enqueue_accepted hreached hadd]
        exact hstored
  | dequeue =>
    dsimp only [InMemoryTaskQueue.answer]
    cases htaken : (SchedulingPolicy.next q.policy).2.bind q.storage.get? with
    | none =>
      rw [dequeue_none htaken]
      exact fun taskId hmem hdropped => h taskId hmem (OrderedPolicy.dropped_next _ _ hdropped)
    | some task =>
      obtain ⟨nextId, hnext, hget⟩ := Option.bind_eq_some_iff.mp htaken
      rw [dequeue_some hnext hget]
      intro taskId hmem hdropped
      exact h taskId ((Dict.mem_keys_erase _ _ _).mp hmem).1
        (OrderedPolicy.dropped_next _ _ hdropped)
  | cancel cancelled =>
    dsimp only [InMemoryTaskQueue.answer]
    cases hget : q.storage.get? cancelled with
    | none =>
      rw [cancel_none hget]
      exact h
    | some task =>
      rw [cancel_some hget]
      intro taskId hmem hdropped
      obtain ⟨hbefore, hne⟩ := (Dict.mem_keys_erase _ _ _).mp hmem
      rcases OrderedPolicy.dropped_remove _ _ _ hdropped with hdropped | heq
      · exact h taskId hbefore hdropped
      · exact hne heq
  | peek =>
    exact fun taskId hmem hdropped => h taskId hmem (OrderedPolicy.dropped_peek _ _ hdropped)
  | lookup | contains => exact h

theorem kept_run (maxSize : Option ℤ) (calls : List (QueueEnv × QueueCall)) :
    (run (P := P) maxSize calls).1.Kept := by
  refine Machine.exec_preserves
    (fun c : InMemoryTaskQueue P × List Response => c.1.Kept) ?_ ?_ calls
  · intro c a hc
    exact hc.answer a.1 a.2
  · intro taskId hmem
    cases hmem

theorem Kept.unchanged_enqueue_iff (h : q.Kept) {env : QueueEnv} {task : TaskHandle}
    {metadata : Attrs} :
    q.Unchanged (q.enqueue env task metadata).queue ↔ q.RaisesEarly (.enqueue task metadata) := by
  dsimp only [RaisesEarly]
  cases hreached : q.reached with
  | some bound =>
    rw [enqueue_full hreached]
    exact iff_of_true (Unchanged.refl q) (Or.inl (by simp))
  | none =>
    rcases hadd : SchedulingPolicy.add q.policy task.id metadata with ⟨policy, result⟩
    cases result with
    | error raised =>
      rw [enqueue_refused hreached hadd]
      constructor
      · intro hsame
        refine Or.inr ⟨by simp, ?_⟩
        rw [← hsame.storage]
        exact q.storage.get?_set_self task.id task
      · rintro (hfull | ⟨-, hget⟩)
        · exact absurd rfl hfull
        · have hmem : task.id ∈ q.storage.keys :=
            (q.storage.mem_keys_iff task.id).mpr ⟨task, hget⟩
          exact ⟨Dict.set_of_get? hget,
            OrderedPolicy.order_add_error hadd (h task.id hmem), rfl, rfl, rfl⟩
    | ok _ =>
      rw [enqueue_accepted hreached hadd]
      refine iff_of_false (fun hsame => Nat.succ_ne_self _ hsame.counts.1) ?_
      rintro (hfull | ⟨hrefused, -⟩)
      · exact hfull rfl
      · exact hrefused rfl

theorem unchanged_dequeue_iff {env : QueueEnv} :
    q.Unchanged (q.dequeue env).queue ↔ q.RaisesEarly .dequeue := by
  dsimp only [RaisesEarly]
  obtain ⟨hhead, htail⟩ := OrderedPolicy.order_next q.policy
  cases htaken : (SchedulingPolicy.next q.policy).2.bind q.storage.get? with
  | none =>
    rw [dequeue_none htaken]
    constructor
    · intro hsame
      have hshort := congrArg List.length (htail.symm.trans hsame.order)
      rw [List.length_tail] at hshort
      exact List.length_eq_zero_iff.mp (by omega)
    · intro hempty
      have horder : OrderedPolicy.order (SchedulingPolicy.next q.policy).1 = [] := by
        rw [htail, hempty]
        rfl
      exact ⟨rfl, horder.trans hempty.symm, rfl, rfl, rfl⟩
  | some task =>
    obtain ⟨nextId, hnext, hget⟩ := Option.bind_eq_some_iff.mp htaken
    rw [dequeue_some hnext hget]
    refine iff_of_false (fun hsame => Nat.succ_ne_self _ hsame.counts.2.1) ?_
    intro hempty
    rw [hhead, hempty] at hnext
    cases hnext

theorem unchanged_cancel_iff {env : QueueEnv} {taskId : String} :
    q.Unchanged (q.cancel env taskId).queue ↔ q.RaisesEarly (.cancel taskId) := by
  dsimp only [RaisesEarly]
  cases hget : q.storage.get? taskId with
  | none =>
    rw [cancel_none hget]
    exact iff_of_true (Unchanged.refl q) ((q.storage.get?_eq_none_iff taskId).mp hget)
  | some task =>
    rw [cancel_some hget]
    refine iff_of_false (fun hsame => Nat.succ_ne_self _ hsame.counts.2.2) ?_
    exact fun hfresh => hfresh ((q.storage.mem_keys_iff taskId).mpr ⟨task, hget⟩)

theorem Kept.unchanged_iff (h : q.Kept) {env : QueueEnv} {call : QueueCall} {e : QueueError}
    (hresult : (q.answer env call).result = .error e) :
    q.Unchanged (q.answer env call).queue ↔ q.RaisesEarly call := by
  cases call with
  | enqueue task metadata => exact h.unchanged_enqueue_iff
  | dequeue => exact unchanged_dequeue_iff
  | cancel taskId => exact unchanged_cancel_iff
  | peek => cases hresult
  | lookup | contains => exact iff_of_true (Unchanged.refl q) trivial

end Steps

end InMemoryTaskQueue

end MollisRuntime.Scheduling
