import MollisRuntime.Library.Machine
import MollisRuntime.Persistence.Events
import MollisRuntime.Scheduling.Policies

/-!
InMemoryTaskQueue. Tasks are stored under their ids, the order is the policy's.
An operation changes the storage, the policy and its counter, then calls the
publisher and the event store; either may raise, and nothing is undone. A call
that returns and one that raises leave a reply of the same form.
-/
namespace MollisRuntime.Scheduling

open Ordered Python Persistence

/-- A task object: which one it is, and its id, which never changes. -/
structure TaskHandle where
  ref : ℕ
  id : String
  deriving DecidableEq, Repr

inductive QueueError
  | queueFull (message : String)
  | queueEmpty (message : String)
  | taskNotFound (message : String)
  /-- Raised by the policy, the publisher or the event store. -/
  | raised (e : PyError)
  deriving DecidableEq, Repr

/-- The events of the queue's own publisher. -/
inductive QueueEvent
  | taskQueued (taskId : String)
  | taskDequeued (taskId : String)
  | taskCancelled (taskId : String)
  | taskRejected (taskId reason : String)
  deriving DecidableEq, Repr

/-- What surrounds one call: the clock, the publisher, and the append of the
event store when there is one. -/
structure QueueEnv where
  now : String
  publish : QueueEvent → Except PyError Unit
  append : Option (EventKind → Except PyError Unit)

namespace QueueEnv

/-- NullEventPublisher and no store. -/
def plain (now : String) : QueueEnv := { now, publish := fun _ => .ok (), append := none }

/-- The publisher is told first, then the event is appended. -/
def announce (env : QueueEnv) (event : QueueEvent) (kind : EventKind) :
    List RuntimeEvent × Except QueueError Unit :=
  match env.publish event with
  | .error e => ([], .error (.raised e))
  | .ok () =>
    match env.append with
    | none => ([], .ok ())
    | some append =>
      match append kind with
      | .error e => ([], .error (.raised e))
      | .ok () => ([{ kind, timestamp := env.now }], .ok ())

/-- None of the queue's own errors comes from an announcement. -/
theorem announce_error {env : QueueEnv} {event : QueueEvent} {kind : EventKind}
    {error : QueueError} (h : (env.announce event kind).2 = .error error) :
    ∃ e, error = .raised e := by
  unfold announce at h
  split at h
  · exact ⟨_, (Except.error.inj h).symm⟩
  · split at h
    · cases h
    · split at h
      · exact ⟨_, (Except.error.inj h).symm⟩
      · cases h

end QueueEnv

structure InMemoryTaskQueue (P : Type) where
  maxSize : Option ℕ
  policy : P
  storage : Dict String TaskHandle := .empty
  enqueueCount : ℕ := 0
  dequeueCount : ℕ := 0
  cancelCount : ℕ := 0

structure QueueMetrics where
  size : ℕ
  capacity : Option ℕ
  utilization : ℚ
  enqueueCount : ℕ
  dequeueCount : ℕ
  cancelCount : ℕ

/-- How a call ends: the queue it leaves, the events it appended, and what it
returns or raises. -/
structure Reply (P ω : Type) where
  queue : InMemoryTaskQueue P
  events : List RuntimeEvent := []
  result : Except QueueError ω

def Reply.map {P ω ω' : Type} (f : ω → ω') (r : Reply P ω) : Reply P ω' :=
  { queue := r.queue, events := r.events, result := f <$> r.result }

namespace InMemoryTaskQueue

variable {P : Type} [SchedulingPolicy P]

/-- `__init__`; only a positive bound is one. -/
def create (maxSize : Option ℤ) (policy : P) : InMemoryTaskQueue P where
  maxSize := (maxSize.filter fun n => 0 < n).map Int.toNat
  policy

def size (q : InMemoryTaskQueue P) : ℕ := q.storage.entries.length

def isEmpty (q : InMemoryTaskQueue P) : Bool := decide (q.size = 0)

/-- The bound when it has been reached. -/
def reached (q : InMemoryTaskQueue P) : Option ℕ := q.maxSize.filter fun n => n ≤ q.size

def fullError (bound : ℕ) : QueueError :=
  .queueFull s!"Queue has reached its maximum capacity of {bound}."

def emptyError : QueueError := .queueEmpty "Cannot dequeue from an empty queue."

def notFoundError (taskId : String) : QueueError :=
  .taskNotFound s!"Task with ID '{taskId}' was not found."

/-- What a full queue raises; the rejection is published first. -/
def rejection (env : QueueEnv) (taskId : String) (bound : ℕ) : QueueError :=
  match env.publish (.taskRejected taskId "Queue capacity limit reached") with
  | .error e => .raised e
  | .ok () => fullError bound

/-- The task is stored before the policy is asked. -/
def enqueue (q : InMemoryTaskQueue P) (env : QueueEnv) (task : TaskHandle)
    (metadata : Attrs) : Reply P Unit :=
  match q.reached with
  | some bound => { queue := q, result := .error (rejection env task.id bound) }
  | none =>
    let storage := q.storage.set task.id task
    match SchedulingPolicy.add q.policy task.id metadata with
    | (policy, .error e) => { queue := { q with storage, policy }, result := .error (.raised e) }
    | (policy, .ok ()) =>
      let told := env.announce (.taskQueued task.id) (.taskQueued task.id)
      { queue := { q with storage, policy, enqueueCount := q.enqueueCount + 1 }
        events := told.1
        result := told.2 }

/-- An id that the policy hands out is used up, whether or not it is stored. -/
def dequeue (q : InMemoryTaskQueue P) (env : QueueEnv) : Reply P TaskHandle :=
  match SchedulingPolicy.next q.policy with
  | (policy, none) => { queue := { q with policy }, result := .error emptyError }
  | (policy, some nextId) =>
    match q.storage.get? nextId with
    | none => { queue := { q with policy }, result := .error emptyError }
    | some task =>
      let told := env.announce (.taskDequeued task.id) (.taskDequeued task.id)
      { queue := { q with
          policy, storage := q.storage.erase nextId, dequeueCount := q.dequeueCount + 1 }
        events := told.1
        result := (fun _ => task) <$> told.2 }

def peek (q : InMemoryTaskQueue P) : Reply P (Option TaskHandle) :=
  let top := SchedulingPolicy.peek q.policy
  { queue := { q with policy := top.1 }
    result := .ok (top.2.bind q.storage.get?) }

def cancel (q : InMemoryTaskQueue P) (env : QueueEnv) (taskId : String) :
    Reply P TaskHandle :=
  match q.storage.get? taskId with
  | none => { queue := q, result := .error (notFoundError taskId) }
  | some task =>
    let told := env.announce (.taskCancelled taskId) (.taskCancelled taskId)
    { queue := { q with
        storage := q.storage.erase taskId
        policy := SchedulingPolicy.remove q.policy taskId
        cancelCount := q.cancelCount + 1 }
      events := told.1
      result := (fun _ => task) <$> told.2 }

def lookup (q : InMemoryTaskQueue P) (taskId : String) : Except QueueError TaskHandle :=
  match q.storage.get? taskId with
  | none => .error (notFoundError taskId)
  | some task => .ok task

def contains (q : InMemoryTaskQueue P) (taskId : String) : Bool := q.storage.contains taskId

def getMetrics (q : InMemoryTaskQueue P) : QueueMetrics where
  size := q.size
  capacity := q.maxSize
  utilization := match q.maxSize with
    | some bound => q.size / bound
    | none => 0
  enqueueCount := q.enqueueCount
  dequeueCount := q.dequeueCount
  cancelCount := q.cancelCount

section Outcomes

variable {q : InMemoryTaskQueue P} {env : QueueEnv} {task : TaskHandle} {metadata : Attrs}
  {taskId : String} {policy : P}

theorem enqueue_full {bound : ℕ} (h : q.reached = some bound) :
    q.enqueue env task metadata =
      { queue := q, result := .error (rejection env task.id bound) } := by
  simp only [enqueue, h]

theorem enqueue_refused {e : PyError} (h : q.reached = none)
    (hadd : SchedulingPolicy.add q.policy task.id metadata = (policy, .error e)) :
    q.enqueue env task metadata =
      { queue := { q with storage := q.storage.set task.id task, policy }
        result := .error (.raised e) } := by
  simp only [enqueue, h, hadd]

theorem enqueue_accepted (h : q.reached = none)
    (hadd : SchedulingPolicy.add q.policy task.id metadata = (policy, .ok ())) :
    q.enqueue env task metadata =
      { queue := { q with
          storage := q.storage.set task.id task, policy, enqueueCount := q.enqueueCount + 1 }
        events := (env.announce (.taskQueued task.id) (.taskQueued task.id)).1
        result := (env.announce (.taskQueued task.id) (.taskQueued task.id)).2 } := by
  simp only [enqueue, h, hadd]

/-- Whatever the policy and the announcement do, a task for which there is room is
stored. -/
theorem storage_enqueue : (q.enqueue env task metadata).queue.storage =
    if q.reached = none then q.storage.set task.id task else q.storage := by
  cases hreached : q.reached with
  | some bound => rw [enqueue_full hreached, if_neg (by simp)]
  | none =>
    rw [if_pos rfl]
    cases hadd : SchedulingPolicy.add q.policy task.id metadata with
    | mk policy added =>
      cases added with
      | error e => rw [enqueue_refused hreached hadd]
      | ok _ => rw [enqueue_accepted hreached hadd]

/-- Nothing is handed out: the policy has no id, or one that is not stored. -/
theorem dequeue_none (h : (SchedulingPolicy.next q.policy).2.bind q.storage.get? = none) :
    q.dequeue env =
      { queue := { q with policy := (SchedulingPolicy.next q.policy).1 }
        result := .error emptyError } := by
  cases hnext : SchedulingPolicy.next q.policy with
  | mk policy next =>
    rw [hnext] at h
    cases next with
    | none => simp only [dequeue, hnext]
    | some nextId =>
      have hget : q.storage.get? nextId = none := h
      simp only [dequeue, hnext, hget]

theorem dequeue_some (hnext : (SchedulingPolicy.next q.policy).2 = some taskId)
    (hget : q.storage.get? taskId = some task) :
    q.dequeue env =
      { queue := { q with
          policy := (SchedulingPolicy.next q.policy).1
          storage := q.storage.erase taskId
          dequeueCount := q.dequeueCount + 1 }
        events := (env.announce (.taskDequeued task.id) (.taskDequeued task.id)).1
        result := (fun _ => task) <$>
          (env.announce (.taskDequeued task.id) (.taskDequeued task.id)).2 } := by
  cases hpolicy : SchedulingPolicy.next q.policy with
  | mk policy next =>
    rw [hpolicy] at hnext
    subst hnext
    simp only [dequeue, hpolicy, hget]

/-- A dequeued task has left the storage, also when the announcement raises. -/
theorem dequeue_cases (q : InMemoryTaskQueue P) (env : QueueEnv) :
    ((q.dequeue env).queue.storage = q.storage ∧ (q.dequeue env).result.toOption = none) ∨
    ∃ taskId task, q.storage.get? taskId = some task ∧
      (q.dequeue env).queue.storage = q.storage.erase taskId ∧
      (q.dequeue env).result = (fun _ => task) <$>
        (env.announce (.taskDequeued task.id) (.taskDequeued task.id)).2 := by
  cases htaken : (SchedulingPolicy.next q.policy).2.bind q.storage.get? with
  | none =>
    rw [dequeue_none htaken]
    exact .inl ⟨rfl, rfl⟩
  | some task =>
    obtain ⟨taskId, hnext, hget⟩ := Option.bind_eq_some_iff.mp htaken
    rw [dequeue_some hnext hget]
    exact .inr ⟨taskId, task, hget, rfl, rfl⟩

theorem cancel_none (h : q.storage.get? taskId = none) :
    q.cancel env taskId = { queue := q, result := .error (notFoundError taskId) } := by
  simp only [cancel, h]

theorem cancel_some (h : q.storage.get? taskId = some task) :
    q.cancel env taskId =
      { queue := { q with
          storage := q.storage.erase taskId
          policy := SchedulingPolicy.remove q.policy taskId
          cancelCount := q.cancelCount + 1 }
        events := (env.announce (.taskCancelled taskId) (.taskCancelled taskId)).1
        result := (fun _ => task) <$>
          (env.announce (.taskCancelled taskId) (.taskCancelled taskId)).2 } := by
  simp only [cancel, h]

end Outcomes

end InMemoryTaskQueue

inductive QueueCall
  | enqueue (task : TaskHandle) (metadata : Attrs)
  | dequeue
  | peek
  | cancel (taskId : String)
  | lookup (taskId : String)
  | contains (taskId : String)

inductive Answer
  | unit
  | task (task : TaskHandle)
  | top (task : Option TaskHandle)
  | bool (b : Bool)
  deriving DecidableEq, Repr

/-- What is seen of a call from outside. -/
structure Response where
  call : QueueCall
  events : List RuntimeEvent
  result : Except QueueError Answer

namespace InMemoryTaskQueue

variable {P : Type} [SchedulingPolicy P]

def answer (q : InMemoryTaskQueue P) (env : QueueEnv) : QueueCall → Reply P Answer
  | .enqueue task metadata => (q.enqueue env task metadata).map fun _ => .unit
  | .dequeue => (q.dequeue env).map .task
  | .peek => q.peek.map .top
  | .cancel taskId => (q.cancel env taskId).map .task
  | .lookup taskId => { queue := q, result := .task <$> q.lookup taskId }
  | .contains taskId => { queue := q, result := .ok (.bool (q.contains taskId)) }

/-- One call as a step of the queue. -/
def step (q : InMemoryTaskQueue P) (a : QueueEnv × QueueCall) :
    InMemoryTaskQueue P × List Response :=
  ((q.answer a.1 a.2).queue,
    [{ call := a.2, events := (q.answer a.1 a.2).events, result := (q.answer a.1 a.2).result }])

theorem advance_eq (c : InMemoryTaskQueue P × List Response) (a : QueueEnv × QueueCall) :
    Machine.advance step c a =
      ((c.1.answer a.1 a.2).queue, c.2 ++ [{
        call := a.2
        events := (c.1.answer a.1 a.2).events
        result := (c.1.answer a.1 a.2).result }]) := rfl

/-- The queue and the responses after some calls on a new queue. -/
def run (maxSize : Option ℤ) (calls : List (QueueEnv × QueueCall)) :
    InMemoryTaskQueue P × List Response :=
  Machine.exec step calls (create maxSize SchedulingPolicy.init, [])

/-- An id is enqueued only while it is not in the queue. -/
def EnqueuesAbsent (c : InMemoryTaskQueue P × List Response) (a : QueueEnv × QueueCall) : Prop :=
  match a.2 with
  | .enqueue task _ => task.id ∉ c.1.storage.keys
  | _ => True

instance (c : InMemoryTaskQueue P × List Response) (a : QueueEnv × QueueCall) :
    Decidable (EnqueuesAbsent c a) :=
  match a with
  | (_, .enqueue task _) => inferInstanceAs (Decidable (task.id ∉ c.1.storage.keys))
  | (_, .dequeue) => inferInstanceAs (Decidable True)
  | (_, .peek) => inferInstanceAs (Decidable True)
  | (_, .cancel _) => inferInstanceAs (Decidable True)
  | (_, .lookup _) => inferInstanceAs (Decidable True)
  | (_, .contains _) => inferInstanceAs (Decidable True)

/-- The events that the calls appended to the store. -/
def logged (responses : List Response) : List RuntimeEvent := responses.flatMap Response.events

end InMemoryTaskQueue

end MollisRuntime.Scheduling
