import MollisRuntime.Scheduling.Ranking
import MollisRuntime.Scheduling.TaskQueue

/-!
A reference queue and the refinement. The reference queue keeps the waiting tasks
in a plain list, in the order of their arrival, each with its key, and serves the
one of least rank; it publishes and appends what the queue does. The queue
answers every call as the reference queue does, as long as an id is enqueued
only when the policy has no entry for it.
-/
namespace MollisRuntime.Scheduling

open Ordered Python Persistence MinHeap
open InMemoryTaskQueue (rejection emptyError notFoundError)

structure ReferenceQueue (κ : Type) where
  maxSize : Option ℕ
  live : List (Entry κ TaskHandle) := []
  arrivals : ℕ := 0

structure ReferenceReply (κ : Type) where
  queue : ReferenceQueue κ
  events : List RuntimeEvent := []
  result : Except QueueError Answer

namespace ReferenceQueue

variable {κ : Type}

def find (r : ReferenceQueue κ) (taskId : String) : Option (Entry κ TaskHandle) :=
  r.live.find? fun e => decide (e.item.id = taskId)

def without (r : ReferenceQueue κ) (taskId : String) : ReferenceQueue κ :=
  { r with live := r.live.filter fun e => decide (e.item.id ≠ taskId) }

section Finding

variable {r : ReferenceQueue κ} {e : Entry κ TaskHandle} {taskId : String}

theorem find_some (h : r.find taskId = some e) : e ∈ r.live ∧ e.item.id = taskId := by
  refine ⟨List.mem_of_find?_eq_some h, ?_⟩
  have htrue := List.find?_some h
  simpa using htrue

theorem find_none (h : r.find taskId = none) (he : e ∈ r.live) : e.item.id ≠ taskId := by
  have hfalse := List.find?_eq_none.mp h e he
  simpa using hfalse

theorem mem_without : e ∈ (r.without taskId).live ↔ e ∈ r.live ∧ e.item.id ≠ taskId := by
  simp [without]

end Finding

variable [LinearOrder κ]

def least (r : ReferenceQueue κ) : Option (Entry κ TaskHandle) := r.live.argmin Entry.rank

def enqueue (r : ReferenceQueue κ) (key : Attrs → Except PyError κ) (env : QueueEnv)
    (task : TaskHandle) (metadata : Attrs) : ReferenceReply κ :=
  match r.maxSize.filter fun n => n ≤ r.live.length with
  | some bound => { queue := r, result := .error (rejection env task.id bound) }
  | none =>
    match key metadata with
    | .error e => { queue := r, result := .error (.raised e) }
    | .ok k =>
      let told := env.announce (.taskQueued task.id) (.taskQueued task.id)
      { queue := { r with
          live := r.live ++ [⟨k, r.arrivals, task⟩], arrivals := r.arrivals + 1 }
        events := told.1
        result := (fun _ => .unit) <$> told.2 }

def dequeue (r : ReferenceQueue κ) (env : QueueEnv) : ReferenceReply κ :=
  match r.least with
  | none => { queue := r, result := .error emptyError }
  | some f =>
    let told := env.announce (.taskDequeued f.item.id) (.taskDequeued f.item.id)
    { queue := r.without f.item.id
      events := told.1
      result := (fun _ => .task f.item) <$> told.2 }

def cancel (r : ReferenceQueue κ) (env : QueueEnv) (taskId : String) : ReferenceReply κ :=
  match r.find taskId with
  | none => { queue := r, result := .error (notFoundError taskId) }
  | some f =>
    let told := env.announce (.taskCancelled taskId) (.taskCancelled taskId)
    { queue := r.without taskId
      events := told.1
      result := (fun _ => .task f.item) <$> told.2 }

def lookup (r : ReferenceQueue κ) (taskId : String) : Except QueueError Answer :=
  match r.find taskId with
  | none => .error (notFoundError taskId)
  | some f => .ok (.task f.item)

def answer (r : ReferenceQueue κ) (key : Attrs → Except PyError κ) (env : QueueEnv) :
    QueueCall → ReferenceReply κ
  | .enqueue task metadata => r.enqueue key env task metadata
  | .dequeue => r.dequeue env
  | .peek => { queue := r, result := .ok (.top (r.least.map Entry.item)) }
  | .cancel taskId => r.cancel env taskId
  | .lookup taskId => { queue := r, result := r.lookup taskId }
  | .contains taskId => { queue := r, result := .ok (.bool (r.find taskId).isSome) }

def step (key : Attrs → Except PyError κ) (r : ReferenceQueue κ) (a : QueueEnv × QueueCall) :
    ReferenceQueue κ × List Response :=
  let reply := r.answer key a.1 a.2
  (reply.queue, [{ call := a.2, events := reply.events, result := reply.result }])

/-- The responses of a new reference queue. -/
def run (key : Attrs → Except PyError κ) (maxSize : Option ℕ)
    (calls : List (QueueEnv × QueueCall)) : ReferenceQueue κ × List Response :=
  Machine.exec (step key) calls ({ maxSize }, [])

end ReferenceQueue

variable {P : Type} [SchedulingPolicy P] {κ : Type} [LinearOrder κ]

/-- The policy serves the live entries, in the order of their ranks. -/
def Ranking.Serves (R : Ranking P κ) (policy : P) (arrivals : ℕ)
    (live : List (Entry κ TaskHandle)) : Prop :=
  ∃ sorted : List (Entry κ TaskHandle), live.Perm sorted ∧ Sorted sorted ∧
    R.Files policy arrivals (sorted.map (Entry.map TaskHandle.id))

namespace Ranking.Serves

variable {R : Ranking P κ} {policy : P} {arrivals : ℕ} {live : List (Entry κ TaskHandle)}

theorem init (R : Ranking P κ) : R.Serves SchedulingPolicy.init 0 [] :=
  ⟨[], .nil, List.Pairwise.nil, R.files_init⟩

theorem add (h : R.Serves policy arrivals live) {task : TaskHandle} {metadata : Attrs} {k : κ}
    (hfree : R.Free policy task.id) (hkey : R.key metadata = .ok k) :
    (SchedulingPolicy.add policy task.id metadata).2 = .ok () ∧
      R.Serves (SchedulingPolicy.add policy task.id metadata).1 (arrivals + 1)
        (live ++ [⟨k, arrivals, task⟩]) := by
  obtain ⟨sorted, hperm, hsorted, hfiles⟩ := h
  obtain ⟨hadd, hfiles⟩ := R.files_add hfiles hfree hkey
  refine ⟨hadd, file ⟨k, arrivals, task⟩ sorted, ?_, hsorted.file _, ?_⟩
  · calc List.Perm (live ++ [⟨k, arrivals, task⟩]) (⟨k, arrivals, task⟩ :: live) :=
          List.perm_append_singleton _ _
      List.Perm _ (⟨k, arrivals, task⟩ :: sorted) := hperm.cons _
      List.Perm _ (file ⟨k, arrivals, task⟩ sorted) := (file_perm _ _).symm
  · rw [map_file]
    exact hfiles

theorem remove (h : R.Serves policy arrivals live) (taskId : String) :
    R.Serves (SchedulingPolicy.remove policy taskId) arrivals
      (live.filter fun e => decide (e.item.id ≠ taskId)) := by
  obtain ⟨sorted, hperm, hsorted, hfiles⟩ := h
  refine ⟨sorted.filter fun e => decide (e.item.id ≠ taskId), hperm.filter _,
    hsorted.filter _, ?_⟩
  have hmap : (sorted.filter fun e => decide (e.item.id ≠ taskId)).map (Entry.map TaskHandle.id) =
      (sorted.map (Entry.map TaskHandle.id)).filter fun e => decide (e.item ≠ taskId) := by
    rw [List.filter_map]
    rfl
  rw [hmap]
  exact R.files_remove taskId hfiles

/-- The first of the sorted entries is the least of the plain list. -/
theorem head {sorted : List (Entry κ TaskHandle)} (hperm : live.Perm sorted)
    (hsorted : Sorted sorted) (harrivals : live.Pairwise fun a b => a.arrival < b.arrival) :
    (sorted.map (Entry.map TaskHandle.id)).head?.map Entry.item =
      (live.argmin Entry.rank).map fun e => e.item.id := by
  have hinj : Set.InjOn Entry.rank { e | e ∈ sorted } := by
    have hlive := rank_injOn harrivals
    exact fun a ha b hb => hlive (hperm.mem_iff.mpr ha) (hperm.mem_iff.mpr hb)
  rw [argmin_eq_head? hperm hsorted hinj, List.head?_map, Option.map_map]
  rfl

theorem peek (h : R.Serves policy arrivals live)
    (harrivals : live.Pairwise fun a b => a.arrival < b.arrival) :
    (SchedulingPolicy.peek policy).2 = (live.argmin Entry.rank).map (fun e => e.item.id) ∧
      R.Serves (SchedulingPolicy.peek policy).1 arrivals live := by
  obtain ⟨sorted, hperm, hsorted, hfiles⟩ := h
  obtain ⟨hpeek, hfiles⟩ := R.files_peek hfiles
  exact ⟨hpeek.trans (head hperm hsorted harrivals), sorted, hperm, hsorted, hfiles⟩

theorem next_item (h : R.Serves policy arrivals live)
    (harrivals : live.Pairwise fun a b => a.arrival < b.arrival) :
    (SchedulingPolicy.next policy).2 = (live.argmin Entry.rank).map fun e => e.item.id := by
  obtain ⟨sorted, hperm, hsorted, hfiles⟩ := h
  exact (R.files_next hfiles).1.trans (head hperm hsorted harrivals)

/-- The policy goes on without the id that it returned. -/
theorem next (h : R.Serves policy arrivals live) (hids : (live.map fun e => e.item.id).Nodup)
    {taskId : String} (hnext : (SchedulingPolicy.next policy).2 = some taskId) :
    R.Serves (SchedulingPolicy.next policy).1 arrivals
      (live.filter fun e => decide (e.item.id ≠ taskId)) := by
  obtain ⟨sorted, hperm, hsorted, hfiles⟩ := h
  obtain ⟨hitem, hfiles⟩ := R.files_next hfiles
  rw [hnext] at hitem
  cases sorted with
  | nil => cases hitem
  | cons f rest =>
    obtain rfl : taskId = f.item.id := Option.some.inj hitem
    have hfresh : ∀ e ∈ rest, e.item.id ≠ f.item.id := by
      have hnodup := (hperm.map fun e => e.item.id).nodup_iff.mp hids
      intro e he heq
      have hmem : e.item.id ∈ rest.map fun e => e.item.id := List.mem_map_of_mem he
      rw [heq] at hmem
      exact (List.nodup_cons.mp hnodup).1 hmem
    have hrest : (f :: rest).filter (fun e => decide (e.item.id ≠ f.item.id)) = rest := by
      rw [List.filter_cons_of_neg (by simp)]
      exact List.filter_eq_self.mpr fun e he => by simpa using hfresh e he
    refine ⟨rest, ?_, hsorted.tail, hfiles⟩
    have hfiltered := hperm.filter fun e => decide (e.item.id ≠ f.item.id)
    rwa [hrest] at hfiltered

/-- With nothing to serve, `next` leaves nothing to serve. -/
theorem next_none (h : R.Serves policy arrivals live)
    (hnext : (SchedulingPolicy.next policy).2 = none) :
    live = [] ∧ R.Serves (SchedulingPolicy.next policy).1 arrivals live := by
  obtain ⟨sorted, hperm, hsorted, hfiles⟩ := h
  obtain ⟨hitem, hfiles⟩ := R.files_next hfiles
  rw [hnext] at hitem
  cases sorted with
  | nil => exact ⟨List.perm_nil.mp hperm, [], hperm, hsorted, hfiles⟩
  | cons f rest => cases hitem

end Ranking.Serves

/-- The queue stores the live tasks of the reference queue, and its policy
serves them. -/
structure Represents (R : Ranking P κ) (q : InMemoryTaskQueue P) (r : ReferenceQueue κ) :
    Prop where
  bound : r.maxSize = q.maxSize
  serves : R.Serves q.policy r.arrivals r.live
  arrivals : r.live.Pairwise fun a b => a.arrival < b.arrival
  below : ∀ e ∈ r.live, e.arrival < r.arrivals
  ids : (r.live.map fun e => e.item.id).Nodup
  stored : ∀ taskId task, q.storage.get? taskId = some task ↔
    ∃ e ∈ r.live, e.item = task ∧ task.id = taskId

namespace Represents

variable {R : Ranking P κ} {q : InMemoryTaskQueue P} {r : ReferenceQueue κ}

theorem create (R : Ranking P κ) (maxSize : Option ℤ) :
    Represents R (InMemoryTaskQueue.create maxSize SchedulingPolicy.init)
      { maxSize := (InMemoryTaskQueue.create maxSize (SchedulingPolicy.init : P)).maxSize } where
  bound := rfl
  serves := Ranking.Serves.init R
  arrivals := List.Pairwise.nil
  below := nofun
  ids := List.nodup_nil
  stored _ _ := ⟨nofun, nofun⟩

theorem mem_keys (h : Represents R q r) (taskId : String) :
    taskId ∈ q.storage.keys ↔ ∃ e ∈ r.live, e.item.id = taskId := by
  rw [Dict.mem_keys_iff]
  constructor
  · rintro ⟨task, hget⟩
    obtain ⟨e, he, rfl, hid⟩ := (h.stored taskId task).mp hget
    exact ⟨e, he, hid⟩
  · rintro ⟨e, he, hid⟩
    exact ⟨e.item, (h.stored taskId e.item).mpr ⟨e, he, rfl, hid⟩⟩

theorem size (h : Represents R q r) : q.size = r.live.length := by
  have hperm : q.storage.keys.Perm (r.live.map fun e => e.item.id) := by
    refine (List.perm_ext_iff_of_nodup q.storage.nodup_keys h.ids).mpr ?_
    intro taskId
    exact (h.mem_keys taskId).trans List.mem_map.symm
  have hlength := hperm.length_eq
  rwa [Dict.keys, List.length_map, List.length_map] at hlength

theorem reached (h : Represents R q r) :
    (r.maxSize.filter fun n => n ≤ r.live.length) = q.reached := by
  rw [InMemoryTaskQueue.reached, h.bound, h.size]

theorem get?_eq_find (h : Represents R q r) (taskId : String) :
    q.storage.get? taskId = (r.find taskId).map Entry.item := by
  cases hfind : r.find taskId with
  | none =>
    cases hget : q.storage.get? taskId with
    | none => rfl
    | some task =>
      obtain ⟨e, he, rfl, hid⟩ := (h.stored taskId task).mp hget
      exact absurd hid (ReferenceQueue.find_none hfind he)
  | some e =>
    obtain ⟨he, hid⟩ := ReferenceQueue.find_some hfind
    exact (h.stored taskId e.item).mpr ⟨e, he, rfl, hid⟩

/-- A queue that differs in the policy alone. -/
theorem with_policy (h : Represents R q r) {policy : P}
    (hserves : R.Serves policy r.arrivals r.live) :
    Represents R { q with policy } r :=
  ⟨h.bound, hserves, h.arrivals, h.below, h.ids, h.stored⟩

/-- A stored task and its filing leave together. -/
theorem without (h : Represents R q r) {taskId : String} {q' : InMemoryTaskQueue P}
    (hbound : q'.maxSize = q.maxSize) (hstorage : q'.storage = q.storage.erase taskId)
    (hserves : R.Serves q'.policy r.arrivals (r.without taskId).live) :
    Represents R q' (r.without taskId) := by
  refine ⟨h.bound.trans hbound.symm, hserves, h.arrivals.filter _,
    fun e he => h.below e (List.mem_of_mem_filter he),
    h.ids.sublist (List.filter_sublist.map _), ?_⟩
  intro other task
  rw [hstorage, Dict.get?_erase]
  simp only [ReferenceQueue.mem_without]
  by_cases hother : taskId = other
  · rw [if_pos hother]
    refine ⟨by simp, ?_⟩
    rintro ⟨e, ⟨-, hne⟩, rfl, hid⟩
    exact absurd (hid.trans hother.symm) hne
  · rw [if_neg hother, h.stored]
    constructor
    · rintro ⟨e, he, rfl, hid⟩
      exact ⟨e, ⟨he, fun heq => hother (heq.symm.trans hid)⟩, rfl, hid⟩
    · rintro ⟨e, ⟨he, -⟩, rfl, hid⟩
      exact ⟨e, he, rfl, hid⟩

/-- A new task is stored and filed under the next arrival. -/
theorem filed (h : Represents R q r) {task : TaskHandle} {k : κ} {q' : InMemoryTaskQueue P}
    (hbound : q'.maxSize = q.maxSize) (hstorage : q'.storage = q.storage.set task.id task)
    (hnew : task.id ∉ q.storage.keys)
    (hserves : R.Serves q'.policy (r.arrivals + 1) (r.live ++ [⟨k, r.arrivals, task⟩])) :
    Represents R q' { r with
      live := r.live ++ [⟨k, r.arrivals, task⟩], arrivals := r.arrivals + 1 } := by
  have hfresh : ∀ e ∈ r.live, e.item.id ≠ task.id :=
    fun e he hid => hnew ((h.mem_keys task.id).mpr ⟨e, he, hid⟩)
  refine ⟨h.bound.trans hbound.symm, hserves, ?_, ?_, ?_, ?_⟩
  · refine List.pairwise_append.mpr ⟨h.arrivals, List.pairwise_singleton _ _, ?_⟩
    intro e he f hf
    rw [List.mem_singleton.mp hf]
    exact h.below e he
  · intro e he
    rcases List.mem_append.mp he with he | he
    · exact Nat.lt_succ_of_lt (h.below e he)
    · rw [List.mem_singleton.mp he]
      exact Nat.lt_succ_self r.arrivals
  · rw [List.map_append]
    refine List.nodup_append.mpr ⟨h.ids, List.nodup_singleton _, ?_⟩
    rintro _ ha b hb rfl
    obtain ⟨e, he, hid⟩ := List.mem_map.mp ha
    exact hfresh e he (hid.trans (List.mem_singleton.mp hb))
  · intro other stored
    rw [hstorage, Dict.get?_set]
    simp only [List.mem_append, List.mem_singleton]
    by_cases hother : task.id = other
    · rw [if_pos hother]
      constructor
      · rintro ⟨⟩
        exact ⟨_, Or.inr rfl, rfl, hother⟩
      · rintro ⟨e, he | rfl, rfl, hid⟩
        · exact absurd (hid.trans hother.symm) (hfresh e he)
        · rfl
    · rw [if_neg hother, h.stored]
      constructor
      · rintro ⟨e, he, rfl, hid⟩
        exact ⟨e, Or.inl he, rfl, hid⟩
      · rintro ⟨e, he | rfl, rfl, hid⟩
        · exact ⟨e, he, rfl, hid⟩
        · exact absurd hid hother

end Represents

/-- What the policy asks of a call that will be filed: a new id, without an entry
in the policy, and a key. -/
def Ranking.Enters (R : Ranking P κ) (q : InMemoryTaskQueue P) : QueueCall → Prop
  | .enqueue task metadata => q.reached = none →
      task.id ∉ q.storage.keys ∧ R.Free q.policy task.id ∧ ∃ k, R.key metadata = .ok k
  | _ => True

/-- The reply of the reference queue is that of the queue. -/
structure Agrees (R : Ranking P κ) (reply : Reply P Answer) (reference : ReferenceReply κ) :
    Prop where
  events : reference.events = reply.events
  result : reference.result = reply.result
  represents : Represents R reply.queue reference.queue

namespace Represents

variable {R : Ranking P κ} {q : InMemoryTaskQueue P} {r : ReferenceQueue κ}

theorem enqueue (h : Represents R q r) {env : QueueEnv} {task : TaskHandle} {metadata : Attrs}
    (henters : R.Enters q (.enqueue task metadata)) :
    Agrees R (q.answer env (.enqueue task metadata)) (r.enqueue R.key env task metadata) := by
  have hreached := h.reached
  dsimp only [InMemoryTaskQueue.answer, ReferenceQueue.enqueue]
  cases hfull : q.reached with
  | some bound =>
    rw [InMemoryTaskQueue.enqueue_full hfull, hreached.trans hfull]
    exact ⟨rfl, rfl, h⟩
  | none =>
    obtain ⟨hnew, hfree, k, hkey⟩ := henters hfull
    obtain ⟨hadd, hserves⟩ := h.serves.add hfree hkey
    rw [InMemoryTaskQueue.enqueue_accepted hfull (Prod.ext rfl hadd), hreached.trans hfull]
    simp only [hkey]
    exact ⟨rfl, rfl, h.filed rfl rfl hnew hserves⟩

theorem next_none (h : Represents R q r) (hleast : r.least = none) :
    (SchedulingPolicy.next q.policy).2.bind q.storage.get? = none ∧
      R.Serves (SchedulingPolicy.next q.policy).1 r.arrivals r.live := by
  have hitem := h.serves.next_item h.arrivals
  rw [← ReferenceQueue.least, hleast] at hitem
  refine ⟨?_, (h.serves.next_none hitem).2⟩
  rw [hitem]
  rfl

theorem next_some (h : Represents R q r) {f : Entry κ TaskHandle} (hleast : r.least = some f) :
    (SchedulingPolicy.next q.policy).2 = some f.item.id ∧
      q.storage.get? f.item.id = some f.item := by
  have hitem := h.serves.next_item h.arrivals
  rw [← ReferenceQueue.least, hleast] at hitem
  exact ⟨hitem, (h.stored f.item.id f.item).mpr ⟨f, List.argmin_mem hleast, rfl, rfl⟩⟩

theorem dequeue (h : Represents R q r) (env : QueueEnv) :
    Agrees R (q.answer env .dequeue) (r.dequeue env) := by
  dsimp only [InMemoryTaskQueue.answer, ReferenceQueue.dequeue]
  cases hleast : r.least with
  | none =>
    obtain ⟨hnothing, hserves⟩ := h.next_none hleast
    rw [InMemoryTaskQueue.dequeue_none hnothing]
    exact ⟨rfl, rfl, h.with_policy hserves⟩
  | some f =>
    obtain ⟨hitem, hget⟩ := h.next_some hleast
    rw [InMemoryTaskQueue.dequeue_some hitem hget]
    refine ⟨rfl, ?_, h.without rfl rfl (h.serves.next h.ids hitem)⟩
    exact (Functor.map_map _ _ _).symm

theorem peek (h : Represents R q r) :
    Agrees R (q.peek.map .top) { queue := r, result := .ok (.top (r.least.map Entry.item)) } := by
  obtain ⟨hitem, hserves⟩ := h.serves.peek h.arrivals
  refine ⟨rfl, ?_, h.with_policy hserves⟩
  dsimp only [InMemoryTaskQueue.peek, Reply.map]
  rw [hitem, ReferenceQueue.least]
  cases hleast : r.live.argmin Entry.rank with
  | none => rfl
  | some f =>
    have hget : q.storage.get? f.item.id = some f.item :=
      (h.stored f.item.id f.item).mpr ⟨f, List.argmin_mem hleast, rfl, rfl⟩
    simp only [Option.map_some, Option.bind_some, hget]
    rfl

theorem cancel (h : Represents R q r) (env : QueueEnv) (taskId : String) :
    Agrees R (q.answer env (.cancel taskId)) (r.cancel env taskId) := by
  have hget := h.get?_eq_find taskId
  dsimp only [InMemoryTaskQueue.answer, ReferenceQueue.cancel]
  cases hfind : r.find taskId with
  | none =>
    rw [hfind] at hget
    rw [InMemoryTaskQueue.cancel_none hget]
    exact ⟨rfl, rfl, h⟩
  | some f =>
    rw [hfind] at hget
    rw [InMemoryTaskQueue.cancel_some hget]
    refine ⟨rfl, ?_, h.without rfl rfl (h.serves.remove taskId)⟩
    exact (Functor.map_map _ _ _).symm

theorem lookup (h : Represents R q r) (taskId : String) :
    r.lookup taskId = .task <$> q.lookup taskId := by
  rw [ReferenceQueue.lookup, InMemoryTaskQueue.lookup, h.get?_eq_find taskId]
  cases r.find taskId <;> rfl

theorem contains (h : Represents R q r) (taskId : String) :
    (r.find taskId).isSome = q.contains taskId := by
  rw [InMemoryTaskQueue.contains, Dict.contains, Bool.eq_iff_iff, decide_eq_true_iff,
    Dict.mem_keys_iff, h.get?_eq_find taskId]
  cases r.find taskId <;> simp

/-- One call: the same events, the same result, and the queues correspond. -/
theorem answer (h : Represents R q r) (env : QueueEnv) {call : QueueCall}
    (henters : R.Enters q call) : Agrees R (q.answer env call) (r.answer R.key env call) := by
  cases call with
  | enqueue task metadata => exact h.enqueue henters
  | dequeue => exact h.dequeue env
  | peek => exact h.peek
  | cancel taskId => exact h.cancel env taskId
  | lookup taskId => exact ⟨rfl, h.lookup taskId, h⟩
  | contains taskId => exact ⟨rfl, congrArg (Except.ok ∘ Answer.bool) (h.contains taskId), h⟩

theorem step (h : Represents R q r) {a : QueueEnv × QueueCall} (henters : R.Enters q a.2) :
    (ReferenceQueue.step R.key r a).2 = (q.step a).2 ∧
      Represents R (q.step a).1 (ReferenceQueue.step R.key r a).1 := by
  obtain ⟨hevents, hresult, hrepresents⟩ := h.answer a.1 henters
  refine ⟨?_, hrepresents⟩
  dsimp only [ReferenceQueue.step, InMemoryTaskQueue.step]
  rw [hevents, hresult]

end Represents

end MollisRuntime.Scheduling
