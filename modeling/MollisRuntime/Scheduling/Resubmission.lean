import MollisRuntime.Scheduling.ReferenceQueue

/-!
Cancelled ids that come back. An entry of a cancelled task stays in the heap, and
it is told from a new entry of the same id by nothing. As long as no id is
enqueued while the heap has an entry of it, the queue serves the stored task
whose latest filing has the least rank.
-/
namespace MollisRuntime.Scheduling

open Ordered Python Persistence MinHeap
open InMemoryTaskQueue (emptyError)

variable {key : Attrs → Except PyError Number}

/-- The filing of an enqueue that the queue accepts. -/
def filing (key : Attrs → Except PyError Number) (q : InMemoryTaskQueue (HeapPolicy key)) :
    QueueCall → Option (Entry Number TaskHandle)
  | .enqueue task metadata =>
    match q.reached, key metadata with
    | none, .ok k => some ⟨k, q.enqueueCount, task⟩
    | _, _ => none
  | _ => none

/-- All filings of a run, in their order. -/
def filings (key : Attrs → Except PyError Number) : List (QueueEnv × QueueCall) →
    InMemoryTaskQueue (HeapPolicy key) × List Response → List (Entry Number TaskHandle)
  | [], _ => []
  | a :: rest, c =>
    (filing key c.1 a.2).toList ++ filings key rest (Machine.advance InMemoryTaskQueue.step c a)

theorem filings_concat (calls : List (QueueEnv × QueueCall)) (a : QueueEnv × QueueCall)
    (c : InMemoryTaskQueue (HeapPolicy key) × List Response) :
    filings key (calls ++ [a]) c = filings key calls c ++
      (filing key (Machine.exec InMemoryTaskQueue.step calls c).1 a.2).toList := by
  induction calls generalizing c with
  | nil => simp [filings]
  | cons b rest ih => simp [filings, ih]

/-- The last filing of its id. -/
def Latest (all : List (Entry Number TaskHandle)) (f : Entry Number TaskHandle) : Prop :=
  f ∈ all ∧ ∀ g ∈ all, g.item.id = f.item.id → g.arrival ≤ f.arrival

/-- The last filing of a task that is stored. -/
def Waiting (q : InMemoryTaskQueue (HeapPolicy key)) (all : List (Entry Number TaskHandle))
    (f : Entry Number TaskHandle) : Prop :=
  q.storage.get? f.item.id = some f.item ∧ Latest all f

/-- The queue is empty for `dequeue` exactly when nothing is stored; otherwise
the waiting filing of least rank is served. -/
structure ServesLatest (q : InMemoryTaskQueue (HeapPolicy key))
    (all : List (Entry Number TaskHandle)) : Prop where
  empty_iff : ∀ env, (q.dequeue env).result = .error emptyError ↔ q.size = 0
  filed : ∀ taskId task, q.storage.get? taskId = some task → ∃ f, Waiting q all f ∧ f.item = task
  least : q.size ≠ 0 → ∃ f, Waiting q all f ∧ (∀ g, Waiting q all g → f.rank ≤ g.rank) ∧
    ∀ env, (env.announce (.taskDequeued f.item.id) (.taskDequeued f.item.id)).2 = .ok () →
      (q.dequeue env).result = .ok f.item

/-- An id that is filed has no entry in the heap, and its key can be computed. -/
def WithoutStaleEntry (c : InMemoryTaskQueue (HeapPolicy key) × List Response)
    (a : QueueEnv × QueueCall) : Prop :=
  match a.2 with
  | .enqueue task metadata => c.1.reached = none →
      task.id ∉ c.1.policy.queue.items ∧ ∃ k, key metadata = .ok k
  | _ => True

/-- The reference queue holds the latest filings. -/
structure Follows (q : InMemoryTaskQueue (HeapPolicy key)) (r : ReferenceQueue Number)
    (all : List (Entry Number TaskHandle)) : Prop where
  represents : Represents (HeapPolicy.ranking key) q r
  counted : r.arrivals = q.enqueueCount
  latest : ∀ e ∈ r.live, Latest all e
  ordered : all.Pairwise fun a b => a.arrival < b.arrival
  below : ∀ e ∈ all, e.arrival < q.enqueueCount

namespace Follows

variable {q : InMemoryTaskQueue (HeapPolicy key)} {r : ReferenceQueue Number}
  {all : List (Entry Number TaskHandle)}

/-- The waiting filings are the live ones. -/
theorem waiting_iff (h : Follows q r all) (f : Entry Number TaskHandle) :
    Waiting q all f ↔ f ∈ r.live := by
  constructor
  · rintro ⟨hget, hlatest⟩
    obtain ⟨e, he, hitem, -⟩ := (h.represents.stored _ _).mp hget
    obtain ⟨hmem, hlast⟩ := h.latest e he
    have hid : e.item.id = f.item.id := congrArg TaskHandle.id hitem
    have harrival : e.arrival = f.arrival :=
      le_antisymm (hlatest.2 e hmem hid) (hlast f hlatest.1 hid.symm)
    rwa [← arrival_injOn h.ordered hmem hlatest.1 harrival]
  · intro hf
    exact ⟨(h.represents.stored _ _).mpr ⟨f, hf, rfl, rfl⟩, h.latest f hf⟩

theorem serves (h : Follows q r all) : ServesLatest q all := by
  have hsize := h.represents.size
  constructor
  · intro env
    cases hleast : r.least with
    | none =>
      have hlive : r.live = [] := List.argmin_eq_none.mp hleast
      rw [InMemoryTaskQueue.dequeue_none (h.represents.next_none hleast).1, hsize, hlive]
      simp
    | some f =>
      obtain ⟨hitem, hget⟩ := h.represents.next_some hleast
      have hlive : 0 < r.live.length := List.length_pos_of_mem (List.argmin_mem hleast)
      rw [InMemoryTaskQueue.dequeue_some hitem hget]
      refine iff_of_false ?_ (by omega)
      intro hempty
      cases htold : (env.announce (.taskDequeued f.item.id) (.taskDequeued f.item.id)).2 with
      | error raised =>
        obtain ⟨e, rfl⟩ := QueueEnv.announce_error htold
        simp only [htold] at hempty
        cases hempty
      | ok _ =>
        simp only [htold] at hempty
        cases hempty
  · intro taskId task hget
    obtain ⟨f, hf, hitem, -⟩ := (h.represents.stored _ _).mp hget
    exact ⟨f, (h.waiting_iff f).mpr hf, hitem⟩
  · intro hne
    cases hleast : r.least with
    | none =>
      have hlive : r.live = [] := List.argmin_eq_none.mp hleast
      rw [hsize, hlive] at hne
      exact absurd rfl hne
    | some f =>
      obtain ⟨hitem, hget⟩ := h.represents.next_some hleast
      refine ⟨f, (h.waiting_iff f).mpr (List.argmin_mem hleast), ?_, ?_⟩
      · intro g hg
        exact List.le_of_mem_argmin ((h.waiting_iff g).mp hg) hleast
      · intro env htold
        rw [InMemoryTaskQueue.dequeue_some hitem hget, htold]
        rfl

/-- A stored id has an entry in the heap. -/
theorem stored_items (h : Follows q r all) {taskId : String} (hmem : taskId ∈ q.storage.keys) :
    taskId ∈ q.policy.queue.items := by
  obtain ⟨e, he, rfl⟩ := (h.represents.mem_keys taskId).mp hmem
  obtain ⟨sorted, hperm, -, hfiles⟩ := h.represents.serves
  have hpending : e.map TaskHandle.id ∈ q.policy.queue.pending := by
    rw [hfiles.pending]
    exact List.mem_map_of_mem (hperm.mem_iff.mp he)
  rw [LazyQueue.pending_eq_filter hfiles.distinct] at hpending
  exact List.mem_map_of_mem (f := Entry.item) (List.mem_of_mem_filter hpending)

theorem enters (h : Follows q r all) {responses : List Response} {a : QueueEnv × QueueCall}
    (ha : WithoutStaleEntry (q, responses) a) : (HeapPolicy.ranking key).Enters q a.2 := by
  obtain ⟨env, call⟩ := a
  cases call with
  | enqueue task metadata =>
    intro hreached
    obtain ⟨hfree, hkey⟩ := ha hreached
    exact ⟨fun hmem => hfree (h.stored_items hmem), hfree, hkey⟩
  | _ => trivial

/-- A call that files nothing. -/
theorem unfiled (h : Follows q r all) {q' : InMemoryTaskQueue (HeapPolicy key)}
    {r' : ReferenceQueue Number} (hrep : Represents (HeapPolicy.ranking key) q' r')
    (hcount : q'.enqueueCount = q.enqueueCount) (harrivals : r'.arrivals = r.arrivals)
    (hlive : ∀ e ∈ r'.live, e ∈ r.live) : Follows q' r' all where
  represents := hrep
  counted := by rw [harrivals, hcount, h.counted]
  latest e he := h.latest e (hlive e he)
  ordered := h.ordered
  below e he := by
    rw [hcount]
    exact h.below e he

/-- The newest filing, for a task id that no live entry has. -/
theorem filed (h : Follows q r all) {q' : InMemoryTaskQueue (HeapPolicy key)}
    {r' : ReferenceQueue Number} {k : Number} {task : TaskHandle}
    (hrep : Represents (HeapPolicy.ranking key) q' r')
    (hcount : q'.enqueueCount = q.enqueueCount + 1) (harrivals : r'.arrivals = r.arrivals + 1)
    (hlive : r'.live = r.live ++ [⟨k, r.arrivals, task⟩])
    (hnew : ∀ e ∈ r.live, task.id ≠ e.item.id) :
    Follows q' r' (all ++ [⟨k, q.enqueueCount, task⟩]) where
  represents := hrep
  counted := by rw [harrivals, hcount, h.counted]
  latest e he := by
    rw [hlive] at he
    rcases List.mem_append.mp he with he | he
    · obtain ⟨hmem, hlast⟩ := h.latest e he
      refine ⟨List.mem_append_left _ hmem, ?_⟩
      intro g hg hid
      rcases List.mem_append.mp hg with hg | hg
      · exact hlast g hg hid
      · rw [List.mem_singleton.mp hg] at hid
        exact absurd hid (hnew e he)
    · rw [List.mem_singleton.mp he, h.counted]
      refine ⟨List.mem_append_right _ (List.mem_singleton_self _), ?_⟩
      intro g hg _
      rcases List.mem_append.mp hg with hg | hg
      · exact (h.below g hg).le
      · rw [List.mem_singleton.mp hg]
  ordered := by
    refine List.pairwise_append.mpr ⟨h.ordered, List.pairwise_singleton _ _, ?_⟩
    intro e he f hf
    rw [List.mem_singleton.mp hf]
    exact h.below e he
  below e he := by
    rw [hcount]
    rcases List.mem_append.mp he with he | he
    · exact Nat.lt_succ_of_lt (h.below e he)
    · rw [List.mem_singleton.mp he]
      exact Nat.lt_succ_self _

theorem enqueue (h : Follows q r all) {responses : List Response} {env : QueueEnv}
    {task : TaskHandle} {metadata : Attrs}
    (ha : WithoutStaleEntry (q, responses) (env, .enqueue task metadata)) :
    Follows (q.answer env (.enqueue task metadata)).queue
      (r.answer key env (.enqueue task metadata)).queue
      (all ++ (filing key q (.enqueue task metadata)).toList) := by
  have hrep : Represents (HeapPolicy.ranking key) (q.answer env (.enqueue task metadata)).queue
      (r.answer key env (.enqueue task metadata)).queue :=
    (h.represents.answer env (h.enters ha)).represents
  have hreached := h.represents.reached
  cases hfull : q.reached with
  | some bound =>
    have hq : (q.answer env (.enqueue task metadata)).queue = q := by
      rw [InMemoryTaskQueue.answer, InMemoryTaskQueue.enqueue_full hfull]
      rfl
    have hr : (r.answer key env (.enqueue task metadata)).queue = r := by
      simp only [ReferenceQueue.answer, ReferenceQueue.enqueue, hreached.trans hfull]
    have hnone : filing key q (.enqueue task metadata) = none := by
      simp only [filing, hfull]
    rw [hq, hr, hnone]
    simpa using h
  | none =>
    obtain ⟨hfree, k, hkey⟩ := ha hfull
    have hadd : SchedulingPolicy.add q.policy task.id metadata =
      (⟨(q.policy.queue.discard task.id).push k task.id⟩, .ok ()) := HeapPolicy.add_ok hkey
    have hcount : (q.answer env (.enqueue task metadata)).queue.enqueueCount =
        q.enqueueCount + 1 := by
      rw [InMemoryTaskQueue.answer, InMemoryTaskQueue.enqueue_accepted hfull hadd]
      rfl
    have hr : (r.answer key env (.enqueue task metadata)).queue =
        { r with live := r.live ++ [⟨k, r.arrivals, task⟩], arrivals := r.arrivals + 1 } := by
      simp only [ReferenceQueue.answer, ReferenceQueue.enqueue, hreached.trans hfull, hkey]
    have hsome : filing key q (.enqueue task metadata) = some ⟨k, q.enqueueCount, task⟩ := by
      simp only [filing, hfull, hkey]
    have hnew : ∀ e ∈ r.live, task.id ≠ e.item.id := by
      intro e he hid
      exact (h.enters ha hfull).1 ((h.represents.mem_keys task.id).mpr ⟨e, he, hid.symm⟩)
    rw [hr] at hrep ⊢
    rw [hsome, Option.toList_some]
    exact h.filed hrep hcount rfl rfl hnew

theorem dequeue (h : Follows q r all) (env : QueueEnv) :
    Follows (q.answer env .dequeue).queue (r.dequeue env).queue all := by
  refine h.unfiled (h.represents.dequeue env).represents ?_ ?_ ?_
  · dsimp only [InMemoryTaskQueue.answer]
    cases htaken : (SchedulingPolicy.next q.policy).2.bind q.storage.get? with
    | none =>
      rw [InMemoryTaskQueue.dequeue_none htaken]
      rfl
    | some task =>
      obtain ⟨nextId, hitem, hget⟩ := Option.bind_eq_some_iff.mp htaken
      rw [InMemoryTaskQueue.dequeue_some hitem hget]
      rfl
  · rw [ReferenceQueue.dequeue]
    split <;> rfl
  · intro e he
    rw [ReferenceQueue.dequeue] at he
    split at he
    · exact he
    · exact (ReferenceQueue.mem_without.mp he).1

theorem cancel (h : Follows q r all) (env : QueueEnv) (taskId : String) :
    Follows (q.answer env (.cancel taskId)).queue (r.cancel env taskId).queue all := by
  refine h.unfiled (h.represents.cancel env taskId).represents ?_ ?_ ?_
  · dsimp only [InMemoryTaskQueue.answer]
    cases hget : q.storage.get? taskId with
    | none =>
      rw [InMemoryTaskQueue.cancel_none hget]
      rfl
    | some task =>
      rw [InMemoryTaskQueue.cancel_some hget]
      rfl
  · rw [ReferenceQueue.cancel]
    split <;> rfl
  · intro e he
    rw [ReferenceQueue.cancel] at he
    split at he
    · exact he
    · exact (ReferenceQueue.mem_without.mp he).1

/-- One call: what it files joins the filings. -/
theorem step (h : Follows q r all) {responses : List Response} {a : QueueEnv × QueueCall}
    (ha : WithoutStaleEntry (q, responses) a) :
    Follows (q.step a).1 (ReferenceQueue.step key r a).1
      (all ++ (filing key q a.2).toList) := by
  obtain ⟨env, call⟩ := a
  cases call with
  | enqueue task metadata => exact h.enqueue ha
  | dequeue =>
    simp only [filing, Option.toList_none, List.append_nil]
    exact h.dequeue env
  | cancel taskId =>
    simp only [filing, Option.toList_none, List.append_nil]
    exact h.cancel env taskId
  | peek =>
    simp only [filing, Option.toList_none, List.append_nil]
    exact h.unfiled h.represents.peek.represents rfl rfl fun _ he => he
  | lookup | contains =>
    simp only [filing, Option.toList_none, List.append_nil]
    exact h

end Follows

/-- In every run that never enqueues an id over an entry of it, the queue serves
the least of the latest filings. -/
theorem run_serves_latest (key : Attrs → Except PyError Number) (maxSize : Option ℤ)
    (calls : List (QueueEnv × QueueCall))
    (h : Machine.Along InMemoryTaskQueue.step WithoutStaleEntry calls
      (InMemoryTaskQueue.create maxSize (SchedulingPolicy.init : HeapPolicy key), [])) :
    ServesLatest (InMemoryTaskQueue.run (P := HeapPolicy key) maxSize calls).1
      (filings key calls
        (InMemoryTaskQueue.create maxSize (SchedulingPolicy.init : HeapPolicy key), [])) := by
  let start : InMemoryTaskQueue (HeapPolicy key) × List Response :=
    (InMemoryTaskQueue.create maxSize SchedulingPolicy.init, [])
  let invariant (seen : List (QueueEnv × QueueCall))
      (c : InMemoryTaskQueue (HeapPolicy key) × List Response) : Prop :=
    c = Machine.exec InMemoryTaskQueue.step seen start ∧
      ∃ r, Follows c.1 r (filings key seen start)
  have hstart : invariant [] start :=
    ⟨rfl, _, Represents.create _ maxSize, rfl, nofun, List.Pairwise.nil, nofun⟩
  have hrun := Machine.exec_tracks invariant ?_ hstart h
  · obtain ⟨-, r, hfollows⟩ := hrun
    exact hfollows.serves
  · rintro seen c a ⟨hc, r, hfollows⟩ ha
    refine ⟨?_, (ReferenceQueue.step key r a).1, ?_⟩
    · rw [Machine.exec_append, ← hc]
      rfl
    · rw [filings_concat, ← hc]
      exact hfollows.step ha

/-- A task of the given priority. -/
def enqueuePriority (task : TaskHandle) (priority : ℤ) : QueueEnv × QueueCall :=
  (.plain "t", .enqueue task (Dict.empty.set "priority" (.int priority)))

/-- After a cancellation a look at the top drops the stale entry. -/
theorem run_serves_latest_peeked :
    let calls := [enqueuePriority ⟨0, "a"⟩ 10, (.plain "t", .cancel "a"), (.plain "t", .peek),
      enqueuePriority ⟨1, "a"⟩ 1, enqueuePriority ⟨2, "b"⟩ 5]
    ServesLatest (InMemoryTaskQueue.run (P := PriorityPolicy) none calls).1
      (filings negatedPriority calls
        (InMemoryTaskQueue.create none (SchedulingPolicy.init : PriorityPolicy), [])) :=
  run_serves_latest negatedPriority none _ ⟨fun _ => ⟨by decide, _, rfl⟩, trivial, trivial,
    fun _ => ⟨by decide, _, rfl⟩, fun _ => ⟨by decide, _, rfl⟩, trivial⟩

/-- Without it the stale entry is served in place of the new one, and later the
new entry is popped for nothing while another task is stored. -/
theorem stale_entry_empties_queue :
    let calls := [enqueuePriority ⟨0, "a"⟩ 10, (.plain "t", .cancel "a"),
      enqueuePriority ⟨1, "a"⟩ 1, enqueuePriority ⟨2, "b"⟩ 0, (.plain "t", .dequeue)]
    let start := (InMemoryTaskQueue.create none (SchedulingPolicy.init : PriorityPolicy), [])
    Machine.Along InMemoryTaskQueue.step InMemoryTaskQueue.EnqueuesAbsent calls start ∧
      ¬ ServesLatest (InMemoryTaskQueue.run (P := PriorityPolicy) none calls).1
        (filings negatedPriority calls start) := by
  refine ⟨by decide, ?_⟩
  intro h
  exact absurd ((h.empty_iff (.plain "t")).mp (by rfl)) (by decide)

end MollisRuntime.Scheduling
