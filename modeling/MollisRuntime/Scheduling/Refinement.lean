import MollisRuntime.Scheduling.ReferenceQueue

/-!
The refinement over runs. An id that is neither waiting nor was ever cancelled
has no entry in the policy, so in a run that enqueues only such ids the queue
gives the responses of the reference queue, for each of the three policies.
-/
namespace MollisRuntime.Scheduling

open Ordered Python Persistence MinHeap

variable {P : Type} [SchedulingPolicy P] {κ : Type} [LinearOrder κ]

/-- A call of `cancel` that found its task. -/
def Response.cancels (r : Response) (taskId : String) : Prop :=
  match r.call, r.result with
  | .cancel _, .error (.taskNotFound _) => False
  | .cancel cancelled, _ => cancelled = taskId
  | _, _ => False

def Cancelled (responses : List Response) (taskId : String) : Prop :=
  ∃ r ∈ responses, r.cancels taskId

theorem Cancelled.concat {responses : List Response} {taskId : String}
    (h : Cancelled responses taskId) (r : Response) : Cancelled (responses ++ [r]) taskId := by
  obtain ⟨r', hr', hcancels⟩ := h
  exact ⟨r', List.mem_append_left _ hr', hcancels⟩

/-- An id that is filed is neither waiting nor was it ever cancelled, and its key
can be computed. -/
def Disciplined (key : Attrs → Except PyError κ) (c : InMemoryTaskQueue P × List Response)
    (a : QueueEnv × QueueCall) : Prop :=
  match a.2 with
  | .enqueue task metadata => c.1.reached = none →
      task.id ∉ c.1.storage.keys ∧ ¬ Cancelled c.2 task.id ∧ ∃ k, key metadata = .ok k
  | _ => True

/-- The ids with an entry in the policy are waiting or were cancelled. -/
def Ranking.Traced (R : Ranking P κ) (c : InMemoryTaskQueue P × List Response) : Prop :=
  ∀ taskId, ¬ R.Free c.1.policy taskId → taskId ∈ c.1.storage.keys ∨ Cancelled c.2 taskId

namespace Ranking.Traced

variable {R : Ranking P κ} {q : InMemoryTaskQueue P} {r : ReferenceQueue κ}
  {responses : List Response}

theorem enters (h : R.Traced (q, responses)) {a : QueueEnv × QueueCall}
    (ha : Disciplined R.key (q, responses) a) : R.Enters q a.2 := by
  obtain ⟨env, call⟩ := a
  cases call with
  | enqueue task metadata =>
    intro hreached
    obtain ⟨hnew, huncancelled, hkey⟩ := ha hreached
    refine ⟨hnew, ?_, hkey⟩
    by_contra hfree
    exact (h task.id hfree).elim hnew huncancelled
  | _ => trivial

theorem enqueue (h : R.Traced (q, responses)) (env : QueueEnv) (task : TaskHandle)
    (metadata : Attrs) (r : Response) :
    R.Traced ((q.answer env (.enqueue task metadata)).queue, responses ++ [r]) := by
  have hadded : ∀ taskId,
      ¬ R.Free (SchedulingPolicy.add q.policy task.id metadata).1 taskId →
        taskId ∈ (q.storage.set task.id task).keys ∨ Cancelled (responses ++ [r]) taskId := by
    intro taskId hfree
    rw [Dict.mem_keys_set]
    by_cases hid : taskId = task.id
    · exact Or.inl (Or.inl hid)
    · rcases h taskId fun hbefore => hfree (R.free_add metadata hbefore hid) with hmem | hmem
      · exact Or.inl (Or.inr hmem)
      · exact Or.inr (hmem.concat r)
  dsimp only [InMemoryTaskQueue.answer]
  cases hreached : q.reached with
  | some bound =>
    rw [InMemoryTaskQueue.enqueue_full hreached]
    exact fun taskId hfree => (h taskId hfree).imp_right fun hmem => hmem.concat r
  | none =>
    rcases hadd : SchedulingPolicy.add q.policy task.id metadata with ⟨policy, result⟩
    rw [hadd] at hadded
    cases result with
    | error e =>
      rw [InMemoryTaskQueue.enqueue_refused hreached hadd]
      exact hadded
    | ok _ =>
      rw [InMemoryTaskQueue.enqueue_accepted hreached hadd]
      exact hadded

theorem dequeue (h : R.Traced (q, responses)) (hrep : Represents R q r) (env : QueueEnv)
    (response : Response) :
    R.Traced ((q.answer env .dequeue).queue, responses ++ [response]) := by
  have hnext : ∀ taskId, ¬ R.Free (SchedulingPolicy.next q.policy).1 taskId →
      (SchedulingPolicy.next q.policy).2 ≠ some taskId ∧
        (taskId ∈ q.storage.keys ∨ Cancelled (responses ++ [response]) taskId) := by
    obtain ⟨sorted, -, -, hfiles⟩ := hrep.serves
    intro taskId hfree
    refine ⟨fun hpopped => hfree (R.free_popped hfiles hpopped), ?_⟩
    exact (h taskId fun hbefore => hfree (R.free_next hbefore)).imp_right
      fun hmem => hmem.concat response
  dsimp only [InMemoryTaskQueue.answer]
  cases htaken : (SchedulingPolicy.next q.policy).2.bind q.storage.get? with
  | none =>
    rw [InMemoryTaskQueue.dequeue_none htaken]
    exact fun taskId hfree => (hnext taskId hfree).2
  | some task =>
    obtain ⟨nextId, hitem, hget⟩ := Option.bind_eq_some_iff.mp htaken
    rw [InMemoryTaskQueue.dequeue_some hitem hget]
    intro taskId hfree
    obtain ⟨hne, hmem⟩ := hnext taskId hfree
    refine hmem.imp_left fun hkey => (Dict.mem_keys_erase _ _ _).mpr ⟨hkey, ?_⟩
    rintro rfl
    exact hne hitem

theorem cancel (h : R.Traced (q, responses)) (env : QueueEnv) (cancelled : String) :
    R.Traced (Machine.advance InMemoryTaskQueue.step (q, responses)
      (env, .cancel cancelled)) := by
  rw [InMemoryTaskQueue.advance_eq]
  dsimp only [InMemoryTaskQueue.answer]
  cases hget : q.storage.get? cancelled with
  | none =>
    rw [InMemoryTaskQueue.cancel_none hget]
    exact fun taskId hfree => (h taskId hfree).imp_right fun hmem => hmem.concat _
  | some task =>
    rw [InMemoryTaskQueue.cancel_some hget]
    intro taskId hfree
    by_cases hid : taskId = cancelled
    · refine Or.inr ⟨_, List.mem_append_right _ (List.mem_singleton_self _), ?_⟩
      cases htold : (env.announce (.taskCancelled cancelled) (.taskCancelled cancelled)).2 with
      | error raised =>
        obtain ⟨e, rfl⟩ := QueueEnv.announce_error htold
        simp [Response.cancels, Reply.map, hid]
      | ok _ => simp [Response.cancels, Reply.map, hid]
    · rcases h taskId fun hbefore => hfree (R.free_remove cancelled hbefore) with hmem | hmem
      · exact Or.inl ((Dict.mem_keys_erase _ _ _).mpr ⟨hmem, hid⟩)
      · exact Or.inr (hmem.concat _)

theorem step (h : R.Traced (q, responses)) (hrep : Represents R q r)
    (a : QueueEnv × QueueCall) :
    R.Traced (Machine.advance InMemoryTaskQueue.step (q, responses) a) := by
  obtain ⟨env, call⟩ := a
  cases call with
  | enqueue task metadata => exact h.enqueue env task metadata _
  | dequeue => exact h.dequeue hrep env _
  | cancel taskId => exact h.cancel env taskId
  | peek =>
    intro taskId hfree
    exact (h taskId fun hbefore => hfree (R.free_peek hbefore)).imp_right
      fun hmem => hmem.concat _
  | lookup | contains =>
    exact fun taskId hfree => (h taskId hfree).imp_right fun hmem => hmem.concat _

end Ranking.Traced

/-- In every disciplined run the queue answers as the reference queue does. -/
theorem Ranking.run_refines (R : Ranking P κ) (maxSize : Option ℤ)
    {calls : List (QueueEnv × QueueCall)}
    (h : Machine.Along InMemoryTaskQueue.step (Disciplined R.key) calls
      (InMemoryTaskQueue.create maxSize (SchedulingPolicy.init : P), [])) :
    (InMemoryTaskQueue.run (P := P) maxSize calls).2 =
      (ReferenceQueue.run R.key
        (InMemoryTaskQueue.create maxSize (SchedulingPolicy.init : P)).maxSize calls).2 := by
  have hstart : Represents R (InMemoryTaskQueue.create maxSize SchedulingPolicy.init)
      { maxSize := (InMemoryTaskQueue.create maxSize (SchedulingPolicy.init : P)).maxSize } ∧
      R.Traced (InMemoryTaskQueue.create maxSize SchedulingPolicy.init, []) :=
    ⟨Represents.create R maxSize, fun taskId hfree => absurd (R.free_init taskId) hfree⟩
  refine (Machine.exec_simulates (ReferenceQueue.step R.key)
    (fun c r => Represents R c.1 r ∧ R.Traced c) ?_ hstart h).1.symm
  rintro ⟨q, responses⟩ r a ⟨hrep, htraced⟩ ha
  obtain ⟨houtput, hnext⟩ := hrep.step (htraced.enters ha)
  exact ⟨houtput, hnext, htraced.step hrep a⟩

/-- The keys of a policy, under which the queue refines the reference queue. -/
def RefinesReference (P : Type) [SchedulingPolicy P] {κ : Type} [LinearOrder κ]
    (key : Attrs → Except PyError κ) : Prop :=
  ∀ (maxSize : Option ℤ) (calls : List (QueueEnv × QueueCall)),
    Machine.Along InMemoryTaskQueue.step (Disciplined key) calls
        (InMemoryTaskQueue.create maxSize (SchedulingPolicy.init : P), []) →
      (InMemoryTaskQueue.run (P := P) maxSize calls).2 =
        (ReferenceQueue.run key
          (InMemoryTaskQueue.create maxSize (SchedulingPolicy.init : P)).maxSize calls).2

/-- Under each of the three policies the queue is the reference queue: by arrival
alone, by the negated priority, and by the deadline. -/
theorem policies_refine_reference :
    RefinesReference FIFOPolicy (κ := Unit) (fun _ => .ok ()) ∧
      RefinesReference PriorityPolicy negatedPriority ∧
      ∀ isoTimestamp, RefinesReference (DeadlinePolicy isoTimestamp) (deadline isoTimestamp) :=
  ⟨fun maxSize _ h => FIFOPolicy.ranking.run_refines maxSize h,
    fun maxSize _ h => (HeapPolicy.ranking negatedPriority).run_refines maxSize h,
    fun isoTimestamp maxSize _ h =>
      (HeapPolicy.ranking (deadline isoTimestamp)).run_refines maxSize h⟩

/-- Two tasks of priorities 1 and 5; the second one is served first. -/
theorem policies_refine_reference_two :
    (InMemoryTaskQueue.run (P := PriorityPolicy) (some 2) [
        (.plain "t0", .enqueue ⟨0, "low"⟩ (Dict.empty.set "priority" (.int 1))),
        (.plain "t1", .enqueue ⟨1, "high"⟩ (Dict.empty.set "priority" (.int 5))),
        (.plain "t2", .dequeue)]).2 =
      (ReferenceQueue.run negatedPriority (some 2) [
        (.plain "t0", .enqueue ⟨0, "low"⟩ (Dict.empty.set "priority" (.int 1))),
        (.plain "t1", .enqueue ⟨1, "high"⟩ (Dict.empty.set "priority" (.int 5))),
        (.plain "t2", .dequeue)]).2 := by
  refine policies_refine_reference.2.1 (some 2) _ ⟨fun _ => ?_, fun _ => ?_, trivial, trivial⟩
  · exact ⟨by decide, fun ⟨_, hmem, _⟩ => (nomatch hmem), _, rfl⟩
  · refine ⟨by decide, ?_, _, rfl⟩
    rintro ⟨r, hmem, hcancels⟩
    rw [List.mem_singleton.mp hmem] at hcancels
    exact hcancels

end MollisRuntime.Scheduling
