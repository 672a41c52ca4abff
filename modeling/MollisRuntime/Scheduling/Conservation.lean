import MollisRuntime.Scheduling.TaskQueue

/-!
Custody of the queued tasks. As long as no id is enqueued that is stored and no
call raises half way, the counters add up and every accepted task is stored or
has been handed out once. A stored id that is enqueued again is counted, but it
replaces the task that was stored under it.
-/
namespace MollisRuntime.Scheduling

open Ordered Python Persistence

/-- The task that a call of `enqueue` accepted. -/
def Response.accepted (r : Response) : Option TaskHandle :=
  match r.call, r.result with
  | .enqueue task _, .ok _ => some task
  | _, _ => none

/-- The task that a call of `dequeue` or `cancel` returned. -/
def Response.handedOut (r : Response) : Option TaskHandle :=
  match r.call, r.result with
  | .dequeue, .ok (.task task) => some task
  | .cancel _, .ok (.task task) => some task
  | _, _ => none

def acceptedTasks (responses : List Response) : List TaskHandle :=
  responses.filterMap Response.accepted

def handedOutTasks (responses : List Response) : List TaskHandle :=
  responses.filterMap Response.handedOut

theorem acceptedTasks_concat (responses : List Response) (r : Response) :
    acceptedTasks (responses ++ [r]) = acceptedTasks responses ++ r.accepted.toList := by
  rw [acceptedTasks, List.filterMap_append]
  cases h : r.accepted <;> simp [acceptedTasks, h]

theorem handedOutTasks_concat (responses : List Response) (r : Response) :
    handedOutTasks (responses ++ [r]) = handedOutTasks responses ++ r.handedOut.toList := by
  rw [handedOutTasks, List.filterMap_append]
  cases h : r.handedOut <;> simp [handedOutTasks, h]

variable {P : Type}

/-- The counters add up, and the accepted tasks are those stored and those
handed out, each as often as it was accepted. -/
structure Conserved (c : InMemoryTaskQueue P × List Response) : Prop where
  counts : c.1.getMetrics.enqueueCount =
    c.1.getMetrics.dequeueCount + c.1.getMetrics.cancelCount + c.1.size
  custody : (acceptedTasks c.2).Perm (handedOutTasks c.2 ++ c.1.storage.values)

section Steps

variable {q q' : InMemoryTaskQueue P} {responses : List Response} {r : Response}

theorem Conserved.length (h : Conserved (q, responses)) :
    (acceptedTasks responses).length = (handedOutTasks responses).length + q.size := by
  rw [h.custody.length_eq, List.length_append, Dict.length_values]
  rfl

/-- A call that neither accepts nor hands out and keeps counters and storage. -/
theorem Conserved.unchanged (h : Conserved (q, responses)) (haccepted : r.accepted = none)
    (hhanded : r.handedOut = none) (hstorage : q'.storage = q.storage)
    (hcounts : q'.enqueueCount = q.enqueueCount ∧ q'.dequeueCount = q.dequeueCount ∧
      q'.cancelCount = q.cancelCount) : Conserved (q', responses ++ [r]) := by
  obtain ⟨henqueue, hdequeue, hcancel⟩ := hcounts
  constructor
  · have hcount := h.counts
    simp only [InMemoryTaskQueue.getMetrics, InMemoryTaskQueue.size] at hcount ⊢
    rw [henqueue, hdequeue, hcancel, hstorage, hcount]
  · rw [acceptedTasks_concat, handedOutTasks_concat, haccepted, hhanded, hstorage]
    simpa using h.custody

/-- A task that leaves the storage has to be handed out. -/
theorem Conserved.taken_iff (h : Conserved (q, responses)) {taskId : String}
    {task : TaskHandle} (hget : q.storage.get? taskId = some task)
    (hstorage : q'.storage = q.storage.erase taskId)
    (hcounts : q'.enqueueCount = q.enqueueCount ∧
      q'.dequeueCount + q'.cancelCount = q.dequeueCount + q.cancelCount + 1)
    (haccepted : r.accepted = none) :
    Conserved (q', responses ++ [r]) ↔ r.handedOut.toList.Perm [task] := by
  obtain ⟨henqueue, htaken⟩ := hcounts
  have hvalues := Dict.values_erase_perm hget
  have hsize : q.size = q'.size + 1 := by
    have hlength := hvalues.length_eq
    rw [List.length_cons, Dict.length_values, Dict.length_values, ← hstorage] at hlength
    exact hlength
  have hcount := h.counts
  have hcustody : (acceptedTasks (responses ++ [r])).Perm
      (handedOutTasks responses ++ ([task] ++ q'.storage.values)) := by
    rw [acceptedTasks_concat, haccepted, Option.toList_none, List.append_nil, hstorage]
    exact h.custody.trans (hvalues.append_left _)
  simp only [InMemoryTaskQueue.getMetrics] at hcount
  constructor
  · intro hafter
    have hperm := hafter.custody.symm.trans hcustody
    rw [handedOutTasks_concat, List.append_assoc, List.perm_append_left_iff,
      List.perm_append_right_iff] at hperm
    exact hperm
  · intro hhanded
    constructor
    · simp only [InMemoryTaskQueue.getMetrics]
      omega
    · rw [handedOutTasks_concat, List.append_assoc]
      exact hcustody.trans ((hhanded.symm.append_right _).append_left _)

/-- A counted task has to come under a new id and its call has to return. -/
theorem Conserved.stored_iff (h : Conserved (q, responses)) {task : TaskHandle}
    (hstorage : q'.storage = q.storage.set task.id task)
    (hcounts : q'.enqueueCount = q.enqueueCount + 1 ∧ q'.dequeueCount = q.dequeueCount ∧
      q'.cancelCount = q.cancelCount) (hhanded : r.handedOut = none) :
    Conserved (q', responses ++ [r]) ↔
      task.id ∉ q.storage.keys ∧ r.accepted.toList.Perm [task] := by
  obtain ⟨henqueue, hdequeue, hcancel⟩ := hcounts
  have hcount := h.counts
  simp only [InMemoryTaskQueue.getMetrics] at hcount
  have hvalues : task.id ∉ q.storage.keys → q'.storage.values = q.storage.values ++ [task] := by
    intro hnew
    rw [hstorage, Dict.values, Dict.entries_set_of_notMem task hnew, List.map_append]
    rfl
  have hcustody : task.id ∉ q.storage.keys →
      (Conserved (q', responses ++ [r]) ↔ r.accepted.toList.Perm [task]) := by
    intro hnew
    have hsize : q'.size = q.size + 1 := by
      have hlength := congrArg List.length (hvalues hnew)
      rw [List.length_append, Dict.length_values, Dict.length_values] at hlength
      exact hlength
    have hbefore : (acceptedTasks responses ++ [task]).Perm
        (handedOutTasks (responses ++ [r]) ++ q'.storage.values) := by
      rw [handedOutTasks_concat, hhanded, Option.toList_none, List.append_nil, hvalues hnew,
        ← List.append_assoc]
      exact h.custody.append_right _
    constructor
    · intro hafter
      have hperm := hafter.custody.trans hbefore.symm
      rwa [acceptedTasks_concat, List.perm_append_left_iff] at hperm
    · intro haccepted
      constructor
      · simp only [InMemoryTaskQueue.getMetrics]
        omega
      · rw [acceptedTasks_concat]
        exact (haccepted.append_left _).trans hbefore
  refine ⟨fun hafter => ?_, fun hnew => (hcustody hnew.1).mpr hnew.2⟩
  have hnew : task.id ∉ q.storage.keys := by
    intro hmem
    have hsize : q'.size = q.size := by
      have hkeys := congrArg List.length (Dict.keys_set_of_mem q.storage task.id task hmem)
      rw [← hstorage] at hkeys
      simpa [Dict.keys, InMemoryTaskQueue.size] using hkeys
    have hafter := hafter.counts
    simp only [InMemoryTaskQueue.getMetrics] at hafter
    omega
  exact ⟨hnew, (hcustody hnew).mp hafter⟩

/-- A task that is stored without being counted has to be the one that was. -/
theorem Conserved.replaced_iff (h : Conserved (q, responses)) {task : TaskHandle}
    (hstorage : q'.storage = q.storage.set task.id task)
    (hcounts : q'.enqueueCount = q.enqueueCount ∧ q'.dequeueCount = q.dequeueCount ∧
      q'.cancelCount = q.cancelCount) (haccepted : r.accepted = none)
    (hhanded : r.handedOut = none) :
    Conserved (q', responses ++ [r]) ↔ q.storage.get? task.id = some task := by
  constructor
  · intro hafter
    have hsize : q'.size = q.size := by
      obtain ⟨henqueue, hdequeue, hcancel⟩ := hcounts
      have hcount := h.counts
      have hcount' := hafter.counts
      simp only [InMemoryTaskQueue.getMetrics] at hcount hcount'
      omega
    cases hget : q.storage.get? task.id with
    | none =>
      have hnew := (q.storage.get?_eq_none_iff task.id).mp hget
      have hlength := congrArg List.length (Dict.entries_set_of_notMem task hnew)
      rw [← hstorage, List.length_append] at hlength
      have hgrown : q'.size = q.size + 1 := hlength
      omega
    | some old =>
      have hvalues : q'.storage.values.Perm q.storage.values := by
        have hsame : (acceptedTasks (responses ++ [r])).Perm
            (handedOutTasks (responses ++ [r]) ++ q.storage.values) := by
          rw [acceptedTasks_concat, handedOutTasks_concat, haccepted, hhanded]
          simpa using h.custody
        have hperm := hafter.custody.symm.trans hsame
        rwa [List.perm_append_left_iff] at hperm
      have hnew : (task :: (q.storage.erase task.id).values).Perm
          (old :: (q.storage.erase task.id).values) := by
        rw [hstorage] at hvalues
        exact (Dict.values_set_perm _ _ _).symm.trans
          (hvalues.trans (Dict.values_erase_perm hget))
      have hcount := hnew.count_eq task
      by_cases hold : old = task
      · rw [hold]
      · simp [hold] at hcount
  · intro hget
    rw [Dict.set_of_get? hget] at hstorage
    exact h.unchanged haccepted hhanded hstorage hcounts

end Steps

variable [SchedulingPolicy P]

/-- An accepted call stores its task under a new id and is announced; a call
that the policy refuses stores the very task that was stored. Calls that take a
task out are announced. -/
def Accounted (q : InMemoryTaskQueue P) (a : QueueEnv × QueueCall) : Prop :=
  match a.2 with
  | .enqueue task metadata =>
    q.reached = none →
      match (SchedulingPolicy.add q.policy task.id metadata).2 with
      | .ok () => task.id ∉ q.storage.keys ∧
          (a.1.announce (.taskQueued task.id) (.taskQueued task.id)).2 = .ok ()
      | .error _ => q.storage.get? task.id = some task
  | .dequeue => ∀ task,
      (SchedulingPolicy.next q.policy).2.bind q.storage.get? = some task →
        (a.1.announce (.taskDequeued task.id) (.taskDequeued task.id)).2 = .ok ()
  | .cancel taskId => taskId ∈ q.storage.keys →
      (a.1.announce (.taskCancelled taskId) (.taskCancelled taskId)).2 = .ok ()
  | _ => True

/-- One call keeps the custody of the tasks exactly when it is accounted for. -/
theorem Conserved.step_iff {c : InMemoryTaskQueue P × List Response} (h : Conserved c)
    (a : QueueEnv × QueueCall) :
    Conserved (Machine.advance InMemoryTaskQueue.step c a) ↔ Accounted c.1 a := by
  obtain ⟨q, responses⟩ := c
  obtain ⟨env, call⟩ := a
  rw [InMemoryTaskQueue.advance_eq]
  cases call with
  | enqueue task metadata =>
    dsimp only [InMemoryTaskQueue.answer, Accounted]
    cases hreached : q.reached with
    | some bound =>
      rw [InMemoryTaskQueue.enqueue_full hreached]
      exact iff_of_true (h.unchanged rfl rfl rfl ⟨rfl, rfl, rfl⟩) (by simp)
    | none =>
      rcases hadd : SchedulingPolicy.add q.policy task.id metadata with ⟨policy, result⟩
      cases result with
      | error e =>
        rw [InMemoryTaskQueue.enqueue_refused hreached hadd]
        refine Iff.trans (h.replaced_iff rfl ⟨rfl, rfl, rfl⟩ rfl rfl) ?_
        exact ⟨fun hsame _ => hsame, fun hsame => hsame rfl⟩
      | ok _ =>
        rw [InMemoryTaskQueue.enqueue_accepted hreached hadd]
        refine Iff.trans (h.stored_iff rfl ⟨rfl, rfl, rfl⟩ rfl) ?_
        cases htold : (env.announce (.taskQueued task.id) (.taskQueued task.id)).2 with
        | error e => simp [Reply.map, Response.accepted]
        | ok _ => simp [Reply.map, Response.accepted]
  | dequeue =>
    dsimp only [InMemoryTaskQueue.answer, Accounted]
    cases htaken : (SchedulingPolicy.next q.policy).2.bind q.storage.get? with
    | none =>
      rw [InMemoryTaskQueue.dequeue_none htaken]
      exact iff_of_true (h.unchanged rfl rfl rfl ⟨rfl, rfl, rfl⟩) (by simp)
    | some task =>
      obtain ⟨nextId, hnext, hget⟩ := Option.bind_eq_some_iff.mp htaken
      rw [InMemoryTaskQueue.dequeue_some hnext hget]
      refine Iff.trans (h.taken_iff hget rfl ⟨rfl, Nat.add_right_comm _ _ _⟩ rfl) ?_
      cases htold : (env.announce (.taskDequeued task.id) (.taskDequeued task.id)).2 with
      | error e => simp [Reply.map, Response.handedOut, htold]
      | ok _ => simp [Reply.map, Response.handedOut, htold]
  | cancel taskId =>
    dsimp only [InMemoryTaskQueue.answer, Accounted]
    cases hget : q.storage.get? taskId with
    | none =>
      rw [InMemoryTaskQueue.cancel_none hget]
      refine iff_of_true (h.unchanged rfl rfl rfl ⟨rfl, rfl, rfl⟩) ?_
      intro hmem
      exact absurd hmem ((q.storage.get?_eq_none_iff taskId).mp hget)
    | some task =>
      have hmem : taskId ∈ q.storage.keys := (q.storage.mem_keys_iff taskId).mpr ⟨task, hget⟩
      rw [InMemoryTaskQueue.cancel_some hget]
      refine Iff.trans (h.taken_iff hget rfl ⟨rfl, rfl⟩ rfl) ?_
      cases htold : (env.announce (.taskCancelled taskId) (.taskCancelled taskId)).2 with
      | error e => simp [Reply.map, Response.handedOut, hmem]
      | ok _ => simp [Reply.map, Response.handedOut]
  | peek | lookup | contains =>
    exact iff_of_true (h.unchanged rfl rfl rfl ⟨rfl, rfl, rfl⟩) trivial

/-- In every run the tasks are conserved up to every call exactly when every
call is accounted for. -/
theorem conserved_iff_accounted (maxSize : Option ℤ) (calls : List (QueueEnv × QueueCall)) :
    (∀ before, before <+: calls →
        Conserved (InMemoryTaskQueue.run (P := P) maxSize before)) ↔
      Machine.Along InMemoryTaskQueue.step (fun c a => Accounted c.1 a) calls
        (InMemoryTaskQueue.create maxSize (SchedulingPolicy.init : P), []) := by
  apply Machine.forall_prefix_iff_along Conserved fun c a hc => hc.step_iff a
  exact ⟨rfl, List.Perm.refl []⟩

/-- Two tasks under one id: both are counted, one is stored. -/
theorem not_conserved_of_stored_id :
    ¬ Conserved (InMemoryTaskQueue.run (P := FIFOPolicy) none [
      (.plain "t0", .enqueue ⟨0, "a"⟩ .empty), (.plain "t1", .enqueue ⟨1, "a"⟩ .empty)]) :=
  fun h => absurd h.counts (by decide)

end MollisRuntime.Scheduling
