import MollisRuntime.Scheduling.Custody
import MollisRuntime.Scheduling.Reliable

/-!
No task is lost without a store, as long as a task that has matured or is retried
at once finds room in the queue. What the scheduler accepted is in one of its
places, or it has come to an end: it has completed, or it has failed and the
retry engine was not in favour of another attempt.
-/
namespace MollisRuntime.Scheduling

open Ordered Python Persistence MinHeap
open RuntimeEngine (step create run)

section Verdicts

/-- What a note says about a retry of the task. -/
def Note.verdict (ref : ℕ) : Note → Option Bool
  | .evaluated task retry => if task.ref = ref then some retry else none
  | _ => none

/-- The last decision about a retry of the task. -/
def lastVerdict (notes : List Note) (ref : ℕ) : Option Bool :=
  (notes.filterMap (Note.verdict ref)).getLast?

theorem lastVerdict_append {more : List Note} {ref : ℕ}
    (h : ∀ note ∈ more, note.verdict ref = none) (notes : List Note) :
    lastVerdict (notes ++ more) ref = lastVerdict notes ref := by
  rw [lastVerdict, List.filterMap_append, List.filterMap_eq_nil_iff.mpr h, List.append_nil]
  rfl

theorem lastVerdict_of_append {more : List Note} {ref : ℕ} {retry : Bool}
    (h : lastVerdict more ref = some retry) (notes : List Note) :
    lastVerdict (notes ++ more) ref = some retry := by
  rw [lastVerdict] at h
  rw [lastVerdict, List.filterMap_append, List.getLast?_append, h, Option.some_or]

theorem lastVerdict_evaluated (task : TaskHandle) (retry : Bool) :
    lastVerdict [.evaluated task retry] task.ref = some retry := by
  simp [lastVerdict, Note.verdict]

theorem verdict_evaluated_ne {task : TaskHandle} {ref : ℕ} (h : ref ≠ task.ref) (retry : Bool) :
    (Note.evaluated task retry).verdict ref = none := if_neg h.symm

end Verdicts

section Places

variable {P : Type}

namespace RuntimeEngine

/-- One of the places has the task. -/
def Held (sys : RuntimeEngine P) (ref : ℕ) : Prop := ∃ task ∈ sys.custody, task.ref = ref

/-- No other task is stored under the id. -/
def Unshadowed (sys : RuntimeEngine P) (task : TaskHandle) : Prop :=
  ∀ other ∈ sys.queue.storage.get? task.id, other.ref = task.ref

instance (sys : RuntimeEngine P) (task : TaskHandle) : Decidable (sys.Unshadowed task) :=
  inferInstanceAs (Decidable (∀ other ∈ sys.queue.storage.get? task.id, other.ref = task.ref))

theorem Held.mono {sys s : RuntimeEngine P} (h : sys.custody ≤ s.custody) {ref : ℕ}
    (hheld : sys.Held ref) : s.Held ref := by
  obtain ⟨task, hmem, href⟩ := hheld
  exact ⟨task, Multiset.mem_of_le h hmem, href⟩

theorem held_of_executing {sys : RuntimeEngine P} {workerId : String} {attempt : Attempt}
    (h : sys.workers.get? workerId = some (.executing attempt)) : sys.Held attempt.task.ref :=
  ⟨attempt.task, mem_custody_of_executing h, rfl⟩

/-- The queue or the delayed tasks have the task. -/
def Waits (sys : RuntimeEngine P) (task : TaskHandle) : Prop :=
  task ∈ sys.queue.storage.values ∨ task ∈ sys.tracker.tasks

theorem Waits.held {sys : RuntimeEngine P} {task : TaskHandle} (h : sys.Waits task) :
    sys.Held task.ref := by
  refine ⟨task, mem_custody.mpr ?_, rfl⟩
  rcases h with hstored | hdelayed
  · exact .inl hstored
  · exact .inr (.inl hdelayed)

section Arrivals

variable [SchedulingPolicy P] {sys : RuntimeEngine P} {env : StepEnv} {task : TaskHandle}

/-- A task is stored in the place of another object only if that is the same. -/
theorem Held.enqueue {ref : ℕ} (h : sys.Held ref) (hclear : sys.Unshadowed task) :
    (sys.enqueue env task).system.Held ref := by
  obtain ⟨held, hmem, rfl⟩ := h
  rcases mem_custody.mp hmem with hstored | helsewhere
  · obtain ⟨taskId, hget⟩ := Dict.mem_values_iff.mp hstored
    have hstorage : (sys.enqueue env task).system.queue.storage =
        if sys.queue.reached = none then sys.queue.storage.set task.id task
        else sys.queue.storage := InMemoryTaskQueue.storage_enqueue
    suffices hkept : ∃ kept taskId', kept.ref = held.ref ∧
        (sys.enqueue env task).system.queue.storage.get? taskId' = some kept by
      obtain ⟨kept, taskId', href, hkept⟩ := hkept
      exact ⟨kept, mem_custody.mpr (.inl (Dict.mem_values_iff.mpr ⟨taskId', hkept⟩)), href⟩
    rw [hstorage]
    split
    · by_cases hid : task.id = taskId
      · exact ⟨task, task.id, (hclear held (hid ▸ hget)).symm, Dict.get?_set_self _ _ _⟩
      · exact ⟨held, taskId, rfl, (Dict.get?_set_ne _ _ _ _ hid).trans hget⟩
    · exact ⟨held, taskId, rfl, hget⟩
  · exact ⟨held, mem_custody.mpr (.inr helsewhere), rfl⟩

theorem waits_enqueue (hroom : sys.queue.reached = none) :
    (sys.enqueue env task).system.Waits task := by
  have hstorage : (sys.enqueue env task).system.queue.storage =
      sys.queue.storage.set task.id task :=
    InMemoryTaskQueue.storage_enqueue.trans (if_pos hroom)
  refine .inl (Dict.mem_values_iff.mpr ⟨task.id, ?_⟩)
  rw [hstorage, Dict.get?_set_self]

variable [FloatArith] {delay : Number}

theorem Held.addDelayedTask {ref : ℕ} (h : sys.Held ref)
    (hclear : delay ≤ .finite 0 → sys.Unshadowed task) :
    (sys.addDelayedTask env task delay).system.Held ref := by
  by_cases hdelay : delay ≤ .finite 0
  · rw [addDelayedTask_ready hdelay, system_onDelayedTaskReady]
    exact h.enqueue (hclear hdelay)
  · rw [addDelayedTask_later hdelay]
    exact h.mono ((Multiset.le_cons_self _ task).trans (sys.custody_pushDelayed env task delay).ge)

theorem waits_addDelayedTask (hroom : delay ≤ .finite 0 → sys.queue.reached = none) :
    (sys.addDelayedTask env task delay).system.Waits task := by
  by_cases hdelay : delay ≤ .finite 0
  · rw [addDelayedTask_ready hdelay, Waits, system_onDelayedTaskReady]
    exact waits_enqueue (hroom hdelay)
  · rw [addDelayedTask_later hdelay]
    refine .inr (((file_perm _ _).map Entry.item).mem_iff.mpr ?_)
    exact List.mem_cons_self

end Arrivals

section Failures

variable [FloatArith] {sys : RuntimeEngine P} {task : TaskHandle} {error : Raised}

/-- The retry engine decides about the failure. A retry has a delay, or the queue
has room for the task and nothing else under its id. -/
def Rescheduled (sys : RuntimeEngine P) (task : TaskHandle) (error : Raised) : Prop :=
  match RetryEngine.shouldRetry (sys.object task).metadata error,
      (RetryEngine.prepareRetry (sys.object task)).2 with
  | .ok false, _ => True
  | .ok true, .ok delay =>
    delay ≤ .finite 0 → sys.queue.reached = none ∧ sys.Unshadowed task
  | _, _ => False

theorem Rescheduled.cases (h : sys.Rescheduled task error) :
    RetryEngine.shouldRetry (sys.object task).metadata error = .ok false ∨
      RetryEngine.shouldRetry (sys.object task).metadata error = .ok true ∧
        ∃ object delay, RetryEngine.prepareRetry (sys.object task) = (object, .ok delay) ∧
          object.status = .pending ∧
          (delay ≤ .finite 0 → sys.queue.reached = none ∧ sys.Unshadowed task) := by
  unfold Rescheduled at h
  split at h
  · rename_i hretry
    exact .inl hretry
  · rename_i delay hretry hdelay
    obtain ⟨policy, count, -, -, -, hprepare⟩ := RetryEngine.shouldRetry_true hretry
    rw [hprepare] at hdelay
    exact .inr ⟨hretry, _, delay, hprepare.trans (Prod.ext rfl hdelay), rfl, h⟩
  · exact h.elim

theorem Rescheduled.unshadowed (h : sys.Rescheduled task error)
    (hretry : RetryEngine.shouldRetry (sys.object task).metadata error = .ok true)
    (delay : Number) (hprepare : (RetryEngine.prepareRetry (sys.object task)).2 = .ok delay)
    (hdelay : delay ≤ .finite 0) : sys.Unshadowed task := by
  obtain hdenied | ⟨-, object, computed, hprepared, -, hroom⟩ := h.cases
  · cases hdenied.symm.trans hretry
  · rw [hprepared] at hprepare
    obtain rfl := Except.ok.inj hprepare
    exact (hroom hdelay).2

/-- Failing the task first makes no difference. -/
theorem Rescheduled.failed (h : sys.Rescheduled task error) :
    ((sys.setStatus task .failed).countFailed).Rescheduled task error := by
  have hobject : ((sys.setStatus task .failed).countFailed).object task =
      { sys.object task with status := .failed } := sys.object_setObject_self rfl _
  unfold Rescheduled at h ⊢
  rw [hobject, RetryEngine.prepareRetry_status]
  exact h

variable [SchedulingPolicy P] {env : StepEnv}

theorem Held.handleTaskFailure {ref : ℕ} (h : sys.Held ref)
    (hclear : RetryEngine.shouldRetry (sys.object task).metadata error = .ok true →
      ∀ delay, (RetryEngine.prepareRetry (sys.object task)).2 = .ok delay →
        delay ≤ .finite 0 → sys.Unshadowed task) :
    (sys.handleTaskFailure env task error).system.Held ref := by
  by_cases hretry : RetryEngine.shouldRetry (sys.object task).metadata error = .ok true
  · cases hprepare : RetryEngine.prepareRetry (sys.object task) with
    | mk object computed =>
      cases computed with
      | error e =>
        rw [handleTaskFailure_overflow hretry hprepare]
        exact h
      | ok delay =>
        rw [system_handleTaskFailure_retried hretry hprepare]
        refine Held.addDelayedTask (show (sys.setObject task object).Held ref from h) ?_
        exact hclear hretry delay (congrArg Prod.snd hprepare)
  · rw [system_handleTaskFailure_denied hretry]
    exact h

/-- A task that the retry engine is in favour of is PENDING. -/
theorem pending_handleTaskFailure
    (hretry : RetryEngine.shouldRetry (sys.object task).metadata error = .ok true) :
    ((sys.handleTaskFailure env task error).system.object task).status = .pending := by
  obtain ⟨policy, count, -, -, -, hprepare⟩ := RetryEngine.shouldRetry_true hretry
  cases hcomputed : policy.calculateDelay (count + 1) with
  | error e =>
    rw [hcomputed] at hprepare
    rw [handleTaskFailure_overflow hretry hprepare]
    exact congrArg TaskObject.status (sys.object_setObject_self rfl _)
  | ok delay =>
    rw [hcomputed] at hprepare
    obtain ⟨queue, tracker, hsystem⟩ := (sys.setObject task
      (RetryEngine.retried (sys.object task) (count + 1))).system_addDelayedTask env task delay
    rw [system_handleTaskFailure_retried hretry hprepare, hsystem]
    exact congrArg TaskObject.status (sys.object_setObject_self rfl _)

/-- A task that is FAILED after the handler has no retry left. -/
theorem final_handleTaskFailure
    (h : ((sys.handleTaskFailure env task error).system.object task).status = .failed) :
    lastVerdict (sys.handleTaskFailure env task error).notes task.ref = some false := by
  have hdenied : RetryEngine.shouldRetry (sys.object task).metadata error ≠ .ok true := by
    intro hretry
    cases (pending_handleTaskFailure hretry).symm.trans h
  unfold handleTaskFailure
  split
  · exact lastVerdict_evaluated task false
  · refine (lastVerdict_append ?_ [.evaluated task false]).trans (lastVerdict_evaluated task false)
    exact forall_notes_record rfl
  · rename_i hretry
    exact absurd hretry hdenied

/-- The task is on its way to another attempt, or the handler changes nothing. -/
theorem ends_handleTaskFailure (h : sys.Rescheduled task error) :
    (sys.handleTaskFailure env task error).system.Waits task ∨
      (sys.handleTaskFailure env task error).system = sys := by
  obtain hretry | ⟨hretry, object, delay, hprepare, -, hroom⟩ := h.cases
  · refine .inr (system_handleTaskFailure_denied ?_)
    rw [hretry]
    simp
  · refine .inl ?_
    rw [system_handleTaskFailure_retried hretry hprepare]
    exact waits_addDelayedTask fun hdelay => (hroom hdelay).1

end Failures

end RuntimeEngine

end Places

section Ends

variable {P : Type}

/-- A note that accepts no task and decides about none. -/
def Note.Silent (note : Note) : Prop :=
  (∀ other, note ≠ .accepted other) ∧ ∀ ref, note.verdict ref = none

theorem silent_logged (event : RuntimeEvent) (attempt : Option ℕ) :
    (Note.logged event attempt).Silent := ⟨nofun, fun _ => rfl⟩

/-- The task waits for another attempt, or it has come to an end. -/
def RuntimeEngine.Ends (sys : RuntimeEngine P) (task : TaskHandle) : Prop :=
  sys.Waits task ∨ (sys.object task).status = .completed ∨ (sys.object task).status = .failed

/-- A note that accepts no task and decides about one task at most. -/
def Note.Concerns (task : TaskHandle) (note : Note) : Prop :=
  (∀ other, note ≠ .accepted other) ∧ ∀ ref, ref ≠ task.ref → note.verdict ref = none

/-- What becomes of a task when its attempt ends or times out: the places keep what
they have, no other task changes, and a failure that stays is final. -/
structure Outcome.Leaves (o : Outcome P) (c : RuntimeEngine P × List Note) (task : TaskHandle) :
    Prop where
  held : ∀ ref, c.1.Held ref → o.system.Held ref
  others : ∀ ref, ref ≠ task.ref → o.system.objects ref = c.1.objects ref
  workers : o.system.workers = c.1.workers
  notes : ∀ note ∈ o.notes, note.Concerns task
  final : (o.system.object task).status = .failed →
    lastVerdict (c.2 ++ o.notes) task.ref = some false

theorem concerns_logged (task : TaskHandle) (event : RuntimeEvent) (attempt : Option ℕ) :
    (Note.logged event attempt).Concerns task := ⟨nofun, fun _ _ => rfl⟩

theorem concerns_evaluated (task : TaskHandle) (retry : Bool) :
    (Note.evaluated task retry).Concerns task :=
  ⟨nofun, fun _ href => verdict_evaluated_ne href retry⟩

variable [SchedulingPolicy P] [FloatArith] {c : RuntimeEngine P × List Note} {env : StepEnv}
  {attempt : Attempt} {error : Raised}

theorem leaves_attemptFailed (h : c.1.Rescheduled attempt.task error) :
    (c.1.attemptFailed env attempt error).Leaves c attempt.task ∧
      (c.1.attemptFailed env attempt error).system.Ends attempt.task := by
  obtain ⟨object, queue, tracker, hframe⟩ := c.1.system_attemptFailed env attempt error
  have hfailed : (((c.1.setStatus attempt.task .failed).countFailed).object
      attempt.task).status = .failed :=
    congrArg TaskObject.status (c.1.object_setObject_self rfl _)
  have hunfold : c.1.attemptFailed env attempt error =
      ((((c.1.setStatus attempt.task .failed).countFailed).handleTaskFailure env attempt.task
        error).caught).noting [.counted attempt.number false] := by
    rw [RuntimeEngine.attemptFailed, RuntimeEngine.settle_failed]
  refine ⟨⟨?_, ?_, ?_, ?_, ?_⟩, ?_⟩
  · intro ref href
    rw [hunfold]
    refine RuntimeEngine.Held.handleTaskFailure (show _ from href) ?_
    exact h.failed.unshadowed
  · intro ref href
    rw [hframe]
    exact Function.update_of_ne href _ _
  · rw [hframe]
    rfl
  · rw [hunfold]
    refine List.forall_mem_cons.mpr ⟨⟨by simp, fun _ _ => rfl⟩, ?_⟩
    exact RuntimeEngine.forall_notes_handleTaskFailure
      (fun event => concerns_logged attempt.task event none) (concerns_evaluated attempt.task)
  · rw [hunfold]
    intro hstatus
    exact lastVerdict_of_append
      (lastVerdict_of_append (RuntimeEngine.final_handleTaskFailure hstatus) _) _
  · rw [hunfold]
    rcases RuntimeEngine.ends_handleTaskFailure h.failed with hwaits | hsystem
    · exact .inl hwaits
    · refine .inr (.inr ?_)
      rw [Outcome.system_noting, Outcome.system_caught, hsystem]
      exact hfailed

/-- The attempt that has timed out goes on. -/
theorem leaves_handleTaskTimeout (hreliable : env.Reliable)
    (hclear : c.1.Unshadowed attempt.task) :
    ((c.1.setStatus attempt.task .failed).handleTaskTimeout env attempt).Leaves c
      attempt.task := by
  obtain ⟨object, queue, tracker, hframe⟩ :=
    (c.1.setStatus attempt.task .failed).system_handleTaskTimeout_frame env attempt
  refine ⟨?_, ?_, ?_, ?_, ?_⟩
  · intro ref href
    rw [RuntimeEngine.handleTaskTimeout_reliable hreliable]
    exact RuntimeEngine.Held.handleTaskFailure (show _ from href) fun _ _ _ _ => hclear
  · intro ref href
    rw [hframe, RuntimeEngine.setStatus, RuntimeEngine.amend_setObject]
    exact Function.update_of_ne href _ _
  · rw [hframe]
    rfl
  · rw [RuntimeEngine.handleTaskTimeout_reliable hreliable]
    refine List.forall_mem_append.mpr ⟨List.forall_mem_singleton.mpr ⟨by simp, fun _ _ => rfl⟩, ?_⟩
    refine List.forall_mem_append.mpr ⟨List.forall_mem_append.mpr ⟨?_, ?_⟩, ?_⟩
    · intro note hnote
      rw [RuntimeEngine.mem_appended hnote]
      exact concerns_logged attempt.task _ _
    · intro note hnote
      rw [RuntimeEngine.mem_appended hnote]
      exact concerns_logged attempt.task _ _
    · exact RuntimeEngine.forall_notes_handleTaskFailure
        (fun event => concerns_logged attempt.task event none) (concerns_evaluated attempt.task)
  · rw [RuntimeEngine.handleTaskTimeout_reliable hreliable]
    intro hstatus
    exact lastVerdict_of_append (lastVerdict_of_append (lastVerdict_of_append
      (RuntimeEngine.final_handleTaskFailure hstatus) _) _) _

/-- A task that has not failed completes. -/
theorem leaves_attemptSucceeded (hreliable : env.Reliable)
    (h : (c.1.object attempt.task).status = .failed →
      lastVerdict c.2 attempt.task.ref = some false) :
    (c.1.attemptSucceeded env attempt).Leaves c attempt.task ∧
      (c.1.attemptSucceeded env attempt).system.Ends attempt.task := by
  obtain ⟨object, hsettled⟩ := c.1.settle_eq attempt.task .completed
  have hnotes : ∀ note ∈ RuntimeEngine.appended env (.taskCompleted attempt.task.id)
      (some attempt.number) ++ [.counted attempt.number true],
      (∀ other, note ≠ .accepted other) ∧ ∀ ref, note.verdict ref = none := by
    intro note hnote
    rcases List.mem_append.mp hnote with hnote | hnote
    · rw [RuntimeEngine.mem_appended hnote]
      exact ⟨by simp, fun _ => rfl⟩
    · rw [List.mem_singleton.mp hnote]
      exact ⟨by simp, fun _ => rfl⟩
  rw [RuntimeEngine.attemptSucceeded_reliable hreliable]
  refine ⟨⟨?_, ?_, ?_, ?_, ?_⟩, ?_⟩
  · intro ref href
    rw [hsettled]
    exact href
  · intro ref href
    rw [hsettled]
    exact Function.update_of_ne href _ _
  · rw [hsettled]
    rfl
  · exact fun note hnote => ⟨(hnotes note hnote).1, fun ref _ => (hnotes note hnote).2 ref⟩
  · intro hstatus
    dsimp only at hstatus
    rw [lastVerdict_append fun note hnote => (hnotes note hnote).2 _]
    refine h ?_
    by_contra hbefore
    rw [RuntimeEngine.settle, if_neg hbefore] at hstatus
    cases (congrArg TaskObject.status (c.1.object_setObject_self rfl _)).symm.trans hstatus
  · dsimp only
    by_cases hstatus : (c.1.object attempt.task).status = .failed
    · rw [RuntimeEngine.settle, if_pos hstatus]
      exact .inr (.inr hstatus)
    · rw [RuntimeEngine.settle, if_neg hstatus]
      exact .inr (.inl (congrArg TaskObject.status (c.1.object_setObject_self rfl _)))

end Ends

section Property

variable {P : Type}

def Note.accepts : Note → Option TaskHandle
  | .accepted task => some task
  | _ => none

theorem mem_accepts {notes : List Note} {task : TaskHandle} :
    task ∈ notes.filterMap Note.accepts ↔ .accepted task ∈ notes := by
  rw [List.mem_filterMap]
  constructor
  · rintro ⟨note, hnote, haccepts⟩
    cases note with
    | accepted other =>
      cases haccepts
      exact hnote
    | _ => cases haccepts
  · intro hnote
    exact ⟨_, hnote, rfl⟩

/-- One of the places has the task, or it has completed, or it has failed and the
retry engine has decided against another attempt. -/
def HeldOrFinal (c : RuntimeEngine P × List Note) (ref : ℕ) : Prop :=
  c.1.Held ref ∨ (c.1.objects ref).status = .completed ∨
    (c.1.objects ref).status = .failed ∧ lastVerdict c.2 ref = some false

/-- Every task that was accepted is accounted for. -/
def NoTaskLost (c : RuntimeEngine P × List Note) : Prop :=
  ∀ task, .accepted task ∈ c.2 → HeldOrFinal c task.ref

instance (sys : RuntimeEngine P) (ref : ℕ) : Decidable (sys.Held ref) :=
  decidable_of_iff (ref ∈ sys.custody.map TaskHandle.ref) Multiset.mem_map

instance (c : RuntimeEngine P × List Note) (ref : ℕ) : Decidable (HeldOrFinal c ref) :=
  inferInstanceAs (Decidable (_ ∨ _ ∨ _ ∧ _))

instance (c : RuntimeEngine P × List Note) : Decidable (NoTaskLost c) :=
  decidable_of_iff (∀ task ∈ c.2.filterMap Note.accepts, HeldOrFinal c task.ref)
    (forall_congr' fun _ => imp_congr_left mem_accepts)

/-- No task is lost, and a failure that is known while the task is being executed
is final. -/
structure Kept (c : RuntimeEngine P × List Note) : Prop where
  accounted : NoTaskLost c
  final : ∀ workerId attempt, c.1.workers.get? workerId = some (.executing attempt) →
    (c.1.object attempt.task).status = .failed → lastVerdict c.2 attempt.task.ref = some false

/-- A step that decides about no failure. -/
theorem Kept.quiet {c : RuntimeEngine P × List Note} {s : RuntimeEngine P} {more : List Note}
    (h : Kept c) (hheld : ∀ ref, c.1.Held ref → s.Held ref)
    (haccepted : ∀ task, .accepted task ∈ more → s.Held task.ref)
    (hverdict : ∀ note ∈ more, ∀ ref, note.verdict ref = none)
    (hstatus : ∀ task, .accepted task ∈ c.2 →
      s.Held task.ref ∨ (s.objects task.ref).status = (c.1.objects task.ref).status)
    (hexecuting : ∀ workerId attempt, s.workers.get? workerId = some (.executing attempt) →
      (s.object attempt.task).status = .failed →
        c.1.workers.get? workerId = some (.executing attempt) ∧
          (c.1.object attempt.task).status = .failed) : Kept (s, c.2 ++ more) := by
  constructor
  · intro task htask
    rcases List.mem_append.mp htask with htask | htask
    · rcases hstatus task htask with hnow | hstatus
      · exact .inl hnow
      · rw [HeldOrFinal, hstatus, lastVerdict_append fun note hnote => hverdict note hnote _]
        exact (h.accounted task htask).imp_left (hheld _)
    · exact .inl (haccepted task htask)
  · intro workerId attempt hslot hfailed
    obtain ⟨hbefore, hfailed⟩ := hexecuting workerId attempt hslot hfailed
    rw [lastVerdict_append fun note hnote => hverdict note hnote _]
    exact h.final workerId attempt hbefore hfailed

/-- A step that neither decides about a failure nor touches a status or a worker. -/
theorem Kept.still {c : RuntimeEngine P × List Note} {s : RuntimeEngine P} {more : List Note}
    (h : Kept c) (hheld : ∀ ref, c.1.Held ref → s.Held ref)
    (haccepted : ∀ task, .accepted task ∈ more → s.Held task.ref)
    (hverdict : ∀ note ∈ more, ∀ ref, note.verdict ref = none)
    (hstatus : ∀ ref, (s.objects ref).status = (c.1.objects ref).status)
    (hworkers : s.workers = c.1.workers) : Kept (s, c.2 ++ more) := by
  refine h.quiet hheld haccepted hverdict (fun task _ => .inr (hstatus task.ref)) ?_
  intro workerId attempt hslot hfailed
  rw [hworkers] at hslot
  exact ⟨hslot, (hstatus attempt.task.ref).symm.trans hfailed⟩

/-- Other tasks are accounted for as before, also when the worker lets go of its own. -/
theorem Outcome.Leaves.accounted {o : Outcome P} {c : RuntimeEngine P × List Note}
    {task : TaskHandle} {s : RuntimeEngine P} {more : List Note} {ref : ℕ} (ho : o.Leaves c task)
    (hplaces : o.system.custody ≤ task ::ₘ s.custody) (hobjects : s.objects = o.system.objects)
    (hmore : ∀ note ∈ more, note.Concerns task) (href : ref ≠ task.ref) (h : HeldOrFinal c ref) :
    HeldOrFinal (s, c.2 ++ more) ref := by
  rw [HeldOrFinal, hobjects, ho.others ref href,
    lastVerdict_append fun note hnote => (hmore note hnote).2 ref href]
  refine h.imp_left ?_
  intro hheld
  obtain ⟨held, hmem, hsame⟩ := ho.held ref hheld
  rcases Multiset.mem_cons.mp (Multiset.mem_of_le hplaces hmem) with rfl | hmem
  · exact absurd hsame.symm href
  · exact ⟨held, hmem, hsame⟩

/-- After an attempt has ended or timed out, what is left to say about its task is
whether that is accounted for. -/
theorem Kept.settled {c : RuntimeEngine P × List Note} {o : Outcome P} {s : RuntimeEngine P}
    {more : List Note} {task : TaskHandle} (h : Kept c) (ho : o.Leaves c task)
    (hplaces : o.system.custody ≤ task ::ₘ s.custody) (hobjects : s.objects = o.system.objects)
    (hmore : ∀ note ∈ more, note.Concerns task)
    (hworkers : ∀ workerId going, s.workers.get? workerId = some (.executing going) →
      going.task.ref = task.ref ∨ c.1.workers.get? workerId = some (.executing going))
    (hfinal : (o.system.object task).status = .failed →
      lastVerdict (c.2 ++ more) task.ref = some false)
    (htask : HeldOrFinal (s, c.2 ++ more) task.ref) : Kept (s, c.2 ++ more) := by
  constructor
  · intro other hother
    have haccepted : .accepted other ∈ c.2 :=
      (List.mem_append.mp hother).resolve_right fun hnote => (hmore _ hnote).1 other rfl
    by_cases href : other.ref = task.ref
    · rw [href]
      exact htask
    · exact ho.accounted hplaces hobjects hmore href (h.accounted other haccepted)
  · intro workerId going hgoing hfailed
    rw [RuntimeEngine.object, hobjects] at hfailed
    by_cases href : going.task.ref = task.ref
    · rw [href] at hfailed ⊢
      exact hfinal hfailed
    · rw [ho.others _ href] at hfailed
      rw [lastVerdict_append fun note hnote => (hmore note hnote).2 _ href]
      exact h.final workerId going ((hworkers workerId going hgoing).resolve_left href) hfailed

/-- The worker is done with the attempt. -/
theorem Kept.finish {c : RuntimeEngine P × List Note} {o : Outcome P} {workerId : String}
    {attempt : Attempt} (h : Kept c)
    (hslot : c.1.workers.get? workerId = some (.executing attempt))
    (ho : o.Leaves c attempt.task ∧ o.system.Ends attempt.task) :
    Kept ((RuntimeEngine.finish workerId attempt o).system,
      c.2 ++ (RuntimeEngine.finish workerId attempt o).notes) := by
  obtain ⟨hleaves, hends⟩ := ho
  have hfinal : (o.system.object attempt.task).status = .failed →
      lastVerdict (c.2 ++ (RuntimeEngine.finish workerId attempt o).notes) attempt.task.ref =
        some false := by
    intro hfailed
    rw [RuntimeEngine.finish, ← List.append_assoc, lastVerdict_append]
    · exact hleaves.final hfailed
    · intro note hnote
      rw [List.mem_singleton.mp hnote]
      rfl
  refine h.settled hleaves ?_ rfl ?_ ?_ hfinal ?_
  · exact (RuntimeEngine.custody_finish (by rw [hleaves.workers]; exact hslot)).le
  · refine List.forall_mem_append.mpr ⟨hleaves.notes, ?_⟩
    exact List.forall_mem_singleton.mpr ⟨by simp, fun _ _ => rfl⟩
  · intro other going hgoing
    change (o.system.workers.set workerId .idle).get? other = _ at hgoing
    rw [hleaves.workers, Dict.get?_set] at hgoing
    split at hgoing
    · cases hgoing
    · exact .inr hgoing
  · rcases hends with hwaits | hcompleted | hfailed
    · exact .inl (RuntimeEngine.Waits.held hwaits)
    · exact .inr (.inl hcompleted)
    · exact .inr (.inr ⟨hfailed, hfinal hfailed⟩)

/-- A timeout fires, and the attempt goes on. -/
theorem Kept.timeout [SchedulingPolicy P] [FloatArith] {c : RuntimeEngine P × List Note}
    {env : StepEnv} {workerId : String} {attempt : Attempt} (h : Kept c)
    (hreliable : env.Reliable) (hfiring : c.1.firing env workerId = some attempt)
    (hclear : c.1.Unshadowed attempt.task) :
    Kept ((c.1.timeout env workerId).system, c.2 ++ (c.1.timeout env workerId).notes) := by
  have hleaves := leaves_handleTaskTimeout hreliable hclear
  have hslot := RuntimeEngine.firing_some hfiring
  obtain ⟨others, hbefore, hafter⟩ := RuntimeEngine.custody_setSlot
    ((c.1.setStatus attempt.task .failed).handleTaskTimeout env attempt).system
    (by rw [hleaves.workers]; exact hslot)
  obtain ⟨superseded, hsystem, hnotes⟩ := RuntimeEngine.timeout_firing hfiring
  rw [hsystem, hnotes]
  refine h.settled hleaves ?_ rfl hleaves.notes ?_ hleaves.final ?_
  · refine (le_of_eq ?_).trans (Multiset.le_cons_self _ _)
    exact hbefore.trans (hafter (.executing { attempt with startTime := none, superseded })).symm
  · intro other going hgoing
    change (((c.1.setStatus attempt.task .failed).handleTaskTimeout env
      attempt).system.workers.set workerId _).get? other = _ at hgoing
    rw [hleaves.workers, Dict.get?_set] at hgoing
    split at hgoing
    · obtain rfl := Slot.executing.inj (Option.some.inj hgoing)
      exact .inl rfl
    · exact .inr hgoing
  · refine .inl ⟨attempt.task, ?_, rfl⟩
    rw [hafter]
    exact Multiset.mem_add.mpr (.inl (Multiset.mem_singleton_self _))

end Property

/-- The note that a task was accepted comes last, when all went well. -/
theorem Outcome.accepted_andThen {P : Type} {o : Outcome P} {task other : TaskHandle}
    (ho : ∀ note ∈ o.notes, note ≠ .accepted other)
    (h : .accepted other ∈ (o.andThen fun s => { system := s, notes := [.accepted task] }).notes) :
    other = task ∧ o.result = .ok () := by
  cases hresult : o.result with
  | error e =>
    rw [Outcome.andThen_error hresult] at h
    exact absurd rfl (ho _ h)
  | ok _ =>
    rw [Outcome.andThen_ok hresult] at h
    rcases List.mem_append.mp h with hbefore | hlast
    · exact absurd rfl (ho _ hbefore)
    · exact ⟨Note.accepted.inj (List.mem_singleton.mp hlast), rfl⟩

section Moves

variable {P : Type} [SchedulingPolicy P] {sys : RuntimeEngine P} {env : StepEnv}

namespace RuntimeEngine

theorem custody_dispatch_reliable (hreliable : env.Reliable) :
    sys.custody ≤ (sys.dispatch env).system.custody := by
  unfold dispatch
  split
  · dsimp only
    obtain ⟨hstorage, hresult⟩ | ⟨taskId, task, hget, hstorage, hresult⟩ :=
      sys.queue.dequeue_cases env.queue
    · rw [custody, custody, hstorage, hresult, Option.toList_none, List.append_nil]
      exact le_rfl
    · have hbefore : (sys.queue.storage.values : Multiset TaskHandle) =
          task ::ₘ ↑(sys.queue.storage.erase taskId).values :=
        Multiset.coe_eq_coe.mpr (Dict.values_erase_perm hget)
      have hpool : ((sys.pool ++ (sys.queue.dequeue env.queue).result.toOption.toList :
          List TaskHandle) : Multiset TaskHandle) = task ::ₘ ↑sys.pool := by
        rw [hresult, (announce_logged (hreliable _) _).1]
        exact Multiset.coe_eq_coe.mpr (List.perm_append_singleton _ _)
      rw [custody, custody, hstorage, hbefore, hpool]
      simp only [Multiset.add_cons, Multiset.cons_add]
      exact le_rfl
  · exact le_rfl

omit [SchedulingPolicy P] in
theorem custody_start_reliable (hreliable : env.Reliable) (workerId : String) :
    sys.custody ≤ (sys.start env workerId).system.custody := by
  cases hoffered : sys.offered workerId with
  | none => rw [start_idle hoffered]
  | some task =>
    obtain ⟨hslot, rest, hpool⟩ := offered_eq_some.mp hoffered
    obtain ⟨others, hbefore, hafter⟩ := custody_setSlot { sys with pool := rest } hslot
    rw [start_reliable hreliable hslot hpool, custody_pool hpool, hbefore]
    refine le_of_eq (Eq.trans ?_ (hafter (.executing
      { number := sys.attempts, task, startTime := some env.time })).symm)
    rw [Slot.tasks_idle, zero_add, Slot.tasks_executing, Multiset.singleton_add]

/-- A matured task finds its place in the queue. -/
theorem held_onDelayedTaskReady (sys : RuntimeEngine P) (env : StepEnv) (task : TaskHandle)
    {ref : ℕ} (h : ref = task.ref ∨ sys.Held ref)
    (hroom : sys.queue.reached = none ∧ sys.Unshadowed task) :
    (sys.onDelayedTaskReady env task).system.Held ref := by
  rw [system_onDelayedTaskReady]
  rcases h with rfl | hheld
  · exact (waits_enqueue hroom.1).held
  · exact hheld.enqueue hroom.2

theorem Held.release {ref : ℕ} (h : sys.Held ref)
    (hroom : ∀ entry rest, sys.tracker.heap.entries = entry :: rest →
      entry.key ≤ .finite env.time → sys.queue.reached = none ∧ sys.Unshadowed entry.item) :
    (sys.release env).system.Held ref := by
  unfold RuntimeEngine.release
  split
  · exact h
  · rename_i entry rest hentries
    split
    · rename_i hdue
      refine held_onDelayedTaskReady _ env entry.item ?_ (hroom entry rest hentries hdue)
      obtain ⟨held, hmem, rfl⟩ := h
      rw [sys.custody_pop hentries] at hmem
      rcases Multiset.mem_cons.mp hmem with rfl | hmem
      · exact .inl rfl
      · exact .inr ⟨held, hmem, rfl⟩
    · exact h

variable [FloatArith] {task : TaskHandle} {admission : Admission} {delay : Number}

theorem Held.schedule {ref : ℕ} (h : sys.Held ref)
    (hclear : .finite 0 < delay ∨ sys.Unshadowed task) :
    (sys.schedule env task admission delay).system.Held ref := by
  unfold RuntimeEngine.schedule
  dsimp only
  split
  · exact h
  · rw [Outcome.system_andThen fun _ => rfl]
    split
    · rename_i hdelay
      rw [system_andThen_record]
      exact Held.addDelayedTask (show (sys.setMetadata task _).Held ref from h)
        fun hready => absurd hready (not_le.mpr hdelay)
    · rename_i hdelay
      exact Held.enqueue (show (sys.setMetadata task _).Held ref from h)
        (hclear.resolve_left hdelay)

/-- An accepted task is on its way. -/
theorem waits_schedule {other : TaskHandle}
    (h : .accepted other ∈ (sys.schedule env task admission delay).notes) :
    other = task ∧ (sys.schedule env task admission delay).system.Waits task := by
  have hlogged : ∀ event, Note.logged event none ≠ .accepted other := fun _ => (by simp)
  unfold RuntimeEngine.schedule at h ⊢
  dsimp only at h ⊢
  cases hadmitted : (admission (sys.object task).metadata).2 with
  | error e =>
    rw [hadmitted] at h
    cases h
  | ok _ =>
    rw [hadmitted] at h
    dsimp only at h ⊢
    rw [Outcome.system_andThen fun _ => rfl]
    by_cases hdelay : .finite 0 < delay
    · rw [if_pos hdelay] at h ⊢
      obtain ⟨hother, -⟩ := Outcome.accepted_andThen (forall_notes_andThen
        (forall_notes_addDelayedTask hlogged) fun _ => forall_notes_record (hlogged _)) h
      rw [system_andThen_record]
      exact ⟨hother, waits_addDelayedTask fun hready => absurd hready (not_le.mpr hdelay)⟩
    · rw [if_neg hdelay] at h ⊢
      obtain ⟨hother, hqueued⟩ := Outcome.accepted_andThen (forall_notes_enqueue hlogged) h
      refine ⟨hother, waits_enqueue ?_⟩
      by_contra hfull
      obtain ⟨-, e, hrefused⟩ := enqueue_refused env fun haccepts => hfull haccepts.1
      cases hqueued.symm.trans hrefused

end RuntimeEngine

end Moves

section Runs

variable {P : Type} [SchedulingPolicy P] [FloatArith]

/-- A task that has matured, or is retried without a delay, finds room in the
queue; no other task has its id there; and the retry engine decides about every
failure and can compute the delay. A task that is submitted is a new object. -/
def Lossless (c : RuntimeEngine P × List Note) (a : StepEnv × Action) : Prop :=
  match a.2 with
  | .schedule task _ delay => .finite 0 < delay ∨ c.1.Unshadowed task
  | .submitTask task _ _ _ _ delay =>
    task.ref ∉ (c.2.filterMap Note.accepts).map TaskHandle.ref ∧
      (.finite 0 < delay ∨ c.1.Unshadowed task)
  | .release =>
    match c.1.tracker.heap.entries with
    | [] => True
    | entry :: _ =>
      entry.key ≤ .finite a.1.time → c.1.queue.reached = none ∧ c.1.Unshadowed entry.item
  | .conclude workerId (.error error) =>
    match c.1.workers.get? workerId with
    | some (.executing attempt) => c.1.Rescheduled attempt.task error
    | _ => True
  | .timeout workerId =>
    match c.1.firing a.1 workerId with
    | some attempt =>
      (RetryEngine.shouldRetry (c.1.object attempt.task).metadata .timeout).isOk = true ∧
        c.1.Unshadowed attempt.task
    | none => True
  | _ => True

instance (sys : RuntimeEngine P) (task : TaskHandle) (error : Raised) :
    Decidable (sys.Rescheduled task error) := by
  unfold RuntimeEngine.Rescheduled
  exact match RetryEngine.shouldRetry (sys.object task).metadata error,
      (RetryEngine.prepareRetry (sys.object task)).2 with
    | .ok false, _ => instDecidableTrue
    | .ok true, .ok _ => inferInstanceAs (Decidable (_ → _ ∧ _))
    | .ok true, .error _ | .error _, _ => instDecidableFalse

instance (c : RuntimeEngine P × List Note) : ∀ a : StepEnv × Action, Decidable (Lossless c a)
  | (_, .schedule ..) => inferInstanceAs (Decidable (_ ∨ _))
  | (_, .submitTask ..) => inferInstanceAs (Decidable (_ ∧ (_ ∨ _)))
  | (env, .release) => by
    dsimp only [Lossless]
    exact match c.1.tracker.heap.entries with
      | [] => instDecidableTrue
      | _ :: _ => inferInstanceAs (Decidable (_ → _ ∧ _))
  | (_, .conclude workerId (.error error)) => by
    dsimp only [Lossless]
    exact match c.1.workers.get? workerId with
      | some (.executing attempt) =>
        inferInstanceAs (Decidable (c.1.Rescheduled attempt.task error))
      | some .idle | some .crashed | none => instDecidableTrue
  | (env, .timeout workerId) => by
    dsimp only [Lossless]
    exact match c.1.firing env workerId with
      | some _ => inferInstanceAs (Decidable (_ ∧ _))
      | none => instDecidableTrue
  | (_, .conclude _ (.ok _)) | (_, .dispatch) | (_, .start _) | (_, .respawn _) =>
    instDecidableTrue

omit [SchedulingPolicy P] [FloatArith] in
theorem Kept.idle {c : RuntimeEngine P × List Note} (h : Kept c) : Kept (c.1, c.2 ++ []) := by
  rw [List.append_nil]
  exact h

omit [SchedulingPolicy P] [FloatArith] in
theorem Kept.start {c : RuntimeEngine P × List Note} {env : StepEnv} (h : Kept c)
    (hreliable : env.Reliable) (workerId : String) :
    Kept ((c.1.start env workerId).system, c.2 ++ (c.1.start env workerId).notes) := by
  have hsilent : ∀ note ∈ (c.1.start env workerId).notes, note.Silent :=
    RuntimeEngine.forall_notes_start (fun event => silent_logged event none)
      fun _ => silent_logged _ _
  have hheld : ∀ ref, c.1.Held ref → (c.1.start env workerId).system.Held ref := fun ref href =>
    href.mono (RuntimeEngine.custody_start_reliable hreliable workerId)
  cases hoffered : c.1.offered workerId with
  | none =>
    rw [RuntimeEngine.start_idle hoffered]
    exact h.idle
  | some task =>
    obtain ⟨hslot, rest, hpool⟩ := RuntimeEngine.offered_eq_some.mp hoffered
    have hrunning : (c.1.start env workerId).system.objects =
        Function.update c.1.objects task.ref { c.1.object task with status := .running } := by
      rw [RuntimeEngine.start_reliable hreliable hslot hpool]
      rfl
    have hworkers : (c.1.start env workerId).system.workers = c.1.workers.set workerId
        (.executing { number := c.1.attempts, task, startTime := some env.time }) := by
      rw [RuntimeEngine.start_reliable hreliable hslot hpool]
      rfl
    refine h.quiet hheld (fun other hother => absurd rfl ((hsilent _ hother).1 other))
      (fun note hnote => (hsilent note hnote).2) ?_ ?_
    · intro other _
      by_cases href : other.ref = task.ref
      · have hslot : (c.1.start env workerId).system.workers.get? workerId = some (.executing
            { number := c.1.attempts, task, startTime := some env.time }) := by
          rw [hworkers, Dict.get?_set_self]
        rw [href]
        exact .inl (RuntimeEngine.held_of_executing hslot)
      · rw [hrunning, Function.update_of_ne href]
        exact .inr rfl
    · intro other going hgoing hfailed
      rw [RuntimeEngine.object, hrunning, Function.update_apply] at hfailed
      split at hfailed
      · cases hfailed
      · rename_i href
        rw [hworkers, Dict.get?_set] at hgoing
        split at hgoing
        · obtain rfl := Slot.executing.inj (Option.some.inj hgoing)
          exact absurd rfl href
        · exact ⟨hgoing, hfailed⟩

theorem Kept.submitTask {c : RuntimeEngine P × List Note} {env : StepEnv} {task : TaskHandle}
    {title : String} {taskType : TaskType} {metadata : Metadata} {admission : Admission}
    {delay : Number} (h : Kept c) (hreliable : env.Reliable)
    (hfresh : ∀ other, .accepted other ∈ c.2 → other.ref ≠ task.ref)
    (hclear : .finite 0 < delay ∨ c.1.Unshadowed task) :
    Kept ((c.1.submitTask env task title taskType metadata admission delay).system,
      c.2 ++ (c.1.submitTask env task title taskType metadata admission delay).notes) := by
  have hverdict : ∀ note ∈ (c.1.submitTask env task title taskType metadata admission delay).notes,
      ∀ ref, note.verdict ref = none :=
    RuntimeEngine.forall_notes_submitTask (fun _ _ => rfl) fun _ => rfl
  unfold RuntimeEngine.submitTask at hverdict ⊢
  by_cases hknown : c.1.taskManager.contains task.id = true
  · rw [if_pos hknown]
    exact h.idle
  rw [if_neg hknown] at hverdict ⊢
  rw [Outcome.andThen_ok (RuntimeEngine.result_record_reliable hreliable _ _ _ _)] at hverdict ⊢
  dsimp only at hverdict ⊢
  rw [RuntimeEngine.system_record] at hverdict ⊢
  obtain ⟨queue, tracker, hsystem⟩ :=
    ((c.1.register task).setObject task { metadata }).system_schedule env task admission delay
  have hpending : (((c.1.register task).setObject task { metadata }).object task).status =
      .pending := congrArg TaskObject.status ((c.1.register task).object_setObject_self rfl _)
  rw [RuntimeEngine.amend_setObject] at hsystem
  obtain ⟨object, hnew, hobjects⟩ : ∃ object, object.status = .pending ∧
      (((c.1.register task).setObject task { metadata }).schedule env task admission
        delay).system.objects = Function.update c.1.objects task.ref object :=
    ⟨_, hpending, congrArg RuntimeEngine.objects hsystem⟩
  refine h.quiet (fun ref href => RuntimeEngine.Held.schedule (show _ from href) hclear) ?_
    hverdict ?_ ?_
  · intro other hother
    rcases List.mem_append.mp hother with hsubmitted | hscheduled
    · have hsilent : ∀ note ∈ ((((c.1.register task).setObject task { metadata }).record env
          (.taskSubmitted task.id title taskType.name) none metadata.dump).notes), note.Silent :=
        RuntimeEngine.forall_notes_record (silent_logged _ none)
      exact absurd rfl ((hsilent _ hsubmitted).1 other)
    · obtain ⟨rfl, hwaits⟩ := RuntimeEngine.waits_schedule hscheduled
      exact RuntimeEngine.Waits.held hwaits
  · intro other hother
    rw [hobjects, Function.update_of_ne (hfresh other hother)]
    exact .inr rfl
  · intro workerId going hgoing hfailed
    rw [hsystem] at hgoing
    rw [RuntimeEngine.object, hobjects, Function.update_apply] at hfailed
    split at hfailed
    · cases hnew.symm.trans hfailed
    · exact ⟨hgoing, hfailed⟩

theorem Kept.schedule {c : RuntimeEngine P × List Note} {env : StepEnv} {task : TaskHandle}
    {admission : Admission} {delay : Number} (h : Kept c)
    (hclear : .finite 0 < delay ∨ c.1.Unshadowed task) :
    Kept ((c.1.schedule env task admission delay).system,
      c.2 ++ (c.1.schedule env task admission delay).notes) := by
  obtain ⟨queue, tracker, hsystem⟩ := c.1.system_schedule env task admission delay
  refine h.still (fun ref href => href.schedule hclear) ?_
    (RuntimeEngine.forall_notes_schedule (fun _ _ => rfl) fun _ => rfl) ?_ ?_
  · intro other hother
    obtain ⟨rfl, hwaits⟩ := RuntimeEngine.waits_schedule hother
    exact RuntimeEngine.Waits.held hwaits
  · intro ref
    have hobjects := congrArg RuntimeEngine.objects hsystem
    rw [hobjects, RuntimeEngine.amend]
    dsimp only
    rw [Function.update_apply]
    split
    · rename_i href
      rw [href]
      rfl
    · rfl
  · rw [hsystem]
    rfl

omit [FloatArith] in
theorem Kept.release {c : RuntimeEngine P × List Note} {env : StepEnv} (h : Kept c)
    (hroom : ∀ entry rest, c.1.tracker.heap.entries = entry :: rest →
      entry.key ≤ .finite env.time → c.1.queue.reached = none ∧ c.1.Unshadowed entry.item) :
    Kept ((c.1.release env).system, c.2 ++ (c.1.release env).notes) := by
  obtain ⟨queue, tracker, hsystem⟩ := c.1.system_release env
  have hsilent : ∀ note ∈ (c.1.release env).notes, note.Silent :=
    RuntimeEngine.forall_notes_release fun event => silent_logged event none
  refine h.still (fun ref href => href.release hroom)
    (fun other hother => absurd rfl ((hsilent _ hother).1 other))
    (fun note hnote => (hsilent note hnote).2) ?_ ?_
  · rw [hsystem]
    exact fun _ => rfl
  · rw [hsystem]

omit [FloatArith] in
theorem Kept.dispatch {c : RuntimeEngine P × List Note} {env : StepEnv} (h : Kept c)
    (hreliable : env.Reliable) :
    Kept ((c.1.dispatch env).system, c.2 ++ (c.1.dispatch env).notes) := by
  obtain ⟨queue, pool, hsystem⟩ := c.1.system_dispatch env
  have hsilent : ∀ note ∈ (c.1.dispatch env).notes, note.Silent :=
    RuntimeEngine.forall_notes_dispatch fun event => silent_logged event none
  refine h.still (fun ref href => href.mono (RuntimeEngine.custody_dispatch_reliable hreliable))
    (fun other hother => absurd rfl ((hsilent _ hother).1 other))
    (fun note hnote => (hsilent note hnote).2) ?_ ?_
  · rw [hsystem]
    exact fun _ => rfl
  · rw [hsystem]

theorem Kept.conclude {c : RuntimeEngine P × List Note} {env : StepEnv} {workerId : String}
    {result : Except Raised Unit} (h : Kept c) (hreliable : env.Reliable)
    (hrescheduled : ∀ attempt error, c.1.workers.get? workerId = some (.executing attempt) →
      result = .error error → c.1.Rescheduled attempt.task error) :
    Kept ((c.1.conclude env workerId result).system,
      c.2 ++ (c.1.conclude env workerId result).notes) := by
  by_cases hexecuting : ∃ attempt, c.1.workers.get? workerId = some (.executing attempt)
  · obtain ⟨attempt, hslot⟩ := hexecuting
    rw [RuntimeEngine.conclude_executing hslot]
    refine h.finish hslot ?_
    cases result with
    | ok _ => exact leaves_attemptSucceeded hreliable (h.final workerId attempt hslot)
    | error error => exact leaves_attemptFailed (hrescheduled attempt error hslot rfl)
  · rw [RuntimeEngine.conclude_idle fun attempt hslot => hexecuting ⟨attempt, hslot⟩]
    exact h.idle

omit [SchedulingPolicy P] [FloatArith] in
theorem Kept.respawn {c : RuntimeEngine P × List Note} {env : StepEnv} (h : Kept c)
    (workerId : String) :
    Kept ((c.1.respawn env workerId).system, c.2 ++ (c.1.respawn env workerId).notes) := by
  obtain ⟨workers, hsystem⟩ := c.1.system_respawn env workerId
  have hsilent : ∀ note ∈ (c.1.respawn env workerId).notes, note.Silent :=
    RuntimeEngine.forall_notes_respawn fun event => silent_logged event none
  refine h.quiet (fun ref href => href.mono RuntimeEngine.custody_respawn.ge)
    (fun other hother => absurd rfl ((hsilent _ hother).1 other))
    (fun note hnote => (hsilent note hnote).2) ?_ ?_
  · intro other _
    rw [hsystem]
    exact .inr rfl
  · intro other going hgoing hfailed
    have hbefore := RuntimeEngine.executing_respawn hgoing
    rw [hsystem] at hfailed
    exact ⟨hbefore, hfailed⟩

theorem Kept.advance {c : RuntimeEngine P × List Note} {a : StepEnv × Action} (h : Kept c)
    (hreliable : a.1.Reliable) (ha : Lossless c a) : Kept (Machine.advance step c a) := by
  obtain ⟨env, action⟩ := a
  rw [Machine.advance, step]
  cases action with
  | schedule task admission delay => exact h.schedule ha
  | submitTask task title taskType metadata admission delay =>
    refine h.submitTask hreliable ?_ ha.2
    intro other hother href
    exact ha.1 (List.mem_map.mpr ⟨other, mem_accepts.mpr hother, href⟩)
  | release =>
    refine h.release ?_
    intro entry rest hentries hdue
    simp only [Lossless, hentries] at ha
    exact ha hdue
  | dispatch => exact h.dispatch hreliable
  | start workerId => exact h.start hreliable workerId
  | conclude workerId result =>
    refine h.conclude hreliable ?_
    rintro attempt error hslot rfl
    simpa only [Lossless, hslot] using ha
  | timeout workerId =>
    cases hfiring : c.1.firing env workerId with
    | none =>
      rw [RuntimeEngine.perform, RuntimeEngine.timeout_idle hfiring]
      exact h.idle
    | some attempt =>
      have hclear : c.1.Unshadowed attempt.task := by
        simp only [Lossless, hfiring] at ha
        exact ha.2
      exact h.timeout hreliable hfiring hclear
  | respawn workerId => exact h.respawn workerId

omit [FloatArith] in
theorem kept_create (maxSize : Option ℤ) (poolSize : ℕ) (objects : ℕ → TaskObject) :
    Kept ((create maxSize poolSize objects : RuntimeEngine P), []) := by
  refine ⟨fun task haccepted => absurd haccepted List.not_mem_nil, ?_⟩
  intro workerId attempt hexecuting
  cases RuntimeEngine.idle_of_create hexecuting

end Runs

end MollisRuntime.Scheduling
