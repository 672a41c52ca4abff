import MollisRuntime.Scheduling.Reliable

/-!
The events of the handlers with a store that takes all of them. A handler appends
the events of what it has done, in the order in which it does it; what they say
besides their kind is the time, and for a submission the metadata.
-/
namespace MollisRuntime.Scheduling

open Ordered Python Persistence MinHeap

/-- A store whose appends succeed. -/
def StepEnv.Recording (env : StepEnv) : Prop := env.append = some fun _ => .ok ()

theorem StepEnv.Recording.reliable {env : StepEnv} (h : env.Recording) : env.Reliable := by
  intro event
  rw [log, h]

theorem StepEnv.Reliable.recording {env : StepEnv} (h : env.Reliable)
    (hstore : env.append.isSome = true) : env.Recording := by
  obtain ⟨append, happend⟩ := Option.isSome_iff_exists.mp hstore
  rw [Recording, happend]
  refine congrArg some (funext fun event => ?_)
  rw [← h event, log, happend]

/-- The event that was appended, by its kind. -/
def Note.kind : Note → Option EventKind
  | .logged event _ => some event.kind
  | _ => none

def kinds (notes : List Note) : List EventKind := notes.filterMap Note.kind

@[simp] theorem kinds_nil : kinds [] = [] := rfl

@[simp] theorem kinds_append (notes more : List Note) :
    kinds (notes ++ more) = kinds notes ++ kinds more := List.filterMap_append

@[simp] theorem kinds_logged (event : RuntimeEvent) (attempt : Option ℕ) (notes : List Note) :
    kinds (.logged event attempt :: notes) = event.kind :: kinds notes := rfl

@[simp] theorem kinds_evaluated (task : TaskHandle) (retry : Bool) (notes : List Note) :
    kinds (.evaluated task retry :: notes) = kinds notes := rfl

@[simp] theorem kinds_counted (attempt : ℕ) (completed : Bool) (notes : List Note) :
    kinds (.counted attempt completed :: notes) = kinds notes := rfl

@[simp] theorem kinds_ended (attempt : ℕ) (notes : List Note) :
    kinds (.ended attempt :: notes) = kinds notes := rfl

@[simp] theorem kinds_accepted (task : TaskHandle) (notes : List Note) :
    kinds (.accepted task :: notes) = kinds notes := rfl

namespace RuntimeEngine

variable {P : Type} {sys : RuntimeEngine P} {env : StepEnv} (hstore : env.Recording)
include hstore

theorem kinds_appended (kind : EventKind) (attempt : Option ℕ) :
    kinds (appended env kind attempt) = [kind] := by
  rw [appended, hstore]
  rfl

theorem kinds_record (sys : RuntimeEngine P) (kind : EventKind) (attempt : Option ℕ)
    (metadata : Attrs) : kinds (sys.record env kind attempt metadata).notes = [kind] := by
  unfold record
  dsimp only
  rw [hstore.reliable, hstore]
  rfl

/-- What is done next appends its events after the one that was recorded. -/
theorem kinds_andThen_record {o : Outcome P} (ho : o.result = .ok ()) (kind : EventKind)
    (attempt : Option ℕ) (metadata : Attrs) :
    kinds (o.andThen fun s => s.record env kind attempt metadata).notes =
      kinds o.notes ++ [kind] := by
  rw [Outcome.andThen_ok ho]
  dsimp only
  rw [kinds_append, kinds_record hstore]

section Start

theorem kinds_start {workerId : String} {task : TaskHandle}
    (h : sys.offered workerId = some task) :
    kinds (sys.start env workerId).notes =
      [.taskStarted task.id, .workerHeartbeat workerId env.now] := by
  obtain ⟨hslot, rest, hpool⟩ := offered_eq_some.mp h
  rw [start_reliable hstore.reliable hslot hpool]
  dsimp only
  rw [kinds_append, kinds_appended hstore, kinds_appended hstore]
  rfl

theorem kinds_respawn (sys : RuntimeEngine P) (workerId : String) :
    kinds (sys.respawn env workerId).notes =
      if sys.workers.get? workerId = some .crashed then
        [.workerFailed workerId "Worker thread crashed", .workerRecovered workerId]
      else [] := by
  unfold respawn
  split
  · rename_i hslot
    have hfirst := result_record_reliable hstore.reliable sys
      (.workerFailed workerId "Worker thread crashed") none .empty
    have hsecond : ((sys.record env (.workerFailed workerId "Worker thread crashed") none
        .empty).andThen fun s => s.record env (.workerRecovered workerId) none .empty).result =
          .ok () := by
      rw [Outcome.andThen_ok hfirst]
      exact result_record_reliable hstore.reliable _ _ _ _
    rw [if_pos hslot, Outcome.notes_caught, Outcome.andThen_ok hsecond]
    dsimp only
    rw [List.append_nil, kinds_andThen_record hstore hfirst, kinds_record hstore]
    rfl
  · rename_i hslot
    rw [if_neg hslot]
    rfl

end Start

section Queueing

/-- The task that the tracker would release. -/
def due (sys : RuntimeEngine P) (env : StepEnv) : Option TaskHandle :=
  match sys.tracker.heap.entries with
  | [] => none
  | entry :: _ => if entry.key ≤ .finite env.time then some entry.item else none

variable [SchedulingPolicy P] {task : TaskHandle}

theorem kinds_enqueue (sys : RuntimeEngine P) (task : TaskHandle) :
    kinds (sys.enqueue env task).notes =
      if sys.Accepts task then [.taskQueued task.id] else [] := by
  split
  · rename_i h
    rw [(enqueue_logged (hstore.reliable _) h).2, kinds_appended hstore]
  · rename_i h
    rw [(enqueue_refused env h).1, kinds_nil]

theorem kinds_onDelayedTaskReady (sys : RuntimeEngine P) (task : TaskHandle) :
    kinds (sys.onDelayedTaskReady env task).notes =
      if sys.Accepts task then [.taskQueued task.id, .delayedTaskReleased task.id] else [] := by
  split
  · rename_i h
    rw [onDelayedTaskReady_accepted hstore.reliable h]
    dsimp only
    rw [kinds_append, kinds_appended hstore, kinds_appended hstore]
    rfl
  · rename_i h
    rw [onDelayedTaskReady_refused h, kinds_nil]

omit hstore in
/-- A task that is due is taken from the front of the heap and handed to the queue. -/
theorem release_some (h : sys.due env = some task) : ∃ entry rest,
    sys.tracker.heap.entries = entry :: rest ∧ entry.item = task ∧
      sys.release env = { sys with tracker.heap := sys.tracker.heap.pop }.onDelayedTaskReady env
        task := by
  unfold due at h
  split at h
  · cases h
  · rename_i entry rest hentries
    split at h
    · rename_i hdue
      cases h
      refine ⟨entry, rest, hentries, rfl, ?_⟩
      unfold release
      rw [hentries]
      exact if_pos hdue
    · cases h

omit hstore in
theorem release_none (h : sys.due env = none) : sys.release env = { system := sys } := by
  unfold due at h
  unfold release
  split
  · rfl
  · rename_i entry rest hentries
    rw [hentries] at h
    split
    · rename_i hdue
      dsimp only at h
      rw [if_pos hdue] at h
      cases h
    · rfl

/-- A round of the loop tells of the task that it has taken. -/
theorem kinds_dispatch (sys : RuntimeEngine P) : ∃ taken : List TaskHandle,
    (sys.dispatch env).system.pool = sys.pool ++ taken ∧
      kinds (sys.dispatch env).notes = taken.map fun task => .taskDequeued task.id := by
  unfold dispatch
  split
  · refine ⟨(sys.queue.dequeue env.queue).result.toOption.toList, rfl, ?_⟩
    dsimp only
    cases htaken : (SchedulingPolicy.next sys.queue.policy).2.bind sys.queue.storage.get? with
    | none =>
      rw [InMemoryTaskQueue.dequeue_none htaken]
      rfl
    | some task =>
      obtain ⟨taskId, hnext, hget⟩ := Option.bind_eq_some_iff.mp htaken
      have hlog := hstore.reliable { kind := .taskDequeued task.id, timestamp := env.now }
      have htold := announce_logged hlog (.taskDequeued task.id)
      rw [InMemoryTaskQueue.dequeue_some hnext hget]
      dsimp only
      rw [htold.1, htold.2, kinds_appended hstore]
      rfl
  · exact ⟨[], (List.append_nil _).symm, rfl⟩

variable [FloatArith] {delay : Number} {error : Raised}

theorem kinds_addDelayedTask (sys : RuntimeEngine P) (task : TaskHandle) (delay : Number) :
    kinds (sys.addDelayedTask env task delay).notes =
      if delay ≤ .finite 0 ∧ sys.Accepts task then
        [.taskQueued task.id, .delayedTaskReleased task.id] else [] := by
  by_cases h : delay ≤ .finite 0
  · rw [addDelayedTask_ready h, kinds_onDelayedTaskReady hstore]
    exact if_congr (and_iff_right h).symm rfl rfl
  · rw [addDelayedTask_later h, if_neg fun hboth => h hboth.1, kinds_nil]

theorem kinds_handleTaskFailure_denied
    (h : RetryEngine.shouldRetry (sys.object task).metadata error = .ok false) :
    kinds (sys.handleTaskFailure env task error).notes = [.taskFailed task.id error.message] := by
  rw [handleTaskFailure_denied hstore.reliable h]
  dsimp only
  rw [kinds_evaluated, kinds_appended hstore]

theorem kinds_handleTaskFailure_retried {object : TaskObject}
    (h : RetryEngine.shouldRetry (sys.object task).metadata error = .ok true)
    (hprepare : RetryEngine.prepareRetry (sys.object task) = (object, .ok delay)) :
    kinds (sys.handleTaskFailure env task error).notes =
      kinds ((sys.setObject task object).addDelayedTask env task delay).notes ++
        [.taskRetried task.id (object.metadata.retryCount.toOption.getD 0),
          .retryScheduled task.id delay] := by
  rw [handleTaskFailure_retried hstore.reliable h hprepare]
  dsimp only
  rw [kinds_evaluated, kinds_append, kinds_append, kinds_appended hstore, kinds_appended hstore,
    List.append_assoc]
  rfl

/-- A timeout is reported before its failure is handled. -/
theorem kinds_handleTaskTimeout (sys : RuntimeEngine P) (attempt : Attempt) :
    kinds (sys.handleTaskTimeout env attempt).notes =
      .taskTimedOut attempt.task.id ::
        .timeoutTriggered attempt.task.id (sys.limit attempt.task) ::
          kinds (sys.countFailed.handleTaskFailure env attempt.task .timeout).notes := by
  rw [handleTaskTimeout_reliable hstore.reliable, Outcome.notes_noting, Outcome.notes_noting,
    kinds_append, kinds_append, kinds_append, kinds_appended hstore, kinds_appended hstore]
  rfl

omit hstore [SchedulingPolicy P] [FloatArith] in
/-- That a task was accepted is no event. -/
theorem kinds_andThen_accepted (o : Outcome P) (task : TaskHandle) :
    kinds (o.andThen fun s => { system := s, notes := [.accepted task] }).notes =
      kinds o.notes := by
  cases hresult : o.result with
  | error e => rw [Outcome.andThen_error hresult]
  | ok _ =>
    rw [Outcome.andThen_ok hresult]
    dsimp only
    rw [kinds_append, kinds_accepted, kinds_nil, List.append_nil]

/-- What an admitted task leads to. -/
def routed (sys : RuntimeEngine P) (task : TaskHandle) (delay : Number) : List EventKind :=
  if .finite 0 < delay then [.retryScheduled task.id delay]
  else if sys.Accepts task then [.taskQueued task.id] else []

theorem kinds_schedule (sys : RuntimeEngine P) (task : TaskHandle) (admission : Admission)
    (delay : Number) :
    kinds (sys.schedule env task admission delay).notes =
      if (admission (sys.object task).metadata).2 = .ok () then
        (sys.setMetadata task (admission (sys.object task).metadata).1).routed task delay
      else [] := by
  unfold schedule routed
  dsimp only
  split
  · rename_i e hrejected
    rw [if_neg (by simp [hrejected]), kinds_nil]
  · rename_i hadmitted
    rw [if_pos hadmitted, kinds_andThen_accepted]
    by_cases hdelay : .finite 0 < delay
    · rw [if_pos hdelay, if_pos hdelay,
        kinds_andThen_record hstore (result_addDelayedTask _ _ _ _), kinds_addDelayedTask hstore,
        if_neg fun hboth => not_le.mpr hdelay hboth.1, List.nil_append]
    · rw [if_neg hdelay, if_neg hdelay, kinds_enqueue hstore]

theorem kinds_submitTask (sys : RuntimeEngine P) (task : TaskHandle) (title : String)
    (taskType : TaskType) (metadata : Metadata) (admission : Admission) (delay : Number) :
    kinds (sys.submitTask env task title taskType metadata admission delay).notes =
      if sys.taskManager.contains task.id then []
      else .taskSubmitted task.id title taskType.name ::
        kinds (((sys.register task).setObject task { metadata }).schedule env task admission
          delay).notes := by
  unfold submitTask
  split
  · rfl
  · rw [Outcome.andThen_ok (result_record_reliable hstore.reliable _ _ _ _)]
    dsimp only
    rw [kinds_append, kinds_record hstore, system_record]
    rfl

end Queueing

end RuntimeEngine

end MollisRuntime.Scheduling
