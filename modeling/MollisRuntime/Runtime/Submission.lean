import MollisRuntime.Runtime.Wiring
import MollisRuntime.Scheduling.Recorded

/-!
Calls of submit_task that raise. The task is registered and its submission is
logged before the admission and the queue are asked, and the event carries the
metadata as it was given.
-/
namespace MollisRuntime.Scheduling

open Ordered Python Persistence

variable {P : Type} [SchedulingPolicy P] [FloatArith]

section Traces

variable {rt : Runtime P} {env : StepEnv} {taskId : String} {task : Submission} {delay : Number}

/-- A task under a new id is registered, whatever comes after. -/
theorem taskManager_submitTask (htitle : isBlank task.title = false)
    (hnew : rt.engine.taskManager.contains taskId = false) :
    (rt.submitTask env taskId task delay).runtime.engine.taskManager =
      rt.engine.taskManager.set taskId ⟨rt.created, taskId⟩ := by
  rw [Runtime.submitTask_visible htitle]
  dsimp only
  rw [RuntimeEngine.submitTask, if_neg (by rw [hnew]; exact Bool.false_ne_true), Outcome.andThen]
  split
  · rw [RuntimeEngine.system_record]
    rfl
  · dsimp only
    rw [RuntimeEngine.system_record]
    obtain ⟨queue, tracker, hsystem⟩ := ((rt.engine.register ⟨rt.created, taskId⟩).setObject
      ⟨rt.created, taskId⟩ { metadata := task.metadata }).system_schedule env
        ⟨rt.created, taskId⟩ (rt.admission task) delay
    rw [hsystem]
    rfl

/-- A call leaves no trace exactly when it raises before the task is registered: the
title is blank, or the id is taken. -/
theorem rejected_traceless_iff (rt : Runtime P) (env : StepEnv) (taskId : String)
    (task : Submission) (delay : Number) :
    (rt.submitTask env taskId task delay).runtime.engine.taskManager = rt.engine.taskManager ∧
      kinds (rt.submitTask env taskId task delay).notes = [] ↔
    isBlank task.title = true ∨ rt.engine.taskManager.contains taskId = true := by
  cases htitle : isBlank task.title with
  | true =>
    rw [Runtime.submitTask_blank htitle]
    exact iff_of_true ⟨rfl, rfl⟩ (.inl rfl)
  | false =>
    cases hnew : rt.engine.taskManager.contains taskId with
    | true =>
      rw [Runtime.submitTask_visible htitle]
      dsimp only
      rw [RuntimeEngine.submitTask, if_pos hnew]
      exact iff_of_true ⟨rfl, rfl⟩ (.inr rfl)
    | false =>
      refine iff_of_false ?_ (by rintro (h | h) <;> cases h)
      rintro ⟨hsame, -⟩
      rw [taskManager_submitTask htitle hnew] at hsame
      have hmem : taskId ∈ rt.engine.taskManager.keys := by
        rw [← hsame, Dict.mem_keys_set]
        exact .inl rfl
      rw [(Dict.contains_iff _ _).mpr hmem] at hnew
      cases hnew

end Traces

omit [SchedulingPolicy P] [FloatArith] in
/-- The standard controller rejects a SHELL task, which stays with the task manager and
in the log. -/
theorem rejected_shell_task :
    let _ : FloatArith := .exact
    let rt : Runtime FIFOPolicy := .create (Runtime.consulted none none) none 4
    let call := rt.submitTask (.recording "t0" 0) "a" { title := "rm", taskType := .shell }
      (.finite 0)
    call.result = .error (.admissionError
      "Shell tasks require explicit 'allow_shell' metadata flag for security.") ∧
    call.runtime.engine.taskManager.keys = ["a"] ∧
    kinds call.notes = [.taskSubmitted "a" "rm" "SHELL"] ∧
    ¬ (call.runtime.engine.taskManager = rt.engine.taskManager ∧ kinds call.notes = []) := by
  intro _ rt call
  have hkinds : kinds call.notes = [.taskSubmitted "a" "rm" "SHELL"] := by decide +kernel
  refine ⟨by decide +kernel, by decide +kernel, hkinds, ?_⟩
  rintro ⟨-, hnone⟩
  rw [hkinds] at hnone
  cases hnone

section Persistence

/-- The SQLite event store: its append runs json.dumps on the metadata. -/
def StepEnv.sqlite (log : EventStore) (now : String) (time : ℚ) : StepEnv where
  now
  time
  append := some fun event => ((fun _ => ()) <$> log.append event).mapError .ofPyError

omit [SchedulingPolicy P] [FloatArith] in
theorem log_sqlite_iff (log : EventStore) (now : String) (time : ℚ) (event : RuntimeEvent) :
    (StepEnv.sqlite log now time).log event = .ok () ↔ event.isJson = true := by
  rw [← log.append_returns_iff event]
  have hlog : (StepEnv.sqlite log now time).log event =
      ((fun _ => ()) <$> log.append event).mapError .ofPyError := rfl
  rw [hlog]
  cases log.append event with
  | ok log' => exact iff_of_true rfl ⟨log', rfl⟩
  | error e => exact iff_of_false (fun h => by cases h) fun ⟨_, h⟩ => by cases h

/-- What makes submit_task raise without a store. -/
def Runtime.Refuses (rt : Runtime P) (taskId : String) (task : Submission) (delay : Number) :
    Prop :=
  isBlank task.title = true ∨ rt.engine.taskManager.contains taskId = true ∨
    (rt.admitTask task).2 ≠ .ok () ∨
    ¬ .finite 0 < delay ∧ (rt.engine.queue.reached ≠ none ∨
      (SchedulingPolicy.add rt.engine.queue.policy taskId
        (rt.admitTask task).1.metadata.entries).2 ≠ .ok ())

instance (rt : Runtime P) (taskId : String) (task : Submission) (delay : Number) :
    Decidable (rt.Refuses taskId task delay) :=
  inferInstanceAs (Decidable (_ ∨ _ ∨ _ ∨ _ ∧ (_ ∨ _)))

variable {sys : RuntimeEngine P} {env : StepEnv} {task : TaskHandle}

/-- Events without metadata can be appended. -/
def StepEnv.Plain (env : StepEnv) : Prop :=
  ∀ kind, env.log { kind, timestamp := env.now } = .ok ()

omit [FloatArith] in
theorem result_enqueue_iff (hplain : env.Plain) :
    (sys.enqueue env task).result = .ok () ↔ sys.Accepts task := by
  constructor
  · intro hresult
    by_contra hrefused
    obtain ⟨-, e, herror⟩ := RuntimeEngine.enqueue_refused env hrefused
    rw [hresult] at herror
    cases herror
  · exact fun haccepts => (RuntimeEngine.enqueue_logged (hplain _) haccepts).1

omit [SchedulingPolicy P] [FloatArith] in
theorem result_andThen_record (hplain : env.Plain) {o : Outcome P} (ho : o.result = .ok ())
    (kind : EventKind) :
    (o.andThen fun s => s.record env kind none .empty).result = .ok () := by
  rw [Outcome.andThen_ok ho]
  exact (o.system.result_record env kind none .empty).trans (hplain kind)

omit [SchedulingPolicy P] [FloatArith] in
/-- The note that the task was accepted changes nothing about the result. -/
theorem result_andThen_accepted (o : Outcome P) (task : TaskHandle) :
    (o.andThen fun s => { system := s, notes := [.accepted task] }).result = o.result := by
  cases hresult : o.result with
  | error e => rw [Outcome.andThen_error hresult, hresult]
  | ok _ => rw [Outcome.andThen_ok hresult]

omit [FloatArith] in
theorem accepts_setMetadata (sys : RuntimeEngine P) (task : TaskHandle) (metadata : Metadata) :
    (sys.setMetadata task metadata).Accepts task ↔ sys.queue.reached = none ∧
      (SchedulingPolicy.add sys.queue.policy task.id metadata.entries).2 = .ok () := by
  rw [RuntimeEngine.Accepts, RuntimeEngine.setMetadata, sys.object_setObject_self rfl]
  rfl

theorem result_schedule_iff (hplain : env.Plain) (sys : RuntimeEngine P) (task : TaskHandle)
    (admission : Admission) (delay : Number) :
    (sys.schedule env task admission delay).result = .ok () ↔
      (admission (sys.object task).metadata).2 = .ok () ∧ (.finite 0 < delay ∨
        sys.queue.reached = none ∧ (SchedulingPolicy.add sys.queue.policy task.id
          (admission (sys.object task).metadata).1.entries).2 = .ok ()) := by
  unfold RuntimeEngine.schedule
  dsimp only
  split
  · rename_i e hrejected
    rw [hrejected]
    exact iff_of_false (by simp) (by simp)
  · rename_i hadmitted
    rw [result_andThen_accepted, hadmitted, eq_self, true_and]
    by_cases hdelay : .finite 0 < delay
    · rw [if_pos hdelay]
      refine iff_of_true (result_andThen_record hplain ?_ _) (.inl hdelay)
      exact RuntimeEngine.result_addDelayedTask _ _ _ _
    · rw [if_neg hdelay, result_enqueue_iff hplain, or_iff_right hdelay, accepts_setMetadata]

/-- With a store, the call returns if the submission can be appended and nothing else
is in the way. -/
theorem result_submitTask_iff (hplain : env.Plain) (rt : Runtime P) (taskId : String)
    (task : Submission) (delay : Number) :
    (rt.submitTask env taskId task delay).result = .ok () ↔
      ¬ rt.Refuses taskId task delay ∧
        env.log
          { kind := .taskSubmitted taskId task.title task.taskType.name
            timestamp := env.now
            metadata := task.metadata.dump } = .ok () := by
  unfold Runtime.Refuses
  cases htitle : isBlank task.title with
  | true =>
    rw [Runtime.submitTask_blank htitle]
    exact iff_of_false (by simp) fun h => h.1 (.inl rfl)
  | false =>
    rw [Runtime.submitTask_visible htitle]
    dsimp only
    cases hnew : rt.engine.taskManager.contains taskId with
    | true =>
      rw [RuntimeEngine.submitTask, if_pos hnew]
      exact iff_of_false (by simp) fun h => h.1 (.inr (.inl rfl))
    | false =>
      rw [RuntimeEngine.submitTask, if_neg (by rw [hnew]; exact Bool.false_ne_true)]
      rw [Outcome.andThen]
      split
      · rename_i e hlog
        rw [RuntimeEngine.result_record] at hlog
        rw [RuntimeEngine.result_record, hlog]
        exact iff_of_false (by simp) (by simp)
      · rename_i hlog
        rw [RuntimeEngine.result_record] at hlog
        have hscheduled := result_schedule_iff hplain ((rt.engine.register
          ⟨rt.created, taskId⟩).setObject ⟨rt.created, taskId⟩ { metadata := task.metadata })
          ⟨rt.created, taskId⟩ (rt.admission task) delay
        rw [RuntimeEngine.object_setObject_self _ rfl] at hscheduled
        dsimp only
        rw [RuntimeEngine.system_record, hscheduled, hlog]
        change (rt.admitTask task).2 = .ok () ∧ (_ ∨ rt.engine.queue.reached = none ∧
          (SchedulingPolicy.add rt.engine.queue.policy taskId
            (rt.admitTask task).1.metadata.entries).2 = .ok ()) ↔ _
        tauto

/-- Whether a call of submit_task raises does not depend on the SQLite store exactly
when the metadata can be dumped, or the call raises without the store already. -/
theorem persistence_transparent_iff (rt : Runtime P) (log : EventStore) (now : String) (time : ℚ)
    (taskId : String) (task : Submission) (delay : Number) :
    ((rt.submitTask (.sqlite log now time) taskId task delay).result ≠ .ok () ↔
      (rt.submitTask (.plain now time) taskId task delay).result ≠ .ok ()) ↔
    (encodeAttrs task.metadata.dump).isJson = true ∨ rt.Refuses taskId task delay := by
  have hlogged : ∀ event, (StepEnv.plain now time).log event = .ok () := fun _ => rfl
  have hplain : (StepEnv.plain now time).Plain := fun _ => hlogged _
  have hsqlite : (StepEnv.sqlite log now time).Plain := fun kind =>
    (log_sqlite_iff log now time _).mpr rfl
  rw [not_iff_not, result_submitTask_iff hplain, result_submitTask_iff hsqlite, log_sqlite_iff,
    hlogged, eq_self, and_true]
  exact and_iff_left_iff_imp.trans or_iff_not_imp_right.symm

omit [SchedulingPolicy P] [FloatArith] in
/-- A task with a retry policy. -/
theorem persistence_retry_policy :
    let _ : FloatArith := .exact
    let rt : Runtime FIFOPolicy := .create (Runtime.consulted none none) none 4
    let task : Submission :=
      { title := "job", metadata := { retryPolicy := some { maxRetries := 1 } } }
    (rt.submitTask (.plain "t0" 0) "a" task (.finite 0)).result = .ok () ∧
      (rt.submitTask (.sqlite .empty "t0" 0) "a" task (.finite 0)).result =
        .error (.typeError "Object is not JSON serializable") ∧
      ¬ ((rt.submitTask (.sqlite .empty "t0" 0) "a" task (.finite 0)).result ≠ .ok () ↔
        (rt.submitTask (.plain "t0" 0) "a" task (.finite 0)).result ≠ .ok ()) := by
  intro _ rt task
  have hplain : (rt.submitTask (.plain "t0" 0) "a" task (.finite 0)).result = .ok () := by
    decide +kernel
  have hsqlite : (rt.submitTask (.sqlite .empty "t0" 0) "a" task (.finite 0)).result =
      .error (.typeError "Object is not JSON serializable") := by
    decide +kernel
  refine ⟨hplain, hsqlite, ?_⟩
  rw [hplain, hsqlite]
  exact fun h => h.mp (by simp) rfl

end Persistence

end MollisRuntime.Scheduling
