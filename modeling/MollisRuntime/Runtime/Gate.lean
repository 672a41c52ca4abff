import MollisRuntime.Runtime.Wiring
import MollisRuntime.Scheduling.Custody

/-!
The admission gate. A task comes to wait in the queue or with the delayed tasks
only by its submission, so the gate holds as long as the controller of the
scheduler lets permitted tasks pass only. The standard controller does; it is not
asked by a scheduler that the runtime was given.
-/
namespace MollisRuntime.Scheduling

open Ordered Python Persistence MinHeap

variable {P : Type}

/-- The task is in the scheduler's queue or among its delayed tasks. -/
def RuntimeEngine.Scheduled (sys : RuntimeEngine P) (task : TaskHandle) : Prop :=
  task ∈ sys.queue.storage.values ∨ task ∈ sys.tracker.tasks

/-- No task that is scheduled should not have been let in. -/
def Runtime.GateHeld (rt : Runtime P) : Prop :=
  ∀ task, rt.engine.Scheduled task → (rt.tasks task.ref).Permitted

theorem RuntimeEngine.Scheduled.mem_custody {sys : RuntimeEngine P} {task : TaskHandle}
    (h : sys.Scheduled task) : task ∈ sys.custody := by
  simp only [RuntimeEngine.custody, Multiset.mem_add, Multiset.mem_coe]
  exact .inl (.inl h)

variable [SchedulingPolicy P]

/-- The call gets as far as the queue or the delayed tasks. -/
def Runtime.LetIn (rt : Runtime P) (env : StepEnv) (taskId : String) (task : Submission)
    (delay : Number) : Prop :=
  isBlank task.title = false ∧ rt.engine.taskManager.contains taskId = false ∧
    env.log
      { kind := .taskSubmitted taskId task.title task.taskType.name
        timestamp := env.now
        metadata := task.metadata.dump } = .ok () ∧
    (rt.admitTask task).2 = .ok () ∧ (.finite 0 < delay ∨ rt.engine.queue.reached = none)

variable [FloatArith]

section Engine

variable {sys : RuntimeEngine P} {env : StepEnv} {task : TaskHandle}

/-- An admitted task waits for its time, or there is room in the queue for it. -/
theorem scheduled_schedule {admission : Admission} {delay : Number}
    (hadmitted : (admission (sys.object task).metadata).2 = .ok ())
    (hroom : .finite 0 < delay ∨ sys.queue.reached = none) :
    (sys.schedule env task admission delay).system.Scheduled task := by
  unfold RuntimeEngine.schedule
  dsimp only
  rw [hadmitted]
  dsimp only
  rw [Outcome.system_andThen fun _ => rfl]
  by_cases hdelay : .finite 0 < delay
  · rw [if_pos hdelay, RuntimeEngine.system_andThen_record,
      RuntimeEngine.addDelayedTask_later (not_le.mpr hdelay)]
    exact .inr (((file_perm _ _).map Entry.item).mem_iff.mpr List.mem_cons_self)
  · rw [if_neg hdelay]
    have hstorage : ((sys.setMetadata task (admission (sys.object task).metadata).1).enqueue env
        task).system.queue.storage = sys.queue.storage.set task.id task :=
      InMemoryTaskQueue.storage_enqueue.trans (if_pos (hroom.resolve_left hdelay))
    refine .inl (Dict.mem_values_iff.mpr ⟨task.id, ?_⟩)
    rw [hstorage, Dict.get?_set_self]

/-- A call that does not get that far moves no task. -/
theorem custody_schedule_refused {admission : Admission} {delay : Number}
    (h : (admission (sys.object task).metadata).2 = .ok () →
      ¬ .finite 0 < delay ∧ sys.queue.reached ≠ none) :
    (sys.schedule env task admission delay).system.custody = sys.custody := by
  unfold RuntimeEngine.schedule
  dsimp only
  split
  · rfl
  · rename_i hadmitted
    obtain ⟨hdelay, hfull⟩ := h hadmitted
    obtain ⟨bound, hbound⟩ := Option.ne_none_iff_exists'.mp hfull
    have hqueue : ∀ s : RuntimeEngine P, s.queue = sys.queue →
        (s.enqueue env task).system.custody = s.custody := by
      intro s hs
      rw [RuntimeEngine.system_enqueue,
        InMemoryTaskQueue.enqueue_full (by rw [hs]; exact hbound)]
    rw [Outcome.system_andThen fun _ => rfl, if_neg hdelay]
    exact hqueue _ rfl

end Engine

section Calls

variable {rt : Runtime P} {env : StepEnv} {taskId : String} {task : Submission} {delay : Number}

/-- The event of the submission is appended, and the admission is asked about the metadata. -/
theorem engine_submitTask (htitle : isBlank task.title = false)
    (hnew : rt.engine.taskManager.contains taskId = false) :
    (rt.submitTask env taskId task delay).runtime.engine =
      ((((rt.engine.register ⟨rt.created, taskId⟩).setObject ⟨rt.created, taskId⟩
        { metadata := task.metadata }).record env (.taskSubmitted taskId task.title
          task.taskType.name) none task.metadata.dump).andThen fun s =>
        s.schedule env ⟨rt.created, taskId⟩ (rt.admission task) delay).system := by
  unfold Runtime.submitTask RuntimeEngine.submitTask
  rw [htitle, hnew]
  rfl

theorem scheduled_of_letIn (h : rt.LetIn env taskId task delay) :
    (rt.submitTask env taskId task delay).runtime.engine.Scheduled ⟨rt.created, taskId⟩ := by
  obtain ⟨htitle, hnew, hlogged, hadmitted, hroom⟩ := h
  rw [engine_submitTask htitle hnew, Outcome.andThen_ok]
  · dsimp only
    rw [RuntimeEngine.system_record]
    refine scheduled_schedule ?_ hroom
    rw [RuntimeEngine.object_setObject_self _ rfl]
    exact hadmitted
  · rw [RuntimeEngine.result_record]
    exact hlogged

theorem custody_of_not_letIn (h : ¬ rt.LetIn env taskId task delay) :
    (rt.submitTask env taskId task delay).runtime.engine.custody = rt.engine.custody := by
  cases htitle : isBlank task.title with
  | true => rw [Runtime.submitTask_blank htitle]
  | false =>
    cases hnew : rt.engine.taskManager.contains taskId with
    | true =>
      rw [Runtime.submitTask_visible htitle]
      dsimp only
      rw [RuntimeEngine.submitTask, if_pos hnew]
    | false =>
      rw [engine_submitTask htitle hnew, Outcome.andThen]
      split
      · rw [RuntimeEngine.system_record]
        rfl
      · rename_i hlogged
        dsimp only
        rw [RuntimeEngine.system_record, custody_schedule_refused]
        · rfl
        · rw [RuntimeEngine.object_setObject_self _ rfl]
          intro hadmitted
          rw [RuntimeEngine.result_record] at hlogged
          rw [← not_or]
          exact fun hroom => h ⟨htitle, hnew, hlogged, hadmitted, hroom⟩

end Calls

section Runs

/-- A task that is let in is permitted. -/
def Guarded (c : Runtime P × List Note) (a : StepEnv × RuntimeAction) : Prop :=
  match a.2 with
  | .submitTask taskId task delay =>
    c.1.LetIn a.1 taskId task delay → (c.1.admitTask task).1.Permitted
  | .work _ => True

/-- Whatever is held somewhere was created and permitted. -/
def GateKept (rt : Runtime P) : Prop :=
  ∀ task ∈ rt.engine.custody, task.ref < rt.created ∧ (rt.tasks task.ref).Permitted

omit [SchedulingPolicy P] [FloatArith] in
theorem GateKept.gateHeld {rt : Runtime P} (h : GateKept rt) : rt.GateHeld :=
  fun task hscheduled => (h task hscheduled.mem_custody).2

/-- The tasks that a call holds were held before, or it lets in the one that it creates. -/
theorem mem_custody_submitTask {rt : Runtime P} {env : StepEnv} {taskId : String}
    {task : Submission} {delay : Number} {held : TaskHandle}
    (h : held ∈ (rt.submitTask env taskId task delay).runtime.engine.custody) :
    held ∈ rt.engine.custody ∨
      held = ⟨rt.created, taskId⟩ ∧ rt.LetIn env taskId task delay := by
  by_cases hletIn : rt.LetIn env taskId task delay
  · rw [engine_submitTask hletIn.1 hletIn.2.1] at h
    have hsubmitted : held ∈ (rt.engine.submitTask env ⟨rt.created, taskId⟩ task.title
        task.taskType task.metadata (rt.admission task) delay).system.custody := by
      rw [RuntimeEngine.submitTask, hletIn.2.1]
      exact h
    rcases Multiset.mem_cons.mp (Multiset.mem_of_le RuntimeEngine.custody_submitTask hsubmitted)
      with hnew | hold
    · exact .inr ⟨hnew, hletIn⟩
    · exact .inl hold
  · rw [custody_of_not_letIn hletIn] at h
    exact .inl h

theorem GateKept.advance {c : Runtime P × List Note} (h : GateKept c.1)
    (a : StepEnv × RuntimeAction) (ha : Guarded c a) :
    GateKept (Machine.advance Runtime.step c a).1 := by
  obtain ⟨env, action⟩ := a
  cases action with
  | submitTask taskId task delay =>
    intro held hheld
    change held.ref < (c.1.submitTask env taskId task delay).runtime.created ∧
      ((c.1.submitTask env taskId task delay).runtime.tasks held.ref).Permitted
    rcases mem_custody_submitTask hheld with hold | ⟨rfl, hletIn⟩
    · obtain ⟨hcreated, hpermitted⟩ := h held hold
      unfold Runtime.submitTask
      split
      · exact ⟨hcreated, hpermitted⟩
      · dsimp only
        rw [Function.update_of_ne hcreated.ne]
        exact ⟨hcreated.trans (Nat.lt_succ_self _), hpermitted⟩
    · rw [Runtime.submitTask_visible hletIn.1]
      dsimp only
      rw [Function.update_self]
      exact ⟨Nat.lt_succ_self _, ha hletIn⟩
  | work action =>
    obtain ⟨action, hinternal⟩ := action
    intro task htask
    refine h task ((RuntimeEngine.mem_custody_perform htask).resolve_left ?_)
    cases action with
    | schedule => cases hinternal
    | submitTask => cases hinternal
    | _ => exact Multiset.notMem_zero task

/-- The gate holds throughout a run exactly when every task that is let in is permitted. -/
theorem gateHeld_iff_along (controller : Option AdmissionController) (maxSize : Option ℤ)
    (poolSize : ℕ) (actions : List (StepEnv × RuntimeAction)) :
    (∀ before, before <+: actions →
      (Runtime.run controller maxSize poolSize before : Runtime P × List Note).1.GateHeld) ↔
    Machine.Along Runtime.step Guarded actions
      ((Runtime.create controller maxSize poolSize : Runtime P), []) := by
  refine Machine.forall_prefix_iff_along_of (fun c : Runtime P × List Note => GateKept c.1)
    (fun c => c.1.GateHeld) (fun _ h => h.gateHeld) (fun _ a h => h.advance a) ?_ ?_
  · rintro c ⟨env, action⟩ - hheld
    cases action with
    | work action => trivial
    | submitTask taskId task delay =>
      intro hletIn
      have hpermitted := hheld ⟨c.1.created, taskId⟩ (scheduled_of_letIn hletIn)
      change ((c.1.submitTask env taskId task delay).runtime.tasks c.1.created).Permitted
        at hpermitted
      rw [Runtime.submitTask_visible hletIn.1] at hpermitted
      dsimp only at hpermitted
      rw [Function.update_self] at hpermitted
      exact hpermitted
  · intro task htask
    have hnone : (Runtime.create controller maxSize poolSize : Runtime P).engine.custody = 0 :=
      RuntimeEngine.custody_create
    rw [hnone] at htask
    exact absurd htask (Multiset.notMem_zero task)

/-- A scheduler with this controller lets permitted tasks in only. -/
def Enforces (controller : Option AdmissionController) : Prop :=
  ∀ task : Submission, isBlank task.title = false → (admissionStage controller task).2 = .ok () →
    (admissionStage controller task).1.Permitted

omit [SchedulingPolicy P] [FloatArith] in
theorem enforces_standard : Enforces (Runtime.consulted none none) := by
  intro task _ hadmitted
  change (AdmissionController.submit [TaskValidatorPlugin.admitTask 255]
    (MetadataMutatorPlugin.admitTask 0 task).1).2 = .ok () at hadmitted
  change (AdmissionController.submit [TaskValidatorPlugin.admitTask 255]
    (MetadataMutatorPlugin.admitTask 0 task).1).1.Permitted
  generalize (MetadataMutatorPlugin.admitTask 0 task).1 = mutated at hadmitted ⊢
  unfold AdmissionController.submit at hadmitted ⊢
  split at hadmitted
  · rename_i validated hvalidated
    obtain ⟨hsame, hpermitted⟩ :=
      TaskValidatorPlugin.permitted (congrArg Prod.snd hvalidated)
    rw [hvalidated] at hsame
    obtain rfl : validated = mutated := hsame
    exact hpermitted
  · cases hadmitted

theorem controller_run (controller : Option AdmissionController) (maxSize : Option ℤ)
    (poolSize : ℕ) (actions : List (StepEnv × RuntimeAction)) :
    (Runtime.run controller maxSize poolSize actions : Runtime P × List Note).1.controller =
      controller := by
  refine Machine.exec_preserves (fun c : Runtime P × List Note => c.1.controller = controller) ?_
    rfl actions
  rintro c ⟨env, action⟩ h
  cases action with
  | work action => exact h
  | submitTask taskId task delay =>
    refine Eq.trans ?_ h
    change (c.1.submitTask env taskId task delay).runtime.controller = _
    unfold Runtime.submitTask
    split <;> rfl

/-- Whatever scheduler the runtime is given: the gate holds throughout a run exactly
when each task that is let in is permitted, and it holds in all runs exactly when the
controller that the scheduler asks lets permitted tasks pass only. -/
theorem gate_held_iff (scheduler : Option (Option AdmissionController)) (maxSize : Option ℤ)
    (poolSize : ℕ) :
    (∀ actions, (∀ before, before <+: actions →
        (Runtime.run (Runtime.consulted none scheduler) maxSize poolSize before :
          Runtime P × List Note).1.GateHeld) ↔
      Machine.Along Runtime.step Guarded actions
        ((Runtime.create (Runtime.consulted none scheduler) maxSize poolSize : Runtime P), [])) ∧
    ((∀ actions, (Runtime.run (Runtime.consulted none scheduler) maxSize poolSize actions :
        Runtime P × List Note).1.GateHeld) ↔ Enforces (Runtime.consulted none scheduler)) := by
  refine ⟨gateHeld_iff_along _ maxSize poolSize, ?_, ?_⟩
  · intro hheld task htitle hadmitted
    -- a task with a delay always gets in
    have hguarded := (gateHeld_iff_along _ maxSize poolSize
      [(.plain "" 0, .submitTask "" task (.finite 1))]).mp fun before _ => hheld before
    exact hguarded.1 ⟨htitle, rfl, rfl, hadmitted, .inl (by decide)⟩
  · intro henforces actions
    refine (gateHeld_iff_along _ maxSize poolSize actions).mpr ?_ actions (List.prefix_refl _)
    refine Machine.along_iff_splits.mpr ?_
    rintro before ⟨env, action⟩ later -
    cases action with
    | work action => trivial
    | submitTask taskId task delay =>
      intro hletIn
      have hcontroller : (Machine.exec Runtime.step before
          ((Runtime.create (Runtime.consulted none scheduler) maxSize poolSize : Runtime P),
            [])).1.controller = Runtime.consulted none scheduler :=
        controller_run _ maxSize poolSize before
      have hadmitted := hletIn.2.2.2.1
      rw [Runtime.admitTask, hcontroller] at hadmitted ⊢
      exact henforces task hletIn.1 hadmitted

end Runs

omit [FloatArith] in
/-- A scheduler that was built without a controller. -/
theorem gate_bypassed :
    let _ : FloatArith := .exact
    let rt := (Runtime.run (Runtime.consulted none (some none)) none 1
      [(.plain "t0" 0, .submitTask "a" { title := "rm", taskType := .shell } (.finite 0))] :
        Runtime FIFOPolicy × List Note).1
    ¬ rt.GateHeld ∧ rt.engine.queue.storage.values = [⟨0, "a"⟩] ∧
      (rt.tasks 0).taskType = .shell ∧ (rt.tasks 0).allowShell = false := by
  intro _ rt
  have hstored : rt.engine.queue.storage.values = [⟨0, "a"⟩] := by decide +kernel
  refine ⟨fun hheld => ?_, hstored, by decide +kernel, by decide +kernel⟩
  have hpermitted := hheld ⟨0, "a"⟩ (.inl (by rw [hstored]; exact List.mem_cons_self))
  exact absurd (hpermitted.shell (by decide +kernel)) (by decide +kernel)

end MollisRuntime.Scheduling
