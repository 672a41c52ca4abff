import MollisRuntime.Scheduling.Admission

/-!
Runtime: the task manager, a scheduler and an event store behind submit_task. The
controller that Runtime builds goes to the scheduler that it builds; a scheduler
that it is given keeps the controller it was built with. A task that is submitted
is a new object; what the admission makes of it is kept with the number of the object.
-/
namespace MollisRuntime.Scheduling

open Ordered Python Persistence

/-- The first stage of `IntelligentScheduler.schedule`. -/
def admissionStage : Option AdmissionController → AdmissionPlugin
  | none => fun task => (task, .ok ())
  | some controller => controller.submit

/-- `Task.__init__` on a title without a visible character. -/
def Raised.invalidTaskTitle : Raised :=
  ⟨["InvalidTaskTitleError", "TaskError", "Exception"], "Task title cannot be Empty."⟩

structure Runtime (P : Type) where
  /-- The controller of the scheduler. -/
  controller : Option AdmissionController
  engine : RuntimeEngine P
  tasks : ℕ → Submission := fun _ => { title := "" }
  created : ℕ := 0

/-- How a call of a method of Runtime ends. -/
structure Call (P : Type) where
  runtime : Runtime P
  notes : List Note := []
  result : Except Raised Unit := .ok ()

namespace Runtime

variable {P : Type}

/-- The controller that `schedule` asks, from the arguments of `Runtime.__init__`. -/
def consulted (admissionController : Option AdmissionController)
    (scheduler : Option (Option AdmissionController)) : Option AdmissionController :=
  match scheduler with
  | none => some (admissionController.getD .standard)
  | some own => own

def admitTask (rt : Runtime P) : AdmissionPlugin := admissionStage rt.controller

/-- The admission as it acts on the metadata. -/
def admission (rt : Runtime P) (task : Submission) : Admission := fun metadata =>
  let admitted := rt.admitTask { task with metadata }
  (admitted.1.metadata, admitted.2)

variable [SchedulingPolicy P]

/-- A started runtime. -/
def create (controller : Option AdmissionController) (maxSize : Option ℤ) (poolSize : ℕ) :
    Runtime P where
  controller
  engine := .create maxSize poolSize fun _ => {}

variable [FloatArith]

def submitTask (rt : Runtime P) (env : StepEnv) (taskId : String) (task : Submission)
    (delay : Number) : Call P :=
  if isBlank task.title then { runtime := rt, result := .error .invalidTaskTitle }
  else
    let o := rt.engine.submitTask env ⟨rt.created, taskId⟩ task.title task.taskType task.metadata
      (rt.admission task) delay
    { runtime := { rt with
        engine := o.system
        tasks := Function.update rt.tasks rt.created (rt.admitTask task).1
        created := rt.created + 1 }
      notes := o.notes
      result := o.result }

section Calls

variable {rt : Runtime P} {env : StepEnv} {taskId : String} {task : Submission} {delay : Number}

theorem submitTask_blank (h : isBlank task.title = true) :
    rt.submitTask env taskId task delay =
      { runtime := rt, result := .error .invalidTaskTitle } := if_pos h

theorem submitTask_visible (h : isBlank task.title = false) :
    rt.submitTask env taskId task delay =
      let o := rt.engine.submitTask env ⟨rt.created, taskId⟩ task.title task.taskType
        task.metadata (rt.admission task) delay
      { runtime := { rt with
          engine := o.system
          tasks := Function.update rt.tasks rt.created (rt.admitTask task).1
          created := rt.created + 1 }
        notes := o.notes
        result := o.result } := by
  rw [submitTask, h]
  rfl

end Calls

end Runtime

/-- A step of the scheduler or of a worker. -/
def Action.internal : Action → Bool
  | .schedule _ _ _ => false
  | .submitTask _ _ _ _ _ _ => false
  | _ => true

/-- A call of submit_task, or work that is going on. -/
inductive RuntimeAction
  | submitTask (taskId : String) (task : Submission) (delay : Number)
  | work (action : { action : Action // action.internal = true })

namespace Runtime

variable {P : Type} [SchedulingPolicy P] [FloatArith]

def step (rt : Runtime P) (a : StepEnv × RuntimeAction) : Runtime P × List Note :=
  match a.2 with
  | .submitTask taskId task delay =>
    ((rt.submitTask a.1 taskId task delay).runtime, (rt.submitTask a.1 taskId task delay).notes)
  | .work action =>
    ({ rt with engine := (rt.engine.perform a.1 action.1).system },
      (rt.engine.perform a.1 action.1).notes)

def run (controller : Option AdmissionController) (maxSize : Option ℤ) (poolSize : ℕ)
    (actions : List (StepEnv × RuntimeAction)) : Runtime P × List Note :=
  Machine.exec step actions (create controller maxSize poolSize, [])

end Runtime

end MollisRuntime.Scheduling
