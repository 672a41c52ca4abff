import MollisRuntime.Scheduling.Engine

/-!
Admission. A controller hands a task to its plugins one after the other. A plugin
works on the task in place or raises; whatever it raises ends the chain as an
AdmissionError.
-/
namespace MollisRuntime.Scheduling

open Ordered Python

/-- A task as it is handed in. -/
structure Submission where
  title : String
  taskType : TaskType := .python
  metadata : Metadata := {}

def Raised.admissionError (message : String) : Raised :=
  ⟨["AdmissionError", "SchedulingError", "Exception"], message⟩

/-- `admit`: the task as the plugin leaves it, and whether the plugin raised. -/
abbrev AdmissionPlugin : Type := Submission → Submission × Except Raised Unit

/-- `task.metadata.get("allow_shell", False)`, as a truth value. -/
def Submission.allowShell (task : Submission) : Bool :=
  ((task.metadata.entries.get? "allow_shell").getD (.bool false)).truthy

def MetadataMutatorPlugin.admitTask (defaultPriority : ℤ) : AdmissionPlugin := fun task =>
  let entries := task.metadata.entries
  let entries :=
    if entries.contains "priority" then entries else entries.set "priority" (.int defaultPriority)
  ({ task with metadata.entries := entries.set "admitted_by" (.str "MetadataMutatorPlugin") },
    .ok ())

def TaskValidatorPlugin.admitTask (maxTitleLength : ℤ) : AdmissionPlugin := fun task =>
  if maxTitleLength < task.title.length then
    (task, .error (.admissionError
      s!"Task title exceeds maximum length of {maxTitleLength} characters."))
  else if task.taskType = .shell ∧ task.allowShell = false then
    (task, .error (.admissionError
      "Shell tasks require explicit 'allow_shell' metadata flag for security."))
  else (task, .ok ())

/-- The plugins, in the order in which they were registered. -/
abbrev AdmissionController : Type := List AdmissionPlugin

namespace AdmissionController

/-- What the controller makes of an exception of a plugin. -/
def reraise (e : Raised) : Raised :=
  if e.classes.contains "AdmissionError" then e
  else .admissionError s!"Internal admission error: {e.message}"

def submit : AdmissionController → AdmissionPlugin
  | [], task => (task, .ok ())
  | plugin :: rest, task =>
    match plugin task with
    | (task, .ok ()) => submit rest task
    | (task, .error e) => (task, .error (reraise e))

/-- The controller that Runtime builds. -/
def standard : AdmissionController :=
  [MetadataMutatorPlugin.admitTask 0, TaskValidatorPlugin.admitTask 255]

end AdmissionController

/-- What the gate is for: a SHELL task is allowed explicitly, and no title is
longer than 255 characters. -/
structure Submission.Permitted (task : Submission) : Prop where
  shell : task.taskType = .shell → task.allowShell = true
  title : task.title.length ≤ 255

instance (task : Submission) : Decidable task.Permitted :=
  decidable_of_iff ((task.taskType = .shell → task.allowShell = true) ∧ task.title.length ≤ 255)
    ⟨fun h => ⟨h.1, h.2⟩, fun h => ⟨h.shell, h.title⟩⟩

/-- The validator lets no other task pass. -/
theorem TaskValidatorPlugin.permitted {task : Submission}
    (h : (TaskValidatorPlugin.admitTask 255 task).2 = .ok ()) :
    (TaskValidatorPlugin.admitTask 255 task).1 = task ∧ task.Permitted := by
  unfold TaskValidatorPlugin.admitTask at h ⊢
  split at h
  · cases h
  · rename_i htitle
    split at h
    · cases h
    · rename_i hshell
      rw [if_neg htitle, if_neg hshell]
      refine ⟨rfl, fun htype => ?_, ?_⟩
      · exact Bool.eq_true_of_not_eq_false fun hallow => hshell ⟨htype, hallow⟩
      · exact_mod_cast not_lt.mp htitle

end MollisRuntime.Scheduling
