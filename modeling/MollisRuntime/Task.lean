import MollisRuntime.Python.Values

/-!
Runtime tasks. The executor name of a graph node selects the task type, with
the Python executor for every name that is not a task type.
-/
namespace MollisRuntime

open Python

inductive TaskStatus
  | pending
  | running
  | completed
  | failed
  deriving DecidableEq, Repr

def TaskStatus.value : TaskStatus → String
  | .pending => "Pending"
  | .running => "Running"
  | .completed => "Completed"
  | .failed => "Failed"

theorem TaskStatus.value_injective : Function.Injective TaskStatus.value := by
  intro a b h
  cases a <;> cases b <;> first | rfl | (exfalso; revert h; decide)

inductive TaskType
  | python
  | browser
  | shell
  deriving DecidableEq, Repr

def TaskType.name : TaskType → String
  | .python => "PYTHON"
  | .browser => "BROWSER"
  | .shell => "SHELL"

def TaskType.value : TaskType → String
  | .python => "python"
  | .browser => "browser"
  | .shell => "shell"

/-- `executor_type.lower()`; only ASCII letters can make one of the three names. -/
def lower (s : String) : String := String.ofList (s.toList.map Char.toLower)

def TaskType.ofExecutor (executorType : String) : TaskType :=
  if lower executorType = "python" then .python
  else if lower executorType = "browser" then .browser
  else if lower executorType = "shell" then .shell
  else .python

/-- `c.isspace()` -/
def isSpace (c : Char) : Bool :=
  let n := c.toNat
  (9 ≤ n && n ≤ 13) || (28 ≤ n && n ≤ 32) || n = 0x85 || n = 0xA0 || n = 0x1680 ||
    (0x2000 ≤ n && n ≤ 0x200A) || n = 0x2028 || n = 0x2029 || n = 0x202F || n = 0x205F ||
    n = 0x3000

/-- `not title.strip()` -/
def isBlank (title : String) : Bool := title.toList.all isSpace

structure Task where
  id : String
  title : String
  taskType : TaskType := .python
  metadata : Attrs := .empty
  status : TaskStatus := .pending

end MollisRuntime
