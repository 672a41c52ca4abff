import MollisRuntime.Scheduling.Retry
import MollisRuntime.Workflow.Orchestrator

/-!
LegacyExecutorAdapter. A worker executes a task through the adapter, which makes a
request of it for an executor of the new kind. The request carries the id, the title
and the metadata of the task; an executor looks its parameters up in the payload itself.
-/
namespace MollisRuntime.Executors

open Ordered Python Scheduling Workflow

inductive ExecutionStatus
  | queued
  | preparing
  | running
  | succeeded
  | failed
  | timedOut
  | cancelled
  | retrying
  | recovered
  deriving DecidableEq, Repr

/-- What the adapter takes from the metadata, as it finds it there. -/
structure ExecutionPolicy where
  timeoutSeconds : Value := .none
  maxRetries : Value := .int 0
  retryDelaySeconds : Value := .float 1

structure ExecutionRequest where
  executorType : String
  payload : Attrs
  policy : ExecutionPolicy := {}

/-- The error of a result is kept by its message. -/
structure ExecutionResult where
  status : ExecutionStatus
  output : Value := .none
  error : Option String := none

structure ExecutionContext where
  runtimeId : String
  taskId : String
  workerId : String
  correlationId : Value := .none
  causationId : Value := .none

/-- The hooks of the Executor port. -/
structure Executor where
  className : String
  beforeExecute : ExecutionRequest → ExecutionContext → Except Raised Unit
  executeRequest : ExecutionRequest → ExecutionContext → Except Raised ExecutionResult
  afterExecute : ExecutionRequest → ExecutionResult → ExecutionContext → Except Raised Unit
  cleanup : ExecutionRequest → ExecutionContext → Except Raised Unit

structure LegacyExecutorAdapter where
  newExecutor : Executor
  /-- `getattr(v, "timeout_seconds", None)` -/
  timeoutSeconds : Value → Value

namespace LegacyExecutorAdapter

section Execution

variable (adapter : LegacyExecutorAdapter) (task : Task)

def request : ExecutionRequest where
  executorType := adapter.newExecutor.className
  payload :=
    ((Dict.empty.set "task_id" (.str task.id)).set "title" (.str task.title)).set "metadata"
      (.dict task.metadata.entries)
  policy :=
    { timeoutSeconds := ((task.metadata.get? "timeout_policy").map adapter.timeoutSeconds).getD .none
      maxRetries := (task.metadata.get? "max_retries").getD (.int 0)
      retryDelaySeconds := (task.metadata.get? "retry_delay").getD (.float 1) }

def context : ExecutionContext where
  runtimeId := "default-runtime"
  taskId := task.id
  workerId := "LegacyWorker"
  correlationId := (task.metadata.get? "correlation_id").getD .none
  causationId := (task.metadata.get? "causation_id").getD .none

/-- The body of the `try`. -/
def attempt : Except Raised Unit := do
  let result ← adapter.newExecutor.executeRequest (adapter.request task) (context task)
  adapter.newExecutor.afterExecute (adapter.request task) result (context task)
  if result.status ≠ .succeeded then
    .error ⟨["RuntimeError", "Exception"], result.error.getD "Execution failed"⟩

/-- The cleanup comes last, and what it raises is raised instead. -/
def execute : Except Raised Unit := do
  adapter.newExecutor.beforeExecute (adapter.request task) (context task)
  let ended := adapter.attempt task
  adapter.newExecutor.cleanup (adapter.request task) (context task)
  ended

end Execution

section Parameters

variable (adapter : LegacyExecutorAdapter)

/-- The payload of a request has three keys. -/
theorem get?_payload (task : Task) (key : String) :
    (adapter.request task).payload.get? key =
      if key = "metadata" then some (.dict task.metadata.entries)
      else if key = "title" then some (.str task.title)
      else if key = "task_id" then some (.str task.id)
      else none := by
  simp only [request, Dict.get?_set, Dict.get?_empty, eq_comm]

/-- The keys under which the executors look for what to run. -/
def runKeys : List String := ["command", "callable", "function_name", "code"]

/-- The parameters of a node reach the executor exactly when there are none, but for
keys of the adapter; what is to be run never does. Admission and retries may have
changed the metadata of the task since it was dispatched. -/
theorem parameters_survive_iff (inst : WorkflowInstance) (nid : String) (node : GraphNode)
    (metadata : Attrs) :
    let resolved := resolveNodeInputs node inst.nodeOutputs
    let request := adapter.request { taskFor inst nid node with metadata }
    ((∀ key value, resolved.get? key = some value → key ≠ "task_id" → key ≠ "title" →
        request.payload.get? key = some value) ↔
      ∀ key ∈ resolved.keys, key = "task_id" ∨ key = "title" ∨
        key = "metadata" ∧ resolved.get? "metadata" = some (.dict metadata.entries)) ∧
    ∀ key ∈ runKeys, (request.payload.get? key = resolved.get? key ↔ key ∉ resolved.keys) := by
  intro resolved request
  refine ⟨⟨?_, ?_⟩, ?_⟩
  · intro hsurvive key hkey
    obtain ⟨value, hvalue⟩ := (Dict.mem_keys_iff _ _).mp hkey
    by_cases htask : key = "task_id"
    · exact .inl htask
    by_cases htitle : key = "title"
    · exact .inr (.inl htitle)
    have hpayload := hsurvive key value hvalue htask htitle
    rw [get?_payload, if_neg htitle, if_neg htask] at hpayload
    split at hpayload
    · rename_i hmetadata
      subst hmetadata
      exact .inr (.inr ⟨rfl, hvalue.trans hpayload.symm⟩)
    · cases hpayload
  · intro hkeys key value hvalue htask htitle
    have hkey := hkeys key ((Dict.mem_keys_iff _ _).mpr ⟨value, hvalue⟩)
    obtain ⟨rfl, hmetadata⟩ := (hkey.resolve_left htask).resolve_left htitle
    rw [get?_payload, if_pos rfl, ← hvalue, hmetadata]
  · intro key hkey
    have hnone : request.payload.get? key = none := by
      simp only [runKeys, List.mem_cons, List.not_mem_nil, or_false] at hkey
      rw [get?_payload]
      rcases hkey with rfl | rfl | rfl | rfl <;> rfl
    rw [hnone, eq_comm, Dict.get?_eq_none_iff]

end Parameters

end LegacyExecutorAdapter

/-- The shell executor, given what the environment makes of a command. -/
def ShellExecutor (runInEnv : ExecutionRequest → ExecutionContext → Value →
    Except Raised ExecutionResult) : Executor where
  className := "ShellExecutor"
  beforeExecute _ _ := .ok ()
  executeRequest request context :=
    let cmd := (request.payload.get? "command").getD .none
    if cmd.truthy then runInEnv request context cmd
    else .error ⟨["ValueError", "Exception"],
      "ExecutionRequest payload must contain 'command' (string or list of strings)."⟩
  afterExecute _ _ _ := .ok ()
  cleanup _ _ := .ok ()

/-- A workflow with one node, which is about to be dispatched. -/
def loneInstance (node : GraphNode) : WorkflowInstance where
  instanceId := "wf"
  workflowName := "demo"
  definition := { name := "demo", graph := { nodes := Dict.empty.set node.id node } }
  status := .running
  nodeStates := Dict.empty.set node.id .pending
  nodeOutputs := .empty
  executionPlan := { phases := [{ nodeIds := [node.id], phaseIndex := 0 }] }
  startedAt := "t0"

/-- The command of a SHELL node is in the resolved payload and not in the request. -/
theorem parameters_lost :
    let adapter : LegacyExecutorAdapter :=
      ⟨ShellExecutor fun _ _ _ => .ok { status := .succeeded }, fun _ => .none⟩
    let node : GraphNode :=
      { id := "ls", executorType := "shell", payload := Dict.empty.set "command" (.str "ls") }
    let inst := loneInstance node
    (resolveNodeInputs node inst.nodeOutputs).get? "command" = some (.str "ls") ∧
      (adapter.request (taskFor inst "ls" node)).payload.get? "command" = none :=
  ⟨rfl, LegacyExecutorAdapter.get?_payload _ _ "command"⟩

/-- Through the adapter the shell executor finds no command, whatever the task is. -/
theorem execute_shell (runInEnv : ExecutionRequest → ExecutionContext → Value →
    Except Raised ExecutionResult) (timeoutSeconds : Value → Value) (task : Task) :
    LegacyExecutorAdapter.execute ⟨ShellExecutor runInEnv, timeoutSeconds⟩ task =
      .error ⟨["ValueError", "Exception"],
        "ExecutionRequest payload must contain 'command' (string or list of strings)."⟩ := rfl

end MollisRuntime.Executors
