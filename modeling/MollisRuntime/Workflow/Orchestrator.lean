import MollisRuntime.Library.Machine
import MollisRuntime.Persistence.Events
import MollisRuntime.Task
import MollisRuntime.Workflow.Codec
import MollisRuntime.Workflow.Planner

/-!
The workflow orchestrator. Every operation loads the instance from its row,
works on that copy and saves it again; what it hands to the scheduler before an
exception stays handed over, while the row keeps the last checkpoint. Clock
readings and the answers of `scheduler.schedule` come from the environment.
-/
namespace MollisRuntime.Workflow

open Ordered Python Persistence

/-- The rows of the workflow_instances table, by instance id. Only
`checkpointWorkflow` writes them, so each one is the dump of an instance. -/
structure Store where
  rows : Dict String Value
  written : ∀ id row, rows.get? id = some row →
    ∃ inst : WorkflowInstance, inst.instanceId = id ∧ jsonPayload inst.toDict = .ok row

namespace Store

def empty : Store := ⟨.empty, by simp⟩

/-- INSERT OR REPLACE of an instance's dump. -/
def replace (store : Store) (inst : WorkflowInstance) (row : Value)
    (h : jsonPayload inst.toDict = .ok row) : Store where
  rows := store.rows.set inst.instanceId row
  written := by
    intro id row' hrow
    rw [Dict.get?_set] at hrow
    split at hrow
    · rename_i hid
      cases hrow
      exact ⟨inst, hid, h⟩
    · exact store.written id row' hrow

end Store

/-- A `str(uuid4())`, of which the code uses that it is not empty. -/
structure Uuid where
  val : String
  ne_empty : val ≠ ""

/-- What one operation meets outside: the clock, and whether the scheduler
accepts each task. Tasks of one pass have distinct ids, so any behaviour of
the scheduler during the pass is such a function. -/
structure Env where
  now : String
  schedule : Task → Except PyError Unit

/-- The scheduler never raises. -/
def Env.Accepting (env : Env) : Prop := ∀ task, env.schedule task = .ok ()

/-- One accepted call of `scheduler.schedule`: the instance and the node it is
for, and the instance's node states at that moment. -/
structure Submission where
  instanceId : String
  nodeId : String
  task : Task
  nodeStates : Dict String NodeState

/-- What an operation leaves behind, also when it raises: the rows, the accepted
tasks, and the task ids it looked up in the scheduler's queue to cancel them. -/
structure Outcome (α : Type) where
  store : Store
  submitted : List Submission := []
  queueCancels : List String := []
  result : Except PyError α

/-- Whether a node state entry is SUCCEEDED or SKIPPED. -/
def doneAt (states : Dict String NodeState) (n : String) : Bool :=
  match states.get? n with
  | some s => s.isDone
  | none => false

section Persisting

/-- Both payloads are dumped inside one transaction, so an exception leaves the
rows as they were. The workflow_definitions table is only ever written. -/
def checkpointWorkflow (store : Store) (inst : WorkflowInstance) : Except PyError Store := do
  let _ ← jsonPayload inst.definition.toDict
  match h : jsonPayload inst.toDict with
  | .error e => .error e
  | .ok row => return store.replace inst row h

def loadInstance (store : Store) (instanceId : String) : Except PyError WorkflowInstance :=
  match store.rows.get? instanceId with
  | none =>
      .error (.valueError ("No WorkflowInstance checkpoint found for: " ++ instanceId))
  | some row => WorkflowInstance.fromDict row

end Persisting

section Dispatching

/-- One input: the named output, or the default where that gives None. -/
def NodeInput.resolve (input : NodeInput) (outputs : Dict String Attrs) : Value :=
  let val := match input.sourceNodeId with
    | none => Value.none
    | some src =>
      if src = "" then Value.none
      else match outputs.get? src with
        | none => Value.none
        | some frame =>
          match input.outputKey with
          | none => Value.none
          | some key => (frame.get? key).getD .none
  match val with
  | .none => input.defaultValue
  | v => v

def resolveNodeInputs (node : GraphNode) (outputs : Dict String Attrs) : Attrs :=
  node.dataMapping.inputMappings.entries.foldl
    (fun resolved e => resolved.set e.1 (e.2.resolve outputs)) node.payload

/-- The node's own payload is merged last, over the correlation keys. The title
contains a colon, so it is never blank. -/
def taskFor (inst : WorkflowInstance) (nid : String) (node : GraphNode) : Task where
  id := inst.instanceId ++ "_" ++ nid
  title := inst.workflowName ++ ":" ++ nid
  taskType := TaskType.ofExecutor node.executorType
  metadata :=
    (((Dict.empty.set "workflow_instance_id" (.str inst.instanceId)).set "node_id"
      (.str nid)).set "payload"
      (.dict (resolveNodeInputs node inst.nodeOutputs).entries)).setAll node.payload.entries

/-- `node_states[p]` for one parent after the other, up to the first not done. -/
def parentsReady (states : Dict String NodeState) : List String → Except PyError Bool
  | [] => .ok true
  | p :: ps =>
      match states.get? p with
      | none => .error (.keyError p)
      | some s => if s.isDone then parentsReady states ps else .ok false

/-- The loop over node_states: the visited node may become RUNNING, and later
visits see it so. An exception ends the loop with what was accepted so far. -/
def dispatchLoop (env : Env) (deps : Dict String (List String)) :
    List String → WorkflowInstance → List Submission × Except PyError WorkflowInstance
  | [], inst => ([], .ok inst)
  | nid :: rest, inst =>
      match inst.nodeStates.get? nid with
      | some .pending =>
        match deps.get? nid with
        | none => ([], .error (.keyError nid))
        | some parents =>
          match parentsReady inst.nodeStates parents with
          | .error e => ([], .error e)
          | .ok false => dispatchLoop env deps rest inst
          | .ok true =>
            match inst.definition.graph.nodes.get? nid with
            | none => ([], .error (.keyError nid))
            | some node =>
              let inst' := { inst with nodeStates := inst.nodeStates.set nid .running }
              let task := taskFor inst' nid node
              match env.schedule task with
              | .error e => ([], .error e)
              | .ok () =>
                let (submitted, result) := dispatchLoop env deps rest inst'
                (⟨inst.instanceId, nid, task, inst'.nodeStates⟩ :: submitted, result)
      | _ => dispatchLoop env deps rest inst

def dispatchEligibleNodes (env : Env) (store : Store) (inst : WorkflowInstance) :
    Outcome WorkflowInstance :=
  if inst.status ≠ .running then { store, result := .ok inst }
  else
    let graph := inst.definition.graph
    match Kahn.parentsOf graph.emptyLists graph.edgePairs with
    | .error k => { store, result := .error (.keyError k) }
    | .ok deps =>
      match dispatchLoop env deps inst.nodeStates.keys inst with
      | (submitted, .error e) => { store, submitted, result := .error e }
      | (submitted, .ok inst') =>
        match checkpointWorkflow store inst' with
        | .error e => { store, submitted, result := .error e }
        | .ok store' => { store := store', submitted, result := .ok inst' }

end Dispatching

section Operations

def startOutputs (inputs : Attrs) : Dict String Attrs :=
  if inputs.entries = [] then .empty else Dict.empty.set "workflow_inputs" inputs

/-- The instance that `start_workflow` saves first. -/
def initialInstance (now : String) (uuid : Uuid) (definition : WorkflowDefinition)
    (inputs : Attrs) (executionPlan : ExecutionPlan) : WorkflowInstance where
  instanceId := uuid.val
  workflowName := definition.name
  definition
  status := .running
  nodeStates := .fromKeys definition.graph.nodeIds .pending
  nodeOutputs := startOutputs inputs
  executionPlan
  startedAt := now

def startWorkflow (env : Env) (store : Store) (uuid : Uuid) (definition : WorkflowDefinition)
    (inputs : Attrs := .empty) : Outcome WorkflowInstance :=
  match WorkflowPlanner.plan definition with
  | .error e => { store, result := .error e }
  | .ok executionPlan =>
    let inst := initialInstance env.now uuid definition inputs executionPlan
    match checkpointWorkflow store inst with
    | .error e => { store, result := .error e }
    | .ok store' => dispatchEligibleNodes env store' inst

def pauseWorkflow (store : Store) (instanceId : String) : Outcome WorkflowInstance :=
  match loadInstance store instanceId with
  | .error e => { store, result := .error e }
  | .ok inst =>
    if inst.status = .running then
      let inst' := { inst with status := .paused }
      match checkpointWorkflow store inst' with
      | .error e => { store, result := .error e }
      | .ok store' => { store := store', result := .ok inst' }
    else { store, result := .ok inst }

def resumeWorkflow (env : Env) (store : Store) (instanceId : String) :
    Outcome WorkflowInstance :=
  match loadInstance store instanceId with
  | .error e => { store, result := .error e }
  | .ok inst =>
    if inst.status = .paused then
      let inst' := { inst with status := .running }
      match checkpointWorkflow store inst' with
      | .error e => { store, result := .error e }
      | .ok store' => dispatchEligibleNodes env store' inst'
    else { store, result := .ok inst }

/-- The states that cancelling overwrites. -/
def NodeState.isCancellable : NodeState → Bool
  | .pending => true
  | .running => true
  | _ => false

/-- Every open node and the instance itself CANCELLED. -/
def cancelNodes (now : String) (inst : WorkflowInstance) : WorkflowInstance :=
  { inst with
    status := .cancelled
    nodeStates := inst.nodeStates.mapVal fun s => if s.isCancellable then .cancelled else s
    completedAt := some now }

def cancelWorkflow (env : Env) (store : Store) (instanceId : String) :
    Outcome WorkflowInstance :=
  match loadInstance store instanceId with
  | .error e => { store, result := .error e }
  | .ok inst =>
    if inst.status = .running ∨ inst.status = .paused then
      let cancelled := inst.nodeStates.entries.filter fun e => e.2.isCancellable
      let queueCancels := cancelled.map fun e => instanceId ++ "_" ++ e.1
      let inst' := cancelNodes env.now inst
      match checkpointWorkflow store inst' with
      | .error e => { store, queueCancels, result := .error e }
      | .ok store' => { store := store', queueCancels, result := .ok inst' }
    else { store, result := .ok inst }

/-- `graph.nodes[node_id].policy` with the workflow's policy behind it. -/
def failurePolicyAt (definition : WorkflowDefinition) (nid : String) :
    Except PyError FailurePolicy :=
  match definition.graph.nodes.get? nid with
  | none => .error (.keyError nid)
  | some node => .ok (definition.failureHandling node)

/-- The first half of `on_runtime_event`: what the event does to its node, and
the workflow failing with it. -/
def handleEvent (now : String) (inst : WorkflowInstance) (event : RuntimeEvent) (nid : String) :
    Except PyError WorkflowInstance :=
  if event.isCompletion then
    .ok { inst with
      nodeStates := inst.nodeStates.set nid .succeeded
      nodeOutputs := inst.nodeOutputs.set nid event.outputFrame }
  else if event.isFailure then do
    let policy ← failurePolicyAt inst.definition nid
    if policy = .ignore then
      return { inst with nodeStates := inst.nodeStates.set nid .skipped }
    else
      return { inst with
        nodeStates := inst.nodeStates.set nid .failed
        status := .failed
        completedAt := some now }
  else .ok inst

/-- The second half: a running workflow without open nodes has succeeded. -/
def completeIfDone (now : String) (inst : WorkflowInstance) : WorkflowInstance :=
  if (inst.nodeStates.entries.all fun e => !e.2.isOpen) ∧ inst.status = .running then
    { inst with status := .succeeded, completedAt := some now }
  else inst

def onRuntimeEvent (env : Env) (store : Store) (event : RuntimeEvent) : Outcome Unit :=
  match event.workflowInstanceId, event.nodeId with
  | some instanceId, some nid =>
    match loadInstance store instanceId with
    | .error e => { store, result := .error e }
    | .ok inst =>
      if inst.status ≠ .running then { store, result := .ok () }
      else match handleEvent env.now inst event nid with
        | .error e => { store, result := .error e }
        | .ok handled =>
          let inst' := completeIfDone env.now handled
          match checkpointWorkflow store inst' with
          | .error e => { store, result := .error e }
          | .ok store' =>
            if inst'.status = .running then
              let out := dispatchEligibleNodes env store' inst'
              { out with result := out.result.map fun _ => () }
            else { store := store', result := .ok () }
  | _, _ => { store, result := .ok () }

/-- Replay of one event, whichever instance it belongs to. A failure that fails
the workflow is recorded on the node only: the source rebinds its local
variable to the instance with the new status and drops it. -/
def applyEventToInstance (inst : WorkflowInstance) (event : RuntimeEvent) :
    Except PyError WorkflowInstance :=
  match event.nodeId with
  | none => .ok inst
  | some nid =>
    if !inst.nodeStates.contains nid then .ok inst
    else if event.isCompletion then
      .ok { inst with
        nodeStates := inst.nodeStates.set nid .succeeded
        nodeOutputs := inst.nodeOutputs.set nid event.outputFrame }
    else if event.isFailure then do
      let policy ← failurePolicyAt inst.definition nid
      if policy = .ignore then
        return { inst with nodeStates := inst.nodeStates.set nid .skipped }
      else return { inst with nodeStates := inst.nodeStates.set nid .failed }
    else .ok inst

def replayEvents (inst : WorkflowInstance) : List RuntimeEvent → Except PyError WorkflowInstance
  | [] => .ok inst
  | event :: rest => do
      let inst' ← applyEventToInstance inst event
      replayEvents inst' rest

def recoverWorkflow (env : Env) (log : EventStore) (store : Store) (instanceId : String) :
    Outcome WorkflowInstance :=
  match loadInstance store instanceId with
  | .error e => { store, result := .error e }
  | .ok inst =>
    match replayEvents inst (log.streamFrom inst.startedAt) with
    | .error e => { store, result := .error e }
    | .ok replayed => dispatchEligibleNodes env store replayed

end Operations

section Runs

/-- The operations on one instance after it was started. Events and event logs
are arbitrary; an event of another instance leaves this one alone. -/
inductive Operation
  | event (e : RuntimeEvent)
  | pause
  | resume
  | cancel
  | recover (log : EventStore)

def Operation.perform (instanceId : String) (env : Env) (store : Store) :
    Operation → Outcome Unit
  | .event e => onRuntimeEvent env store e
  | .pause => forget (pauseWorkflow store instanceId)
  | .resume => forget (resumeWorkflow env store instanceId)
  | .cancel => forget (cancelWorkflow env store instanceId)
  | .recover log => forget (recoverWorkflow env log store instanceId)
where
  forget (out : Outcome WorkflowInstance) : Outcome Unit :=
    { out with result := out.result.map fun _ => () }

/-- An operation as a step of a machine that emits the accepted tasks. -/
def Operation.step (instanceId : String) (store : Store) (call : Env × Operation) :
    Store × List Submission :=
  let out := call.2.perform instanceId call.1 store
  (out.store, out.submitted)

/-- `start_workflow` of an accepted definition under a fresh id, followed by any
operations. -/
structure Run where
  store : Store
  uuid : Uuid
  fresh : store.rows.get? uuid.val = none
  definition : WorkflowDefinition
  accepted : definition.Accepted
  inputs : Attrs := .empty
  env : Env
  calls : List (Env × Operation)

namespace Run

def id (run : Run) : String := run.uuid.val

/-- The rows and the accepted tasks once `start_workflow` is through. -/
def started (run : Run) : Store × List Submission :=
  let out := startWorkflow run.env run.store run.uuid run.definition run.inputs
  (out.store, out.submitted)

/-- The rows and the accepted tasks at the end of the run. -/
def final (run : Run) : Store × List Submission :=
  Machine.exec (Operation.step run.id) run.calls run.started

/-- The condition holds of every call after `start_workflow`. -/
def Along (run : Run) (P : Store × List Submission → Env × Operation → Prop) : Prop :=
  Machine.Along (Operation.step run.id) P run.calls run.started

end Run

end Runs

end MollisRuntime.Workflow
