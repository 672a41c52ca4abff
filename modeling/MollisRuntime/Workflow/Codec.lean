import MollisRuntime.Workflow.Models

/-!
to_dict and from_dict of the workflow model. `asdict` keeps an Enum member as
it is, so a node policy's failure handling is encoded as a member, while the
workflow policy's is encoded by its value. Decoding undoes encoding for every
instance; encoding gives JSON exactly when no node sets its own failure
handling and all free-form values are JSON.
-/
namespace MollisRuntime.Workflow

open Ordered Python

namespace WorkflowStatus

def value : WorkflowStatus → String
  | .pending => "Pending"
  | .running => "Running"
  | .paused => "Paused"
  | .succeeded => "Succeeded"
  | .failed => "Failed"
  | .cancelled => "Cancelled"

/-- `WorkflowStatus(value)` -/
def ofValue : Value → Except PyError WorkflowStatus
  | .str "Pending" => .ok .pending
  | .str "Running" => .ok .running
  | .str "Paused" => .ok .paused
  | .str "Succeeded" => .ok .succeeded
  | .str "Failed" => .ok .failed
  | .str "Cancelled" => .ok .cancelled
  | _ => .error (.valueError "not a valid WorkflowStatus")

@[simp] theorem ofValue_value (s : WorkflowStatus) : ofValue (.str s.value) = .ok s := by
  cases s <;> rfl

end WorkflowStatus

namespace NodeState

def value : NodeState → String
  | .pending => "Pending"
  | .preparing => "Preparing"
  | .running => "Running"
  | .succeeded => "Succeeded"
  | .failed => "Failed"
  | .skipped => "Skipped"
  | .cancelled => "Cancelled"
  | .waitingApproval => "WaitingApproval"

/-- `NodeState(value)` -/
def ofValue : Value → Except PyError NodeState
  | .str "Pending" => .ok .pending
  | .str "Preparing" => .ok .preparing
  | .str "Running" => .ok .running
  | .str "Succeeded" => .ok .succeeded
  | .str "Failed" => .ok .failed
  | .str "Skipped" => .ok .skipped
  | .str "Cancelled" => .ok .cancelled
  | .str "WaitingApproval" => .ok .waitingApproval
  | _ => .error (.valueError "not a valid NodeState")

@[simp] theorem ofValue_value (s : NodeState) : ofValue (.str s.value) = .ok s := by
  cases s <;> rfl

end NodeState

namespace FailurePolicy

def value : FailurePolicy → String
  | .fail => "Fail"
  | .ignore => "Ignore"
  | .compensate => "Compensate"

def member (p : FailurePolicy) : Value := .enum "FailurePolicy" p.value

/-- `FailurePolicy(x)`: `x` is a value or already a member. -/
def ofValue : Value → Except PyError FailurePolicy
  | .str "Fail" => .ok .fail
  | .str "Ignore" => .ok .ignore
  | .str "Compensate" => .ok .compensate
  | .enum "FailurePolicy" "Fail" => .ok .fail
  | .enum "FailurePolicy" "Ignore" => .ok .ignore
  | .enum "FailurePolicy" "Compensate" => .ok .compensate
  | _ => .error (.valueError "not a valid FailurePolicy")

@[simp] theorem ofValue_value (p : FailurePolicy) : ofValue (.str p.value) = .ok p := by
  cases p <;> rfl

@[simp] theorem ofValue_member (p : FailurePolicy) : ofValue p.member = .ok p := by
  cases p <;> rfl

end FailurePolicy

def encodeOptStr : Option String → Value
  | none => .none
  | some s => .str s

def encodeOptFloat : Option ℚ → Value
  | none => .none
  | some q => .float q

@[simp] theorem asOptStr_encodeOptStr (s : Option String) :
    (encodeOptStr s).asOptStr = .ok s := by
  cases s <;> rfl

@[simp] theorem isJson_encodeOptStr (s : Option String) : (encodeOptStr s).isJson = true := by
  cases s <;> rfl

def encodeStrs (xs : List String) : Value := encodeList .str xs

def decodeStrs (v : Value) : Except PyError (List String) := decodeList Value.asStr v

@[simp] theorem decodeStrs_encodeStrs (xs : List String) : decodeStrs (encodeStrs xs) = .ok xs :=
  decodeList_encodeList .str Value.asStr (fun _ => rfl) xs

@[simp] theorem isJson_encodeStrs (xs : List String) : (encodeStrs xs).isJson = true := by
  simp [encodeStrs]

/-- `X(**data) if data else None` -/
def optional {α : Type} (dec : Value → Except PyError α) (v : Value) :
    Except PyError (Option α) :=
  if v.truthy then do
    let a ← dec v
    return some a
  else return none

section Policies

def RetryPolicy.asDict (p : RetryPolicy) : Value :=
  .dict [("max_attempts", .int p.maxAttempts), ("delay_seconds", .float p.delaySeconds),
    ("backoff_rate", .float p.backoffRate)]

def RetryPolicy.ofKwargs (v : Value) : Except PyError RetryPolicy := do
  let data ← v.asDict
  checkKwargs ["max_attempts", "delay_seconds", "backoff_rate"] data
  let maxAttempts ← (getD data "max_attempts" (.int 0)).asInt
  let delaySeconds ← (getD data "delay_seconds" (.float 1)).asFloat
  let backoffRate ← (getD data "backoff_rate" (.float 1)).asFloat
  return { maxAttempts, delaySeconds, backoffRate }

def TimeoutPolicy.asDict (p : TimeoutPolicy) : Value :=
  .dict [("timeout_seconds", encodeOptFloat p.timeoutSeconds)]

def TimeoutPolicy.ofKwargs (v : Value) : Except PyError TimeoutPolicy := do
  let data ← v.asDict
  checkKwargs ["timeout_seconds"] data
  let timeoutSeconds ← (getD data "timeout_seconds" .none).asOptFloat
  return { timeoutSeconds }

def CompensationPolicy.asDict (p : CompensationPolicy) : Value :=
  .dict [("compensation_node_id", encodeOptStr p.compensationNodeId)]

def CompensationPolicy.ofKwargs (v : Value) : Except PyError CompensationPolicy := do
  let data ← v.asDict
  checkKwargs ["compensation_node_id"] data
  let compensationNodeId ← (getD data "compensation_node_id" .none).asOptStr
  return { compensationNodeId }

def NodePolicy.asDict (p : NodePolicy) : Value :=
  .dict [("retry", (p.retry.map RetryPolicy.asDict).getD .none),
    ("timeout", (p.timeout.map TimeoutPolicy.asDict).getD .none),
    ("failure_handling", (p.failureHandling.map FailurePolicy.member).getD .none),
    ("compensation", (p.compensation.map CompensationPolicy.asDict).getD .none)]

def NodePolicy.fromDict (v : Value) : Except PyError NodePolicy := do
  let data ← v.asDict
  let retry ← optional RetryPolicy.ofKwargs (getD data "retry" .none)
  let timeout ← optional TimeoutPolicy.ofKwargs (getD data "timeout" .none)
  let compensation ← optional CompensationPolicy.ofKwargs (getD data "compensation" .none)
  let failureHandling ← optional FailurePolicy.ofValue (getD data "failure_handling" .none)
  return { retry, timeout, failureHandling, compensation }

def WorkflowPolicy.toDict (p : WorkflowPolicy) : Value :=
  .dict [("retry", p.retry.asDict), ("timeout", p.timeout.asDict),
    ("failure_handling", .str p.failureHandling.value), ("compensation", p.compensation.asDict)]

def WorkflowPolicy.fromDict (v : Value) : Except PyError WorkflowPolicy := do
  let data ← v.asDict
  let retry ← RetryPolicy.ofKwargs (getD data "retry" (.dict []))
  let timeout ← TimeoutPolicy.ofKwargs (getD data "timeout" (.dict []))
  let failureHandling ← FailurePolicy.ofValue (getD data "failure_handling" (.str "Fail"))
  let compensation ← CompensationPolicy.ofKwargs (getD data "compensation" (.dict []))
  return { retry, timeout, failureHandling, compensation }

@[simp] theorem RetryPolicy.ofKwargs_asDict (p : RetryPolicy) : ofKwargs p.asDict = .ok p := rfl

@[simp] theorem TimeoutPolicy.ofKwargs_asDict (p : TimeoutPolicy) :
    ofKwargs p.asDict = .ok p := by
  obtain ⟨_ | _⟩ := p <;> rfl

@[simp] theorem CompensationPolicy.ofKwargs_asDict (p : CompensationPolicy) :
    ofKwargs p.asDict = .ok p := by
  obtain ⟨_ | _⟩ := p <;> rfl

theorem optional_getD {α : Type} (enc : α → Value) (dec : Value → Except PyError α)
    (htruthy : ∀ a, (enc a).truthy = true) (h : ∀ a, dec (enc a) = .ok a) (o : Option α) :
    optional dec ((o.map enc).getD .none) = .ok o := by
  cases o with
  | none => rfl
  | some a =>
    simp only [Option.map_some, Option.getD_some, optional, htruthy a, if_true, h a]
    rfl

@[simp] theorem NodePolicy.fromDict_asDict (p : NodePolicy) : fromDict p.asDict = .ok p := by
  have hretry := optional_getD RetryPolicy.asDict RetryPolicy.ofKwargs (fun _ => rfl)
    RetryPolicy.ofKwargs_asDict p.retry
  have htimeout := optional_getD TimeoutPolicy.asDict TimeoutPolicy.ofKwargs (fun _ => rfl)
    TimeoutPolicy.ofKwargs_asDict p.timeout
  have hcomp := optional_getD CompensationPolicy.asDict CompensationPolicy.ofKwargs
    (fun _ => rfl) CompensationPolicy.ofKwargs_asDict p.compensation
  have hfail := optional_getD FailurePolicy.member FailurePolicy.ofValue (fun _ => rfl)
    FailurePolicy.ofValue_member p.failureHandling
  simp [fromDict, asDict, Value.asDict, getD, lookup, hretry, htimeout, hcomp, hfail]

@[simp] theorem WorkflowPolicy.fromDict_toDict (p : WorkflowPolicy) :
    fromDict p.toDict = .ok p := by
  simp [fromDict, toDict, Value.asDict, getD, lookup]

end Policies

section Graph

def NodeInput.asDict (i : NodeInput) : Value :=
  .dict [("source_node_id", encodeOptStr i.sourceNodeId), ("output_key", encodeOptStr i.outputKey),
    ("default_value", i.defaultValue)]

def NodeInput.ofKwargs (v : Value) : Except PyError NodeInput := do
  let data ← v.asDict
  checkKwargs ["source_node_id", "output_key", "default_value"] data
  let sourceNodeId ← (getD data "source_node_id" .none).asOptStr
  let outputKey ← (getD data "output_key" .none).asOptStr
  return { sourceNodeId, outputKey, defaultValue := getD data "default_value" .none }

def DataMapping.toDict (m : DataMapping) : Value :=
  .dict [("input_mappings", encodeDict NodeInput.asDict m.inputMappings),
    ("output_mappings", encodeStrs m.outputMappings)]

def DataMapping.fromDict (v : Value) : Except PyError DataMapping := do
  let data ← v.asDict
  let inputMappings ← decodeDict NodeInput.ofKwargs (getD data "input_mappings" (.dict []))
  let outputMappings ← decodeStrs (getD data "output_mappings" (.list []))
  return { inputMappings, outputMappings }

def GraphNode.toDict (n : GraphNode) : Value :=
  .dict [("id", .str n.id), ("executor_type", .str n.executorType),
    ("payload", encodeAttrs n.payload), ("policy", n.policy.asDict),
    ("capabilities", encodeStrs n.capabilities), ("data_mapping", n.dataMapping.toDict),
    ("is_checkpoint", .bool n.isCheckpoint), ("is_approval", .bool n.isApproval),
    ("version", .str n.version)]

def GraphNode.fromDict (v : Value) : Except PyError GraphNode := do
  let data ← v.asDict
  let policy ← NodePolicy.fromDict (getD data "policy" (.dict []))
  let dataMapping ← DataMapping.fromDict (getD data "data_mapping" (.dict []))
  let id ← (← getItem data "id").asStr
  let executorType ← (← getItem data "executor_type").asStr
  let payload ← decodeAttrs (← getItem data "payload")
  let capabilities ← decodeStrs (getD data "capabilities" (.list []))
  let isCheckpoint ← (getD data "is_checkpoint" (.bool false)).asBool
  let isApproval ← (getD data "is_approval" (.bool false)).asBool
  let version ← (getD data "version" (.str "1.0.0")).asStr
  return { id, executorType, payload, policy, capabilities, dataMapping, isCheckpoint,
           isApproval, version }

def GraphEdge.toDict (e : GraphEdge) : Value :=
  .dict [("from_node_id", .str e.fromNodeId), ("to_node_id", .str e.toNodeId),
    ("condition_expression", encodeOptStr e.conditionExpression), ("version", .str e.version)]

def GraphEdge.fromDict (v : Value) : Except PyError GraphEdge := do
  let data ← v.asDict
  let fromNodeId ← (← getItem data "from_node_id").asStr
  let toNodeId ← (← getItem data "to_node_id").asStr
  let conditionExpression ← (getD data "condition_expression" .none).asOptStr
  let version ← (getD data "version" (.str "1.0.0")).asStr
  return { fromNodeId, toNodeId, conditionExpression, version }

def ExecutionGraph.toDict (g : ExecutionGraph) : Value :=
  .dict [("nodes", encodeDict GraphNode.toDict g.nodes),
    ("edges", encodeList GraphEdge.toDict g.edges), ("version", .str g.version)]

def ExecutionGraph.fromDict (v : Value) : Except PyError ExecutionGraph := do
  let data ← v.asDict
  let nodes ← decodeDict GraphNode.fromDict (getD data "nodes" (.dict []))
  let edges ← decodeList GraphEdge.fromDict (getD data "edges" (.list []))
  let version ← (getD data "version" (.str "1.0.0")).asStr
  return { nodes, edges, version }

@[simp] theorem NodeInput.ofKwargs_asDict (i : NodeInput) : ofKwargs i.asDict = .ok i := by
  simp [ofKwargs, asDict, Value.asDict, checkKwargs, getD, lookup]

@[simp] theorem DataMapping.fromDict_toDict (m : DataMapping) : fromDict m.toDict = .ok m := by
  have h := decodeDict_encodeDict NodeInput.asDict NodeInput.ofKwargs
    NodeInput.ofKwargs_asDict m.inputMappings
  simp [fromDict, toDict, Value.asDict, getD, lookup, h]

@[simp] theorem GraphNode.fromDict_toDict (n : GraphNode) : fromDict n.toDict = .ok n := by
  have h := decodeAttrs_encodeAttrs n.payload
  simp [fromDict, toDict, Value.asDict, Value.asStr, Value.asBool, getItem, getD, lookup, h]

@[simp] theorem GraphEdge.fromDict_toDict (e : GraphEdge) : fromDict e.toDict = .ok e := by
  simp [fromDict, toDict, Value.asDict, Value.asStr, getItem, getD, lookup]

@[simp] theorem ExecutionGraph.fromDict_toDict (g : ExecutionGraph) :
    fromDict g.toDict = .ok g := by
  have hnodes := decodeDict_encodeDict GraphNode.toDict GraphNode.fromDict
    GraphNode.fromDict_toDict g.nodes
  have hedges := decodeList_encodeList GraphEdge.toDict GraphEdge.fromDict
    GraphEdge.fromDict_toDict g.edges
  simp [fromDict, toDict, Value.asDict, Value.asStr, getD, lookup, hnodes, hedges]

end Graph

section Instances

def WorkflowMetadata.asDict (m : WorkflowMetadata) : Value :=
  .dict [("created_by", .str m.createdBy), ("tags", encodeStrs m.tags),
    ("extra", encodeAttrs m.extra)]

def WorkflowMetadata.ofKwargs (v : Value) : Except PyError WorkflowMetadata := do
  let data ← v.asDict
  checkKwargs ["created_by", "tags", "extra"] data
  let createdBy ← (getD data "created_by" (.str "system")).asStr
  let tags ← decodeStrs (getD data "tags" (.list []))
  let extra ← decodeAttrs (getD data "extra" (.dict []))
  return { createdBy, tags, extra }

def WorkflowDefinition.toDict (d : WorkflowDefinition) : Value :=
  .dict [("name", .str d.name), ("graph", d.graph.toDict), ("version", .str d.version),
    ("policy", d.policy.toDict), ("metadata", d.metadata.asDict)]

def WorkflowDefinition.fromDict (v : Value) : Except PyError WorkflowDefinition := do
  let data ← v.asDict
  let policy ← WorkflowPolicy.fromDict (getD data "policy" (.dict []))
  let metadata ← WorkflowMetadata.ofKwargs (getD data "metadata" (.dict []))
  let name ← (← getItem data "name").asStr
  let graph ← ExecutionGraph.fromDict (← getItem data "graph")
  let version ← (getD data "version" (.str "1.0.0")).asStr
  return { name, graph, version, policy, metadata }

def ExecutionPhase.asDict (p : ExecutionPhase) : Value :=
  .dict [("node_ids", encodeStrs p.nodeIds), ("phase_index", .int p.phaseIndex)]

/-- Both fields are required: a missing one is a TypeError. -/
def ExecutionPhase.ofKwargs (v : Value) : Except PyError ExecutionPhase := do
  let data ← v.asDict
  checkKwargs ["node_ids", "phase_index"] data
  match lookup "node_ids" data, lookup "phase_index" data with
  | some ids, some index => do
    let nodeIds ← decodeStrs ids
    let phaseIndex ← index.asInt
    return { nodeIds, phaseIndex }
  | _, _ => .error (.typeError "missing required argument")

def ExecutionPlan.toDict (p : ExecutionPlan) : Value :=
  .dict [("phases", encodeList ExecutionPhase.asDict p.phases),
    ("critical_path", encodeStrs p.criticalPath), ("version", .str p.version)]

def ExecutionPlan.fromDict (v : Value) : Except PyError ExecutionPlan := do
  let data ← v.asDict
  let phases ← decodeList ExecutionPhase.ofKwargs (getD data "phases" (.list []))
  let criticalPath ← decodeStrs (getD data "critical_path" (.list []))
  let version ← (getD data "version" (.str "1.0.0")).asStr
  return { phases, criticalPath, version }

def encodeState (s : NodeState) : Value := .str s.value

def WorkflowInstance.toDict (i : WorkflowInstance) : Value :=
  .dict [("instance_id", .str i.instanceId), ("workflow_name", .str i.workflowName),
    ("definition", i.definition.toDict), ("status", .str i.status.value),
    ("node_states", encodeDict encodeState i.nodeStates),
    ("node_outputs", encodeDict encodeAttrs i.nodeOutputs),
    ("execution_plan", i.executionPlan.toDict), ("started_at", .str i.startedAt),
    ("completed_at", encodeOptStr i.completedAt), ("version", .str i.version)]

def WorkflowInstance.fromDict (v : Value) : Except PyError WorkflowInstance := do
  let data ← v.asDict
  let definition ← WorkflowDefinition.fromDict (← getItem data "definition")
  let status ← WorkflowStatus.ofValue (← getItem data "status")
  let nodeStates ← decodeDict NodeState.ofValue (getD data "node_states" (.dict []))
  let executionPlan ← ExecutionPlan.fromDict (← getItem data "execution_plan")
  let instanceId ← (← getItem data "instance_id").asStr
  let workflowName ← (← getItem data "workflow_name").asStr
  let nodeOutputs ← decodeDict decodeAttrs (getD data "node_outputs" (.dict []))
  let startedAt ← (← getItem data "started_at").asStr
  let completedAt ← (getD data "completed_at" .none).asOptStr
  let version ← (getD data "version" (.str "1.0.0")).asStr
  return { instanceId, workflowName, definition, status, nodeStates, nodeOutputs,
           executionPlan, startedAt, completedAt, version }

@[simp] theorem WorkflowMetadata.ofKwargs_asDict (m : WorkflowMetadata) :
    ofKwargs m.asDict = .ok m := by
  have h := decodeAttrs_encodeAttrs m.extra
  simp [ofKwargs, asDict, Value.asDict, Value.asStr, checkKwargs, getD, lookup, h]

@[simp] theorem WorkflowDefinition.fromDict_toDict (d : WorkflowDefinition) :
    fromDict d.toDict = .ok d := by
  simp [fromDict, toDict, Value.asDict, Value.asStr, getItem, getD, lookup]

@[simp] theorem ExecutionPhase.ofKwargs_asDict (p : ExecutionPhase) :
    ofKwargs p.asDict = .ok p := by
  simp [ofKwargs, asDict, Value.asDict, Value.asInt, checkKwargs, lookup]

@[simp] theorem ExecutionPlan.fromDict_toDict (p : ExecutionPlan) : fromDict p.toDict = .ok p := by
  have h := decodeList_encodeList ExecutionPhase.asDict ExecutionPhase.ofKwargs
    ExecutionPhase.ofKwargs_asDict p.phases
  simp [fromDict, toDict, Value.asDict, Value.asStr, getD, lookup, h]

/-- Loading what was saved gives the instance back. -/
theorem WorkflowInstance.decode_encode (i : WorkflowInstance) : fromDict i.toDict = .ok i := by
  have hstates := decodeDict_encodeDict encodeState NodeState.ofValue
    NodeState.ofValue_value i.nodeStates
  have houtputs := decodeDict_encodeDict encodeAttrs decodeAttrs
    decodeAttrs_encodeAttrs i.nodeOutputs
  simp [fromDict, toDict, Value.asDict, Value.asStr, getItem, getD, lookup, hstates, houtputs]

/-- Nothing of an instance is lost or defaulted on the way through its dictionary. -/
theorem WorkflowInstance.instance_round_trip (x : WorkflowInstance) : fromDict x.toDict = .ok x :=
  x.decode_encode

theorem isJson_encodeState (s : NodeState) : (encodeState s).isJson = true := rfl

theorem ExecutionPlan.isJson_toDict (p : ExecutionPlan) : p.toDict.isJson = true := by
  simp [toDict, ExecutionPhase.asDict]

/-- An instance can be saved exactly when its definition and its outputs can. -/
theorem WorkflowInstance.isJson_toDict_iff (i : WorkflowInstance) :
    i.toDict.isJson = true ↔ i.definition.toDict.isJson = true ∧
      ∀ e ∈ i.nodeOutputs.entries, (encodeAttrs e.2).isJson = true := by
  simp only [toDict, Value.isJson_dict, List.forall_mem_cons, Value.isJson_str,
    isJson_encodeDict, isJson_encodeState, isJson_encodeOptStr, i.executionPlan.isJson_toDict]
  simp

end Instances

end MollisRuntime.Workflow
