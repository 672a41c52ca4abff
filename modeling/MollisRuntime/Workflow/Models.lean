import MollisRuntime.Python.Values

/-!
The workflow data model: policies, graph nodes and edges, definitions, plans
and instances, with the defaults of the source's dataclasses.
-/
namespace MollisRuntime.Workflow

open Ordered Python

inductive WorkflowStatus
  | pending
  | running
  | paused
  | succeeded
  | failed
  | cancelled
  deriving DecidableEq, Repr

inductive NodeState
  | pending
  | preparing
  | running
  | succeeded
  | failed
  | skipped
  | cancelled
  | waitingApproval
  deriving DecidableEq, Repr

inductive FailurePolicy
  | fail
  | ignore
  | compensate
  deriving DecidableEq, Repr

structure RetryPolicy where
  maxAttempts : ℤ := 0
  delaySeconds : ℚ := 1
  backoffRate : ℚ := 1

structure TimeoutPolicy where
  timeoutSeconds : Option ℚ := none

structure CompensationPolicy where
  compensationNodeId : Option String := none

structure WorkflowPolicy where
  retry : RetryPolicy := {}
  timeout : TimeoutPolicy := {}
  failureHandling : FailurePolicy := .fail
  compensation : CompensationPolicy := {}

/-- Every field left unset falls back on the workflow's own policy. -/
structure NodePolicy where
  retry : Option RetryPolicy := none
  timeout : Option TimeoutPolicy := none
  failureHandling : Option FailurePolicy := none
  compensation : Option CompensationPolicy := none

structure NodeInput where
  sourceNodeId : Option String := none
  outputKey : Option String := none
  defaultValue : Value := .none

structure DataMapping where
  inputMappings : Dict String NodeInput := .empty
  outputMappings : List String := []

structure GraphNode where
  id : String
  executorType : String
  payload : Attrs
  policy : NodePolicy := {}
  capabilities : List String := []
  dataMapping : DataMapping := {}
  isCheckpoint : Bool := false
  isApproval : Bool := false
  version : String := "1.0.0"

structure GraphEdge where
  fromNodeId : String
  toNodeId : String
  conditionExpression : Option String := none
  version : String := "1.0.0"

structure ExecutionGraph where
  nodes : Dict String GraphNode := .empty
  edges : List GraphEdge := []
  version : String := "1.0.0"

structure WorkflowMetadata where
  createdBy : String := "system"
  tags : List String := []
  extra : Attrs := .empty

structure WorkflowDefinition where
  name : String
  graph : ExecutionGraph
  version : String := "1.0.0"
  policy : WorkflowPolicy := {}
  metadata : WorkflowMetadata := {}

/-- Node ids that can execute concurrently. -/
structure ExecutionPhase where
  nodeIds : List String
  phaseIndex : ℤ

structure ExecutionPlan where
  phases : List ExecutionPhase
  criticalPath : List String := []
  version : String := "1.0.0"

structure WorkflowInstance where
  instanceId : String
  workflowName : String
  definition : WorkflowDefinition
  status : WorkflowStatus
  nodeStates : Dict String NodeState
  nodeOutputs : Dict String Attrs
  executionPlan : ExecutionPlan
  startedAt : String
  completedAt : Option String := none
  version : String := "1.0.0"

namespace ExecutionGraph

def edgePairs (g : ExecutionGraph) : List (String × String) :=
  g.edges.map fun e => (e.fromNodeId, e.toNodeId)

def nodeIds (g : ExecutionGraph) : List String := g.nodes.keys

end ExecutionGraph

/-- `node_policy.failure_handling or definition.policy.failure_handling` -/
def WorkflowDefinition.failureHandling (d : WorkflowDefinition) (node : GraphNode) :
    FailurePolicy :=
  node.policy.failureHandling.getD d.policy.failureHandling

/-- SUCCEEDED or SKIPPED: what a child node waits for. -/
def NodeState.isDone : NodeState → Bool
  | .succeeded => true
  | .skipped => true
  | _ => false

/-- The states that keep a workflow from being completed. -/
def NodeState.isOpen : NodeState → Bool
  | .pending => true
  | .running => true
  | .waitingApproval => true
  | _ => false

end MollisRuntime.Workflow
