import MollisRuntime.Library.Kahn
import MollisRuntime.Workflow.Models

/-!
The fluent workflow builder. `build` checks the edge endpoints and runs Kahn's
algorithm; a definition it accepts has a precedence graph without cycles.
-/
namespace MollisRuntime.Workflow

open Ordered Python

structure WorkflowBuilder where
  name : String
  nodes : Dict String GraphNode := .empty
  edges : List GraphEdge := []
  workflowPolicy : WorkflowPolicy := {}

/-- The in-degree dictionary before any edge, and the nodes it leaves at zero. -/
def ExecutionGraph.zeroDegrees (g : ExecutionGraph) : Dict String ℤ := .fromKeys g.nodeIds 0

def ExecutionGraph.emptyLists (g : ExecutionGraph) : Dict String (List String) :=
  .fromKeys g.nodeIds []

def roots (inDegree : Dict String ℤ) : List String :=
  (inDegree.entries.filter fun e => e.2 = 0).map Prod.fst

namespace WorkflowBuilder

def addNode (b : WorkflowBuilder) (nodeId executorType : String) (payload : Attrs := .empty)
    (policy : NodePolicy := {}) (capabilities : List String := [])
    (dataMapping : DataMapping := {}) (isCheckpoint isApproval : Bool := false) :
    Except PyError WorkflowBuilder :=
  if b.nodes.contains nodeId then
    .error (.valueError
      ("Node with ID '" ++ nodeId ++ "' already exists in workflow builder."))
  else
    let node : GraphNode := { id := nodeId, executorType, payload, policy, capabilities,
                              dataMapping, isCheckpoint, isApproval }
    .ok { b with nodes := b.nodes.set nodeId node }

def connect (b : WorkflowBuilder) (fromNodeId toNodeId : String)
    (condition : Option String := none) : WorkflowBuilder :=
  { b with edges := b.edges ++ [{ fromNodeId, toNodeId, conditionExpression := condition }] }

def parallel (b : WorkflowBuilder) (fromNodeId : String) (toNodeIds : List String) :
    WorkflowBuilder :=
  toNodeIds.foldl (fun b target => b.connect fromNodeId target) b

/-- Replace one existing node: the common part of the four overrides below. -/
def updateNode (b : WorkflowBuilder) (nodeId : String) (f : GraphNode → GraphNode) :
    Except PyError WorkflowBuilder :=
  match b.nodes.get? nodeId with
  | none => .error (.valueError ("Node '" ++ nodeId ++ "' not found."))
  | some node => .ok { b with nodes := b.nodes.set nodeId (f node) }

def retry (b : WorkflowBuilder) (nodeId : String) (maxAttempts : ℤ) (delaySeconds : ℚ := 1) :
    Except PyError WorkflowBuilder :=
  b.updateNode nodeId fun n =>
    { n with policy := { n.policy with retry := some { maxAttempts, delaySeconds } } }

def timeout (b : WorkflowBuilder) (nodeId : String) (seconds : ℚ) :
    Except PyError WorkflowBuilder :=
  b.updateNode nodeId fun n =>
    { n with policy := { n.policy with timeout := some { timeoutSeconds := some seconds } } }

def checkpoint (b : WorkflowBuilder) (nodeId : String) : Except PyError WorkflowBuilder :=
  b.updateNode nodeId fun n => { n with isCheckpoint := true }

def approval (b : WorkflowBuilder) (nodeId : String) : Except PyError WorkflowBuilder :=
  b.updateNode nodeId fun n => { n with isApproval := true }

def configureWorkflowPolicy (b : WorkflowBuilder) (policy : WorkflowPolicy) : WorkflowBuilder :=
  { b with workflowPolicy := policy }

def checkEdges (nodes : Dict String GraphNode) : List GraphEdge → Except PyError Unit
  | [] => .ok ()
  | e :: rest =>
      if !nodes.contains e.fromNodeId then
        .error (.valueError ("Edge from invalid node ID '" ++ e.fromNodeId ++ "'."))
      else if !nodes.contains e.toNodeId then
        .error (.valueError ("Edge to invalid node ID '" ++ e.toNodeId ++ "'."))
      else checkEdges nodes rest

/-- The topological order, or the error for a cycle. The loop pops every node
at most once, so the number of nodes is fuel enough. -/
def validateDag (graph : ExecutionGraph) : Except PyError (List String) :=
  match Kahn.index graph.emptyLists graph.zeroDegrees graph.edgePairs with
  | .error k => .error (.keyError k)
  | .ok (adj, inDegree) =>
    match Kahn.popped adj graph.nodeIds.length inDegree (roots inDegree) [] with
    | none => .error .diverges
    | some topoOrder =>
      if topoOrder.length ≠ graph.nodeIds.length then
        .error (.valueError ("Cyclic dependency detected! The execution graph must be a " ++
          "Directed Acyclic Graph (DAG)."))
      else .ok topoOrder

def build (b : WorkflowBuilder) : Except PyError WorkflowDefinition := do
  checkEdges b.nodes b.edges
  let graph : ExecutionGraph := { nodes := b.nodes, edges := b.edges }
  let _ ← validateDag graph
  return { name := b.name, graph, policy := b.workflowPolicy }

end WorkflowBuilder

/-- Accepted by `build`, whatever the builder went through before. -/
def WorkflowDefinition.Accepted (d : WorkflowDefinition) : Prop :=
  ∃ b : WorkflowBuilder, b.build = .ok d

/-- Every edge joins two nodes of the graph. -/
def ExecutionGraph.Closed (g : ExecutionGraph) : Prop :=
  ∀ u v, (u, v) ∈ g.edgePairs → u ∈ g.nodeIds ∧ v ∈ g.nodeIds

namespace ExecutionGraph

theorem nodeIds_nodup (g : ExecutionGraph) : g.nodeIds.Nodup := g.nodes.nodup_keys

theorem keys_zeroDegrees (g : ExecutionGraph) : g.zeroDegrees.keys = g.nodeIds :=
  Dict.keys_fromKeys g.nodeIds 0 g.nodeIds_nodup

theorem keys_emptyLists (g : ExecutionGraph) : g.emptyLists.keys = g.nodeIds :=
  Dict.keys_fromKeys g.nodeIds [] g.nodeIds_nodup

/-- Indexing a closed graph succeeds and starts the loop in its invariant. -/
theorem index_closed (g : ExecutionGraph) (hg : g.Closed) :
    ∃ adj inDegree,
      Kahn.index g.emptyLists g.zeroDegrees g.edgePairs = .ok (adj, inDegree) ∧
      (∀ u ∈ g.nodeIds, adj.get? u = some (Kahn.children g.edgePairs u)) ∧
      Kahn.Inv g.nodeIds g.edgePairs inDegree (roots inDegree) [] := by
  obtain ⟨adj, inDegree, hindex, hkeys, hadj, hdeg⟩ :=
    Kahn.index_ok g.edgePairs g.emptyLists g.zeroDegrees
      (fun u v h => by rw [g.keys_emptyLists]; exact (hg u v h).1)
      (fun u v h => by rw [g.keys_zeroDegrees]; exact (hg u v h).2)
  rw [g.keys_zeroDegrees] at hkeys
  have hpending : ∀ v ∈ g.nodeIds,
      inDegree.get? v = some (Kahn.pending g.edgePairs [] v : ℤ) := by
    intro v hv
    have h := hdeg v 0 (Dict.get?_fromKeys g.nodeIds 0 g.nodeIds_nodup v hv)
    rw [h, Kahn.pending_nil, zero_add]
  have hmem : ∀ v, v ∈ roots inDegree ↔ inDegree.get? v = some 0 := by
    intro v
    rw [← inDegree.mem_entries_iff]
    simp [roots]
  refine ⟨adj, inDegree, hindex, ?_, ?_, ?_, hpending, ?_, ?_⟩
  · intro u hu
    simpa using hadj u [] (Dict.get?_fromKeys g.nodeIds [] g.nodeIds_nodup u hu)
  · exact (inDegree.nodup_keys.sublist (List.filter_sublist.map Prod.fst))
  · intro v hv
    rw [← hkeys, Dict.mem_keys_iff]
    exact ⟨0, (hmem v).mp hv⟩
  · intro v hv
    rw [List.nil_append, hmem v, hpending v hv]
    simp
  · intro l₁ v l₂ heq
    simp at heq

end ExecutionGraph

namespace WorkflowBuilder

theorem checkEdges_ok {nodes : Dict String GraphNode} {edges : List GraphEdge}
    (h : checkEdges nodes edges = .ok ()) :
    ∀ e ∈ edges, e.fromNodeId ∈ nodes.keys ∧ e.toNodeId ∈ nodes.keys := by
  induction edges with
  | nil => simp
  | cons e rest ih =>
    unfold checkEdges at h
    split at h
    · contradiction
    · split at h
      · contradiction
      · rename_i hfrom hto
        simp only [Bool.not_eq_true', Bool.not_eq_false, Dict.contains_iff] at hfrom hto
        intro e' he'
        rcases List.mem_cons.mp he' with rfl | hrest
        · exact ⟨hfrom, hto⟩
        · exact ih h e' hrest

/-- What a successful sort returns: all nodes, each after its predecessors. -/
theorem validateDag_ok {g : ExecutionGraph} (hg : g.Closed) {order : List String}
    (h : validateDag g = .ok order) :
    Kahn.Sorted g.edgePairs order ∧ order.Nodup ∧ ∀ v, v ∈ order ↔ v ∈ g.nodeIds := by
  obtain ⟨adj, inDegree, hindex, hadj, hinv⟩ := g.index_closed hg
  obtain ⟨final, inDegree', hfinal, hend⟩ := Kahn.popped_of_inv (fun a b h => (hg a b h).2) hadj
    g.nodeIds.length inDegree (roots inDegree) [] hinv (by simp)
  simp only [validateDag, hindex, hfinal] at h
  split at h
  · contradiction
  · rename_i hlen
    cases h
    have hnodup : order.Nodup := by simpa using hend.nodup
    have hsub : ∀ v ∈ order, v ∈ g.nodeIds := by simpa using hend.subset
    have hperm := (hnodup.subperm hsub).perm_of_length_le (not_not.mp hlen).ge
    exact ⟨hend.sorted, hnodup, fun v => hperm.mem_iff⟩

end WorkflowBuilder

namespace WorkflowDefinition

theorem Accepted.closed_sorted {d : WorkflowDefinition} (h : d.Accepted) :
    d.graph.Closed ∧ ∃ order, WorkflowBuilder.validateDag d.graph = .ok order := by
  obtain ⟨b, hb⟩ := h
  unfold WorkflowBuilder.build at hb
  cases hcheck : WorkflowBuilder.checkEdges b.nodes b.edges with
  | error e => simp [hcheck] at hb
  | ok _ =>
    cases hdag : WorkflowBuilder.validateDag { nodes := b.nodes, edges := b.edges } with
    | error e => simp [hcheck, hdag] at hb
    | ok order =>
      simp only [hcheck, hdag, ok_bind] at hb
      cases hb
      refine ⟨?_, order, hdag⟩
      intro u v huv
      obtain ⟨e, he, heq⟩ := List.mem_map.mp huv
      cases heq
      exact WorkflowBuilder.checkEdges_ok hcheck e he

theorem Accepted.closed {d : WorkflowDefinition} (h : d.Accepted) : d.graph.Closed :=
  h.closed_sorted.1

/-- For a concrete builder the two checks of `build` can be computed. -/
theorem accepted_of_checks (b : WorkflowBuilder)
    (hedges : (WorkflowBuilder.checkEdges b.nodes b.edges).isOk = true)
    (hdag : (WorkflowBuilder.validateDag { nodes := b.nodes, edges := b.edges }).isOk = true) :
    Accepted { name := b.name, graph := { nodes := b.nodes, edges := b.edges }
               policy := b.workflowPolicy } := by
  refine ⟨b, ?_⟩
  unfold WorkflowBuilder.build
  cases hcheck : WorkflowBuilder.checkEdges b.nodes b.edges with
  | error e => simp [hcheck, Except.isOk, Except.toBool] at hedges
  | ok _ =>
    cases horder : WorkflowBuilder.validateDag { nodes := b.nodes, edges := b.edges } with
    | error e => simp [horder, Except.isOk, Except.toBool] at hdag
    | ok order =>
      simp only [ok_bind, horder]
      rfl

/-- The precedence graph of an accepted definition, ranked by the sort. -/
theorem Accepted.exists_dag {d : WorkflowDefinition} (h : d.Accepted) :
    ∃ G : Precedence.Dag String, G.nodes = d.graph.nodeIds ∧ G.edges = d.graph.edgePairs := by
  obtain ⟨hclosed, order, hdag⟩ := h.closed_sorted
  obtain ⟨hsorted, hnodup, hmem⟩ := WorkflowBuilder.validateDag_ok hclosed hdag
  exact ⟨{
    nodes := d.graph.nodeIds
    edges := d.graph.edgePairs
    rank := order.idxOf
    source_mem := fun u v huv => (hclosed u v huv).1
    target_mem := fun u v huv => (hclosed u v huv).2
    rank_lt := Kahn.rank_of_sorted hsorted hnodup (fun v hv => (hmem v).mpr hv)
      (fun a b hab => (hclosed a b hab).2)
  }, rfl, rfl⟩

end WorkflowDefinition

end MollisRuntime.Workflow
