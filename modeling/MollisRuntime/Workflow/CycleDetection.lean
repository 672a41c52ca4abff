import MollisRuntime.Library.Paths
import MollisRuntime.Workflow.Builder

/-!
The cycle check of the builder. On a graph whose edges join its nodes the sort
succeeds exactly when there is no cycle, and it fails with the builder's own
error otherwise.
-/
namespace MollisRuntime.Workflow

open Ordered Python Paths

def cyclicDependency : PyError :=
  .valueError ("Cyclic dependency detected! The execution graph must be a " ++
    "Directed Acyclic Graph (DAG).")

namespace WorkflowBuilder

variable {g : ExecutionGraph}

/-- What is returned is a list of the nodes in which edges point forward. -/
theorem validateDag_order (hg : g.Closed) {order : List String}
    (h : validateDag g = .ok order) :
    order.Nodup ∧ (∀ v, v ∈ order ↔ v ∈ g.nodeIds) ∧
      ∀ u v, (u, v) ∈ g.edgePairs → order.idxOf u < order.idxOf v := by
  obtain ⟨hsorted, hnodup, hmem⟩ := validateDag_ok hg h
  exact ⟨hnodup, hmem, Kahn.rank_of_sorted hsorted hnodup (fun v hv => (hmem v).mpr hv)
    (fun a b hab => (hg a b hab).2)⟩

theorem acyclic_of_validateDag (hg : g.Closed) {order : List String}
    (h : validateDag g = .ok order) : Acyclic g.edgePairs :=
  acyclic_of_rank order.idxOf (validateDag_order hg h).2.2

/-- The loop ends, and then the number of popped nodes decides. -/
theorem validateDag_cases (hg : g.Closed) :
    (∃ order, validateDag g = .ok order) ∨
      validateDag g = .error cyclicDependency ∧ ¬ Acyclic g.edgePairs := by
  obtain ⟨adj, inDegree, hindex, hadj, hinv⟩ := g.index_closed hg
  obtain ⟨order, inDegree', horder, hend⟩ := Kahn.popped_of_inv (fun a b h => (hg a b h).2) hadj
    g.nodeIds.length inDegree (roots inDegree) [] hinv (by simp)
  by_cases hlength : order.length = g.nodeIds.length
  · refine Or.inl ⟨order, ?_⟩
    simp [validateDag, hindex, horder, hlength]
  · refine Or.inr ⟨?_, ?_⟩
    · simp [validateDag, hindex, horder, hlength, cyclicDependency]
    · intro hacyclic
      have hall := popped_of_acyclic (fun a b h => (hg a b h).1) hacyclic hend
      have hnodup : order.Nodup := by simpa using hend.nodup
      have hsubset : ∀ v ∈ order, v ∈ g.nodeIds := by simpa using hend.subset
      have hperm : order.Perm g.nodeIds :=
        (List.perm_ext_iff_of_nodup hnodup g.nodeIds_nodup).mpr fun v =>
          ⟨hsubset v, hall v⟩
      exact hlength hperm.length_eq

theorem validateDag_returns_iff (hg : g.Closed) :
    (∃ order, validateDag g = .ok order) ↔ Acyclic g.edgePairs := by
  constructor
  · rintro ⟨order, horder⟩
    exact acyclic_of_validateDag hg horder
  · intro hacyclic
    rcases validateDag_cases hg with hok | ⟨-, hcyclic⟩
    · exact hok
    · exact absurd hacyclic hcyclic

theorem validateDag_raises_iff (hg : g.Closed) :
    validateDag g = .error cyclicDependency ↔ ¬ Acyclic g.edgePairs := by
  constructor
  · intro herror hacyclic
    obtain ⟨order, horder⟩ := (validateDag_returns_iff hg).mpr hacyclic
    rw [horder] at herror
    cases herror
  · intro hcyclic
    rcases validateDag_cases hg with hok | ⟨herror, -⟩
    · exact absurd ((validateDag_returns_iff hg).mp hok) hcyclic
    · exact herror

theorem checkEdges_of_closed {nodes : Dict String GraphNode} {edges : List GraphEdge}
    (h : ∀ e ∈ edges, e.fromNodeId ∈ nodes.keys ∧ e.toNodeId ∈ nodes.keys) :
    checkEdges nodes edges = .ok () := by
  induction edges with
  | nil => rfl
  | cons e rest ih =>
    obtain ⟨hfrom, hto⟩ := h e (by simp)
    have hrest := ih fun e' he' => h e' (List.mem_cons_of_mem _ he')
    unfold checkEdges
    rw [(nodes.contains_iff e.fromNodeId).mpr hfrom, (nodes.contains_iff e.toNodeId).mpr hto]
    simpa using hrest

/-- Over existing nodes, building is the sort. -/
theorem build_of_closed (b : WorkflowBuilder)
    (hg : ExecutionGraph.Closed { nodes := b.nodes, edges := b.edges }) :
    b.build = (validateDag { nodes := b.nodes, edges := b.edges }).map fun _ =>
      { name := b.name, graph := { nodes := b.nodes, edges := b.edges }
        policy := b.workflowPolicy } := by
  have hcheck : checkEdges b.nodes b.edges = .ok () :=
    checkEdges_of_closed fun e he => hg e.fromNodeId e.toNodeId (List.mem_map.mpr ⟨e, he, rfl⟩)
  unfold build
  rw [hcheck, ok_bind]
  cases hdag : validateDag { nodes := b.nodes, edges := b.edges } with
  | error e => simp only [hdag, error_bind, Except.map]
  | ok order =>
    simp only [hdag, ok_bind, Except.map]
    rfl

/-- Kahn's algorithm finds a cycle exactly when there is one. -/
theorem cycle_detection_exact (g : ExecutionGraph) (hg : g.Closed) :
    ((∃ order, validateDag g = .ok order) ↔ Acyclic g.edgePairs) ∧
      (∀ order, validateDag g = .ok order →
        order.Nodup ∧ (∀ v, v ∈ order ↔ v ∈ g.nodeIds) ∧
          ∀ u v, (u, v) ∈ g.edgePairs → order.idxOf u < order.idxOf v) ∧
      ∀ b : WorkflowBuilder, b.nodes = g.nodes → b.edges = g.edges →
        ((∃ d, b.build = .ok d) ↔ Acyclic g.edgePairs) ∧
          (b.build = .error cyclicDependency ↔ ¬ Acyclic g.edgePairs) := by
  refine ⟨validateDag_returns_iff hg, fun order horder => validateDag_order hg horder, ?_⟩
  intro b hnodes hedges
  have hpairs : ExecutionGraph.edgePairs { nodes := b.nodes, edges := b.edges } = g.edgePairs :=
    congrArg (List.map fun e : GraphEdge => (e.fromNodeId, e.toNodeId)) hedges
  have hgraph : ExecutionGraph.Closed { nodes := b.nodes, edges := b.edges } := by
    intro u v huv
    rw [ExecutionGraph.nodeIds, hnodes]
    exact hg u v (hpairs ▸ huv)
  rw [build_of_closed b hgraph, ← hpairs, ← validateDag_raises_iff hgraph,
    ← validateDag_returns_iff hgraph]
  rcases validateDag_cases hgraph with ⟨order, horder⟩ | ⟨herror, -⟩
  · simp [horder, Except.map]
  · simp [herror, Except.map]

end WorkflowBuilder

section Samples

/-- Some nodes for the Python executor, and edges without conditions. -/
def plainGraph (ids : List String) (pairs : List (String × String)) : ExecutionGraph where
  nodes := .ofList (ids.map fun id => (id, { id, executorType := "python", payload := .empty }))
  edges := pairs.map fun p => { fromNodeId := p.1, toNodeId := p.2 }

theorem ExecutionGraph.closed_iff (g : ExecutionGraph) :
    g.Closed ↔ ∀ e ∈ g.edgePairs, e.1 ∈ g.nodeIds ∧ e.2 ∈ g.nodeIds :=
  ⟨fun h e he => h e.1 e.2 he, fun h u v huv => h (u, v) huv⟩

/-- Two edges from A to B, and two ways on to C. -/
def doubledGraph : ExecutionGraph :=
  plainGraph ["C", "A", "B", "D"] [("A", "B"), ("A", "B"), ("B", "C"), ("A", "C"), ("A", "D")]

theorem doubledGraph_closed : doubledGraph.Closed :=
  doubledGraph.closed_iff.mpr (by decide +kernel)

theorem cycle_detection_exact_doubled :
    doubledGraph.Closed ∧ Acyclic doubledGraph.edgePairs ∧
      WorkflowBuilder.validateDag doubledGraph = .ok ["A", "B", "D", "C"] := by
  have hsorted : WorkflowBuilder.validateDag doubledGraph = .ok ["A", "B", "D", "C"] := by
    decide +kernel
  refine ⟨doubledGraph_closed, ?_, hsorted⟩
  exact (WorkflowBuilder.cycle_detection_exact doubledGraph doubledGraph_closed).1.mp
    ⟨_, hsorted⟩

def doubledDefinition : WorkflowDefinition where
  name := "doubled"
  graph := doubledGraph

theorem doubledDefinition_accepted : doubledDefinition.Accepted :=
  WorkflowDefinition.accepted_of_checks
    { name := "doubled", nodes := doubledGraph.nodes, edges := doubledGraph.edges }
    (by decide +kernel) (by decide +kernel)

end Samples

end MollisRuntime.Workflow
