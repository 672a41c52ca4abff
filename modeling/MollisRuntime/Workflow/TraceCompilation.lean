import MollisRuntime.Workflow.CycleDetection
import MollisRuntime.Workflow.Sdk

/-!
Straight-line workflow bodies. Each call of a task becomes a node, and each reference
among its arguments an edge from an earlier node, so that the order of the calls is a
topological order of the graph.
-/
namespace MollisRuntime.Workflow

open Ordered Python Paths

/-- What stands for an argument: what an earlier call returned, or a value. -/
inductive Argument
  | earlier (call : ℕ)
  | value (v : Value)

def Argument.call : Argument → Option ℕ
  | .earlier call => some call
  | .value _ => none

/-- The value of an argument, given what the earlier calls returned. -/
def Argument.passed (returned : List TaskArg) : Argument → TaskArg
  | .earlier call => returned.getD call (.other .none)
  | .value v => .other v

/-- One call of a task. -/
structure Line where
  task : TaskFunction
  args : List Argument := []
  kwargs : Dict String Argument := .empty

/-- The calls whose references are arguments, in the order of the arguments. -/
def Line.references (line : Line) : List ℕ :=
  line.args.filterMap Argument.call ++ line.kwargs.values.filterMap Argument.call

/-- A straight-line body: the tasks have different names, and an argument can only be
what an earlier call returned. -/
structure StraightLine where
  lines : List Line
  distinct : (lines.map fun line => line.task.name).Nodup
  backward : ∀ k (line : Line), lines[k]? = some line → ∀ i ∈ line.references, i < k

def bodyOf : List Line → List TaskArg → Body
  | [], _ => .exit (.ok ())
  | line :: rest, returned =>
    .call line.task (line.args.map (Argument.passed returned))
      (line.kwargs.mapVal (Argument.passed returned)) fun
      | .error e => .exit (.error e)
      | .ok reference => bodyOf rest (returned ++ [reference])

def TaskFunction.node (task : TaskFunction) : GraphNode where
  id := task.name
  executorType := task.executorType
  payload := task.payload
  policy := task.policy.getD {}
  capabilities := task.capabilities.getD []
  isCheckpoint := task.isCheckpoint
  isApproval := task.isApproval

namespace StraightLine

variable (program : StraightLine)

def names : List String := program.lines.map fun line => line.task.name

def body : Body := bodyOf program.lines []

/-- One edge for each reference argument of the call. -/
def edgesOf (line : Line) : List GraphEdge :=
  line.references.map fun i =>
    { fromNodeId := program.names.getD i "", toNodeId := line.task.name }

/-- The definition that the body stands for. -/
def definition (name : String) : WorkflowDefinition where
  name := name
  graph :=
    { nodes := ⟨program.lines.map fun line => (line.task.name, line.task.node), by
        rw [List.map_map]
        exact program.distinct⟩
      edges := program.lines.flatMap program.edgesOf }

end StraightLine

theorem foldl_connect (parents : List String) (name : String) (b : WorkflowBuilder) :
    parents.foldl (fun b parent => b.connect parent name) b =
      { b with edges := b.edges ++ parents.map fun parent =>
        { fromNodeId := parent, toNodeId := name } } := by
  induction parents generalizing b with
  | nil => simp
  | cons parent rest ih =>
    rw [List.foldl_cons, ih]
    simp [WorkflowBuilder.connect]

/-- With a fresh name the node is added, and then an edge from each parent. -/
theorem record_fresh (task : TaskFunction) (args : List TaskArg) (kwargs : Dict String TaskArg)
    {b : WorkflowBuilder} (h : task.name ∉ b.nodes.keys) :
    task.record args kwargs b =
      ({ b with
        nodes := b.nodes.set task.name task.node
        edges := b.edges ++ (TaskFunction.parents args kwargs).map fun parent =>
          { fromNodeId := parent, toNodeId := task.name } },
        .ok (.reference task.name)) := by
  have habsent : b.nodes.contains task.name = false := by
    rw [Bool.eq_false_iff, Ne, Dict.contains_iff]
    exact h
  have hadded : b.addNode task.name task.executorType task.payload (task.policy.getD {})
      (task.capabilities.getD []) {} task.isCheckpoint task.isApproval =
        .ok { b with nodes := b.nodes.set task.name task.node } := by
    rw [WorkflowBuilder.addNode, habsent]
    rfl
  rw [TaskFunction.record, hadded]
  dsimp only
  rw [foldl_connect]

section Compilation

variable {program : StraightLine}

/-- The arguments of a call that are references name the nodes of the earlier calls. -/
theorem parents_passed {done rest : List Line} {line : Line}
    (h : program.lines = done ++ line :: rest) :
    let returned : List TaskArg := done.map fun line => .reference line.task.name
    TaskFunction.parents (line.args.map (Argument.passed returned))
        (line.kwargs.mapVal (Argument.passed returned)) =
      line.references.map fun i => program.names.getD i "" := by
  intro returned
  have hline : program.lines[done.length]? = some line := by
    rw [h, List.getElem?_append_right le_rfl, Nat.sub_self]
    rfl
  have hreturned (i : ℕ) (hi : i < done.length) :
      returned.getD i (.other .none) = .reference (program.names.getD i "") := by
    have hname : program.names[i]? = (done.map fun line => line.task.name)[i]? := by
      rw [StraightLine.names, h, List.map_append, List.getElem?_append_left]
      rwa [List.length_map]
    rw [List.getD_eq_getElem?_getD, List.getD_eq_getElem?_getD, hname, List.getElem?_map,
      List.getElem?_map, List.getElem?_eq_getElem hi]
    rfl
  have hpassed (arguments : List Argument)
      (hbackward : ∀ i ∈ arguments.filterMap Argument.call, i < done.length) :
      (arguments.map (Argument.passed returned)).filterMap TaskArg.nodeId =
        (arguments.filterMap Argument.call).map fun i => program.names.getD i "" := by
    rw [List.filterMap_map, List.map_filterMap]
    refine List.filterMap_congr fun argument hmem => ?_
    cases argument with
    | earlier i =>
      have hi := hbackward i (List.mem_filterMap.mpr ⟨_, hmem, rfl⟩)
      simp only [Function.comp_apply, Argument.passed, hreturned i hi]
      rfl
    | value v => rfl
  have hbackward := program.backward done.length line hline
  rw [Line.references, List.forall_mem_append] at hbackward
  rw [TaskFunction.parents, hpassed line.args hbackward.1, Dict.values_mapVal,
    hpassed line.kwargs.values hbackward.2, Line.references, List.map_append]

/-- What the calls that are left make of a builder that has the nodes of those done. -/
theorem intended_bodyOf (rest : List Line) :
    ∀ (done : List Line) (b : WorkflowBuilder), program.lines = done ++ rest →
      b.nodes.keys = done.map (fun line => line.task.name) →
      ∃ c, (bodyOf rest (done.map fun line => .reference line.task.name)).intended b =
          (c, [], .ok ()) ∧ c.name = b.name ∧ c.workflowPolicy = b.workflowPolicy ∧
        c.nodes.entries = b.nodes.entries ++
          rest.map (fun line => (line.task.name, line.task.node)) ∧
        c.edges = b.edges ++ rest.flatMap program.edgesOf := by
  induction rest with
  | nil =>
    intro done b _ _
    exact ⟨b, rfl, rfl, rfl, (List.append_nil _).symm, (List.append_nil _).symm⟩
  | cons line rest ih =>
    intro done b hlines hkeys
    have hfresh : line.task.name ∉ b.nodes.keys := by
      have hdistinct := program.distinct
      rw [hlines, List.map_append, List.map_cons] at hdistinct
      rw [hkeys]
      exact fun hmem => List.disjoint_of_nodup_append hdistinct hmem List.mem_cons_self
    have hparents := parents_passed hlines
    have hlines' : program.lines = (done ++ [line]) ++ rest := by
      rw [hlines, List.append_assoc]
      rfl
    let added : WorkflowBuilder :=
      { b with
        nodes := b.nodes.set line.task.name line.task.node
        edges := b.edges ++ program.edgesOf line }
    have hkeys' : added.nodes.keys = (done ++ [line]).map fun line => line.task.name := by
      rw [List.map_append, ← hkeys]
      exact Dict.keys_set_of_notMem _ _ _ hfresh
    obtain ⟨c, hintended, hname, hpolicy, hentries, hedges⟩ := ih _ added hlines' hkeys'
    refine ⟨c, ?_, hname, hpolicy, ?_, ?_⟩
    · rw [bodyOf, Body.intended, record_fresh _ _ _ hfresh, hparents, List.map_map, ← hintended,
        List.map_append]
      rfl
    · rw [hentries, List.map_cons, ← List.singleton_append, ← List.append_assoc]
      exact congrArg (· ++ _) (Dict.entries_set_of_notMem _ hfresh)
    · rw [hedges, List.flatMap_cons, ← List.append_assoc]

/-- A straight-line body compiles no other workflow. -/
theorem separated_bodyOf (lines : List Line) (returned : List TaskArg) (b : WorkflowBuilder) :
    (bodyOf lines returned).Separated false b := by
  induction lines generalizing returned b with
  | nil => exact trivial
  | cons line rest ih =>
    refine ⟨rfl, ?_⟩
    cases hrecorded : (line.task.record (line.args.map (Argument.passed returned))
      (line.kwargs.mapVal (Argument.passed returned)) b).2 with
    | error e => exact trivial
    | ok reference => exact ih _ _

variable (program)

/-- The order of the calls is a topological order. -/
theorem definition_forward (name : String) (u v : String)
    (h : (u, v) ∈ (program.definition name).graph.edgePairs) :
    u ∈ program.names ∧ v ∈ program.names ∧ program.names.idxOf u < program.names.idxOf v := by
  obtain ⟨edge, hedge, hpair⟩ := List.mem_map.mp h
  obtain ⟨line, hline, hof⟩ := List.mem_flatMap.mp hedge
  obtain ⟨i, hi, rfl⟩ := List.mem_map.mp hof
  obtain ⟨rfl, rfl⟩ := Prod.mk.inj hpair
  obtain ⟨k, hk, rfl⟩ := List.mem_iff_getElem.mp hline
  have hlt : i < k := program.backward k _ (List.getElem?_eq_getElem hk) i hi
  have hlength : program.names.length = program.lines.length := List.length_map _
  have hk' : k < program.names.length := hlength.symm ▸ hk
  have hi' : i < program.names.length := hlt.trans hk'
  have hfrom : program.names.getD i "" = program.names[i] := by
    rw [List.getD_eq_getElem?_getD, List.getElem?_eq_getElem hi']
    rfl
  have hto : program.lines[k].task.name = program.names[k] := 
    (List.getElem_map (fun line : Line => line.task.name)).symm
  dsimp only
  rw [hfrom, hto]
  refine ⟨List.getElem_mem hi', List.getElem_mem hk', ?_⟩
  have hdistinct : program.names.Nodup := program.distinct
  rwa [hdistinct.idxOf_getElem, hdistinct.idxOf_getElem]

/-- The body is meant to leave the builder of the definition. -/
theorem intended_body (name : String) :
    program.body.intended { name } =
      ({ name
         nodes := (program.definition name).graph.nodes
         edges := (program.definition name).graph.edges }, [], .ok ()) := by
  obtain ⟨c, hintended, hname, hpolicy, hentries, hedges⟩ :=
    intended_bodyOf program.lines [] { name } rfl rfl
  have hc : c = { name
                  nodes := (program.definition name).graph.nodes
                  edges := (program.definition name).graph.edges } := by
    cases c
    congr
    exact Dict.ext_entries hentries
  rw [← hc]
  exact hintended

theorem definition_closed (name : String) : (program.definition name).graph.Closed := by
  have hnodes : (program.definition name).graph.nodeIds = program.names := List.map_map
  intro u v huv
  obtain ⟨hu, hv, -⟩ := definition_forward program name u v huv
  rw [hnodes]
  exact ⟨hu, hv⟩

theorem definition_sorted (name : String) :
    ∃ order, WorkflowBuilder.validateDag (program.definition name).graph = .ok order :=
  (WorkflowBuilder.validateDag_returns_iff (definition_closed program name)).mpr
    (acyclic_of_rank program.names.idxOf fun u v huv =>
      (definition_forward program name u v huv).2.2)

/-- Compiling a straight-line body returns its definition, which has one node for each
call and one edge for each reference argument, and no cycle. -/
theorem compile_straightLine (name : String) (s : Tracing) :
    let compiled := compileWorkflow name program.body s
    compiled.1.executed = s.executed ∧
      ∃ d, compiled.2 = .ok d ∧ d.name = name ∧
        d.graph.nodes.entries =
          program.lines.map (fun line => (line.task.name, line.task.node)) ∧
        d.graph.edges = program.lines.flatMap program.edgesOf ∧
        ∃ order, WorkflowBuilder.validateDag d.graph = .ok order := by
  intro compiled
  obtain ⟨order, horder⟩ := definition_sorted program name
  obtain ⟨htraces, hended⟩ := run_of_separated program.body (s.within_enter name)
    (separated_bodyOf program.lines [] { name })
  rw [intended_body] at htraces hended
  refine ⟨htraces.executed_eq, program.definition name, ?_, rfl, rfl, rfl, order, horder⟩
  have hbuilt : compiled.2 = built ((program.body.run (s.enter name)).1.builder s.builders.length)
      (program.body.run (s.enter name)).2 := rfl
  rw [hbuilt, htraces.builder_eq, hended, built,
    WorkflowBuilder.build_of_closed _ (definition_closed program name)]
  exact congrArg (Except.map _) horder

end Compilation

end MollisRuntime.Workflow
