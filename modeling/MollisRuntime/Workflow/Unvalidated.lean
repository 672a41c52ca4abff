import MollisRuntime.Workflow.LongestPaths

/-!
Planning a definition that was not built by the builder. The levels are always
computed, and no exception is raised while the edges join existing nodes. What
can go wrong on a cycle is the walk back from a last node: either it ends and a
plan is returned, or it comes to a node for the second time and never ends.
-/
namespace MollisRuntime.Workflow

open Ordered Python Paths

namespace WorkflowPlanner

section Walk

variable (parents : Dict String (List String)) (levels : Dict String ℕ)

/-- Where one turn of the loop leads to; the empty string ends it. -/
def turn (current : String) : String :=
  if current = "" then ""
  else match (parents.get? current).getD [] with
    | [] => ""
    | p :: ps => bestParent levels p ps

/-- The loop ends when its turns come to the empty string. -/
theorem backtrack_returns_iff (fuel : ℕ) (current : String) (path : List String) :
    (∃ result, backtrack parents levels fuel current path = some result) ↔
      ∃ i ≤ fuel, (turn parents levels)^[i] current = "" := by
  induction fuel generalizing current path with
  | zero =>
    by_cases hempty : current = "" <;> simp [backtrack, hempty]
  | succ fuel ih =>
    unfold backtrack
    by_cases hempty : current = ""
    · rw [if_pos hempty]
      exact ⟨fun _ => ⟨0, by omega, hempty⟩, fun _ => ⟨path, rfl⟩⟩
    · rw [if_neg hempty]
      have hsucc : (∃ i ≤ fuel + 1, (turn parents levels)^[i] current = "") ↔
          ∃ i ≤ fuel, (turn parents levels)^[i] (turn parents levels current) = "" := by
        constructor
        · rintro ⟨i, hi, hend⟩
          cases i with
          | zero => exact absurd hend hempty
          | succ i => exact ⟨i, by omega, hend⟩
        · rintro ⟨i, hi, hend⟩
          exact ⟨i + 1, by omega, hend⟩
      rw [hsucc]
      unfold turn
      rw [if_neg hempty]
      cases hps : (parents.get? current).getD [] with
      | nil => exact ⟨fun _ => ⟨0, by omega, rfl⟩, fun _ => ⟨_, rfl⟩⟩
      | cons p ps => exact ih (bestParent levels p ps) (current :: path)

end Walk

variable {g : ExecutionGraph} {parents : Dict String (List String)}

/-- A walk that has not ended after as many turns as there are nodes never ends. -/
theorem backtrack_diverges_iff (hg : g.Closed) (hparents : ParentsOf g parents)
    (levels : Dict String ℕ) {current : String} (hcurrent : current ∈ g.nodeIds)
    (path : List String) :
    backtrack parents levels (g.nodeIds.length + 1) current path = none ↔
      ∀ fuel, backtrack parents levels fuel current path = none := by
  have hstay : ∀ i, (turn parents levels)^[i] current ≠ "" →
      (turn parents levels)^[i] current ∈ g.nodeIds := by
    intro i
    induction i with
    | zero => exact fun _ => hcurrent
    | succ i ih =>
      rw [Function.iterate_succ_apply']
      generalize (turn parents levels)^[i] current = v at ih ⊢
      intro hne
      by_cases hempty : v = ""
      · exact absurd (by simp [turn, hempty]) hne
      · unfold turn at hne ⊢
        rw [if_neg hempty, hparents v (ih hempty), Option.getD_some] at hne ⊢
        cases hps : Kahn.parents g.edgePairs v with
        | nil => simp [hps] at hne
        | cons p ps =>
          have hmem := bestParent_mem levels p ps
          rw [← hps, Kahn.mem_parents] at hmem
          exact (hg _ _ hmem).1
  constructor
  · intro hnone fuel
    by_contra hsome
    obtain ⟨result, hresult⟩ := Option.ne_none_iff_exists'.mp hsome
    obtain ⟨i, -, hend⟩ := (backtrack_returns_iff parents levels fuel current path).mp
      ⟨result, hresult⟩
    obtain ⟨j, hj, hend'⟩ := iterate_eq_within hstay ⟨i, hend⟩
    obtain ⟨result', hresult'⟩ := (backtrack_returns_iff parents levels
      (g.nodeIds.length + 1) current path).mpr ⟨j, by omega, hend'⟩
    rw [hnone] at hresult'
    cases hresult'
  · intro h
    exact h _

theorem resolveLevels_closed (hg : g.Closed) :
    ∃ levels, resolveLevels g = .ok levels ∧ levels.keys = g.nodeIds := by
  obtain ⟨adj, inDegree, hindex, hadj, hinv⟩ := g.index_closed hg
  obtain ⟨order, _, horder, hend⟩ := Kahn.popped_of_inv (fun a b h => (hg a b h).2) hadj
    g.nodeIds.length inDegree (roots inDegree) [] hinv (by simp)
  have hdrain := Kahn.drain_eq_fold adj (fun levels _ => levels) Kahn.raise
    g.nodeIds.length inDegree (roots inDegree) (.fromKeys g.nodeIds 0) []
  rw [horder, Option.map_some, List.foldl_nil] at hdrain
  simp only [resolveLevels, hindex, hdrain]
  refine ⟨_, rfl, ?_⟩
  refine List.foldlRecOn (motive := fun levels : Dict String ℕ => levels.keys = g.nodeIds)
    order _ (Dict.keys_fromKeys _ _ g.nodeIds_nodup) ?_
  intro levels hkeys u hu
  rw [hadj u (hend.subset u (by simpa using hu)), Option.getD_some]
  refine (Kahn.keys_foldl_raise u _ levels ?_).trans hkeys
  intro v hv
  rw [hkeys]
  exact (hg u v ((Kahn.mem_children g.edgePairs u v).mp hv)).2

/-- Over existing nodes the planner raises no exception. -/
theorem plan_outcomes (d : WorkflowDefinition) (hg : d.graph.Closed) :
    plan d = .error .diverges ∨ ∃ p, plan d = .ok p := by
  by_cases hne : d.graph.nodeIds = []
  · exact Or.inr ⟨{ phases := [] }, by simp [plan, hne]⟩
  · obtain ⟨levels, hlevels, -⟩ := resolveLevels_closed hg
    obtain ⟨parents, hparents, -⟩ := parentsOf_closed hg
    have hpath : calculateCriticalPath d.graph levels = .error .diverges ∨
        ∃ path, calculateCriticalPath d.graph levels = .ok path := by
      unfold calculateCriticalPath
      cases levelNodes levels (maxLevel levels) with
      | nil => exact Or.inr ⟨[], rfl⟩
      | cons current rest =>
        simp only [hparents]
        cases backtrack parents levels (d.graph.nodeIds.length + 1) current [] with
        | none => exact Or.inl rfl
        | some path => exact Or.inr ⟨path, rfl⟩
    rcases hpath with hpath | ⟨path, hpath⟩
    · exact Or.inl (by simp [plan, hne, hlevels, hpath])
    · exact Or.inr ⟨_, by simp only [plan, hne, hlevels, hpath, if_false, ok_bind]; rfl⟩

/-- Planning diverges when the walk back from the first of the last nodes never
ends, however many turns it is given. -/
theorem plan_diverges_iff (d : WorkflowDefinition) (hg : d.graph.Closed)
    (hne : d.graph.nodeIds ≠ []) :
    plan d = .error .diverges ↔ ∃ levels parents current rest,
      resolveLevels d.graph = .ok levels ∧
      Kahn.parentsOf d.graph.emptyLists d.graph.edgePairs = .ok parents ∧
      levelNodes levels (maxLevel levels) = current :: rest ∧
      ∀ fuel, backtrack parents levels fuel current [] = none := by
  obtain ⟨levels, hlevels, hkeys⟩ := resolveLevels_closed hg
  obtain ⟨parents, hparents, hparentsOf⟩ := parentsOf_closed hg
  have hplan : plan d = .error .diverges ↔
      calculateCriticalPath d.graph levels = .error .diverges := by
    simp only [plan, hne, hlevels, if_false, ok_bind]
    cases calculateCriticalPath d.graph levels <;> simp
  rw [hplan]
  unfold calculateCriticalPath
  cases hends : levelNodes levels (maxLevel levels) with
  | nil => simp [hlevels, hends]
  | cons current rest =>
    have hcurrent : current ∈ d.graph.nodeIds := by
      have hmem : current ∈ levelNodes levels (maxLevel levels) := by simp [hends]
      rw [← hkeys]
      exact (level_of_mem_levelNodes hmem).1
    have hforever := backtrack_diverges_iff hg hparentsOf levels hcurrent []
    simp only [hparents]
    constructor
    · intro h
      refine ⟨levels, parents, current, rest, hlevels, rfl, hends, hforever.mp ?_⟩
      cases hback : backtrack parents levels (d.graph.nodeIds.length + 1) current [] with
      | none => rfl
      | some path => simp [hback] at h
    · rintro ⟨levels', parents', current', rest', hlevels', hparents', hends', hnone⟩
      rw [hlevels] at hlevels'
      cases hlevels'
      cases hparents'
      rw [hends] at hends'
      cases hends'
      rw [hnone]

/-- The plan looks at the nodes and the edges only. -/
theorem plan_congr {d d' : WorkflowDefinition} (hnodes : d.graph.nodes = d'.graph.nodes)
    (hedges : d.graph.edges = d'.graph.edges) : plan d = plan d' := by
  obtain ⟨_, ⟨nodes, edges, _⟩, _, _, _⟩ := d
  obtain ⟨_, ⟨nodes', edges', _⟩, _, _, _⟩ := d'
  cases hnodes
  cases hedges
  rfl

theorem plan_of_acyclic (d : WorkflowDefinition) (hg : d.graph.Closed)
    (hacyclic : Acyclic d.graph.edgePairs) : ∃ p, plan d = .ok p := by
  let b : WorkflowBuilder := { name := d.name, nodes := d.graph.nodes, edges := d.graph.edges }
  have hbuild := WorkflowBuilder.build_of_closed b hg
  obtain ⟨order, horder⟩ := (WorkflowBuilder.validateDag_returns_iff
    (show ExecutionGraph.Closed { nodes := b.nodes, edges := b.edges } from hg)).mpr hacyclic
  rw [horder] at hbuild
  obtain ⟨p, hp⟩ := plan_total ⟨b, hbuild⟩
  exact ⟨p, (plan_congr rfl rfl).trans hp⟩

/-- Planning ends, and with an exception when there is a cycle, exactly on the
graphs without a cycle: on the others it never raises. -/
theorem planning_checks_iff (d : WorkflowDefinition) (hg : d.graph.Closed) :
    (plan d ≠ .error .diverges ∧
        (¬ Acyclic d.graph.edgePairs → ∃ e, plan d = .error e)) ↔
      Acyclic d.graph.edgePairs := by
  constructor
  · rintro ⟨hends, hraises⟩
    by_contra hcyclic
    obtain ⟨e, he⟩ := hraises hcyclic
    rcases plan_outcomes d hg with hdiverges | ⟨p, hp⟩
    · exact hends hdiverges
    · rw [hp] at he
      cases he
  · intro hacyclic
    obtain ⟨p, hp⟩ := plan_of_acyclic d hg hacyclic
    refine ⟨?_, fun hcyclic => absurd hacyclic hcyclic⟩
    simp [hp]

theorem planning_checks_doubled :
    doubledDefinition.graph.Closed ∧ plan doubledDefinition ≠ .error .diverges := by
  refine ⟨doubledGraph_closed, ?_⟩
  have hacyclic : Acyclic doubledDefinition.graph.edgePairs :=
    WorkflowBuilder.acyclic_of_validateDag doubledGraph_closed
      (show WorkflowBuilder.validateDag doubledGraph = .ok ["A", "B", "D", "C"] by decide +kernel)
  exact ((planning_checks_iff doubledDefinition doubledGraph_closed).mpr hacyclic).1

/-- A and B wait for each other. -/
def mutualDefinition : WorkflowDefinition where
  name := "mutual"
  graph := plainGraph ["A", "B"] [("A", "B"), ("B", "A")]

/-- A waits for itself, and R for nothing. -/
def loopDefinition : WorkflowDefinition where
  name := "loop"
  graph := plainGraph ["R", "A"] [("A", "A")]

/-- On the first graph planning never ends, on the second it returns a plan. -/
theorem planning_unchecked :
    mutualDefinition.graph.Closed ∧ ¬ Acyclic mutualDefinition.graph.edgePairs ∧
      plan mutualDefinition = .error .diverges ∧
      loopDefinition.graph.Closed ∧ ¬ Acyclic loopDefinition.graph.edgePairs ∧
      plan loopDefinition =
        .ok { phases := [{ nodeIds := ["R", "A"], phaseIndex := 0 }], criticalPath := ["R"] } := by
  have hmutual : (("A", "B") : String × String) ∈ mutualDefinition.graph.edgePairs := by
    decide +kernel
  have hback : (("B", "A") : String × String) ∈ mutualDefinition.graph.edgePairs := by
    decide +kernel
  refine ⟨(ExecutionGraph.closed_iff _).mpr (by decide +kernel), ?_, by rfl,
    (ExecutionGraph.closed_iff _).mpr (by decide +kernel), ?_, by rfl⟩
  · exact fun hacyclic => hacyclic "A" (.tail (.single hmutual) hback)
  · exact not_acyclic_of_edge (v := "A") (by decide +kernel)

end WorkflowPlanner

end MollisRuntime.Workflow
