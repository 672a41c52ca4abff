import MollisRuntime.Workflow.Builder

/-!
The workflow planner: execution levels by a Kahn-style pass, phases grouped by
level, and the critical path traced back from a deepest node. On an accepted
definition the plan exists and its levels are a layering of the graph.
-/
namespace MollisRuntime.Workflow

open Ordered Python

namespace WorkflowPlanner

/-- The loop of `_resolve_levels` pops the vertices that the builder's loop
pops; instead of listing them it raises the level of every visited child. -/
def resolveLevels (graph : ExecutionGraph) : Except PyError (Dict String ℕ) :=
  match Kahn.index graph.emptyLists graph.zeroDegrees graph.edgePairs with
  | .error k => .error (.keyError k)
  | .ok (adj, inDegree) =>
    match Kahn.drain adj (fun levels _ => levels) Kahn.raise graph.nodeIds.length inDegree
        (roots inDegree) (.fromKeys graph.nodeIds 0) with
    | none => .error .diverges
    | some levels => .ok levels

/-- `max(levels.values())`, of a non-empty dictionary. -/
def maxLevel (levels : Dict String ℕ) : ℕ := (levels.entries.map Prod.snd).foldl max 0

def levelNodes (levels : Dict String ℕ) (l : ℕ) : List String :=
  (levels.entries.filter fun e => e.2 = l).map Prod.fst

/-- `max(curr_parents, key=...)`: the first parent of highest level. -/
def bestParent (levels : Dict String ℕ) (first : String) (rest : List String) : String :=
  rest.foldl (fun best p => if Kahn.level levels best < Kahn.level levels p then p else best) first

/-- `while current`, with the path in reverse order of appending. -/
def backtrack (parents : Dict String (List String)) (levels : Dict String ℕ) :
    ℕ → String → List String → Option (List String)
  | fuel, current, path =>
    if current = "" then some path
    else match fuel with
      | 0 => none
      | fuel + 1 =>
        match (parents.get? current).getD [] with
        | [] => some (current :: path)
        | p :: ps => backtrack parents levels fuel (bestParent levels p ps) (current :: path)

/-- More turns than nodes mean that a node was visited twice, so the source's
loop never ends. -/
def calculateCriticalPath (graph : ExecutionGraph) (levels : Dict String ℕ) :
    Except PyError (List String) :=
  match levelNodes levels (maxLevel levels) with
  | [] => .ok []
  | current :: _ =>
    match Kahn.parentsOf graph.emptyLists graph.edgePairs with
    | .error k => .error (.keyError k)
    | .ok parents =>
      match backtrack parents levels (graph.nodeIds.length + 1) current [] with
      | none => .error .diverges
      | some path => .ok path

def plan (definition : WorkflowDefinition) : Except PyError ExecutionPlan :=
  let graph := definition.graph
  if graph.nodeIds = [] then .ok { phases := [] }
  else do
    let levels ← resolveLevels graph
    let phases := (List.range (maxLevel levels + 1)).map fun l =>
      ({ nodeIds := levelNodes levels l, phaseIndex := l } : ExecutionPhase)
    let criticalPath ← calculateCriticalPath graph levels
    return { phases, criticalPath }

section Levels

theorem mem_levelNodes (levels : Dict String ℕ) (l : ℕ) (v : String) :
    v ∈ levelNodes levels l ↔ levels.get? v = some l := by
  rw [← levels.mem_entries_iff]
  simp [levelNodes]

theorem foldl_max_spec (xs : List ℕ) (init : ℕ) :
    (∀ x ∈ xs, x ≤ xs.foldl max init) ∧ init ≤ xs.foldl max init ∧
      (xs.foldl max init = init ∨ xs.foldl max init ∈ xs) := by
  induction xs generalizing init with
  | nil => simp
  | cons x rest ih =>
    obtain ⟨hle, hinit, hmem⟩ := ih (max init x)
    refine ⟨?_, by simp only [List.foldl_cons]; omega, ?_⟩
    · intro y hy
      rcases List.mem_cons.mp hy with rfl | hy
      · simp only [List.foldl_cons]
        omega
      · exact hle y hy
    · simp only [List.foldl_cons]
      rcases hmem with heq | hmem
      · rw [heq]
        rcases le_total init x with h | h
        · exact Or.inr (by simp [max_eq_right h])
        · exact Or.inl (max_eq_left h)
      · exact Or.inr (List.mem_cons_of_mem _ hmem)

theorem le_maxLevel (levels : Dict String ℕ) (v : String) (l : ℕ)
    (h : levels.get? v = some l) : l ≤ maxLevel levels :=
  (foldl_max_spec _ 0).1 l (List.mem_map.mpr ⟨(v, l), (levels.mem_entries_iff v l).mpr h, rfl⟩)

theorem level_of_get {levels : Dict String ℕ} {v : String} {l : ℕ} (h : levels.get? v = some l) :
    Kahn.level levels v = l := by
  simp [Kahn.level, h]

theorem get_of_mem_keys {levels : Dict String ℕ} {v : String} (h : v ∈ levels.keys) :
    levels.get? v = some (Kahn.level levels v) := by
  obtain ⟨l, hl⟩ := (levels.mem_keys_iff v).mp h
  rw [hl, level_of_get hl]

theorem exists_level_eq_max {levels : Dict String ℕ} (hne : levels.keys ≠ []) :
    ∃ v ∈ levels.keys, Kahn.level levels v = maxLevel levels := by
  obtain ⟨_, _, hzero | hmem⟩ :=
    foldl_max_spec (levels.entries.map Prod.snd) 0
  · obtain ⟨v, hv⟩ := List.exists_mem_of_ne_nil _ hne
    have hget := get_of_mem_keys hv
    have hle := le_maxLevel levels v _ hget
    refine ⟨v, hv, ?_⟩
    unfold maxLevel at hle ⊢
    omega
  · obtain ⟨e, he, hlevel⟩ := List.mem_map.mp hmem
    have hget := (levels.mem_entries_iff e.1 e.2).mp he
    refine ⟨e.1, (levels.mem_keys_iff _).mpr ⟨_, hget⟩, ?_⟩
    rw [level_of_get hget, hlevel]
    rfl

/-- The best parent is one of the parents. -/
theorem bestParent_mem (levels : Dict String ℕ) (first : String) (rest : List String) :
    bestParent levels first rest ∈ first :: rest := by
  unfold bestParent
  induction rest generalizing first with
  | nil => simp
  | cons p rest ih =>
    rw [List.foldl_cons]
    split
    · exact List.mem_cons_of_mem _ (ih p)
    · rcases List.mem_cons.mp (ih first) with h | h
      · rw [h]
        simp
      · exact List.mem_cons_of_mem _ (List.mem_cons_of_mem _ h)

/-- On an accepted graph the levels are resolved, and they are right. -/
theorem resolveLevels_ok {d : WorkflowDefinition} (h : d.Accepted) :
    ∃ levels order, resolveLevels d.graph = .ok levels ∧ order.length = d.graph.nodeIds.length ∧
      (∀ v, v ∈ order ↔ v ∈ d.graph.nodeIds) ∧
      Kahn.Leveled d.graph.nodeIds d.graph.edgePairs order levels := by
  obtain ⟨hclosed, order, hdag⟩ := h.closed_sorted
  obtain ⟨adj, inDegree, hindex, hadj, hinv⟩ := d.graph.index_closed hclosed
  obtain ⟨hsorted, hnodup, hmem⟩ := WorkflowBuilder.validateDag_ok hclosed hdag
  have hpopped : Kahn.popped adj d.graph.nodeIds.length inDegree (roots inDegree) [] =
      some order := by
    unfold WorkflowBuilder.validateDag at hdag
    rw [hindex] at hdag
    dsimp only at hdag
    split at hdag
    · contradiction
    · rename_i o ho
      split at hdag
      · contradiction
      · cases hdag
        exact ho
  have hlen : order.length = d.graph.nodeIds.length :=
    ((List.perm_ext_iff_of_nodup hnodup d.graph.nodeIds_nodup).mpr hmem).length_eq
  have hdrain := Kahn.drain_eq_fold adj (fun levels _ => levels) Kahn.raise
    d.graph.nodeIds.length inDegree (roots inDegree) (.fromKeys d.graph.nodeIds 0) []
  rw [hpopped] at hdrain
  have hfold : ∀ (xs : List String) (l : Dict String ℕ), (∀ u ∈ xs, u ∈ d.graph.nodeIds) →
      xs.foldl (fun a u => ((adj.get? u).getD []).foldl (Kahn.raise u) a) l =
        xs.foldl (fun a u => (Kahn.children d.graph.edgePairs u).foldl (Kahn.raise u) a) l := by
    intro xs
    induction xs with
    | nil => exact fun _ _ => rfl
    | cons u rest ih =>
      intro l hsub
      simp only [List.foldl_cons, hadj u (hsub u (by simp)), Option.getD_some]
      exact ih _ (fun v hv => hsub v (List.mem_cons_of_mem _ hv))
  refine ⟨_, order, ?_, hlen, hmem, Kahn.leveled_foldl (fun a b hab => (hclosed a b hab).2)
    hsorted hnodup (fun v hv => (hmem v).mp hv) (.fromKeys d.graph.nodeIds 0)
    (Dict.keys_fromKeys _ _ d.graph.nodeIds_nodup) ?_⟩
  · simp only [resolveLevels, hindex]
    rw [show Kahn.drain adj (fun levels _ => levels) Kahn.raise d.graph.nodeIds.length inDegree
      (roots inDegree) (.fromKeys d.graph.nodeIds 0) = _ from hdrain]
    simp only [Option.map_some]
    rw [hfold order _ (fun v hv => (hmem v).mp hv)]
  · intro v hv
    exact level_of_get (Dict.get?_fromKeys _ _ d.graph.nodeIds_nodup v hv)

/-- Every turn goes to a strictly lower level, so the backtracking ends. -/
theorem backtrack_ok (nodes : List String) (parents : Dict String (List String))
    (levels : Dict String ℕ)
    (hdown : ∀ v ∈ nodes, ∀ p ∈ (parents.get? v).getD [],
      p ∈ nodes ∧ Kahn.level levels p < Kahn.level levels v)
    (fuel : ℕ) (current : String) (path : List String) (hcurrent : current ∈ nodes)
    (hfuel : Kahn.level levels current < fuel) :
    ∃ result, backtrack parents levels fuel current path = some result := by
  induction fuel generalizing current path with
  | zero => omega
  | succ fuel ih =>
    unfold backtrack
    by_cases hempty : current = ""
    · exact ⟨path, if_pos hempty⟩
    · rw [if_neg hempty]
      dsimp only
      split
      · exact ⟨current :: path, rfl⟩
      · rename_i p ps hparents
        have hmem : bestParent levels p ps ∈ (parents.get? current).getD [] := by
          rw [hparents]
          exact bestParent_mem levels p ps
        obtain ⟨hnode, hlt⟩ := hdown current hcurrent (bestParent levels p ps) hmem
        exact ih (bestParent levels p ps) (current :: path) hnode (by omega)

theorem calculateCriticalPath_ok {d : WorkflowDefinition} (h : d.Accepted)
    {levels : Dict String ℕ} {order : List String}
    (hlen : order.length = d.graph.nodeIds.length)
    (hmem : ∀ v, v ∈ order ↔ v ∈ d.graph.nodeIds)
    (hlev : Kahn.Leveled d.graph.nodeIds d.graph.edgePairs order levels) :
    ∃ path, calculateCriticalPath d.graph levels = .ok path := by
  unfold calculateCriticalPath
  split
  · exact ⟨[], rfl⟩
  · rename_i current rest hcurrent
    obtain ⟨parents, hparents, hget⟩ := Kahn.parentsOf_ok d.graph.edgePairs d.graph.emptyLists
      (fun u v huv => by rw [d.graph.keys_emptyLists]; exact (h.closed u v huv).2)
    have hnode : current ∈ d.graph.nodeIds := by
      have hc : current ∈ levelNodes levels (maxLevel levels) := by rw [hcurrent]; simp
      rw [← hlev.keys, Dict.mem_keys_iff]
      exact ⟨_, (mem_levelNodes _ _ _).mp hc⟩
    have hdown : ∀ v ∈ d.graph.nodeIds, ∀ p ∈ (parents.get? v).getD [],
        p ∈ d.graph.nodeIds ∧ Kahn.level levels p < Kahn.level levels v := by
      intro v hv p hp
      have hempty := Dict.get?_fromKeys d.graph.nodeIds ([] : List String)
        d.graph.nodeIds_nodup v hv
      rw [hget v [] hempty] at hp
      have hedge : (p, v) ∈ d.graph.edgePairs := (Kahn.mem_parents _ _ _).mp (by simpa using hp)
      have hsource := (h.closed p v hedge).1
      have hclimb := hlev.climbs p v hedge ((hmem p).mpr hsource)
      exact ⟨hsource, by omega⟩
    have hbound := hlev.bounded current hnode
    obtain ⟨path, hpath⟩ := backtrack_ok d.graph.nodeIds parents levels hdown
      (d.graph.nodeIds.length + 1) current [] hnode (by omega)
    exact ⟨path, by simp only [hparents, hpath]⟩

/-- The levels and the path that the plan of an accepted definition is made of. -/
theorem plan_steps {d : WorkflowDefinition} (h : d.Accepted) (hne : d.graph.nodeIds ≠ []) :
    ∃ levels order path, Kahn.Leveled d.graph.nodeIds d.graph.edgePairs order levels ∧
      (∀ v, v ∈ order ↔ v ∈ d.graph.nodeIds) ∧
      calculateCriticalPath d.graph levels = .ok path ∧
      plan d = .ok {
        phases := (List.range (maxLevel levels + 1)).map fun l =>
          { nodeIds := levelNodes levels l, phaseIndex := l }
        criticalPath := path } := by
  obtain ⟨levels, order, hlevels, hlen, hmem, hlev⟩ := resolveLevels_ok h
  obtain ⟨path, hpath⟩ := calculateCriticalPath_ok h hlen hmem hlev
  refine ⟨levels, order, path, hlev, hmem, hpath, ?_⟩
  simp [plan, hne, hlevels, hpath]

/-- The plan of an accepted non-empty definition: one phase for each level. -/
theorem plan_ok {d : WorkflowDefinition} (h : d.Accepted) (hne : d.graph.nodeIds ≠ []) :
    ∃ levels order path, Kahn.Leveled d.graph.nodeIds d.graph.edgePairs order levels ∧
      (∀ v, v ∈ order ↔ v ∈ d.graph.nodeIds) ∧
      plan d = .ok {
        phases := (List.range (maxLevel levels + 1)).map fun l =>
          { nodeIds := levelNodes levels l, phaseIndex := l }
        criticalPath := path } := by
  obtain ⟨levels, order, path, hlev, hmem, -, hplan⟩ := plan_steps h hne
  exact ⟨levels, order, path, hlev, hmem, hplan⟩

/-- The planner's levels are layers of the precedence graph. -/
theorem layering_of_leveled {d : WorkflowDefinition} {G : Precedence.Dag String}
    (hnodes : G.nodes = d.graph.nodeIds) (hedges : G.edges = d.graph.edgePairs)
    {levels : Dict String ℕ} {order : List String}
    (hmem : ∀ v, v ∈ order ↔ v ∈ d.graph.nodeIds)
    (h : Kahn.Leveled d.graph.nodeIds d.graph.edgePairs order levels) :
    Precedence.Layering G (Kahn.level levels) := by
  rw [← hnodes, ← hedges] at h
  exact h.layering fun v hv => (hmem v).mpr (hnodes ▸ hv)

/-- The planner never fails on an accepted definition, the empty one included. -/
theorem plan_total {d : WorkflowDefinition} (h : d.Accepted) : ∃ p, plan d = .ok p := by
  by_cases hne : d.graph.nodeIds = []
  · exact ⟨{ phases := [] }, by simp [plan, hne]⟩
  · obtain ⟨levels, order, path, _, _, hplan⟩ := plan_ok h hne
    exact ⟨_, hplan⟩

end Levels

end WorkflowPlanner

end MollisRuntime.Workflow
