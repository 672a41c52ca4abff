import MollisRuntime.Workflow.CycleDetection
import MollisRuntime.Workflow.Planner

/-!
The plan of an accepted definition against the paths of its graph. The phase of
a node is the length of the longest path that ends at it, so no layering has
fewer phases, and the critical path is one of the longest paths.
-/
namespace MollisRuntime.Workflow

open Ordered Python Paths Precedence

/-- A path along the edges of the graph. -/
abbrev ExecutionGraph.IsPath (g : ExecutionGraph) (path : List String) : Prop :=
  Paths.IsPath g.nodeIds g.edgePairs path

namespace WorkflowPlanner

variable {levels : Dict String ℕ}

section Phases

theorem nodup_levelNodes (levels : Dict String ℕ) (l : ℕ) : (levelNodes levels l).Nodup :=
  levels.nodup_keys.sublist (List.filter_sublist.map Prod.fst)

/-- The phases taken together are the nodes. -/
theorem levelNodes_perm (levels : Dict String ℕ) :
    ((List.range (maxLevel levels + 1)).flatMap (levelNodes levels)).Perm levels.keys := by
  refine (List.perm_ext_iff_of_nodup ?_ levels.nodup_keys').mpr ?_
  · refine List.nodup_flatMap.mpr ⟨fun l _ => nodup_levelNodes levels l, ?_⟩
    refine List.nodup_range.imp ?_
    intro k l hne v hk hl
    rw [mem_levelNodes] at hk hl
    rw [hk] at hl
    exact hne (Option.some.inj hl)
  · intro v
    rw [List.mem_flatMap, Dict.mem_keys_iff]
    constructor
    · rintro ⟨l, -, hv⟩
      exact ⟨l, (mem_levelNodes levels l v).mp hv⟩
    · rintro ⟨l, hv⟩
      have hle := le_maxLevel levels v l hv
      exact ⟨l, List.mem_range.mpr (by omega), (mem_levelNodes levels l v).mpr hv⟩

theorem level_of_mem_levelNodes {l : ℕ} {v : String} (h : v ∈ levelNodes levels l) :
    v ∈ levels.keys ∧ Kahn.level levels v = l := by
  have hget := (mem_levelNodes levels l v).mp h
  exact ⟨(levels.mem_keys_iff v).mpr ⟨l, hget⟩, level_of_get hget⟩

theorem level_le_maxLevel {v : String} (h : v ∈ levels.keys) :
    Kahn.level levels v ≤ maxLevel levels :=
  le_maxLevel levels v _ (get_of_mem_keys h)

end Phases

/-- The phases are the layers of the longest paths. -/
theorem plan_is_longest_path_layering {d : WorkflowDefinition} (h : d.Accepted)
    (hne : d.graph.nodeIds ≠ []) :
    ∃ p, plan d = .ok p ∧
      p.phases.map ExecutionPhase.phaseIndex = (List.range p.phases.length).map Nat.cast ∧
      (∀ phase ∈ p.phases, phase.nodeIds ≠ []) ∧
      (p.phases.flatMap ExecutionPhase.nodeIds).Perm d.graph.nodeIds ∧
      (∀ phase ∈ p.phases, ∀ v ∈ phase.nodeIds, ∃ k : ℕ, phase.phaseIndex = k ∧
        IsGreatest { n | ∃ path, d.graph.IsPath path ∧ path.getLast? = some v ∧
          path.length = n + 1 } k) ∧
      (∀ u v, (u, v) ∈ d.graph.edgePairs → ∀ before ∈ p.phases, u ∈ before.nodeIds →
        ∀ after ∈ p.phases, v ∈ after.nodeIds → before.phaseIndex < after.phaseIndex) ∧
      ∀ (layer : String → ℕ) (count : ℕ), (∀ v ∈ d.graph.nodeIds, layer v < count) →
        (∀ u v, (u, v) ∈ d.graph.edgePairs → layer u < layer v) → p.phases.length ≤ count := by
  obtain ⟨G, hnodes, hedges⟩ := h.exists_dag
  obtain ⟨levels, order, path, hlev, hmem, -, hplan⟩ := plan_steps h hne
  have hlayers := layering_of_leveled hnodes hedges hmem hlev
  have hkeys : levels.keys ≠ [] := hlev.keys ▸ hne
  obtain ⟨last, hlast, hmax⟩ := exists_level_eq_max hkeys
  rw [hlev.keys] at hlast
  refine ⟨_, hplan, ?_, ?_, ?_, ?_, ?_, ?_⟩
  · simp only [List.map_map, List.length_map, List.length_range]
    exact List.map_congr_left fun l _ => rfl
  · intro phase hphase
    obtain ⟨l, hl, rfl⟩ := List.mem_map.mp hphase
    have hle : l ≤ Kahn.level levels last := by
      have := List.mem_range.mp hl
      omega
    obtain ⟨v, hv, hlevel⟩ := exists_level_eq hlayers (hnodes ▸ hlast) hle
    rw [hnodes, ← hlev.keys] at hv
    exact List.ne_nil_of_mem ((mem_levelNodes levels l v).mpr (hlevel ▸ get_of_mem_keys hv))
  · have hperm := levelNodes_perm levels
    rw [hlev.keys] at hperm
    rw [List.flatMap_map]
    exact hperm
  · intro phase hphase v hv
    obtain ⟨l, -, rfl⟩ := List.mem_map.mp hphase
    obtain ⟨hkey, rfl⟩ := level_of_mem_levelNodes hv
    refine ⟨Kahn.level levels v, rfl, ?_⟩
    have hgreatest := isGreatest_level hlayers (hnodes ▸ hlev.keys ▸ hkey)
    rwa [hnodes, hedges] at hgreatest
  · intro u v huv before hbefore hu after hafter hv
    obtain ⟨k, -, rfl⟩ := List.mem_map.mp hbefore
    obtain ⟨l, -, rfl⟩ := List.mem_map.mp hafter
    obtain ⟨-, hk⟩ := level_of_mem_levelNodes hu
    obtain ⟨-, hl⟩ := level_of_mem_levelNodes hv
    have hclimb := hlayers.climbs u v (hedges ▸ huv)
    rw [hk, hl] at hclimb
    simp only [Nat.cast_lt]
    omega
  · intro layer count hcount hclimb
    have hle : Kahn.level levels last ≤ layer last :=
      level_le_of_climbs hlayers (fun u v huv => hclimb u v (hedges ▸ huv)) (hnodes ▸ hlast)
    have hlt := hcount last hlast
    simp only [List.length_map, List.length_range]
    omega

section Sample

theorem phases_doubled {p : ExecutionPlan} (h : plan doubledDefinition = .ok p) :
    p.phases.map ExecutionPhase.nodeIds = [["A"], ["B", "D"], ["C"]] ∧
      p.criticalPath = ["A", "B", "C"] ∧
      ∃ phase ∈ p.phases, phase.nodeIds = ["C"] ∧ phase.phaseIndex = 2 := by
  have hplan : plan doubledDefinition = .ok {
      phases := [⟨["A"], 0⟩, ⟨["B", "D"], 1⟩, ⟨["C"], 2⟩]
      criticalPath := ["A", "B", "C"] } := by rfl
  rw [h] at hplan
  cases hplan
  simp

theorem plan_is_longest_path_layering_doubled :
    ∃ p, plan doubledDefinition = .ok p ∧
      p.phases.map ExecutionPhase.nodeIds = [["A"], ["B", "D"], ["C"]] ∧
      IsGreatest { n | ∃ path, doubledGraph.IsPath path ∧ path.getLast? = some "C" ∧
        path.length = n + 1 } 2 := by
  obtain ⟨p, hplan, -, -, -, hlongest, -, -⟩ :=
    plan_is_longest_path_layering doubledDefinition_accepted (by decide +kernel)
  have hphases := phases_doubled hplan
  refine ⟨p, hplan, hphases.1, ?_⟩
  obtain ⟨phase, hphase, hindex⟩ : ∃ phase ∈ p.phases,
      phase.nodeIds = ["C"] ∧ phase.phaseIndex = 2 := hphases.2.2
  obtain ⟨k, hk, hgreatest⟩ := hlongest phase hphase "C" (by simp [hindex.1])
  have htwo : k = 2 := by
    rw [hindex.2] at hk
    omega
  rwa [htwo] at hgreatest

end Sample

section Backtracking

/-- No parent has a higher level than the best one. -/
theorem le_bestParent (levels : Dict String ℕ) (first : String) (rest : List String) :
    ∀ p ∈ first :: rest,
      Kahn.level levels p ≤ Kahn.level levels (bestParent levels first rest) := by
  induction rest generalizing first with
  | nil => simp [bestParent]
  | cons q rest ih =>
    unfold bestParent
    rw [List.foldl_cons]
    by_cases hlt : Kahn.level levels first < Kahn.level levels q
    · rw [if_pos hlt]
      have hq := ih q q List.mem_cons_self
      intro p hp
      simp only [List.mem_cons] at hp
      rcases hp with rfl | rfl | hp
      · exact hlt.le.trans hq
      · exact hq
      · exact ih q p (List.mem_cons_of_mem _ hp)
    · rw [if_neg hlt]
      have hfirst := ih first first List.mem_cons_self
      intro p hp
      simp only [List.mem_cons] at hp
      rcases hp with rfl | rfl | hp
      · exact hfirst
      · exact (not_lt.mp hlt).trans hfirst
      · exact ih first p (List.mem_cons_of_mem _ hp)

/-- The parents of every node in a dictionary, in the order of the edges. -/
def ParentsOf (g : ExecutionGraph) (parents : Dict String (List String)) : Prop :=
  ∀ v ∈ g.nodeIds, parents.get? v = some (Kahn.parents g.edgePairs v)

theorem parentsOf_closed {g : ExecutionGraph} (hg : g.Closed) :
    ∃ parents, Kahn.parentsOf g.emptyLists g.edgePairs = .ok parents ∧ ParentsOf g parents := by
  obtain ⟨parents, hparents, hget⟩ := Kahn.parentsOf_ok g.edgePairs g.emptyLists
    (fun u v huv => by rw [g.keys_emptyLists]; exact (hg u v huv).2)
  refine ⟨parents, hparents, ?_⟩
  intro v hv
  simpa using hget v [] (Dict.get?_fromKeys g.nodeIds [] g.nodeIds_nodup v hv)

variable {g : ExecutionGraph} {G : Dag String} {parents : Dict String (List String)}

/-- One turn goes to a parent exactly one level below. -/
theorem bestParent_level (hnodes : G.nodes = g.nodeIds) (hedges : G.edges = g.edgePairs)
    (hlayers : Layering G (Kahn.level levels)) {current p : String} {ps : List String}
    (hcurrent : current ∈ g.nodeIds) (hps : Kahn.parents g.edgePairs current = p :: ps) :
    (bestParent levels p ps, current) ∈ g.edgePairs ∧
      Kahn.level levels (bestParent levels p ps) + 1 = Kahn.level levels current := by
  have hparent : ∀ u, (u, current) ∈ g.edgePairs ↔ u ∈ p :: ps := by
    intro u
    rw [← hps, Kahn.mem_parents]
  have hbest := (hparent _).mpr (bestParent_mem levels p ps)
  have hclimb := hlayers.climbs _ _ (hedges ▸ hbest)
  refine ⟨hbest, ?_⟩
  rcases hlayers.reached current (hnodes ▸ hcurrent) with hzero | ⟨u, hedge, hu⟩
  · omega
  · have hle := le_bestParent levels p ps u ((hparent u).mp (hedges ▸ hedge))
    omega

/-- The walk back from a node is a path to it with one node of each level. -/
theorem backtrack_path (hg : g.Closed) (hnodes : G.nodes = g.nodeIds)
    (hedges : G.edges = g.edgePairs) (hlayers : Layering G (Kahn.level levels))
    (hparents : ParentsOf g parents) (hids : "" ∉ g.nodeIds) {fuel : ℕ} {current : String}
    {path result : List String} (hcurrent : current ∈ g.nodeIds)
    (h : backtrack parents levels fuel current path = some result) :
    ∃ front, result = front ++ path ∧ g.IsPath front ∧ front.getLast? = some current ∧
      front.length = Kahn.level levels current + 1 ∧
      ∀ r, front.head? = some r → ∀ u, (u, r) ∉ g.edgePairs := by
  induction fuel generalizing current path with
  | zero =>
    have hne : current ≠ "" := fun heq => hids (heq ▸ hcurrent)
    simp [backtrack, hne] at h
  | succ fuel ih =>
    have hne : current ≠ "" := fun heq => hids (heq ▸ hcurrent)
    have hget := hparents current hcurrent
    unfold backtrack at h
    rw [if_neg hne, hget, Option.getD_some] at h
    cases hps : Kahn.parents g.edgePairs current with
    | nil =>
      have hroot : ∀ u, (u, current) ∉ g.edgePairs := by
        intro u hedge
        have hmem := (Kahn.mem_parents g.edgePairs u current).mpr hedge
        rw [hps] at hmem
        exact List.not_mem_nil hmem
      have hzero : Kahn.level levels current = 0 := by
        rcases hlayers.reached current (hnodes ▸ hcurrent) with hzero | ⟨u, hedge, -⟩
        · exact hzero
        · exact absurd (hedges ▸ hedge) (hroot u)
      simp only [hps, Option.some.injEq] at h
      refine ⟨[current], h.symm, isPath_singleton hcurrent, rfl, by simp [hzero], ?_⟩
      rintro r hr
      cases hr
      exact hroot
    | cons p ps =>
      obtain ⟨hedge, hlevel⟩ := bestParent_level hnodes hedges hlayers hcurrent hps
      simp only [hps] at h
      obtain ⟨front, hresult, hpath, hlast, hlen, hhead⟩ := ih (hg _ _ hedge).1 h
      refine ⟨front ++ [current], by simp [hresult], hpath.concat hlast hedge hcurrent,
        by simp, by simp only [List.length_append, List.length_singleton]; omega, ?_⟩
      intro r hr
      rw [List.head?_append_of_ne_nil _ hpath.ne_nil] at hr
      exact hhead r hr

end Backtracking

/-- The critical path is one of the longest paths of the graph. -/
theorem critical_path_is_longest {d : WorkflowDefinition} (h : d.Accepted)
    (hne : d.graph.nodeIds ≠ []) (hids : "" ∉ d.graph.nodeIds) :
    ∃ p, plan d = .ok p ∧ d.graph.IsPath p.criticalPath ∧
      (∀ r, p.criticalPath.head? = some r → ∀ u, (u, r) ∉ d.graph.edgePairs) ∧
      p.criticalPath.length = p.phases.length ∧
      ∀ path, d.graph.IsPath path → path.length ≤ p.criticalPath.length := by
  obtain ⟨G, hnodes, hedges⟩ := h.exists_dag
  obtain ⟨levels, order, path, hlev, hmem, hpath, hplan⟩ := plan_steps h hne
  have hlayers := layering_of_leveled hnodes hedges hmem hlev
  have hkeys : levels.keys ≠ [] := hlev.keys ▸ hne
  obtain ⟨last, hlast, hmax⟩ := exists_level_eq_max hkeys
  have hend : last ∈ levelNodes levels (maxLevel levels) :=
    (mem_levelNodes levels _ last).mpr (hmax ▸ get_of_mem_keys hlast)
  obtain ⟨parents, hparentsOf, hparents⟩ := parentsOf_closed h.closed
  unfold calculateCriticalPath at hpath
  cases hends : levelNodes levels (maxLevel levels) with
  | nil =>
    rw [hends] at hend
    exact absurd hend List.not_mem_nil
  | cons current rest =>
    have hphase : current ∈ levelNodes levels (maxLevel levels) := by simp [hends]
    obtain ⟨hkey, hlevel⟩ := level_of_mem_levelNodes hphase
    have hcurrent : current ∈ d.graph.nodeIds := hlev.keys ▸ hkey
    simp only [hends, hparentsOf] at hpath
    cases hback : backtrack parents levels (d.graph.nodeIds.length + 1) current [] with
    | none => simp [hback] at hpath
    | some result =>
      simp only [hback, Except.ok.injEq] at hpath
      subst hpath
      obtain ⟨front, hresult, hfront, -, hlen, hhead⟩ :=
        backtrack_path h.closed hnodes hedges hlayers hparents hids hcurrent hback
      rw [List.append_nil] at hresult
      subst hresult
      refine ⟨_, hplan, hfront, hhead, ?_, ?_⟩
      · simp only [List.length_map, List.length_range]
        omega
      · intro q hq
        have hq' : Paths.IsPath G.nodes G.edges q := by rwa [hnodes, hedges]
        obtain ⟨v, hv⟩ := Option.ne_none_iff_exists'.mp
          (mt List.getLast?_eq_none_iff.mp hq.ne_nil)
        have hle := hq'.length_le hlayers.climbs hv
        have hkey : v ∈ levels.keys := hlev.keys ▸ hq.mem v (List.mem_of_getLast? hv)
        have hbound := level_le_maxLevel hkey
        calc
          q.length ≤ Kahn.level levels v + 1 := hle
          _ ≤ result.length := by omega

theorem critical_path_is_longest_doubled :
    ∃ p, plan doubledDefinition = .ok p ∧ p.criticalPath = ["A", "B", "C"] ∧
      ∀ path, doubledGraph.IsPath path → path.length ≤ 3 := by
  obtain ⟨p, hplan, -, -, -, hlongest⟩ := critical_path_is_longest doubledDefinition_accepted
    (by decide +kernel) (by decide +kernel)
  have hcritical := (phases_doubled hplan).2.1
  refine ⟨p, hplan, hcritical, ?_⟩
  rw [hcritical] at hlongest
  exact hlongest

end WorkflowPlanner

end MollisRuntime.Workflow
