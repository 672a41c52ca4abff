import Mathlib.Data.Fintype.Card
import Mathlib.Data.List.Chain
import Mathlib.Data.Set.Finite.Basic
import Mathlib.Order.WellFounded
import MollisRuntime.Library.Kahn

/-!
Paths and cycles of a finite graph given by its list of edges. A graph is
acyclic when no vertex is reached from itself; every part of an acyclic graph
has a vertex without a predecessor in that part. Levels that climb along every
edge bound the paths that end at a vertex, and levels that are also reached step
by step are the lengths of the longest ones.
-/
namespace Paths

open Ordered Precedence

variable {V : Type*}

/-- No vertex is reached from itself. -/
def Acyclic (edges : List (V × V)) : Prop :=
  ∀ v, ¬ Relation.TransGen (fun u v => (u, v) ∈ edges) v v

/-- Some vertices, each joined to the next by an edge. -/
structure IsPath (nodes : List V) (edges : List (V × V)) (path : List V) : Prop where
  ne_nil : path ≠ []
  mem : ∀ v ∈ path, v ∈ nodes
  joined : path.IsChain fun u v => (u, v) ∈ edges

section Cycles

variable {edges : List (V × V)}

theorem acyclic_of_rank (rank : V → ℕ) (h : ∀ u v, (u, v) ∈ edges → rank u < rank v) :
    Acyclic edges := by
  have hclimb : ∀ u v, Relation.TransGen (fun u v => (u, v) ∈ edges) u v → rank u < rank v := by
    intro u v huv
    induction huv with
    | single hedge => exact h _ _ hedge
    | tail _ hedge ih => exact ih.trans (h _ _ hedge)
  intro v hv
  exact lt_irrefl _ (hclimb v v hv)

/-- A vertex that is reached first among the remaining ones. -/
theorem Acyclic.exists_source (h : Acyclic edges) {rest : List V} (hne : rest ≠ []) :
    ∃ v ∈ rest, ∀ u ∈ rest, (u, v) ∉ edges := by
  let Before : {v // v ∈ rest} → {v // v ∈ rest} → Prop := fun u v =>
    Relation.TransGen (fun u v => (u, v) ∈ edges) u.1 v.1
  have htrans : IsTrans {v // v ∈ rest} Before := ⟨fun _ _ _ => Relation.TransGen.trans⟩
  have hirrefl : Std.Irrefl Before := ⟨fun v => h v.1⟩
  have hfinite : Finite {v // v ∈ rest} := List.finite_toSet rest
  have hwf : WellFounded Before := Finite.wellFounded_of_trans_of_irrefl Before
  obtain ⟨first, hfirst⟩ := List.exists_mem_of_ne_nil rest hne
  obtain ⟨v, -, hmin⟩ := hwf.has_min Set.univ ⟨⟨first, hfirst⟩, trivial⟩
  refine ⟨v.1, v.2, ?_⟩
  intro u hu hedge
  exact hmin ⟨u, hu⟩ trivial (.single hedge)

/-- A loop is a cycle. -/
theorem not_acyclic_of_edge {v : V} (h : (v, v) ∈ edges) : ¬ Acyclic edges :=
  fun hacyclic => hacyclic v (.single h)

/-- When the queue of Kahn's algorithm is empty, an acyclic graph has been
popped as a whole: a first vertex of the rest would have been queued. -/
theorem popped_of_acyclic [DecidableEq V] {nodes order : List V} {inDegree : Dict V ℤ}
    (hs : ∀ u v, (u, v) ∈ edges → u ∈ nodes) (hacyclic : Acyclic edges)
    (h : Kahn.Inv nodes edges inDegree [] order) : ∀ v ∈ nodes, v ∈ order := by
  by_contra hmissing
  push Not at hmissing
  obtain ⟨w, hw, hworder⟩ := hmissing
  have hrest : nodes.filter (fun v => decide (v ∉ order)) ≠ [] :=
    List.ne_nil_of_mem (List.mem_filter.mpr ⟨hw, by simpa using hworder⟩)
  obtain ⟨v, hv, hfirst⟩ := hacyclic.exists_source hrest
  obtain ⟨hvnodes, hvorder⟩ := List.mem_filter.mp hv
  have hpreds : ∀ u, (u, v) ∈ edges → u ∈ order := by
    intro u hedge
    by_contra hu
    exact hfirst u (List.mem_filter.mpr ⟨hs u v hedge, by simpa using hu⟩) hedge
  have hqueued := (h.queued v hvnodes).mpr ((Kahn.pending_eq_zero_iff edges order v).mpr hpreds)
  rw [List.append_nil] at hqueued
  exact absurd hqueued (by simpa using hvorder)

end Cycles

section Levels

variable {nodes : List V} {edges : List (V × V)} {level : V → ℕ}

/-- Levels that climb leave room for the vertices before the last one. -/
theorem length_le_of_chain {path : List V} {u v : V}
    (h : (u :: path).IsChain fun a b => level a + 1 ≤ level b)
    (hv : (u :: path).getLast? = some v) : level u + path.length ≤ level v := by
  induction path generalizing u with
  | nil =>
    cases hv
    simp
  | cons w path ih =>
    obtain ⟨hedge, hrest⟩ := List.isChain_cons_cons.mp h
    rw [List.getLast?_cons_cons] at hv
    have hle := ih hrest hv
    rw [List.length_cons]
    omega

theorem IsPath.length_le {path : List V} {v : V} (hpath : IsPath nodes edges path)
    (hclimb : ∀ u v, (u, v) ∈ edges → level u + 1 ≤ level v)
    (hv : path.getLast? = some v) : path.length ≤ level v + 1 := by
  cases path with
  | nil => exact absurd rfl hpath.ne_nil
  | cons u path =>
    have hle := length_le_of_chain (hpath.joined.imp fun a b => hclimb a b) hv
    rw [List.length_cons]
    omega

theorem IsPath.concat {path : List V} {u v : V} (hpath : IsPath nodes edges path)
    (hu : path.getLast? = some u) (hedge : (u, v) ∈ edges) (hv : v ∈ nodes) :
    IsPath nodes edges (path ++ [v]) where
  ne_nil := by simp
  mem := by
    intro w hw
    rcases List.mem_append.mp hw with hw | hw
    · exact hpath.mem w hw
    · rw [List.mem_singleton.mp hw]
      exact hv
  joined := by
    refine List.isChain_append.mpr ⟨hpath.joined, List.isChain_singleton v, ?_⟩
    intro a ha b hb
    rw [hu] at ha
    cases ha
    cases hb
    exact hedge

theorem isPath_singleton {v : V} (hv : v ∈ nodes) : IsPath nodes edges [v] where
  ne_nil := by simp
  mem := by simpa using hv
  joined := List.isChain_singleton v

variable {G : Dag V}

/-- A vertex ends a path with one vertex of each level up to its own. -/
theorem exists_path (h : Layering G level) {v : V} (hv : v ∈ G.nodes) :
    ∃ path, IsPath G.nodes G.edges path ∧ path.getLast? = some v ∧
      path.length = level v + 1 := by
  generalize hk : level v = k
  induction k generalizing v with
  | zero => exact ⟨[v], isPath_singleton hv, rfl, rfl⟩
  | succ k ih =>
    rcases h.reached v hv with hzero | ⟨u, hedge, hu⟩
    · omega
    · obtain ⟨path, hpath, hlast, hlen⟩ := ih (G.source_mem u v hedge) (by omega)
      exact ⟨path ++ [v], hpath.concat hlast hedge hv, by simp, by simp [hlen]⟩

/-- The level of a vertex is the number of edges of the longest path to it. -/
theorem isGreatest_level (h : Layering G level) {v : V} (hv : v ∈ G.nodes) :
    IsGreatest
      { k | ∃ path, IsPath G.nodes G.edges path ∧ path.getLast? = some v ∧ path.length = k + 1 }
      (level v) := by
  refine ⟨exists_path h hv, ?_⟩
  rintro k ⟨path, hpath, hlast, hlen⟩
  have hle := hpath.length_le h.climbs hlast
  omega

/-- No level below that of a vertex is left out. -/
theorem exists_level_eq (h : Layering G level) {v : V} (hv : v ∈ G.nodes) {k : ℕ}
    (hk : k ≤ level v) : ∃ u ∈ G.nodes, level u = k := by
  generalize hl : level v = l at hk
  induction l generalizing v with
  | zero => exact ⟨v, hv, by omega⟩
  | succ l ih =>
    rcases Nat.eq_or_lt_of_le hk with heq | hlt
    · exact ⟨v, hv, by omega⟩
    · rcases h.reached v hv with hzero | ⟨u, hedge, hu⟩
      · omega
      · exact ih (G.source_mem u v hedge) (by omega) (by omega)

/-- Any other numbering that climbs is nowhere below the levels. -/
theorem level_le_of_climbs (h : Layering G level) {other : V → ℕ}
    (hclimb : ∀ u v, (u, v) ∈ G.edges → other u < other v) {v : V} (hv : v ∈ G.nodes) :
    level v ≤ other v := by
  obtain ⟨path, hpath, hlast, hlen⟩ := exists_path h hv
  have hle : path.length ≤ other v + 1 := hpath.length_le (fun u w huw => hclimb u w huw) hlast
  omega

end Levels

section Following

/-- A walk from vertex to vertex that ever stops does so within as many steps as
there are vertices: before it stops it comes to no vertex twice. -/
theorem iterate_eq_within {f : V → V} {nodes : List V} {v stop : V}
    (hmem : ∀ i, f^[i] v ≠ stop → f^[i] v ∈ nodes) (h : ∃ i, f^[i] v = stop) :
    ∃ i ≤ nodes.length, f^[i] v = stop := by
  classical
  refine ⟨Nat.find h, ?_, Nat.find_spec h⟩
  have hbefore : ∀ i < Nat.find h, f^[i] v ≠ stop := fun i hi => Nat.find_min h hi
  have hdistinct : ((List.range (Nat.find h)).map fun i => f^[i] v).Nodup := by
    refine (List.nodup_map_iff_inj_on List.nodup_range).mpr ?_
    have hne : ∀ a b, a < b → b < Nat.find h → f^[a] v ≠ f^[b] v := by
      intro a b hab hb heq
      have hstop : f^[Nat.find h - b + a] v = stop := by
        rw [Function.iterate_add_apply, heq, ← Function.iterate_add_apply,
          Nat.sub_add_cancel hb.le]
        exact Nat.find_spec h
      exact hbefore _ (by omega) hstop
    intro a ha b hb heq
    have ha' := List.mem_range.mp ha
    have hb' := List.mem_range.mp hb
    rcases lt_trichotomy a b with hlt | heq' | hgt
    · exact absurd heq (hne a b hlt hb')
    · exact heq'
    · exact absurd heq.symm (hne b a hgt ha')
  have hsubset : ((List.range (Nat.find h)).map fun i => f^[i] v) ⊆ nodes := by
    intro w hw
    obtain ⟨i, hi, rfl⟩ := List.mem_map.mp hw
    exact hmem i (hbefore i (List.mem_range.mp hi))
  have hle := (hdistinct.subperm hsubset).length_le
  simpa using hle

end Following

end Paths
