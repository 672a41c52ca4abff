import Mathlib.Logic.Relation
import Mathlib.Logic.Function.Basic
import Mathlib.Order.WellFounded
import Mathlib.Tactic.ByContra

/-!
Execution of a finite precedence graph, over an arbitrary type of vertices.
A marking says which vertices wait, which are active and which are finished.
Finishing a vertex and then activating every ready one is the only move. A
marking is settled when no ready vertex waits, and justified when only ready
vertices have left the waiting phase. A settled marking has an active vertex
until everything is finished.
-/
namespace Precedence

/-- Edges stay inside the vertices and climb in rank, so there is no cycle. -/
structure Dag (V : Type*) where
  nodes : List V
  edges : List (V × V)
  rank : V → ℕ
  source_mem : ∀ u v, (u, v) ∈ edges → u ∈ nodes
  target_mem : ∀ u v, (u, v) ∈ edges → v ∈ nodes
  rank_lt : ∀ u v, (u, v) ∈ edges → rank u < rank v

inductive Phase
  | waiting
  | active
  | finished
  deriving DecidableEq, Repr

abbrev Marking (V : Type*) := V → Phase

variable {V : Type*} (G : Dag V)

def Dag.Ancestor : V → V → Prop := Relation.TransGen fun u v => (u, v) ∈ G.edges

def Ready (m : Marking V) (v : V) : Prop := ∀ u, (u, v) ∈ G.edges → m u = .finished

def Settled (m : Marking V) : Prop := ∀ v ∈ G.nodes, Ready G m v → m v ≠ .waiting

def Justified (m : Marking V) : Prop := ∀ v ∈ G.nodes, m v ≠ .waiting → Ready G m v

/-- Activate every ready waiting vertex, all at once. -/
noncomputable def activate (m : Marking V) : Marking V := by
  classical
  exact fun v => if m v = .waiting ∧ Ready G m v then .active else m v

def finish [DecidableEq V] (m : Marking V) (n : V) : Marking V :=
  Function.update m n .finished

theorem Dag.Ancestor.rank_lt {u v : V} (h : G.Ancestor u v) : G.rank u < G.rank v := by
  induction h with
  | single hedge => exact G.rank_lt _ _ hedge
  | tail _ hedge ih => exact lt_trans ih (G.rank_lt _ _ hedge)

theorem Dag.Ancestor.ne {u v : V} (h : G.Ancestor u v) : u ≠ v := by
  rintro rfl
  exact lt_irrefl _ h.rank_lt

theorem activate_finished_iff (m : Marking V) (v : V) :
    activate G m v = .finished ↔ m v = .finished := by
  unfold activate
  split
  · rename_i h
    simp [h.1]
  · rfl

theorem ready_activate_iff (m : Marking V) (v : V) :
    Ready G (activate G m) v ↔ Ready G m v :=
  forall₂_congr fun u _ => activate_finished_iff G m u

theorem activate_waiting_iff (m : Marking V) (v : V) :
    activate G m v = .waiting ↔ m v = .waiting ∧ ¬ Ready G m v := by
  unfold activate
  split
  · rename_i h
    simp [h.2]
  · rename_i h
    constructor
    · intro hw
      exact ⟨hw, fun hr => h ⟨hw, hr⟩⟩
    · exact And.left

theorem settled_activate (m : Marking V) : Settled G (activate G m) := by
  intro v _ hready hwait
  have hnot := ((activate_waiting_iff G m v).mp hwait).2
  exact hnot ((ready_activate_iff G m v).mp hready)

theorem justified_activate (m : Marking V) (h : Justified G m) :
    Justified G (activate G m) := by
  intro v hv hne
  apply (ready_activate_iff G m v).mpr
  by_contra hnot
  have hw : m v = .waiting := by
    by_contra hw
    exact hnot (h v hv hw)
  exact hne ((activate_waiting_iff G m v).mpr ⟨hw, hnot⟩)

theorem Ready.finish [DecidableEq V] {m : Marking V} {v : V} (h : Ready G m v) (n : V) :
    Ready G (Precedence.finish m n) v := by
  intro u hu
  by_cases hn : u = n
  · simp [Precedence.finish, hn]
  · simpa [Precedence.finish, hn] using h u hu

/-- Only a vertex that had already left the waiting phase may be finished. -/
theorem justified_finish [DecidableEq V] (m : Marking V) (n : V) (h : Justified G m)
    (hn : m n ≠ .waiting) : Justified G (finish m n) := by
  intro v hv hne
  apply Ready.finish
  by_cases hvn : v = n
  · subst v
    exact h n hv hn
  · exact h v hv (by simpa [finish, hvn] using hne)

/-- A vertex that has left the waiting phase has only finished ancestors. -/
theorem ancestors_finished (m : Marking V) (h : Justified G m) {u v : V} (hv : v ∈ G.nodes)
    (hne : m v ≠ .waiting) (hanc : G.Ancestor u v) : m u = .finished := by
  induction hanc using Relation.TransGen.head_induction_on with
  | single hedge => exact h v hv hne _ hedge
  | @head a c hedge _ ih =>
    have hc : m c ≠ .waiting := by rw [ih]; exact Phase.noConfusion
    exact h c (G.target_mem _ _ hedge) hc a hedge

/-- Least-rank argument: an unfinished vertex of least rank is ready. -/
theorem exists_active (m : Marking V) (hsettled : Settled G m)
    (hopen : ∃ v ∈ G.nodes, m v ≠ .finished) : ∃ v ∈ G.nodes, m v = .active := by
  have aux : ∀ r : ℕ, ∀ v ∈ G.nodes, G.rank v = r → m v ≠ .finished →
      ∃ w ∈ G.nodes, m w = .active := by
    intro r
    induction r using Nat.strong_induction_on with
    | h r ih =>
      intro v hv hr hne
      by_cases hready : Ready G m v
      · refine ⟨v, hv, ?_⟩
        have hwait := hsettled v hv hready
        cases hm : m v with
        | waiting => exact absurd hm hwait
        | active => rfl
        | finished => exact absurd hm hne
      · simp only [Ready, not_forall] at hready
        obtain ⟨u, hedge, hu⟩ := hready
        have hlt := G.rank_lt u v hedge
        exact ih (G.rank u) (by omega) u (G.source_mem u v hedge) rfl hu
  obtain ⟨v, hv, hne⟩ := hopen
  exact aux (G.rank v) v hv rfl hne

section Layers

/-- Levels that climb along every edge and never skip a step. -/
structure Layering (L : V → ℕ) : Prop where
  climbs : ∀ u v, (u, v) ∈ G.edges → L u + 1 ≤ L v
  reached : ∀ v ∈ G.nodes, L v = 0 ∨ ∃ u, (u, v) ∈ G.edges ∧ L u + 1 = L v

/-- When exactly the vertices below level `k` are finished, exactly the
vertices of level `k` are active. -/
theorem Layering.active_iff {L : V → ℕ} (hL : Layering G L) (m : Marking V)
    (hs : Settled G m) (hj : Justified G m) (k : ℕ)
    (hfin : ∀ v ∈ G.nodes, m v = .finished ↔ L v < k) (v : V) (hv : v ∈ G.nodes) :
    m v = .active ↔ L v = k := by
  have hnot : m v ≠ .finished ↔ k ≤ L v := by
    rw [ne_eq, hfin v hv, not_lt]
  constructor
  · intro hact
    have hge : k ≤ L v := hnot.mp (by rw [hact]; exact Phase.noConfusion)
    have hready : Ready G m v := hj v hv (by rw [hact]; exact Phase.noConfusion)
    rcases hL.reached v hv with hzero | ⟨u, hedge, hu⟩
    · omega
    · have hlt := (hfin u (G.source_mem u v hedge)).mp (hready u hedge)
      omega
  · intro hk
    have hready : Ready G m v := by
      intro u hedge
      have hle := hL.climbs u v hedge
      exact (hfin u (G.source_mem u v hedge)).mpr (by omega)
    have hw := hs v hv hready
    have hf := hnot.mpr (by omega)
    cases hm : m v with
    | waiting => exact absurd hm hw
    | active => rfl
    | finished => exact absurd hm hf

end Layers

end Precedence
