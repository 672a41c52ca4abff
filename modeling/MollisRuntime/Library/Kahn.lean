import Mathlib.Data.List.Count
import Mathlib.Data.List.Induction
import Mathlib.Data.List.Perm.Subperm
import Mathlib.Data.Int.Basic
import Mathlib.Order.Basic
import Mathlib.Tactic.Ring
import MollisRuntime.Library.OrderedDict
import MollisRuntime.Library.Precedence

/-!
Kahn's algorithm on a list of vertices and a list of edges, duplicates and
self-loops allowed. One loop pops a vertex, visits its children, lowers their
in-degrees and queues those that reach zero; an accumulator is carried along,
so a sort and a level computation are two instances of it. The popped vertices
form a duplicate-free list in which every vertex comes after its predecessors.
-/
namespace Kahn

open Ordered

universe u
variable {V : Type u} [DecidableEq V]

/-- Append to the list stored under a key; the missing key is the error. -/
def appendAt (d : Dict V (List V)) (k x : V) : Except V (Dict V (List V)) :=
  match d.get? k with
  | none => .error k
  | some xs => .ok (d.set k (xs ++ [x]))

def increment (d : Dict V ℤ) (k : V) : Except V (Dict V ℤ) :=
  match d.get? k with
  | none => .error k
  | some n => .ok (d.set k (n + 1))

/-- Adjacency lists and in-degrees, edge by edge. -/
def index (adj : Dict V (List V)) (inDegree : Dict V ℤ) :
    List (V × V) → Except V (Dict V (List V) × Dict V ℤ)
  | [] => .ok (adj, inDegree)
  | (u, v) :: rest =>
      match appendAt adj u v with
      | .error k => .error k
      | .ok adj' =>
        match increment inDegree v with
        | .error k => .error k
        | .ok inDegree' => index adj' inDegree' rest

/-- Group the edge sources under their targets. -/
def parentsOf (deps : Dict V (List V)) : List (V × V) → Except V (Dict V (List V))
  | [] => .ok deps
  | (u, v) :: rest =>
      match appendAt deps v u with
      | .error k => .error k
      | .ok deps' => parentsOf deps' rest

def relax (s : Dict V ℤ × List V) (v : V) : Dict V ℤ × List V :=
  let d := (s.1.get? v).getD 0 - 1
  (s.1.set v d, if d = 0 then s.2 ++ [v] else s.2)

/-- The loop: `enter` is run on each popped vertex, `visit` on each of its
children. Running out of fuel is `none`. -/
def drain {σ : Type*} (adj : Dict V (List V)) (enter : σ → V → σ) (visit : V → σ → V → σ) :
    ℕ → Dict V ℤ → List V → σ → Option σ
  | _, _, [], acc => some acc
  | 0, _, _ :: _, _ => none
  | fuel + 1, inDegree, u :: queue, acc =>
      let children := (adj.get? u).getD []
      let s := children.foldl relax (inDegree, queue)
      drain adj enter visit fuel s.1 s.2 (children.foldl (visit u) (enter acc u))

/-- The vertices in the order in which the loop pops them. -/
def popped (adj : Dict V (List V)) (fuel : ℕ) (inDegree : Dict V ℤ) (queue : List V)
    (order : List V) : Option (List V) :=
  drain adj (fun o u => o ++ [u]) (fun _ o _ => o) fuel inDegree queue order

def children (edges : List (V × V)) (u : V) : List V :=
  (edges.filter fun e => e.1 = u).map Prod.snd

def parents (edges : List (V × V)) (v : V) : List V :=
  (edges.filter fun e => e.2 = v).map Prod.fst

/-- Edges into `v` whose source has not been popped yet. -/
def pending (edges : List (V × V)) (order : List V) (v : V) : ℕ :=
  edges.countP fun e => e.2 = v ∧ e.1 ∉ order

/-- Every vertex of the list comes after all its predecessors. -/
def Sorted (edges : List (V × V)) (order : List V) : Prop :=
  ∀ l₁ v l₂, order = l₁ ++ v :: l₂ → ∀ u, (u, v) ∈ edges → u ∈ l₁

theorem mem_children (edges : List (V × V)) (u v : V) :
    v ∈ children edges u ↔ (u, v) ∈ edges := by
  simp [children]

theorem mem_parents (edges : List (V × V)) (u v : V) :
    u ∈ parents edges v ↔ (u, v) ∈ edges := by
  simp [parents]

section Index

theorem appendAt_ok {d : Dict V (List V)} {k : V} {xs : List V} (x : V)
    (h : d.get? k = some xs) : appendAt d k x = .ok (d.set k (xs ++ [x])) := by
  simp [appendAt, h]

theorem increment_ok {d : Dict V ℤ} {k : V} {n : ℤ} (h : d.get? k = some n) :
    increment d k = .ok (d.set k (n + 1)) := by
  simp [increment, h]

/-- With every endpoint indexed, the pass succeeds, keeps the keys and appends
each vertex's children and incoming edge count. -/
theorem index_ok (edges : List (V × V)) (adj : Dict V (List V)) (inDegree : Dict V ℤ)
    (hs : ∀ u v, (u, v) ∈ edges → u ∈ adj.keys)
    (ht : ∀ u v, (u, v) ∈ edges → v ∈ inDegree.keys) :
    ∃ adj' inDegree', index adj inDegree edges = .ok (adj', inDegree') ∧
      inDegree'.keys = inDegree.keys ∧
      (∀ u xs, adj.get? u = some xs → adj'.get? u = some (xs ++ children edges u)) ∧
      (∀ v n, inDegree.get? v = some n →
        inDegree'.get? v = some (n + (edges.countP fun e => e.2 = v : ℕ))) := by
  induction edges generalizing adj inDegree with
  | nil => exact ⟨adj, inDegree, rfl, rfl, by simp [children], by simp⟩
  | cons e rest ih =>
    obtain ⟨u, v⟩ := e
    obtain ⟨xs, hxs⟩ := (adj.mem_keys_iff u).mp (hs u v (by simp))
    obtain ⟨n, hn⟩ := (inDegree.mem_keys_iff v).mp (ht u v (by simp))
    have hkeys : (inDegree.set v (n + 1)).keys = inDegree.keys :=
      inDegree.keys_set_of_mem v (n + 1) (ht u v (by simp))
    obtain ⟨adj', inDegree', hindex, hk, hadj, hdeg⟩ :=
      ih (adj.set u (xs ++ [v])) (inDegree.set v (n + 1))
        (fun a b hab => (adj.mem_keys_set u a _).mpr
          (Or.inr (hs a b (List.mem_cons_of_mem _ hab))))
        (fun a b hab => by rw [hkeys]; exact ht a b (List.mem_cons_of_mem _ hab))
    refine ⟨adj', inDegree', ?_, by rw [hk, hkeys], ?_, ?_⟩
    · simp only [index, appendAt_ok v hxs, increment_ok hn, hindex]
    · intro a ys hys
      by_cases ha : u = a
      · subst a
        rw [hxs] at hys
        cases hys
        rw [hadj u (xs ++ [v]) (by simp)]
        simp [children]
      · rw [hadj a ys (by rw [adj.get?_set_ne u a _ ha]; exact hys)]
        simp [children, ha]
    · intro b m hm
      by_cases hb : v = b
      · subst b
        rw [hn] at hm
        cases hm
        rw [hdeg v (n + 1) (by simp)]
        simp only [List.countP_cons, decide_true, if_true]
        push_cast
        ring_nf
      · rw [hdeg b m (by rw [inDegree.get?_set_ne v b _ hb]; exact hm)]
        simp [hb]

theorem parentsOf_ok (edges : List (V × V)) (deps : Dict V (List V))
    (ht : ∀ u v, (u, v) ∈ edges → v ∈ deps.keys) :
    ∃ deps', parentsOf deps edges = .ok deps' ∧
      ∀ v xs, deps.get? v = some xs → deps'.get? v = some (xs ++ parents edges v) := by
  induction edges generalizing deps with
  | nil => exact ⟨deps, rfl, by simp [parents]⟩
  | cons e rest ih =>
    obtain ⟨u, v⟩ := e
    obtain ⟨xs, hxs⟩ := (deps.mem_keys_iff v).mp (ht u v (by simp))
    obtain ⟨deps', hparents, hget⟩ := ih (deps.set v (xs ++ [u]))
      (fun a b hab => (deps.mem_keys_set v b _).mpr
        (Or.inr (ht a b (List.mem_cons_of_mem _ hab))))
    refine ⟨deps', ?_, ?_⟩
    · simp only [parentsOf, appendAt_ok u hxs, hparents]
    · intro b ys hys
      by_cases hb : v = b
      · subst b
        rw [hxs] at hys
        cases hys
        rw [hget v (xs ++ [u]) (by simp)]
        simp [parents]
      · rw [hget b ys (by rw [deps.get?_set_ne v b _ hb]; exact hys)]
        simp [parents, hb]

end Index

/-- Whatever is accumulated, the loop is the fold over the popped vertices. -/
theorem drain_eq_fold {σ : Type*} (adj : Dict V (List V)) (enter : σ → V → σ)
    (visit : V → σ → V → σ) (fuel : ℕ) (inDegree : Dict V ℤ) (queue : List V)
    (acc : σ) (order : List V) :
    drain adj enter visit fuel inDegree queue
        (order.foldl (fun a u => ((adj.get? u).getD []).foldl (visit u) (enter a u)) acc) =
      (popped adj fuel inDegree queue order).map
        (List.foldl (fun a u => ((adj.get? u).getD []).foldl (visit u) (enter a u)) acc) := by
  induction fuel generalizing inDegree queue order with
  | zero => cases queue <;> rfl
  | succ fuel ih =>
    cases queue with
    | nil => rfl
    | cons u queue =>
      have h := ih (((adj.get? u).getD []).foldl relax (inDegree, queue)).1
        (((adj.get? u).getD []).foldl relax (inDegree, queue)).2 (order ++ [u])
      rw [List.foldl_append] at h
      simp only [List.foldl_cons, List.foldl_nil] at h
      simp only [drain, popped, List.foldl_fixed] at h ⊢
      exact h

/-- The children that were visited have their in-degrees lowered by their multiplicities,
and those that reached zero are queued once. -/
structure Relaxed (inDegree : Dict V ℤ) (queue : List V) (d : V → ℕ) (cs added : List V)
    (s : Dict V ℤ × List V) : Prop where
  queue : s.2 = queue ++ added
  nodup : added.Nodup
  mem : ∀ v, v ∈ added ↔ v ∈ cs ∧ d v = cs.count v
  degree : ∀ v, s.1.get? v =
    if v ∈ cs then some ((d v - cs.count v : ℕ) : ℤ) else inDegree.get? v

/-- One more visit. -/
theorem Relaxed.snoc {inDegree : Dict V ℤ} {queue : List V} {d : V → ℕ} {cs added : List V}
    {s : Dict V ℤ × List V} (h : Relaxed inDegree queue d cs added s) {c : V}
    (hd : inDegree.get? c = some (d c : ℤ)) (hle : cs.count c + 1 ≤ d c) :
    ∃ added', Relaxed inDegree queue d (cs ++ [c]) added' (relax s c) := by
  have hnow : s.1.get? c = some ((d c - cs.count c : ℕ) : ℤ) := by
    rw [h.degree]
    split
    next => rfl
    next hnew => rw [hd, List.count_eq_zero.mpr hnew, Nat.sub_zero]
  have hlowered : ((d c - cs.count c : ℕ) : ℤ) - 1 = ((d c - (cs.count c + 1) : ℕ) : ℤ) := by omega
  have hdegree : ∀ v, (s.1.set c ((d c - (cs.count c + 1) : ℕ) : ℤ)).get? v =
      if v ∈ cs ++ [c] then some ((d v - (cs ++ [c]).count v : ℕ) : ℤ)
      else inDegree.get? v := by
    intro v
    by_cases hvc : c = v
    · subst v
      simp
    · rw [Dict.get?_set_ne _ _ _ _ hvc, h.degree]
      simp [Ne.symm hvc, List.count_cons_of_ne hvc]
  have hother : ∀ v, c ≠ v →
      (v ∈ cs ++ [c] ∧ d v = (cs ++ [c]).count v ↔ v ∈ cs ∧ d v = cs.count v) := by
    intro v hvc
    simp [Ne.symm hvc, List.count_cons_of_ne hvc]
  have hnotadded : c ∉ added := by
    intro hadded
    have heq := ((h.mem c).mp hadded).2
    omega
  unfold relax
  rw [hnow, Option.getD_some, hlowered]
  by_cases hzero : ((d c - (cs.count c + 1) : ℕ) : ℤ) = 0
  · refine ⟨added ++ [c], ?_, ?_, ?_, hdegree⟩
    · simp only [if_pos hzero]
      rw [h.queue, List.append_assoc]
    · refine List.nodup_append.mpr ⟨h.nodup, List.nodup_singleton c, ?_⟩
      rintro a ha b hb rfl
      exact hnotadded (List.mem_singleton.mp hb ▸ ha)
    · intro v
      rw [List.mem_append, List.mem_singleton]
      by_cases hvc : c = v
      · subst v
        have hdc : d c = cs.count c + 1 := by omega
        simp [hdc]
      · rw [hother v hvc, h.mem, or_iff_left (Ne.symm hvc)]
  · refine ⟨added, ?_, h.nodup, ?_, hdegree⟩
    · simp only [if_neg hzero]
      exact h.queue
    · intro v
      by_cases hvc : c = v
      · subst v
        refine iff_of_false hnotadded ?_
        rintro ⟨-, heq⟩
        rw [List.count_append, List.count_singleton_self] at heq
        omega
      · rw [hother v hvc, h.mem]

/-- Visiting a list of children, each at most as often as its in-degree says. -/
theorem relaxed_foldl (cs : List V) (inDegree : Dict V ℤ) (queue : List V) (d : V → ℕ)
    (hd : ∀ v ∈ cs, inDegree.get? v = some (d v : ℤ)) (hle : ∀ v ∈ cs, cs.count v ≤ d v) :
    ∃ added, Relaxed inDegree queue d cs added (cs.foldl relax (inDegree, queue)) := by
  induction cs using List.reverseRecOn with
  | nil => exact ⟨[], by simp, List.nodup_nil, by simp, by simp⟩
  | append_singleton cs c ih =>
    have hlater (v : V) (hv : v ∈ cs) : v ∈ cs ++ [c] := List.mem_append_left _ hv
    obtain ⟨added, h⟩ := ih (fun v hv => hd v (hlater v hv)) fun v hv => by
      have hcount := hle v (hlater v hv)
      rw [List.count_append] at hcount
      omega
    have hc := hle c (by simp)
    rw [List.count_append, List.count_singleton_self] at hc
    rw [List.foldl_append]
    exact h.snoc (hd c (by simp)) hc

section Loop

/-- The loop invariant: in-degrees count the edges from vertices not popped
yet, and exactly the vertices at zero have been queued. -/
structure Inv (nodes : List V) (edges : List (V × V)) (inDegree : Dict V ℤ)
    (queue order : List V) : Prop where
  nodup : (order ++ queue).Nodup
  subset : ∀ v ∈ order ++ queue, v ∈ nodes
  degree : ∀ v ∈ nodes, inDegree.get? v = some (pending edges order v : ℤ)
  queued : ∀ v ∈ nodes, v ∈ order ++ queue ↔ pending edges order v = 0
  sorted : Sorted edges order

theorem pending_nil (edges : List (V × V)) (v : V) :
    pending edges [] v = edges.countP fun e => e.2 = v := by
  simp [pending]

theorem pending_append (edges : List (V × V)) (order : List V) (u v : V) (hu : u ∉ order) :
    pending edges order v = pending edges (order ++ [u]) v + (children edges u).count v := by
  induction edges with
  | nil => rfl
  | cons e rest ih =>
    simp only [pending, children] at ih ⊢
    simp only [List.countP_cons, ih]
    by_cases he : e.1 = u
    · subst he
      by_cases hv : e.2 = v
      · simp [hu, hv]
        omega
      · simp [hv]
    · simp only [he, decide_false, List.filter_cons, Bool.false_eq_true, if_false,
        List.mem_append, List.mem_singleton, or_false]
      omega

theorem pending_eq_zero_iff (edges : List (V × V)) (order : List V) (v : V) :
    pending edges order v = 0 ↔ ∀ u, (u, v) ∈ edges → u ∈ order := by
  simp only [pending, List.countP_eq_zero, decide_eq_true_eq, not_and, not_not, Prod.forall]
  constructor
  · intro h u hu
    exact h u v hu rfl
  · rintro h a b hab rfl
    exact h a hab

omit [DecidableEq V] in
theorem Sorted.append {edges : List (V × V)} {order : List V} (h : Sorted edges order) (v : V)
    (hv : ∀ u, (u, v) ∈ edges → u ∈ order) : Sorted edges (order ++ [v]) := by
  intro l₁ w l₂ heq
  rcases List.eq_nil_or_concat l₂ with rfl | ⟨l, x, rfl⟩
  · obtain ⟨rfl, hw⟩ := List.append_inj' heq rfl
    cases hw
    exact hv
  · have heq' : order ++ [v] = (l₁ ++ w :: l) ++ [x] := by simpa using heq
    exact h l₁ w l (List.append_inj' heq' rfl).1

/-- One turn of the loop keeps the invariant. -/
theorem Inv.step {nodes : List V} {edges : List (V × V)} {inDegree : Dict V ℤ}
    {queue order : List V} {u : V} (ht : ∀ a b, (a, b) ∈ edges → b ∈ nodes)
    (h : Inv nodes edges inDegree (u :: queue) order) :
    Inv nodes edges ((children edges u).foldl relax (inDegree, queue)).1
      ((children edges u).foldl relax (inDegree, queue)).2 (order ++ [u]) := by
  have hu : u ∉ order := by
    intro hmem
    exact (List.nodup_append.mp h.nodup).2.2 u hmem u (by simp) rfl
  have hsplit : ∀ v, pending edges order v =
      pending edges (order ++ [u]) v + (children edges u).count v :=
    fun v => pending_append edges order u v hu
  have hchild : ∀ v ∈ children edges u, v ∈ nodes := fun v hv =>
    ht u v ((mem_children edges u v).mp hv)
  obtain ⟨added, hqueue, hadded, hmem, hget⟩ := relaxed_foldl (children edges u) inDegree queue
    (pending edges order) (fun v hv => h.degree v (hchild v hv))
    (fun v _ => by rw [hsplit v]; omega)
  have hnew : ∀ v, v ∈ added → v ∉ order ++ u :: queue := by
    intro v hv hold
    obtain ⟨hc, heq⟩ := (hmem v).mp hv
    have hzero := (h.queued v (hchild v hc)).mp hold
    have hpos : 0 < (children edges u).count v := List.count_pos_iff.mpr hc
    omega
  have hlist : (order ++ [u]) ++ (queue ++ added) = (order ++ u :: queue) ++ added := by simp
  refine ⟨?_, ?_, ?_, ?_, ?_⟩
  · rw [hqueue, hlist]
    refine List.nodup_append.mpr ⟨h.nodup, hadded, ?_⟩
    rintro a ha b hb rfl
    exact hnew a hb ha
  · intro v hv
    rw [hqueue, hlist] at hv
    rcases List.mem_append.mp hv with hold | hadd
    · exact h.subset v hold
    · exact hchild v ((hmem v).mp hadd).1
  · intro v hv
    rw [hget v]
    split
    · have hs := hsplit v
      have hn : pending edges order v - (children edges u).count v =
          pending edges (order ++ [u]) v := by omega
      rw [hn]
    · rename_i hc
      have hcount : (children edges u).count v = 0 := List.count_eq_zero.mpr hc
      rw [h.degree v hv, hsplit v, hcount, Nat.add_zero]
  · intro v hv
    rw [hqueue, hlist, List.mem_append, h.queued v hv, hmem v]
    have hs := hsplit v
    constructor
    · rintro (hz | ⟨_, hz⟩) <;> omega
    · intro hz
      by_cases hc : v ∈ children edges u
      · exact Or.inr ⟨hc, by omega⟩
      · have hcount : (children edges u).count v = 0 := List.count_eq_zero.mpr hc
        exact Or.inl (by omega)
  · apply h.sorted.append
    exact (pending_eq_zero_iff edges order u).mp
      ((h.queued u (h.subset u (by simp))).mp (by simp))

/-- Enough fuel for the unpopped vertices drains the queue. -/
theorem popped_of_inv {nodes : List V} {edges : List (V × V)} {adj : Dict V (List V)}
    (ht : ∀ a b, (a, b) ∈ edges → b ∈ nodes)
    (hadj : ∀ u ∈ nodes, adj.get? u = some (children edges u))
    (fuel : ℕ) (inDegree : Dict V ℤ) (queue order : List V)
    (h : Inv nodes edges inDegree queue order) (hfuel : nodes.length ≤ order.length + fuel) :
    ∃ final inDegree', popped adj fuel inDegree queue order = some final ∧
      Inv nodes edges inDegree' [] final := by
  induction fuel generalizing inDegree queue order with
  | zero =>
    cases queue with
    | nil => exact ⟨order, inDegree, rfl, h⟩
    | cons u queue =>
      have hlen := (h.nodup.subperm h.subset).length_le
      simp only [List.length_append, List.length_cons] at hlen
      omega
  | succ fuel ih =>
    cases queue with
    | nil => exact ⟨order, inDegree, rfl, h⟩
    | cons u queue =>
      have hu : adj.get? u = some (children edges u) := hadj u (h.subset u (by simp))
      obtain ⟨final, inDegree', hfinal, hinv⟩ := ih _ _ _ (h.step ht)
        (by simp only [List.length_append, List.length_cons, List.length_nil]; omega)
      refine ⟨final, inDegree', ?_, hinv⟩
      simpa only [popped, drain, hu, Option.getD_some, List.foldl_fixed] using hfinal

/-- When every vertex was popped, its position is a rank that every edge climbs. -/
theorem rank_of_sorted {nodes : List V} {edges : List (V × V)} {order : List V}
    (hsorted : Sorted edges order) (hnodup : order.Nodup)
    (hall : ∀ v ∈ nodes, v ∈ order) (ht : ∀ a b, (a, b) ∈ edges → b ∈ nodes)
    (u v : V) (hedge : (u, v) ∈ edges) : order.idxOf u < order.idxOf v := by
  obtain ⟨l₁, l₂, rfl⟩ := List.append_of_mem (hall v (ht u v hedge))
  have hu : u ∈ l₁ := hsorted l₁ v l₂ rfl u hedge
  have hv : v ∉ l₁ := by
    intro hmem
    exact (List.nodup_append.mp hnodup).2.2 v hmem v (by simp) rfl
  rw [List.idxOf_append_of_mem hu, List.idxOf_append_of_notMem hv]
  have := List.idxOf_lt_length_iff.mpr hu
  omega

end Loop

section Levels

def level (levels : Dict V ℕ) (v : V) : ℕ := (levels.get? v).getD 0

/-- The child's level becomes at least one more than the parent's. -/
def raise (u : V) (levels : Dict V ℕ) (v : V) : Dict V ℕ :=
  levels.set v (max (level levels v) (level levels u + 1))

theorem level_raise (u v w : V) (levels : Dict V ℕ) :
    level (raise u levels v) w =
      if v = w then max (level levels v) (level levels u + 1) else level levels w := by
  unfold raise level
  rw [Dict.get?_set]
  split <;> rfl

theorem level_foldl_raise (u : V) (cs : List V) (levels : Dict V ℕ) (hu : u ∉ cs) (w : V) :
    level (cs.foldl (raise u) levels) w =
      if w ∈ cs then max (level levels w) (level levels u + 1) else level levels w := by
  induction cs generalizing levels with
  | nil => simp
  | cons c rest ih =>
    simp only [List.mem_cons, not_or] at hu
    have hlu : level (raise u levels c) u = level levels u := by
      simp [level_raise, Ne.symm hu.1]
    rw [List.foldl_cons, ih (raise u levels c) hu.2, hlu, level_raise]
    by_cases hc : c = w
    · subst c
      by_cases hr : w ∈ rest <;> simp [hr]
    · simp [hc, Ne.symm hc]

theorem keys_foldl_raise (u : V) (cs : List V) (levels : Dict V ℕ)
    (h : ∀ v ∈ cs, v ∈ levels.keys) : (cs.foldl (raise u) levels).keys = levels.keys := by
  induction cs generalizing levels with
  | nil => rfl
  | cons c rest ih =>
    have hk : (raise u levels c).keys = levels.keys :=
      levels.keys_set_of_mem c _ (h c (by simp))
    rw [List.foldl_cons, ih _ (fun v hv => by rw [hk]; exact h v (List.mem_cons_of_mem _ hv)), hk]

/-- What the levels say after the vertices `done` have been popped. -/
structure Leveled (nodes : List V) (edges : List (V × V)) (done : List V)
    (levels : Dict V ℕ) : Prop where
  keys : levels.keys = nodes
  climbs : ∀ u v, (u, v) ∈ edges → u ∈ done → level levels u + 1 ≤ level levels v
  reached : ∀ v ∈ nodes, level levels v = 0 ∨
    ∃ u ∈ done, (u, v) ∈ edges ∧ level levels u + 1 = level levels v
  bounded : ∀ v ∈ nodes, level levels v ≤ done.length

/-- Popping `u` after all its predecessors settles its level for good. -/
theorem Leveled.step {nodes : List V} {edges : List (V × V)} {done : List V}
    {levels : Dict V ℕ} {u : V} (ht : ∀ a b, (a, b) ∈ edges → b ∈ nodes)
    (h : Leveled nodes edges done levels) (hnew : u ∉ done)
    (hpred : ∀ a, (a, u) ∈ edges → a ∈ done)
    (hdone : ∀ v ∈ done, ∀ a, (a, v) ∈ edges → a ∈ done) (hu : u ∈ nodes) :
    Leveled nodes edges (done ++ [u]) ((children edges u).foldl (raise u) levels) := by
  have hloop : u ∉ children edges u := by
    rw [mem_children]
    exact fun he => hnew (hpred u he)
  have hold : ∀ v ∈ done, v ∉ children edges u := by
    intro v hv hc
    exact hnew (hdone v hv u ((mem_children edges u v).mp hc))
  have hget := level_foldl_raise u (children edges u) levels hloop
  refine ⟨?_, ?_, ?_, ?_⟩
  · rw [keys_foldl_raise, h.keys]
    intro v hv
    rw [h.keys]
    exact ht u v ((mem_children edges u v).mp hv)
  · intro a b hab ha
    rcases List.mem_append.mp ha with ha | ha
    · have hle := h.climbs a b hab ha
      rw [hget a, if_neg (hold a ha), hget b]
      split <;> omega
    · obtain rfl := List.mem_singleton.mp ha
      rw [hget a, if_neg hloop, hget b, if_pos ((mem_children edges a b).mpr hab)]
      exact le_max_right _ _
  · intro v hv
    rw [hget v]
    by_cases hc : v ∈ children edges u
    · rw [if_pos hc]
      rcases le_total (level levels v) (level levels u + 1) with hle | hle
      · refine Or.inr ⟨u, by simp, (mem_children edges u v).mp hc, ?_⟩
        rw [hget u, if_neg hloop, max_eq_right hle]
      · rw [max_eq_left hle]
        rcases h.reached v hv with hz | ⟨a, ha, hav, heq⟩
        · exact Or.inl hz
        · refine Or.inr ⟨a, by simp [ha], hav, ?_⟩
          rw [hget a, if_neg (hold a ha), heq]
    · rw [if_neg hc]
      rcases h.reached v hv with hz | ⟨a, ha, hav, heq⟩
      · exact Or.inl hz
      · refine Or.inr ⟨a, by simp [ha], hav, ?_⟩
        rw [hget a, if_neg (hold a ha), heq]
  · intro v hv
    have h1 := h.bounded v hv
    have h2 := h.bounded u hu
    rw [hget v, List.length_append, List.length_singleton]
    split <;> omega

/-- Folding the level updates over a sorted list keeps the levels right. -/
theorem leveled_foldl {nodes : List V} {edges : List (V × V)} {order : List V}
    (ht : ∀ a b, (a, b) ∈ edges → b ∈ nodes) (hsorted : Sorted edges order)
    (hnodup : order.Nodup) (hsub : ∀ v ∈ order, v ∈ nodes) (levels : Dict V ℕ)
    (hkeys : levels.keys = nodes) (hzero : ∀ v ∈ nodes, level levels v = 0) :
    Leveled nodes edges order
      (order.foldl (fun l u => (children edges u).foldl (raise u) l) levels) := by
  have aux : ∀ rest done : List V, order = done ++ rest →
      ∀ l, Leveled nodes edges done l →
        Leveled nodes edges order
          (rest.foldl (fun l u => (children edges u).foldl (raise u) l) l) := by
    intro rest
    induction rest with
    | nil =>
      intro done heq l hl
      rw [List.append_nil] at heq
      rwa [heq]
    | cons u rest ih =>
      intro done heq l hl
      have hnew : u ∉ done := by
        intro hmem
        rw [heq] at hnodup
        exact (List.nodup_append.mp hnodup).2.2 u hmem u (by simp) rfl
      apply ih (done ++ [u]) (by simp [heq])
      apply hl.step ht hnew
      · exact hsorted done u rest heq
      · intro v hv a hav
        obtain ⟨l₁, l₂, hdone⟩ := List.append_of_mem hv
        have hmem := hsorted l₁ v (l₂ ++ u :: rest) (by simp [heq, hdone]) a hav
        rw [hdone]
        exact List.mem_append_left _ hmem
      · exact hsub u (by simp [heq])
  apply aux order [] rfl
  exact ⟨hkeys, by simp, fun v hv => Or.inl (hzero v hv), fun v hv => by simp [hzero v hv]⟩

/-- After all vertices have been popped the levels are layers of the graph. -/
theorem Leveled.layering {G : Precedence.Dag V} {order : List V} {levels : Dict V ℕ}
    (h : Leveled G.nodes G.edges order levels) (hall : ∀ v ∈ G.nodes, v ∈ order) :
    Precedence.Layering G (level levels) where
  climbs u v huv := h.climbs u v huv (hall u (G.source_mem u v huv))
  reached v hv := by
    rcases h.reached v hv with hzero | ⟨u, _, huv, hlevel⟩
    · exact Or.inl hzero
    · exact Or.inr ⟨u, huv, hlevel⟩

end Levels

end Kahn
