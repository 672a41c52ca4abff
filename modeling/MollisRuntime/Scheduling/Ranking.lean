import MollisRuntime.Scheduling.Policies

/-!
What the policies have in common: each keeps a list of ids that is sorted by a
rank. The rank of a FIFO queue is the arrival alone. An id that has no entry in
the policy, not even one that was removed, may be added; it gets the next rank
of its key.
-/
namespace MollisRuntime.Scheduling

open Ordered Python MinHeap

/-- A policy that serves its ids by rank. `Files p n live` says that `p` has seen
`n` arrivals and serves the entries `live`, the first one next. `Free p id` says
that `p` has no entry for the id. -/
structure Ranking (P : Type) [SchedulingPolicy P] (κ : Type) [LinearOrder κ] where
  key : Attrs → Except PyError κ
  Files : P → ℕ → List (Entry κ String) → Prop
  Free : P → String → Prop
  files_init : Files SchedulingPolicy.init 0 []
  files_add {p : P} {n : ℕ} {live : List (Entry κ String)} {id : String} {metadata : Attrs}
    {k : κ} : Files p n live → Free p id → key metadata = .ok k →
      (SchedulingPolicy.add p id metadata).2 = .ok () ∧
        Files (SchedulingPolicy.add p id metadata).1 (n + 1) (file ⟨k, n, id⟩ live)
  files_remove {p : P} {n : ℕ} {live : List (Entry κ String)} (id : String) :
    Files p n live →
      Files (SchedulingPolicy.remove p id) n (live.filter fun e => decide (e.item ≠ id))
  files_next {p : P} {n : ℕ} {live : List (Entry κ String)} : Files p n live →
    (SchedulingPolicy.next p).2 = live.head?.map Entry.item ∧
      Files (SchedulingPolicy.next p).1 n live.tail
  files_peek {p : P} {n : ℕ} {live : List (Entry κ String)} : Files p n live →
    (SchedulingPolicy.peek p).2 = live.head?.map Entry.item ∧
      Files (SchedulingPolicy.peek p).1 n live
  free_init (id : String) : Free SchedulingPolicy.init id
  free_add {p : P} {id other : String} (metadata : Attrs) : Free p other → other ≠ id →
    Free (SchedulingPolicy.add p id metadata).1 other
  free_remove {p : P} {other : String} (id : String) : Free p other →
    Free (SchedulingPolicy.remove p id) other
  free_next {p : P} {other : String} : Free p other → Free (SchedulingPolicy.next p).1 other
  free_peek {p : P} {other : String} : Free p other → Free (SchedulingPolicy.peek p).1 other
  free_popped {p : P} {n : ℕ} {live : List (Entry κ String)} {id : String} :
    Files p n live → (SchedulingPolicy.next p).2 = some id → Free (SchedulingPolicy.next p).1 id

namespace FIFOPolicy

/-- The deque holds the ids of the entries, whose only rank is their arrival. -/
structure Files (p : FIFOPolicy) (n : ℕ) (live : List (Entry Unit String)) : Prop where
  order : p.order = live.map Entry.item
  below : ∀ e ∈ live, e.arrival < n
  distinct : p.order.Nodup

theorem Files.add {p : FIFOPolicy} {n : ℕ} {live : List (Entry Unit String)} {id : String}
    (h : p.Files n live) (hfree : id ∉ p.order) :
    (p.add id).Files (n + 1) (file ⟨(), n, id⟩ live) := by
  have hlast : file ⟨(), n, id⟩ live = live ++ [⟨(), n, id⟩] := by
    refine file_of_forall_lt ?_
    intro e he
    exact Prod.Lex.toLex_lt_toLex.mpr (Or.inr ⟨rfl, h.below e he⟩)
  rw [hlast]
  constructor
  · rw [List.map_append, ← h.order]
    rfl
  · intro e he
    rcases List.mem_append.mp he with he | he
    · exact Nat.lt_succ_of_lt (h.below e he)
    · rw [List.mem_singleton.mp he]
      exact Nat.lt_succ_self n
  · refine List.nodup_append.mpr ⟨h.distinct, List.nodup_singleton id, ?_⟩
    rintro a ha b hb rfl
    exact hfree (List.mem_singleton.mp hb ▸ ha)

theorem Files.remove {p : FIFOPolicy} {n : ℕ} {live : List (Entry Unit String)}
    (h : p.Files n live) (id : String) :
    (p.remove id).Files n (live.filter fun e => decide (e.item ≠ id)) := by
  have horder : (p.remove id).order =
      (live.filter fun e => decide (e.item ≠ id)).map Entry.item := by
    change p.order.erase id = _
    rw [h.distinct.erase_eq_filter, h.order, List.filter_map]
    refine congrArg (List.map Entry.item) (List.filter_congr ?_)
    intro e he
    simp [bne, Bool.beq_eq_decide_eq]
  exact ⟨horder, fun e he => h.below e (List.mem_of_mem_filter he), h.distinct.erase id⟩

theorem Files.next {p : FIFOPolicy} {n : ℕ} {live : List (Entry Unit String)}
    (h : p.Files n live) :
    p.next.2 = live.head?.map Entry.item ∧ p.next.1.Files n live.tail := by
  refine ⟨?_, ?_, fun e he => h.below e (List.mem_of_mem_tail he), h.distinct.tail⟩
  · change p.order.head? = _
    rw [h.order, List.head?_map]
  · change p.order.tail = _
    rw [h.order, List.map_tail]

theorem notMem_next {p : FIFOPolicy} {id : String} (h : p.order.Nodup)
    (hnext : p.next.2 = some id) : id ∉ p.next.1.order := by
  have horder : p.order = id :: p.order.tail := List.eq_cons_of_mem_head? hnext
  rw [horder] at h
  exact (List.nodup_cons.mp h).1

def ranking : Ranking FIFOPolicy Unit where
  key _ := .ok ()
  Files := Files
  Free p id := id ∉ p.order
  files_init := ⟨rfl, nofun, List.nodup_nil⟩
  files_add h hfree _ := ⟨rfl, h.add hfree⟩
  files_remove id h := h.remove id
  files_next h := h.next
  files_peek h := ⟨h.next.1, h⟩
  free_init _ := List.not_mem_nil
  free_add _ hfree hne := by
    intro hmem
    rcases List.mem_append.mp hmem with hmem | hmem
    · exact hfree hmem
    · exact hne (List.mem_singleton.mp hmem)
  free_remove _ hfree hmem := hfree (List.mem_of_mem_erase hmem)
  free_next hfree hmem := hfree (List.mem_of_mem_tail hmem)
  free_peek hfree := hfree
  free_popped h hnext := notMem_next h.distinct hnext

end FIFOPolicy

namespace HeapPolicy

variable {key : Attrs → Except PyError Number}

/-- No id has two entries, and `next` comes to the live ones. -/
structure Files (p : HeapPolicy key) (n : ℕ) (live : List (Entry Number String)) : Prop where
  arrivals : p.queue.counter = n
  distinct : p.queue.items.Nodup
  pending : p.queue.pending = live

theorem Files.add {p : HeapPolicy key} {n : ℕ} {live : List (Entry Number String)}
    {id : String} {metadata : Attrs} {k : Number} (h : p.Files n live)
    (hfree : id ∉ p.queue.items) (hkey : key metadata = .ok k) :
    (p.add id metadata).2 = .ok () ∧
      (p.add id metadata).1.Files (n + 1) (file ⟨k, n, id⟩ live) := by
  obtain ⟨hdistinct, hpending⟩ := LazyQueue.pending_push h.distinct hfree k
  rw [add_ok hkey]
  refine ⟨rfl, congrArg Nat.succ h.arrivals, hdistinct, ?_⟩
  rw [hpending, h.arrivals, h.pending]

theorem Files.remove {p : HeapPolicy key} {n : ℕ} {live : List (Entry Number String)}
    (h : p.Files n live) (id : String) :
    (p.remove id).Files n (live.filter fun e => decide (e.item ≠ id)) := by
  refine ⟨h.arrivals, h.distinct, ?_⟩
  rw [← h.pending]
  exact LazyQueue.pending_remove h.distinct id

theorem Files.next {p : HeapPolicy key} {n : ℕ} {live : List (Entry Number String)}
    (h : p.Files n live) :
    p.next.2 = live.head?.map Entry.item ∧ p.next.1.Files n live.tail := by
  rw [← h.pending]
  have hdistinct : p.next.1.queue.items.Nodup :=
    (h.distinct.sublist p.queue.settle_items.sublist).sublist
      ((List.tail_sublist _).map Entry.item)
  exact ⟨p.queue.next_item, h.arrivals, hdistinct, p.queue.next_pending⟩

theorem Files.peek {p : HeapPolicy key} {n : ℕ} {live : List (Entry Number String)}
    (h : p.Files n live) :
    p.peek.2 = live.head?.map Entry.item ∧ p.peek.1.Files n live := by
  rw [← h.pending]
  exact ⟨p.queue.peek_item, h.arrivals, h.distinct.sublist p.queue.settle_items.sublist,
    p.queue.peek_pending⟩

theorem items_add (p : HeapPolicy key) (id : String) (metadata : Attrs) {other : String}
    (h : other ∈ (p.add id metadata).1.queue.items) : other = id ∨ other ∈ p.queue.items := by
  cases hkey : key metadata with
  | error e =>
    rw [add_error hkey] at h
    exact Or.inr h
  | ok k =>
    rw [add_ok hkey] at h
    obtain ⟨e, he, rfl⟩ := List.mem_map.mp h
    rcases mem_file.mp he with rfl | he
    · exact Or.inl rfl
    · exact Or.inr (List.mem_map_of_mem he)

def ranking (key : Attrs → Except PyError Number) : Ranking (HeapPolicy key) Number where
  key := key
  Files := Files
  Free p id := id ∉ p.queue.items
  files_init := ⟨rfl, List.nodup_nil, rfl⟩
  files_add h hfree hkey := h.add hfree hkey
  files_remove id h := h.remove id
  files_next h := h.next
  files_peek h := h.peek
  free_init _ := List.not_mem_nil
  free_add metadata hfree hne hmem := (items_add _ _ metadata hmem).elim hne hfree
  free_remove _ hfree := hfree
  free_next hfree hmem := hfree ((LazyQueue.settle_items _).subset
    (((List.tail_sublist _).map Entry.item).subset hmem))
  free_peek hfree hmem := hfree ((LazyQueue.settle_items _).subset hmem)
  free_popped h hnext := LazyQueue.next_notMem h.distinct hnext

end HeapPolicy

end MollisRuntime.Scheduling
