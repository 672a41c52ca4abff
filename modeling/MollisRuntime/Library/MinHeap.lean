import Mathlib.Data.Finset.Basic
import Mathlib.Data.List.Infix
import Mathlib.Data.List.MinMax
import Mathlib.Data.List.Nodup
import Mathlib.Data.List.Pairwise
import Mathlib.Data.List.Sort
import Mathlib.Data.Prod.Lex

/-!
Min-heaps, and queues that delete lazily. An entry has a key, the number of its
push and an item; entries are compared as tuples are. A heap is kept as the
sorted list of its entries. A lazy queue notes the items that were removed and
leaves their entries in the heap until they come to the top.
-/
namespace MinHeap

structure Entry (κ ι : Type*) where
  key : κ
  arrival : ℕ
  item : ι
  deriving DecidableEq

section Ranks

variable {κ ι ι' : Type*}

/-- Keys first, and arrivals among equal keys. -/
def Entry.rank (e : Entry κ ι) : κ ×ₗ ℕ := toLex (e.key, e.arrival)

/-- Another item under the same rank. -/
def Entry.map (f : ι → ι') (e : Entry κ ι) : Entry κ ι' := ⟨e.key, e.arrival, f e.item⟩

@[simp] theorem rank_map (f : ι → ι') (e : Entry κ ι) : (e.map f).rank = e.rank := rfl

@[simp] theorem item_map (f : ι → ι') (e : Entry κ ι) : (e.map f).item = f e.item := rfl

/-- Entries that arrived one after the other are told apart by their arrivals. -/
theorem arrival_injOn {entries : List (Entry κ ι)}
    (h : entries.Pairwise fun a b => a.arrival < b.arrival) :
    Set.InjOn Entry.arrival { e | e ∈ entries } := by
  intro a ha b hb hab
  have hdistinct : entries.Pairwise fun a b => a.arrival ≠ b.arrival := h.imp fun hlt => hlt.ne
  have hsymm : Std.Symm fun a b : Entry κ ι => a.arrival ≠ b.arrival := ⟨fun _ _ => Ne.symm⟩
  by_contra hne
  exact hdistinct.forall ha hb hne hab

theorem rank_injOn {entries : List (Entry κ ι)}
    (h : entries.Pairwise fun a b => a.arrival < b.arrival) :
    Set.InjOn Entry.rank { e | e ∈ entries } :=
  fun _ ha _ hb hab => arrival_injOn h ha hb (congrArg (fun r => (ofLex r).2) hab)

end Ranks

section Filing

variable {κ ι : Type*} [LinearOrder κ]

def Sorted (entries : List (Entry κ ι)) : Prop :=
  entries.Pairwise fun a b => a.rank ≤ b.rank

/-- An entry is put before the first one that it does not come after. -/
def file (e : Entry κ ι) (entries : List (Entry κ ι)) : List (Entry κ ι) :=
  entries.orderedInsert (fun a b => a.rank ≤ b.rank) e

theorem file_perm (e : Entry κ ι) (entries : List (Entry κ ι)) :
    (file e entries).Perm (e :: entries) :=
  List.perm_orderedInsert _ e entries

theorem mem_file {e f : Entry κ ι} {entries : List (Entry κ ι)} :
    f ∈ file e entries ↔ f = e ∨ f ∈ entries := by
  rw [(file_perm e entries).mem_iff, List.mem_cons]

theorem file_cons_of_le {e f : Entry κ ι} {rest : List (Entry κ ι)} (h : e.rank ≤ f.rank) :
    file e (f :: rest) = e :: f :: rest :=
  List.orderedInsert_cons_of_le _ rest h

theorem file_cons_of_not_le {e f : Entry κ ι} {rest : List (Entry κ ι)}
    (h : ¬ e.rank ≤ f.rank) : file e (f :: rest) = f :: file e rest :=
  List.orderedInsert_of_not_le _ rest h

theorem file_of_forall_le {e : Entry κ ι} {entries : List (Entry κ ι)}
    (h : ∀ f ∈ entries, e.rank ≤ f.rank) : file e entries = e :: entries := by
  cases entries with
  | nil => rfl
  | cons f rest => exact file_cons_of_le (h f (by simp))

/-- An entry that comes after all others goes to the end. -/
theorem file_of_forall_lt {e : Entry κ ι} {entries : List (Entry κ ι)}
    (h : ∀ f ∈ entries, f.rank < e.rank) : file e entries = entries ++ [e] := by
  induction entries with
  | nil => rfl
  | cons f rest ih =>
    have hf : ¬ e.rank ≤ f.rank := not_le.mpr (h f (by simp))
    have hrest := ih fun g hg => h g (List.mem_cons_of_mem f hg)
    rw [file_cons_of_not_le hf, hrest]
    rfl

theorem Sorted.file {entries : List (Entry κ ι)} (h : Sorted entries) (e : Entry κ ι) :
    Sorted (file e entries) := by
  induction entries with
  | nil => exact List.pairwise_singleton _ _
  | cons f rest ih =>
    obtain ⟨hf, hrest⟩ := List.pairwise_cons.mp h
    by_cases he : e.rank ≤ f.rank
    · rw [file_cons_of_le he]
      refine List.pairwise_cons.mpr ⟨?_, h⟩
      intro g hg
      rcases List.mem_cons.mp hg with rfl | hg
      · exact he
      · exact he.trans (hf g hg)
    · rw [file_cons_of_not_le he]
      refine List.pairwise_cons.mpr ⟨?_, ih hrest⟩
      intro g hg
      rcases mem_file.mp hg with rfl | hg
      · exact (not_le.mp he).le
      · exact hf g hg

theorem map_file {ι' : Type*} (f : ι → ι') (e : Entry κ ι) (entries : List (Entry κ ι)) :
    (file e entries).map (Entry.map f) = file (e.map f) (entries.map (Entry.map f)) :=
  List.map_orderedInsert _ _ (Entry.map f) entries e (fun _ _ => Iff.rfl) fun _ _ => Iff.rfl

/-- Filing goes through a selection that the entry passes. -/
theorem filter_file {entries : List (Entry κ ι)} (h : Sorted entries) {e : Entry κ ι}
    {p : Entry κ ι → Bool} (hp : p e = true) :
    (file e entries).filter p = file e (entries.filter p) := by
  induction entries with
  | nil => simp [file, hp]
  | cons f rest ih =>
    obtain ⟨hf, hrest⟩ := List.pairwise_cons.mp h
    by_cases he : e.rank ≤ f.rank
    · have hall : ∀ g ∈ (f :: rest).filter p, e.rank ≤ g.rank := by
        intro g hg
        rcases List.mem_cons.mp (List.mem_of_mem_filter hg) with rfl | hg
        · exact he
        · exact he.trans (hf g hg)
      rw [file_of_forall_le hall, file_cons_of_le he, List.filter_cons_of_pos hp]
    · rw [file_cons_of_not_le he]
      by_cases hpf : p f = true
      · rw [List.filter_cons_of_pos hpf, List.filter_cons_of_pos hpf, ih hrest,
          file_cons_of_not_le he]
      · rw [List.filter_cons_of_neg hpf, List.filter_cons_of_neg hpf, ih hrest]

/-- In a sorted list the entries up to a key stand in front. -/
theorem Sorted.takeWhile_key {entries : List (Entry κ ι)} (h : Sorted entries) (bound : κ) :
    entries.takeWhile (fun e => decide (e.key ≤ bound)) =
        entries.filter (fun e => decide (e.key ≤ bound)) ∧
      entries.dropWhile (fun e => decide (e.key ≤ bound)) =
        entries.filter (fun e => decide (¬ e.key ≤ bound)) := by
  induction entries with
  | nil => exact ⟨rfl, rfl⟩
  | cons e rest ih =>
    obtain ⟨he, hrest⟩ := List.pairwise_cons.mp h
    by_cases hle : e.key ≤ bound
    · obtain ⟨htake, hdrop⟩ := ih hrest
      simp [hle, htake, hdrop]
    · have hlater : ∀ f ∈ rest, ¬ f.key ≤ bound := by
        intro f hf hfle
        have hkey : e.key ≤ f.key := Prod.Lex.monotone_fst _ _ (he f hf)
        exact hle (hkey.trans hfle)
      have hnone : rest.filter (fun f => decide (f.key ≤ bound)) = [] :=
        List.filter_eq_nil_iff.mpr fun f hf => by simpa using hlater f hf
      have hall : rest.filter (fun f => decide (¬ f.key ≤ bound)) = rest :=
        List.filter_eq_self.mpr fun f hf => by simpa using hlater f hf
      simp only [List.takeWhile_cons, List.dropWhile_cons, List.filter_cons, hle, decide_false,
        hnone, hall]
      simp

/-- The least of a plain list is the first of its sorted form. -/
theorem argmin_eq_head? {entries sorted : List (Entry κ ι)} (hperm : entries.Perm sorted)
    (hsorted : Sorted sorted) (hinj : Set.InjOn Entry.rank { e | e ∈ sorted }) :
    entries.argmin Entry.rank = sorted.head? := by
  cases sorted with
  | nil => rw [List.perm_nil.mp hperm]; rfl
  | cons e rest =>
    obtain ⟨he, -⟩ := List.pairwise_cons.mp hsorted
    cases hmin : entries.argmin Entry.rank with
    | none =>
      rw [List.argmin_eq_none.mp hmin] at hperm
      exact absurd hperm.symm (by simp)
    | some f =>
      have hf : f ∈ e :: rest := hperm.mem_iff.mp (List.argmin_mem hmin)
      have hle : f.rank ≤ e.rank :=
        List.le_of_mem_argmin (hperm.mem_iff.mpr (by simp)) hmin
      have hge : e.rank ≤ f.rank := by
        rcases List.mem_cons.mp hf with rfl | hf
        · exact le_rfl
        · exact he f hf
      have hfe : f = e := hinj hf (by simp) (le_antisymm hle hge)
      rw [hfe]
      rfl

end Filing

structure Heap (κ ι : Type*) [LinearOrder κ] where
  entries : List (Entry κ ι)
  sorted : Sorted entries

namespace Heap

variable {κ ι : Type*} [LinearOrder κ]

def empty : Heap κ ι := ⟨[], List.Pairwise.nil⟩

def push (h : Heap κ ι) (e : Entry κ ι) : Heap κ ι := ⟨file e h.entries, h.sorted.file e⟩

/-- The heap without its least entry. -/
def pop (h : Heap κ ι) : Heap κ ι := ⟨h.entries.tail, h.sorted.tail⟩

@[simp] theorem entries_empty : (empty : Heap κ ι).entries = [] := rfl

@[simp] theorem entries_pop (h : Heap κ ι) : h.pop.entries = h.entries.tail := rfl

theorem entries_push (h : Heap κ ι) (e : Entry κ ι) : (h.push e).entries = file e h.entries := rfl

/-- Pop as long as the least entry passes. -/
def popWhile (p : Entry κ ι → Bool) : ℕ → Heap κ ι → List (Entry κ ι) × Heap κ ι
  | 0, h => ([], h)
  | fuel + 1, h =>
    match h.entries with
    | [] => ([], h)
    | e :: _ =>
      if p e then (e :: (popWhile p fuel h.pop).1, (popWhile p fuel h.pop).2) else ([], h)

theorem popWhile_spec (p : Entry κ ι → Bool) (fuel : ℕ) (h : Heap κ ι)
    (hfuel : h.entries.length ≤ fuel) :
    (h.popWhile p fuel).1 = h.entries.takeWhile p ∧
      (h.popWhile p fuel).2.entries = h.entries.dropWhile p := by
  induction fuel generalizing h with
  | zero =>
    have hnil : h.entries = [] := List.length_eq_zero_iff.mp (by omega)
    simp [popWhile, hnil]
  | succ fuel ih =>
    cases hentries : h.entries with
    | nil => simp [popWhile, hentries]
    | cons e rest =>
      rw [hentries, List.length_cons] at hfuel
      obtain ⟨htake, hdrop⟩ := ih h.pop (by rw [entries_pop, hentries, List.tail_cons]; omega)
      rw [entries_pop, hentries, List.tail_cons] at htake hdrop
      by_cases hp : p e = true
      · simp [popWhile, hentries, hp, htake, hdrop]
      · simp [popWhile, hentries, hp]

end Heap

section Lazy

variable {κ ι : Type*} [DecidableEq ι]

/-- Entries of removed items are dropped off the top; each uses up its note. -/
def dropStale : Finset ι → List (Entry κ ι) → Finset ι × List (Entry κ ι)
  | removed, [] => (removed, [])
  | removed, e :: rest =>
    if e.item ∈ removed then dropStale (removed.erase e.item) rest else (removed, e :: rest)

/-- The entries that come to the top and stay, one after the other. -/
def survivors : Finset ι → List (Entry κ ι) → List (Entry κ ι)
  | _, [] => []
  | removed, e :: rest =>
    if e.item ∈ removed then survivors (removed.erase e.item) rest
    else e :: survivors removed rest

theorem dropStale_cons_of_mem {removed : Finset ι} {e : Entry κ ι} {rest : List (Entry κ ι)}
    (h : e.item ∈ removed) :
    dropStale removed (e :: rest) = dropStale (removed.erase e.item) rest := if_pos h

theorem dropStale_cons_of_notMem {removed : Finset ι} {e : Entry κ ι}
    {rest : List (Entry κ ι)} (h : e.item ∉ removed) :
    dropStale removed (e :: rest) = (removed, e :: rest) := if_neg h

theorem survivors_cons_of_mem {removed : Finset ι} {e : Entry κ ι} {rest : List (Entry κ ι)}
    (h : e.item ∈ removed) :
    survivors removed (e :: rest) = survivors (removed.erase e.item) rest := if_pos h

theorem survivors_cons_of_notMem {removed : Finset ι} {e : Entry κ ι}
    {rest : List (Entry κ ι)} (h : e.item ∉ removed) :
    survivors removed (e :: rest) = e :: survivors removed rest := if_neg h

theorem dropStale_suffix (removed : Finset ι) (entries : List (Entry κ ι)) :
    (dropStale removed entries).2 <:+ entries := by
  induction entries generalizing removed with
  | nil => exact List.suffix_rfl
  | cons e rest ih =>
    by_cases he : e.item ∈ removed
    · rw [dropStale_cons_of_mem he]
      exact (ih _).trans (List.suffix_cons e rest)
    · rw [dropStale_cons_of_notMem he]

theorem dropStale_subset (removed : Finset ι) (entries : List (Entry κ ι)) :
    (dropStale removed entries).1 ⊆ removed := by
  induction entries generalizing removed with
  | nil => exact Finset.Subset.refl removed
  | cons e rest ih =>
    by_cases he : e.item ∈ removed
    · rw [dropStale_cons_of_mem he]
      exact (ih _).trans (Finset.erase_subset _ _)
    · rw [dropStale_cons_of_notMem he]

/-- What is on top afterwards was not removed. -/
theorem dropStale_head {removed : Finset ι} {entries : List (Entry κ ι)} {e : Entry κ ι}
    {rest : List (Entry κ ι)} (h : (dropStale removed entries).2 = e :: rest) :
    e.item ∉ (dropStale removed entries).1 := by
  induction entries generalizing removed with
  | nil => cases h
  | cons f later ih =>
    by_cases hf : f.item ∈ removed
    · rw [dropStale_cons_of_mem hf] at h ⊢
      exact ih h
    · rw [dropStale_cons_of_notMem hf] at h ⊢
      cases h
      exact hf

theorem survivors_dropStale (removed : Finset ι) (entries : List (Entry κ ι)) :
    survivors (dropStale removed entries).1 (dropStale removed entries).2 =
      survivors removed entries := by
  induction entries generalizing removed with
  | nil => rfl
  | cons e rest ih =>
    by_cases he : e.item ∈ removed
    · rw [dropStale_cons_of_mem he, survivors_cons_of_mem he, ih]
    · rw [dropStale_cons_of_notMem he]

/-- While no item has two entries, the survivors are the entries not removed. -/
theorem survivors_eq_filter {entries : List (Entry κ ι)} (removed : Finset ι)
    (h : (entries.map Entry.item).Nodup) :
    survivors removed entries = entries.filter fun e => decide (e.item ∉ removed) := by
  induction entries generalizing removed with
  | nil => rfl
  | cons e rest ih =>
    obtain ⟨he, hrest⟩ := List.nodup_cons.mp h
    by_cases hmem : e.item ∈ removed
    · rw [survivors_cons_of_mem hmem, ih _ hrest, List.filter_cons_of_neg (by simpa using hmem)]
      refine List.filter_congr ?_
      intro f hf
      have hne : f.item ≠ e.item := fun heq => he (heq ▸ List.mem_map_of_mem hf)
      simp [hne]
    · rw [survivors_cons_of_notMem hmem, ih _ hrest,
        List.filter_cons_of_pos (by simpa using hmem)]

end Lazy

/-- A heap that keeps the entries of removed items for a while. -/
structure LazyQueue (κ ι : Type*) [LinearOrder κ] where
  heap : Heap κ ι
  removed : Finset ι
  counter : ℕ

namespace LazyQueue

variable {κ ι : Type*} [LinearOrder κ] [DecidableEq ι]

def empty : LazyQueue κ ι := ⟨.empty, ∅, 0⟩

/-- The item is no longer noted as removed. -/
def discard (q : LazyQueue κ ι) (item : ι) : LazyQueue κ ι :=
  { q with removed := q.removed.erase item }

def push (q : LazyQueue κ ι) (key : κ) (item : ι) : LazyQueue κ ι :=
  { q with heap := q.heap.push ⟨key, q.counter, item⟩, counter := q.counter + 1 }

def remove (q : LazyQueue κ ι) (item : ι) : LazyQueue κ ι :=
  { q with removed := insert item q.removed }

def settle (q : LazyQueue κ ι) : LazyQueue κ ι :=
  { q with
    heap := ⟨(dropStale q.removed q.heap.entries).2,
      q.heap.sorted.sublist (dropStale_suffix _ _).sublist⟩
    removed := (dropStale q.removed q.heap.entries).1 }

def top (q : LazyQueue κ ι) : Option ι := q.heap.entries.head?.map Entry.item

/-- Entries are popped until one is found that was not removed. -/
def next (q : LazyQueue κ ι) : LazyQueue κ ι × Option ι :=
  ({ q.settle with heap := q.settle.heap.pop }, q.settle.top)

/-- Entries are popped as long as the one on top was removed. -/
def peek (q : LazyQueue κ ι) : LazyQueue κ ι × Option ι := (q.settle, q.settle.top)

/-- The entries in the order in which `next` comes to them. -/
def pending (q : LazyQueue κ ι) : List (Entry κ ι) := survivors q.removed q.heap.entries

def items (q : LazyQueue κ ι) : List ι := q.heap.entries.map Entry.item

section Order

variable (q : LazyQueue κ ι)

theorem pending_settle : q.settle.pending = q.pending := survivors_dropStale _ _

theorem pending_of_settled {q : LazyQueue κ ι} {e : Entry κ ι} {rest : List (Entry κ ι)}
    (h : q.settle.heap.entries = e :: rest) :
    q.pending = e :: survivors q.settle.removed rest := by
  have hfresh : e.item ∉ q.settle.removed := dropStale_head h
  rw [← pending_settle, pending, h, survivors_cons_of_notMem hfresh]

theorem peek_pending : q.peek.1.pending = q.pending := q.pending_settle

theorem top_settle : q.settle.top = q.pending.head?.map Entry.item := by
  cases hentries : q.settle.heap.entries with
  | nil =>
    rw [← pending_settle, pending, top, hentries]
    rfl
  | cons e rest =>
    rw [pending_of_settled hentries, top, hentries]
    rfl

theorem next_item : q.next.2 = q.pending.head?.map Entry.item := q.top_settle

theorem peek_item : q.peek.2 = q.pending.head?.map Entry.item := q.top_settle

theorem next_pending : q.next.1.pending = q.pending.tail := by
  cases hentries : q.settle.heap.entries with
  | nil =>
    have hnext : q.next.1.heap.entries = [] := congrArg List.tail hentries
    have hpending : q.pending = [] := by
      rw [← pending_settle, pending, hentries]
      rfl
    rw [pending, hnext, hpending]
    rfl
  | cons e rest =>
    have hnext : q.next.1.heap.entries = rest := congrArg List.tail hentries
    rw [pending_of_settled hentries, pending, hnext]
    rfl

/-- Discarding an item that is not noted changes nothing. -/
theorem discard_of_notMem {item : ι} (h : item ∉ q.removed) : q.discard item = q := by
  rw [discard, Finset.erase_eq_of_notMem h]

theorem settle_removed : q.settle.removed ⊆ q.removed := dropStale_subset _ _

theorem settle_items : q.settle.items <:+ q.items := (dropStale_suffix _ _).map _

end Order

section Distinct

variable {q : LazyQueue κ ι}

theorem pending_eq_filter (h : q.items.Nodup) :
    q.pending = q.heap.entries.filter fun e => decide (e.item ∉ q.removed) :=
  survivors_eq_filter _ h

/-- An item without an entry joins the pending ones. -/
theorem pending_push (h : q.items.Nodup) {item : ι} (hitem : item ∉ q.items) (key : κ) :
    ((q.discard item).push key item).items.Nodup ∧
      ((q.discard item).push key item).pending = file ⟨key, q.counter, item⟩ q.pending := by
  have hperm : ((q.discard item).push key item).items.Perm (item :: q.items) :=
    (file_perm _ _).map Entry.item
  have hnodup : ((q.discard item).push key item).items.Nodup :=
    hperm.nodup_iff.mpr (List.nodup_cons.mpr ⟨hitem, h⟩)
  refine ⟨hnodup, ?_⟩
  have hkept : (q.heap.entries.filter fun e => decide (e.item ∉ q.removed.erase item)) =
      q.heap.entries.filter fun e => decide (e.item ∉ q.removed) := by
    refine List.filter_congr ?_
    intro e he
    have hne : e.item ≠ item := fun heq => hitem (heq ▸ List.mem_map_of_mem he)
    simp [hne]
  rw [pending_eq_filter hnodup, pending_eq_filter h, ← hkept]
  exact filter_file q.heap.sorted (by simp [push, discard])

theorem pending_remove (h : q.items.Nodup) (item : ι) :
    (q.remove item).pending = q.pending.filter fun e => decide (e.item ≠ item) := by
  have hremove : (q.remove item).items.Nodup := h
  rw [pending_eq_filter hremove, pending_eq_filter h, List.filter_filter]
  refine List.filter_congr ?_
  intro e he
  simp [remove]

/-- What `next` returns has no entry any more. -/
theorem next_notMem (h : q.items.Nodup) {item : ι} (hitem : q.next.2 = some item) :
    item ∉ q.next.1.items := by
  obtain ⟨e, he, rfl⟩ := Option.map_eq_some_iff.mp hitem
  have hentries : q.settle.heap.entries = e :: q.settle.heap.entries.tail :=
    List.eq_cons_of_mem_head? he
  have hnodup : q.settle.items.Nodup := h.sublist q.settle_items.sublist
  rw [items, hentries] at hnodup
  exact (List.nodup_cons.mp hnodup).1

end Distinct

end LazyQueue

end MinHeap
