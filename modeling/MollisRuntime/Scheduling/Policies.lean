import MollisRuntime.Library.MinHeap
import MollisRuntime.Python.Numbers

/-!
Scheduling policies. A policy keeps the order in which task ids are served, the
tasks themselves are stored elsewhere. The priority and the deadline policy are
one heap with lazy deletion under two keys; the key is computed after the id has
been taken off the removed ones, and a key that raises leaves it so.
-/
namespace MollisRuntime.Scheduling

open Ordered Python MinHeap

/-- The strategy interface. `add` reads the id and the metadata of the task. -/
class SchedulingPolicy (P : Type) where
  init : P
  add : P → String → Attrs → P × Except PyError Unit
  remove : P → String → P
  next : P → P × Option String
  peek : P → P × Option String

structure FIFOPolicy where
  order : List String

namespace FIFOPolicy

def add (p : FIFOPolicy) (taskId : String) : FIFOPolicy := ⟨p.order ++ [taskId]⟩

/-- `deque.remove`, with its ValueError caught. -/
def remove (p : FIFOPolicy) (taskId : String) : FIFOPolicy := ⟨p.order.erase taskId⟩

def next (p : FIFOPolicy) : FIFOPolicy × Option String := (⟨p.order.tail⟩, p.order.head?)

def peek (p : FIFOPolicy) : Option String := p.order.head?

instance : SchedulingPolicy FIFOPolicy where
  init := ⟨[]⟩
  add p taskId _ := (p.add taskId, .ok ())
  remove := remove
  next := next
  peek p := (p, p.peek)

end FIFOPolicy

/-- What PriorityPolicy and DeadlinePolicy share. -/
structure HeapPolicy (key : Attrs → Except PyError Number) where
  queue : LazyQueue Number String

namespace HeapPolicy

variable {key : Attrs → Except PyError Number}

def add (p : HeapPolicy key) (taskId : String) (metadata : Attrs) :
    HeapPolicy key × Except PyError Unit :=
  match key metadata with
  | .ok k => (⟨(p.queue.discard taskId).push k taskId⟩, .ok ())
  | .error e => (⟨p.queue.discard taskId⟩, .error e)

def remove (p : HeapPolicy key) (taskId : String) : HeapPolicy key := ⟨p.queue.remove taskId⟩

def next (p : HeapPolicy key) : HeapPolicy key × Option String :=
  (⟨p.queue.next.1⟩, p.queue.next.2)

def peek (p : HeapPolicy key) : HeapPolicy key × Option String :=
  (⟨p.queue.peek.1⟩, p.queue.peek.2)

instance : SchedulingPolicy (HeapPolicy key) where
  init := ⟨.empty⟩
  add := add
  remove := remove
  next := next
  peek := peek

theorem add_ok {p : HeapPolicy key} {taskId : String} {metadata : Attrs} {k : Number}
    (h : key metadata = .ok k) :
    p.add taskId metadata = (⟨(p.queue.discard taskId).push k taskId⟩, .ok ()) := by
  simp only [add, h]

theorem add_error {p : HeapPolicy key} {taskId : String} {metadata : Attrs} {e : PyError}
    (h : key metadata = .error e) :
    p.add taskId metadata = (⟨p.queue.discard taskId⟩, .error e) := by
  simp only [add, h]

end HeapPolicy

/-- `-task.metadata.get("priority", 0)`: larger priorities come first. -/
def negatedPriority (metadata : Attrs) : Except PyError Number :=
  ((metadata.get? "priority").getD (.int 0)).negate

abbrev PriorityPolicy := HeapPolicy negatedPriority

/-- The key of DeadlinePolicy. Only the ValueError of
`datetime.fromisoformat(val).timestamp()` is caught. -/
def deadline (isoTimestamp : String → Except PyError ℚ) (metadata : Attrs) :
    Except PyError Number :=
  match metadata.get? "deadline" with
  | none => .ok .posInf
  | some (.int n) => floatOfInt n
  | some (.str s) =>
    match isoTimestamp s with
    | .ok t => .ok (.finite t)
    | .error (.valueError _) => .ok .posInf
    | .error e => .error e
  | some v => .ok (v.number.getD .posInf)

abbrev DeadlinePolicy (isoTimestamp : String → Except PyError ℚ) :=
  HeapPolicy (deadline isoTimestamp)

section Keys

theorem negatedPriority_number {metadata : Attrs} {v : Value} {a : Number}
    (hv : metadata.get? "priority" = some v) (ha : v.number = some a) :
    negatedPriority metadata = .ok a.neg := by
  simp [negatedPriority, hv, Value.negate, ha]

theorem negatedPriority_absent {metadata : Attrs} (h : metadata.get? "priority" = none) :
    negatedPriority metadata = .ok (.finite 0) := by
  rw [negatedPriority, h]
  rfl

/-- Between two numbers, the task with the larger priority has the smaller key. -/
theorem negatedPriority_antitone {metadata metadata' : Attrs} {v v' : Value} {a a' : Number}
    (hv : metadata.get? "priority" = some v) (ha : v.number = some a)
    (hv' : metadata'.get? "priority" = some v') (ha' : v'.number = some a') :
    ∃ k k', negatedPriority metadata = .ok k ∧ negatedPriority metadata' = .ok k' ∧
      (k ≤ k' ↔ a' ≤ a) :=
  ⟨a.neg, a'.neg, negatedPriority_number hv ha, negatedPriority_number hv' ha',
    Number.neg_le_neg_iff a a'⟩

/-- Tasks without a deadline are served last. -/
theorem deadline_absent (isoTimestamp : String → Except PyError ℚ) {metadata : Attrs}
    (h : metadata.get? "deadline" = none) :
    deadline isoTimestamp metadata = .ok .posInf ∧ ∀ k, k ≤ Number.posInf := by
  refine ⟨?_, Number.le_posInf⟩
  simp only [deadline, h]

theorem deadline_float (isoTimestamp : String → Except PyError ℚ) {metadata : Attrs} {q : ℚ}
    (h : metadata.get? "deadline" = some (.float q)) :
    deadline isoTimestamp metadata = .ok (.finite q) := by
  simp only [deadline, h]
  rfl

end Keys

/-- A policy whose order can be told: the ids that `next` will return, and the
ids that an `add` would take back from the removed ones. -/
class OrderedPolicy (P : Type) [SchedulingPolicy P] where
  order : P → List String
  Dropped : P → String → Prop
  order_next (p : P) : (SchedulingPolicy.next p).2 = (order p).head? ∧
    order (SchedulingPolicy.next p).1 = (order p).tail
  order_add_error {p p' : P} {taskId : String} {metadata : Attrs} {e : PyError} :
    SchedulingPolicy.add p taskId metadata = (p', .error e) → ¬ Dropped p taskId →
      order p' = order p
  dropped_init (taskId : String) : ¬ Dropped (SchedulingPolicy.init : P) taskId
  dropped_add (p : P) (taskId : String) (metadata : Attrs) (other : String) :
    Dropped (SchedulingPolicy.add p taskId metadata).1 other →
      Dropped p other ∧ other ≠ taskId
  dropped_remove (p : P) (taskId other : String) :
    Dropped (SchedulingPolicy.remove p taskId) other → Dropped p other ∨ other = taskId
  dropped_next (p : P) (other : String) :
    Dropped (SchedulingPolicy.next p).1 other → Dropped p other
  dropped_peek (p : P) (other : String) :
    Dropped (SchedulingPolicy.peek p).1 other → Dropped p other

instance : OrderedPolicy FIFOPolicy where
  order p := p.order
  Dropped _ _ := False
  order_next _ := ⟨rfl, rfl⟩
  order_add_error h _ := nomatch congrArg Prod.snd h
  dropped_init _ h := h
  dropped_add _ _ _ _ h := h.elim
  dropped_remove _ _ _ h := h.elim
  dropped_next _ _ h := h
  dropped_peek _ _ h := h

namespace HeapPolicy

variable {key : Attrs → Except PyError Number}

theorem order_add_error {p p' : HeapPolicy key} {taskId : String} {metadata : Attrs}
    {e : PyError} (h : p.add taskId metadata = (p', .error e))
    (hkept : taskId ∉ p.queue.removed) : p' = p := by
  cases hkey : key metadata with
  | ok k =>
    rw [add_ok hkey] at h
    cases congrArg Prod.snd h
  | error e' =>
    rw [add_error hkey, p.queue.discard_of_notMem hkept] at h
    exact (congrArg Prod.fst h).symm

theorem removed_add (p : HeapPolicy key) (taskId : String) (metadata : Attrs) :
    (p.add taskId metadata).1.queue.removed = p.queue.removed.erase taskId := by
  cases hkey : key metadata with
  | ok k =>
    rw [add_ok hkey]
    rfl
  | error e =>
    rw [add_error hkey]
    rfl

instance : OrderedPolicy (HeapPolicy key) where
  order p := p.queue.pending.map Entry.item
  Dropped p taskId := taskId ∈ p.queue.removed
  order_next p := by
    constructor
    · rw [List.head?_map]
      exact p.queue.next_item
    · rw [← List.map_tail]
      exact congrArg (List.map Entry.item) p.queue.next_pending
  order_add_error h hkept := by rw [order_add_error h hkept]
  dropped_init taskId := Finset.notMem_empty taskId
  dropped_add p taskId metadata other h := by
    have herase : other ∈ p.queue.removed.erase taskId := p.removed_add taskId metadata ▸ h
    exact ⟨Finset.mem_of_mem_erase herase, Finset.ne_of_mem_erase herase⟩
  dropped_remove p taskId other h := (Finset.mem_insert.mp h).symm
  dropped_next p other h := p.queue.settle_removed h
  dropped_peek p other h := p.queue.settle_removed h

end HeapPolicy

end MollisRuntime.Scheduling
