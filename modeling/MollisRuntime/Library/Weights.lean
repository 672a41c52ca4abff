import Mathlib
import MollisRuntime.Library.OrderedDict

/-!
What the items of a list, or the values of a dictionary, weigh together, and how
an entry that is written or erased changes it.
-/
namespace Ordered

variable {α κ : Type*}

def total (weight : α → ℕ) (items : List α) : ℕ := (items.map weight).sum

section Lists

variable (weight : α → ℕ)

@[simp] theorem total_nil : total weight [] = 0 := rfl

@[simp] theorem total_cons (a : α) (items : List α) :
    total weight (a :: items) = weight a + total weight items := by
  rw [total, List.map_cons, List.sum_cons]
  rfl

theorem total_append (xs ys : List α) :
    total weight (xs ++ ys) = total weight xs + total weight ys := by
  rw [total, List.map_append, List.sum_append]
  rfl

theorem total_perm {xs ys : List α} (h : xs.Perm ys) : total weight xs = total weight ys :=
  (h.map weight).sum_eq

theorem total_sublist {xs ys : List α} (h : xs.Sublist ys) : total weight xs ≤ total weight ys :=
  (h.map weight).sum_le_sum fun _ _ => Nat.zero_le _

theorem total_mono {weight heavier : α → ℕ} (h : ∀ a, weight a ≤ heavier a) (items : List α) :
    total weight items ≤ total heavier items :=
  List.sum_le_sum fun a _ => h a

end Lists

namespace Dict

variable [DecidableEq κ] (weight : α → ℕ) (d : Dict κ α)

theorem total_erase {k : κ} {v : α} (h : d.get? k = some v) :
    weight v + total weight (d.erase k).values = total weight d.values := by
  rw [total_perm weight (values_erase_perm h), total_cons]

theorem total_set (k : κ) (v : α) :
    total weight (d.set k v).values = weight v + total weight (d.erase k).values := by
  rw [total_perm weight (values_set_perm d k v), total_cons]

theorem total_set_le (k : κ) (v : α) :
    total weight (d.set k v).values ≤ weight v + total weight d.values := by
  rw [total_set]
  exact Nat.add_le_add_left (total_sublist weight (List.filter_sublist.map Prod.snd)) _

end Dict

end Ordered
