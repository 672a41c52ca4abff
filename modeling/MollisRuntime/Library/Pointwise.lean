import Mathlib.Data.List.Forall2
import MollisRuntime.Library.OrderedDict

/-!
Two dictionaries that correspond to each other. They have the same keys in the
same order, and under each key their values are related; writing related values
and removing a key keep them so.
-/
namespace Ordered

variable {κ α β : Type*} {R : κ → α → β → Prop}

namespace Dict

/-- One entry is under the key of the other, and their values are related. -/
def SameEntry (R : κ → α → β → Prop) (x : κ × α) (y : κ × β) : Prop := x.1 = y.1 ∧ R x.1 x.2 y.2

def Pointwise (R : κ → α → β → Prop) (d : Dict κ α) (e : Dict κ β) : Prop :=
  List.Forall₂ (SameEntry R) d.entries e.entries

variable {d : Dict κ α} {e : Dict κ β} {k : κ} {a : α} {b : β}

theorem pointwise_empty : Pointwise R (empty : Dict κ α) (empty : Dict κ β) := .nil

theorem Pointwise.keys (h : Pointwise R d e) : d.keys = e.keys := by
  have hkeys : ∀ {xs : List (κ × α)} {ys : List (κ × β)}, List.Forall₂ (SameEntry R) xs ys →
      xs.map Prod.fst = ys.map Prod.fst := by
    intro xs ys hxs
    induction hxs with
    | nil => rfl
    | cons hxy _ ih => rw [List.map_cons, List.map_cons, ih, hxy.1]
  exact hkeys h

/-- What related values have in common. -/
theorem Pointwise.map_values {γ : Type*} {f : α → γ} {g : β → γ}
    (hfg : ∀ k a b, R k a b → f a = g b) (h : Pointwise R d e) :
    d.values.map f = e.values.map g := by
  have hvalues : ∀ {xs : List (κ × α)} {ys : List (κ × β)}, List.Forall₂ (SameEntry R) xs ys →
      (xs.map Prod.snd).map f = (ys.map Prod.snd).map g := by
    intro xs ys hxs
    induction hxs with
    | nil => rfl
    | cons hxy _ ih => simp only [List.map_cons, ih, hfg _ _ _ hxy.2]
  exact hvalues h

variable [DecidableEq κ]

theorem forall₂_upsert {xs : List (κ × α)} {ys : List (κ × β)}
    (h : List.Forall₂ (SameEntry R) xs ys) (hab : R k a b) :
    List.Forall₂ (SameEntry R) (upsert k a xs) (upsert k b ys) := by
  induction h with
  | nil => exact .cons ⟨rfl, hab⟩ .nil
  | @cons x y xs ys hxy hrest ih =>
    obtain ⟨hkey, hvalue⟩ := hxy
    by_cases hk : x.1 = k
    · have hk' : y.1 = k := hkey ▸ hk
      simp only [upsert, hk, hk', if_true]
      exact .cons ⟨rfl, hab⟩ hrest
    · have hk' : y.1 ≠ k := hkey ▸ hk
      simp only [upsert, hk, hk', if_false]
      exact .cons ⟨hkey, hvalue⟩ ih

theorem Pointwise.set (h : Pointwise R d e) (hab : R k a b) :
    Pointwise R (d.set k a) (e.set k b) := forall₂_upsert h hab

theorem Pointwise.erase (h : Pointwise R d e) (k : κ) : Pointwise R (d.erase k) (e.erase k) := by
  refine List.rel_filter ?_ h
  rintro x y ⟨hkey, -⟩
  simp [hkey]

theorem Pointwise.replace (h : Pointwise R d e) (hab : R k a b) :
    Pointwise R (d.replace k a) (e.replace k b) := (h.erase k).set hab

/-- A key is in both, with related values, or in neither. -/
theorem Pointwise.get? (h : Pointwise R d e) (k : κ) :
    d.get? k = none ∧ e.get? k = none ∨
      ∃ a b, d.get? k = some a ∧ e.get? k = some b ∧ R k a b := by
  have hlookup : ∀ {xs : List (κ × α)} {ys : List (κ × β)}, List.Forall₂ (SameEntry R) xs ys →
      lookup k xs = none ∧ lookup k ys = none ∨
        ∃ a b, lookup k xs = some a ∧ lookup k ys = some b ∧ R k a b := by
    intro xs ys hxs
    induction hxs with
    | nil => exact .inl ⟨rfl, rfl⟩
    | @cons x y xs ys hxy _ ih =>
      obtain ⟨hkey, hvalue⟩ := hxy
      by_cases hk : x.1 = k
      · have hk' : y.1 = k := hkey ▸ hk
        refine .inr ⟨x.2, y.2, by simp [lookup, hk], by simp [lookup, hk'], ?_⟩
        rwa [hk] at hvalue
      · have hk' : y.1 ≠ k := hkey ▸ hk
        simpa [lookup, hk, hk'] using ih
  exact hlookup h

end Dict

end Ordered
