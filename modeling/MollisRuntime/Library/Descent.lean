import MollisRuntime.Library.Machine

/-!
Machines that come to an end. Some steps are helpful: while the machine is busy
they make a measure smaller, and the other steps at least do not make it larger.
However the steps are interleaved, the machine stays busy for no more helpful
steps than the measure was at first.
-/
namespace Machine

variable {σ α β : Type*}

section Counting

variable (step : σ → α → σ × List β) (helpful : σ → α → Bool)

def helpfulSteps : List α → σ → ℕ
  | [], _ => 0
  | a :: rest, s => (if helpful s a then 1 else 0) + helpfulSteps rest (step s a).1

/-- The state after some steps. -/
def reach (actions : List α) (s : σ) : σ := (exec step actions (s, [])).1

theorem reach_cons (a : α) (rest : List α) (s : σ) :
    reach step (a :: rest) s = reach step rest (step s a).1 := by
  rw [reach, exec_cons, exec_outputs]
  rfl

end Counting

structure Descends (step : σ → α → σ × List β) (invariant busy : σ → Prop)
    (helpful : σ → α → Bool) (measure : σ → ℕ) : Prop where
  keeps : ∀ s a, invariant s → invariant (step s a).1
  weakly : ∀ s a, invariant s → busy s → measure (step s a).1 ≤ measure s
  strictly : ∀ s a, invariant s → busy s → helpful s a = true →
    measure (step s a).1 < measure s

namespace Descends

variable {step : σ → α → σ × List β} {invariant busy : σ → Prop} {helpful : σ → α → Bool}
  {measure : σ → ℕ}

/-- One step pays for itself. -/
theorem paid (h : Descends step invariant busy helpful measure) {s : σ} (hs : invariant s)
    (hbusy : busy s) (a : α) :
    (if helpful s a then 1 else 0) + measure (step s a).1 ≤ measure s := by
  split
  · rename_i hhelpful
    have hless := h.strictly s a hs hbusy hhelpful
    omega
  · have hle := h.weakly s a hs hbusy
    omega

/-- As long as the machine is busy, the measure bounds the helpful steps. -/
theorem helpfulSteps_le (h : Descends step invariant busy helpful measure)
    (actions : List α) {s : σ} (hs : invariant s)
    (hbusy : ∀ before a, before ++ [a] <+: actions → busy (reach step before s)) :
    helpfulSteps step helpful actions s + measure (reach step actions s) ≤ measure s := by
  induction actions generalizing s with
  | nil => simp [helpfulSteps, reach]
  | cons a rest ih =>
    have hfirst : busy s := hbusy [] a ⟨rest, rfl⟩
    have hrest := ih (h.keeps s a hs) (by
      intro before b hbefore
      have hlater := hbusy (a :: before) b ((List.prefix_cons_inj a).mpr hbefore)
      rw [reach_cons] at hlater
      exact hlater)
    have hpaid := h.paid hs hfirst a
    rw [helpfulSteps, reach_cons]
    omega

end Descends

end Machine
