import MollisRuntime.Library.Machine

/-!
Machines whose state has a part of its own for some of the actions. The other
actions leave the part alone and emit nothing for it, and what its own actions
do to it depends on it alone. The part then goes through an interleaving as
through its own actions alone.
-/
namespace Machine

variable {σ ν α β : Type*}

/-- `view` is the part, `mine` its actions and `own` its outputs. -/
structure Separates (step : σ → α → σ × List β) (view : σ → ν) (mine : α → Bool)
    (own : β → Bool) : Prop where
  quiet : ∀ s a, mine a = false → view (step s a).1 = view s ∧ (step s a).2.filter own = []
  alone : ∀ s t a, mine a = true → view s = view t →
    view (step s a).1 = view (step t a).1 ∧ (step s a).2.filter own = (step t a).2.filter own

/-- The part and what was emitted for it. -/
def project (view : σ → ν) (own : β → Bool) (c : σ × List β) : ν × List β :=
  (view c.1, c.2.filter own)

namespace Separates

variable {step : σ → α → σ × List β} {view : σ → ν} {mine : α → Bool} {own : β → Bool}

theorem advance_quiet (h : Separates step view mine own) (c : σ × List β) {a : α}
    (ha : mine a = false) : project view own (advance step c a) = project view own c := by
  obtain ⟨hview, hout⟩ := h.quiet c.1 a ha
  rw [project, advance, List.filter_append, hview, hout, List.append_nil]
  rfl

theorem advance_alone (h : Separates step view mine own) {c d : σ × List β} {a : α}
    (ha : mine a = true) (hcd : project view own c = project view own d) :
    project view own (advance step c a) = project view own (advance step d a) := by
  obtain ⟨hview, hout⟩ := Prod.mk.inj hcd
  obtain ⟨hview', hout'⟩ := h.alone c.1 d.1 a ha hview
  rw [project, project, advance, advance, List.filter_append, List.filter_append, hview', hout,
    hout']

/-- The part's own actions alone do to it what the whole execution does. -/
theorem exec_filter (h : Separates step view mine own) (actions : List α) {c d : σ × List β}
    (hcd : project view own c = project view own d) :
    project view own (exec step actions c) =
      project view own (exec step (actions.filter mine) d) := by
  induction actions generalizing c d with
  | nil => exact hcd
  | cons a rest ih =>
    cases ha : mine a with
    | true =>
      rw [List.filter_cons_of_pos ha, exec_cons, exec_cons]
      exact ih (h.advance_alone ha hcd)
    | false =>
      rw [List.filter_cons_of_neg (by simp [ha]), exec_cons]
      exact ih ((h.advance_quiet c ha).trans hcd)

/-- Two executions with the same own actions. -/
theorem exec_agree (h : Separates step view mine own) {actions actions' : List α}
    {c d : σ × List β} (hcd : project view own c = project view own d)
    (hsame : actions.filter mine = actions'.filter mine) :
    project view own (exec step actions c) = project view own (exec step actions' d) := by
  rw [h.exec_filter actions hcd, hsame]
  exact (h.exec_filter actions' rfl).symm

end Separates

section Folds

variable {f : σ → α → σ} {view : σ → ν} {mine : α → Bool}

/-- A machine that emits nothing. -/
def silent (f : σ → α → σ) (s : σ) (a : α) : σ × List Unit := (f s a, [])

theorem exec_silent (f : σ → α → σ) (actions : List α) (s : σ) :
    exec (silent f) actions (s, []) = (actions.foldl f s, []) := by
  induction actions generalizing s with
  | nil => rfl
  | cons a rest ih => exact ih (f s a)

/-- A part that is left alone by the actions of others and that its own actions
change independently of the rest. -/
structure Apart (f : σ → α → σ) (view : σ → ν) (mine : α → Bool) : Prop where
  quiet : ∀ s a, mine a = false → view (f s a) = view s
  alone : ∀ s t a, mine a = true → view s = view t → view (f s a) = view (f t a)

theorem Apart.separates (h : Apart f view mine) :
    Separates (silent f) view mine fun _ => true where
  quiet s a ha := ⟨h.quiet s a ha, rfl⟩
  alone s t a ha hst := ⟨h.alone s t a ha hst, rfl⟩

/-- Two folds with the same own actions. -/
theorem Apart.foldl_agree (h : Apart f view mine) {actions actions' : List α} {s t : σ}
    (hst : view s = view t) (hsame : actions.filter mine = actions'.filter mine) :
    view (actions.foldl f s) = view (actions'.foldl f t) := by
  have hstart : project view (fun _ => true) (s, ([] : List Unit)) =
      project view (fun _ => true) (t, []) := congrArg (fun part => (part, [])) hst
  have hagree := h.separates.exec_agree hstart hsame
  rw [exec_silent, exec_silent] at hagree
  exact (Prod.mk.inj hagree).1

/-- A part of a part. -/
theorem Apart.comp {μ : Type*} {g : μ → α → μ} {part : σ → μ} {sub : μ → ν}
    (h : Apart g sub mine) (hpart : ∀ s a, part (f s a) = g (part s) a) :
    Apart f (fun s => sub (part s)) mine where
  quiet s a ha := by
    rw [hpart]
    exact h.quiet _ a ha
  alone s t a ha hst := by
    rw [hpart, hpart]
    exact h.alone _ _ a ha hst

end Folds

end Machine
