import Mathlib.Data.List.Induction
import MollisRuntime.Library.Machine

/-!
What a machine emits, one output after the other. A condition may be asked of every output
after those before it; a property of the outputs that one more output keeps exactly when
it meets the condition holds all along exactly when all outputs meet it.
-/
namespace Machine

variable {σ α β : Type*}

/-- Each output meets the condition after the outputs before it. -/
def Throughout (G : List β → β → Prop) (outputs : List β) : Prop :=
  ∀ before b later, outputs = before ++ b :: later → G before b

theorem throughout_nil (G : List β → β → Prop) : Throughout G [] := by
  intro before b later h
  cases before <;> cases h

theorem throughout_snoc {G : List β → β → Prop} {outputs : List β} {b : β} :
    Throughout G (outputs ++ [b]) ↔ Throughout G outputs ∧ G outputs b := by
  constructor
  · intro h
    refine ⟨?_, h outputs b [] rfl⟩
    rintro before c later rfl
    exact h before c (later ++ [b]) (by simp)
  · rintro ⟨houtputs, hb⟩ before c later heq
    rcases List.eq_nil_or_concat' later with rfl | ⟨rest, last, rfl⟩
    · obtain ⟨rfl, hlast⟩ := List.append_inj' heq rfl
      exact List.singleton_inj.mp hlast ▸ hb
    · rw [← List.cons_append, ← List.append_assoc] at heq
      exact houtputs before c rest (List.append_inj' heq rfl).1

variable {step : σ → α → σ × List β}

theorem exec_snoc (actions : List α) (a : α) (c : σ × List β) :
    exec step (actions ++ [a]) c = advance step (exec step actions c) a :=
  exec_append step actions [a] c

/-- A machine that emits at most one output a step, with an invariant of its own. -/
theorem forall_prefix_iff_throughout {I : σ × List β → Prop} {Q : List β → Prop}
    {G : List β → β → Prop} (hstep : ∀ c a, I c → I (advance step c a))
    (houtput : ∀ c a, I c → (step c.1 a).2 = [] ∨
      ∃ b, (step c.1 a).2 = [b] ∧ (Q c.2 → (Q (c.2 ++ [b]) ↔ G c.2 b)))
    {s : σ} (hs : I (s, [])) (hnil : Q []) (actions : List α) :
    (∀ before, before <+: actions → Q (exec step before (s, [])).2) ↔
      Throughout G (exec step actions (s, [])).2 := by
  have hinvariant (actions : List α) : I (exec step actions (s, [])) :=
    exec_preserves I hstep hs actions
  induction actions using List.reverseRecOn with
  | nil =>
    refine iff_of_true (fun before hbefore => ?_) (throughout_nil G)
    rw [List.prefix_nil.mp hbefore]
    exact hnil
  | append_singleton actions a ih =>
    have hprefix : (∀ before, before <+: actions ++ [a] → Q (exec step before (s, [])).2) ↔
        (∀ before, before <+: actions → Q (exec step before (s, [])).2) ∧
          Q (exec step (actions ++ [a]) (s, [])).2 := by
      simp only [List.prefix_concat_iff, or_imp, forall_and, forall_eq]
      exact and_comm
    refine hprefix.trans ((and_congr_left' ih).trans ?_)
    rw [exec_snoc, advance]
    rcases houtput _ a (hinvariant actions) with hnone | ⟨b, hone, hiff⟩
    · rw [hnone, List.append_nil, and_iff_left_iff_imp]
      exact fun h => ih.mpr h actions List.prefix_rfl
    · rw [hone, throughout_snoc]
      refine and_congr_right fun h => hiff ?_
      exact ih.mpr h actions List.prefix_rfl

end Machine
