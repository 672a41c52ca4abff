import Mathlib.Data.List.Basic

/-!
Layers around a call. A layer is a program that asks the next one questions and goes
on with the answers; the questions that come through the whole stack are recorded.
Layers that only observe write to a part of the world that no program reads, and can
be put anywhere in a stack: the state, the questions and the answer stay the same.
-/
namespace Dialogue

variable {σ τ Q A : Type}

/-- The state, the questions that were asked so far, and what has been observed. -/
structure World (σ τ Q : Type) where
  state : σ
  asked : List Q := []
  observed : τ

/-- The worlds differ in what was observed only. -/
structure World.Agrees (w w' : World σ τ Q) : Prop where
  state : w.state = w'.state
  asked : w.asked = w'.asked

def World.observe (write : τ → τ) (w : World σ τ Q) : World σ τ Q :=
  { w with observed := write w.observed }

/-- What answers a question. -/
abbrev Answerer (σ τ Q A : Type) : Type := Q → World σ τ Q → World σ τ Q × A

/-- A program acts on the state, writes to what is observed and asks questions. -/
inductive Program (σ τ Q A : Type)
  | done (answer : A)
  | act (update : σ → σ) (proceed : σ → Program σ τ Q A)
  | record (write : τ → τ) (proceed : Program σ τ Q A)
  | ask (question : Q) (proceed : A → Program σ τ Q A)

def Program.run (next : Answerer σ τ Q A) : Program σ τ Q A → World σ τ Q → World σ τ Q × A
  | .done answer, w => (w, answer)
  | .act update proceed, w => (proceed w.state).run next { w with state := update w.state }
  | .record write proceed, w => proceed.run next (w.observe write)
  | .ask question proceed, w =>
    let answered := next question w
    (proceed answered.2).run next answered.1

/-- The innermost call: it is recorded, and acts on the state. -/
def target (call : Q → σ → σ × A) : Answerer σ τ Q A := fun question w =>
  let called := call question w.state
  ({ w with state := called.1, asked := w.asked ++ [question] }, called.2)

/-- The first layer is the outermost one. -/
def stack (layers : List (Answerer σ τ Q A → Answerer σ τ Q A)) (innermost : Answerer σ τ Q A) :
    Answerer σ τ Q A :=
  layers.foldr (fun layer next => layer next) innermost

/-- The answers agree in worlds that agree, and so do the worlds afterwards. -/
def Agree (f g : Answerer σ τ Q A) : Prop :=
  ∀ question w w', w.Agrees w' →
    (f question w).1.Agrees (g question w').1 ∧ (f question w).2 = (g question w').2

/-- The layer keeps what agrees in agreement. -/
def Respects (layer : Answerer σ τ Q A → Answerer σ τ Q A) : Prop :=
  ∀ f g, Agree f g → Agree (layer f) (layer g)

/-- With the layer it is as it is without. -/
def Observes (layer : Answerer σ τ Q A → Answerer σ τ Q A) : Prop :=
  ∀ f, Agree f f → Agree (layer f) f

theorem World.Agrees.refl (w : World σ τ Q) : w.Agrees w := ⟨rfl, rfl⟩

theorem World.Agrees.symm {w w' : World σ τ Q} (h : w.Agrees w') : w'.Agrees w :=
  ⟨h.state.symm, h.asked.symm⟩

theorem World.Agrees.trans {w w' w'' : World σ τ Q} (h : w.Agrees w') (h' : w'.Agrees w'') :
    w.Agrees w'' :=
  ⟨h.state.trans h'.state, h.asked.trans h'.asked⟩

theorem Agree.trans {f g k : Answerer σ τ Q A} (h : Agree f g) (h' : Agree g k) : Agree f k := by
  intro question w w' hw
  obtain ⟨hworld, hanswer⟩ := h question w w' hw
  obtain ⟨hworld', hanswer'⟩ := h' question w' w' (World.Agrees.refl w')
  exact ⟨hworld.trans hworld', hanswer.trans hanswer'⟩

theorem Agree.symm {f g : Answerer σ τ Q A} (h : Agree f g) : Agree g f := by
  intro question w w' hw
  obtain ⟨hworld, hanswer⟩ := h question w' w hw.symm
  exact ⟨hworld.symm, hanswer.symm⟩

theorem Agree.refl_left {f g : Answerer σ τ Q A} (h : Agree f g) : Agree f f := h.trans h.symm

theorem Observes.respects {layer : Answerer σ τ Q A → Answerer σ τ Q A} (h : Observes layer) :
    Respects layer := by
  intro f g hfg
  have hf : Agree (layer f) f := h f hfg.refl_left
  have hg : Agree (layer g) g := h g hfg.symm.refl_left
  exact (hf.trans hfg).trans hg.symm

/-- A program does not tell worlds apart that agree. -/
theorem run_agrees {f g : Answerer σ τ Q A} (h : Agree f g) (program : Program σ τ Q A) :
    ∀ {w w' : World σ τ Q}, w.Agrees w' →
      (program.run f w).1.Agrees (program.run g w').1 ∧
        (program.run f w).2 = (program.run g w').2 := by
  induction program with
  | done answer => exact fun hw => ⟨hw, rfl⟩
  | act update proceed ih =>
    intro w w' hw
    simp only [Program.run, hw.state]
    exact ih _ ⟨rfl, hw.asked⟩
  | record write proceed ih => exact fun hw => ih ⟨hw.state, hw.asked⟩
  | ask question proceed ih =>
    intro w w' hw
    obtain ⟨hworld, hanswer⟩ := h question w w' hw
    simp only [Program.run, hanswer]
    exact ih _ hworld

theorem respects_program (program : Q → Program σ τ Q A) :
    Respects fun next question => (program question).run next :=
  fun _ _ h question _ _ hw => run_agrees h (program question) hw

theorem target_agrees (call : Q → σ → σ × A) :
    Agree (target call : Answerer σ τ Q A) (target call) := by
  intro question w w' hw
  refine ⟨⟨?_, congrArg (· ++ [question]) hw.asked⟩, ?_⟩
  · exact congrArg (fun state => (call question state).1) hw.state
  · exact congrArg (fun state => (call question state).2) hw.state

/-- Observing layers may be inserted anywhere. -/
theorem stack_agrees {ι : Type} {layer : ι → Answerer σ τ Q A → Answerer σ τ Q A}
    {inserted : ι → Bool} (hrespects : ∀ slot, Respects (layer slot))
    (hobserves : ∀ slot, inserted slot = true → Observes (layer slot))
    {innermost : Answerer σ τ Q A} (hinnermost : Agree innermost innermost) (slots : List ι) :
    Agree (stack (slots.map layer) innermost)
      (stack ((slots.filter fun slot => !inserted slot).map layer) innermost) := by
  induction slots with
  | nil => exact hinnermost
  | cons slot rest ih =>
    cases hslot : inserted slot with
    | true =>
      rw [List.filter_cons_of_neg (by simp [hslot])]
      exact (hobserves slot hslot _ ih.refl_left).trans ih
    | false =>
      rw [List.filter_cons_of_pos (by simp [hslot])]
      exact hrespects slot _ _ ih

end Dialogue
