import Mathlib.Data.List.Basic

/-!
Deterministic machines that emit outputs. A configuration is a state together
with everything emitted so far. A condition may be asked of every step of an
execution, and an invariant that such steps preserve holds at the end.
-/
namespace Machine

variable {σ α β : Type*} (step : σ → α → σ × List β)

/-- One step: the new state, and the new outputs behind the old ones. -/
def advance (c : σ × List β) (a : α) : σ × List β :=
  ((step c.1 a).1, c.2 ++ (step c.1 a).2)

def exec (actions : List α) (c : σ × List β) : σ × List β :=
  actions.foldl (advance step) c

/-- The condition holds of every action in the configuration it meets. -/
def Along (P : σ × List β → α → Prop) : List α → σ × List β → Prop
  | [], _ => True
  | a :: rest, c => P c a ∧ Along P rest (advance step c a)

instance Along.instDecidable {P : σ × List β → α → Prop} [∀ c a, Decidable (P c a)] :
    ∀ (actions : List α) (c : σ × List β), Decidable (Along step P actions c)
  | [], _ => inferInstanceAs (Decidable True)
  | a :: rest, c =>
    have : Decidable (Along step P rest (advance step c a)) := Along.instDecidable rest _
    inferInstanceAs (Decidable (P c a ∧ Along step P rest (advance step c a)))

@[simp] theorem exec_nil (c : σ × List β) : exec step [] c = c := rfl

@[simp] theorem exec_cons (a : α) (rest : List α) (c : σ × List β) :
    exec step (a :: rest) c = exec step rest (advance step c a) := rfl

theorem exec_append (xs ys : List α) (c : σ × List β) :
    exec step (xs ++ ys) c = exec step ys (exec step xs c) :=
  List.foldl_append

/-- What was emitted before an execution stays in front of what it emits. -/
theorem exec_outputs (actions : List α) (c : σ × List β) :
    exec step actions c =
      ((exec step actions (c.1, [])).1, c.2 ++ (exec step actions (c.1, [])).2) := by
  induction actions generalizing c with
  | nil => simp
  | cons a rest ih =>
    rw [exec_cons, exec_cons, ih, ih (advance step (c.1, []) a)]
    simp [advance]

variable {step}

theorem along_of_forall {P : σ × List β → α → Prop} {actions : List α}
    (h : ∀ a ∈ actions, ∀ c, P c a) (c : σ × List β) : Along step P actions c := by
  induction actions generalizing c with
  | nil => trivial
  | cons a rest ih =>
    exact ⟨h a (by simp) c, ih (fun b hb => h b (List.mem_cons_of_mem _ hb)) _⟩

theorem Along.mono {P Q : σ × List β → α → Prop} {actions : List α} {c : σ × List β}
    (hP : Along step P actions c) (h : ∀ c a, P c a → Q c a) : Along step Q actions c := by
  induction actions generalizing c with
  | nil => trivial
  | cons a rest ih => exact ⟨h c a hP.1, ih hP.2⟩

/-- What holds of all actions may be added to the condition. -/
theorem Along.and_forall {P : σ × List β → α → Prop} {Q : α → Prop} {actions : List α}
    {c : σ × List β} (hP : Along step P actions c) (hQ : ∀ a ∈ actions, Q a) :
    Along step (fun c a => P c a ∧ Q a) actions c := by
  induction actions generalizing c with
  | nil => trivial
  | cons a rest ih =>
    exact ⟨⟨hP.1, hQ a (by simp)⟩, ih hP.2 fun b hb => hQ b (List.mem_cons_of_mem _ hb)⟩

/-- The invariant rule. -/
theorem exec_invariant {P : σ × List β → α → Prop} (I : σ × List β → Prop)
    (hstep : ∀ c a, I c → P c a → I (advance step c a)) {actions : List α} {c : σ × List β}
    (hc : I c) (hP : Along step P actions c) : I (exec step actions c) := by
  induction actions generalizing c with
  | nil => exact hc
  | cons a rest ih => exact ih (hstep c a hc hP.1) hP.2

/-- The invariant rule, for an invariant that every step keeps. -/
theorem exec_preserves (I : σ × List β → Prop) (hstep : ∀ c a, I c → I (advance step c a))
    {c : σ × List β} (hc : I c) (actions : List α) : I (exec step actions c) := by
  have halong : Along step (fun _ _ => True) actions c :=
    along_of_forall (fun _ _ _ => trivial) c
  exact exec_invariant I (fun c a hkept _ => hstep c a hkept) hc halong

/-- The invariant rule for invariants that speak of the actions so far. -/
theorem exec_tracks {P : σ × List β → α → Prop} (I : List α → σ × List β → Prop)
    (hstep : ∀ seen c a, I seen c → P c a → I (seen ++ [a]) (advance step c a))
    {seen actions : List α} {c : σ × List β} (hc : I seen c) (hP : Along step P actions c) :
    I (seen ++ actions) (exec step actions c) := by
  induction actions generalizing seen c with
  | nil =>
    rw [List.append_nil]
    exact hc
  | cons a rest ih =>
    have hrest := ih (hstep seen c a hc hP.1) hP.2
    rw [List.append_assoc] at hrest
    exact hrest

/-- The invariant holds wherever an action of the execution is met. -/
theorem Along.with_invariant {P : σ × List β → α → Prop} (I : σ × List β → Prop)
    (hstep : ∀ c a, I c → P c a → I (advance step c a)) {actions : List α} {c : σ × List β}
    (hc : I c) (hP : Along step P actions c) :
    Along step (fun c a => I c ∧ P c a) actions c := by
  induction actions generalizing c with
  | nil => trivial
  | cons a rest ih => exact ⟨⟨hc, hP.1⟩, ih (hstep c a hc hP.1) hP.2⟩

theorem along_append {P : σ × List β → α → Prop} (xs ys : List α) (c : σ × List β) :
    Along step P (xs ++ ys) c ↔ Along step P xs c ∧ Along step P ys (exec step xs c) := by
  induction xs generalizing c with
  | nil => simp [Along]
  | cons a rest ih => simp [Along, ih, and_assoc]

/-- The condition is asked of each action after the ones before it. -/
theorem along_iff_splits {P : σ × List β → α → Prop} {actions : List α} {c : σ × List β} :
    Along step P actions c ↔
      ∀ before a later, actions = before ++ a :: later → P (exec step before c) a := by
  constructor
  · rintro h before a later rfl
    exact ((along_append before (a :: later) c).mp h).2.1
  · intro h
    induction actions generalizing c with
    | nil => trivial
    | cons a rest ih =>
      refine ⟨h [] a rest rfl, ih ?_⟩
      intro before b later hrest
      exact h (a :: before) b later (by rw [hrest]; rfl)

/-- A property that every prefix of an execution has exactly when all steps meet
the condition: an invariant implies it, a step that meets the condition keeps the
invariant, and a step that keeps the property meets the condition. The steps may be
restricted to those of some actions. -/
theorem forall_prefix_iff_along_among {P : σ × List β → α → Prop} {R : α → Prop}
    (I Q : σ × List β → Prop) (hI : ∀ c, I c → Q c)
    (hstep : ∀ c a, R a → I c → P c a → I (advance step c a))
    (honly : ∀ c a, R a → I c → Q (advance step c a) → P c a) {actions : List α}
    {c : σ × List β} (hR : ∀ a ∈ actions, R a) (hc : I c) :
    (∀ before, before <+: actions → Q (exec step before c)) ↔ Along step P actions c := by
  induction actions generalizing c with
  | nil =>
    refine ⟨fun _ => trivial, ?_⟩
    rintro - before hbefore
    rw [List.prefix_nil.mp hbefore]
    exact hI c hc
  | cons a rest ih =>
    obtain ⟨hfirst, hlater⟩ := List.forall_mem_cons.mp hR
    constructor
    · intro h
      have ha : P c a := honly c a hfirst hc (h [a] ⟨rest, rfl⟩)
      refine ⟨ha, (ih hlater (hstep c a hfirst hc ha)).mp ?_⟩
      intro before hbefore
      exact h (a :: before) ((List.prefix_cons_inj a).mpr hbefore)
    · rintro ⟨ha, hrest⟩ before hbefore
      cases before with
      | nil => exact hI c hc
      | cons b before =>
        obtain ⟨rfl, hprefix⟩ := List.cons_prefix_cons.mp hbefore
        exact (ih hlater (hstep c b hfirst hc ha)).mpr hrest before hprefix

theorem forall_prefix_iff_along_of {P : σ × List β → α → Prop} (I Q : σ × List β → Prop)
    (hI : ∀ c, I c → Q c) (hstep : ∀ c a, I c → P c a → I (advance step c a))
    (honly : ∀ c a, I c → Q (advance step c a) → P c a) {actions : List α}
    {c : σ × List β} (hc : I c) :
    (∀ before, before <+: actions → Q (exec step before c)) ↔ Along step P actions c :=
  forall_prefix_iff_along_among (R := fun _ => True) I Q hI (fun c a _ => hstep c a)
    (fun c a _ => honly c a) (fun _ _ => trivial) hc

/-- A property that a step keeps exactly when it meets the condition. -/
theorem forall_prefix_iff_along {P : σ × List β → α → Prop} (I : σ × List β → Prop)
    (hstep : ∀ c a, I c → (I (advance step c a) ↔ P c a)) {actions : List α}
    {c : σ × List β} (hc : I c) :
    (∀ before, before <+: actions → I (exec step before c)) ↔ Along step P actions c :=
  forall_prefix_iff_along_of I I (fun _ h => h) (fun c a h => (hstep c a h).mpr)
    (fun c a h => (hstep c a h).mp) hc

/-- The simulation rule: a second machine, related to the configurations of the
first, that emits what the first does at every step that meets the condition. -/
theorem exec_simulates {σ' : Type*} (step' : σ' → α → σ' × List β)
    {P : σ × List β → α → Prop} (R : σ × List β → σ' → Prop)
    (hstep : ∀ c s a, R c s → P c a →
      (step' s a).2 = (step c.1 a).2 ∧ R (advance step c a) (step' s a).1)
    {actions : List α} {c : σ × List β} {s : σ'} (hc : R c s) (hP : Along step P actions c) :
    (exec step' actions (s, c.2)).2 = (exec step actions c).2 ∧
      R (exec step actions c) (exec step' actions (s, c.2)).1 := by
  induction actions generalizing c s with
  | nil => exact ⟨rfl, hc⟩
  | cons a rest ih =>
    obtain ⟨houtput, hnext⟩ := hstep c s a hc hP.1
    have hadvance : advance step' (s, c.2) a = ((step' s a).1, (advance step c a).2) := by
      rw [advance, advance, houtput]
    rw [exec_cons, exec_cons, hadvance]
    exact ih hnext hP.2

section Watch

variable {γ : Type*} (enter : σ → γ → α → γ)

variable (step) in
/-- A machine that keeps a record beside its state. -/
def watch (s : σ × γ) (a : α) : (σ × γ) × List β :=
  (((step s.1 a).1, enter s.1 s.2 a), (step s.1 a).2)

/-- The record takes no part in the execution. -/
theorem exec_watch (actions : List α) (c : (σ × γ) × List β) :
    ((exec (watch step enter) actions c).1.1, (exec (watch step enter) actions c).2) =
      exec step actions (c.1.1, c.2) := by
  induction actions generalizing c with
  | nil => rfl
  | cons a rest ih => exact ih (advance (watch step enter) c a)

end Watch

theorem Along.exists_of_mem {P : σ × List β → α → Prop} {actions : List α} {c : σ × List β}
    (hP : Along step P actions c) {a : α} (ha : a ∈ actions) : ∃ c', P c' a := by
  induction actions generalizing c with
  | nil => simp at ha
  | cons b rest ih =>
    rcases List.mem_cons.mp ha with rfl | ha
    · exact ⟨c, hP.1⟩
    · exact ih hP.2 ha

end Machine
