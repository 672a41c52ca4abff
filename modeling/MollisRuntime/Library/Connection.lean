import Mathlib.Data.List.Basic

/-!
A database connection that opens its transactions by itself. Outside a
transaction a statement opens one, also when it is refused, and it stays open
until it is committed or rolled back. A guarded block commits when its body
succeeds and rolls back when it fails, so it takes place as a whole or not at all.
-/
namespace Database

/-- What is committed, and the state inside the open transaction. -/
structure Connection (δ : Type*) where
  committed : δ
  working : Option δ := none

/-- Code that works on a connection and may raise. -/
abbrev Body (δ ε : Type*) := Connection δ → Connection δ × Except ε Unit

namespace Connection

variable {δ ε : Type*}

/-- What a statement sees. -/
def current (c : Connection δ) : δ := c.working.getD c.committed

def commit (c : Connection δ) : Connection δ := { committed := c.current }

def rollback (c : Connection δ) : Connection δ := { committed := c.committed }

/-- An explicit BEGIN is refused within a transaction. -/
def begin (refusal : ε) (c : Connection δ) : Except ε (Connection δ) :=
  match c.working with
  | none => .ok { c with working := some c.committed }
  | some _ => .error refusal

/-- A refused statement changes nothing, but the transaction it opened stays open. -/
def execute (statement : δ → Except ε δ) (c : Connection δ) : Connection δ × Except ε Unit :=
  match statement c.current with
  | .ok d => ({ c with working := some d }, .ok ())
  | .error e => ({ c with working := some c.current }, .error e)

/-- `with connection:` -/
def guarded (body : Body δ ε) (c : Connection δ) : Connection δ × Except ε Unit :=
  match (body c).2 with
  | .ok () => ((body c).1.commit, .ok ())
  | .error e => ((body c).1.rollback, .error e)

/-- One body after the other, up to the first that raises. -/
def sequence : List (Body δ ε) → Body δ ε
  | [], c => (c, .ok ())
  | body :: rest, c =>
    match (body c).2 with
    | .ok () => sequence rest (body c).1
    | .error e => ((body c).1, .error e)

/-- Outside a transaction there is nothing but what is committed. -/
theorem eq_of_idle {c : Connection δ} (h : c.working = none) :
    c = { committed := c.committed } := by
  cases c
  cases h
  rfl

theorem execute_committed (statement : δ → Except ε δ) (c : Connection δ) :
    (c.execute statement).1.committed = c.committed := by
  unfold execute
  split <;> rfl

theorem working_execute_ne_none (statement : δ → Except ε δ) (c : Connection δ) :
    (c.execute statement).1.working ≠ none := by
  unfold execute
  split <;> simp

/-- The body commits nothing and makes of the state it sees what `f` makes of it. -/
structure Runs (body : Body δ ε) (f : δ → Except ε δ) : Prop where
  committed : ∀ c, (body c).1.committed = c.committed
  ok : ∀ c d, f c.current = .ok d → (body c).2 = .ok () ∧ (body c).1.current = d
  error : ∀ c e, f c.current = .error e → (body c).2 = .error e

theorem runs_execute (statement : δ → Except ε δ) :
    Runs (fun c => c.execute statement) statement where
  committed := execute_committed statement
  ok c d h := by
    unfold execute
    rw [h]
    exact ⟨rfl, rfl⟩
  error c e h := by
    simp [execute, h]

theorem Runs.sequence {α : Type*} {body : α → Body δ ε} {f : α → δ → Except ε δ}
    (h : ∀ a, Runs (body a) (f a)) (xs : List α) :
    Runs (sequence (xs.map body)) fun d => xs.foldlM (fun d a => f a d) d := by
  induction xs with
  | nil =>
    refine ⟨fun _ => rfl, ?_, ?_⟩
    · intro c d hd
      cases hd
      exact ⟨rfl, rfl⟩
    · intro c e he
      cases he
  | cons a xs ih =>
    have hcases : ∀ c, (∃ d, f a c.current = .ok d ∧
          Connection.sequence ((a :: xs).map body) c =
            Connection.sequence (xs.map body) (body a c).1 ∧ (body a c).1.current = d) ∨
        ∃ e, f a c.current = .error e ∧
          Connection.sequence ((a :: xs).map body) c = ((body a c).1, .error e) := by
      intro c
      cases hf : f a c.current with
      | ok d =>
        obtain ⟨hok, hd⟩ := (h a).ok c d hf
        refine Or.inl ⟨d, rfl, ?_, hd⟩
        rw [List.map_cons, Connection.sequence, hok]
      | error e =>
        have herror := (h a).error c e hf
        refine Or.inr ⟨e, rfl, ?_⟩
        rw [List.map_cons, Connection.sequence, herror]
    refine ⟨?_, ?_, ?_⟩
    · intro c
      rcases hcases c with ⟨d, -, hseq, -⟩ | ⟨e, -, hseq⟩
      · rw [hseq, ih.committed, (h a).committed]
      · rw [hseq]
        exact (h a).committed c
    · intro c d hd
      rw [List.foldlM_cons] at hd
      rcases hcases c with ⟨d', hf, hseq, hcurrent⟩ | ⟨e, hf, -⟩
      · rw [hf] at hd
        rw [hseq]
        exact ih.ok _ d (hcurrent ▸ hd)
      · rw [hf] at hd
        cases hd
    · intro c e he
      rw [List.foldlM_cons] at he
      rcases hcases c with ⟨d', hf, hseq, hcurrent⟩ | ⟨e', hf, hseq⟩
      · rw [hf] at he
        rw [hseq]
        exact ih.error _ e (hcurrent ▸ he)
      · rw [hf] at he
        cases he
        rw [hseq]

/-- The connection after a block that took place as a whole or not at all. -/
def settled (d : δ) : Except ε δ → Connection δ × Except ε Unit
  | .ok d' => ({ committed := d' }, .ok ())
  | .error e => ({ committed := d }, .error e)

theorem Runs.guarded {body : Body δ ε} {f : δ → Except ε δ} (h : Runs body f) (d : δ) :
    guarded body { committed := d } = settled d (f d) := by
  have hcommitted : (body { committed := d }).1.committed = d := h.committed { committed := d }
  unfold Connection.guarded
  cases hf : f d with
  | ok d' =>
    obtain ⟨hok, hcurrent⟩ := h.ok { committed := d } d' hf
    rw [hok]
    simp only [commit, hcurrent, settled]
  | error e =>
    rw [h.error { committed := d } e hf]
    simp only [rollback, hcommitted, settled]

end Connection

end Database
