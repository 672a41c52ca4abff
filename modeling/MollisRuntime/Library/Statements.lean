import MollisRuntime.Library.Connection

/-!
Blocks of statements. A statement whose parameters cannot be computed does not
reach the connection. On an idle connection a block of statements, with or without
an explicit BEGIN, takes place as a whole or not at all, and it is idle afterwards.
Statements that work on a part of the database leave the rest alone.
-/
namespace Database

variable {δ π ε : Type}

/-- The parameters and what the statement makes of the database. -/
structure Statement (δ ε : Type) where
  params : Except ε Unit
  effect : δ → Except ε δ

namespace Statement

def body (s : Statement δ ε) : Body δ ε := fun c =>
  match s.params with
  | .ok () => c.execute s.effect
  | .error e => (c, .error e)

def run (s : Statement δ ε) (d : δ) : Except ε δ := do
  s.params
  s.effect d

/-- One after the other, up to the first that raises. -/
def runAll (statements : List (Statement δ ε)) (d : δ) : Except ε δ :=
  statements.foldlM (fun d s => s.run d) d

theorem runs_body (s : Statement δ ε) : Connection.Runs s.body s.run := by
  obtain ⟨params, effect⟩ := s
  cases params with
  | ok => exact Connection.runs_execute effect
  | error e =>
    refine ⟨fun _ => rfl, ?_, ?_⟩
    · intro c d h
      cases h
    · intro c e' h
      cases h
      rfl

theorem runs_sequence (statements : List (Statement δ ε)) :
    Connection.Runs (Connection.sequence (statements.map body)) (runAll statements) :=
  Connection.Runs.sequence runs_body statements

theorem runAll_cons (s : Statement δ ε) (rest : List (Statement δ ε)) (d : δ) :
    runAll (s :: rest) d = s.run d >>= runAll rest := rfl

theorem runAll_singleton (s : Statement δ ε) : runAll [s] = s.run := by
  funext d
  rw [runAll_cons]
  cases s.run d <;> rfl

theorem runAll_append (xs ys : List (Statement δ ε)) (d : δ) :
    runAll (xs ++ ys) d = runAll xs d >>= runAll ys := List.foldlM_append

end Statement

namespace Connection

/-- `with connection:` around the statements. -/
def block (statements : List (Statement δ ε)) : Body δ ε :=
  guarded (sequence (statements.map Statement.body))

/-- The block, begun by an explicit BEGIN. -/
def transaction (refusal : ε) (statements : List (Statement δ ε)) : Body δ ε := fun c =>
  match c.begin refusal with
  | .ok c' => block statements c'
  | .error e => (c, .error e)

theorem block_idle (statements : List (Statement δ ε)) (d : δ) :
    block statements { committed := d } = settled d (Statement.runAll statements d) :=
  (Statement.runs_sequence statements).guarded d

/-- Within its own transaction the block sees the same state. -/
theorem Runs.guarded_begun {body : Body δ ε} {f : δ → Except ε δ} (h : Runs body f) (d : δ) :
    Connection.guarded body { committed := d, working := some d } = settled d (f d) := by
  have hcommitted := h.committed { committed := d, working := some d }
  unfold Connection.guarded
  cases hf : f d with
  | ok d' =>
    obtain ⟨hok, hcurrent⟩ := h.ok { committed := d, working := some d } d' hf
    rw [hok]
    simp only [commit, hcurrent, settled]
  | error e =>
    rw [h.error { committed := d, working := some d } e hf]
    simp only [rollback, hcommitted, settled]

theorem transaction_idle (refusal : ε) (statements : List (Statement δ ε)) (d : δ) :
    transaction refusal statements { committed := d } =
      settled d (Statement.runAll statements d) :=
  (Statement.runs_sequence statements).guarded_begun d

end Connection

/-- A part of the database that can be read and written on its own. -/
structure Part (δ π : Type) where
  get : δ → π
  put : π → δ → δ
  get_put : ∀ p d, get (put p d) = p
  put_put : ∀ p q d, put p (put q d) = put p d
  put_get : ∀ d, put (get d) d = d

namespace Part

/-- What a change of the part makes of the database. -/
def lift (part : Part δ π) (f : π → Except ε π) (d : δ) : Except ε δ :=
  (f (part.get d)).map fun p => part.put p d

def statement (part : Part δ π) (s : Statement π ε) : Statement δ ε where
  params := s.params
  effect := part.lift s.effect

theorem lift_eq_ok {part : Part δ π} {f : π → Except ε π} {d d' : δ}
    (h : part.lift f d = .ok d') : ∃ p, f (part.get d) = .ok p ∧ d' = part.put p d := by
  unfold lift at h
  cases hf : f (part.get d) with
  | error e =>
    rw [hf] at h
    cases h
  | ok p =>
    rw [hf] at h
    exact ⟨p, rfl, (Except.ok.inj h).symm⟩

theorem lift_returns_iff {part : Part δ π} {f : π → Except ε π} {d : δ} :
    (∃ d', part.lift f d = .ok d') ↔ ∃ p, f (part.get d) = .ok p := by
  unfold lift
  cases f (part.get d) <;> simp [Except.map]

theorem lift_bind (part : Part δ π) (f g : π → Except ε π) (d : δ) :
    part.lift f d >>= part.lift g = part.lift (fun p => f p >>= g) d := by
  unfold lift
  beta_reduce
  cases f (part.get d) with
  | error e => rfl
  | ok p =>
    change (g (part.get (part.put p d))).map (fun q => part.put q (part.put p d)) =
      (g p).map fun q => part.put q d
    rw [part.get_put]
    exact congrArg (fun h => (g p).map h) (funext fun q => part.put_put q p d)

theorem run_statement (part : Part δ π) (s : Statement π ε) (d : δ) :
    (part.statement s).run d = part.lift s.run d := by
  obtain ⟨params, effect⟩ := s
  cases params <;> rfl

/-- Statements on a part come to one change of it. -/
theorem runAll_statements (part : Part δ π) (statements : List (Statement π ε)) (d : δ) :
    Statement.runAll (statements.map part.statement) d =
      part.lift (Statement.runAll statements) d := by
  induction statements generalizing d with
  | nil => exact congrArg Except.ok (part.put_get d).symm
  | cons s rest ih =>
    have hrest : Statement.runAll (rest.map part.statement) =
        part.lift (Statement.runAll rest) := funext ih
    rw [List.map_cons, Statement.runAll_cons, run_statement, hrest, lift_bind]
    rfl

end Part

end Database
