import MollisRuntime.Library.Connection
import MollisRuntime.Python.Values

/-!
`with store.transaction() as tx`. The wrapper keeps a flag of its own beside the
state of the connection. After an explicit commit or rollback the flag is down;
a later write opens a transaction that the wrapper knows nothing of, and neither
its methods nor the end of the block close it.
-/
namespace MollisRuntime.Persistence

open Python Database

/-- What the sqlite3 module raises, and other exceptions. -/
inductive SqliteError
  | operationalError (message : String)
  | integrityError (message : String)
  | raised (e : PyError)
  deriving DecidableEq, Repr

variable {W : Type}

/-- The connection and the lock that all transactions share. The database is the
list of the writes made to it. -/
structure SharedConnection (W : Type) where
  conn : Connection (List W)
  locked : Bool := false

structure SQLiteTransaction (W : Type) extends SharedConnection W where
  inTransaction : Bool := false

namespace SQLiteTransaction

/-- `__enter__`; while another transaction holds the lock it does not return. -/
def enter (shared : SharedConnection W) : Except SqliteError (SQLiteTransaction W) :=
  if shared.locked then .error (.raised .diverges)
  else match shared.conn.begin (SqliteError.operationalError
      "cannot start a transaction within a transaction") with
    | .ok conn => .ok { conn, locked := true, inTransaction := true }
    | .error e => .error e

def commit (tx : SQLiteTransaction W) : SQLiteTransaction W :=
  if tx.inTransaction then { tx with conn := tx.conn.commit, inTransaction := false } else tx

def rollback (tx : SQLiteTransaction W) : SQLiteTransaction W :=
  if tx.inTransaction then { tx with conn := tx.conn.rollback, inTransaction := false } else tx

/-- `__exit__` -/
def exit (tx : SQLiteTransaction W) (raises : Bool) : SharedConnection W :=
  { (if raises then tx.rollback else tx.commit).toSharedConnection with locked := false }

/-- What the body of the block does: a write that takes place, one that the
database refuses, or a call of the transaction. -/
inductive Action (W : Type)
  | write (w : W)
  | refused
  | commit
  | rollback

def Action.written : Action W → Option W
  | .write w => some w
  | _ => none

def Action.writes : Action W → Bool
  | .write _ => true
  | .refused => true
  | _ => false

/-- The explicit calls. -/
def Action.ends : Action W → Bool
  | .commit => true
  | .rollback => true
  | _ => false

def perform (tx : SQLiteTransaction W) : Action W → SQLiteTransaction W
  | .write w => { tx with conn := (tx.conn.execute (ε := SqliteError) fun ws => .ok (ws ++ [w])).1 }
  | .refused => { tx with conn := (tx.conn.execute fun _ =>
      .error (SqliteError.integrityError "constraint failed")).1 }
  | .commit => tx.commit
  | .rollback => tx.rollback

/-- The block with its body, which returns or raises at its end. -/
def block (shared : SharedConnection W) (body : List (Action W)) (raises : Bool) :
    Except SqliteError (SharedConnection W) := do
  let tx ← enter shared
  return (body.foldl perform tx).exit raises

/-- The writes of a part of the body. -/
def written (body : List (Action W)) : List W := body.filterMap Action.written

/-- What the transaction promises after its block. In the part of the body after
the last rollback everything is committed, unless the body raises; then nothing
is committed in the part after the last commit. -/
structure Kept (base : List W) (body : List (Action W)) (raises : Bool)
    (shared : SharedConnection W) : Prop where
  unlocked : shared.locked = false
  closed : shared.conn.working = none
  starts : ∃ tx, enter shared = .ok tx
  returned : raises = false → ∀ earlier later, body = earlier ++ later →
    (∀ a ∈ later, a ≠ .rollback) →
    ∃ others, shared.conn.committed = base ++ others ++ written later
  raised : raises = true → ∀ earlier later, body = earlier ++ later →
    (∀ a ∈ later, a ≠ .commit) →
    ∃ others, shared.conn.committed = base ++ others ∧ others.Sublist (written earlier)

section Phases

variable {tx : SQLiteTransaction W}

theorem writes_eq_false_of_ends {a : Action W} (h : a.ends = true) : a.writes = false := by
  cases a <;> simp_all [Action.ends, Action.writes]

theorem written_of_quiet {body : List (Action W)} (h : ∀ a ∈ body, a.writes = false) :
    written body = [] := by
  refine List.filterMap_eq_nil_iff.mpr ?_
  intro a ha
  have hquiet := h a ha
  cases a <;> simp_all [Action.writes, Action.written]

/-- Before the first explicit call the writes gather in the open transaction. -/
theorem foldl_open {base ws : List W} {body : List (Action W)}
    (hbody : ∀ a ∈ body, a.ends = false) :
    body.foldl perform
        { conn := { committed := base, working := some ws }, locked := true
          inTransaction := true } =
      { conn := { committed := base, working := some (ws ++ written body) }, locked := true
        inTransaction := true } := by
  induction body generalizing ws with
  | nil => simp [written]
  | cons a rest ih =>
    obtain ⟨ha, hrest⟩ := List.forall_mem_cons.mp hbody
    cases a with
    | write w =>
      have hwritten : written (.write w :: rest) = [w] ++ written rest := rfl
      rw [hwritten, ← List.append_assoc]
      exact ih hrest
    | refused => exact ih hrest
    | commit => cases ha
    | rollback => cases ha

/-- With the flag down the explicit calls do nothing. -/
theorem foldl_quiet (hflag : tx.inTransaction = false) {body : List (Action W)}
    (hbody : ∀ a ∈ body, a.writes = false) : body.foldl perform tx = tx := by
  induction body with
  | nil => rfl
  | cons a rest ih =>
    obtain ⟨ha, hrest⟩ := List.forall_mem_cons.mp hbody
    have hstep : tx.perform a = tx := by
      cases a with
      | write => cases ha
      | refused => cases ha
      | commit => simp [perform, commit, hflag]
      | rollback => simp [perform, rollback, hflag]
    rw [List.foldl_cons, hstep, ih hrest]

theorem flag_perform (hflag : tx.inTransaction = false) (a : Action W) :
    (tx.perform a).inTransaction = false := by
  cases a with
  | write => exact hflag
  | refused => exact hflag
  | commit => simp [perform, commit, hflag]
  | rollback => simp [perform, rollback, hflag]

/-- With the flag down a write opens a transaction that stays open. -/
theorem perform_leaks (hflag : tx.inTransaction = false) (a : Action W)
    (h : tx.conn.working ≠ none ∨ a.writes = true) : (tx.perform a).conn.working ≠ none := by
  cases a with
  | write w => exact Connection.working_execute_ne_none _ _
  | refused => exact Connection.working_execute_ne_none _ _
  | commit =>
    have hstep : tx.perform .commit = tx := by simp [perform, commit, hflag]
    rw [hstep]
    exact h.resolve_right Bool.false_ne_true
  | rollback =>
    have hstep : tx.perform .rollback = tx := by simp [perform, rollback, hflag]
    rw [hstep]
    exact h.resolve_right Bool.false_ne_true

theorem foldl_leaks (hflag : tx.inTransaction = false) {body : List (Action W)}
    (h : tx.conn.working ≠ none ∨ ∃ a ∈ body, a.writes = true) :
    (body.foldl perform tx).inTransaction = false ∧
      (body.foldl perform tx).conn.working ≠ none := by
  induction body generalizing tx with
  | nil =>
    rcases h with hopen | ⟨a, ha, -⟩
    · exact ⟨hflag, hopen⟩
    · exact absurd ha List.not_mem_nil
  | cons a rest ih =>
    rw [List.foldl_cons]
    refine ih (flag_perform hflag a) ?_
    rcases h with hopen | ⟨b, hb, hwrites⟩
    · exact Or.inl (perform_leaks hflag a (Or.inl hopen))
    · rcases List.mem_cons.mp hb with rfl | hb
      · exact Or.inl (perform_leaks hflag b (Or.inr hwrites))
      · exact Or.inr ⟨b, hb, hwrites⟩

end Phases

section Boundary

/-- No write comes after an explicit commit or rollback. -/
def WritesFirst (body : List (Action W)) : Prop :=
  body.Pairwise fun a b => a.ends = true → b.writes = false

/-- A body without explicit calls, or the part before the first of them. -/
theorem exists_split (body : List (Action W)) :
    ∃ front rest, body = front ++ rest ∧ (∀ a ∈ front, a.ends = false) ∧
      (rest = [] ∨ ∃ a tail, rest = a :: tail ∧ a.ends = true) := by
  induction body with
  | nil => exact ⟨[], [], rfl, List.forall_mem_nil _, Or.inl rfl⟩
  | cons a body ih =>
    by_cases ha : a.ends = true
    · exact ⟨[], a :: body, rfl, List.forall_mem_nil _, Or.inr ⟨a, body, rfl, ha⟩⟩
    · obtain ⟨front, rest, rfl, hfront, hrest⟩ := ih
      refine ⟨a :: front, rest, rfl, ?_, hrest⟩
      exact List.forall_mem_cons.mpr ⟨by simpa using ha, hfront⟩

theorem writesFirst_split {front tail : List (Action W)} {a : Action W}
    (hfront : ∀ b ∈ front, b.ends = false) (ha : a.ends = true) :
    WritesFirst (front ++ a :: tail) ↔ ∀ b ∈ tail, b.writes = false := by
  have hnot : ∀ b ∈ front, ∀ c : Action W, b.ends = true → c.writes = false := by
    intro b hb c hends
    rw [hfront b hb] at hends
    cases hends
  constructor
  · intro h b hb
    exact (List.pairwise_cons.mp (List.pairwise_append.mp h).2.1).1 b hb ha
  · intro hquiet
    refine List.pairwise_append.mpr ⟨?_, List.pairwise_cons.mpr ⟨fun b hb _ => hquiet b hb, ?_⟩,
      fun b hb c _ => hnot b hb c⟩
    · exact List.pairwise_iff_forall_sublist.mpr fun {b c} hbc =>
        hnot b (hbc.subset (by simp)) c
    · exact List.pairwise_iff_forall_sublist.mpr fun {b c} hbc _ =>
        hquiet c (hbc.subset (by simp))

theorem writesFirst_of_open {body : List (Action W)} (h : ∀ a ∈ body, a.ends = false) :
    WritesFirst body := by
  refine List.pairwise_iff_forall_sublist.mpr ?_
  intro b c hbc hends
  rw [h b (hbc.subset (by simp))] at hends
  cases hends

theorem written_append (xs ys : List (Action W)) : written (xs ++ ys) = written xs ++ written ys :=
  List.filterMap_append

/-- However the body is split, its writes are those before the explicit call. -/
theorem written_split {front tail earlier later : List (Action W)} {a : Action W}
    (hsplit : front ++ a :: tail = earlier ++ later) (ha : a.ends = true)
    (hquiet : ∀ b ∈ tail, b.writes = false) :
    written front = written earlier ++ written later := by
  have hrest : written (a :: tail) = [] :=
    written_of_quiet (List.forall_mem_cons.mpr ⟨writes_eq_false_of_ends ha, hquiet⟩)
  have hwritten := congrArg written hsplit
  rwa [written_append, written_append, hrest, List.append_nil] at hwritten

/-- A part of the body that leaves out the explicit call comes after it. -/
theorem written_of_later {front tail earlier later : List (Action W)} {a : Action W}
    (hsplit : front ++ a :: tail = earlier ++ later) (ha : a.ends = true)
    (hquiet : ∀ b ∈ tail, b.writes = false) (hlater : a ∉ later) : written later = [] := by
  have hrest : ∀ b ∈ a :: tail, b.writes = false :=
    List.forall_mem_cons.mpr ⟨writes_eq_false_of_ends ha, hquiet⟩
  rcases List.suffix_or_suffix_of_suffix (List.suffix_append earlier later)
      (hsplit ▸ List.suffix_append front (a :: tail)) with hsuffix | hsuffix
  · exact written_of_quiet fun b hb => hrest b (hsuffix.subset hb)
  · exact absurd (hsuffix.subset (by simp)) hlater

theorem starts_of_closed {shared : SharedConnection W} (hunlocked : shared.locked = false)
    (hclosed : shared.conn.working = none) : ∃ tx, enter shared = .ok tx := by
  unfold enter Connection.begin
  rw [hunlocked, hclosed]
  exact ⟨_, rfl⟩

/-- The state after the first explicit call, and after the block when no write follows. -/
def afterEnd (base : List W) (front : List (Action W)) (a : Action W) : List W :=
  match a with
  | .commit => base ++ written front
  | _ => base

theorem foldl_first_end {base : List W} {front : List (Action W)} {a : Action W}
    (hfront : ∀ b ∈ front, b.ends = false) (ha : a.ends = true) :
    (front ++ [a]).foldl perform
        { conn := { committed := base, working := some base }, locked := true
          inTransaction := true } =
      { conn := { committed := afterEnd base front a }, locked := true
        inTransaction := false } := by
  rw [List.foldl_concat, foldl_open hfront]
  cases a with
  | write => cases ha
  | refused => cases ha
  | commit => rfl
  | rollback => rfl

theorem exit_of_flag {tx : SQLiteTransaction W} (hflag : tx.inTransaction = false)
    (raises : Bool) : tx.exit raises = { conn := tx.conn, locked := false } := by
  cases raises <;> simp [exit, commit, rollback, hflag]

/-- Only writes: the block ends the one transaction it began. -/
theorem block_open (base : List W) {body : List (Action W)} (hbody : ∀ a ∈ body, a.ends = false)
    (raises : Bool) :
    block { conn := { committed := base } } body raises =
      .ok { conn := { committed := if raises then base else base ++ written body } } := by
  change Except.ok ((body.foldl perform { conn := { committed := base, working := some base }
                                          locked := true, inTransaction := true }).exit raises) = _
  rw [foldl_open hbody]
  cases raises <;> rfl

theorem block_ended (base : List W) {front tail : List (Action W)} {a : Action W}
    (hfront : ∀ b ∈ front, b.ends = false) (ha : a.ends = true) (raises : Bool) :
    block { conn := { committed := base } } (front ++ a :: tail) raises =
      .ok { conn := (tail.foldl perform { conn := { committed := afterEnd base front a }
                                          locked := true, inTransaction := false }).conn } := by
  change Except.ok (((front ++ a :: tail).foldl perform
    { conn := { committed := base, working := some base }, locked := true
      inTransaction := true }).exit raises) = _
  rw [List.append_cons, List.foldl_append, foldl_first_end hfront ha]
  have hflag : (tail.foldl perform { conn := { committed := afterEnd base front a }
                                     locked := true, inTransaction := false }).inTransaction =
      false := by
    refine List.foldlRecOn (motive := fun tx : SQLiteTransaction W => tx.inTransaction = false)
      tail _ rfl ?_
    exact fun tx htx b _ => flag_perform htx b
  rw [exit_of_flag hflag]

theorem kept_open (base : List W) {body : List (Action W)} (raises : Bool) :
    Kept base body raises
      { conn := { committed := if raises then base else base ++ written body } } where
  unlocked := rfl
  closed := rfl
  starts := starts_of_closed rfl rfl
  returned := by
    rintro rfl earlier later rfl -
    exact ⟨written earlier, by rw [written_append, List.append_assoc]; rfl⟩
  raised := by
    rintro rfl earlier later - -
    exact ⟨[], (List.append_nil base).symm, List.nil_sublist _⟩

theorem kept_ended (base : List W) {front tail : List (Action W)} {a : Action W}
    (ha : a.ends = true) (hquiet : ∀ b ∈ tail, b.writes = false) (raises : Bool) :
    Kept base (front ++ a :: tail) raises
      { conn := { committed := afterEnd base front a } } where
  unlocked := rfl
  closed := rfl
  starts := starts_of_closed rfl rfl
  returned := by
    rintro - earlier later hsplit hlater
    have hwritten := written_split hsplit ha hquiet
    cases a with
    | write => cases ha
    | refused => cases ha
    | commit => exact ⟨written earlier, by rw [List.append_assoc, ← hwritten]; rfl⟩
    | rollback =>
      have hnone := written_of_later hsplit ha hquiet fun hmem => hlater _ hmem rfl
      exact ⟨[], by simp [afterEnd, hnone]⟩
  raised := by
    rintro - earlier later hsplit hlater
    have hwritten := written_split hsplit ha hquiet
    cases a with
    | write => cases ha
    | refused => cases ha
    | commit =>
      have hnone := written_of_later hsplit ha hquiet fun hmem => hlater _ hmem rfl
      rw [hnone, List.append_nil] at hwritten
      exact ⟨written front, rfl, hwritten ▸ List.Sublist.refl _⟩
    | rollback => exact ⟨[], (List.append_nil base).symm, List.nil_sublist _⟩

end Boundary

end SQLiteTransaction

end MollisRuntime.Persistence
