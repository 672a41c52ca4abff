import Mathlib.Data.List.Basic
import Mathlib.Logic.Relation

/-!
Threads and locks. A thread runs code of which only the blocks under a lock, the
loops and the joins of other threads are kept; every other step may be passed over,
as a branch that is not taken or after an exception. If the blocks of all threads
nest in the order of the ranks of their locks, and no thread joins another one from
within a block, no thread ever waits in a circle.
-/
namespace Locking

/-- The locks of a class are told apart by a number when they are taken. -/
inductive Code (C : Type*)
  | done
  | locked (c : C) (body next : Code C)
  | again (body next : Code C)
  | join (next : Code C)

namespace Code

variable {C : Type*}

def andThen : Code C → Code C → Code C
  | done, last => last
  | locked c body next, last => locked c body (next.andThen last)
  | again body next, last => again body (next.andThen last)
  | join next, last => join (next.andThen last)

def sequence (codes : List (Code C)) : Code C := codes.foldr andThen done

/-- `with lock:` -/
def block (c : C) (codes : List (Code C)) : Code C := locked c (sequence codes) done

def loop (codes : List (Code C)) : Code C := again (sequence codes) done

def joins : Code C := join done

/-- Every lock is above the bound and those around it; joins stand outside. -/
def ordered (rank : C → ℕ) (mayJoin : Bool) (bound : ℕ) : Code C → Bool
  | done => true
  | locked c body next => decide (bound ≤ rank c) && body.ordered rank false (rank c + 1) &&
      next.ordered rank mayJoin bound
  | again body next => body.ordered rank mayJoin bound && next.ordered rank mayJoin bound
  | join next => mayJoin && next.ordered rank mayJoin bound

end Code

inductive Frame (C : Type*)
  | run (code : Code C)
  | acquire (lock : C × ℕ) (body : Code C)
  | release (lock : C × ℕ)
  | joining (i : ℕ)

/-- A thread with what it still has to do; only background threads are joined. -/
structure Thread (C : Type*) where
  background : Bool
  stack : List (Frame C)

/-- The threads, also those that have ended. -/
abbrev System (C : Type*) := List (Thread C)

/-- What a thread does at the next block, loop or join. -/
inductive Choice
  | enter (n : ℕ)
  | pass

inductive Action (C : Type*)
  | spawn (background : Bool) (code : Code C)
  | turn (i : ℕ) (choice : Choice)

variable {C : Type*}

namespace System

def At (sys : System C) (i : ℕ) (t : Thread C) : Prop := sys[i]? = some t

def joinable (sys : System C) (i : ℕ) : Bool :=
  match sys[i]? with
  | some t => t.background
  | none => false

def ended (sys : System C) (i : ℕ) : Bool :=
  match sys[i]? with
  | some t => t.stack.isEmpty
  | none => true

/-- What a piece of code becomes in front of the rest. -/
def resume (sys : System C) (rest : List (Frame C)) : Code C → Choice → List (Frame C)
  | .done, _ => rest
  | .locked c body next, .enter n => .acquire (c, n) body :: .run next :: rest
  | .again body next, .enter _ => .run body :: .run (.again body next) :: rest
  | .join next, .enter i => if sys.joinable i then .joining i :: .run next :: rest
      else .run next :: rest
  | .locked _ _ next, .pass | .again _ next, .pass | .join next, .pass => .run next :: rest

end System

section Order

variable (rank : C → ℕ)

/-- Above the ranks of all locks that are held. -/
def floor : List (Frame C) → ℕ
  | [] => 0
  | .release lock :: rest => max (rank lock.1 + 1) (floor rest)
  | .run _ :: rest | .acquire _ _ :: rest | .joining _ :: rest => floor rest

/-- What is left to do keeps to the order. -/
def Tidy (mayJoin : Bool) : List (Frame C) → Prop
  | [] => True
  | .run code :: rest =>
    code.ordered rank (mayJoin && decide (floor rank rest = 0)) (floor rank rest) = true ∧
      Tidy mayJoin rest
  | .acquire lock body :: rest => floor rank rest ≤ rank lock.1 ∧
      body.ordered rank false (rank lock.1 + 1) = true ∧ Tidy mayJoin rest
  | .release lock :: rest => floor rank rest ≤ rank lock.1 ∧ Tidy mayJoin rest
  | .joining _ :: rest => mayJoin = true ∧ floor rank rest = 0 ∧ Tidy mayJoin rest

variable {rank}

theorem lt_floor {lock : C × ℕ} {stack : List (Frame C)} (h : .release lock ∈ stack) :
    rank lock.1 < floor rank stack := by
  induction stack with
  | nil => cases h
  | cons frame rest ih =>
    rcases List.mem_cons.mp h with hhead | hrest
    · rw [← hhead, floor]
      omega
    · have hlt := ih hrest
      cases frame <;> simp only [floor] <;> omega

theorem Tidy.tail {mayJoin : Bool} {frame : Frame C} {rest : List (Frame C)}
    (h : Tidy rank mayJoin (frame :: rest)) : Tidy rank mayJoin rest := by
  cases frame with
  | run code => exact h.2
  | acquire lock body => exact h.2.2
  | release lock => exact h.2
  | joining i => exact h.2.2

theorem Tidy.resume {mayJoin : Bool} {code : Code C} {rest : List (Frame C)}
    (h : Tidy rank mayJoin (.run code :: rest)) (sys : System C) (choice : Choice) :
    Tidy rank mayJoin (sys.resume rest code choice) := by
  obtain ⟨hcode, hrest⟩ := h
  cases code with
  | done => exact hrest
  | locked c body next =>
    simp only [Code.ordered, Bool.and_eq_true, decide_eq_true_eq] at hcode
    obtain ⟨⟨hbound, hbody⟩, hnext⟩ := hcode
    cases choice with
    | enter n => exact ⟨hbound, hbody, hnext, hrest⟩
    | pass => exact ⟨hnext, hrest⟩
  | again body next =>
    have hboth := hcode
    simp only [Code.ordered, Bool.and_eq_true] at hcode
    cases choice with
    | enter n => exact ⟨hcode.1, hboth, hrest⟩
    | pass => exact ⟨hcode.2, hrest⟩
  | join next =>
    have hnext := hcode
    simp only [Code.ordered, Bool.and_eq_true, decide_eq_true_eq] at hnext
    cases choice with
    | enter i =>
      rw [System.resume]
      split
      · exact ⟨hnext.1.1, hnext.1.2, hnext.2, hrest⟩
      · exact ⟨hnext.2, hrest⟩
    | pass => exact ⟨hnext.2, hrest⟩

end Order

section Steps

variable [DecidableEq C]

def Frame.releases (lock : C × ℕ) : Frame C → Bool
  | .release l => l = lock
  | _ => false

def Thread.holds (t : Thread C) (lock : C × ℕ) : Bool := t.stack.any (Frame.releases lock)

namespace System

def free (sys : System C) (lock : C × ℕ) : Bool := !sys.any fun t => t.holds lock

/-- A thread that waits stays where it is. -/
def move (sys : System C) (choice : Choice) : List (Frame C) → List (Frame C)
  | [] => []
  | .run code :: rest => sys.resume rest code choice
  | .acquire lock body :: rest => if sys.free lock then .run body :: .release lock :: rest
      else .acquire lock body :: rest
  | .release _ :: rest => rest
  | .joining i :: rest => if sys.ended i then rest else .joining i :: rest

def step (sys : System C) : Action C → System C
  | .spawn background code => sys ++ [⟨background, [.run code]⟩]
  | .turn i choice =>
    match sys[i]? with
    | none => sys
    | some t => sys.set i { t with stack := sys.move choice t.stack }

/-- The first thread cannot go on before the second has. -/
def WaitsFor (sys : System C) (i j : ℕ) : Prop :=
  ∃ t, sys.At i t ∧
    ((∃ lock body rest u, t.stack = .acquire lock body :: rest ∧ sys.At j u ∧
        u.holds lock = true) ∨
      ∃ rest, t.stack = .joining j :: rest ∧ sys.ended j = false)

def Waits (sys : System C) (i : ℕ) : Prop := ∃ j, sys.WaitsFor i j

end System

theorem Thread.holds_iff {t : Thread C} {lock : C × ℕ} :
    t.holds lock = true ↔ .release lock ∈ t.stack := by
  unfold Thread.holds
  rw [List.any_eq_true]
  constructor
  · rintro ⟨frame, hmem, hreleases⟩
    cases frame with
    | release l =>
      obtain rfl : l = lock := of_decide_eq_true hreleases
      exact hmem
    | _ => cases hreleases
  · intro hmem
    exact ⟨_, hmem, decide_eq_true rfl⟩

theorem System.free_iff {sys : System C} {lock : C × ℕ} :
    sys.free lock = true ↔ ∀ i t, sys.At i t → t.holds lock = false := by
  unfold System.free
  rw [Bool.not_eq_true', List.any_eq_false]
  constructor
  · intro h i t ht
    exact Bool.eq_false_iff.mpr (h t (List.mem_of_getElem? ht))
  · intro h t ht
    obtain ⟨i, hi⟩ := List.mem_iff_getElem?.mp ht
    exact Bool.eq_false_iff.mp (h i t hi)

variable {rank : C → ℕ}

theorem Tidy.move {mayJoin : Bool} {stack : List (Frame C)} (h : Tidy rank mayJoin stack)
    (sys : System C) (choice : Choice) : Tidy rank mayJoin (sys.move choice stack) := by
  cases stack with
  | nil => trivial
  | cons frame rest =>
    cases frame with
    | run code => exact h.resume sys choice
    | acquire lock body =>
      rw [System.move]
      split
      · obtain ⟨hfloor, hbody, hrest⟩ := h
        have hbound : floor rank (.release lock :: rest) = rank lock.1 + 1 :=
          Nat.max_eq_left (by omega)
        refine ⟨?_, hfloor, hrest⟩
        rw [hbound, decide_eq_false (Nat.succ_ne_zero _), Bool.and_false]
        exact hbody
      · exact h
    | release lock => exact h.tail
    | joining i =>
      rw [System.move]
      split
      · exact h.tail
      · exact h

/-- What a thread holds after a move, it held before or was free. -/
theorem releases_move {sys : System C} {choice : Choice} {stack : List (Frame C)} {lock : C × ℕ}
    (h : .release lock ∈ sys.move choice stack) :
    .release lock ∈ stack ∨ sys.free lock = true := by
  cases stack with
  | nil => cases h
  | cons frame rest =>
    cases frame with
    | run code =>
      refine .inl (List.mem_cons_of_mem _ ?_)
      cases code <;> cases choice <;> simp only [System.move, System.resume] at h
      case join.enter => split at h <;> simpa using h
      all_goals simpa using h
    | acquire l body =>
      rw [System.move] at h
      split at h
      · rename_i hfree
        rcases List.mem_cons.mp h with hrun | h
        · cases hrun
        · rcases List.mem_cons.mp h with hlock | hrest
          · cases hlock
            exact .inr hfree
          · exact .inl (List.mem_cons_of_mem _ hrest)
      · exact .inl h
    | release l => exact .inl (List.mem_cons_of_mem _ h)
    | joining i =>
      rw [System.move] at h
      split at h
      · exact .inl (List.mem_cons_of_mem _ h)
      · exact .inl h

/-- A join that a thread is at was there before, or is of a background thread. -/
theorem joining_move {sys : System C} {choice : Choice} {stack : List (Frame C)} {i : ℕ}
    (h : .joining i ∈ sys.move choice stack) :
    .joining i ∈ stack ∨ sys.joinable i = true := by
  cases stack with
  | nil => cases h
  | cons frame rest =>
    cases frame with
    | run code =>
      cases code <;> cases choice <;> simp only [System.move, System.resume] at h
      case join.enter n =>
        split at h
        · rename_i hjoinable
          rcases List.mem_cons.mp h with hjoining | h
          · cases hjoining
            exact .inr hjoinable
          · exact .inl (by simpa using h)
        · exact .inl (by simpa using h)
      all_goals exact .inl (by simpa using h)
    | acquire l body =>
      rw [System.move] at h
      split at h
      · exact .inl (by simpa using h)
      · exact .inl h
    | release l => exact .inl (List.mem_cons_of_mem _ h)
    | joining j =>
      rw [System.move] at h
      split at h
      · exact .inl (List.mem_cons_of_mem _ h)
      · exact .inl h

/-- Every thread keeps to the order, joins are of background threads, and a lock is
in the hands of one thread. -/
structure Safe (rank : C → ℕ) (sys : System C) : Prop where
  tidy : ∀ i t, sys.At i t → Tidy rank (!t.background) t.stack
  joining : ∀ i t j, sys.At i t → .joining j ∈ t.stack → sys.joinable j = true
  exclusive : ∀ i j t u lock, sys.At i t → sys.At j u → t.holds lock = true →
    u.holds lock = true → i = j

theorem safe_empty : Safe rank ([] : System C) where
  tidy := by simp [System.At]
  joining := by simp [System.At]
  exclusive := by simp [System.At]

theorem Safe.spawn {sys : System C} (h : Safe rank sys) {background : Bool} {code : Code C}
    (hcode : code.ordered rank (!background) 0 = true) :
    Safe rank (sys.step (.spawn background code)) := by
  have hat : ∀ i t, (sys.step (.spawn background code)).At i t →
      sys.At i t ∨ t = ⟨background, [.run code]⟩ := by
    intro i t ht
    rcases Nat.lt_or_ge i sys.length with hi | hi
    · exact .inl ((List.getElem?_append_left hi).symm.trans ht)
    · right
      have hlast : [(⟨background, [.run code]⟩ : Thread C)][i - sys.length]? = some t :=
        (List.getElem?_append_right hi).symm.trans ht
      exact List.mem_singleton.mp (List.mem_of_getElem? hlast)
  have hkept : ∀ j, sys.joinable j = true →
      (sys.step (.spawn background code)).joinable j = true := by
    intro j hj
    have hlt : j < sys.length := by
      by_contra hge
      rw [System.joinable, List.getElem?_eq_none (by omega)] at hj
      cases hj
    rw [System.joinable, System.step, List.getElem?_append_left hlt]
    exact hj
  have hnone : ∀ lock, (⟨background, [.run code]⟩ : Thread C).holds lock = false := fun _ => rfl
  constructor
  · intro i t ht
    rcases hat i t ht with ht | rfl
    · exact h.tidy i t ht
    · refine ⟨?_, trivial⟩
      simpa [floor] using hcode
  · intro i t j ht hj
    rcases hat i t ht with ht | rfl
    · exact hkept j (h.joining i t j ht hj)
    · simp at hj
  · intro i j t u lock ht hu hlock hlock'
    rcases hat i t ht with ht | rfl
    · rcases hat j u hu with hu | rfl
      · exact h.exclusive i j t u lock ht hu hlock hlock'
      · rw [hnone] at hlock'
        cases hlock'
    · rw [hnone] at hlock
      cases hlock

omit [DecidableEq C] in
theorem at_set {sys : System C} {i j : ℕ} {t u : Thread C} (h : System.At (sys.set i t) j u) :
    j = i ∧ u = t ∨ j ≠ i ∧ sys.At j u := by
  unfold System.At at h
  rw [List.getElem?_set] at h
  split at h
  · rename_i hij
    split at h
    · exact .inl ⟨hij.symm, (Option.some.inj h).symm⟩
    · cases h
  · rename_i hij
    exact .inr ⟨Ne.symm hij, h⟩

theorem Safe.turn {sys : System C} (h : Safe rank sys) (i : ℕ) (choice : Choice) :
    Safe rank (sys.step (.turn i choice)) := by
  rw [System.step]
  cases hat : sys[i]? with
  | none => exact h
  | some t =>
    let t' : Thread C := { t with stack := sys.move choice t.stack }
    change Safe rank (sys.set i t')
    have hlt : i < sys.length := (List.getElem?_eq_some_iff.mp hat).1
    have hjoinable : ∀ j, System.joinable (sys.set i t') j = sys.joinable j := by
      intro j
      unfold System.joinable
      rw [List.getElem?_set]
      by_cases hij : i = j
      · subst hij
        rw [if_pos rfl, if_pos hlt, hat]
      · rw [if_neg hij]
    have hbefore : ∀ j u lock, System.At (sys.set i t') j u → u.holds lock = true →
        (∃ w, sys.At j w ∧ w.holds lock = true) ∨ j = i ∧ sys.free lock = true := by
      intro j u lock hu hlock
      rcases at_set hu with ⟨rfl, rfl⟩ | ⟨-, hu⟩
      · rcases releases_move (Thread.holds_iff.mp hlock) with hheld | hfree
        · exact .inl ⟨t, hat, Thread.holds_iff.mpr hheld⟩
        · exact .inr ⟨rfl, hfree⟩
      · exact .inl ⟨u, hu, hlock⟩
    constructor
    · intro j u hu
      rcases at_set hu with ⟨rfl, rfl⟩ | ⟨-, hu⟩
      · exact (h.tidy _ t hat).move sys choice
      · exact h.tidy j u hu
    · intro j u k hu hk
      rw [hjoinable]
      rcases at_set hu with ⟨rfl, rfl⟩ | ⟨-, hu⟩
      · rcases joining_move hk with hk | hk
        · exact h.joining _ t k hat hk
        · exact hk
      · exact h.joining j u k hu hk
    · intro j k u v lock hu hv hlock hlock'
      rcases hbefore j u lock hu hlock with ⟨w, hw, hheld⟩ | ⟨rfl, hfree⟩ <;>
        rcases hbefore k v lock hv hlock' with ⟨w', hw', hheld'⟩ | ⟨rfl, hfree'⟩
      · exact h.exclusive j k w w' lock hw hw' hheld hheld'
      · rw [System.free_iff.mp hfree' j w hw] at hheld
        cases hheld
      · rw [System.free_iff.mp hfree k w' hw'] at hheld'
        cases hheld'
      · rfl

/-- The bound on a waiting thread: above the lock it waits for. -/
def waitRank (rank : C → ℕ) (sys : System C) (i : ℕ) : ℕ :=
  match sys[i]? with
  | some ⟨_, .acquire lock _ :: _⟩ => rank lock.1 + 1
  | _ => 0

omit [DecidableEq C] in
theorem waitRank_acquire {sys : System C} {i : ℕ} {t : Thread C} {lock : C × ℕ} {body : Code C}
    {rest : List (Frame C)} (ht : sys.At i t) (hstack : t.stack = .acquire lock body :: rest) :
    waitRank rank sys i = rank lock.1 + 1 := by
  obtain ⟨background, stack⟩ := t
  cases hstack
  unfold waitRank
  rw [show sys[i]? = _ from ht]

omit [DecidableEq C] in
theorem waitRank_joining {sys : System C} {i j : ℕ} {t : Thread C} {rest : List (Frame C)}
    (ht : sys.At i t) (hstack : t.stack = .joining j :: rest) : waitRank rank sys i = 0 := by
  obtain ⟨background, stack⟩ := t
  cases hstack
  unfold waitRank
  rw [show sys[i]? = _ from ht]

/-- Along the waiting the ranks grow: a thread that holds a lock waits for none below
it and joins no one, and a thread that is joined joins no one either. -/
theorem Safe.waitRank_lt {sys : System C} (h : Safe rank sys) {i j : ℕ}
    (hwaits : sys.WaitsFor i j) (hj : sys.Waits j) : waitRank rank sys i < waitRank rank sys j := by
  obtain ⟨k, u, hu, hu'⟩ := hj
  have htidy := h.tidy j u hu
  obtain ⟨t, ht, ⟨lock, body, rest, v, hstack, hv, hheld⟩ | ⟨rest, hstack, hended⟩⟩ := hwaits
  · cases hu.symm.trans hv
    have hfloor : rank lock.1 < floor rank u.stack := lt_floor (Thread.holds_iff.mp hheld)
    rw [waitRank_acquire ht hstack]
    rcases hu' with ⟨lock', body', rest', -, hstack', -, -⟩ | ⟨rest', hstack', -⟩
    · rw [waitRank_acquire hu hstack']
      rw [hstack'] at htidy hfloor
      have habove := htidy.1
      rw [floor] at hfloor
      omega
    · rw [hstack'] at htidy hfloor
      have hnone := htidy.2.1
      rw [floor] at hfloor
      omega
  · rw [waitRank_joining ht hstack]
    rcases hu' with ⟨lock', body', rest', -, hstack', -, -⟩ | ⟨rest', hstack', -⟩
    · rw [waitRank_acquire hu hstack']
      omega
    · have hbackground := h.joining i t j ht (hstack ▸ List.mem_cons_self)
      unfold System.joinable at hbackground
      rw [show sys[j]? = some u from hu] at hbackground
      rw [hstack'] at htidy
      have hforeground := htidy.1
      rw [show u.background = true from hbackground] at hforeground
      cases hforeground

theorem Safe.waitRank_lt_of_chain {sys : System C} (h : Safe rank sys) {i j : ℕ}
    (hchain : Relation.TransGen sys.WaitsFor i j) (hj : sys.Waits j) :
    waitRank rank sys i < waitRank rank sys j := by
  induction hchain with
  | single hwaits => exact h.waitRank_lt hwaits hj
  | tail _ hwaits ih => exact Nat.lt_trans (ih ⟨_, hwaits⟩) (h.waitRank_lt hwaits hj)

/-- No thread waits for itself. -/
theorem Safe.no_circle {sys : System C} (h : Safe rank sys) (i : ℕ) :
    ¬ Relation.TransGen sys.WaitsFor i i := by
  intro hchain
  obtain ⟨j, hwaits, -⟩ := Relation.TransGen.head'_iff.mp hchain
  exact Nat.lt_irrefl _ (h.waitRank_lt_of_chain hchain ⟨j, hwaits⟩)

omit [DecidableEq C] in
theorem waitRank_bounded (rank : C → ℕ) (sys : System C) :
    ∃ bound, ∀ i, waitRank rank sys i ≤ bound := by
  induction sys with
  | nil => exact ⟨0, fun i => by simp [waitRank]⟩
  | cons t rest ih =>
    obtain ⟨bound, hbound⟩ := ih
    refine ⟨max bound (waitRank rank (t :: rest) 0), fun i => ?_⟩
    cases i with
    | zero => exact Nat.le_max_right _ _
    | succ i => exact Nat.le_trans (hbound i) (Nat.le_max_left _ _)

/-- The thread that is waited for has not ended. -/
theorem ended_of_waitsFor {sys : System C} {i j : ℕ} (h : sys.WaitsFor i j) :
    sys.ended j = false := by
  obtain ⟨t, ht, ⟨lock, body, rest, u, -, hu, hheld⟩ | ⟨rest, -, hended⟩⟩ := h
  · have hmem := Thread.holds_iff.mp hheld
    unfold System.ended
    rw [show sys[j]? = some u from hu]
    change u.stack.isEmpty = false
    cases hstack : u.stack with
    | nil =>
      rw [hstack] at hmem
      cases hmem
    | cons frame rest => rfl
  · exact hended

/-- A thread that waits does so, through others, for one that does not. -/
theorem Safe.ends_unblocked {sys : System C} (h : Safe rank sys) {i : ℕ} (hi : sys.Waits i) :
    ∃ j, Relation.TransGen sys.WaitsFor i j ∧ ¬ sys.Waits j ∧ sys.ended j = false := by
  obtain ⟨bound, hbound⟩ := waitRank_bounded rank sys
  induction hgap : bound - waitRank rank sys i using Nat.strongRecOn generalizing i with
  | ind gap ih =>
    obtain ⟨j, hwaits⟩ := hi
    by_cases hj : sys.Waits j
    · have hlt := h.waitRank_lt hwaits hj
      have hle := hbound j
      obtain ⟨k, hchain, hk⟩ := ih (bound - waitRank rank sys j) (by omega) hj rfl
      exact ⟨k, .head hwaits hchain, hk⟩
    · exact ⟨j, .single hwaits, hj, ended_of_waitsFor hwaits⟩

omit [DecidableEq C] in
theorem resume_ne (sys : System C) (code : Code C) (rest : List (Frame C)) :
    ∃ choice, sys.resume rest code choice ≠ .run code :: rest := by
  cases code with
  | done => exact ⟨.pass, List.ne_cons_self⟩
  | locked c body next => exact ⟨.enter 0, by simp [System.resume]⟩
  | again body next => exact ⟨.enter 0, by simp [System.resume]⟩
  | join next =>
    refine ⟨.pass, fun h => ?_⟩
    have hsize := congrArg sizeOf (Frame.run.inj (List.cons.inj h).1)
    simp at hsize

theorem move_ne {sys : System C} {i : ℕ} {t : Thread C} (ht : sys.At i t)
    (hfree : ¬ sys.Waits i) (hstack : t.stack ≠ []) :
    ∃ choice, sys.move choice t.stack ≠ t.stack := by
  obtain ⟨background, stack⟩ := t
  cases stack with
  | nil => exact absurd rfl hstack
  | cons frame rest =>
    cases frame with
    | run code => exact resume_ne sys code rest
    | acquire lock body =>
      have hlock : sys.free lock = true := by
        refine System.free_iff.mpr fun j u hu => ?_
        by_contra hheld
        exact hfree ⟨j, _, ht, .inl ⟨lock, body, rest, u, rfl, hu, by simpa using hheld⟩⟩
      refine ⟨.pass, ?_⟩
      change sys.move .pass (.acquire lock body :: rest) ≠ _
      rw [System.move, if_pos hlock]
      simp
    | release lock => exact ⟨.pass, List.ne_cons_self⟩
    | joining j =>
      have hended : sys.ended j = true := by
        by_contra hnot
        exact hfree ⟨j, _, ht, .inr ⟨rest, rfl, by simpa using hnot⟩⟩
      refine ⟨.pass, ?_⟩
      change sys.move .pass (.joining j :: rest) ≠ _
      rw [System.move, if_pos hended]
      exact List.ne_cons_self

/-- A thread that has not ended and does not wait can go on. -/
theorem step_ne {sys : System C} {i : ℕ} (hfree : ¬ sys.Waits i) (hended : sys.ended i = false) :
    ∃ choice, sys.step (.turn i choice) ≠ sys := by
  unfold System.ended at hended
  cases hat : sys[i]? with
  | none =>
    rw [hat] at hended
    cases hended
  | some t =>
    rw [hat] at hended
    obtain ⟨choice, hne⟩ := move_ne hat hfree (by simpa using hended)
    refine ⟨choice, fun h => hne ?_⟩
    rw [System.step, hat] at h
    have hlt : i < sys.length := (List.getElem?_eq_some_iff.mp hat).1
    have hsame := congrArg (fun s : System C => s[i]?) h
    rw [List.getElem?_set_self hlt, hat] at hsame
    exact congrArg Thread.stack (Option.some.inj hsame)

/-- No circles, and behind every thread that waits there is one that can go on. -/
structure DeadlockFree (sys : System C) : Prop where
  exclusive : ∀ i j t u lock, sys.At i t → sys.At j u → t.holds lock = true →
    u.holds lock = true → i = j
  acyclic : ∀ i, ¬ Relation.TransGen sys.WaitsFor i i
  progress : ∀ i, sys.Waits i → ∃ j, Relation.TransGen sys.WaitsFor i j ∧
    ∃ choice, sys.step (.turn j choice) ≠ sys

theorem Safe.deadlockFree {sys : System C} (h : Safe rank sys) : DeadlockFree sys where
  exclusive := h.exclusive
  acyclic := h.no_circle
  progress i hi := by
    obtain ⟨j, hchain, hfree, hended⟩ := h.ends_unblocked hi
    exact ⟨j, hchain, step_ne hfree hended⟩

/-- Threads are started with ordered code only. -/
def Action.Ordered (rank : C → ℕ) : Action C → Prop
  | .spawn background code => code.ordered rank (!background) 0 = true
  | .turn _ _ => True

theorem safe_run {actions : List (Action C)} (h : ∀ a ∈ actions, a.Ordered rank) :
    Safe rank (actions.foldl System.step []) := by
  refine List.foldlRecOn (motive := Safe rank) actions System.step safe_empty ?_
  intro sys hsys a ha
  cases a with
  | spawn background code => exact hsys.spawn (h _ ha)
  | turn i choice => exact hsys.turn i choice

end Steps

end Locking
