import Mathlib
import MollisRuntime.Library.Dialogue

/-!
Calls in threads of their own. A plan acts and asks as a program does, and may start
another plan in a new thread and wait for its answer until it gives up. The other
thread is then not stopped: it runs on, and what it answers goes nowhere.
-/
namespace Dialogue

/-- A call is asked first and returns later; what else happens may come in between. -/
inductive Plan (σ τ Q A : Type) : Type 1
  | done (answer : A)
  | act (update : σ → σ) (proceed : σ → Plan σ τ Q A)
  | look {R : Type} (read : τ → τ × R) (proceed : R → Plan σ τ Q A)
  | ask (question : Q) (proceed : A → Plan σ τ Q A)
  | calling (question : Q) (proceed : A → Plan σ τ Q A)
  | fork (inner : Plan σ τ Q A) (warn : τ → τ) (late : A) (proceed : A → Plan σ τ Q A)

variable {σ τ Q A : Type}

namespace Plan

def record (write : τ → τ) (plan : Plan σ τ Q A) : Plan σ τ Q A :=
  .look (fun observed => (write observed, ())) fun _ => plan

def bind : Plan σ τ Q A → (A → Plan σ τ Q A) → Plan σ τ Q A
  | .done answer, f => f answer
  | .act update proceed, f => .act update fun state => (proceed state).bind f
  | .look read proceed, f => .look read fun reading => (proceed reading).bind f
  | .ask question proceed, f => .ask question fun answer => (proceed answer).bind f
  | .calling question proceed, f => .calling question fun answer => (proceed answer).bind f
  | .fork inner warn late proceed, f => .fork inner warn late fun answer => (proceed answer).bind f

/-- The plan in one thread, with every answer awaited. -/
def run (call : Q → σ → σ × A) : Plan σ τ Q A → World σ τ Q → World σ τ Q × A
  | .done answer, w => (w, answer)
  | .act update proceed, w => (proceed w.state).run call { w with state := update w.state }
  | .look read proceed, w =>
    (proceed (read w.observed).2).run call (w.observe fun observed => (read observed).1)
  | .ask question proceed, w =>
    let answered := target call question w
    (proceed answered.2).run call answered.1
  | .calling question proceed, w =>
    let called := call question w.state
    (proceed called.2).run call { w with state := called.1 }
  | .fork inner _ _ proceed, w =>
    let answered := inner.run call w
    (proceed answered.2).run call answered.1

theorem run_bind (call : Q → σ → σ × A) (plan : Plan σ τ Q A) (f : A → Plan σ τ Q A) :
    ∀ w, (plan.bind f).run call w = (f (plan.run call w).2).run call (plan.run call w).1 := by
  induction plan with
  | done answer => exact fun w => rfl
  | act update proceed ih => exact fun w => ih w.state _
  | look read proceed ih => exact fun w => ih _ _
  | ask question proceed ih => exact fun w => ih _ _
  | calling question proceed ih => exact fun w => ih _ _
  | fork inner warn late proceed _ ih => exact fun w => ih _ _

/-- The most calls that the plan and the threads it starts can make. -/
noncomputable def cost : Plan σ τ Q A → ℕ∞
  | .done _ => 0
  | .act _ proceed => ⨆ state, (proceed state).cost
  | .look _ proceed => ⨆ reading, (proceed reading).cost
  | .ask _ proceed => (⨆ answer, (proceed answer).cost) + 1
  | .calling _ proceed => ⨆ answer, (proceed answer).cost
  | .fork inner _ _ proceed => inner.cost + ⨆ answer, (proceed answer).cost

theorem cost_bind_le {plan : Plan σ τ Q A} {f : A → Plan σ τ Q A} {bound : ℕ∞}
    (h : ∀ answer, (f answer).cost ≤ bound) : (plan.bind f).cost ≤ plan.cost + bound := by
  have hsup {ι : Type} {within costs : ι → ℕ∞} (hle : ∀ i, within i ≤ costs i + bound) :
      ⨆ i, within i ≤ (⨆ i, costs i) + bound :=
    iSup_le fun i => (hle i).trans (add_le_add_left (le_iSup costs i) bound)
  induction plan with
  | done answer => exact (h answer).trans (zero_add bound).ge
  | act update proceed ih => exact hsup ih
  | look read proceed ih => exact hsup ih
  | ask question proceed ih =>
    rw [bind, cost, cost, add_right_comm]
    exact add_le_add_left (hsup ih) 1
  | calling question proceed ih => exact hsup ih
  | fork inner warn late proceed _ ih =>
    rw [bind, cost, cost, add_assoc]
    exact add_le_add_right (hsup ih) inner.cost

theorem cost_record (write : τ → τ) (plan : Plan σ τ Q A) :
    (record write plan).cost = plan.cost := by
  rw [record, cost, iSup_unique]

/-- What the thread that runs the plan does next, if it starts no other one. -/
def move (call : Q → σ → σ × A) : Plan σ τ Q A → World σ τ Q → World σ τ Q × Plan σ τ Q A
  | .done answer, w => (w, .done answer)
  | .act update proceed, w => ({ w with state := update w.state }, proceed w.state)
  | .look read proceed, w =>
    (w.observe fun observed => (read observed).1, proceed (read w.observed).2)
  | .ask question proceed, w =>
    ({ w with asked := w.asked ++ [question] }, .calling question proceed)
  | .calling question proceed, w =>
    let called := call question w.state
    ({ w with state := called.1 }, proceed called.2)
  | .fork inner warn late proceed, w => (w, .fork inner warn late proceed)

theorem run_move (call : Q → σ → σ × A) (plan : Plan σ τ Q A) (w : World σ τ Q) :
    (plan.move call w).2.run call (plan.move call w).1 = plan.run call w := by
  cases plan <;> rfl

theorem cost_move (call : Q → σ → σ × A) (plan : Plan σ τ Q A) (w : World σ τ Q) :
    ((plan.move call w).1.asked.length : ℕ∞) + (plan.move call w).2.cost ≤
      w.asked.length + plan.cost := by
  cases plan with
  | done answer => exact le_rfl
  | act update proceed => exact add_le_add_right (le_iSup (fun s => (proceed s).cost) w.state) _
  | look read proceed => exact add_le_add_right (le_iSup (fun r => (proceed r).cost) _) _
  | ask question proceed =>
    change ((w.asked ++ [question]).length : ℕ∞) + ⨆ answer, (proceed answer).cost ≤
      w.asked.length + ((⨆ answer, (proceed answer).cost) + 1)
    rw [List.length_append, List.length_singleton, Nat.cast_add, Nat.cast_one, add_assoc,
      add_comm 1]
  | calling question proceed =>
    exact add_le_add_right (le_iSup (fun a => (proceed a).cost) (call question w.state).2) _
  | fork inner warn late proceed => exact le_rfl

end Plan

/-- The questions of a program are put to the next layer. -/
def Program.graft (next : Q → Plan σ τ Q A) : Program σ τ Q A → Plan σ τ Q A
  | .done answer => .done answer
  | .act update proceed => .act update fun state => (proceed state).graft next
  | .record write proceed => .record write (proceed.graft next)
  | .ask question proceed => (next question).bind fun answer => (proceed answer).graft next

theorem Program.run_graft (call : Q → σ → σ × A) (next : Q → Plan σ τ Q A)
    (program : Program σ τ Q A) :
    ∀ w, (program.graft next).run call w =
      program.run (fun question => (next question).run call) w := by
  induction program with
  | done answer => exact fun w => rfl
  | act update proceed ih => exact fun w => ih w.state _
  | record write proceed ih => exact fun w => ih _
  | ask question proceed ih =>
    intro w
    rw [graft, Plan.run_bind]
    exact ih _ _

section Threads

/-- A thread has its plan before it, or waits for another one. -/
inductive Strand (σ τ Q A : Type) : Type 1
  | running (plan : Plan σ τ Q A)
  | waiting (child : ℕ) (warn : τ → τ) (late : A) (proceed : A → Plan σ τ Q A)

/-- What a thread may still ask, with the threads that it starts. -/
noncomputable def Strand.cost : Strand σ τ Q A → ℕ∞
  | .running plan => plan.cost
  | .waiting _ _ _ proceed => ⨆ answer, (proceed answer).cost

/-- The threads in the order of their starts; the first one is the caller's. -/
structure Pool (σ τ Q A : Type) : Type 1 where
  world : World σ τ Q
  strands : List (Strand σ τ Q A)
  givenUp : ℕ := 0

inductive Move (σ : Type)
  | turn (i : ℕ)
  | giveUp (i : ℕ)
  | meanwhile (update : σ → σ)

namespace Pool

def start (plan : Plan σ τ Q A) (w : World σ τ Q) : Pool σ τ Q A :=
  { world := w, strands := [.running plan] }

def answer? (pool : Pool σ τ Q A) (i : ℕ) : Option A :=
  match pool.strands[i]? with
  | some (.running (.done answer)) => some answer
  | _ => none

/-- The thread runs, or the answer that it waits for is there. -/
def ready (pool : Pool σ τ Q A) (i : ℕ) : Bool :=
  match pool.strands[i]? with
  | some (.running (.done _)) => false
  | some (.running _) => true
  | some (.waiting child _ _ _) => (pool.answer? child).isSome
  | none => false

/-- Thread `i` goes on with the plan in this world. -/
def goOn (pool : Pool σ τ Q A) (i : ℕ) (w : World σ τ Q) (plan : Plan σ τ Q A) : Pool σ τ Q A :=
  { pool with world := w, strands := pool.strands.set i (.running plan) }

/-- Thread `i` waits for a new one. -/
def fork (pool : Pool σ τ Q A) (i : ℕ) (inner : Plan σ τ Q A) (warn : τ → τ) (late : A)
    (proceed : A → Plan σ τ Q A) : Pool σ τ Q A :=
  { pool with strands :=
      pool.strands.set i (.waiting pool.strands.length warn late proceed) ++ [.running inner] }

/-- The wait for a thread that has ended is not given up. -/
def step (call : Q → σ → σ × A) (pool : Pool σ τ Q A) : Move σ → Pool σ τ Q A
  | .turn i =>
    match pool.strands[i]? with
    | none | some (.running (.done _)) => pool
    | some (.running (.fork inner warn late proceed)) => pool.fork i inner warn late proceed
    | some (.running plan) =>
      pool.goOn i (plan.move call pool.world).1 (plan.move call pool.world).2
    | some (.waiting child _ _ proceed) =>
      match pool.answer? child with
      | none => pool
      | some answer => pool.goOn i pool.world (proceed answer)
  | .giveUp i =>
    match pool.strands[i]? with
    | some (.waiting child warn late proceed) =>
      match pool.answer? child with
      | some _ => pool
      | none =>
        { pool.goOn i (pool.world.observe warn) (proceed late) with givenUp := pool.givenUp + 1 }
    | _ => pool
  | .meanwhile update => { pool with world := { pool.world with state := update pool.world.state } }

variable {call : Q → σ → σ × A} {pool : Pool σ τ Q A}

/-- All that a step can do. -/
inductive Change (call : Q → σ → σ × A) (pool : Pool σ τ Q A) : Move σ → Pool σ τ Q A → Prop
  | still (move : Move σ) : Change call pool move pool
  | goes {i : ℕ} {plan : Plan σ τ Q A} (hat : pool.strands[i]? = some (.running plan))
      (hready : pool.ready i = true) : Change call pool (.turn i)
        (pool.goOn i (plan.move call pool.world).1 (plan.move call pool.world).2)
  | forks {i : ℕ} {inner : Plan σ τ Q A} {warn : τ → τ} {late : A} {proceed : A → Plan σ τ Q A}
      (hat : pool.strands[i]? = some (.running (.fork inner warn late proceed))) :
      Change call pool (.turn i) (pool.fork i inner warn late proceed)
  | joins {i child : ℕ} {warn : τ → τ} {late answer : A} {proceed : A → Plan σ τ Q A}
      (hat : pool.strands[i]? = some (.waiting child warn late proceed))
      (hanswer : pool.answer? child = some answer) :
      Change call pool (.turn i) (pool.goOn i pool.world (proceed answer))
  | givesUp {i child : ℕ} {warn : τ → τ} {late : A} {proceed : A → Plan σ τ Q A}
      (hat : pool.strands[i]? = some (.waiting child warn late proceed))
      (hanswer : pool.answer? child = none) : Change call pool (.giveUp i)
        { pool.goOn i (pool.world.observe warn) (proceed late) with givenUp := pool.givenUp + 1 }
  | meanwhile (update : σ → σ) : Change call pool (.meanwhile update)
      { pool with world := { pool.world with state := update pool.world.state } }

theorem ready_running {i : ℕ} {plan : Plan σ τ Q A}
    (hat : pool.strands[i]? = some (.running plan)) (hopen : ∀ answer, plan ≠ .done answer) :
    pool.ready i = true := by
  unfold ready
  rw [hat]
  cases plan with
  | done answer => exact absurd rfl (hopen answer)
  | _ => rfl

theorem step_change (call : Q → σ → σ × A) (pool : Pool σ τ Q A) (move : Move σ) :
    Change call pool move (pool.step call move) := by
  cases move with
  | turn i =>
    cases hat : pool.strands[i]? with
    | none =>
      rw [step, hat]
      exact .still _
    | some strand =>
      cases strand with
      | running plan =>
        have hgoes (hopen : ∀ answer, plan ≠ .done answer) : Change call pool (.turn i)
            (pool.goOn i (plan.move call pool.world).1 (plan.move call pool.world).2) :=
          .goes hat (ready_running hat hopen)
        cases plan with
        | done answer =>
          rw [step, hat]
          exact .still _
        | fork inner warn late proceed =>
          rw [step, hat]
          exact .forks hat
        | _ =>
          rw [step, hat]
          exact hgoes fun answer h => by cases h
      | waiting child warn late proceed =>
        rw [step, hat]
        dsimp only
        cases hanswer : pool.answer? child with
        | none => exact .still _
        | some answer => exact .joins hat hanswer
  | giveUp i =>
    cases hat : pool.strands[i]? with
    | none =>
      rw [step, hat]
      exact .still _
    | some strand =>
      cases strand with
      | running plan =>
        rw [step, hat]
        exact .still _
      | waiting child warn late proceed =>
        rw [step, hat]
        dsimp only
        cases hanswer : pool.answer? child with
        | none => exact .givesUp hat hanswer
        | some answer => exact .still _
  | meanwhile update => exact .meanwhile update

section Budget

/-- The calls that were made and those that may still be. -/
noncomputable def spent (pool : Pool σ τ Q A) : ℕ∞ :=
  pool.world.asked.length + (pool.strands.map Strand.cost).sum

theorem sum_set_le {strands : List (Strand σ τ Q A)} {i : ℕ} {strand strand' : Strand σ τ Q A}
    (hat : strands[i]? = some strand) {before after : ℕ∞}
    (h : after + strand'.cost ≤ before + strand.cost) :
    after + ((strands.set i strand').map Strand.cost).sum ≤
      before + (strands.map Strand.cost).sum := by
  induction strands generalizing i with
  | nil => cases hat
  | cons head rest ih =>
    cases i with
    | zero =>
      obtain rfl : head = strand := Option.some.inj hat
      simp only [List.set_cons_zero, List.map_cons, List.sum_cons, ← add_assoc]
      exact add_le_add_left h _
    | succ i =>
      simp only [List.set_cons_succ, List.map_cons, List.sum_cons, add_left_comm _ head.cost]
      exact add_le_add_right (ih hat) _

theorem spent_goOn_le {i : ℕ} {strand : Strand σ τ Q A} (hat : pool.strands[i]? = some strand)
    {w : World σ τ Q} {plan : Plan σ τ Q A}
    (h : (w.asked.length : ℕ∞) + plan.cost ≤ pool.world.asked.length + strand.cost) :
    (pool.goOn i w plan).spent ≤ pool.spent := sum_set_le hat h

theorem spent_fork_le {i : ℕ} {inner : Plan σ τ Q A} {warn : τ → τ} {late : A}
    {proceed : A → Plan σ τ Q A}
    (hat : pool.strands[i]? = some (.running (.fork inner warn late proceed))) :
    (pool.fork i inner warn late proceed).spent ≤ pool.spent := by
  let waiting : Strand σ τ Q A := .waiting pool.strands.length warn late proceed
  have hset : pool.world.asked.length + inner.cost +
      ((pool.strands.set i waiting).map Strand.cost).sum ≤ pool.spent :=
    sum_set_le hat (by rw [add_assoc]; exact le_rfl)
  calc (pool.fork i inner warn late proceed).spent
      = pool.world.asked.length +
          (((pool.strands.set i waiting).map Strand.cost).sum + inner.cost) := by
        rw [spent, fork, List.map_append, List.sum_append, List.map_singleton,
          List.sum_singleton, Strand.cost]
    _ = pool.world.asked.length + inner.cost +
          ((pool.strands.set i waiting).map Strand.cost).sum := by
        rw [add_comm _ inner.cost, add_assoc]
    _ ≤ pool.spent := hset

/-- No step makes a call that was not accounted for. -/
theorem spent_step (call : Q → σ → σ × A) (pool : Pool σ τ Q A) (move : Move σ) :
    (pool.step call move).spent ≤ pool.spent := by
  have hchange := step_change call pool move
  generalize pool.step call move = pool' at hchange ⊢
  cases hchange with
  | still => exact le_rfl
  | goes hat => exact spent_goOn_le hat (Plan.cost_move call _ _)
  | forks hat => exact spent_fork_le hat
  | @joins i child warn late answer proceed hat =>
    exact spent_goOn_le hat (add_le_add_right (le_iSup (fun a => (proceed a).cost) answer) _)
  | @givesUp i child warn late proceed hat =>
    exact spent_goOn_le (w := pool.world.observe warn) hat
      (add_le_add_right (le_iSup (fun a => (proceed a).cost) late) _)
  | meanwhile => exact le_rfl

end Budget

section Overlap

/-- The thread that thread `i` waits for. -/
def child? (pool : Pool σ τ Q A) (i : ℕ) : Option ℕ :=
  match pool.strands[i]? with
  | some (.waiting child _ _ _) => some child
  | _ => none

/-- Each thread that is waited for was started by the one thread that waits. -/
structure Joined (pool : Pool σ τ Q A) : Prop where
  started : ∀ i child, pool.child? i = some child → child < pool.strands.length
  alone : ∀ i j child, pool.child? i = some child → pool.child? j = some child → i = j

/-- The threads that can go on. -/
def busy (pool : Pool σ τ Q A) : Finset ℕ :=
  (Finset.range pool.strands.length).filter fun i => pool.ready i = true

theorem length_goOn (i : ℕ) (w : World σ τ Q) (plan : Plan σ τ Q A) :
    (pool.goOn i w plan).strands.length = pool.strands.length := List.length_set ..

theorem getElem?_goOn_ne {i j : ℕ} (hne : j ≠ i) (w : World σ τ Q) (plan : Plan σ τ Q A) :
    (pool.goOn i w plan).strands[j]? = pool.strands[j]? := List.getElem?_set_ne hne.symm

theorem answer?_goOn_ne {i j : ℕ} (hne : j ≠ i) (w : World σ τ Q) (plan : Plan σ τ Q A) :
    (pool.goOn i w plan).answer? j = pool.answer? j := by
  unfold answer?
  rw [getElem?_goOn_ne hne]

theorem child?_goOn {i j child : ℕ} {w : World σ τ Q} {plan : Plan σ τ Q A}
    (h : (pool.goOn i w plan).child? j = some child) : pool.child? j = some child := by
  by_cases hij : j = i
  · unfold child? goOn at h
    rw [hij, List.getElem?_set_self'] at h
    cases hat : pool.strands[i]? with
    | none => rw [hat] at h; cases h
    | some strand => rw [hat] at h; cases h
  · unfold child? at h ⊢
    rwa [getElem?_goOn_ne hij] at h

theorem Joined.goOn (h : Joined pool) (i : ℕ) (w : World σ τ Q) (plan : Plan σ τ Q A) :
    Joined (pool.goOn i w plan) where
  started j child hj := by
    rw [length_goOn]
    exact h.started j child (child?_goOn hj)
  alone j k child hj hk := h.alone j k child (child?_goOn hj) (child?_goOn hk)

/-- Of the other threads, at most the one that waits for it can go on as well. -/
theorem ready_goOn {i j : ℕ} {w : World σ τ Q} {plan : Plan σ τ Q A} (hne : j ≠ i)
    (h : (pool.goOn i w plan).ready j = true) :
    pool.ready j = true ∨
      pool.child? j = some i ∧ ((pool.goOn i w plan).answer? i).isSome = true := by
  unfold ready at h ⊢
  rw [getElem?_goOn_ne hne] at h
  split at h
  · cases h
  · exact .inl rfl
  · rename_i child warn late proceed hat
    by_cases hchild : child = i
    · subst hchild
      unfold child?
      rw [hat]
      exact .inr ⟨rfl, h⟩
    · rw [answer?_goOn_ne hchild] at h
      exact .inl h
  · cases h

theorem ready_answer? {i : ℕ} (h : (pool.answer? i).isSome = true) : pool.ready i = false := by
  unfold answer? at h
  split at h
  · rename_i hat
    unfold ready
    rw [hat]
  · cases h

theorem mem_busy {i : ℕ} : i ∈ pool.busy ↔ pool.ready i = true := by
  rw [busy, Finset.mem_filter, Finset.mem_range, and_iff_right_iff_imp]
  intro h
  unfold ready at h
  by_contra hle
  rw [List.getElem?_eq_none (not_lt.mp hle)] at h
  cases h

/-- In the place of a thread that has gone on, at most one can go on. -/
theorem Joined.exists_busy_goOn (h : Joined pool) (i : ℕ) (w : World σ τ Q)
    (plan : Plan σ τ Q A) : ∃ x, (pool.goOn i w plan).busy ⊆ insert x (pool.busy.erase i) := by
  suffices hx : ∃ x, ∀ j, (pool.goOn i w plan).ready j = true →
      j = x ∨ j ≠ i ∧ pool.ready j = true by
    obtain ⟨x, hx⟩ := hx
    refine ⟨x, fun j hj => ?_⟩
    rw [Finset.mem_insert, Finset.mem_erase, mem_busy]
    exact hx j (mem_busy.mp hj)
  by_cases hended : ((pool.goOn i w plan).answer? i).isSome = true
  · by_cases hwaited : ∃ x, pool.child? x = some i
    · obtain ⟨x, hwaits⟩ := hwaited
      refine ⟨x, fun j hj => ?_⟩
      have hne : j ≠ i := by
        rintro rfl
        rw [ready_answer? hended] at hj
        cases hj
      rcases ready_goOn hne hj with hready | ⟨hwaits', -⟩
      · exact .inr ⟨hne, hready⟩
      · exact .inl (h.alone j x i hwaits' hwaits)
    · refine ⟨i, fun j hj => ?_⟩
      by_cases hne : j = i
      · exact .inl hne
      · rcases ready_goOn hne hj with hready | ⟨hwaits, -⟩
        · exact .inr ⟨hne, hready⟩
        · exact absurd ⟨j, hwaits⟩ hwaited
  · refine ⟨i, fun j hj => ?_⟩
    by_cases hne : j = i
    · exact .inl hne
    · rcases ready_goOn hne hj with hready | ⟨-, hended'⟩
      · exact .inr ⟨hne, hready⟩
      · exact absurd hended' hended

section Fork

variable {i : ℕ} {inner : Plan σ τ Q A} {warn : τ → τ} {late : A} {proceed : A → Plan σ τ Q A}

theorem getElem?_fork_length : (pool.fork i inner warn late proceed).strands[
    pool.strands.length]? = some (.running inner) := by
  rw [fork, List.getElem?_append_right (List.length_set ..).le, List.length_set, Nat.sub_self]
  rfl

theorem getElem?_fork_self (hlt : i < pool.strands.length) :
    (pool.fork i inner warn late proceed).strands[i]? =
      some (.waiting pool.strands.length warn late proceed) := by
  rw [fork, List.getElem?_append_left (by rwa [List.length_set]), List.getElem?_set_self hlt]

theorem getElem?_fork_ne {j : ℕ} (hlt : j < pool.strands.length) (hne : j ≠ i) :
    (pool.fork i inner warn late proceed).strands[j]? = pool.strands[j]? := by
  rw [fork, List.getElem?_append_left (by rwa [List.length_set]), List.getElem?_set_ne hne.symm]

theorem length_fork :
    (pool.fork i inner warn late proceed).strands.length = pool.strands.length + 1 := by
  rw [fork, List.length_append, List.length_set]
  rfl

/-- A thread of the new pool is the new one, the one that waits for it, or as it was. -/
theorem fork_cases {j : ℕ} {strand : Strand σ τ Q A}
    (h : (pool.fork i inner warn late proceed).strands[j]? = some strand) :
    j = pool.strands.length ∧ strand = .running inner ∨
      j = i ∧ strand = .waiting pool.strands.length warn late proceed ∨
      j < pool.strands.length ∧ j ≠ i ∧ pool.strands[j]? = some strand := by
  have hlength : (pool.fork i inner warn late proceed).strands.length =
      pool.strands.length + 1 := length_fork
  have hlt := (List.getElem?_eq_some_iff.mp h).1
  rw [hlength] at hlt
  rcases Nat.lt_succ_iff_lt_or_eq.mp hlt with hlt | rfl
  · by_cases hne : j = i
    · subst hne
      rw [getElem?_fork_self hlt] at h
      exact .inr (.inl ⟨rfl, (Option.some.inj h).symm⟩)
    · rw [getElem?_fork_ne hlt hne] at h
      exact .inr (.inr ⟨hlt, hne, h⟩)
  · rw [getElem?_fork_length] at h
    exact .inl ⟨rfl, (Option.some.inj h).symm⟩

variable (hat : pool.strands[i]? = some (.running (.fork inner warn late proceed)))

include hat

theorem answer?_fork {j : ℕ} (hlt : j < pool.strands.length) :
    (pool.fork i inner warn late proceed).answer? j = pool.answer? j := by
  unfold answer?
  by_cases hne : j = i
  · subst hne
    rw [getElem?_fork_self hlt, hat]
  · rw [getElem?_fork_ne hlt hne]

theorem Joined.fork (h : Joined pool) : Joined (pool.fork i inner warn late proceed) := by
  have hi := (List.getElem?_eq_some_iff.mp hat).1
  have hcases (j child : ℕ) (hj : (pool.fork i inner warn late proceed).child? j = some child) :
      j = i ∧ child = pool.strands.length ∨ j ≠ i ∧ pool.child? j = some child := by
    unfold child? at hj
    split at hj
    · rename_i hstrand
      obtain rfl := Option.some.inj hj
      rcases fork_cases hstrand with ⟨-, hsame⟩ | ⟨rfl, hsame⟩ | ⟨-, hne, hold⟩
      · cases hsame
      · cases hsame
        exact .inl ⟨rfl, rfl⟩
      · refine .inr ⟨hne, ?_⟩
        unfold child?
        rw [hold]
    · cases hj
  constructor
  · intro j child hj
    rw [length_fork]
    rcases hcases j child hj with ⟨-, rfl⟩ | ⟨-, hold⟩
    · exact Nat.lt_succ_self _
    · exact Nat.lt_succ_of_lt (h.started j child hold)
  · intro j k child hj hk
    rcases hcases j child hj with ⟨rfl, rfl⟩ | ⟨-, hold⟩ <;>
      rcases hcases k _ hk with ⟨rfl, hnew⟩ | ⟨-, hold'⟩
    · rfl
    · exact absurd (h.started k _ hold') (Nat.lt_irrefl _)
    · subst hnew
      exact absurd (h.started j _ hold) (Nat.lt_irrefl _)
    · exact h.alone j k child hold hold'

/-- Either the thread that waits can go on, or the new one. -/
theorem Joined.exists_busy_fork (h : Joined pool) :
    ∃ x, (pool.fork i inner warn late proceed).busy ⊆ insert x (pool.busy.erase i) := by
  suffices hx : ∃ x, ∀ j, (pool.fork i inner warn late proceed).ready j = true →
      j = x ∨ j ≠ i ∧ pool.ready j = true by
    obtain ⟨x, hx⟩ := hx
    refine ⟨x, fun j hj => ?_⟩
    rw [Finset.mem_insert, Finset.mem_erase, mem_busy]
    exact hx j (mem_busy.mp hj)
  have hold (j : ℕ) (hlt : j < pool.strands.length) (hne : j ≠ i)
      (hj : (pool.fork i inner warn late proceed).ready j = true) : pool.ready j = true := by
    unfold ready at hj ⊢
    rw [getElem?_fork_ne hlt hne] at hj
    split at hj
    · cases hj
    · rfl
    · rename_i child _ _ _ hstrand
      have hchild : pool.child? j = some child := by
        unfold child?
        rw [hstrand]
      rwa [answer?_fork hat (h.started j child hchild)] at hj
    · cases hj
  have hi := (List.getElem?_eq_some_iff.mp hat).1
  by_cases hdone : ((pool.fork i inner warn late proceed).answer? pool.strands.length).isSome
  · refine ⟨i, fun j hj => ?_⟩
    by_cases hne : j = i
    · exact .inl hne
    · refine .inr ⟨hne, ?_⟩
      by_cases hlt : j < pool.strands.length
      · exact hold j hlt hne hj
      · have hmem := mem_busy.mpr hj
        rw [busy, Finset.mem_filter, Finset.mem_range, length_fork] at hmem
        obtain rfl : j = pool.strands.length := by omega
        rw [ready_answer? hdone] at hj
        cases hj
  · refine ⟨pool.strands.length, fun j hj => ?_⟩
    by_cases hlt : j < pool.strands.length
    · have hne : j ≠ i := by
        rintro rfl
        unfold ready at hj
        rw [getElem?_fork_self hlt] at hj
        exact hdone hj
      exact .inr ⟨hne, hold j hlt hne hj⟩
    · have hmem := mem_busy.mpr hj
      rw [busy, Finset.mem_filter, Finset.mem_range, length_fork] at hmem
      exact .inl (by omega)

end Fork

theorem card_busy_le {pool' : Pool σ τ Q A} {i : ℕ}
    (h : ∃ x, pool'.busy ⊆ insert x (pool.busy.erase i)) : pool'.busy.card ≤ pool.busy.card + 1 ∧
      (pool.ready i = true → pool'.busy.card ≤ pool.busy.card) := by
  obtain ⟨x, hsub⟩ := h
  have hcard := (Finset.card_le_card hsub).trans (Finset.card_insert_le _ _)
  constructor
  · exact hcard.trans (Nat.succ_le_succ (Finset.card_le_card (Finset.erase_subset _ _)))
  · intro hready
    rwa [Finset.card_erase_add_one (mem_busy.mpr hready)] at hcard

theorem joined_step (call : Q → σ → σ × A) (move : Move σ) (h : Joined pool) :
    Joined (pool.step call move) := by
  have hchange := step_change call pool move
  generalize pool.step call move = pool' at hchange ⊢
  cases hchange with
  | still => exact h
  | goes => exact h.goOn _ _ _
  | forks hat => exact h.fork hat
  | joins => exact h.goOn _ _ _
  | @givesUp i child warn late proceed =>
    have hgone := h.goOn i (pool.world.observe warn) (proceed late)
    exact ⟨hgone.started, hgone.alone⟩
  | meanwhile => exact ⟨h.started, h.alone⟩

/-- Only with a wait that is given up does one thread more than before go on. -/
theorem busy_step (call : Q → σ → σ × A) (move : Move σ) (h : Joined pool) :
    (pool.step call move).busy.card + pool.givenUp ≤
      pool.busy.card + (pool.step call move).givenUp := by
  have hchange := step_change call pool move
  generalize pool.step call move = pool' at hchange ⊢
  cases hchange with
  | still => exact le_rfl
  | goes hat hready =>
    exact Nat.add_le_add_right ((card_busy_le (h.exists_busy_goOn _ _ _)).2 hready) _
  | forks hat =>
    have hready := ready_running hat fun answer h => by cases h
    exact Nat.add_le_add_right ((card_busy_le (h.exists_busy_fork hat)).2 hready) _
  | @joins i child warn late answer proceed hat hanswer =>
    have hready : pool.ready i = true := by
      unfold ready
      rw [hat]
      change (pool.answer? child).isSome = true
      rw [hanswer]
      rfl
    exact Nat.add_le_add_right ((card_busy_le (h.exists_busy_goOn _ _ _)).2 hready) _
  | @givesUp i child warn late proceed hat =>
    have hcard := (card_busy_le (h.exists_busy_goOn i (pool.world.observe warn)
      (proceed late))).1
    calc (pool.goOn i (pool.world.observe warn) (proceed late)).busy.card + pool.givenUp
        ≤ pool.busy.card + 1 + pool.givenUp := Nat.add_le_add_right hcard _
      _ = pool.busy.card + (pool.givenUp + 1) := by rw [Nat.add_assoc, Nat.add_comm 1]
  | meanwhile => exact le_rfl

theorem joined_start (plan : Plan σ τ Q A) (w : World σ τ Q) : Joined (start plan w) := by
  have hnone (i : ℕ) : (start plan w).child? i = none := by cases i <;> rfl
  constructor
  · intro i child h
    rw [hnone] at h
    cases h
  · intro i j child h
    rw [hnone] at h
    cases h

theorem busy_start (plan : Plan σ τ Q A) (w : World σ τ Q) : (start plan w).busy.card ≤ 1 :=
  Finset.card_filter_le (Finset.range 1) _

end Overlap

/-- However the threads take turns, no more calls are made than the plan allows for, and
at most one thread more can go on than waits were given up. -/
theorem run_bounded (call : Q → σ → σ × A) (plan : Plan σ τ Q A) (w : World σ τ Q)
    (moves : List (Move σ)) :
    ((moves.foldl (step call) (start plan w)).world.asked.length : ℕ∞) ≤
        w.asked.length + plan.cost ∧
      (moves.foldl (step call) (start plan w)).busy.card ≤
        (moves.foldl (step call) (start plan w)).givenUp + 1 := by
  suffices h : (moves.foldl (step call) (start plan w)).spent ≤ w.asked.length + plan.cost ∧
      Joined (moves.foldl (step call) (start plan w)) ∧
      (moves.foldl (step call) (start plan w)).busy.card ≤
        (moves.foldl (step call) (start plan w)).givenUp + 1 from
    ⟨le_self_add.trans h.1, h.2.2⟩
  refine List.foldlRecOn (motive := fun pool : Pool σ τ Q A =>
    pool.spent ≤ w.asked.length + plan.cost ∧ Joined pool ∧ pool.busy.card ≤ pool.givenUp + 1)
    moves (step call) ⟨?_, joined_start plan w, busy_start plan w⟩ ?_
  · simp [spent, start, Strand.cost]
  · intro pool ⟨hspent, hjoined, hbusy⟩ move _
    have hstep := busy_step call move hjoined
    exact ⟨(spent_step call pool move).trans hspent, joined_step call move hjoined, by omega⟩

end Pool

end Threads

end Dialogue
