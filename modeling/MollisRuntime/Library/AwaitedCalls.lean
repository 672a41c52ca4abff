import MollisRuntime.Library.TimedCalls

/-!
Calls whose answers are all awaited. As long as no wait is given up, the threads
follow each other as one thread would run the plan: the same acts, questions and
answer. In whatever order they take their turns, the answer of the caller can still
be reached.
-/
namespace Dialogue

namespace Pool

variable {σ τ Q A : Type} {call : Q → σ → σ × A} {pool : Pool σ τ Q A}

/-- What is left to do for thread `i` and those that it waits for, as one plan, and
these threads. -/
inductive Leads (pool : Pool σ τ Q A) : ℕ → Plan σ τ Q A → List ℕ → Prop
  | here {i : ℕ} {plan : Plan σ τ Q A} (hat : pool.strands[i]? = some (.running plan)) :
      Leads pool i plan [i]
  | through {i child : ℕ} {warn : τ → τ} {late : A} {proceed : A → Plan σ τ Q A}
      {plan : Plan σ τ Q A} {path : List ℕ}
      (hat : pool.strands[i]? = some (.waiting child warn late proceed)) (hlt : i < child)
      (hchild : Leads pool child plan path) : Leads pool i (plan.bind proceed) (i :: path)

theorem answer?_eq_some {i : ℕ} {answer : A} :
    pool.answer? i = some answer ↔ pool.strands[i]? = some (.running (.done answer)) := by
  unfold answer?
  constructor
  · intro h
    split at h
    · rename_i hat
      rw [hat, Option.some.inj h]
    · cases h
  · intro h
    rw [h]

theorem Leads.of_answer {i : ℕ} {answer : A} {plan : Plan σ τ Q A} {path : List ℕ}
    (h : Leads pool i plan path) (hanswer : pool.answer? i = some answer) :
    plan = .done answer ∧ path = [i] := by
  have hdone := answer?_eq_some.mp hanswer
  cases h with
  | here hat =>
    rw [hdone] at hat
    cases hat
    exact ⟨rfl, rfl⟩
  | through hat =>
    rw [hdone] at hat
    cases hat

/-- Somewhere on the way the last thread runs. -/
theorem Leads.goOn {i j : ℕ} {plan done rest : Plan σ τ Q A} {path : List ℕ}
    (h : Leads pool j plan path) (hi : i ∈ path)
    (hat : pool.strands[i]? = some (.running done)) (w : World σ τ Q) :
    ∃ plan', Leads (pool.goOn i w rest) j plan' path ∧
      (rest.run call w = done.run call pool.world →
        plan'.run call w = plan.run call pool.world) := by
  induction h with
  | @here j plan hj =>
    obtain rfl : i = j := List.mem_singleton.mp hi
    rw [hat] at hj
    cases hj
    refine ⟨rest, .here ?_, id⟩
    exact List.getElem?_set_self (List.getElem?_eq_some_iff.mp hat).1
  | @through j child warn late proceed plan path hj hlt hchild ih =>
    have hne : j ≠ i := by
      rintro rfl
      rw [hat] at hj
      cases hj
    obtain ⟨plan', hleads, hrun⟩ := ih ((List.mem_cons.mp hi).resolve_left hne.symm)
    refine ⟨plan'.bind proceed, .through ((getElem?_goOn_ne hne w rest).trans hj) hlt hleads, ?_⟩
    intro hsame
    rw [Plan.run_bind, Plan.run_bind, hrun hsame]

theorem Leads.fork {i j : ℕ} {plan inner : Plan σ τ Q A} {path : List ℕ} {warn : τ → τ} {late : A}
    {proceed : A → Plan σ τ Q A} (h : Leads pool j plan path) (hi : i ∈ path)
    (hat : pool.strands[i]? = some (.running (.fork inner warn late proceed))) :
    ∃ plan', Leads (pool.fork i inner warn late proceed) j plan' (path ++ [pool.strands.length]) ∧
      ∀ w, plan'.run call w = plan.run call w := by
  induction h with
  | @here j plan hj =>
    obtain rfl : i = j := List.mem_singleton.mp hi
    rw [hat] at hj
    cases hj
    have hlt := (List.getElem?_eq_some_iff.mp hat).1
    refine ⟨inner.bind proceed,
      .through (getElem?_fork_self hlt) hlt (.here getElem?_fork_length), fun w => ?_⟩
    rw [Plan.run_bind]
    rfl
  | @through j child warn' late' proceed' plan path hj hafter hchild ih =>
    have hne : j ≠ i := by
      rintro rfl
      rw [hat] at hj
      cases hj
    obtain ⟨plan', hleads, hrun⟩ := ih ((List.mem_cons.mp hi).resolve_left hne.symm)
    have hlt := (List.getElem?_eq_some_iff.mp hj).1
    refine ⟨plan'.bind proceed', .through ((getElem?_fork_ne hlt hne).trans hj) hafter hleads,
      fun w => ?_⟩
    rw [Plan.run_bind, Plan.run_bind, hrun]

/-- The thread that has answered is no longer on the way. -/
theorem Leads.join {i j child : ℕ} {plan : Plan σ τ Q A} {path : List ℕ} {warn : τ → τ}
    {late answer : A} {proceed : A → Plan σ τ Q A} (h : Leads pool j plan path) (hi : i ∈ path)
    (hat : pool.strands[i]? = some (.waiting child warn late proceed))
    (hanswer : pool.answer? child = some answer) :
    ∃ plan' path', Leads (pool.goOn i pool.world (proceed answer)) j plan' path' ∧
      (∀ k ∈ path, k ∈ path' ∨ k = child) ∧ ∀ w, plan'.run call w = plan.run call w := by
  induction h with
  | @here j plan hj =>
    obtain rfl : i = j := List.mem_singleton.mp hi
    rw [hat] at hj
    cases hj
  | @through j child' warn' late' proceed' plan path hj hafter hchild ih =>
    by_cases hne : j = i
    · subst hne
      rw [hat] at hj
      cases hj
      obtain ⟨rfl, rfl⟩ := hchild.of_answer hanswer
      refine ⟨proceed answer, [j], .here ?_, fun k hk => ?_, fun w => rfl⟩
      · exact List.getElem?_set_self (List.getElem?_eq_some_iff.mp hat).1
      · rcases List.mem_cons.mp hk with rfl | hk
        · exact .inl List.mem_cons_self
        · exact .inr (List.mem_singleton.mp hk)
    · obtain ⟨plan', path', hleads, hpath, hrun⟩ :=
        ih ((List.mem_cons.mp hi).resolve_left (Ne.symm hne))
      refine ⟨plan'.bind proceed', j :: path',
        .through ((getElem?_goOn_ne hne _ _).trans hj) hafter hleads, fun k hk => ?_, fun w => ?_⟩
      · rcases List.mem_cons.mp hk with rfl | hk
        · exact .inl List.mem_cons_self
        · exact (hpath k hk).imp_left (List.mem_cons_of_mem j)
      · rw [Plan.run_bind, Plan.run_bind, hrun]

/-- The caller and the threads it waits for have left to do what the outcome asks for;
all other threads have ended. -/
def Awaits (call : Q → σ → σ × A) (outcome : World σ τ Q × A) (pool : Pool σ τ Q A) : Prop :=
  ∃ plan path, Leads pool 0 plan path ∧ plan.run call pool.world = outcome ∧
    ∀ i, i ∉ path → i < pool.strands.length → ∃ answer, pool.answer? i = some answer

variable {outcome : World σ τ Q × A}

theorem awaits_start (call : Q → σ → σ × A) (plan : Plan σ τ Q A) (w : World σ τ Q) :
    Awaits call (plan.run call w) (start plan w) := by
  refine ⟨plan, [0], .here rfl, rfl, fun i hi hlt => ?_⟩
  obtain rfl : i = 0 := Nat.lt_one_iff.mp hlt
  exact absurd List.mem_cons_self hi

/-- A thread without an answer is on the way. -/
theorem mem_path {path : List ℕ} {i : ℕ} {strand : Strand σ τ Q A}
    (h : ∀ i, i ∉ path → i < pool.strands.length → ∃ answer, pool.answer? i = some answer)
    (hat : pool.strands[i]? = some strand) (hopen : ∀ answer, strand ≠ .running (.done answer)) :
    i ∈ path := by
  by_contra hi
  obtain ⟨answer, hanswer⟩ := h i hi (List.getElem?_eq_some_iff.mp hat).1
  rw [answer?_eq_some, hat] at hanswer
  exact hopen answer (Option.some.inj hanswer)

theorem ended_goOn {path : List ℕ} {i : ℕ} {w : World σ τ Q} {plan : Plan σ τ Q A} (hi : i ∈ path)
    (h : ∀ i, i ∉ path → i < pool.strands.length → ∃ answer, pool.answer? i = some answer) :
    ∀ j, j ∉ path → j < (pool.goOn i w plan).strands.length →
      ∃ answer, (pool.goOn i w plan).answer? j = some answer := by
  intro j hj hlt
  rw [length_goOn] at hlt
  rw [answer?_goOn_ne (ne_of_mem_of_not_mem hi hj).symm]
  exact h j hj hlt

theorem awaits_turn (i : ℕ) (h : Awaits call outcome pool) :
    Awaits call outcome (pool.step call (.turn i)) := by
  obtain ⟨plan, path, hleads, hrun, hended⟩ := h
  have hchange := step_change call pool (.turn i)
  generalize pool.step call (.turn i) = pool' at hchange ⊢
  cases hchange with
  | still => exact ⟨plan, path, hleads, hrun, hended⟩
  | @goes _ before hat hready =>
    have hi : i ∈ path := mem_path hended hat (by
      rintro answer ⟨⟩
      rw [ready_answer? (Option.isSome_of_eq_some (answer?_eq_some.mpr hat))] at hready
      cases hready)
    obtain ⟨plan', hleads', hrun'⟩ := hleads.goOn hi hat (before.move call pool.world).1
    exact ⟨plan', path, hleads', (hrun' (Plan.run_move call before pool.world)).trans hrun,
      ended_goOn hi hended⟩
  | forks hat =>
    have hi : i ∈ path := mem_path hended hat fun answer h => by cases h
    obtain ⟨plan', hleads', hrun'⟩ := hleads.fork hi hat
    refine ⟨plan', _, hleads', (hrun' _).trans hrun, fun j hj hlt => ?_⟩
    rw [List.mem_append, List.mem_singleton, not_or] at hj
    rw [length_fork] at hlt
    have hlt : j < pool.strands.length := by omega
    rw [answer?_fork hat hlt]
    exact hended j hj.1 hlt
  | @joins _ child _ _ answer _ hat hanswer =>
    have hi : i ∈ path := mem_path hended hat fun answer h => by cases h
    obtain ⟨plan', path', hleads', hpath, hrun'⟩ := hleads.join hi hat hanswer
    have hchild : child ≠ i := by
      rintro rfl
      rw [answer?_eq_some, hat] at hanswer
      cases hanswer
    refine ⟨plan', path', hleads', (hrun' _).trans hrun, fun j hj hlt => ?_⟩
    rw [length_goOn] at hlt
    by_cases hne : j = child
    · subst hne
      exact ⟨answer, (answer?_goOn_ne hchild _ _).trans hanswer⟩
    · have hout : j ∉ path := fun hmem => hj ((hpath j hmem).resolve_right hne)
      rw [answer?_goOn_ne (ne_of_mem_of_not_mem hi hout).symm]
      exact hended j hout hlt

section Reaching

/-- The threads take these turns. -/
def turns (call : Q → σ → σ × A) (pool : Pool σ τ Q A) (is : List ℕ) : Pool σ τ Q A :=
  is.foldl (fun pool i => pool.step call (.turn i)) pool

theorem turns_append (call : Q → σ → σ × A) (pool : Pool σ τ Q A) (is js : List ℕ) :
    pool.turns call (is ++ js) = (pool.turns call is).turns call js := List.foldl_append

/-- Turns of the other threads have brought thread `i` to its answer. -/
structure Reached (pool : Pool σ τ Q A) (i : ℕ) (outcome : World σ τ Q × A)
    (untouched : ℕ → Prop) (pool' : Pool σ τ Q A) : Prop where
  world : pool'.world = outcome.1
  answer : pool'.answer? i = some outcome.2
  length : pool.strands.length ≤ pool'.strands.length
  frame : ∀ j < pool.strands.length, untouched j → pool'.strands[j]? = pool.strands[j]?

theorem step_join {i child : ℕ} {warn : τ → τ} {late answer : A} {proceed : A → Plan σ τ Q A}
    (hat : pool.strands[i]? = some (.waiting child warn late proceed))
    (hanswer : pool.answer? child = some answer) :
    pool.step call (.turn i) = pool.goOn i pool.world (proceed answer) := by
  rw [step, hat]
  dsimp only
  rw [hanswer]

theorem Reached.after_goOn {i : ℕ} {w : World σ τ Q} {plan : Plan σ τ Q A} {pool' : Pool σ τ Q A}
    (h : Reached (pool.goOn i w plan) i outcome (· ≠ i) pool') :
    Reached pool i outcome (· ≠ i) pool' where
  world := h.world
  answer := h.answer
  length := (length_goOn i w plan).ge.trans h.length
  frame j hlt hne := by
    rw [h.frame j ((length_goOn i w plan).symm ▸ hlt) hne, getElem?_goOn_ne hne]

theorem reaches_after {i : ℕ} {plan : Plan σ τ Q A}
    (hat : pool.strands[i]? = some (.running plan))
    (hstep : pool.step call (.turn i) =
      pool.goOn i (plan.move call pool.world).1 (plan.move call pool.world).2)
    (hrest : ∀ {pool' : Pool σ τ Q A},
      pool'.strands[i]? = some (.running (plan.move call pool.world).2) →
        ∃ is, Reached pool' i ((plan.move call pool.world).2.run call pool'.world) (· ≠ i)
          (pool'.turns call is)) :
    ∃ is, Reached pool i (plan.run call pool.world) (· ≠ i) (pool.turns call is) := by
  have hself := List.getElem?_set_self (a := Strand.running (plan.move call pool.world).2)
    (List.getElem?_eq_some_iff.mp hat).1
  obtain ⟨is, hreached⟩ := hrest (show (pool.goOn i (plan.move call pool.world).1
    (plan.move call pool.world).2).strands[i]? = _ from hself)
  refine ⟨i :: is, ?_⟩
  change Reached pool i _ _ ((pool.step call (.turn i)).turns call is)
  rw [hstep, ← Plan.run_move]
  exact hreached.after_goOn

/-- The waiting thread goes on with the answer that was reached. -/
theorem reaches_join {i child : ℕ} {warn : τ → τ} {late : A} {proceed : A → Plan σ τ Q A}
    {outcome : World σ τ Q × A} (hat : pool.strands[i]? = some (.waiting child warn late proceed))
    (hworld : pool.world = outcome.1) (hanswer : pool.answer? child = some outcome.2)
    (hrest : ∀ {pool' : Pool σ τ Q A}, pool'.strands[i]? = some (.running (proceed outcome.2)) →
      ∃ is, Reached pool' i ((proceed outcome.2).run call pool'.world) (· ≠ i)
        (pool'.turns call is)) :
    ∃ is, Reached pool i ((proceed outcome.2).run call outcome.1) (· ≠ i)
      (pool.turns call is) := by
  have hself := List.getElem?_set_self (a := Strand.running (proceed outcome.2))
    (List.getElem?_eq_some_iff.mp hat).1
  obtain ⟨is, hreached⟩ := hrest
    (show (pool.goOn i pool.world (proceed outcome.2)).strands[i]? = _ from hself)
  refine ⟨i :: is, ?_⟩
  change Reached pool i _ _ ((pool.step call (.turn i)).turns call is)
  rw [step_join hat hanswer, ← hworld]
  exact hreached.after_goOn

/-- A plan whose threads take turns in the order of the waiting ends as in one thread. -/
theorem reaches (call : Q → σ → σ × A) (plan : Plan σ τ Q A) :
    ∀ {pool : Pool σ τ Q A} {i : ℕ}, pool.strands[i]? = some (.running plan) →
      ∃ is, Reached pool i (plan.run call pool.world) (· ≠ i) (pool.turns call is) := by
  induction plan with
  | done answer =>
    intro pool i hat
    exact ⟨[], rfl, answer?_eq_some.mpr hat, le_rfl, fun j _ _ => rfl⟩
  | act update proceed ih =>
    intro pool i hat
    exact reaches_after hat (by rw [step, hat]) (ih _)
  | look read proceed ih =>
    intro pool i hat
    exact reaches_after hat (by rw [step, hat]) (ih _)
  | ask question proceed ih =>
    intro pool i hat
    refine reaches_after hat (by rw [step, hat]) fun {pool'} hat' => ?_
    let called : Plan σ τ Q A := .calling question proceed
    replace hat' : pool'.strands[i]? = some (.running called) := hat'
    have hstep : pool'.step call (.turn i) =
        pool'.goOn i (called.move call pool'.world).1 (called.move call pool'.world).2 := by
      rw [step, hat']
    exact reaches_after hat' hstep (ih _)
  | calling question proceed ih =>
    intro pool i hat
    exact reaches_after hat (by rw [step, hat]) (ih _)
  | fork inner warn late proceed ihinner ih =>
    intro pool i hat
    have hi := (List.getElem?_eq_some_iff.mp hat).1
    let forked := pool.fork i inner warn late proceed
    -- the new thread comes to its answer first
    obtain ⟨is, hinner⟩ := ihinner
      (show forked.strands[pool.strands.length]? = _ from getElem?_fork_length)
    have hwaits : (forked.turns call is).strands[i]? =
        some (.waiting pool.strands.length warn late proceed) := by
      rw [hinner.frame i (length_fork.symm ▸ Nat.lt_succ_of_lt hi) hi.ne]
      exact getElem?_fork_self hi
    obtain ⟨js, hrest⟩ := reaches_join hwaits hinner.world hinner.answer (ih _)
    refine ⟨i :: (is ++ js), ?_⟩
    have hturns : pool.turns call (i :: (is ++ js)) = (forked.turns call is).turns call js := by
      change (pool.step call (.turn i)).turns call (is ++ js) = _
      rw [turns_append, step, hat]
    have hlength : pool.strands.length ≤ forked.strands.length :=
      length_fork.symm ▸ Nat.le_succ _
    rw [hturns]
    refine ⟨hrest.world, hrest.answer, (hlength.trans hinner.length).trans hrest.length, ?_⟩
    intro j hj hne
    rw [hrest.frame j (hj.trans_le (hlength.trans hinner.length)) hne,
      hinner.frame j (hj.trans_le hlength) hj.ne, getElem?_fork_ne hj hne]

theorem Leads.le {i : ℕ} {plan : Plan σ τ Q A} {path : List ℕ} (h : Leads pool i plan path) :
    ∀ j ∈ path, i ≤ j := by
  induction h with
  | here hat =>
    intro j hj
    rw [List.mem_singleton.mp hj]
  | through hat hlt hchild ih =>
    intro j hj
    rcases List.mem_cons.mp hj with rfl | hj
    · exact le_rfl
    · exact hlt.le.trans (ih j hj)

theorem Leads.reaches {i : ℕ} {plan : Plan σ τ Q A} {path : List ℕ} (h : Leads pool i plan path) :
    ∃ is, Reached pool i (plan.run call pool.world) (· ∉ path) (pool.turns call is) := by
  induction h with
  | @here i plan hat =>
    obtain ⟨is, hreached⟩ := Pool.reaches call plan hat
    refine ⟨is, hreached.world, hreached.answer, hreached.length, fun j hlt hj => ?_⟩
    exact hreached.frame j hlt (List.ne_of_not_mem_cons hj)
  | @through i child warn late proceed plan path hat hlt hchild ih =>
    obtain ⟨is, hreached⟩ := ih
    have hi := (List.getElem?_eq_some_iff.mp hat).1
    have hout : i ∉ path := fun hmem => absurd (hchild.le i hmem) (not_le.mpr hlt)
    have hwaits := (hreached.frame i hi hout).trans hat
    obtain ⟨js, hrest⟩ := reaches_join hwaits hreached.world hreached.answer
      (Pool.reaches call (proceed _))
    refine ⟨is ++ js, ?_⟩
    rw [turns_append, Plan.run_bind]
    refine ⟨hrest.world, hrest.answer, hreached.length.trans hrest.length, fun j hj hmem => ?_⟩
    rw [List.mem_cons, not_or] at hmem
    rw [hrest.frame j (hj.trans_le hreached.length) hmem.1, hreached.frame j hj hmem.2]

end Reaching

theorem awaits_turns (h : Awaits call outcome pool) (is : List ℕ) :
    Awaits call outcome (pool.turns call is) :=
  List.foldlRecOn (motive := Awaits call outcome) is _ h fun _ h i _ => awaits_turn i h

/-- What the caller answers is the answer of the one thread, in the same world. -/
theorem Awaits.of_answer {answer : A} (h : Awaits call outcome pool)
    (hanswer : pool.answer? 0 = some answer) : (pool.world, answer) = outcome := by
  obtain ⟨plan, path, hleads, hrun, -⟩ := h
  rw [(hleads.of_answer hanswer).1] at hrun
  exact hrun

/-- Whatever turns the threads have taken, the caller can still come to its answer. -/
theorem Awaits.reaches (h : Awaits call outcome pool) :
    ∃ is, (pool.turns call is).answer? 0 = some outcome.2 := by
  obtain ⟨plan, path, hleads, hrun, -⟩ := h
  obtain ⟨is, hreached⟩ : ∃ is, Reached pool 0 (plan.run call pool.world) (· ∉ path)
      (pool.turns call is) := hleads.reaches
  refine ⟨is, ?_⟩
  rw [hreached.answer, hrun]

end Pool

end Dialogue
