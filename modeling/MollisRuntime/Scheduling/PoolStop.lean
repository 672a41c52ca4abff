import MollisRuntime.Library.Descent
import MollisRuntime.Scheduling.PoolLifecycle

/-!
Stopping the pool. `stop` waits for every worker without a limit, so that it
returns is a matter of the workers: a worker that was told to stop ends after six
turns at most, whatever is in the queue, and while `stop` waits one of its own
steps or a turn of such a worker is possible.
-/
namespace MollisRuntime.Scheduling

open Ordered Python Persistence

namespace WorkerThread

/-- The turns that a worker takes at most until it looks at its stop event and ends. -/
def turnsLeft (t : WorkerThread) : ℕ :=
  match t.phase with
  | .dead => 0
  | .leaving => 1
  | .checking => 2
  | .executing _ => 3
  | .marked _ => 4
  | .holding _ => 5
  | .getting => 6

/-- A worker that was not told yet may go on for ever. -/
def weight (t : WorkerThread) : ℕ :=
  if t.phase.isDead then 0 else if t.stopEvent then t.turnsLeft else 7

theorem turnsLeft_le (t : WorkerThread) : t.turnsLeft ≤ 6 := by
  unfold turnsLeft
  split <;> omega

theorem weight_le (t : WorkerThread) : t.weight ≤ 7 := by
  have hturns := t.turnsLeft_le
  unfold weight
  split <;> [skip; split] <;> omega

@[simp] theorem stopEvent_turn (t : WorkerThread) (env : TurnEnv) (queue : List Task) :
    (t.turn env queue).1.stopEvent = t.stopEvent := by
  unfold turn
  split
  · rfl
  · split <;> rfl
  · rfl
  · split <;> rfl
  · rfl
  · rfl
  · rfl

/-- A turn of a worker that was told to stop. -/
theorem turnsLeft_turn (t : WorkerThread) (env : TurnEnv) (queue : List Task)
    (hstop : t.stopEvent = true) (hlive : t.phase.isDead = false) :
    (t.turn env queue).1.turnsLeft < t.turnsLeft := by
  unfold turn
  cases hphase : t.phase with
  | checking => simp [turnsLeft, hphase, hstop]
  | getting => cases queue <;> simp [turnsLeft, hphase]
  | holding task => simp [turnsLeft, hphase]
  | marked task => cases env.appends <;> simp [turnsLeft, hphase]
  | executing task => simp [turnsLeft, hphase]
  | leaving => simp [turnsLeft, hphase]
  | dead =>
    rw [hphase] at hlive
    contradiction

theorem weight_turn_lt (t : WorkerThread) (env : TurnEnv) (queue : List Task)
    (hstop : t.stopEvent = true) (hlive : t.phase.isDead = false) :
    (t.turn env queue).1.weight < t.weight := by
  have hless := t.turnsLeft_turn env queue hstop hlive
  rw [weight, weight, stopEvent_turn, hstop, hlive]
  split
  · simp only [Bool.false_eq_true, if_false, if_true]
    omega
  · exact hless

theorem weight_turn_le (t : WorkerThread) (env : TurnEnv) (queue : List Task) :
    (t.turn env queue).1.weight ≤ t.weight := by
  cases hlive : t.phase.isDead with
  | true =>
    have hdead : t.phase = .dead := by
      cases hphase : t.phase with
      | dead => rfl
      | _ =>
        rw [hphase] at hlive
        contradiction
    unfold turn
    rw [hdead]
  | false =>
    cases hstop : t.stopEvent with
    | true => exact (t.weight_turn_lt env queue hstop hlive).le
    | false =>
      have hseven : t.weight = 7 := by simp [weight, hlive, hstop]
      rw [hseven]
      exact weight_le _

theorem weight_stop_le (t : WorkerThread) : t.stop.weight ≤ t.weight := by
  have hturns : t.stop.turnsLeft = t.turnsLeft := by
    rw [turnsLeft, turnsLeft, phase_stop]
  cases hlive : t.phase.isDead with
  | true => simp [weight, hlive]
  | false =>
    cases hstop : t.stopEvent with
    | true => simp [weight, hlive, hstop, (follows_stop t).stopEvent hstop, hturns]
    | false =>
      have hseven : t.weight = 7 := by simp [weight, hlive, hstop]
      rw [hseven]
      exact weight_le _

end WorkerThread

/-- The own steps of `stop` that are left. -/
def Control.stepsLeft : Control → ℕ
  | .outside => 0
  | .notifying rest joins => rest.length + joins.length + 2
  | .joining rest => rest.length + 1

namespace WorkerPool

def Stopping (pool : WorkerPool) : Prop := pool.control ≠ .outside

/-- The turns and steps that are left at most. -/
def stopMeasure (pool : WorkerPool) : ℕ :=
  pool.control.stepsLeft + (pool.threads.map WorkerThread.weight).sum

/-- A step of `stop`, or a turn of a live worker that was told to stop. -/
def helpsStop (pool : WorkerPool) : PoolAction → Bool
  | .notify =>
    match pool.control with
    | .notifying _ _ => true
    | _ => false
  | .join =>
    match pool.control with
    | .joining (i :: _) => (pool.threads[i]?).all fun t => t.phase.isDead
    | .joining [] => true
    | _ => false
  | .turn i _ => (pool.threads[i]?).any fun t => !t.phase.isDead && t.stopEvent
  | _ => false

variable {pool : WorkerPool}

/-- The weights after one worker went on. -/
theorem weights_setThread {i : ℕ} {t : WorkerThread} (ht : pool.threads[i]? = some t)
    (t' : WorkerThread) :
    ((pool.setThread i t').threads.map WorkerThread.weight).sum + t.weight =
      (pool.threads.map WorkerThread.weight).sum + t'.weight := by
  obtain ⟨hlt, rfl⟩ := List.getElem?_eq_some_iff.mp ht
  have hnew := ((List.set_perm_cons_eraseIdx hlt t').map WorkerThread.weight).sum_nat
  have hold := ((List.getElem_cons_eraseIdx_perm hlt).map WorkerThread.weight).sum_nat
  rw [List.map_cons, List.sum_cons] at hnew hold
  change ((pool.threads.set i t').map WorkerThread.weight).sum + pool.threads[i].weight = _
  omega

theorem notify_measure_lt {rest joins : List ℕ} (h : pool.control = .notifying rest joins) :
    pool.notify.stopMeasure < pool.stopMeasure := by
  unfold notify
  rw [h]
  cases rest with
  | nil =>
    simp only [stopMeasure, h, Control.stepsLeft]
    omega
  | cons i rest =>
    dsimp only
    split
    · rename_i t ht
      have hweights := weights_setThread ht t.stop
      have hle := t.weight_stop_le
      simp only [stopMeasure, h, Control.stepsLeft, List.length_cons]
      omega
    · simp only [stopMeasure, h, Control.stepsLeft, List.length_cons]
      omega

theorem turn_measure {i : ℕ} {env : TurnEnv} :
    (pool.turn i env).1.stopMeasure ≤ pool.stopMeasure ∧
      (pool.helpsStop (.turn i env) = true →
        (pool.turn i env).1.stopMeasure < pool.stopMeasure) := by
  unfold turn
  cases ht : pool.threads[i]? with
  | none => exact ⟨le_rfl, fun h => by simp [helpsStop, ht] at h⟩
  | some t =>
    have hweights := weights_setThread ht (t.turn env pool.taskQueue).1
    have hle := t.weight_turn_le env pool.taskQueue
    constructor
    · simp only [stopMeasure, WorkerPool.setThread] at hweights ⊢
      omega
    · intro hhelps
      obtain ⟨hlive, hstop⟩ : t.phase.isDead = false ∧ t.stopEvent = true := by
        simpa [helpsStop, ht] using hhelps
      have hlt := t.weight_turn_lt env pool.taskQueue hstop hlive
      simp only [stopMeasure, WorkerPool.setThread] at hweights ⊢
      omega

theorem join_measure {rest : List ℕ} (h : pool.control = .joining rest) :
    pool.join.stopMeasure ≤ pool.stopMeasure ∧
      (pool.helpsStop .join = true → pool.join.stopMeasure < pool.stopMeasure) := by
  unfold join
  rw [h]
  cases rest with
  | nil =>
    have hless : 0 + (pool.threads.map WorkerThread.weight).sum < pool.stopMeasure := by
      simp only [stopMeasure, h, Control.stepsLeft]
      omega
    exact ⟨hless.le, fun _ => hless⟩
  | cons i rest =>
    dsimp only
    split
    · have hless : rest.length + 1 + (pool.threads.map WorkerThread.weight).sum <
          pool.stopMeasure := by
        simp only [stopMeasure, h, Control.stepsLeft, List.length_cons]
        omega
      exact ⟨hless.le, fun _ => hless⟩
    · rename_i halive
      refine ⟨le_rfl, fun hhelps => ?_⟩
      rw [helpsStop, h] at hhelps
      exact absurd hhelps halive

/-- While `stop` has not returned, nothing adds to what it waits for. -/
theorem step_measure (hsound : pool.Sound) (hstopping : pool.Stopping) (a : PoolAction) :
    (pool.step a).1.stopMeasure ≤ pool.stopMeasure ∧
      (pool.helpsStop a = true → (pool.step a).1.stopMeasure < pool.stopMeasure) := by
  have hstarted : pool.started = false := by
    by_contra hrunning
    rw [Bool.not_eq_false] at hrunning
    exact hstopping (hsound.outside hrunning)
  have hidle : ∀ {pool' : WorkerPool}, pool'.stopMeasure = pool.stopMeasure →
      pool.helpsStop a = false → pool'.stopMeasure ≤ pool.stopMeasure ∧
        (pool.helpsStop a = true → pool'.stopMeasure < pool.stopMeasure) := by
    intro pool' hmeasure hhelps
    refine ⟨hmeasure.le, fun h => ?_⟩
    rw [hhelps] at h
    contradiction
  cases a with
  | start now =>
    refine hidle ?_ rfl
    rw [step, start]
    split
    · rename_i houtside
      exact absurd houtside hstopping
    · rfl
  | stop =>
    refine hidle ?_ rfl
    rw [step, stop]
    split
    · rename_i houtside
      exact absurd houtside hstopping
    · rfl
  | notify =>
    cases hcontrol : pool.control with
    | outside => exact absurd hcontrol hstopping
    | notifying rest joins =>
      have hless := notify_measure_lt hcontrol
      exact ⟨hless.le, fun _ => hless⟩
    | joining rest =>
      exact hidle (by rw [step, notify, hcontrol]) (by rw [helpsStop, hcontrol])
  | join =>
    cases hcontrol : pool.control with
    | outside => exact absurd hcontrol hstopping
    | notifying rest joins =>
      exact hidle (by rw [step, join, hcontrol]) (by rw [helpsStop, hcontrol])
    | joining rest => exact join_measure hcontrol
  | submit task => exact hidle (by rw [step, submit, if_neg (by simp [hstarted])]) rfl
  | put n =>
    refine hidle ?_ rfl
    rw [step, put]
    split <;> rfl
  | supervise workerId now =>
    exact hidle (by rw [step, supervise, if_neg (by simp [hstarted])]) rfl
  | turn i env => exact turn_measure

/-- `stop` can go on, or it waits for a worker that can. -/
theorem exists_helpsStop (hsound : pool.Sound) (hstopping : pool.Stopping) :
    ∃ a, pool.helpsStop a = true := by
  have hcontrol := hsound.control
  cases hc : pool.control with
  | outside => exact absurd hc hstopping
  | notifying rest joins => exact ⟨.notify, by rw [helpsStop, hc]⟩
  | joining rest =>
    rw [hc] at hcontrol
    cases rest with
    | nil => exact ⟨.join, by rw [helpsStop, hc]⟩
    | cons i rest =>
      cases ht : pool.threads[i]? with
      | none => exact ⟨.join, by rw [helpsStop, hc]; simp [ht]⟩
      | some t =>
        cases hlive : t.phase.isDead with
        | true => exact ⟨.join, by rw [helpsStop, hc]; simp [ht, hlive]⟩
        | false =>
          have hstop := (hcontrol.2 i t ht hlive).2
          exact ⟨.turn i ⟨"", true, true⟩, by simp [helpsStop, ht, hlive, hstop]⟩

theorem stop_descends : Machine.Descends step Sound Stopping helpsStop stopMeasure where
  keeps _ a h := h.step a
  weakly _ a h hstopping := (step_measure h hstopping a).1
  strictly _ a h hstopping := (step_measure h hstopping a).2

/-- In whatever state a run has left the pool: while `stop` has not returned, one of
its own steps can be taken or a turn of a worker that it told to stop, and however
these are mixed with other steps, there are no more of them than the measure says
until it returns. -/
theorem stop_returns (size : ℕ) (actions : List PoolAction) :
    let pool := (run size actions).1
    (pool.Stopping → ∃ a, pool.helpsStop a = true) ∧
      ∀ later, (∀ before a, before ++ [a] <+: later →
          (Machine.reach step before pool).Stopping) →
        Machine.helpfulSteps step helpsStop later pool ≤ pool.stopMeasure := by
  intro pool
  have hsound : pool.Sound := sound_run size actions
  refine ⟨exists_helpsStop hsound, ?_⟩
  intro later hstopping
  exact (Nat.le_add_right _ _).trans (stop_descends.helpfulSteps_le later hsound hstopping)

end WorkerPool

end MollisRuntime.Scheduling
