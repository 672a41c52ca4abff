import MollisRuntime.Scheduling.Handlers

/-!
The FIFO between the policy queue and the workers. The scheduler's loop asks for
idle workers, but a worker is idle until it picks its task up, so rounds of the
loop that follow each other move more tasks than there are workers to take them.
-/
namespace MollisRuntime.Scheduling

open Ordered Python Persistence MinHeap
open RuntimeEngine (step create run)

def Slot.idleCount (slot : Slot) : ℕ := if slot = .idle then 1 else 0

namespace RuntimeEngine

variable {P : Type}

section Idle

variable {sys : RuntimeEngine P} {workerId : String} {old : Slot}

/-- Writing a slot changes the number of idle workers by that slot. -/
theorem idle_setSlot (h : sys.workers.get? workerId = some old) (new : Slot) :
    (sys.setSlot workerId new).idleWorkers.length + Slot.idleCount old =
      sys.idleWorkers.length + Slot.idleCount new := by
  have hcount : ∀ slot (slots : List Slot),
      ((slot :: slots).filter fun slot => decide (slot = .idle)).length =
        (slots.filter fun slot => decide (slot = .idle)).length + Slot.idleCount slot := by
    intro slot slots
    rw [List.filter_cons, Slot.idleCount]
    by_cases hidle : slot = .idle <;> simp [hidle]
  have hbefore : sys.idleWorkers.length =
      ((sys.workers.erase workerId).values.filter fun slot => decide (slot = .idle)).length +
        Slot.idleCount old := by
    rw [← hcount]
    exact ((Dict.values_erase_perm h).filter _).length_eq
  have hafter : (sys.setSlot workerId new).idleWorkers.length =
      ((sys.workers.erase workerId).values.filter fun slot => decide (slot = .idle)).length +
        Slot.idleCount new := by
    rw [← hcount]
    exact ((Dict.values_set_perm _ _ _).filter _).length_eq
  omega

end Idle

/-- The FIFO holds no more tasks than there are idle workers to take them. -/
def Undrained (sys : RuntimeEngine P) : Prop := sys.pool.length ≤ sys.idleWorkers.length

instance (sys : RuntimeEngine P) : Decidable sys.Undrained :=
  inferInstanceAs (Decidable (sys.pool.length ≤ sys.idleWorkers.length))

theorem Undrained.mono {sys s : RuntimeEngine P} (h : sys.Undrained) (hpool : s.pool = sys.pool)
    (hworkers : s.workers = sys.workers) : s.Undrained := by
  rw [Undrained, idleWorkers, hpool, hworkers]
  exact h

section Workers

variable {sys : RuntimeEngine P} {env : StepEnv}

/-- The worker that takes the first task is idle no more. -/
theorem Undrained.start (h : sys.Undrained) (workerId : String) :
    (sys.start env workerId).system.Undrained := by
  unfold RuntimeEngine.start
  split
  · rename_i task rest hslot hpool
    have htaken : ∀ (s : RuntimeEngine P) (slot : Slot), slot.idleCount = 0 → s.pool = rest →
        s.workers = sys.workers → (s.setSlot workerId slot).Undrained := by
      intro s slot hbusy hrest hworkers
      have hidle : s.idleWorkers = sys.idleWorkers := by rw [idleWorkers, idleWorkers, hworkers]
      have hcount := idle_setSlot (hworkers ▸ hslot) slot
      change s.pool.length ≤ _
      rw [Undrained, hpool, List.length_cons] at h
      rw [hidle, hbusy] at hcount
      rw [hrest]
      have hone : Slot.idle.idleCount = 1 := rfl
      omega
    dsimp only
    split
    · exact htaken _ _ rfl rfl rfl
    · exact htaken _ _ rfl rfl rfl
  · exact h

/-- A worker becomes idle. -/
theorem Undrained.setSlot_idle {old : Slot} (h : sys.Undrained) {workerId : String}
    (hslot : sys.workers.get? workerId = some old) (hbusy : old ≠ .idle) :
    (sys.setSlot workerId .idle).Undrained := by
  have hcount := idle_setSlot hslot .idle
  have hold : old.idleCount = 0 := if_neg hbusy
  change sys.pool.length ≤ _
  exact h.trans (by omega)

theorem Undrained.respawn (h : sys.Undrained) (workerId : String) :
    (sys.respawn env workerId).system.Undrained := by
  unfold RuntimeEngine.respawn
  split
  · rename_i hslot
    rw [Outcome.system_caught, Outcome.andThen]
    split
    · rw [system_andThen_record, system_record]
      exact h
    · dsimp only
      rw [system_andThen_record, system_record]
      exact h.setSlot_idle hslot (by simp)
  · exact h

variable [SchedulingPolicy P] [FloatArith]

theorem Undrained.conclude (h : sys.Undrained) (workerId : String) (result : Except Raised Unit) :
    (sys.conclude env workerId result).system.Undrained := by
  by_cases hexecuting : ∃ attempt, sys.workers.get? workerId = some (.executing attempt)
  · obtain ⟨attempt, hslot⟩ := hexecuting
    obtain ⟨object, queue, tracker, hsystem⟩ := sys.system_executed env attempt result
    have hpool : (sys.executed env attempt result).system.pool = sys.pool := by
      rcases hsystem with hsystem | hsystem
      · rw [hsystem]
        rfl
      · rw [hsystem]
        rfl
    have hworkers := (sys.workers_executed env attempt result).1
    have hafter : (sys.executed env attempt result).system.workers.get? workerId =
        some (.executing attempt) := by
      rw [hworkers]
      exact hslot
    rw [conclude_executing hslot, finish]
    exact (h.mono hpool hworkers).setSlot_idle hafter (by simp)
  · rw [conclude_idle fun attempt hslot => hexecuting ⟨attempt, hslot⟩]
    exact h

/-- A worker whose attempt has timed out goes on with it. -/
theorem Undrained.timeout (h : sys.Undrained) (workerId : String) :
    (sys.timeout env workerId).system.Undrained := by
  cases hfiring : sys.firing env workerId with
  | none =>
    rw [timeout_idle hfiring]
    exact h
  | some attempt =>
    obtain ⟨superseded, hsystem, -⟩ := timeout_firing hfiring
    obtain ⟨object, queue, tracker, hframe⟩ :=
      (sys.setStatus attempt.task .failed).system_handleTaskTimeout_frame env attempt
    rw [hsystem, hframe]
    have hcount := idle_setSlot (firing_some hfiring)
      (.executing { attempt with startTime := none, superseded })
    change sys.pool.length ≤ (sys.setSlot workerId _).idleWorkers.length
    exact h.trans hcount.ge

end Workers

end RuntimeEngine

section Runs

variable {P : Type} [SchedulingPolicy P] [FloatArith]

/-- A round of the loop that takes a task out of the policy queue finds a worker
that is idle and has no task waiting for it in the FIFO. -/
def TakenByIdle (c : RuntimeEngine P × List Note) (a : StepEnv × Action) : Prop :=
  match a.2 with
  | .dispatch =>
    c.1.queue.isEmpty = false → (c.1.queue.dequeue a.1.queue).result.isOk = true →
      c.1.idleWorkers ≠ [] → c.1.pool.length < c.1.idleWorkers.length
  | _ => True

instance (c : RuntimeEngine P × List Note) : ∀ a : StepEnv × Action, Decidable (TakenByIdle c a)
  | (_, .dispatch) => inferInstanceAs (Decidable (_ → _ → _ → _))
  | (_, .schedule ..) | (_, .submitTask ..) | (_, .release) | (_, .start _) | (_, .conclude ..)
  | (_, .timeout _) | (_, .respawn _) => instDecidableTrue

theorem undrained_advance_iff {c : RuntimeEngine P × List Note} (h : c.1.Undrained)
    (a : StepEnv × Action) :
    (Machine.advance step c a).1.Undrained ↔ TakenByIdle c a := by
  obtain ⟨env, action⟩ := a
  rw [Machine.advance, step]
  cases action with
  | schedule task admission delay =>
    obtain ⟨queue, tracker, hsystem⟩ := c.1.system_schedule env task admission delay
    refine iff_of_true (h.mono ?_ ?_) trivial <;> rw [RuntimeEngine.perform, hsystem] <;> rfl
  | submitTask task title taskType metadata admission delay =>
    refine iff_of_true ?_ trivial
    obtain hsystem | ⟨-, object, queue, tracker, hsystem⟩ :=
      c.1.system_submitTask env task title taskType metadata admission delay
    · rw [RuntimeEngine.perform, hsystem]
      exact h
    · rw [RuntimeEngine.perform, hsystem]
      exact h.mono rfl rfl
  | release =>
    obtain ⟨queue, tracker, hsystem⟩ := c.1.system_release env
    refine iff_of_true (h.mono ?_ ?_) trivial <;> rw [RuntimeEngine.perform, hsystem]
  | dispatch =>
    dsimp only [RuntimeEngine.perform, TakenByIdle]
    unfold RuntimeEngine.dispatch
    split
    · rename_i hround
      cases hresult : (c.1.queue.dequeue env.queue).result with
      | error e =>
        refine iff_of_true (h.mono ?_ rfl) fun _ hok => absurd hok Bool.false_ne_true
        dsimp only
        rw [hresult]
        exact List.append_nil _
      | ok task =>
        dsimp only [RuntimeEngine.Undrained]
        rw [hresult, List.length_append]
        exact ⟨fun hroom _ _ _ => hroom, fun htaken => htaken hround.2 rfl hround.1⟩
    · rename_i hround
      refine iff_of_true h fun hstored _ hidle => ?_
      exact absurd ⟨hidle, hstored⟩ hround
  | start workerId => exact iff_of_true (h.start workerId) trivial
  | conclude workerId result => exact iff_of_true (h.conclude workerId result) trivial
  | timeout workerId => exact iff_of_true (h.timeout workerId) trivial
  | respawn workerId => exact iff_of_true (h.respawn workerId) trivial

omit [FloatArith] in
theorem undrained_create (maxSize : Option ℤ) (poolSize : ℕ) (objects : ℕ → TaskObject) :
    (create maxSize poolSize objects : RuntimeEngine P).Undrained := Nat.zero_le _

/-- The policy queue is not drained ahead of the workers in any state of a run
exactly when each round that takes a task finds an idle worker without one. -/
theorem undrained_iff (maxSize : Option ℤ) (poolSize : ℕ) (objects : ℕ → TaskObject)
    (actions : List (StepEnv × Action)) :
    (∀ before, before <+: actions →
      (run maxSize poolSize objects before : RuntimeEngine P × List Note).1.Undrained) ↔
    Machine.Along step TakenByIdle actions
      ((create maxSize poolSize objects : RuntimeEngine P), []) :=
  Machine.forall_prefix_iff_along (fun c : RuntimeEngine P × List Note => c.1.Undrained)
    (fun _ a h => undrained_advance_iff h a) (undrained_create maxSize poolSize objects)

end Runs

/-- Two rounds of the loop before the one worker picks its task up: the second task
waits in the FIFO and no longer in the policy queue. -/
theorem undrained_rounds :
    let _ : FloatArith := .exact
    let actions := [(.plain "t0" 0, .schedule ⟨0, "a"⟩ .pass (.finite 0)),
      (.plain "t0" 0, .schedule ⟨1, "b"⟩ .pass (.finite 0)),
      (.plain "t0" 0, .dispatch), (.plain "t0" 0, .dispatch)]
    let drained := (run none 1 (fun _ => {}) actions : RuntimeEngine FIFOPolicy × List Note).1
    ¬ drained.Undrained ∧ drained.queue.storage.keys = [] := by
  decide +kernel

end MollisRuntime.Scheduling
