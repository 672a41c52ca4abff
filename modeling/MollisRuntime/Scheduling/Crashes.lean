import MollisRuntime.Scheduling.Handlers

/-!
Crashing workers. A worker takes a task from the FIFO and appends two events
before it enters the guarded region, so an append that raises there ends its
thread with a task that nobody is told about. Appends that raise later are caught.
-/
namespace MollisRuntime.Scheduling

open Ordered Python Persistence MinHeap
open RuntimeEngine (step create run)

/-- What the workers owe: the tasks that a worker has taken from the FIFO and not
reported, and what was left of these when the worker was replaced. -/
structure Ledger where
  owed : String → List TaskHandle := fun _ => []
  dropped : List TaskHandle := []

namespace RuntimeEngine

variable {P : Type}

variable [SchedulingPolicy P] [FloatArith]

/-- What a step does to the ledger. The end of an attempt calls on_task_completed
or on_task_failed. -/
def enter (sys : RuntimeEngine P) (ledger : Ledger) (a : StepEnv × Action) : Ledger :=
  match a.2 with
  | .start workerId =>
    { ledger with
      owed := Function.update ledger.owed workerId
        (ledger.owed workerId ++ (sys.offered workerId).toList) }
  | .conclude workerId _ =>
    match sys.workers.get? workerId with
    | some (.executing attempt) =>
      { ledger with
        owed := Function.update ledger.owed workerId
          ((ledger.owed workerId).erase attempt.task) }
    | _ => ledger
  | .respawn workerId =>
    if sys.workers.get? workerId = some .crashed ∧
        (step sys a).1.workers.get? workerId = some .idle then
      { owed := Function.update ledger.owed workerId []
        dropped := ledger.dropped ++
          (ledger.owed workerId).filter fun task => decide (task ∉ sys.pool) }
    else ledger
  | _ => ledger

/-- A step that keeps the ledger. -/
def watchedStep : RuntimeEngine P × Ledger → StepEnv × Action →
    (RuntimeEngine P × Ledger) × List Note :=
  Machine.watch step enter

def watchedRun (maxSize : Option ℤ) (poolSize : ℕ) (objects : ℕ → TaskObject)
    (actions : List (StepEnv × Action)) : (RuntimeEngine P × Ledger) × List Note :=
  Machine.exec watchedStep actions ((create maxSize poolSize objects, {}), [])

/-- The ledger is kept beside the run. -/
theorem watchedRun_system (maxSize : Option ℤ) (poolSize : ℕ) (objects : ℕ → TaskObject)
    (actions : List (StepEnv × Action)) :
    (watchedRun maxSize poolSize objects actions : (RuntimeEngine P × Ledger) × List Note).1.1 =
      (run maxSize poolSize objects actions : RuntimeEngine P × List Note).1 :=
  congrArg Prod.fst (Machine.exec_watch enter actions _)

end RuntimeEngine

section Property

variable {P : Type}

/-- Nothing was dropped, and a worker owes the task that it is executing and no
other: what a crashed worker had taken has been reported. -/
structure NothingOwed (s : RuntimeEngine P × Ledger) : Prop where
  dropped : s.2.dropped = []
  owed : ∀ workerId slot, s.1.workers.get? workerId = some slot →
    s.2.owed workerId = slot.task.toList

/-- A step that leaves the workers and the ledger as they are. -/
theorem NothingOwed.still {s : RuntimeEngine P × Ledger} {sys : RuntimeEngine P}
    (h : NothingOwed s) (hworkers : sys.workers = s.1.workers) : NothingOwed (sys, s.2) := by
  refine ⟨h.dropped, ?_⟩
  intro workerId slot hslot
  exact h.owed workerId slot (hworkers ▸ hslot)

/-- One worker gets another slot, and the ledger is brought up to date for it. -/
theorem nothingOwed_setSlot_iff {s : RuntimeEngine P × Ledger} {sys : RuntimeEngine P}
    {workerId : String} {slot : Slot} (tasks : List TaskHandle) (h : NothingOwed s)
    (hworkers : sys.workers = s.1.workers.set workerId slot) :
    NothingOwed (sys, { s.2 with owed := Function.update s.2.owed workerId tasks }) ↔
      tasks = slot.task.toList := by
  constructor
  · intro hafter
    have howed := hafter.owed workerId slot (by rw [hworkers, Dict.get?_set_self])
    exact (Function.update_self workerId tasks s.2.owed).symm.trans howed
  · rintro rfl
    refine ⟨h.dropped, ?_⟩
    intro other old hold
    rw [hworkers, Dict.get?_set] at hold
    by_cases hother : workerId = other
    · subst hother
      rw [if_pos rfl] at hold
      rw [← Option.some.inj hold]
      exact Function.update_self _ _ _
    · rw [if_neg hother] at hold
      exact (Function.update_of_ne (Ne.symm hother) _ _).trans (h.owed other old hold)

/-- Two events are appended one after the other. -/
theorem result_records (sys : RuntimeEngine P) (env : StepEnv) (kind kind' : EventKind)
    (attempt : Option ℕ) :
    ((sys.record env kind attempt .empty).andThen fun s =>
        s.record env kind' none .empty).result = .ok () ↔
      env.log { kind, timestamp := env.now } = .ok () ∧
        env.log { kind := kind', timestamp := env.now } = .ok () := by
  cases hfirst : env.log { kind, timestamp := env.now } with
  | error e =>
    have hresult := (sys.result_record env kind attempt .empty).trans hfirst
    rw [Outcome.andThen_error hresult, hresult]
    simp
  | ok _ =>
    have hresult := (sys.result_record env kind attempt .empty).trans hfirst
    rw [Outcome.andThen_ok hresult]
    dsimp only
    rw [RuntimeEngine.result_record]
    simp

/-- The worker executes the task that it has taken, or its thread has crashed because
one of the two appends raised. -/
theorem workers_start {sys : RuntimeEngine P} (env : StepEnv) {workerId : String}
    {task : TaskHandle} (h : sys.offered workerId = some task) :
    ∃ slot : Slot, (sys.start env workerId).system.workers = sys.workers.set workerId slot ∧
      (slot.task = some task ∨ slot.task = none) ∧
      (slot.task = some task ↔
        env.log { kind := .taskStarted task.id, timestamp := env.now } = .ok () ∧
          env.log { kind := .workerHeartbeat workerId env.now, timestamp := env.now } = .ok ()) := by
  obtain ⟨hslot, rest, hpool⟩ := RuntimeEngine.offered_eq_some.mp h
  unfold RuntimeEngine.start
  rw [hslot, hpool]
  dsimp only
  split
  · rename_i e hraised
    refine ⟨.crashed, rfl, .inr rfl, ?_⟩
    rw [← result_records, hraised]
    exact iff_of_false (by simp [Slot.task]) (by simp)
  · rename_i htold
    refine ⟨_, rfl, .inl rfl, ?_⟩
    rw [← result_records, htold]
    exact iff_of_true rfl rfl

end Property

section Runs

variable {P : Type} [SchedulingPolicy P] [FloatArith]

/-- The two appends before the guarded region do not raise when a worker takes a task. -/
def GuardReached (c : (RuntimeEngine P × Ledger) × List Note) (a : StepEnv × Action) : Prop :=
  match a.2 with
  | .start workerId =>
    ∀ task ∈ c.1.1.offered workerId,
      a.1.log { kind := .taskStarted task.id, timestamp := a.1.now } = .ok () ∧
        a.1.log { kind := .workerHeartbeat workerId a.1.now, timestamp := a.1.now } = .ok ()
  | _ => True

instance (c : (RuntimeEngine P × Ledger) × List Note) :
    ∀ a : StepEnv × Action, Decidable (GuardReached c a)
  | (_, .start _) => inferInstanceAs (Decidable (∀ _ ∈ _, _ ∧ _))
  | (_, .schedule ..) | (_, .submitTask ..) | (_, .release) | (_, .dispatch) | (_, .conclude ..)
  | (_, .timeout _) | (_, .respawn _) => instDecidableTrue

/-- A worker that takes a task owes it unless the two appends succeed. -/
theorem nothingOwed_start_iff {c : (RuntimeEngine P × Ledger) × List Note} (h : NothingOwed c.1)
    (env : StepEnv) (workerId : String) :
    NothingOwed ((c.1.1.start env workerId).system,
        c.1.1.enter c.1.2 (env, .start workerId)) ↔ GuardReached c (env, .start workerId) := by
  dsimp only [RuntimeEngine.enter, GuardReached]
  cases hoffered : c.1.1.offered workerId with
  | none =>
    refine iff_of_true ?_ (by simp)
    rw [RuntimeEngine.start_idle hoffered, Option.toList_none, List.append_nil,
      Function.update_eq_self]
    exact h
  | some task =>
    obtain ⟨slot, hworkers, hslot, hguarded⟩ := workers_start env hoffered
    have hbefore := h.owed workerId .idle (RuntimeEngine.offered_eq_some.mp hoffered).1
    rw [hbefore, nothingOwed_setSlot_iff _ h hworkers]
    have hkept : Slot.idle.task.toList ++ (some task).toList = slot.task.toList ↔
        slot.task = some task := by
      rcases hslot with htask | htask
      · exact iff_of_true (by rw [htask]; rfl) htask
      · rw [htask]
        exact iff_of_false (by simp) (by simp)
    rw [hkept, hguarded]
    exact ⟨fun hlogged task' htask => Option.mem_some.mp htask ▸ hlogged,
      fun hlogged => hlogged task rfl⟩

/-- A worker at the end of its attempt has one task less to answer for. -/
theorem NothingOwed.conclude {c : (RuntimeEngine P × Ledger) × List Note} (h : NothingOwed c.1)
    (env : StepEnv) (workerId : String) (result : Except Raised Unit) :
    NothingOwed ((c.1.1.conclude env workerId result).system,
      c.1.1.enter c.1.2 (env, .conclude workerId result)) := by
  dsimp only [RuntimeEngine.enter]
  by_cases hexecuting : ∃ attempt, c.1.1.workers.get? workerId = some (.executing attempt)
  · obtain ⟨attempt, hslot⟩ := hexecuting
    have howed : c.1.2.owed workerId = [attempt.task] := h.owed workerId _ hslot
    rw [hslot, RuntimeEngine.conclude_executing hslot]
    have hworkers : (RuntimeEngine.finish workerId attempt
        (c.1.1.executed env attempt result)).system.workers =
          c.1.1.workers.set workerId .idle := by
      rw [RuntimeEngine.finish, RuntimeEngine.setSlot,
        (c.1.1.workers_executed env attempt result).1]
    refine (nothingOwed_setSlot_iff _ h hworkers).mpr ?_
    rw [howed, List.erase_cons_head]
    rfl
  · rw [RuntimeEngine.conclude_idle fun attempt hslot => hexecuting ⟨attempt, hslot⟩]
    split
    · rename_i attempt hslot
      exact absurd ⟨attempt, hslot⟩ hexecuting
    · exact h

/-- A step keeps the workers from owing anything exactly if it starts no attempt
whose first events cannot be appended. -/
theorem nothingOwed_advance_iff {c : (RuntimeEngine P × Ledger) × List Note}
    (h : NothingOwed c.1) (a : StepEnv × Action) :
    NothingOwed (Machine.advance RuntimeEngine.watchedStep c a).1 ↔ GuardReached c a := by
  obtain ⟨env, action⟩ := a
  change NothingOwed ((c.1.1.perform env action).system, c.1.1.enter c.1.2 (env, action)) ↔ _
  cases action with
  | schedule task admission delay =>
    obtain ⟨queue, tracker, hsystem⟩ := c.1.1.system_schedule env task admission delay
    refine iff_of_true (h.still ?_) trivial
    rw [RuntimeEngine.perform, hsystem]
    rfl
  | submitTask task title taskType metadata admission delay =>
    refine iff_of_true (h.still ?_) trivial
    obtain hsystem | ⟨-, object, queue, tracker, hsystem⟩ :=
      c.1.1.system_submitTask env task title taskType metadata admission delay
    · rw [RuntimeEngine.perform, hsystem]
    · rw [RuntimeEngine.perform, hsystem]
      rfl
  | release =>
    obtain ⟨queue, tracker, hsystem⟩ := c.1.1.system_release env
    refine iff_of_true (h.still ?_) trivial
    rw [RuntimeEngine.perform, hsystem]
  | dispatch =>
    obtain ⟨queue, pool, hsystem⟩ := c.1.1.system_dispatch env
    refine iff_of_true (h.still ?_) trivial
    rw [RuntimeEngine.perform, hsystem]
  | start workerId => exact nothingOwed_start_iff h env workerId
  | conclude workerId result => exact iff_of_true (h.conclude env workerId result) trivial
  | timeout workerId =>
    refine iff_of_true ?_ trivial
    cases hfiring : c.1.1.firing env workerId with
    | none =>
      rw [RuntimeEngine.perform, RuntimeEngine.timeout_idle hfiring]
      exact h
    | some attempt =>
      obtain ⟨superseded, hworkers⟩ := RuntimeEngine.workers_timeout hfiring
      have howed := h.owed workerId _ (RuntimeEngine.firing_some hfiring)
      have hafter := (nothingOwed_setSlot_iff (c.1.2.owed workerId) h hworkers).mpr howed
      rw [Function.update_eq_self] at hafter
      exact hafter
  | respawn workerId =>
    refine iff_of_true ?_ trivial
    dsimp only [RuntimeEngine.perform, RuntimeEngine.enter]
    obtain hstill | ⟨hcrashed, hreplaced⟩ := c.1.1.workers_respawn env workerId
    · rw [if_neg]
      · exact h.still hstill
      · rintro ⟨hcrashed, hidle⟩
        change (c.1.1.respawn env workerId).system.workers.get? workerId = some .idle at hidle
        rw [hstill, hcrashed] at hidle
        cases hidle
    · have howed : c.1.2.owed workerId = [] := h.owed workerId .crashed hcrashed
      have hafter := (nothingOwed_setSlot_iff [] h hreplaced).mpr rfl
      split
      · rw [howed, List.filter_nil, List.append_nil]
        exact hafter
      · rw [← howed, Function.update_eq_self] at hafter
        exact hafter

omit [FloatArith] in
theorem nothingOwed_create (maxSize : Option ℤ) (poolSize : ℕ) (objects : ℕ → TaskObject) :
    NothingOwed ((create maxSize poolSize objects : RuntimeEngine P), {}) := by
  refine ⟨rfl, ?_⟩
  intro workerId slot hslot
  rw [RuntimeEngine.idle_of_create hslot]
  rfl

/-- Every task that a worker has taken is reported or being executed in every state
of a run exactly when no append before the guarded region raises. -/
theorem nothing_owed_iff (maxSize : Option ℤ) (poolSize : ℕ) (objects : ℕ → TaskObject)
    (actions : List (StepEnv × Action)) :
    (∀ before, before <+: actions → NothingOwed (RuntimeEngine.watchedRun maxSize poolSize objects
      before : (RuntimeEngine P × Ledger) × List Note).1) ↔
    Machine.Along RuntimeEngine.watchedStep GuardReached actions
      (((create maxSize poolSize objects : RuntimeEngine P), {}), []) :=
  Machine.forall_prefix_iff_along
    (fun c : (RuntimeEngine P × Ledger) × List Note => NothingOwed c.1)
    (fun _ a h => nothingOwed_advance_iff h a) (nothingOwed_create maxSize poolSize objects)

end Runs

/-- The append of TaskStarted raises, and the worker is replaced afterwards: nobody
is told about its task. -/
theorem nothing_owed_crash :
    let _ : FloatArith := .exact
    let locked : StepEnv :=
      { now := "t0", time := 0, append := some fun _ =>
        .error ⟨["OperationalError", "DatabaseError", "Error", "Exception"], "database is locked"⟩ }
    let actions := [(.recording "t0" 0, .schedule ⟨0, "a"⟩ .pass (.finite 0)),
      (.recording "t0" 0, .dispatch), (locked, .start "W-001"),
      (.recording "t0" 0, .respawn "W-001")]
    let watched := (RuntimeEngine.watchedRun none 1 (fun _ => {}) actions :
      (RuntimeEngine FIFOPolicy × Ledger) × List Note)
    watched.1.1.workers.get? "W-001" = some .idle ∧ watched.1.1.pool = [] ∧
      watched.1.2.dropped = [⟨0, "a"⟩] ∧ ¬ NothingOwed watched.1 := by
  intro _ locked actions watched
  have hdropped : watched.1.2.dropped = [⟨0, "a"⟩] := by decide +kernel
  refine ⟨by decide +kernel, by decide +kernel, hdropped, ?_⟩
  intro h
  rw [h.dropped] at hdropped
  cases hdropped

end MollisRuntime.Scheduling
