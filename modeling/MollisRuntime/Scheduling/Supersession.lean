import MollisRuntime.Scheduling.Custody

/-!
One attempt at a time. As long as no timeout leads to a retry and no task is
scheduled that the system still has, each task is in one place, so no two workers
have it. A timeout that does lead to a retry leaves the attempt running.
-/
namespace MollisRuntime.Scheduling

open Ordered Python Persistence MinHeap
open RuntimeEngine (step create run)

section Places

variable {P : Type}

/-- No task is being executed by two workers. -/
def RuntimeEngine.OneWorkerEach (sys : RuntimeEngine P) : Prop :=
  (sys.running.map TaskHandle.ref).Nodup

instance (sys : RuntimeEngine P) : Decidable sys.OneWorkerEach :=
  inferInstanceAs (Decidable (sys.running.map TaskHandle.ref).Nodup)

/-- Every task is in one place once, and no attempt is superseded. -/
structure Exclusive (sys : RuntimeEngine P) : Prop where
  places : (sys.custody.map TaskHandle.ref).Nodup
  current : ∀ workerId attempt,
    sys.workers.get? workerId = some (.executing attempt) → attempt.superseded = false

theorem Exclusive.oneWorkerEach {sys : RuntimeEngine P} (h : Exclusive sys) :
    sys.OneWorkerEach := by
  have hrunning : (sys.running : Multiset TaskHandle) ≤ sys.custody := Multiset.le_add_left _ _
  exact Multiset.nodup_of_le (Multiset.map_le_map hrunning) h.places

theorem exclusive_create [SchedulingPolicy P] (maxSize : Option ℤ) (poolSize : ℕ)
    (objects : ℕ → TaskObject) :
    Exclusive (create maxSize poolSize objects : RuntimeEngine P) := by
  constructor
  · rw [RuntimeEngine.custody_create]
    exact Multiset.nodup_zero
  · intro workerId attempt hexecuting
    cases RuntimeEngine.idle_of_create hexecuting

end Places

section Runs

variable {P : Type} [SchedulingPolicy P] [FloatArith]

/-- Only a task that is nowhere in the system is scheduled, and no timeout leads
to a retry. -/
def Unsuperseded (c : RuntimeEngine P × List Note) (a : StepEnv × Action) : Prop :=
  match a.2 with
  | .schedule task _ _ => task.ref ∉ c.1.custody.map TaskHandle.ref
  | .submitTask task _ _ _ _ _ => task.ref ∉ c.1.custody.map TaskHandle.ref
  | .timeout workerId => ¬ c.1.RetriesTimeout a.1 workerId
  | _ => True

instance (c : RuntimeEngine P × List Note) : ∀ a : StepEnv × Action, Decidable (Unsuperseded c a)
  | (_, .schedule ..) | (_, .submitTask ..) | (_, .timeout _) =>
    inferInstanceAs (Decidable (¬ _))
  | (_, .release) | (_, .dispatch) | (_, .start _) | (_, .conclude ..) | (_, .respawn _) =>
    instDecidableTrue

/-- The end of a superseded attempt leaves the status of the task and the number
of its retries as they are. -/
def EndsQuietly (c : RuntimeEngine P × List Note) (a : StepEnv × Action) : Prop :=
  ∀ workerId result attempt, a.2 = .conclude workerId result →
    c.1.workers.get? workerId = some (.executing attempt) → attempt.superseded = true →
    ((step c.1 a).1.object attempt.task).status = (c.1.object attempt.task).status ∧
      ((step c.1 a).1.object attempt.task).metadata.retryCount =
        (c.1.object attempt.task).metadata.retryCount

omit [SchedulingPolicy P] in
theorem Exclusive.arriving {c : RuntimeEngine P × List Note} {a : StepEnv × Action}
    (h : Exclusive c.1) (ha : Unsuperseded c a) :
    ((a.2.arriving + c.1.custody).map TaskHandle.ref).Nodup := by
  obtain ⟨env, action⟩ := a
  cases action with
  | schedule task admission delay =>
    rw [Action.arriving, Multiset.singleton_add, Multiset.map_cons]
    exact Multiset.nodup_cons.mpr ⟨ha, h.places⟩
  | submitTask task title taskType metadata admission delay =>
    rw [Action.arriving, Multiset.singleton_add, Multiset.map_cons]
    exact Multiset.nodup_cons.mpr ⟨ha, h.places⟩
  | _ => simpa [Action.arriving] using h.places

/-- A step that meets the condition keeps every task in one place. -/
theorem Exclusive.advance {c : RuntimeEngine P × List Note} {a : StepEnv × Action}
    (h : Exclusive c.1) (ha : Unsuperseded c a) : Exclusive (Machine.advance step c a).1 := by
  have hdenied : ∀ workerId, a.2 = .timeout workerId → ¬ c.1.RetriesTimeout a.1 workerId := by
    intro workerId haction
    rw [Unsuperseded, haction] at ha
    exact ha
  constructor
  · exact Multiset.nodup_of_le (Multiset.map_le_map (RuntimeEngine.custody_perform hdenied))
      (h.arriving ha)
  · intro workerId attempt hexecuting
    obtain hbefore | ⟨-, -, hfresh, -⟩ | ⟨old, haction, hfiring, -⟩ :=
      RuntimeEngine.executing_perform hexecuting
    · exact h.current workerId attempt hbefore
    · exact hfresh
    · have hsystem := RuntimeEngine.system_timeout_denied hfiring (hdenied workerId haction)
      change ((c.1.perform a.1 a.2).system.workers.get? workerId) = _ at hexecuting
      rw [haction, RuntimeEngine.perform, hsystem] at hexecuting
      have hslot := (Dict.get?_set_self _ _ _).symm.trans hexecuting
      obtain rfl := Slot.executing.inj (Option.some.inj hslot)
      exact h.current workerId old (RuntimeEngine.firing_some hfiring)

/-- One attempt at a time, in every run whose steps meet the condition. -/
theorem one_attempt_at_a_time (maxSize : Option ℤ) (poolSize : ℕ) (objects : ℕ → TaskObject)
    (actions : List (StepEnv × Action))
    (h : Machine.Along step Unsuperseded actions
      ((create maxSize poolSize objects : RuntimeEngine P), [])) :
    (∀ before, before <+: actions →
      (run maxSize poolSize objects before : RuntimeEngine P × List Note).1.OneWorkerEach) ∧
    Machine.Along step EndsQuietly actions
      ((create maxSize poolSize objects : RuntimeEngine P), []) := by
  have hstart := exclusive_create (P := P) maxSize poolSize objects
  have hstep : ∀ (c : RuntimeEngine P × List Note) a, Exclusive c.1 → Unsuperseded c a →
      Exclusive (Machine.advance step c a).1 := fun c a hc ha => hc.advance ha
  constructor
  · rintro before ⟨later, rfl⟩
    exact (Machine.exec_invariant (fun c => Exclusive c.1) hstep hstart
      ((Machine.along_append before later _).mp h).1).oneWorkerEach
  · refine (Machine.Along.with_invariant (fun c => Exclusive c.1) hstep hstart h).mono ?_
    rintro c a ⟨hc, -⟩ workerId result attempt - hexecuting hsuperseded
    rw [hc.current workerId attempt hexecuting] at hsuperseded
    cases hsuperseded

end Runs

/-- A timeout that is final, and a failure that is retried. -/
theorem one_attempt_at_a_time_retried :
    let _ : FloatArith := .exact
    let objects : ℕ → TaskObject := fun ref =>
      if ref = 0 then { metadata := { timeoutPolicy := some ⟨1⟩ } }
      else { metadata := { retryPolicy := some { maxRetries := 1 } } }
    let actions := [(.plain "t0" 0, .schedule ⟨0, "a"⟩ .pass (.finite 0)),
      (.plain "t0" 0, .dispatch), (.plain "t0" 0, .start "W-001"),
      (.plain "t0" 0, .schedule ⟨1, "b"⟩ .pass (.finite 1)),
      (.plain "t1" 2, .timeout "W-001"), (.plain "t1" 2, .release), (.plain "t1" 2, .dispatch),
      (.plain "t1" 2, .start "W-002"), (.plain "t2" 3, .conclude "W-001" (.ok ())),
      (.plain "t2" 3, .conclude "W-002" (.error (.keyError "x"))), (.plain "t3" 4, .release),
      (.plain "t3" 4, .dispatch), (.plain "t3" 4, .start "W-001"),
      (.plain "t3" 4, .conclude "W-001" (.ok ()))]
    (∀ before, before <+: actions →
      (run none 2 objects before : RuntimeEngine FIFOPolicy × List Note).1.OneWorkerEach) ∧
    Machine.Along step EndsQuietly actions
      ((create none 2 objects : RuntimeEngine FIFOPolicy), []) :=
  @one_attempt_at_a_time FIFOPolicy _ .exact none 2 _ _ (by decide +kernel)

/-- The task times out and is retried while its first attempt goes on: the retry
is started beside it, or the first attempt completes the waiting task. -/
theorem one_attempt_at_a_time_overtaken :
    let _ : FloatArith := .exact
    let task : TaskHandle := ⟨0, "a"⟩
    let objects : ℕ → TaskObject := fun _ => { metadata := {
      retryPolicy := some { maxRetries := 1 }, timeoutPolicy := some ⟨1⟩ } }
    let retried := [(.plain "t0" 0, .schedule task .pass (.finite 0)), (.plain "t0" 0, .dispatch),
      (.plain "t0" 0, .start "W-001"), (.plain "t1" 2, .timeout "W-001")]
    let overtaken := retried ++ [(.plain "t2" 3, .release), (.plain "t2" 3, .dispatch),
      (.plain "t2" 3, .start "W-002")]
    let completed := retried ++ [(.plain "t2" 3, .conclude "W-001" (.ok ()))]
    ¬ (run none 2 objects overtaken : RuntimeEngine FIFOPolicy × List Note).1.OneWorkerEach ∧
      ¬ Machine.Along step EndsQuietly completed
        ((create none 2 objects : RuntimeEngine FIFOPolicy), []) := by
  constructor
  · decide +kernel
  · intro h
    have hquiet := Machine.along_iff_splits.mp h _ _ [] rfl "W-001" (.ok ())
      ⟨0, ⟨0, "a"⟩, none, true⟩ rfl (by decide +kernel) rfl
    exact absurd hquiet.1 (by decide +kernel)

end MollisRuntime.Scheduling
