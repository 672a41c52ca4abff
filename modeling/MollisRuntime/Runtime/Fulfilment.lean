import MollisRuntime.Runtime.Draining
import MollisRuntime.Scheduling.NoLoss

/-!
What becomes of the tasks in the end. The runtime comes to rest, and no task is lost
on the way; so when it rests every task that was accepted has been dealt with,
unless it is put off for ever.
-/
namespace MollisRuntime.Scheduling

open Ordered Python Persistence MinHeap
open RuntimeEngine (step create run)

namespace RuntimeEngine

variable {P : Type} [SchedulingPolicy P] [FloatArith] {sys : RuntimeEngine P}

/-- A step changes one worker at most, and a crash needs an append that raises. -/
theorem workers_perform (sys : RuntimeEngine P) (env : StepEnv) (action : Action) :
    (sys.perform env action).system.workers = sys.workers ∨
      ∃ workerId slot, (sys.perform env action).system.workers = sys.workers.set workerId slot ∧
        (env.Reliable → slot ≠ .crashed) := by
  cases action with
  | schedule task admission delay =>
    obtain ⟨queue, tracker, hsystem⟩ := sys.system_schedule env task admission delay
    exact .inl ((congrArg workers hsystem).trans rfl)
  | submitTask task title taskType metadata admission delay =>
    obtain hsystem | ⟨-, object, queue, tracker, hsystem⟩ :=
      sys.system_submitTask env task title taskType metadata admission delay
    · exact .inl ((congrArg workers hsystem).trans rfl)
    · exact .inl ((congrArg workers hsystem).trans rfl)
  | release =>
    obtain ⟨queue, tracker, hsystem⟩ := sys.system_release env
    exact .inl ((congrArg workers hsystem).trans rfl)
  | dispatch =>
    obtain ⟨queue, pool, hsystem⟩ := sys.system_dispatch env
    exact .inl ((congrArg workers hsystem).trans rfl)
  | start workerId =>
    cases hoffered : sys.offered workerId with
    | none => exact .inl (congrArg (fun o => o.system.workers) (start_idle hoffered))
    | some task =>
      obtain ⟨hslot, rest, hpool⟩ := offered_eq_some.mp hoffered
      have hset : ∃ slot, (sys.start env workerId).system.workers =
          sys.workers.set workerId slot := by
        unfold start
        rw [hslot, hpool]
        dsimp only
        split <;> exact ⟨_, rfl⟩
      obtain ⟨slot, hworkers⟩ := hset
      refine .inr ⟨workerId, slot, hworkers, fun hreliable => ?_⟩
      have hself := congrArg (fun workers => workers.get? workerId) hworkers
      rw [start_reliable hreliable hslot hpool] at hself
      change (sys.workers.set workerId _).get? workerId = _ at hself
      rw [Dict.get?_set_self, Dict.get?_set_self] at hself
      rw [← Option.some.inj hself]
      exact Slot.noConfusion
  | conclude workerId result =>
    obtain hworkers | hworkers := sys.workers_conclude env workerId result
    · exact .inl hworkers
    · exact .inr ⟨workerId, .idle, hworkers, fun _ => Slot.noConfusion⟩
  | timeout workerId =>
    cases hfiring : sys.firing env workerId with
    | none => exact .inl (congrArg (fun o => o.system.workers) (timeout_idle hfiring))
    | some attempt =>
      obtain ⟨superseded, hworkers⟩ := workers_timeout hfiring
      exact .inr ⟨workerId, _, hworkers, fun _ => Slot.noConfusion⟩
  | respawn workerId =>
    obtain hworkers | ⟨-, hworkers⟩ := sys.workers_respawn env workerId
    · exact .inl hworkers
    · exact .inr ⟨workerId, .idle, hworkers, fun _ => Slot.noConfusion⟩

/-- There is a worker, and none has crashed. -/
structure Manned (sys : RuntimeEngine P) : Prop where
  staffed : ∃ workerId slot, sys.workers.get? workerId = some slot
  running : ∀ workerId, sys.workers.get? workerId ≠ some .crashed

theorem Manned.perform (h : sys.Manned) {env : StepEnv} (hreliable : env.Reliable)
    (action : Action) : (sys.perform env action).system.Manned := by
  obtain hworkers | ⟨workerId, slot, hworkers, hslot⟩ := sys.workers_perform env action
  · exact ⟨by rw [hworkers]; exact h.staffed, by rw [hworkers]; exact h.running⟩
  · refine ⟨⟨workerId, slot, by rw [hworkers, Dict.get?_set_self]⟩, ?_⟩
    intro other hcrashed
    rw [hworkers, Dict.get?_set] at hcrashed
    split at hcrashed
    · exact hslot hreliable (Option.some.inj hcrashed)
    · exact h.running other hcrashed

omit [FloatArith] in
theorem manned_create (maxSize : Option ℤ) {poolSize : ℕ} (hsize : 0 < poolSize)
    (objects : ℕ → TaskObject) : (create maxSize poolSize objects : RuntimeEngine P).Manned := by
  constructor
  · have hworker : workerName 0 ∈ (List.range poolSize).map workerName :=
      List.mem_map_of_mem (List.mem_range.mpr hsize)
    refine ⟨workerName 0, .idle, (Dict.get?_setAll_const _ Slot.idle _ _).trans ?_⟩
    rw [if_pos hworker]
  · intro workerId hcrashed
    cases idle_of_create hcrashed

end RuntimeEngine

section Rest

variable {sys : RuntimeEngine FIFOPolicy}

/-- Where a task can still be when the runtime rests. -/
theorem RuntimeEngine.Manned.at_rest (h : sys.Manned) (hrest : ¬ sys.Busy) {ref : ℕ}
    (hheld : sys.Held ref) :
    ∃ entry ∈ sys.tracker.heap.entries, entry.key = .posInf ∧ entry.item.ref = ref := by
  have hidle : ∀ workerId slot, sys.workers.get? workerId = some slot → slot = .idle := by
    intro workerId slot hslot
    cases slot with
    | idle => rfl
    | executing attempt => exact absurd (.inl ⟨workerId, attempt, hslot⟩) hrest
    | crashed => exact absurd hslot (h.running workerId)
  obtain ⟨workerId, slot, hslot⟩ := h.staffed
  obtain rfl := hidle workerId slot hslot
  obtain ⟨task, hmem, rfl⟩ := hheld
  rcases RuntimeEngine.mem_custody.mp hmem with hqueued | hdelayed | hpooled | hrunning
  · have hqueue : sys.queue.isEmpty = false := by
      obtain ⟨entry, hentry, -⟩ := List.mem_map.mp hqueued
      exact decide_eq_false (List.length_pos_of_mem hentry).ne'
    exact absurd (.inr (.inl ⟨workerId, hslot, .inl hqueue⟩)) hrest
  · obtain ⟨entry, hentry, rfl⟩ := List.mem_map.mp hdelayed
    refine ⟨entry, hentry, ?_, rfl⟩
    by_contra hkey
    exact hrest (.inr (.inr ⟨entry, hentry, lt_of_le_of_ne (Number.le_posInf _) hkey⟩))
  · exact absurd (.inr (.inl ⟨workerId, hslot, .inr (List.ne_nil_of_mem hpooled)⟩)) hrest
  · obtain ⟨slot, hvalue, htask⟩ := List.mem_filterMap.mp hrunning
    obtain ⟨other, hother⟩ := Dict.mem_values_iff.mp hvalue
    rw [hidle other slot hother] at htask
    cases htask

variable [FloatArith]

end Rest

namespace RuntimeEngine

theorem executing_iff {sys : RuntimeEngine FIFOPolicy} :
    (∃ slot ∈ sys.workers.values, slot.task.isSome = true) ↔
      ∃ workerId attempt, sys.workers.get? workerId = some (.executing attempt) := by
  constructor
  · rintro ⟨slot, hvalue, htask⟩
    obtain ⟨workerId, hslot⟩ := Dict.mem_values_iff.mp hvalue
    cases slot with
    | executing attempt => exact ⟨workerId, attempt, hslot⟩
    | idle => cases htask
    | crashed => cases htask
  · rintro ⟨workerId, attempt, hslot⟩
    exact ⟨_, Dict.mem_values_iff.mpr ⟨workerId, hslot⟩, rfl⟩

theorem idle_iff {sys : RuntimeEngine FIFOPolicy} {p : Prop} :
    (.idle ∈ sys.workers.values ∧ p) ↔ ∃ workerId, sys.workers.get? workerId = some .idle ∧ p := by
  rw [Dict.mem_values_iff, exists_and_right]

instance (sys : RuntimeEngine FIFOPolicy) : Decidable sys.Busy :=
  decidable_of_iff _ (or_congr executing_iff (or_congr idle_iff Iff.rfl))

end RuntimeEngine

section Samples

def restObjects : ℕ → TaskObject := fun _ =>
  { metadata := { retryPolicy := some { maxRetries := 1, initialDelaySeconds := .finite 0 } } }

/-- One task is retried and fails for good, one matures and completes, one is put off
for ever. -/
def restSteps : List (StepEnv × Action) :=
  [(.plain "t0" 0, .schedule ⟨0, "a"⟩ .pass (.finite 0)), (.plain "t0" 0, .dispatch),
    (.plain "t0" 0, .start "W-001"), (.plain "t0" 0, .schedule ⟨1, "b"⟩ .pass (.finite 1)),
    (.plain "t0" 0, .schedule ⟨2, "c"⟩ .pass .posInf),
    (.plain "t1" 1, .conclude "W-001" (.error (.keyError "x"))), (.plain "t1" 1, .dispatch),
    (.plain "t1" 1, .start "W-001"), (.plain "t2" 2, .release),
    (.plain "t2" 2, .conclude "W-001" (.error (.keyError "x"))), (.plain "t2" 2, .dispatch),
    (.plain "t2" 2, .start "W-001"), (.plain "t3" 3, .conclude "W-001" (.ok ()))]

end Samples

end MollisRuntime.Scheduling
