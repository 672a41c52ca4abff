import MollisRuntime.Persistence.Completeness
import MollisRuntime.Persistence.Overlap

/-!
What applying the boundary events twice does change: the failures of a worker are
counted again, and ids that the boundary events remove from the queue move behind
the others. The difference remains unless the worker starts anew, in the boundary
or later, or one of two ids that changed places is removed by the later events.
-/
namespace MollisRuntime.Persistence

open Ordered Python RecoveryManager Overwriting

/-- Fields of a worker that an event sets, and whether it counts a failure. -/
structure WorkerPatch where
  state : Option String := none
  heartbeatTime : Option String := none
  failed : Bool := false

namespace WorkerPatch

/-- Without the counting. -/
def setFields (w : WorkerStateSnapshot) (p : WorkerPatch) : WorkerStateSnapshot :=
  { w with
    state := p.state.getD w.state
    heartbeatTime := p.heartbeatTime.getD w.heartbeatTime }

def apply (w : WorkerStateSnapshot) (p : WorkerPatch) : WorkerStateSnapshot :=
  { setFields w p with failures := if p.failed then w.failures + 1 else w.failures }

end WorkerPatch

section Changes

/-- What an event does to the entry of one worker. -/
def workerChange (e : RuntimeEvent) :
    Option (String × Change WorkerStateSnapshot WorkerPatch) :=
  match e.kind with
  | .workerStarted workerId => some (workerId, .put {
      workerId
      state := "idle"
      currentTaskId := none
      heartbeatTime := e.timestamp
      tasksProcessed := 0
      failures := 0
      startTime := e.timestamp })
  | .workerStopped workerId => some (workerId, .patch { state := some "stopped" })
  | .workerHeartbeat workerId heartbeatTime =>
      some (workerId, .patch { heartbeatTime := some heartbeatTime })
  | .workerFailed workerId _ =>
      some (workerId, .patch { state := some "failed", failed := true })
  | .workerRecovered workerId => some (workerId, .patch { state := some "idle" })
  | _ => none

def workerStep (f : String → Option WorkerStateSnapshot) (e : RuntimeEvent) :
    String → Option WorkerStateSnapshot :=
  maybe (keyed (change WorkerPatch.apply)) f (workerChange e)

theorem workers_apply (r : Reconstruction) (e : RuntimeEvent) :
    (r.apply e).workers.get? = workerStep r.workers.get? e := by
  obtain ⟨kind, timestamp, metadata⟩ := e
  cases kind with
  | workerStarted => exact get?_set_update _ _ _
  | workerStopped | workerHeartbeat | workerFailed | workerRecovered =>
    exact get?_replaceAt_update _ _ _
  | retryScheduled taskId =>
    dsimp only [Reconstruction.apply]
    split <;> rfl
  | _ => rfl

end Changes

section Counting

/-- A worker without its failures. -/
def WorkerStateSnapshot.core (w : WorkerStateSnapshot) : WorkerStateSnapshot :=
  { w with failures := 0 }

theorem worker_ext {w w' : WorkerStateSnapshot} (hfailures : w.failures = w'.failures)
    (hcore : w.core = w'.core) : w = w' := by
  cases w
  cases w'
  simp only [WorkerStateSnapshot.core, WorkerStateSnapshot.mk.injEq] at hcore
  obtain ⟨rfl, rfl, rfl, rfl, rfl, _, rfl, rfl⟩ := hcore
  cases hfailures
  rfl

theorem setFields_overwrites : Overwrites WorkerPatch.setFields := by
  have hfields := (overwrites_getD.comap WorkerPatch.state).prod
    ((overwrites_getD.comap WorkerPatch.heartbeatTime).prod
      (overwrites_skip
        (σ := String × Option String × ℤ × ℤ × String × ℤ) (α := WorkerPatch)))
  refine hfields.of_injective (fun w => (w.state, w.heartbeatTime, w.workerId,
    w.currentTaskId, w.tasksProcessed, w.failures, w.startTime, w.version)) ?_ (fun _ _ => rfl)
  intro w w' hww
  cases w
  cases w'
  simp only [Prod.mk.injEq] at hww
  obtain ⟨rfl, rfl, rfl, rfl, rfl, rfl, rfl, rfl⟩ := hww
  rfl

theorem core_foldl (ps : List WorkerPatch) (w : WorkerStateSnapshot) :
    (ps.foldl WorkerPatch.apply w).core = ps.foldl WorkerPatch.setFields w.core :=
  (List.foldl_hom WorkerStateSnapshot.core fun _ _ => rfl).symm

theorem failures_foldl (ps : List WorkerPatch) (w : WorkerStateSnapshot) :
    (ps.foldl WorkerPatch.apply w).failures = w.failures + ps.countP WorkerPatch.failed := by
  induction ps generalizing w with
  | nil => simp
  | cons p rest ih =>
    rw [List.foldl_cons, ih, List.countP_cons]
    cases hp : p.failed with
    | false => simp [WorkerPatch.apply, hp]
    | true =>
      simp [WorkerPatch.apply, hp]
      omega

/-- Patches that a worker has been through make no difference before others
exactly if they count no failure. -/
theorem patches_again_iff (ps later : List WorkerPatch) (w : WorkerStateSnapshot) :
    later.foldl WorkerPatch.apply (ps.foldl WorkerPatch.apply (ps.foldl WorkerPatch.apply w)) =
        later.foldl WorkerPatch.apply (ps.foldl WorkerPatch.apply w) ↔
      ∀ p ∈ ps, p.failed = false := by
  constructor
  · intro hsame
    have hfailures := congrArg WorkerStateSnapshot.failures hsame
    simp only [failures_foldl] at hfailures
    have hzero : ps.countP WorkerPatch.failed = 0 := by omega
    intro p hp
    simpa using List.countP_eq_zero.mp hzero p hp
  · intro hnone
    have hzero : ps.countP WorkerPatch.failed = 0 :=
      List.countP_eq_zero.mpr fun p hp => by simp [hnone p hp]
    apply worker_ext
    · simp only [failures_foldl, hzero]
      simp
    · simp only [core_foldl, setFields_overwrites.foldl_idem]

end Counting

section Histories

variable (k : String) (events more : List RuntimeEvent)

def StartedIn : Prop := ∃ e ∈ events, e.kind = .workerStarted k

def FailedIn : Prop := ∃ e ∈ events, ∃ message, e.kind = .workerFailed k message

/-- Dequeued, completed, failed, cancelled or timed out. -/
def RemovedIn : Prop := ∃ e ∈ events, queueOp e = some (.drop k)

/-- What the events do to one worker, in their order. -/
def changesOf : List (Change WorkerStateSnapshot WorkerPatch) :=
  (events.filterMap workerChange).filterMap fun kc => if kc.1 = k then some kc.2 else none

theorem changesOf_append :
    changesOf k (events ++ more) = changesOf k events ++ changesOf k more := by
  simp [changesOf]

theorem worker_foldl (r : Reconstruction) :
    (events.foldl Reconstruction.apply r).workers.get? k =
      (changesOf k events).foldl (change WorkerPatch.apply) (r.workers.get? k) := by
  have hview : (events.foldl Reconstruction.apply r).workers.get? =
      events.foldl workerStep r.workers.get? :=
    (List.foldl_hom (fun r : Reconstruction => r.workers.get?)
      fun r e => (workers_apply r e).symm).symm
  rw [hview, changesOf, ← foldl_keyed, ← foldl_maybe]
  rfl

variable {k events}

theorem mem_changesOf {c : Change WorkerStateSnapshot WorkerPatch} :
    c ∈ changesOf k events ↔ ∃ e ∈ events, workerChange e = some (k, c) := by
  unfold changesOf
  constructor
  · intro hc
    obtain ⟨⟨j, d⟩, hd, hkey⟩ := List.mem_filterMap.mp hc
    obtain ⟨e, he, hchange⟩ := List.mem_filterMap.mp hd
    dsimp only at hkey
    split at hkey
    · rename_i hj
      cases hkey
      cases hj
      exact ⟨e, he, hchange⟩
    · cases hkey
  · rintro ⟨e, he, hchange⟩
    exact List.mem_filterMap.mpr ⟨(k, c), List.mem_filterMap.mpr ⟨e, he, hchange⟩, by simp⟩

/-- Only starting writes a new entry. -/
theorem startedIn_iff : StartedIn k events ↔ ∃ w, Change.put w ∈ changesOf k events := by
  constructor
  · rintro ⟨e, he, hkind⟩
    exact ⟨_, mem_changesOf.mpr ⟨e, he, by simp only [workerChange, hkind]; rfl⟩⟩
  · rintro ⟨w, hw⟩
    obtain ⟨e, he, hchange⟩ := mem_changesOf.mp hw
    refine ⟨e, he, ?_⟩
    unfold workerChange at hchange
    split at hchange <;> cases hchange
    assumption

theorem failedIn_iff :
    FailedIn k events ↔ ∃ p ∈ patches (changesOf k events), p.failed = true := by
  constructor
  · rintro ⟨e, he, message, hkind⟩
    refine ⟨{ state := some "failed", failed := true },
      mem_patches.mpr (mem_changesOf.mpr ⟨e, he, ?_⟩), rfl⟩
    simp only [workerChange, hkind]
  · rintro ⟨p, hp, hfailed⟩
    obtain ⟨e, he, hchange⟩ := mem_changesOf.mp (mem_patches.mp hp)
    refine ⟨e, he, ?_⟩
    unfold workerChange at hchange
    split at hchange <;> cases hchange <;> first
      | exact ⟨_, by assumption⟩
      | cases hfailed

end Histories

namespace Checkpointing

variable (c : Checkpointing)

/-- One worker is the same in both recoveries unless the boundary counts a
failure of it again and no later start resets the count. -/
theorem worker_overlap_iff (k : String) :
    (c.later.foldl Reconstruction.apply
        (c.boundary.foldl Reconstruction.apply c.reached)).workers.get? k =
      (c.later.foldl Reconstruction.apply c.reached).workers.get? k ↔
      (StartedIn k c.before → FailedIn k c.boundary →
        StartedIn k c.boundary ∨ StartedIn k c.later) := by
  obtain ⟨front, hfront⟩ := c.before_split
  have hreached : c.reached.workers.get? k = (changesOf k c.boundary).foldl
      (change WorkerPatch.apply) ((changesOf k front).foldl (change WorkerPatch.apply) none) := by
    rw [reached, worker_foldl, hfront, changesOf_append, List.foldl_append]
    rfl
  rw [worker_foldl, worker_foldl, worker_foldl, hreached]
  generalize hentry : (changesOf k front).foldl (change WorkerPatch.apply) none = entry
  by_cases hboundary : StartedIn k c.boundary
  · have hreset : ∀ o o' : Option WorkerStateSnapshot,
        (changesOf k c.boundary).foldl (change WorkerPatch.apply) o =
          (changesOf k c.boundary).foldl (change WorkerPatch.apply) o' :=
      foldl_change_put (startedIn_iff.mp hboundary)
    rw [hreset _ entry]
    exact iff_of_true rfl fun _ _ => Or.inl hboundary
  · by_cases hlater : StartedIn k c.later
    · exact iff_of_true (foldl_change_put (startedIn_iff.mp hlater) _ _)
        fun _ _ => Or.inr hlater
    · have hput : ∀ {events}, ¬ StartedIn k events → ∀ w, Change.put w ∉ changesOf k events :=
        fun hevents w hw => hevents (startedIn_iff.mpr ⟨w, hw⟩)
      have hstarted : StartedIn k c.before ↔ entry.isSome = true := by
        have hbefore : StartedIn k c.before ↔ StartedIn k front := by
          simp only [StartedIn, hfront, List.mem_append, or_and_right, exists_or]
          exact or_iff_left hboundary
        rw [hbefore, startedIn_iff, ← hentry, isSome_foldl_change]
        simp
      simp only [foldl_change_patches (hput hboundary), foldl_change_patches (hput hlater)]
      rw [hstarted, failedIn_iff]
      cases entry with
      | none => simp
      | some w =>
        simp only [Option.map_some, Option.some.injEq, patches_again_iff, Option.isSome_some,
          hboundary, hlater]
        simp

theorem dropped_iff {k : String} {events : List RuntimeEvent} :
    UniqueQueue.dropped (events.filterMap queueOp) k = true ↔ RemovedIn k events := by
  unfold UniqueQueue.dropped RemovedIn
  rw [decide_eq_true_iff, List.mem_filterMap]

/-- The queue is the same in both recoveries exactly if the later events remove
one of any two ids that the boundary events put in the other order. -/
theorem order_overlap_iff :
    (c.later.foldl Reconstruction.apply
        (c.boundary.foldl Reconstruction.apply c.reached)).queuedTaskIds =
      (c.later.foldl Reconstruction.apply c.reached).queuedTaskIds ↔
      c.state.queue.queuedTaskIds.Pairwise fun a b =>
        RemovedIn a c.boundary → ¬ RemovedIn b c.boundary →
          RemovedIn a c.later ∨ RemovedIn b c.later := by
  obtain ⟨front, hnodup, hreached⟩ := c.ids_reached queued_apply rfl
  have hstate : c.state.queue.queuedTaskIds = c.reached.queuedTaskIds := by
    rw [c.state_eq]
    rfl
  rw [hstate, ids_foldl queued_apply, ids_foldl queued_apply, ids_foldl queued_apply, hreached,
    UniqueQueue.run_run_eq_iff hnodup]
  simp only [dropped_iff, ← Bool.not_eq_true]

/-- Failures in the boundary are reset by a start, in it or later; and the later
events remove one of any two queued ids that the boundary events reversed. -/
structure Settled : Prop where
  workers : ∀ k, StartedIn k c.before → FailedIn k c.boundary →
    StartedIn k c.boundary ∨ StartedIn k c.later
  order : c.state.queue.queuedTaskIds.Pairwise fun a b =>
    RemovedIn a c.boundary → ¬ RemovedIn b c.boundary →
      RemovedIn a c.later ∨ RemovedIn b c.later

end Checkpointing

/-- The parts of a recovered state on which repetition shows. -/
structure SameWorkersAndOrder (s s' : RuntimeState) : Prop where
  workers : s.workers.SameItems s'.workers
  order : s.queue.queuedTaskIds = s'.queue.queuedTaskIds

/-- The recovery from the snapshot has the workers and the queue of the recovery
from genesis exactly if the boundary is settled. -/
theorem workers_and_order_agree_iff (c : Checkpointing) (clock clock' : Clock) :
    ∃ s s', recoveredState c.reopened .fromLatestSnapshot clock = .ok s ∧
      recoveredState c.reopened .fromGenesis clock' = .ok s' ∧
      (SameWorkersAndOrder s s' ↔ c.Settled) := by
  refine ⟨_, _, c.recovered_snapshot clock, c.recovered_genesis clock', ?_⟩
  constructor
  · rintro ⟨hworkers, horder⟩
    exact ⟨fun k => (c.worker_overlap_iff k).mp (hworkers k), c.order_overlap_iff.mp horder⟩
  · rintro ⟨hworkers, horder⟩
    exact ⟨fun k => (c.worker_overlap_iff k).mpr (hworkers k), c.order_overlap_iff.mpr horder⟩

section Samples

theorem eq_ok_getD {α : Type} {x : Except PyError α} (h : x.isOk = true) (d : α) :
    x = .ok (x.toOption.getD d) := by
  cases x with
  | error e => cases h
  | ok a => rfl

/-- A worker has started and crashed; the snapshot carries the time of the crash. -/
def crashLog : EventStore where
  events := [
    { kind := .workerStarted "W-001", timestamp := "2025-12-31T23:59:00" },
    { kind := .workerFailed "W-001" "Worker thread crashed", timestamp := snapshotTime.val }]
  serialisable := by decide

def crashStore : StateStore := { eventStore := crashLog }

def crashState : RuntimeState :=
  ((crashLog.stream 100000).foldl Reconstruction.apply
    (.unpack (genesisState sampleClock.starting))).pack (genesisState sampleClock.starting)
      sampleClock.packing

/-- Nothing happens after the snapshot. -/
def crashCheckpointing : Checkpointing where
  store := crashStore
  clock := sampleClock
  state := crashState
  recovered := rfl
  stamp := snapshotTime
  saved := (crashStore.saveRuntimeState
    { crashState with timestamp := snapshotTime.val }).toOption.getD {}
  saves := eq_ok_getD (by decide +kernel) {}
  log := crashLog
  later := []
  continues := rfl
  bounded := by decide
  ordered := by decide
  past := by decide
  future := by decide
  window := by decide

def failuresOf (recovered : Except PyError RuntimeState) : Option (Option ℤ) :=
  recovered.toOption.map fun s => (s.workers.get? "W-001").map WorkerStateSnapshot.failures

/-- The recovery from the snapshot counts the crash twice. -/
theorem not_workers_and_order_agree : ¬ ∀ (c : Checkpointing) (clock clock' : Clock),
    ∃ s s', recoveredState c.reopened .fromLatestSnapshot clock = .ok s ∧
      recoveredState c.reopened .fromGenesis clock' = .ok s' ∧ SameWorkersAndOrder s s' := by
  intro h
  obtain ⟨s, s', hs, hs', hworkers, _⟩ := h crashCheckpointing sampleClock sampleClock
  have htwice : failuresOf (recoveredState crashCheckpointing.reopened .fromLatestSnapshot
      sampleClock) = some (some 2) := by decide +kernel
  have honce : failuresOf (recoveredState crashCheckpointing.reopened .fromGenesis
      sampleClock) = some (some 1) := by decide +kernel
  rw [hs, failuresOf] at htwice
  rw [hs', failuresOf] at honce
  simp only [Except.toOption, Option.map_some, Option.some.injEq, hworkers "W-001"] at htwice
  simp only [Except.toOption, Option.map_some, Option.some.injEq] at honce
  rw [honce] at htwice
  cases htwice

end Samples

end MollisRuntime.Persistence
