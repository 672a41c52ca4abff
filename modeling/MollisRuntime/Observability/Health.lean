import Mathlib.Data.List.Dedup
import Mathlib.Data.List.Induction
import MollisRuntime.Persistence.EventRefinement

/-!
HealthMonitor. The monitor looks for the id of a worker in the metadata of an event. The
events of the workers carry the id in a field of their own and leave the metadata empty,
so all of them are entered under one key.
-/
namespace MollisRuntime.Observability

open Ordered Python
open Persistence (RuntimeEvent EventKind)

inductive HealthStatus
  | healthy
  | warning
  | degraded
  | unhealthy
  deriving DecidableEq, Repr

def HealthStatus.value : HealthStatus → String
  | .healthy => "Healthy"
  | .warning => "Warning"
  | .degraded => "Degraded"
  | .unhealthy => "Unhealthy"

structure HealthMonitor where
  schedulerRunning : Bool := false
  workers : Dict String String := .empty
  workflowFailures : ℕ := 0
  schedulerLastStarted : String := ""

/-- What a check finds around it: how long ago a timestamp is, unless it cannot be read;
the answer of the database, if there is one, and of the filesystem; and how a number is
written with one digit. -/
structure Surroundings where
  age : String → Option ℚ
  connection : Option (Except String Unit)
  filesystem : Except String Unit
  fixed1 : ℚ → String

inductive Reason
  | schedulerStopped
  | missedHeartbeats (workerId : String) (diff : ℚ)
  | connectionFailure (e : String)
  | filesystemFailure (e : String)
  deriving DecidableEq

def Reason.text (env : Surroundings) : Reason → String
  | .schedulerStopped => "Scheduler process is stopped."
  | .missedHeartbeats workerId diff =>
    s!"Worker '{workerId}' missed heartbeats (last seen {env.fixed1 diff}s ago)."
  | .connectionFailure e => s!"SQLite Connection Failure: {e}"
  | .filesystemFailure e => s!"Filesystem write check failed: {e}"

structure Diagnosis where
  status : HealthStatus := .healthy
  reasons : List Reason := []

def Diagnosis.add (d : Diagnosis) (status : HealthStatus) (reason : Reason) : Diagnosis :=
  ⟨status, d.reasons ++ [reason]⟩

structure HealthReport where
  status : String
  reasons : List String
  activeWorkersCount : ℕ
  workflowFailures : ℕ

namespace HealthMonitor

/-- `event.metadata.get("worker_id", "default")`, where ids are strings -/
def workerKey (e : RuntimeEvent) : String :=
  match e.metadata.get? "worker_id" with
  | some (.str id) => id
  | _ => "default"

def onEvent (m : HealthMonitor) (e : RuntimeEvent) : HealthMonitor :=
  match e.kind.name with
  | "SchedulerStarted" => { m with schedulerRunning := true, schedulerLastStarted := e.timestamp }
  | "SchedulerStopped" => { m with schedulerRunning := false }
  | "WorkerStarted" => { m with workers := m.workers.set (workerKey e) e.timestamp }
  | "WorkerStopped" => { m with workers := m.workers.erase (workerKey e) }
  | "WorkerHeartbeat" => { m with workers := m.workers.set (workerKey e) e.timestamp }
  | "WorkflowFailed" => { m with workflowFailures := m.workflowFailures + 1 }
  | _ => m

section Checks

variable (threshold : ℚ) (env : Surroundings)

def checkScheduler (m : HealthMonitor) (d : Diagnosis) : Diagnosis :=
  if m.schedulerRunning then d else d.add .degraded .schedulerStopped

/-- A timestamp that cannot be read is passed over. -/
def checkWorker (d : Diagnosis) (entry : String × String) : Diagnosis :=
  match env.age entry.2 with
  | none => d
  | some diff =>
    if diff > threshold then d.add .degraded (.missedHeartbeats entry.1 diff) else d

def checkConnection (d : Diagnosis) : Diagnosis :=
  match env.connection with
  | some (.error e) => d.add .unhealthy (.connectionFailure e)
  | _ => d

def checkFilesystem (d : Diagnosis) : Diagnosis :=
  match env.filesystem with
  | .error e => d.add .unhealthy (.filesystemFailure e)
  | .ok () => d

def diagnose (m : HealthMonitor) : Diagnosis :=
  checkFilesystem env (checkConnection env
    (m.workers.entries.foldl (checkWorker threshold env) (m.checkScheduler {})))

def checkHealth (m : HealthMonitor) : HealthReport where
  status := (m.diagnose threshold env).status.value
  reasons := (m.diagnose threshold env).reasons.map (Reason.text env)
  activeWorkersCount := m.workers.keys.length
  workflowFailures := m.workflowFailures

end Checks

end HealthMonitor

/-- What a worker tells of itself. -/
inductive Signal
  | started
  | heartbeat (heartbeatTime : String)
  | stopped
  deriving DecidableEq

/-- An event as the worker pool and the workers append it. -/
structure WorkerEvent where
  workerId : String
  signal : Signal
  timestamp : String

namespace WorkerEvent

def event (e : WorkerEvent) : RuntimeEvent where
  kind :=
    match e.signal with
    | .started => .workerStarted e.workerId
    | .heartbeat heartbeatTime => .workerHeartbeat e.workerId heartbeatTime
    | .stopped => .workerStopped e.workerId
  timestamp := e.timestamp

/-- A worker that stops is not seen any more. -/
def seen (e : WorkerEvent) : Option String :=
  match e.signal with
  | .stopped => none
  | _ => some e.timestamp

end WorkerEvent

def observe (events : List WorkerEvent) : HealthMonitor :=
  events.foldl (fun m e => m.onEvent e.event) {}

/-- When the worker was last seen, if it has reported since it last stopped: the time of
its own latest event. -/
def lastSeen (events : List WorkerEvent) (workerId : String) : Option String :=
  (events.filter fun e => e.workerId = workerId).getLast?.bind WorkerEvent.seen

/-- The workers that have reported since they last stopped. -/
def reporting (events : List WorkerEvent) : List String :=
  (events.map WorkerEvent.workerId).dedup.filter fun id => (lastSeen events id).isSome

/-- The monitor has an entry for each worker that has reported, with the time of its own
latest event; it counts these workers, and reports those that were not seen for long. -/
structure WorkersTold (threshold : ℚ) (env : Surroundings) (events : List WorkerEvent)
    (m : HealthMonitor) : Prop where
  entries : ∀ id, m.workers.get? id = lastSeen events id
  counted : (m.checkHealth threshold env).activeWorkersCount = (reporting events).length
  missed : ∀ id, (∃ diff, Reason.missedHeartbeats id diff ∈ (m.diagnose threshold env).reasons) ↔
    ∃ time diff, lastSeen events id = some time ∧ env.age time = some diff ∧ diff > threshold

section Reports

variable {threshold : ℚ} {env : Surroundings}

theorem mem_checkWorker (entry : String × String) (d : Diagnosis) (id : String) (diff : ℚ) :
    .missedHeartbeats id diff ∈ (HealthMonitor.checkWorker threshold env d entry).reasons ↔
      .missedHeartbeats id diff ∈ d.reasons ∨
        entry.1 = id ∧ env.age entry.2 = some diff ∧ diff > threshold := by
  unfold HealthMonitor.checkWorker
  cases hage : env.age entry.2 with
  | none => simp
  | some age =>
    by_cases hlong : age > threshold
    · simp only [if_pos hlong, Diagnosis.add, List.mem_append, List.mem_singleton,
        Reason.missedHeartbeats.injEq, Option.some.injEq]
      refine or_congr_right ⟨?_, ?_⟩
      · rintro ⟨rfl, rfl⟩
        exact ⟨rfl, rfl, hlong⟩
      · rintro ⟨rfl, rfl, -⟩
        exact ⟨rfl, rfl⟩
    · simp only [if_neg hlong, Option.some.injEq]
      refine ⟨Or.inl, ?_⟩
      rintro (h | ⟨-, rfl, habove⟩)
      · exact h
      · exact absurd habove hlong

theorem mem_checkWorkers (entries : List (String × String)) (d : Diagnosis) (id : String)
    (diff : ℚ) :
    .missedHeartbeats id diff ∈
        (entries.foldl (HealthMonitor.checkWorker threshold env) d).reasons ↔
      .missedHeartbeats id diff ∈ d.reasons ∨
        ∃ time, (id, time) ∈ entries ∧ env.age time = some diff ∧ diff > threshold := by
  induction entries generalizing d with
  | nil => simp
  | cons entry rest ih =>
    obtain ⟨key, time⟩ := entry
    rw [List.foldl_cons, ih, mem_checkWorker, or_assoc]
    refine or_congr_right ⟨?_, ?_⟩
    · rintro (⟨rfl, h⟩ | ⟨other, hmem, h⟩)
      · exact ⟨time, List.mem_cons_self, h⟩
      · exact ⟨other, List.mem_cons_of_mem _ hmem, h⟩
    · rintro ⟨other, hmem, h⟩
      rcases List.mem_cons.mp hmem with heq | hmem
      · obtain ⟨rfl, rfl⟩ := Prod.mk.inj heq
        exact .inl ⟨rfl, h⟩
      · exact .inr ⟨other, hmem, h⟩

/-- The missed heartbeats of a report are those of the entries. -/
theorem mem_diagnose (m : HealthMonitor) (id : String) (diff : ℚ) :
    .missedHeartbeats id diff ∈ (m.diagnose threshold env).reasons ↔
      ∃ time, m.workers.get? id = some time ∧ env.age time = some diff ∧ diff > threshold := by
  have hconnection (d : Diagnosis) :
      .missedHeartbeats id diff ∈ (HealthMonitor.checkConnection env d).reasons ↔
        .missedHeartbeats id diff ∈ d.reasons := by
    unfold HealthMonitor.checkConnection
    split <;> simp [Diagnosis.add]
  have hfilesystem (d : Diagnosis) :
      .missedHeartbeats id diff ∈ (HealthMonitor.checkFilesystem env d).reasons ↔
        .missedHeartbeats id diff ∈ d.reasons := by
    unfold HealthMonitor.checkFilesystem
    split <;> simp [Diagnosis.add]
  have hscheduler : .missedHeartbeats id diff ∉ (m.checkScheduler {}).reasons := by
    unfold HealthMonitor.checkScheduler
    split <;> simp [Diagnosis.add]
  rw [HealthMonitor.diagnose, hfilesystem, hconnection, mem_checkWorkers, or_iff_right hscheduler]
  simp only [Dict.mem_entries_iff]

variable {events : List WorkerEvent}

theorem lastSeen_of_notMem {id : String} (h : id ∉ events.map WorkerEvent.workerId) :
    lastSeen events id = none := by
  have hnone : events.filter (fun e => e.workerId = id) = [] := by
    rw [List.filter_eq_nil_iff]
    intro e he hid
    exact h (of_decide_eq_true hid ▸ List.mem_map_of_mem he)
  rw [lastSeen, hnone]
  rfl

theorem mem_reporting {id : String} : id ∈ reporting events ↔ (lastSeen events id).isSome := by
  rw [reporting, List.mem_filter, List.mem_dedup, and_iff_right_iff_imp]
  intro hseen
  by_contra hmem
  rw [lastSeen_of_notMem hmem] at hseen
  cases hseen

theorem nodup_reporting : (reporting events).Nodup := (List.nodup_dedup _).filter _

/-- An entry for each of the workers is all that is asked. -/
theorem workersTold_iff {m : HealthMonitor} :
    WorkersTold threshold env events m ↔ ∀ id, m.workers.get? id = lastSeen events id := by
  refine ⟨WorkersTold.entries, fun h => ⟨h, ?_, fun id => ?_⟩⟩
  · refine ((List.perm_ext_iff_of_nodup m.workers.nodup_keys' nodup_reporting).mpr ?_).length_eq
    intro id
    rw [mem_reporting, m.workers.mem_keys_iff, h, Option.isSome_iff_exists]
  · simp only [mem_diagnose, h]
    exact exists_comm

end Reports

section Events

variable (events : List WorkerEvent)

theorem observe_snoc (e : WorkerEvent) :
    observe (events ++ [e]) = (observe events).onEvent e.event := List.foldl_concat ..

theorem lastSeen_snoc (e : WorkerEvent) (id : String) :
    lastSeen (events ++ [e]) id = if e.workerId = id then e.seen else lastSeen events id := by
  unfold lastSeen
  rw [List.filter_append]
  by_cases h : e.workerId = id <;> simp [h]

/-- Whatever worker an event is of, it writes or removes the entry "default". -/
theorem get?_onEvent (m : HealthMonitor) (e : WorkerEvent) (id : String) :
    (m.onEvent e.event).workers.get? id =
      if id = "default" then e.seen else m.workers.get? id := by
  obtain ⟨workerId, signal, timestamp⟩ := e
  cases signal with
  | stopped =>
    change (m.workers.erase "default").get? id = _
    rw [Dict.get?_erase]
    by_cases hid : id = "default" <;> simp [hid, Ne.symm, WorkerEvent.seen]
  | _ =>
    change (m.workers.set "default" timestamp).get? id = _
    rw [Dict.get?_set]
    by_cases hid : id = "default" <;> simp [hid, Ne.symm, WorkerEvent.seen]

/-- All workers share one entry, and the last event of any of them decides. -/
theorem get?_observe (id : String) :
    (observe events).workers.get? id =
      if id = "default" then events.getLast?.bind WorkerEvent.seen else none := by
  induction events using List.reverseRecOn with
  | nil => exact (ite_self _).symm
  | append_singleton rest e ih =>
    rw [observe_snoc, get?_onEvent, ih, List.getLast?_concat, Option.bind_some]
    split <;> rfl

/-- Whoever has reported since it last stopped is the worker of the last event. -/
def LastAlone : Prop :=
  ∀ id, lastSeen events id ≠ none → events.getLast?.map WorkerEvent.workerId = some id

variable {events}

theorem lastSeen_of_getLast? {e : WorkerEvent} (h : events.getLast? = some e) :
    lastSeen events e.workerId = e.seen := by
  obtain ⟨rest, rfl⟩ := List.getLast?_eq_some_iff.mp h
  rw [lastSeen_snoc, if_pos rfl]

/-- The one that may have reported was last seen when any of them was. -/
theorem LastAlone.lastSeen (h : LastAlone events) {id time : String}
    (hseen : lastSeen events id = some time) :
    events.getLast?.bind WorkerEvent.seen = some time := by
  have hlast := h id (hseen ▸ Option.some_ne_none time)
  obtain ⟨e, he, rfl⟩ := Option.map_eq_some_iff.mp hlast
  rw [he, Option.bind_some, ← lastSeen_of_getLast? he, hseen]

theorem seen_of_getLast? {time : String} (h : events.getLast?.bind WorkerEvent.seen = some time) :
    ∃ e, events.getLast? = some e ∧ Observability.lastSeen events e.workerId = some time := by
  obtain ⟨e, he, hseen⟩ := Option.bind_eq_some_iff.mp h
  exact ⟨e, he, (lastSeen_of_getLast? he).trans hseen⟩

/-- The monitor has one entry, or none. -/
theorem length_keys_observe :
    (observe events).workers.keys.length =
      (events.getLast?.bind WorkerEvent.seen).toList.length := by
  have hkeys : (observe events).workers.keys.Perm
      ((events.getLast?.bind WorkerEvent.seen).toList.map fun _ => "default") := by
    rw [List.perm_ext_iff_of_nodup (Dict.nodup_keys' _) (by
      cases events.getLast?.bind WorkerEvent.seen <;> simp)]
    intro id
    rw [Dict.mem_keys_iff]
    simp only [get?_observe]
    cases events.getLast?.bind WorkerEvent.seen with
    | none => simp
    | some time => by_cases hid : id = "default" <;> simp [hid]
  rw [hkeys.length_eq, List.length_map]

theorem LastAlone.reporting_perm (h : LastAlone events) {e : WorkerEvent} {time : String}
    (he : events.getLast? = some e) (hown : Observability.lastSeen events e.workerId = some time) :
    (reporting events).Perm [e.workerId] := by
  rw [List.perm_ext_iff_of_nodup nodup_reporting (List.nodup_singleton _)]
  intro id
  rw [mem_reporting, List.mem_singleton]
  constructor
  · intro hid
    have hlast := h id (Option.isSome_iff_ne_none.mp hid)
    rw [he, Option.map_some] at hlast
    exact (Option.some.inj hlast).symm
  · rintro rfl
    rw [hown]
    rfl

/-- There are as many workers to be seen as the last event shows. -/
theorem length_reporting_iff :
    (reporting events).length = (events.getLast?.bind WorkerEvent.seen).toList.length ↔
      LastAlone events := by
  cases hlast : events.getLast?.bind WorkerEvent.seen with
  | none =>
    rw [Option.toList_none, List.length_nil, List.length_eq_zero_iff,
      List.eq_nil_iff_forall_not_mem]
    simp only [mem_reporting, Option.isSome_iff_ne_none]
    constructor
    · intro hnone id hseen
      exact absurd hseen (hnone id)
    · intro halone id hseen
      obtain ⟨time, htime⟩ := Option.ne_none_iff_exists'.mp hseen
      cases hlast.symm.trans (halone.lastSeen htime)
  | some time =>
    obtain ⟨e, he, hown⟩ := seen_of_getLast? hlast
    refine ⟨fun hone id hseen => ?_, fun halone => (halone.reporting_perm he hown).length_eq⟩
    obtain ⟨other, hother⟩ := List.length_eq_one_iff.mp hone
    have hmem : e.workerId ∈ reporting events := by
      rw [mem_reporting, hown]
      rfl
    have hid := mem_reporting.mpr (Option.isSome_iff_ne_none.mpr hseen)
    rw [hother, List.mem_singleton] at hmem hid
    rw [he, Option.map_some, hmem, hid]

variable (threshold : ℚ) (env : Surroundings) (events)

/-- The number of the workers is right exactly where no other worker has reported than the
one of the last event. -/
theorem counted_iff :
    ((observe events).checkHealth threshold env).activeWorkersCount = (reporting events).length ↔
      LastAlone events := by
  rw [← length_reporting_iff, HealthMonitor.checkHealth, length_keys_observe]
  exact eq_comm

/-- The monitor tells of the workers what their events do exactly where nobody has reported
since it last stopped but a worker called "default", of which the last event is. -/
theorem workersTold_observe_iff :
    WorkersTold threshold env events (observe events) ↔
      LastAlone events ∧ ∀ id, Observability.lastSeen events id ≠ none → id = "default" := by
  rw [workersTold_iff]
  simp only [get?_observe]
  constructor
  · intro h
    have hdefault (id : String) (hseen : Observability.lastSeen events id ≠ none) :
        id = "default" := by
      by_contra hid
      exact hseen (((if_neg hid).symm.trans (h id)).symm)
    refine ⟨fun id hseen => ?_, hdefault⟩
    obtain rfl := hdefault id hseen
    obtain ⟨time, htime⟩ := Option.ne_none_iff_exists'.mp hseen
    have hlast := h "default"
    rw [if_pos rfl, htime] at hlast
    obtain ⟨e, he, hown⟩ := seen_of_getLast? hlast
    rw [he, Option.map_some, hdefault e.workerId (hown ▸ Option.some_ne_none time)]
  · rintro ⟨hlast, hdefault⟩ id
    cases hseen : Observability.lastSeen events id with
    | some time =>
      have hid := hdefault id (hseen ▸ Option.some_ne_none time)
      rw [if_pos hid, hlast.lastSeen hseen]
    | none =>
      split
      next hid =>
        rw [Option.eq_none_iff_forall_ne_some]
        intro time htime
        obtain ⟨e, -, hown⟩ := seen_of_getLast? htime
        rw [hdefault e.workerId (hown ▸ Option.some_ne_none time), ← hid, hseen] at hown
        cases hown
      next => rfl

/-- Two workers start and one of them stops: the other one is not seen any more. -/
theorem stop_erases_all :
    let events : List WorkerEvent :=
      [⟨"W-001", .started, "2024-01-01T00:00:00"⟩, ⟨"W-002", .started, "2024-01-01T00:00:01"⟩,
        ⟨"W-001", .stopped, "2024-01-01T00:00:02"⟩]
    let env : Surroundings :=
      { age := fun _ => some 60
        connection := none
        filesystem := .ok ()
        fixed1 := fun _ => "60.0" }
    ¬ WorkersTold 10 env events (observe events) ∧ reporting events = ["W-002"] ∧
      ((observe events).checkHealth 10 env).activeWorkersCount = 0 := by
  intro events env
  have hcount : ((observe events).checkHealth 10 env).activeWorkersCount = 0 := by decide +kernel
  have hreporting : reporting events = ["W-002"] := by decide +kernel
  refine ⟨fun h => ?_, hreporting, hcount⟩
  have hcounted := h.counted
  rw [hcount, hreporting] at hcounted
  cases hcounted

end Events

end MollisRuntime.Observability
