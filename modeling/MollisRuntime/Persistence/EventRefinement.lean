import Mathlib.Data.List.Forall2
import MollisRuntime.Persistence.EventLog
import MollisRuntime.Persistence.Events

/-!
The event store of the rest of the development keeps of an event its kind, its
timestamp and its metadata. Here an event of that store is given its other fields,
and the table of the SQLite store is shown to do what that store says.
-/
namespace MollisRuntime.Persistence

open Ordered Python Database

/-- A float of the code, written as one. -/
def encodeNumber : Number → Value
  | .negInf => .infinity true
  | .finite q => .float q
  | .posInf => .infinity false

namespace EventKind

/-- `self.__class__.__name__` -/
def name : EventKind → String
  | .taskSubmitted .. => "TaskSubmitted"
  | .taskQueued _ => "TaskQueued"
  | .taskDequeued _ => "TaskDequeued"
  | .taskStarted _ => "TaskStarted"
  | .taskCompleted _ => "TaskCompleted"
  | .taskFailed .. => "TaskFailed"
  | .taskCancelled _ => "TaskCancelled"
  | .taskTimedOut _ => "TaskTimedOut"
  | .taskRetried .. => "TaskRetried"
  | .workerStarted _ => "WorkerStarted"
  | .workerStopped _ => "WorkerStopped"
  | .workerHeartbeat .. => "WorkerHeartbeat"
  | .workerFailed .. => "WorkerFailed"
  | .workerRecovered _ => "WorkerRecovered"
  | .schedulerStarted => "SchedulerStarted"
  | .schedulerStopped => "SchedulerStopped"
  | .retryScheduled .. => "RetryScheduled"
  | .timeoutTriggered .. => "TimeoutTriggered"
  | .delayedTaskReleased _ => "DelayedTaskReleased"
  | .runtimeStarted => "RuntimeStarted"
  | .runtimeStopped => "RuntimeStopped"
  | .runtimeRecovered => "RuntimeRecovered"
  | .snapshotCreated _ => "SnapshotCreated"
  | .snapshotLoaded _ => "SnapshotLoaded"

/-- The fields that the class adds, with their values. -/
def fields : EventKind → List (String × Value)
  | .taskSubmitted taskId title taskType =>
    [("task_id", .str taskId), ("title", .str title), ("task_type", .str taskType)]
  | .taskQueued taskId | .taskDequeued taskId | .taskStarted taskId | .taskCompleted taskId
  | .taskCancelled taskId | .taskTimedOut taskId | .delayedTaskReleased taskId =>
    [("task_id", .str taskId)]
  | .taskFailed taskId errorMessage =>
    [("task_id", .str taskId), ("error_message", .str errorMessage)]
  | .taskRetried taskId retryCount => [("task_id", .str taskId), ("retry_count", .int retryCount)]
  | .workerStarted workerId | .workerStopped workerId | .workerRecovered workerId =>
    [("worker_id", .str workerId)]
  | .workerHeartbeat workerId heartbeatTime =>
    [("worker_id", .str workerId), ("heartbeat_time", .str heartbeatTime)]
  | .workerFailed workerId errorMessage =>
    [("worker_id", .str workerId), ("error_message", .str errorMessage)]
  | .schedulerStarted | .schedulerStopped | .runtimeStarted | .runtimeStopped
  | .runtimeRecovered => []
  | .retryScheduled taskId delaySeconds =>
    [("task_id", .str taskId), ("delay_seconds", encodeNumber delaySeconds)]
  | .timeoutTriggered taskId timeoutSeconds =>
    [("task_id", .str taskId), ("timeout_seconds", .float timeoutSeconds)]
  | .snapshotCreated snapshotId | .snapshotLoaded snapshotId =>
    [("snapshot_id", .str snapshotId)]

def cls (kind : EventKind) : EventClass := ⟨kind.name, kind.fields.map Prod.fst⟩

theorem cls_mem_registry (kind : EventKind) : kind.cls ∈ EventClass.registry := by
  cases kind <;> simp [cls, name, fields, EventClass.registry]

theorem isJson_fields (kind : EventKind) : ∀ f ∈ kind.fields, f.2.isJson = true := by
  cases kind with
  | retryScheduled taskId delaySeconds =>
    cases delaySeconds <;> simp [fields, encodeNumber, Value.isJson]
  | _ => simp [fields]

end EventKind

/-- The fields of an event that the rest of the development does not look at. -/
structure EventHeader where
  eventId : String
  runtimeId : String
  correlationId : Option String
  causationId : Option String
  version : ℤ

namespace RuntimeEvent

def record (header : EventHeader) (e : RuntimeEvent) : EventRecord where
  cls := e.kind.cls
  eventId := header.eventId
  runtimeId := header.runtimeId
  correlationId := header.correlationId
  causationId := header.causationId
  timestamp := e.timestamp
  version := header.version
  metadata := e.metadata
  own := fun f => (lookup f.1 e.kind.fields).getD .none

theorem registered_record (header : EventHeader) (e : RuntimeEvent) :
    (e.record header).Registered := ⟨e.kind.cls_mem_registry, rfl⟩

theorem isJson_own (e : RuntimeEvent) (f : String) :
    ((lookup f e.kind.fields).getD .none).isJson = true := by
  cases hlookup : lookup f e.kind.fields with
  | none => rfl
  | some v => exact e.kind.isJson_fields _ (mem_of_lookup f v _ hlookup)

theorem storable_record_iff (header : EventHeader) (e : RuntimeEvent) :
    (e.record header).Storable ↔
      e.isJson = true ∧ -2 ^ 63 ≤ header.version ∧ header.version < 2 ^ 63 := by
  constructor
  · intro h
    exact ⟨h.metadata, h.version⟩
  · rintro ⟨hmetadata, hversion⟩
    refine ⟨hmetadata, ?_, hversion⟩
    have hown : ∀ f ∈ (e.record header).ownPayload, f.2.isJson = true := by
      intro f hf
      obtain ⟨g, -, rfl⟩ := List.mem_map.mp hf
      exact e.isJson_own g.1
    have hbase : ∀ f ∈ (e.record header).basePayload, f.2.isJson = true := by
      have hattrs : (encodeAttrs e.metadata).isJson = true := hmetadata
      simp [EventRecord.basePayload, record, -isJson_encodeAttrs, hattrs]
    exact (Value.isJson_dict _).mpr (List.forall_mem_append.mpr ⟨hbase, hown⟩)

end RuntimeEvent

def IsRecord (r : EventRecord) (e : RuntimeEvent) : Prop := ∃ header, r = e.record header

/-- The table holds the events of the log, each under some header. -/
def Represents (table : EventTable) (log : EventStore) : Prop :=
  ∃ records, table.Holds records ∧ List.Forall₂ IsRecord records log.events

theorem registered_of_isRecord {records : List EventRecord} {events : List RuntimeEvent}
    (h : List.Forall₂ IsRecord records events) : ∀ r ∈ records, r.Registered := by
  have hboth : List.Forall₂ (fun r e => r.Registered ∧ IsRecord r e) records events := by
    refine h.imp ?_
    rintro r e ⟨header, rfl⟩
    exact ⟨e.registered_record header, header, rfl⟩
  exact ((List.forall₂_and_left records events).mp hboth).1

namespace SQLiteEventStore

theorem represents_empty : Represents .empty .empty := ⟨[], rfl, .nil⟩

/-- Under a new id the table takes the events that the log takes. -/
theorem record_refines_append {table : EventTable} {log : EventStore} (h : Represents table log)
    {header : EventHeader} (hid : header.eventId ∉ table.ids)
    (hversion : -2 ^ 63 ≤ header.version ∧ header.version < 2 ^ 63)
    (hnumber : table.lastSequence + 1 < 2 ^ 63) (e : RuntimeEvent) :
    (∃ log' table', log.append e = .ok log' ∧ record (e.record header) table = .ok table' ∧
        Represents table' log') ∨
      (∃ err, log.append e = .error err) ∧ ∃ err, record (e.record header) table = .error err := by
  obtain ⟨records, hholds, hrecords⟩ := h
  by_cases hjson : e.isJson = true
  · obtain ⟨log', hlog⟩ := (log.append_returns_iff e).mpr hjson
    obtain ⟨table', htable⟩ := (record_returns_iff (e.record header) table).mpr
      ⟨(e.storable_record_iff header).mpr ⟨hjson, hversion⟩, hnumber, hid⟩
    refine Or.inl ⟨log', table', hlog, htable, _, holds_record hholds htable, ?_⟩
    rw [EventStore.append_events hlog]
    exact List.rel_append hrecords (.cons ⟨header, rfl⟩ .nil)
  · refine Or.inr ⟨?_, ?_⟩
    · cases hlog : log.append e with
      | ok log' => exact absurd ((log.append_returns_iff e).mp ⟨log', hlog⟩) hjson
      | error err => exact ⟨err, rfl⟩
    · cases htable : record (e.record header) table with
      | ok table' =>
        have hstorable := ((record_returns_iff _ _).mp ⟨table', htable⟩).1
        exact absurd ((e.storable_record_iff header).mp hstorable).1 hjson
      | error err => exact ⟨err, rfl⟩

/-- Any run of appends that the log takes, under new and distinct ids. -/
theorem recordAll_refines {table : EventTable} {log log' : EventStore} (h : Represents table log)
    {entries : List (EventHeader × RuntimeEvent)}
    (hids : (table.ids ++ entries.map fun entry => entry.1.eventId).Nodup)
    (hversions : ∀ entry ∈ entries, -2 ^ 63 ≤ entry.1.version ∧ entry.1.version < 2 ^ 63)
    (hnumbers : table.lastSequence + entries.length < 2 ^ 63)
    (happend : entries.foldlM (fun log entry => log.append entry.2) log = .ok log') :
    ∃ table', recordAll (entries.map fun entry => entry.2.record entry.1) table = .ok table' ∧
      Represents table' log' := by
  induction entries generalizing table log with
  | nil =>
    cases happend
    exact ⟨table, rfl, h⟩
  | cons entry rest ih =>
    obtain ⟨header, e⟩ := entry
    obtain ⟨hversion, hversions⟩ := List.forall_mem_cons.mp hversions
    rw [List.length_cons] at hnumbers
    rw [List.foldlM_cons] at happend
    obtain ⟨next, hnext, hrest⟩ := bind_eq_ok happend
    have hfresh : header.eventId ∉ table.ids := by
      intro hmem
      exact (List.nodup_append.mp hids).2.2 _ hmem _ (by simp) rfl
    rcases record_refines_append h hfresh hversion (by omega) e with
      ⟨log₁, table₁, hlog, htable, hrepresents⟩ | ⟨⟨err, hlog⟩, -⟩
    · rw [hnext] at hlog
      cases hlog
      have hids' : (table₁.ids ++ rest.map fun entry => entry.1.eventId).Nodup := by
        rw [ids_record htable, List.append_assoc]
        exact hids
      have hnumbers' : table₁.lastSequence + rest.length < 2 ^ 63 := by
        rw [(record_eq_ok htable).2]
        omega
      obtain ⟨table', hall, hrefined⟩ := ih hrepresents hids' hversions hnumbers' hrest
      refine ⟨table', ?_, hrefined⟩
      rw [List.map_cons, recordAll_cons, htable, ok_bind, hall]
    · rw [hnext] at hlog
      cases hlog

/-- What is read from the table are the events that the log has there. -/
theorem streamFrom_refines (factories : EventRecord.Factories) (start : String)
    {limit offset : ℕ} (hlimit : limit < 2 ^ 63) (hoffset : offset < 2 ^ 63)
    {conn : Connection EventTable} {log : EventStore} (h : Represents conn.current log) :
    ∃ records, streamFrom factories start limit offset conn = .ok records ∧
      List.Forall₂ IsRecord records (log.streamFrom start limit offset) := by
  obtain ⟨records, hholds, hrecords⟩ := h
  have hregistered := registered_of_isRecord hrecords
  have hpage : List.Forall₂ IsRecord
      (((records.filter fun r => start ≤ r.timestamp).drop offset).take limit)
      (log.streamFrom start limit offset) := by
    refine List.forall₂_take _ (List.forall₂_drop _ (List.rel_filter ?_ hrecords))
    rintro r e ⟨header, rfl⟩
    exact Iff.rfl
  have hnormalized : (page limit offset (records.filter fun r => start ≤ r.timestamp)).map
      EventRecord.normalized = page limit offset (records.filter fun r => start ≤ r.timestamp) :=
    (List.map_congr_left fun r hr =>
      (hregistered r (List.mem_of_mem_filter (mem_of_page hr))).normalized).trans (List.map_id' _)
  rw [← page_eq] at hpage
  refine ⟨_, ?_, hpage⟩
  rw [streamFrom_eq factories start limit offset hholds fun r hr => (hregistered r hr).known,
    bindParams_window_from start ⟨by omega, by omega⟩ ⟨by omega, by omega⟩, hnormalized]
  rfl

end SQLiteEventStore

end MollisRuntime.Persistence
