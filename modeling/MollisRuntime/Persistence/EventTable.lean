import Mathlib.Data.List.Perm.Subperm
import MollisRuntime.Library.Connection
import MollisRuntime.Persistence.EventRecords
import MollisRuntime.Persistence.StateStore
import MollisRuntime.Persistence.Transaction

/-!
The SQLite event store. An append inserts a row under the next sequence number,
a batch inserts its events within one transaction, and reading returns the rows
in sequence order. Each call takes place as a whole or not at all.
-/
namespace MollisRuntime.Persistence

open Ordered Python Database
open Workflow (encodeOptStr)

/-- A row of the events table: its number and the columns that are read back. -/
structure EventRow where
  sequenceNumber : ℕ
  eventId : String
  timestamp : String
  dataPayload : List (String × Value)

/-- The events table in sequence order. `lastSequence` is the largest number that
AUTOINCREMENT has given out. -/
structure EventTable where
  rows : List EventRow := []
  lastSequence : ℕ := 0
  increasing : rows.Pairwise fun r s => r.sequenceNumber < s.sequenceNumber
  issued : ∀ r ∈ rows, 0 < r.sequenceNumber ∧ r.sequenceNumber ≤ lastSequence
  nodup_ids : (rows.map EventRow.eventId).Nodup
  bounded : lastSequence < 2 ^ 63

namespace EventTable

def empty : EventTable where
  increasing := .nil
  issued := by simp
  nodup_ids := .nil
  bounded := by decide

def ids (table : EventTable) : List String := table.rows.map EventRow.eventId

/-- There are at most as many rows as numbers that were given out. -/
theorem length_rows_le (table : EventTable) : table.rows.length ≤ table.lastSequence := by
  have hnodup : (table.rows.map EventRow.sequenceNumber).Nodup :=
    List.pairwise_map.mpr (table.increasing.imp ne_of_lt)
  have hsubset : table.rows.map EventRow.sequenceNumber ⊆ List.range' 1 table.lastSequence := by
    intro number hnumber
    obtain ⟨r, hr, rfl⟩ := List.mem_map.mp hnumber
    obtain ⟨hpos, hle⟩ := table.issued r hr
    exact List.mem_range'_1.mpr ⟨hpos, by omega⟩
  have hlength := (hnodup.subperm hsubset).length_le
  rwa [List.length_map, List.length_range'] at hlength

/-- INSERT INTO events -/
def insert (e : EventRecord) (table : EventTable) : Except SqliteError EventTable :=
  if hfull : table.lastSequence + 1 < 2 ^ 63 then
    if hid : e.eventId ∈ table.ids then
      .error (.integrityError "UNIQUE constraint failed: events.event_id")
    else .ok {
      rows := table.rows ++ [⟨table.lastSequence + 1, e.eventId, e.timestamp, e.toDict⟩]
      lastSequence := table.lastSequence + 1
      increasing := by
        refine List.pairwise_append.mpr ⟨table.increasing, List.pairwise_singleton _ _, ?_⟩
        intro r hr s hs
        rw [List.mem_singleton.mp hs]
        exact Nat.lt_succ_of_le (table.issued r hr).2
      issued := by
        intro r hr
        rcases List.mem_append.mp hr with hr | hr
        · exact ⟨(table.issued r hr).1, Nat.le_succ_of_le (table.issued r hr).2⟩
        · rw [List.mem_singleton.mp hr]
          exact ⟨Nat.succ_pos _, le_rfl⟩
      nodup_ids := by
        rw [List.map_append]
        exact List.nodup_append_comm.mp (List.nodup_cons.mpr ⟨hid, table.nodup_ids⟩)
      bounded := hfull }
  else .error (.operationalError "database or disk is full")

end EventTable

namespace EventRecord

/-- The parameters of the INSERT. -/
def columns (e : EventRecord) : Row :=
  [("event_id", .str e.eventId), ("runtime_id", .str e.runtimeId),
    ("correlation_id", encodeOptStr e.correlationId),
    ("causation_id", encodeOptStr e.causationId), ("timestamp", .str e.timestamp),
    ("event_type", .str e.cls.name), ("version", .int e.version),
    ("metadata", encodeAttrs e.metadata), ("data_payload", .dict e.toDict)]

/-- Both calls of json.dumps. -/
def dumps (e : EventRecord) : Except PyError Unit := do
  let _ ← jsonPayload (encodeAttrs e.metadata)
  let _ ← jsonPayload (.dict e.toDict)
  return ()

/-- What json.dumps and the binding of the parameters accept. -/
structure Storable (e : EventRecord) : Prop where
  metadata : (encodeAttrs e.metadata).isJson = true
  payload : (Value.dict e.toDict).isJson = true
  version : -2 ^ 63 ≤ e.version ∧ e.version < 2 ^ 63

end EventRecord

/-- The events can be stored, their ids are new and distinct, and the sequence
numbers suffice. -/
structure EventTable.Accepts (table : EventTable) (events : List EventRecord) : Prop where
  storable : ∀ e ∈ events, e.Storable
  nodup : (table.ids ++ events.map EventRecord.eventId).Nodup
  numbered : table.lastSequence + events.length < 2 ^ 63

/-- An exception that does not come from sqlite3. -/
def raising {α : Type} (x : Except PyError α) : Except SqliteError α := x.mapError .raised

namespace SQLiteEventStore

/-- What one INSERT with its parameters makes of the table. -/
def bindAndInsert (e : EventRecord) (table : EventTable) : Except SqliteError EventTable := do
  let _ ← raising (bindParams e.columns)
  table.insert e

/-- An event that json.dumps refuses does not reach the connection. -/
def insertEvent (e : EventRecord) : Body EventTable SqliteError := fun conn =>
  match e.dumps with
  | .ok () => conn.execute (bindAndInsert e)
  | .error err => (conn, .error (.raised err))

def append (e : EventRecord) : Body EventTable SqliteError :=
  Connection.guarded (insertEvent e)

def appendBatch (events : List EventRecord) : Body EventTable SqliteError :=
  Connection.guarded (Connection.sequence (events.map insertEvent))

section Recording

/-- An append as one step on the table. -/
def record (e : EventRecord) (table : EventTable) : Except SqliteError EventTable := do
  raising e.dumps
  bindAndInsert e table

def recordAll (events : List EventRecord) (table : EventTable) : Except SqliteError EventTable :=
  events.foldlM (fun table e => record e table) table

theorem runs_insertEvent (e : EventRecord) : Connection.Runs (insertEvent e) (record e) := by
  cases hdumps : e.dumps with
  | ok =>
    have hbody : insertEvent e = fun conn => conn.execute (bindAndInsert e) := by
      unfold insertEvent
      rw [hdumps]
    have hrecord : record e = bindAndInsert e := by
      unfold record
      rw [hdumps]
      rfl
    rw [hbody, hrecord]
    exact Connection.runs_execute (bindAndInsert e)
  | error err =>
    have hbody : insertEvent e = fun conn => (conn, .error (.raised err)) := by
      unfold insertEvent
      rw [hdumps]
    have hrecord : record e = fun _ => .error (.raised err) := by
      unfold record
      rw [hdumps]
      rfl
    rw [hbody, hrecord]
    refine ⟨fun _ => rfl, ?_, ?_⟩
    · intro conn table h
      cases h
    · intro conn err' h
      cases h
      rfl

theorem raising_returns_iff {α : Type} {x : Except PyError α} :
    (∃ a, raising x = .ok a) ↔ ∃ a, x = .ok a := by
  cases x <;> simp [raising, Except.mapError]

theorem dumps_returns_iff (e : EventRecord) :
    (∃ u, e.dumps = .ok u) ↔
      (encodeAttrs e.metadata).isJson = true ∧ (Value.dict e.toDict).isJson = true := by
  unfold EventRecord.dumps
  simp only [bind_returns_iff, jsonPayload_eq_ok_iff]
  constructor
  · rintro ⟨_, ⟨hmetadata, -⟩, _, ⟨hpayload, -⟩, -⟩
    exact ⟨hmetadata, hpayload⟩
  · rintro ⟨hmetadata, hpayload⟩
    exact ⟨_, ⟨hmetadata, rfl⟩, _, ⟨hpayload, rfl⟩, (), rfl⟩

theorem bindColumns_returns_iff (e : EventRecord) :
    (∃ row, bindParams e.columns = .ok row) ↔ -2 ^ 63 ≤ e.version ∧ e.version < 2 ^ 63 := by
  rw [bindParams_returns_iff]
  cases hcorrelation : e.correlationId <;> cases hcausation : e.causationId <;>
    simp [EventRecord.columns, bindParams.fits, encodeOptStr, encodeAttrs, hcorrelation,
      hcausation]

theorem insert_returns_iff (e : EventRecord) (table : EventTable) :
    (∃ table', table.insert e = .ok table') ↔
      table.lastSequence + 1 < 2 ^ 63 ∧ e.eventId ∉ table.ids := by
  unfold EventTable.insert
  split
  · rename_i hfull
    split
    · rename_i hid
      exact iff_of_false (fun ⟨_, h⟩ => by cases h) fun h => h.2 hid
    · rename_i hid
      exact iff_of_true ⟨_, rfl⟩ ⟨hfull, hid⟩
  · rename_i hfull
    exact iff_of_false (fun ⟨_, h⟩ => by cases h) fun h => hfull h.1

theorem record_returns_iff (e : EventRecord) (table : EventTable) :
    (∃ table', record e table = .ok table') ↔
      e.Storable ∧ table.lastSequence + 1 < 2 ^ 63 ∧ e.eventId ∉ table.ids := by
  unfold record bindAndInsert
  rw [bind_returns_iff, exists_and_right, raising_returns_iff, dumps_returns_iff,
    bind_returns_iff, exists_and_right, raising_returns_iff, bindColumns_returns_iff,
    insert_returns_iff]
  constructor
  · rintro ⟨⟨hmetadata, hpayload⟩, hversion, hfull, hid⟩
    exact ⟨⟨hmetadata, hpayload, hversion⟩, hfull, hid⟩
  · rintro ⟨hstorable, hfull, hid⟩
    exact ⟨⟨hstorable.metadata, hstorable.payload⟩, hstorable.version, hfull, hid⟩

theorem insert_eq_ok {e : EventRecord} {table table' : EventTable}
    (h : table.insert e = .ok table') :
    table'.rows = table.rows ++ [⟨table.lastSequence + 1, e.eventId, e.timestamp, e.toDict⟩] ∧
      table'.lastSequence = table.lastSequence + 1 := by
  unfold EventTable.insert at h
  split at h
  · split at h
    · cases h
    · cases h
      exact ⟨rfl, rfl⟩
  · cases h

theorem record_eq_ok {e : EventRecord} {table table' : EventTable}
    (h : record e table = .ok table') :
    table'.rows = table.rows ++ [⟨table.lastSequence + 1, e.eventId, e.timestamp, e.toDict⟩] ∧
      table'.lastSequence = table.lastSequence + 1 := by
  obtain ⟨_, -, h⟩ := bind_eq_ok h
  obtain ⟨_, -, h⟩ := bind_eq_ok h
  exact insert_eq_ok h

theorem ids_record {e : EventRecord} {table table' : EventTable}
    (h : record e table = .ok table') : table'.ids = table.ids ++ [e.eventId] := by
  unfold EventTable.ids
  rw [(record_eq_ok h).1, List.map_append]
  rfl

theorem recordAll_cons (e : EventRecord) (rest : List EventRecord) (table : EventTable) :
    recordAll (e :: rest) table = record e table >>= recordAll rest := rfl

theorem recordAll_append (xs ys : List EventRecord) (table : EventTable) :
    recordAll (xs ++ ys) table = recordAll xs table >>= recordAll ys := List.foldlM_append

theorem recordAll_returns_iff (events : List EventRecord) (table : EventTable) :
    (∃ table', recordAll events table = .ok table') ↔ table.Accepts events := by
  induction events generalizing table with
  | nil =>
    refine iff_of_true ⟨table, rfl⟩ ⟨List.forall_mem_nil _, ?_, table.bounded⟩
    rw [List.map_nil, List.append_nil]
    exact table.nodup_ids
  | cons e rest ih =>
    rw [recordAll_cons, bind_returns_iff]
    constructor
    · rintro ⟨next, hnext, hrest⟩
      obtain ⟨hstorable, -, -⟩ := (record_returns_iff e table).mp ⟨next, hnext⟩
      obtain ⟨hall, hnodup, hbound⟩ := (ih next).mp hrest
      rw [ids_record hnext, List.append_assoc] at hnodup
      rw [(record_eq_ok hnext).2] at hbound
      refine ⟨List.forall_mem_cons.mpr ⟨hstorable, hall⟩, hnodup, ?_⟩
      rw [List.length_cons]
      omega
    · rintro ⟨hstorables, hnodup, hbound⟩
      obtain ⟨hstorable, hall⟩ := List.forall_mem_cons.mp hstorables
      rw [List.length_cons] at hbound
      have hfresh : e.eventId ∉ table.ids := by
        intro hmem
        exact (List.nodup_append.mp hnodup).2.2 _ hmem _ (by simp) rfl
      obtain ⟨next, hnext⟩ := (record_returns_iff e table).mpr ⟨hstorable, by omega, hfresh⟩
      refine ⟨next, hnext, (ih next).mpr ⟨hall, ?_, ?_⟩⟩
      · rw [ids_record hnext, List.append_assoc]
        exact hnodup
      · rw [(record_eq_ok hnext).2]
        omega

end Recording

section Calls

/-- A call of the store. -/
inductive Call
  | append (e : EventRecord)
  | appendBatch (events : List EventRecord)

def Call.events : Call → List EventRecord
  | .append e => [e]
  | .appendBatch events => events

def Call.run : Call → Body EventTable SqliteError
  | .append e => SQLiteEventStore.append e
  | .appendBatch events => SQLiteEventStore.appendBatch events

/-- Each call takes place as a whole or not at all. -/
theorem run_idle (call : Call) (table : EventTable) :
    call.run { committed := table } =
      Connection.settled table (recordAll call.events table) := by
  cases call with
  | append e =>
    have hone : recordAll [e] table = record e table := by
      cases hrecord : record e table <;> simp [recordAll, hrecord]
    rw [Call.events, hone]
    exact (runs_insertEvent e).guarded table
  | appendBatch events =>
    exact (Connection.Runs.sequence runs_insertEvent events).guarded table

/-- A call answers with its result. -/
def step (conn : Connection EventTable) (call : Call) :
    Connection EventTable × List (Call × Except SqliteError Unit) :=
  ((call.run conn).1, [(call, (call.run conn).2)])

/-- The events of the calls that returned. -/
def accepted (answers : List (Call × Except SqliteError Unit)) : List EventRecord :=
  answers.flatMap fun answer =>
    match answer.2 with
    | .ok () => answer.1.events
    | .error _ => []

theorem run_returns_iff (call : Call) (table : EventTable) :
    (call.run { committed := table }).2 = .ok () ↔ table.Accepts call.events := by
  rw [run_idle, ← recordAll_returns_iff]
  cases recordAll call.events table <;> simp [Connection.settled]

end Calls

end SQLiteEventStore

end MollisRuntime.Persistence
