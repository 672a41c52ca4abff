import MollisRuntime.Library.Machine
import MollisRuntime.Persistence.EventTable

/-!
Reading the events back. A query selects rows and decodes their payloads, so it
returns a page of the events that the table holds; over a run of calls these are
the events of the calls that returned, in their order.
-/
namespace MollisRuntime.Persistence

open Ordered Python Database

def EventRow.content (r : EventRow) : String × String × List (String × Value) :=
  (r.eventId, r.timestamp, r.dataPayload)

def EventRecord.content (e : EventRecord) : String × String × List (String × Value) :=
  (e.eventId, e.timestamp, e.toDict)

/-- The rows are those of the events. -/
def EventTable.Holds (table : EventTable) (events : List EventRecord) : Prop :=
  table.rows.map EventRow.content = events.map EventRecord.content

namespace SQLiteEventStore

/-- `LIMIT ? OFFSET ?`. A negative limit is none, a negative offset is 0. -/
def page {α : Type} (limit offset : ℤ) (rows : List α) : List α :=
  if limit < 0 then rows.drop offset.toNat else (rows.drop offset.toNat).take limit.toNat

/-- The rows that a query selects, decoded. -/
def fetch (factories : EventRecord.Factories) (params : Row) (rows : List EventRow) :
    Except PyError (List EventRecord) := do
  let _ ← bindParams params
  rows.mapM fun r => EventRecord.fromDict factories r.dataPayload

def stream (factories : EventRecord.Factories) (limit offset : ℤ)
    (conn : Connection EventTable) : Except PyError (List EventRecord) :=
  fetch factories [("limit", .int limit), ("offset", .int offset)]
    (page limit offset conn.current.rows)

def streamFrom (factories : EventRecord.Factories) (startTimestamp : String) (limit offset : ℤ)
    (conn : Connection EventTable) : Except PyError (List EventRecord) :=
  fetch factories
    [("start_timestamp", .str startTimestamp), ("limit", .int limit), ("offset", .int offset)]
    (page limit offset (conn.current.rows.filter fun r => startTimestamp ≤ r.timestamp))

def count (conn : Connection EventTable) : ℕ := conn.current.rows.length

section Holding

variable {table table' : EventTable} {events : List EventRecord}

theorem ids_of_holds (h : table.Holds events) : table.ids = events.map EventRecord.eventId := by
  have hids := congrArg (List.map Prod.fst) h
  rw [List.map_map, List.map_map] at hids
  exact hids

theorem length_of_holds (h : table.Holds events) : table.rows.length = events.length := by
  have hlength := congrArg List.length h
  rwa [List.length_map, List.length_map] at hlength

theorem holds_record {e : EventRecord} (h : table.Holds events)
    (hrecord : record e table = .ok table') : table'.Holds (events ++ [e]) := by
  unfold EventTable.Holds at h ⊢
  rw [(record_eq_ok hrecord).1, List.map_append, List.map_append, h]
  rfl

theorem holds_recordAll {more : List EventRecord} (h : table.Holds events)
    (hrecord : recordAll more table = .ok table') : table'.Holds (events ++ more) := by
  induction more generalizing table events with
  | nil =>
    cases hrecord
    rw [List.append_nil]
    exact h
  | cons e rest ih =>
    rw [recordAll_cons] at hrecord
    obtain ⟨next, hnext, hrest⟩ := bind_eq_ok hrecord
    have hall := ih (holds_record h hnext) hrest
    rw [List.append_assoc] at hall
    exact hall

theorem page_map {α β : Type} (f : α → β) (limit offset : ℤ) (rows : List α) :
    page limit offset (rows.map f) = (page limit offset rows).map f := by
  unfold page
  split
  · rw [List.map_drop]
  · rw [List.map_take, List.map_drop]

theorem mem_of_page {α : Type} {limit offset : ℤ} {rows : List α} {a : α}
    (h : a ∈ page limit offset rows) : a ∈ rows := by
  unfold page at h
  split at h
  · exact List.mem_of_mem_drop h
  · exact List.mem_of_mem_drop (List.mem_of_mem_take h)

/-- A page that is long enough has all rows. -/
theorem page_all {α : Type} {limit : ℤ} {rows : List α} (h : rows.length ≤ limit) :
    page limit 0 rows = rows := by
  unfold page
  rw [if_neg (by omega)]
  exact List.take_of_length_le (by simp; omega)

theorem page_eq {α : Type} (n m : ℕ) (rows : List α) :
    page n m rows = (rows.drop m).take n := by
  unfold page
  rw [if_neg (by omega), Int.toNat_natCast, Int.toNat_natCast]

theorem bindParams_window {limit offset : ℤ} (hlimit : -2 ^ 63 ≤ limit ∧ limit < 2 ^ 63)
    (hoffset : -2 ^ 63 ≤ offset ∧ offset < 2 ^ 63) :
    bindParams [("limit", .int limit), ("offset", .int offset)] =
      .ok [("limit", .int limit), ("offset", .int offset)] := by
  refine bindParams_ok ?_
  simpa [bindParams.fits] using ⟨hlimit, hoffset⟩

theorem bindParams_window_from (start : String) {limit offset : ℤ}
    (hlimit : -2 ^ 63 ≤ limit ∧ limit < 2 ^ 63) (hoffset : -2 ^ 63 ≤ offset ∧ offset < 2 ^ 63) :
    bindParams [("start_timestamp", .str start), ("limit", .int limit),
        ("offset", .int offset)] =
      .ok [("start_timestamp", .str start), ("limit", .int limit), ("offset", .int offset)] := by
  refine bindParams_ok ?_
  simpa [bindParams.fits] using ⟨hlimit, hoffset⟩

theorem decode_rows (factories : EventRecord.Factories) {rows : List EventRow}
    (hcontent : rows.map EventRow.content = events.map EventRecord.content)
    (hknown : ∀ e ∈ events, e.Known) :
    rows.mapM (fun r => EventRecord.fromDict factories r.dataPayload) =
      .ok (events.map EventRecord.normalized) := by
  induction rows generalizing events with
  | nil =>
    rw [List.map_nil, eq_comm, List.map_eq_nil_iff] at hcontent
    rw [hcontent]
    rfl
  | cons r rest ih =>
    obtain ⟨e, es, rfl, he, hes⟩ := List.map_eq_cons_iff.mp hcontent.symm
    obtain ⟨hfirst, hrest⟩ := List.forall_mem_cons.mp hknown
    have hpayload : e.toDict = r.dataPayload := congrArg (fun c => c.2.2) he
    rw [List.mapM_cons, ← hpayload, EventRecord.fromDict_toDict factories hfirst,
      ih hes.symm hrest]
    rfl

theorem fetch_eq (factories : EventRecord.Factories) (params : Row) {rows : List EventRow}
    (hcontent : rows.map EventRow.content = events.map EventRecord.content)
    (hknown : ∀ e ∈ events, e.Known) :
    fetch factories params rows =
      (fun _ => events.map EventRecord.normalized) <$> bindParams params := by
  unfold fetch
  rw [decode_rows factories hcontent hknown]
  cases bindParams params <;> rfl

/-- Reading returns a page of the events that the table holds. -/
theorem stream_eq (factories : EventRecord.Factories) (limit offset : ℤ)
    {conn : Connection EventTable} (h : conn.current.Holds events)
    (hknown : ∀ e ∈ events, e.Known) :
    stream factories limit offset conn =
      (fun _ => (page limit offset events).map EventRecord.normalized) <$>
        bindParams [("limit", .int limit), ("offset", .int offset)] := by
  refine fetch_eq factories _ ?_ fun e he => hknown e (mem_of_page he)
  rw [← page_map, ← page_map, h]

theorem streamFrom_eq (factories : EventRecord.Factories) (start : String) (limit offset : ℤ)
    {conn : Connection EventTable} (h : conn.current.Holds events)
    (hknown : ∀ e ∈ events, e.Known) :
    streamFrom factories start limit offset conn =
      (fun _ => (page limit offset (events.filter fun e => start ≤ e.timestamp)).map
        EventRecord.normalized) <$>
        bindParams [("start_timestamp", .str start), ("limit", .int limit),
          ("offset", .int offset)] := by
  refine fetch_eq factories _ ?_ fun e he => hknown e (List.mem_of_mem_filter (mem_of_page he))
  have hrows := List.filter_map (f := EventRow.content) (p := fun c => decide (start ≤ c.2.1))
    (l := conn.current.rows)
  have hevents := List.filter_map (f := EventRecord.content) (p := fun c => decide (start ≤ c.2.1))
    (l := events)
  rw [← page_map, ← page_map]
  congr 1
  exact hrows.symm.trans ((congrArg _ h).trans hevents)

end Holding

section Runs

/-- Nothing has happened yet. -/
def initial : Connection EventTable × List (Call × Except SqliteError Unit) :=
  ({ committed := .empty }, [])

/-- No transaction is open, and the table holds the events it began with and those
accepted since; all of them have the property. -/
structure Faithful (P : EventRecord → Prop) (base : List EventRecord)
    (c : Connection EventTable × List (Call × Except SqliteError Unit)) : Prop where
  idle : c.1.working = none
  holds : c.1.committed.Holds (base ++ accepted c.2)
  all : ∀ e ∈ base ++ accepted c.2, P e

variable {P : EventRecord → Prop} {base : List EventRecord}
  {c : Connection EventTable × List (Call × Except SqliteError Unit)}

theorem faithful_initial : Faithful P [] initial := ⟨rfl, rfl, List.forall_mem_nil _⟩

theorem Faithful.current (h : Faithful P base c) : c.1.current = c.1.committed := by
  rw [Connection.eq_of_idle h.idle]
  rfl

theorem accepted_append (xs ys : List (Call × Except SqliteError Unit)) :
    accepted (xs ++ ys) = accepted xs ++ accepted ys := List.flatMap_append

theorem accepted_returned (answers : List (Call × Except SqliteError Unit)) (call : Call) :
    accepted (answers ++ [(call, .ok ())]) = accepted answers ++ call.events := by
  rw [accepted_append]
  exact congrArg _ (List.append_nil call.events)

theorem accepted_raised (answers : List (Call × Except SqliteError Unit)) (call : Call)
    (err : SqliteError) : accepted (answers ++ [(call, .error err)]) = accepted answers := by
  rw [accepted_append]
  exact List.append_nil _

theorem advance_returned {call : Call} {table table' : EventTable}
    (h : recordAll call.events table = .ok table')
    (answers : List (Call × Except SqliteError Unit)) :
    Machine.advance step ({ committed := table }, answers) call =
      ({ committed := table' }, answers ++ [(call, .ok ())]) := by
  unfold Machine.advance step
  rw [run_idle, h]
  rfl

theorem advance_raised {call : Call} {table : EventTable} {err : SqliteError}
    (h : recordAll call.events table = .error err)
    (answers : List (Call × Except SqliteError Unit)) :
    Machine.advance step ({ committed := table }, answers) call =
      ({ committed := table }, answers ++ [(call, .error err)]) := by
  unfold Machine.advance step
  rw [run_idle, h]
  rfl

theorem faithful_advance {call : Call} (h : Faithful P base c) (hcall : ∀ e ∈ call.events, P e) :
    Faithful P base (Machine.advance step c call) := by
  obtain ⟨conn, answers⟩ := c
  obtain ⟨table, rfl⟩ : ∃ table, conn = { committed := table } := ⟨_, Connection.eq_of_idle h.idle⟩
  cases hrecord : recordAll call.events table with
  | ok table' =>
    rw [advance_returned hrecord]
    refine ⟨rfl, ?_, ?_⟩
    · rw [accepted_returned, ← List.append_assoc]
      exact holds_recordAll h.holds hrecord
    · rw [accepted_returned, ← List.append_assoc]
      exact List.forall_mem_append.mpr ⟨h.all, hcall⟩
  | error err =>
    rw [advance_raised hrecord]
    refine ⟨rfl, ?_, ?_⟩
    · rw [accepted_raised]
      exact h.holds
    · rw [accepted_raised]
      exact h.all

theorem faithful_exec {calls : List Call} (h : ∀ call ∈ calls, ∀ e ∈ call.events, P e)
    (hc : Faithful P base c) : Faithful P base (Machine.exec step calls c) :=
  Machine.exec_invariant (Faithful P base) (P := fun _ call => ∀ e ∈ call.events, P e)
    (fun _ _ => faithful_advance) hc (Machine.along_of_forall (fun call hcall _ => h call hcall) c)

/-- An event that a batch cannot add to the events before it. -/
def Fails (before : List EventRecord) (e : EventRecord) : Prop :=
  (encodeAttrs e.metadata).isJson = false ∨ e.eventId ∈ before.map EventRecord.eventId

theorem appendBatch_fails {conn : Connection EventTable} {events earlier later : List EventRecord}
    {e : EventRecord} (hidle : conn.working = none) (hholds : conn.committed.Holds events)
    (hfails : Fails (events ++ earlier) e) :
    ∃ err, appendBatch (earlier ++ e :: later) conn = (conn, .error err) := by
  have hrun := run_idle (.appendBatch (earlier ++ e :: later)) conn.committed
  rw [← Connection.eq_of_idle hidle] at hrun
  cases hrecord : recordAll (earlier ++ e :: later) conn.committed with
  | ok table =>
    obtain ⟨hstorable, hnodup, -⟩ := (recordAll_returns_iff _ _).mp ⟨table, hrecord⟩
    rcases hfails with hmetadata | hid
    · rw [(hstorable e (by simp)).metadata] at hmetadata
      cases hmetadata
    · rw [ids_of_holds hholds, ← List.map_append, ← List.append_assoc, List.map_append] at hnodup
      exact absurd rfl ((List.nodup_append.mp hnodup).2.2 _ hid e.eventId (by simp))
  | error err =>
    refine ⟨err, ?_⟩
    change (Call.appendBatch (earlier ++ e :: later)).run conn = _
    rw [hrun, Call.events, hrecord, Connection.settled, ← Connection.eq_of_idle hidle]

/-- The log returns the events of the calls that succeeded, in their order, and a
batch with an event that fails changes nothing. -/
theorem log_fidelity (factories : EventRecord.Factories) {calls : List Call}
    (h : ∀ call ∈ calls, ∀ e ∈ call.events, e.Registered) :
    let run := Machine.exec step calls initial
    (∀ limit : ℤ, count run.1 ≤ limit → limit < 2 ^ 63 →
      stream factories limit 0 run.1 = .ok (accepted run.2)) ∧
    ∀ earlier e later, Fails (accepted run.2 ++ earlier) e →
      ∃ err, appendBatch (earlier ++ e :: later) run.1 = (run.1, .error err) := by
  intro run
  have hfaithful : Faithful EventRecord.Registered [] run := faithful_exec h faithful_initial
  refine ⟨?_, fun earlier e later => appendBatch_fails hfaithful.idle hfaithful.holds⟩
  intro limit hlimit hbound
  have hlength := length_of_holds hfaithful.holds
  have hnormalized : (accepted run.2).map EventRecord.normalized = accepted run.2 :=
    (List.map_congr_left fun e he => (hfaithful.all e he).normalized).trans (List.map_id' _)
  rw [stream_eq factories limit 0 (hfaithful.current ▸ hfaithful.holds)
      fun e he => (hfaithful.all e he).known,
    bindParams_window ⟨by omega, hbound⟩ (by decide), page_all]
  · exact congrArg Except.ok hnormalized
  · rw [← hlength, ← hfaithful.current]
    exact hlimit

/-- A queued task under the given event id. -/
def queued (eventId : String) : EventRecord where
  cls := ⟨"TaskQueued", ["task_id"]⟩
  eventId := eventId
  timestamp := "2024-01-01T00:00:00"
  own := fun _ => .str "t"

theorem registered_queued (eventId : String) : (queued eventId).Registered :=
  ⟨List.mem_cons_of_mem _ List.mem_cons_self, rfl⟩

/-- The second batch is refused for its second event, and the third goes through. -/
theorem log_fidelity_refused :
    stream ⟨"", ""⟩ 100 0 (Machine.exec step [.append (queued "a"),
        .appendBatch [queued "b", queued "a"], .appendBatch [queued "b", queued "c"]] initial).1 =
      .ok [queued "a", queued "b", queued "c"] := by
  refine (log_fidelity ⟨"", ""⟩ ?_).1 100 ?_ (by decide)
  · intro call hcall e he
    simp only [List.mem_cons, List.not_mem_nil, or_false] at hcall
    rcases hcall with rfl | rfl | rfl <;>
      simp only [Call.events, List.mem_cons, List.not_mem_nil, or_false] at he
    · exact he ▸ registered_queued _
    · rcases he with rfl | rfl <;> exact registered_queued _
    · rcases he with rfl | rfl <;> exact registered_queued _
  · decide +kernel

end Runs

end SQLiteEventStore

end MollisRuntime.Persistence
