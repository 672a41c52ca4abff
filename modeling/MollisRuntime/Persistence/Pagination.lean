import MollisRuntime.Library.Paging
import MollisRuntime.Persistence.EventLog

/-!
Reading the log page by page while it grows. Each page comes from the log as it
is when the page is read, but appends never move an event, so the pages fit
together.
-/
namespace MollisRuntime.Persistence

open Python Database Paging

namespace SQLiteEventStore

/-- The whole log, or the events from a timestamp on. -/
inductive Query
  | stream
  | streamFrom (startTimestamp : String)

namespace Query

def run (factories : EventRecord.Factories) (limit offset : ℤ) (conn : Connection EventTable) :
    Query → Except PyError (List EventRecord)
  | .stream => SQLiteEventStore.stream factories limit offset conn
  | .streamFrom startTimestamp =>
    SQLiteEventStore.streamFrom factories startTimestamp limit offset conn

def selects (e : EventRecord) : Query → Bool
  | .stream => true
  | .streamFrom startTimestamp => startTimestamp ≤ e.timestamp

/-- The matching events of a log, as they are read. -/
def matching (query : Query) (log : List EventRecord) : List EventRecord :=
  (log.filter query.selects).map EventRecord.normalized

end Query

/-- A reader, with the exception that ended its reading. -/
structure Reader extends Pager EventRecord where
  raised : Option PyError := none

namespace Reader

/-- The next page, at the offset behind the pages so far. -/
def read (n : ℕ) (query : ℤ → ℤ → Except PyError (List EventRecord)) (r : Reader) : Reader :=
  if r.finished = true ∨ r.raised.isSome then r
  else match query n (r.offset n) with
    | .ok page => { r with toPager := r.push n page }
    | .error e => { r with raised := some e }

end Reader

/-- A call of the store, or the reading of the next page. -/
inductive Action
  | call (call : Call)
  | read

def act (factories : EventRecord.Factories) (query : Query) (n : ℕ)
    (s : Connection EventTable × Reader) :
    Action → (Connection EventTable × Reader) × List (Call × Except SqliteError Unit)
  | .call call => (((step s.1 call).1, s.2), (step s.1 call).2)
  | .read => ((s.1, s.2.read n fun limit offset => query.run factories limit offset s.1), [])

section Reading

variable {query : Query} {n : ℕ} {events base : List EventRecord} {table : EventTable}
  {c : (Connection EventTable × Reader) × List (Call × Except SqliteError Unit)}

/-- A query whose numbers sqlite3 can bind returns a page of the matching events. -/
theorem query_run_eq (factories : EventRecord.Factories) (query : Query) {limit offset : ℕ}
    (hlimit : limit < 2 ^ 63) (hoffset : offset < 2 ^ 63) {conn : Connection EventTable}
    (h : conn.current.Holds events) (hknown : ∀ e ∈ events, e.Known) :
    query.run factories limit offset conn =
      .ok (((query.matching events).drop offset).take limit) := by
  have hint : ∀ m : ℕ, m < 2 ^ 63 → -2 ^ 63 ≤ (m : ℤ) ∧ (m : ℤ) < 2 ^ 63 := by
    intro m hm
    omega
  unfold Query.matching
  rw [← List.map_drop, ← List.map_take, ← page_eq]
  cases query with
  | stream =>
    have hall : events.filter (fun e => Query.stream.selects e) = events :=
      List.filter_eq_self.mpr fun _ _ => rfl
    rw [hall]
    refine (stream_eq factories limit offset h hknown).trans ?_
    rw [bindParams_window (hint limit hlimit) (hint offset hoffset)]
    rfl
  | streamFrom start =>
    refine (streamFrom_eq factories start limit offset h hknown).trans ?_
    rw [bindParams_window_from start (hint limit hlimit) (hint offset hoffset)]
    rfl

theorem matching_append (query : Query) (xs ys : List EventRecord) :
    query.matching (xs ++ ys) = query.matching xs ++ query.matching ys := by
  unfold Query.matching
  rw [List.filter_append, List.map_append]

theorem length_matching_le (query : Query) (log : List EventRecord) :
    (query.matching log).length ≤ log.length := by
  rw [Query.matching, List.length_map]
  exact List.length_filter_le _ _

theorem nodup_matching {table : EventTable} {log : List EventRecord} (h : table.Holds log)
    (query : Query) : ((query.matching log).map EventRecord.eventId).Nodup := by
  have hlog : (log.map EventRecord.eventId).Nodup := by
    rw [← ids_of_holds h]
    exact table.nodup_ids
  have hids : (query.matching log).map EventRecord.eventId =
      (log.filter query.selects).map EventRecord.eventId := by
    unfold Query.matching
    rw [List.map_map]
    rfl
  rw [hids]
  exact hlog.sublist (List.filter_sublist.map _)

/-- The log is faithful, and the reader has come so far in it. -/
structure ReadsOn (query : Query) (n : ℕ) (base : List EventRecord)
    (c : (Connection EventTable × Reader) × List (Call × Except SqliteError Unit)) : Prop where
  faithful : Faithful EventRecord.Known base (c.1.1, c.2)
  raised : c.1.2.raised = none
  covers : c.1.2.toPager.Covers n (query.matching base)
    (query.matching (base ++ accepted c.2))

theorem readsOn_start (n : ℕ) (query : Query) (hbase : table.Holds base)
    (hknown : ∀ e ∈ base, e.Known) :
    ReadsOn query n base ((({ committed := table }, {}), []) :
      (Connection EventTable × Reader) × List (Call × Except SqliteError Unit)) where
  faithful := ⟨rfl, (List.append_nil base).symm ▸ hbase, (List.append_nil base).symm ▸ hknown⟩
  raised := rfl
  covers := (List.append_nil base).symm ▸ Pager.covers_empty n (query.matching base)

theorem readsOn_call (factories : EventRecord.Factories) {call : Call} (h : ReadsOn query n base c)
    (hcall : ∀ e ∈ call.events, e.Known) :
    ReadsOn query n base (Machine.advance (act factories query n) c (.call call)) where
  faithful := faithful_advance h.faithful hcall
  raised := h.raised
  covers := by
    refine h.covers.grow ?_
    change query.matching (base ++ accepted c.2) <+:
      query.matching (base ++ accepted (c.2 ++ (step c.1.1 call).2))
    rw [accepted_append, ← List.append_assoc, matching_append query (base ++ accepted c.2)]
    exact List.prefix_append _ _

theorem readsOn_read (factories : EventRecord.Factories) (hn : n < 2 ^ 63)
    (h : ReadsOn query n base c) :
    ReadsOn query n base (Machine.advance (act factories query n) c .read) := by
  obtain ⟨⟨conn, r⟩, answers⟩ := c
  have hadvance : Machine.advance (act factories query n) ((conn, r), answers) .read =
      ((conn, r.read n fun limit offset => query.run factories limit offset conn), answers) := by
    unfold Machine.advance act
    rw [List.append_nil]
  rw [hadvance]
  cases hfinished : r.finished with
  | true =>
    have hread : r.read n (fun limit offset => query.run factories limit offset conn) = r := by
      unfold Reader.read
      rw [if_pos (Or.inl hfinished)]
    rw [hread]
    exact h
  | false =>
    have hfaithful : Faithful EventRecord.Known base (conn, answers) := h.faithful
    have hraised : r.raised = none := h.raised
    have hcovers : r.toPager.Covers n (query.matching base)
        (query.matching (base ++ accepted answers)) := h.covers
    have hoffset : r.offset n < 2 ^ 63 := by
      have hcovered := hcovers.offset_le hfinished
      have hmatching := length_matching_le query (base ++ accepted answers)
      have hrows : conn.committed.rows.length = (base ++ accepted answers).length :=
        length_of_holds hfaithful.holds
      have hnumbers := conn.committed.length_rows_le
      have hbounded := conn.committed.bounded
      omega
    have hcurrent : conn.current.Holds (base ++ accepted answers) := by
      rw [hfaithful.current]
      exact hfaithful.holds
    have hpage := query_run_eq factories query hn hoffset hcurrent hfaithful.all
    have hread : r.read n (fun limit offset => query.run factories limit offset conn) =
        { r with toPager := r.push n (((query.matching (base ++ accepted answers)).drop
          (r.offset n)).take n) } := by
      unfold Reader.read
      rw [if_neg (by simp [hfinished, hraised])]
      simp only [hpage]
    rw [hread]
    exact ⟨hfaithful, hraised, hcovers.push hfinished⟩

theorem readsOn_exec (factories : EventRecord.Factories) (hn : n < 2 ^ 63) {actions : List Action}
    (hactions : ∀ call, .call call ∈ actions → ∀ e ∈ call.events, e.Known)
    (h : ReadsOn query n base c) :
    ReadsOn query n base (Machine.exec (act factories query n) actions c) := by
  refine Machine.exec_invariant (ReadsOn query n base)
    (P := fun _ action => ∀ call, action = .call call → ∀ e ∈ call.events, e.Known) ?_ h
    (Machine.along_of_forall ?_ c)
  · intro c action hc haction
    cases action with
    | call call => exact readsOn_call factories hc (haction call rfl)
    | read => exact readsOn_read factories hn hc
  · rintro action haction - call rfl
    exact hactions call haction

/-- Appends may come between the pages. No read raises, and what has been read is
always an initial part of the matching events of the log, each of them once. After
a page that is not full it has all matching events that were there at the start, and
a reading that goes on has read no more full pages than the log has. -/
theorem pages_complete (factories : EventRecord.Factories) (query : Query) {n : ℕ} (hn : 1 ≤ n)
    (hbound : n < 2 ^ 63) {table : EventTable} {base : List EventRecord}
    (hbase : table.Holds base) (hknown : ∀ e ∈ base, e.Known) {actions : List Action}
    (hactions : ∀ call, .call call ∈ actions → ∀ e ∈ call.events, e.Known) :
    let run := Machine.exec (act factories query n) (.read :: actions)
      (({ committed := table }, {}), [])
    let reader := run.1.2
    let matching := query.matching (base ++ accepted run.2)
    reader.raised = none ∧ reader.content <+: matching ∧
      (reader.content.map EventRecord.eventId).Nodup ∧
      (reader.finished = true → query.matching base <+: reader.content) ∧
      (reader.finished = false → reader.pages.length ≤ matching.length / n) := by
  intro run reader matching
  have hrun : ReadsOn query n base run := by
    refine readsOn_exec factories hbound ?_ (readsOn_start n query hbase hknown)
    intro call hcall
    exact hactions call ((List.mem_cons.mp hcall).resolve_left (by simp))
  refine ⟨hrun.raised, hrun.covers.content, ?_, hrun.covers.complete,
    hrun.covers.length_pages_le hn⟩
  exact (nodup_matching hrun.faithful.holds query).sublist (hrun.covers.content.sublist.map _)

/-- A log of three events. -/
def threeQueued : EventTable :=
  (Machine.exec step [.appendBatch [queued "a", queued "b", queued "c"]] initial).1.committed

theorem holds_threeQueued : threeQueued.Holds [queued "a", queued "b", queued "c"] := rfl

/-- Pages of two, with an append after the first. -/
theorem pages_complete_three :
    let run := Machine.exec (act ⟨"", ""⟩ .stream 2)
      [.read, .call (.append (queued "d")), .read, .read] (({ committed := threeQueued }, {}), [])
    run.1.2.pages.map List.length = [2, 2, 0] ∧
      [queued "a", queued "b", queued "c"] <+: run.1.2.content := by
  refine ⟨by decide +kernel, ?_⟩
  refine (pages_complete ⟨"", ""⟩ .stream (by decide) (by decide) holds_threeQueued ?_ ?_).2.2.2.1
    (by decide +kernel)
  · intro e he
    simp only [List.mem_cons, List.not_mem_nil, or_false] at he
    rcases he with rfl | rfl | rfl <;> exact (registered_queued _).known
  · intro call hcall e he
    simp only [List.mem_cons, reduceCtorEq, List.not_mem_nil, or_false, Action.call.injEq] at hcall
    cases hcall
    rw [List.mem_singleton.mp he]
    exact (registered_queued _).known

/-- sqlite3 refuses a page size that does not fit in 64 bits. -/
theorem page_size_overflow :
    let run := Machine.exec (act ⟨"", ""⟩ .stream (2 ^ 63)) [.read]
      (({ committed := threeQueued }, {}), [])
    threeQueued.Holds [queued "a", queued "b", queued "c"] ∧
      run.1.2.raised =
        some (.overflowError "Python int too large to convert to SQLite INTEGER") ∧
      ¬ Query.stream.matching [queued "a", queued "b", queued "c"] <+: run.1.2.content := by
  refine ⟨holds_threeQueued, by decide +kernel, ?_⟩
  intro hprefix
  exact absurd hprefix.length_le (by decide +kernel)

end Reading

end SQLiteEventStore

end MollisRuntime.Persistence
