import MollisRuntime.Persistence.Archive

/-!
Reading from the SQLite store. A query is a function of the tables; on a connection
that is idle it sees what has been committed. After any run of calls the queries
return what the archive has.
-/
namespace MollisRuntime.Persistence

open Ordered Python Database
open Workflow (WorkflowInstance)

/-- A column of texts, which is never NULL. -/
def textColumn (name : String) (row : Row) : String :=
  match getD row name .none with
  | .str text => text
  | _ => ""

/-- `SELECT snapshot_id FROM snapshots ORDER BY timestamp DESC;` -/
def StateStore.listSnapshots (store : StateStore) : List String :=
  (store.snapshots.entries.insertionSort fun x y =>
    textColumn "timestamp" y.2 ≤ textColumn "timestamp" x.2).map Prod.fst

namespace SQLiteEventStore

def load (factories : EventRecord.Factories) (eventId : String) (table : EventTable) :
    Except PyError (Option EventRecord) :=
  match table.rows.find? fun r => r.eventId = eventId with
  | none => .ok none
  | some r => do return some (← EventRecord.fromDict factories r.dataPayload)

/-- The column of the runtime id holds what the payload has under that name. -/
def replay (factories : EventRecord.Factories) (runtimeId : String) (table : EventTable) :
    Except PyError (List EventRecord) :=
  fetch factories [("runtime_id", .str runtimeId)]
    (table.rows.filter fun r => textColumn "runtime_id" r.dataPayload = runtimeId)

end SQLiteEventStore

/-- What is read is what the archive has. -/
structure Answers (c : Coders) (factories : EventRecord.Factories) (db : SqliteDatabase)
    (archive : Archive) : Prop where
  runtimeState : ∀ now, db.state.loadRuntimeState now =
    .ok (archive.saved.map fun state => reloaded state now)
  snapshot : ∀ snapshotId, db.state.loadSnapshot c snapshotId =
    .ok (archive.snapshots.get? snapshotId)
  listed : db.state.listSnapshots.Perm archive.snapshots.keys
  newestFirst : db.state.listSnapshots.Pairwise fun x y =>
    ∀ s t, archive.snapshots.get? x = some s → archive.snapshots.get? y = some t →
      t.timestamp ≤ s.timestamp
  count : SQLiteEventStore.count { committed := db.events } = archive.log.length
  event : ∀ eventId, SQLiteEventStore.load factories eventId db.events =
    .ok (archive.log.find? fun e => e.eventId = eventId)
  replay : ∀ runtimeId, SQLiteEventStore.replay factories runtimeId db.events =
    .ok (archive.log.filter fun e => e.runtimeId = runtimeId)
  workflow : ∀ instanceId inst, Workflow.loadInstance db.workflows instanceId = .ok inst ↔
    archive.workflows.get? instanceId = some inst

section Reading

variable {c : Coders} {db : SqliteDatabase} {archive : Archive} {table : EventTable}
  {events : List EventRecord}

theorem SavedIn.load {store : StateStore} {saved : Option RuntimeState} (h : SavedIn store saved)
    (now : Timestamp) :
    store.loadRuntimeState now = .ok (saved.map fun state => reloaded state now) := by
  cases saved with
  | none =>
    have hstore : store = { snapshots := store.snapshots } := h
    rw [hstore]
    rfl
  | some state =>
    obtain ⟨before, after, hsave, hstore⟩ := h
    have hload := loadRuntimeState_saved hsave after.eventStore now
    rw [hstore]
    exact hload

theorem load_snapshotRows {store : StateStore} {snapshots : Dict String RuntimeState}
    (h : Dict.Pointwise (SnapshotRow c) store.snapshots snapshots) (snapshotId : String) :
    store.loadSnapshot c snapshotId = .ok (snapshots.get? snapshotId) := by
  rcases h.get? snapshotId with ⟨hrow, hstate⟩ | ⟨row, state, hrow, hstate, hc, raw, hraw, rfl⟩
  · rw [hstate, StateStore.loadSnapshot, hrow]
  · rw [hstate, StateStore.loadSnapshot_of_get? hc hraw hrow]

theorem listSnapshots_perm (store : StateStore) :
    store.listSnapshots.Perm store.snapshots.keys :=
  (List.perm_insertionSort _ _).map Prod.fst

theorem timestamp_snapshotRow {snapshotId : String} {row : Row} {state : RuntimeState}
    (h : SnapshotRow c snapshotId row state) :
    textColumn "timestamp" row = state.timestamp := by
  obtain ⟨-, raw, -, rfl⟩ := h
  rfl

theorem listSnapshots_sorted {store : StateStore} {snapshots : Dict String RuntimeState}
    (h : Dict.Pointwise (SnapshotRow c) store.snapshots snapshots) :
    store.listSnapshots.Pairwise fun x y => ∀ s t, snapshots.get? x = some s →
      snapshots.get? y = some t → t.timestamp ≤ s.timestamp := by
  have hsorted := List.pairwise_insertionSort
    (fun x y : String × Row => textColumn "timestamp" y.2 ≤ textColumn "timestamp" x.2)
    store.snapshots.entries
  have hstamp : ∀ e ∈ store.snapshots.entries, ∀ s, snapshots.get? e.1 = some s →
      textColumn "timestamp" e.2 = s.timestamp := by
    intro e he s hs
    have hrow := (Dict.mem_entries_iff _ _ _).mp he
    rcases h.get? e.1 with ⟨hnone, -⟩ | ⟨row, state, hsome, hstate, hkept⟩
    · rw [hrow] at hnone
      cases hnone
    · rw [hrow] at hsome
      rw [hs] at hstate
      cases hsome
      cases hstate
      exact timestamp_snapshotRow hkept
  refine List.pairwise_map.mpr (hsorted.imp_of_mem ?_)
  intro x y hx hy hle s t hs ht
  rw [← hstamp x ((List.mem_insertionSort _).mp hx) s hs,
    ← hstamp y ((List.mem_insertionSort _).mp hy) t ht]
  exact hle

theorem find?_content {rows : List EventRow}
    (h : rows.map EventRow.content = events.map EventRecord.content) (eventId : String) :
    (rows.find? fun r => r.eventId = eventId).map EventRow.content =
      (events.find? fun e => e.eventId = eventId).map EventRecord.content := by
  have hrows := List.find?_map (f := EventRow.content) (p := fun row => decide (row.1 = eventId))
    (l := rows)
  have hevents := List.find?_map (f := EventRecord.content)
    (p := fun row => decide (row.1 = eventId)) (l := events)
  rw [h] at hrows
  exact hrows.symm.trans hevents

theorem load_held (factories : EventRecord.Factories) (hholds : table.Holds events)
    (hregistered : ∀ e ∈ events, e.Registered) (eventId : String) :
    SQLiteEventStore.load factories eventId table =
      .ok (events.find? fun e => e.eventId = eventId) := by
  have hfind := find?_content hholds eventId
  unfold SQLiteEventStore.load
  cases hrow : table.rows.find? fun r => r.eventId = eventId with
  | none =>
    rw [hrow] at hfind
    rw [Option.map_eq_none_iff.mp hfind.symm]
  | some r =>
    rw [hrow] at hfind
    obtain ⟨e, he, hcontent⟩ := Option.map_eq_some_iff.mp hfind.symm
    have hpayload : r.dataPayload = e.toDict := congrArg (fun row => row.2.2) hcontent.symm
    have hmem := hregistered e (List.mem_of_find?_eq_some he)
    change (do return some (← EventRecord.fromDict factories r.dataPayload)) = _
    rw [he, hpayload, EventRecord.fromDict_toDict factories hmem.known, hmem.normalized]
    rfl

theorem replay_held (factories : EventRecord.Factories) (hholds : table.Holds events)
    (hregistered : ∀ e ∈ events, e.Registered) (runtimeId : String) :
    SQLiteEventStore.replay factories runtimeId table =
      .ok (events.filter fun e => e.runtimeId = runtimeId) := by
  let selects (row : String × String × List (String × Value)) : Bool :=
    textColumn "runtime_id" row.2.2 = runtimeId
  have hrows := List.filter_map (f := EventRow.content) (p := selects) (l := table.rows)
  have hevents := List.filter_map (f := EventRecord.content) (p := selects) (l := events)
  have hcontent : (table.rows.filter fun r =>
        textColumn "runtime_id" r.dataPayload = runtimeId).map EventRow.content =
      (events.filter fun e => e.runtimeId = runtimeId).map EventRecord.content :=
    hrows.symm.trans ((congrArg _ hholds).trans hevents)
  have hkept : ∀ e ∈ events.filter fun e => e.runtimeId = runtimeId, e.Registered :=
    fun e he => hregistered e (List.mem_of_mem_filter he)
  unfold SQLiteEventStore.replay
  rw [SQLiteEventStore.fetch_eq factories _ hcontent fun e he => (hkept e he).known,
    List.map_congr_left fun e he => (hkept e he).normalized, List.map_id']
  rfl

theorem loadInstance_instanceRows {store : Workflow.Store}
    {workflows : Dict String WorkflowInstance}
    (h : Dict.Pointwise InstanceRow store.rows workflows) (instanceId : String)
    (inst : WorkflowInstance) :
    Workflow.loadInstance store instanceId = .ok inst ↔
      workflows.get? instanceId = some inst := by
  rw [Workflow.loadInstance_eq_ok_iff, Workflow.Store.Holds]
  rcases h.get? instanceId with ⟨hrow, hnone⟩ | ⟨row, inst', hrow, hsome, hid, rfl⟩
  · rw [hnone]
    constructor
    · rintro ⟨hinst, rfl⟩
      rw [hrow] at hinst
      cases hinst
    · rintro ⟨⟩
  · rw [hsome]
    constructor
    · rintro ⟨hinst, rfl⟩
      have hdecoded := inst'.decode_encode
      rw [hrow, Option.some_inj] at hinst
      rw [hinst, inst.decode_encode] at hdecoded
      exact congrArg some (Except.ok.inj hdecoded).symm
    · intro hinst
      cases hinst
      exact ⟨hid ▸ hrow, hid⟩

/-- Tables that hold an archive answer from it. -/
theorem KeptIn.answers (factories : EventRecord.Factories) (h : KeptIn c db archive) :
    Answers c factories db archive where
  runtimeState := h.saved.load
  snapshot := load_snapshotRows h.snapshots
  listed := h.snapshots.keys ▸ listSnapshots_perm db.state
  newestFirst := listSnapshots_sorted h.snapshots
  count := SQLiteEventStore.length_of_holds h.events
  event := load_held factories h.events h.registered
  replay := replay_held factories h.events h.registered
  workflow := loadInstance_instanceRows h.workflows

/-- A snapshot, an event, and a batch with the same event. -/
def repeatedEvent : List StoreCall :=
  [.saveSnapshot "alpha" sampleState, .append (SQLiteEventStore.queued "a"),
    .appendBatch [SQLiteEventStore.queued "b", SQLiteEventStore.queued "a"]]

end Reading

end MollisRuntime.Persistence
