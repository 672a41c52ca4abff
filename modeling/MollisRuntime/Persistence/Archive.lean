import Mathlib.Data.List.Sort
import Mathlib.Order.Lattice
import MollisRuntime.Library.Pointwise
import MollisRuntime.Persistence.Recovery
import MollisRuntime.Persistence.RoundTrip
import MollisRuntime.Persistence.StoreCalls
import MollisRuntime.Workflow.Dispatch

/-!
What the SQLite store is for. The archive has the last state that was saved, the
named snapshots, the events since the last truncation and the checkpoints, as they
were handed over. Over any run of calls the store accepts what the archive accepts,
and what is read from the tables is what the archive has.
-/
namespace MollisRuntime.Persistence

open Ordered Python Database
open Workflow (WorkflowInstance)

/-- `issued` counts all events that were ever accepted. -/
structure Archive where
  saved : Option RuntimeState := none
  snapshots : Dict String RuntimeState := .empty
  log : List EventRecord := []
  issued : ℕ := 0
  workflows : Dict String WorkflowInstance := .empty

namespace Archive

def record (archive : Archive) : StoreCall → Archive
  | .saveRuntimeState state => { archive with saved := some state }
  | .saveSnapshot snapshotId state =>
    { archive with snapshots := archive.snapshots.replace snapshotId state }
  | .deleteSnapshot snapshotId =>
    { archive with snapshots := archive.snapshots.erase snapshotId }
  | .append e => { archive with log := archive.log ++ [e], issued := archive.issued + 1 }
  | .appendBatch events =>
    { archive with log := archive.log ++ events, issued := archive.issued + events.length }
  | .truncate => { archive with log := [] }
  | .checkpointWorkflow inst =>
    { archive with workflows := archive.workflows.set inst.instanceId inst }

/-- The events can be stored, under ids that are new and distinct, and their numbers
fit the column. -/
structure Takes (archive : Archive) (events : List EventRecord) : Prop where
  storable : ∀ e ∈ events, e.Storable
  nodup : ((archive.log ++ events).map EventRecord.eventId).Nodup
  numbered : archive.issued + events.length < 2 ^ 63

def Accepts (archive : Archive) : StoreCall → Prop
  | .saveRuntimeState state => state.Storable
  | .saveSnapshot _ state => state.toDict.isJson = true ∧
      -2 ^ 63 ≤ state.schemaVersion ∧ state.schemaVersion < 2 ^ 63
  | .deleteSnapshot _ => True
  | .append e => archive.Takes [e]
  | .appendBatch events => archive.Takes events
  | .truncate => True
  | .checkpointWorkflow inst => inst.toDict.isJson = true

open Classical in
/-- The answer says whether the call was accepted. -/
noncomputable def serve (archive : Archive) (call : StoreCall) :
    Archive × List (StoreCall × Bool) :=
  if archive.Accepts call then (archive.record call, [(call, true)])
  else (archive, [(call, false)])

end Archive

namespace StoreCall

/-- Whether the call returned. -/
def returned {α : Type} : Except SqliteError α → Bool
  | .ok _ => true
  | .error _ => false

def serve (c : Coders) (conn : Connection SqliteDatabase) (call : StoreCall) :
    Connection SqliteDatabase × List (StoreCall × Bool) :=
  ((call.run c conn).1, [(call, returned (call.run c conn).2)])

/-- What is needed to read back what the call writes. -/
def Readable (c : Coders) : StoreCall → Prop
  | .saveSnapshot _ state => c.InverseOn state.toDict
  | .append e => e.Registered
  | .appendBatch events => ∀ e ∈ events, e.Registered
  | _ => True

end StoreCall

section Keeping

/-- The tables of the runtime state are those that saving the state wrote. -/
def SavedIn (store : StateStore) : Option RuntimeState → Prop
  | none => store = { snapshots := store.snapshots }
  | some state => ∃ before after, StateStore.saveRuntimeState before state = .ok after ∧
      store = { after with snapshots := store.snapshots }

def SnapshotRow (c : Coders) (snapshotId : String) (row : Row) (state : RuntimeState) : Prop :=
  c.InverseOn state.toDict ∧ ∃ raw, Json.dumps c.floatRepr state.toDict = .ok raw ∧
    row = StateStore.snapshotColumns snapshotId state raw

def InstanceRow (instanceId : String) (row : Value) (inst : WorkflowInstance) : Prop :=
  inst.instanceId = instanceId ∧ row = inst.toDict

/-- The tables hold what the archive has. -/
structure KeptIn (c : Coders) (db : SqliteDatabase) (archive : Archive) : Prop where
  saved : SavedIn db.state archive.saved
  snapshots : Dict.Pointwise (SnapshotRow c) db.state.snapshots archive.snapshots
  events : db.events.Holds archive.log
  issued : db.events.lastSequence = archive.issued
  registered : ∀ e ∈ archive.log, e.Registered
  workflows : Dict.Pointwise InstanceRow db.workflows.rows archive.workflows

variable {c : Coders} {db db' : SqliteDatabase} {archive : Archive} {call : StoreCall}

theorem keptIn_empty (c : Coders) : KeptIn c {} {} where
  saved := rfl
  snapshots := Dict.pointwise_empty
  events := rfl
  issued := rfl
  registered := List.forall_mem_nil _
  workflows := Dict.pointwise_empty

theorem SavedIn.with_snapshots {store : StateStore} {saved : Option RuntimeState}
    (h : SavedIn store saved) (snapshots : Table) : SavedIn { store with snapshots } saved := by
  cases saved with
  | none =>
    have hstore : store = { snapshots := store.snapshots } := h
    change ({ store with snapshots } : StateStore) = { snapshots }
    rw [hstore]
  | some state =>
    obtain ⟨before, after, hsave, hstore⟩ := h
    refine ⟨before, after, hsave, ?_⟩
    rw [hstore]

theorem raising_eq_ok {α : Type} {x : Except PyError α} {a : α} (h : raising x = .ok a) :
    x = .ok a := by
  cases x with
  | error e => cases h
  | ok b =>
    cases h
    rfl

theorem lastSequence_recordAll {events : List EventRecord} {table table' : EventTable}
    (h : SQLiteEventStore.recordAll events table = .ok table') :
    table'.lastSequence = table.lastSequence + events.length := by
  induction events generalizing table with
  | nil =>
    cases h
    rfl
  | cons e rest ih =>
    rw [SQLiteEventStore.recordAll_cons] at h
    obtain ⟨next, hnext, hrest⟩ := bind_eq_ok h
    rw [ih hrest, (SQLiteEventStore.record_eq_ok hnext).2, List.length_cons]
    omega

theorem perform_append (c : Coders) (e : EventRecord) :
    (StoreCall.append e).perform c = (StoreCall.appendBatch [e]).perform c := by
  have hone : SQLiteEventStore.recordAll [e] = SQLiteEventStore.record e := by
    funext table
    rw [SQLiteEventStore.recordAll_cons]
    cases SQLiteEventStore.record e table <;> rfl
  rw [StoreCall.perform, StoreCall.perform, hone]

theorem KeptIn.appendBatch {events : List EventRecord} (h : KeptIn c db archive)
    (hreadable : ∀ e ∈ events, e.Registered)
    (hperform : (StoreCall.appendBatch events).perform c db = .ok db') :
    KeptIn c db' (archive.record (.appendBatch events)) := by
  rw [StoreCall.perform] at hperform
  obtain ⟨table, htable, rfl⟩ := Part.lift_eq_ok hperform
  have hissued := lastSequence_recordAll htable
  exact {
    saved := h.saved
    snapshots := h.snapshots
    events := SQLiteEventStore.holds_recordAll h.events htable
    issued := hissued.trans (congrArg (· + events.length) h.issued)
    registered := List.forall_mem_append.mpr ⟨h.registered, hreadable⟩
    workflows := h.workflows }

/-- A call that returns changes the tables as the archive says. -/
theorem KeptIn.perform (h : KeptIn c db archive) (hreadable : call.Readable c)
    (hperform : call.perform c db = .ok db') : KeptIn c db' (archive.record call) := by
  cases call with
  | saveRuntimeState state =>
    rw [StoreCall.perform] at hperform
    obtain ⟨store, hstore, rfl⟩ := Part.lift_eq_ok hperform
    have hsave := raising_eq_ok hstore
    have hsnapshots : store.snapshots = db.state.snapshots := by
      rw [saveRuntimeState_eq_ok hsave]
      rfl
    refine ⟨⟨_, _, hsave, rfl⟩, ?_, h.events, h.issued, h.registered, h.workflows⟩
    change Dict.Pointwise _ store.snapshots _
    rw [hsnapshots]
    exact h.snapshots
  | saveSnapshot snapshotId state =>
    rw [StoreCall.perform] at hperform
    obtain ⟨store, hstore, rfl⟩ := Part.lift_eq_ok hperform
    obtain ⟨raw, hraw, rfl⟩ := StateStore.saveSnapshot_eq_ok (raising_eq_ok hstore)
    exact ⟨h.saved.with_snapshots _, h.snapshots.replace ⟨hreadable, raw, hraw, rfl⟩, h.events,
      h.issued, h.registered, h.workflows⟩
  | deleteSnapshot snapshotId =>
    rw [StoreCall.perform] at hperform
    obtain ⟨store, hstore, rfl⟩ := Part.lift_eq_ok hperform
    cases hstore
    exact ⟨h.saved.with_snapshots _, h.snapshots.erase snapshotId, h.events, h.issued,
      h.registered, h.workflows⟩
  | append e =>
    rw [perform_append] at hperform
    exact h.appendBatch (List.forall_mem_singleton.mpr hreadable) hperform
  | appendBatch events => exact h.appendBatch hreadable hperform
  | truncate =>
    rw [StoreCall.perform] at hperform
    obtain ⟨table, htable, rfl⟩ := Part.lift_eq_ok hperform
    cases htable
    exact ⟨h.saved, h.snapshots, rfl, h.issued, List.forall_mem_nil _, h.workflows⟩
  | checkpointWorkflow inst =>
    rw [StoreCall.perform] at hperform
    obtain ⟨store, hstore, rfl⟩ := Part.lift_eq_ok hperform
    have hrows := Workflow.checkpoint_rows (raising_eq_ok hstore)
    refine ⟨h.saved, h.snapshots, h.events, h.issued, h.registered, ?_⟩
    change Dict.Pointwise _ store.rows _
    rw [hrows]
    exact h.workflows.set ⟨rfl, rfl⟩

end Keeping

section Accepting

variable {c : Coders} {db : SqliteDatabase} {archive : Archive} {call : StoreCall}

theorem raised_returns_iff {α : Type} {x : Except PyError α} :
    (∃ a, raising x = .ok a) ↔ ∃ a, x = .ok a := SQLiteEventStore.raising_returns_iff

theorem saveSnapshot_accepted_iff (store : StateStore) (snapshotId : String)
    (state : RuntimeState) :
    (∃ saved, store.saveSnapshot c snapshotId state = .ok saved) ↔
      state.toDict.isJson = true ∧ -2 ^ 63 ≤ state.schemaVersion ∧
        state.schemaVersion < 2 ^ 63 := by
  constructor
  · rintro ⟨saved, hsave⟩
    obtain ⟨raw, hraw, -⟩ := StateStore.saveSnapshot_eq_ok hsave
    obtain ⟨v, hv, -⟩ := bind_eq_ok hraw
    have hjson := ((jsonPayload_eq_ok_iff _ _).mp hv).1
    exact ⟨hjson, (StateStore.saveSnapshot_returns_iff store snapshotId hjson).mp ⟨saved, hsave⟩⟩
  · rintro ⟨hjson, hversion⟩
    exact (StateStore.saveSnapshot_returns_iff store snapshotId hjson).mpr hversion

theorem checkpoint_accepted_iff (store : Workflow.Store) (inst : WorkflowInstance) :
    (∃ store', Workflow.checkpointWorkflow store inst = .ok store') ↔
      inst.toDict.isJson = true := by
  constructor
  · rintro ⟨store', hstore⟩
    by_contra hjson
    obtain ⟨e, he⟩ := Workflow.checkpoint_error store (by simpa using hjson)
    rw [hstore] at he
    cases he
  · intro hjson
    obtain ⟨store', hstore, -, -⟩ := Workflow.checkpoint_ok store hjson
    exact ⟨store', hstore⟩

theorem KeptIn.takes_iff (h : KeptIn c db archive) (events : List EventRecord) :
    db.events.Accepts events ↔ archive.Takes events := by
  have hids : (archive.log ++ events).map EventRecord.eventId =
      db.events.ids ++ events.map EventRecord.eventId := by
    rw [List.map_append, SQLiteEventStore.ids_of_holds h.events]
  constructor
  · rintro ⟨hstorable, hnodup, hnumbered⟩
    exact ⟨hstorable, hids ▸ hnodup, h.issued ▸ hnumbered⟩
  · rintro ⟨hstorable, hnodup, hnumbered⟩
    exact ⟨hstorable, hids ▸ hnodup, h.issued ▸ hnumbered⟩

theorem KeptIn.append_returns_iff (h : KeptIn c db archive) (events : List EventRecord) :
    (∃ db', (StoreCall.appendBatch events).perform c db = .ok db') ↔ archive.Takes events := by
  rw [StoreCall.perform, Part.lift_returns_iff, ← h.takes_iff]
  exact SQLiteEventStore.recordAll_returns_iff events db.events

/-- The store accepts what the archive accepts. -/
theorem KeptIn.returns_iff (h : KeptIn c db archive) (call : StoreCall) :
    (∃ db', call.perform c db = .ok db') ↔ archive.Accepts call := by
  cases call with
  | saveRuntimeState state =>
    rw [StoreCall.perform, Part.lift_returns_iff, raised_returns_iff]
    exact saveRuntimeState_returns_iff db.state state
  | saveSnapshot snapshotId state =>
    rw [StoreCall.perform, Part.lift_returns_iff, raised_returns_iff]
    exact saveSnapshot_accepted_iff db.state snapshotId state
  | deleteSnapshot snapshotId =>
    rw [StoreCall.perform, Part.lift_returns_iff]
    exact iff_of_true ⟨_, rfl⟩ trivial
  | append e =>
    rw [perform_append]
    exact h.append_returns_iff [e]
  | appendBatch events => exact h.append_returns_iff events
  | truncate =>
    rw [StoreCall.perform, Part.lift_returns_iff]
    exact iff_of_true ⟨_, rfl⟩ trivial
  | checkpointWorkflow inst =>
    rw [StoreCall.perform, Part.lift_returns_iff, raised_returns_iff]
    exact checkpoint_accepted_iff db.workflows inst

end Accepting

section Running

variable {c : Coders} {archive : Archive} {call : StoreCall}

/-- No transaction is open and the tables hold the archive. -/
def Tracks (c : Coders) (conf : Connection SqliteDatabase × List (StoreCall × Bool))
    (archive : Archive) : Prop :=
  conf.1.working = none ∧ KeptIn c conf.1.committed archive

theorem Tracks.serve {conf : Connection SqliteDatabase × List (StoreCall × Bool)}
    (h : Tracks c conf archive) (hreadable : call.Readable c) :
    (archive.serve call).2 = (call.serve c conf.1).2 ∧
      Tracks c (Machine.advance (StoreCall.serve c) conf call) (archive.serve call).1 := by
  obtain ⟨conn, answers⟩ := conf
  obtain ⟨hidle, hkept⟩ := h
  obtain ⟨db, rfl⟩ : ∃ db, conn = { committed := db } := ⟨_, Connection.eq_of_idle hidle⟩
  unfold Machine.advance StoreCall.serve Archive.serve
  rw [StoreCall.run_idle]
  cases hperform : call.perform c db with
  | ok db' =>
    have haccepts : archive.Accepts call := (hkept.returns_iff call).mp ⟨db', hperform⟩
    rw [if_pos haccepts]
    exact ⟨rfl, rfl, hkept.perform hreadable hperform⟩
  | error err =>
    have hrefuses : ¬ archive.Accepts call := by
      intro haccepts
      obtain ⟨db', hdb'⟩ := (hkept.returns_iff call).mpr haccepts
      rw [hperform] at hdb'
      cases hdb'
    rw [if_neg hrefuses]
    exact ⟨rfl, rfl, hkept⟩

/-- The two go through any run of calls side by side. -/
theorem exec_tracks_archive (c : Coders) (calls : List StoreCall)
    (hreadable : ∀ call ∈ calls, call.Readable c) :
    let store := Machine.exec (StoreCall.serve c) calls ({ committed := {} }, [])
    let reference := Machine.exec Archive.serve calls ({}, [])
    reference.2 = store.2 ∧ Tracks c store reference.1 := by
  refine Machine.exec_simulates Archive.serve (P := fun _ call => call.Readable c) (Tracks c)
    (fun _ _ _ h hcall => h.serve hcall) (c := ({ committed := {} }, [])) ⟨rfl, keptIn_empty c⟩ ?_
  exact Machine.along_of_forall (fun call hcall _ => hreadable call hcall) _

end Running

end MollisRuntime.Persistence
