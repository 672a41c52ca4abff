import MollisRuntime.Persistence.EventLog

/-!
The event store behind the event bus. The bus hands each event to its
subscribers one by one and drops what they raise, so the proxy in front of the
store returns from every call. It does what the store does as long as the store
refuses no call; a batch that the store refuses as a whole goes in piecemeal.
-/
namespace MollisRuntime.Observability

open Python Database
open Persistence

/-- The set of the subscribers, in the order in which it is listed. -/
structure RuntimeEventBus (ι : Type) where
  subscribers : List ι
  nodup : subscribers.Nodup

namespace RuntimeEventBus

variable {ι τ ε : Type}

/-- The subscribers are listed before the first of them is called, since a call may
change the bus. What a subscriber raises is logged and dropped. -/
def publish (bus : τ → RuntimeEventBus ι) (call : ι → EventRecord → τ → τ × Except ε Unit)
    (e : EventRecord) (s : τ) : τ :=
  (bus s).subscribers.foldl (fun s sub => (call sub e s).1) s

def batchPublish (bus : τ → RuntimeEventBus ι)
    (call : ι → EventRecord → τ → τ × Except ε Unit) (events : List EventRecord) (s : τ) : τ :=
  events.foldl (fun s e => publish bus call e s) s

end RuntimeEventBus

variable {ι σ : Type}

/-- The subscriber that writes to the event store, or any other. The others work on
a state of their own and may raise. -/
inductive Subscriber (σ : Type)
  | eventStore
  | other (notify : σ → EventRecord → σ × Except PyError Unit)

/-- `sub(event)` -/
def Subscriber.call (e : EventRecord) (s : Connection EventTable × σ) :
    Subscriber σ → (Connection EventTable × σ) × Except SqliteError Unit
  | .eventStore =>
    (((SQLiteEventStore.append e s.1).1, s.2), (SQLiteEventStore.append e s.1).2)
  | .other notify => ((s.1, (notify s.2 e).1), raising (notify s.2 e).2)

/-- A bus, with what its subscribers do; one of them writes to the event store. -/
structure WiredBus (ι σ : Type) extends RuntimeEventBus ι where
  handler : ι → Subscriber σ
  stores : ∃ sub ∈ subscribers, handler sub = .eventStore

namespace WiredBus

def publish (bus : WiredBus ι σ) :
    EventRecord → Connection EventTable × σ → Connection EventTable × σ :=
  RuntimeEventBus.publish (fun _ => bus.toRuntimeEventBus) fun sub e s =>
    (bus.handler sub).call e s

def batchPublish (bus : WiredBus ι σ) :
    List EventRecord → Connection EventTable × σ → Connection EventTable × σ :=
  RuntimeEventBus.batchPublish (fun _ => bus.toRuntimeEventBus) fun sub e s =>
    (bus.handler sub).call e s

end WiredBus

namespace EventStoreBusProxy

open SQLiteEventStore

def append (bus : WiredBus ι σ) (e : EventRecord) (s : Connection EventTable × σ) :
    (Connection EventTable × σ) × Except SqliteError Unit :=
  (bus.publish e s, .ok ())

def appendBatch (bus : WiredBus ι σ) (events : List EventRecord)
    (s : Connection EventTable × σ) :
    (Connection EventTable × σ) × Except SqliteError Unit :=
  (bus.batchPublish events s, .ok ())

def run (bus : WiredBus ι σ) (s : Connection EventTable × σ) :
    Call → (Connection EventTable × σ) × Except SqliteError Unit
  | .append e => append bus e s
  | .appendBatch events => appendBatch bus events s

/-- A call of the proxy answers with its result. -/
def step (bus : WiredBus ι σ) (s : Connection EventTable × σ) (call : Call) :
    (Connection EventTable × σ) × List (Call × Except SqliteError Unit) :=
  ((run bus s call).1, [(call, (run bus s call).2)])

section Publishing

/-- The table after an append that may have failed. -/
def absorb (table : EventTable) (e : EventRecord) : EventTable :=
  match record e table with
  | .ok table' => table'
  | .error _ => table

theorem absorb_of_ok {table table' : EventTable} {e : EventRecord}
    (h : record e table = .ok table') : absorb table e = table' := by
  unfold absorb
  rw [h]

theorem absorb_of_error {table : EventTable} {e : EventRecord} {err : SqliteError}
    (h : record e table = .error err) : absorb table e = table := by
  unfold absorb
  rw [h]

theorem append_idle (e : EventRecord) (table : EventTable) :
    (SQLiteEventStore.append e { committed := table }).1 = { committed := absorb table e } := by
  have happend : SQLiteEventStore.append e { committed := table } =
      Connection.settled table (record e table) := (runs_insertEvent e).guarded table
  rw [happend]
  unfold absorb
  cases record e table <;> rfl

/-- A second append of the same event is refused. -/
theorem absorb_absorb (table : EventTable) (e : EventRecord) :
    absorb (absorb table e) e = absorb table e := by
  cases hrecord : record e table with
  | ok table' =>
    rw [absorb_of_ok hrecord]
    cases hagain : record e table' with
    | ok table'' =>
      have hid := ((record_returns_iff e table').mp ⟨table'', hagain⟩).2.2
      rw [ids_record hrecord] at hid
      exact absurd (by simp) hid
    | error err => exact absorb_of_error hagain
  | error err => rw [absorb_of_error hrecord, absorb_of_error hrecord]

theorem call_idle (sub : Subscriber σ) (e : EventRecord) (table : EventTable) (s : σ) :
    ∃ s', (sub.call e ({ committed := table }, s)).1 = ({ committed := table }, s') ∨
      (sub.call e ({ committed := table }, s)).1 = ({ committed := absorb table e }, s') := by
  cases sub with
  | eventStore => exact ⟨s, Or.inr (congrArg (·, s) (append_idle e table))⟩
  | other notify => exact ⟨(notify s e).1, Or.inl rfl⟩

/-- Once the event is in the table no subscriber changes the table. -/
theorem foldl_absorbed {table : EventTable} {e : EventRecord} (habsorbed : absorb table e = table)
    (handler : ι → Subscriber σ) (subs : List ι) (s : σ) :
    ∃ s', subs.foldl (fun s sub => ((handler sub).call e s).1) ({ committed := table }, s) =
      ({ committed := table }, s') := by
  induction subs generalizing s with
  | nil => exact ⟨s, rfl⟩
  | cons sub rest ih =>
    obtain ⟨s', hcall | hcall⟩ := call_idle (handler sub) e table s
    · rw [List.foldl_cons, hcall]
      exact ih s'
    · rw [List.foldl_cons, hcall, habsorbed]
      exact ih s'

theorem foldl_call {handler : ι → Subscriber σ} {subs : List ι}
    (hstore : ∃ sub ∈ subs, handler sub = .eventStore) (e : EventRecord) (table : EventTable)
    (s : σ) :
    ∃ s', subs.foldl (fun s sub => ((handler sub).call e s).1) ({ committed := table }, s) =
      ({ committed := absorb table e }, s') := by
  induction subs generalizing s with
  | nil =>
    obtain ⟨sub, hsub, -⟩ := hstore
    exact absurd hsub List.not_mem_nil
  | cons sub rest ih =>
    rw [List.foldl_cons]
    cases hhandler : handler sub with
    | eventStore =>
      have hcall : (Subscriber.eventStore.call e ({ committed := table }, s)).1 =
          ({ committed := absorb table e }, s) := congrArg (·, s) (append_idle e table)
      rw [hcall]
      exact foldl_absorbed (absorb_absorb table e) handler rest s
    | other notify =>
      obtain ⟨store, hmem, hstore⟩ := hstore
      have hne : store ≠ sub := by
        rintro rfl
        rw [hhandler] at hstore
        cases hstore
      exact ih ⟨store, (List.mem_cons.mp hmem).resolve_left hne, hstore⟩ (notify s e).1

/-- Publishing an event appends it, whatever the other subscribers do. -/
theorem publish_idle (bus : WiredBus ι σ) (e : EventRecord) (table : EventTable) (s : σ) :
    ∃ s', bus.publish e ({ committed := table }, s) = ({ committed := absorb table e }, s') :=
  foldl_call bus.stores e table s

theorem batchPublish_idle (bus : WiredBus ι σ) (events : List EventRecord) (table : EventTable)
    (s : σ) :
    ∃ s', bus.batchPublish events ({ committed := table }, s) =
      ({ committed := events.foldl absorb table }, s') := by
  induction events generalizing table s with
  | nil => exact ⟨s, rfl⟩
  | cons e rest ih =>
    obtain ⟨s', hpublish⟩ := publish_idle bus e table s
    obtain ⟨t, hrest⟩ := ih (absorb table e) s'
    refine ⟨t, ?_⟩
    rw [List.foldl_cons, ← hrest, ← hpublish]
    rfl

/-- Every call of the proxy returns, and appends its events one by one. -/
theorem run_proxy (bus : WiredBus ι σ) (call : Call) (table : EventTable) (s : σ) :
    ∃ s', run bus ({ committed := table }, s) call =
      (({ committed := call.events.foldl absorb table }, s'), .ok ()) := by
  cases call with
  | append e =>
    obtain ⟨s', hpublish⟩ := publish_idle bus e table s
    refine ⟨s', ?_⟩
    rw [run, append, hpublish]
    rfl
  | appendBatch events =>
    obtain ⟨s', hpublish⟩ := batchPublish_idle bus events table s
    refine ⟨s', ?_⟩
    rw [run, appendBatch, hpublish]
    rfl

end Publishing

section Runs

/-- One by one or all at once, when nothing is refused. -/
theorem foldl_absorb {events : List EventRecord} {table table' : EventTable}
    (h : recordAll events table = .ok table') : events.foldl absorb table = table' := by
  induction events generalizing table with
  | nil => exact Except.ok.inj h
  | cons e rest ih =>
    rw [recordAll_cons] at h
    obtain ⟨next, hnext, hrest⟩ := bind_eq_ok h
    rw [List.foldl_cons, absorb_of_ok hnext]
    exact ih hrest

theorem exec_store {calls : List Call} {table table' : EventTable}
    (h : recordAll (calls.flatMap Call.events) table = .ok table')
    (answers : List (Call × Except SqliteError Unit)) :
    Machine.exec SQLiteEventStore.step calls ({ committed := table }, answers) =
      ({ committed := table' }, answers ++ calls.map (·, .ok ())) := by
  induction calls generalizing table answers with
  | nil =>
    cases h
    rw [List.map_nil, List.append_nil]
    rfl
  | cons call rest ih =>
    rw [List.flatMap_cons, recordAll_append] at h
    obtain ⟨next, hnext, hrest⟩ := bind_eq_ok h
    rw [Machine.exec_cons, advance_returned hnext, ih hrest, List.append_assoc]
    rfl

theorem exec_proxy (bus : WiredBus ι σ) (calls : List Call) (table : EventTable) (s : σ)
    (answers : List (Call × Except SqliteError Unit)) :
    ∃ s', Machine.exec (step bus) calls (({ committed := table }, s), answers) =
      (({ committed := (calls.flatMap Call.events).foldl absorb table }, s'),
        answers ++ calls.map (·, .ok ())) := by
  induction calls generalizing table s answers with
  | nil => exact ⟨s, by rw [List.map_nil, List.append_nil]; rfl⟩
  | cons call rest ih =>
    obtain ⟨s', hrun⟩ := run_proxy bus call table s
    have hstep : Machine.advance (step bus) (({ committed := table }, s), answers) call =
        (({ committed := call.events.foldl absorb table }, s'), answers ++ [(call, .ok ())]) := by
      unfold Machine.advance step
      rw [hrun]
    obtain ⟨t, hrest⟩ := ih (call.events.foldl absorb table) s' (answers ++ [(call, .ok ())])
    refine ⟨t, ?_⟩
    rw [Machine.exec_cons, hstep, hrest, List.flatMap_cons, List.foldl_append, List.append_assoc]
    rfl

/-- Whether the call of an answer raised. -/
def raised (answer : Call × Except SqliteError Unit) : Bool :=
  match answer.2 with
  | .ok () => false
  | .error _ => true

theorem exec_store_raises {calls : List Call} {table : EventTable}
    (h : ¬ ∃ table', recordAll (calls.flatMap Call.events) table = .ok table')
    (answers : List (Call × Except SqliteError Unit)) :
    ∃ answer ∈ (Machine.exec SQLiteEventStore.step calls ({ committed := table }, answers)).2,
      raised answer = true := by
  induction calls generalizing table answers with
  | nil => exact absurd ⟨table, rfl⟩ h
  | cons call rest ih =>
    rw [Machine.exec_cons]
    cases hrecord : recordAll call.events table with
    | ok next =>
      rw [advance_returned hrecord]
      refine ih ?_ _
      rintro ⟨table', hrest⟩
      refine h ⟨table', ?_⟩
      rw [List.flatMap_cons, recordAll_append, hrecord, ok_bind, hrest]
    | error err =>
      rw [advance_raised hrecord, Machine.exec_outputs]
      exact ⟨(call, .error err), by simp, rfl⟩

/-- A run of the store itself and a run of the proxy with the same calls. -/
structure Agrees (store : Connection EventTable × List (Call × Except SqliteError Unit))
    (proxy : (Connection EventTable × σ) × List (Call × Except SqliteError Unit)) : Prop where
  events : store.1.current.rows = proxy.1.1.current.rows
  raised : store.2.map raised = proxy.2.map raised

/-- The event store as the only subscriber. -/
def storeOnly : WiredBus Unit Unit where
  subscribers := [()]
  nodup := List.nodup_singleton ()
  handler := fun _ => .eventStore
  stores := ⟨(), List.mem_singleton.mpr rfl, rfl⟩

end Runs

end EventStoreBusProxy

end MollisRuntime.Observability
