import MollisRuntime.Library.Statements
import MollisRuntime.Persistence.EventLog
import MollisRuntime.Persistence.Snapshots
import MollisRuntime.Workflow.Orchestrator

/-!
The SQLite store as a whole: one connection, on which the state store, the event
store and the orchestrator's checkpoints write their tables. Each call is a block of
statements, and whatever raises within it, the connection is idle afterwards and
the tables are either those of the whole call or those before it.
-/
namespace MollisRuntime.Persistence

open Ordered Python Database

/-- All tables. The events of the state store are in their own table. The table of the
workflow definitions is only ever written and left out. -/
structure SqliteDatabase where
  state : StateStore := {}
  events : EventTable := .empty
  workflows : Workflow.Store := .empty

abbrev SqlStatement (π : Type) := Statement π SqliteError

section Parts

def statePart : Part SqliteDatabase StateStore :=
  ⟨SqliteDatabase.state, fun state db => { db with state }, fun _ _ => rfl, fun _ _ _ => rfl,
    fun _ => rfl⟩

def eventsPart : Part SqliteDatabase EventTable :=
  ⟨SqliteDatabase.events, fun events db => { db with events }, fun _ _ => rfl, fun _ _ _ => rfl,
    fun _ => rfl⟩

def workflowsPart : Part SqliteDatabase Workflow.Store :=
  ⟨SqliteDatabase.workflows, fun workflows db => { db with workflows }, fun _ _ => rfl,
    fun _ _ _ => rfl, fun _ => rfl⟩

def tasksPart : Part StateStore Table :=
  ⟨StateStore.tasks, fun tasks store => { store with tasks }, fun _ _ => rfl, fun _ _ _ => rfl,
    fun _ => rfl⟩

def workersPart : Part StateStore Table :=
  ⟨StateStore.workers, fun workers store => { store with workers }, fun _ _ => rfl,
    fun _ _ _ => rfl, fun _ => rfl⟩

end Parts

section Statements

/-- json.dumps of a parameter. -/
def dumping (v : Value) : Except SqliteError Unit := raising do
  let _ ← jsonPayload v
  return ()

/-- `DELETE FROM` a table. -/
def clear : SqlStatement Table := ⟨.ok (), fun _ => .ok .empty⟩

def insertTask (t : TaskExecutionState) : SqlStatement Table where
  params := dumping (encodeAttrs t.metadata)
  effect table := raising do
    let row ← bindParams (SQLiteTaskStateRepository.columns t)
    return table.replace t.taskId row

def insertWorker (w : WorkerStateSnapshot) : SqlStatement Table where
  params := .ok ()
  effect table := raising (SQLiteWorkerStateRepository.save table w)

def insertQueueState (queue : QueueStateSnapshot) : SqlStatement StateStore where
  params := .ok ()
  effect store := raising do
    let row ← bindParams (StateStore.queueColumns queue)
    return { store with queueState := some row }

def insertSchedulerState (state : RuntimeState) : SqlStatement StateStore where
  params := .ok ()
  effect store := raising do
    let row ← bindParams (StateStore.schedulerColumns state)
    return { store with schedulerState := some row }

def insertSnapshot (snapshotId : String) (state : RuntimeState) (stateJson : String) :
    SqlStatement StateStore where
  params := .ok ()
  effect store := raising do
    let row ← bindParams (StateStore.snapshotColumns snapshotId state stateJson)
    return { store with snapshots := store.snapshots.replace snapshotId row }

def removeSnapshot (snapshotId : String) : SqlStatement StateStore where
  params := .ok ()
  effect store := .ok (store.deleteSnapshot snapshotId)

def insertEvent (e : EventRecord) : SqlStatement EventTable where
  params := raising e.dumps
  effect := SQLiteEventStore.bindAndInsert e

/-- `DELETE FROM events;` AUTOINCREMENT does not begin anew. -/
def clearEvents : SqlStatement EventTable where
  params := .ok ()
  effect table := .ok {
    rows := []
    lastSequence := table.lastSequence
    increasing := EventTable.empty.increasing
    issued := fun _ h => absurd h List.not_mem_nil
    nodup_ids := EventTable.empty.nodup_ids
    bounded := table.bounded }

def insertDefinition (definition : Workflow.WorkflowDefinition) :
    SqlStatement Workflow.Store where
  params := dumping definition.toDict
  effect := .ok

/-- The row of an instance is its dump. -/
def replaceInstance (store : Workflow.Store) (inst : Workflow.WorkflowInstance) :
    Except PyError Workflow.Store :=
  match h : jsonPayload inst.toDict with
  | .error e => .error e
  | .ok row => .ok (store.replace inst row h)

def insertInstance (inst : Workflow.WorkflowInstance) : SqlStatement Workflow.Store where
  params := dumping inst.toDict
  effect store := raising (replaceInstance store inst)

end Statements

/-- A call that writes. -/
inductive StoreCall
  | saveRuntimeState (state : RuntimeState)
  | saveSnapshot (snapshotId : String) (state : RuntimeState)
  | deleteSnapshot (snapshotId : String)
  | append (e : EventRecord)
  | appendBatch (events : List EventRecord)
  | truncate
  | checkpointWorkflow (inst : Workflow.WorkflowInstance)

namespace StoreCall

/-- `with self.transaction():` -/
def transaction (statements : List (SqlStatement SqliteDatabase)) :
    Body SqliteDatabase SqliteError :=
  Connection.transaction (.operationalError "cannot start a transaction within a transaction")
    statements

def saveStatements (state : RuntimeState) : List (SqlStatement StateStore) :=
  (clear :: state.tasks.values.map insertTask).map tasksPart.statement ++
    (clear :: state.workers.values.map insertWorker).map workersPart.statement ++
    [insertQueueState state.queue, insertSchedulerState state]

def run (c : Coders) : StoreCall → Body SqliteDatabase SqliteError
  | saveRuntimeState state => transaction ((saveStatements state).map statePart.statement)
  | saveSnapshot snapshotId state => fun conn =>
    match Json.dumps c.floatRepr state.toDict with
    | .ok stateJson =>
      transaction [statePart.statement (insertSnapshot snapshotId state stateJson)] conn
    | .error e => (conn, .error (.raised e))
  | deleteSnapshot snapshotId => transaction [statePart.statement (removeSnapshot snapshotId)]
  | append e => Connection.block [eventsPart.statement (insertEvent e)]
  | appendBatch events => Connection.block (events.map (eventsPart.statement ∘ insertEvent))
  | truncate => Connection.block [eventsPart.statement clearEvents]
  | checkpointWorkflow inst =>
    transaction [workflowsPart.statement (insertDefinition inst.definition),
      workflowsPart.statement (insertInstance inst)]

/-- The call as one step on the tables. -/
def perform (c : Coders) : StoreCall → SqliteDatabase → Except SqliteError SqliteDatabase
  | saveRuntimeState state => statePart.lift fun store => raising (store.saveRuntimeState state)
  | saveSnapshot snapshotId state =>
    statePart.lift fun store => raising (store.saveSnapshot c snapshotId state)
  | deleteSnapshot snapshotId => statePart.lift fun store => .ok (store.deleteSnapshot snapshotId)
  | append e => eventsPart.lift (SQLiteEventStore.record e)
  | appendBatch events => eventsPart.lift (SQLiteEventStore.recordAll events)
  | truncate => eventsPart.lift clearEvents.effect
  | checkpointWorkflow inst =>
    workflowsPart.lift fun store => raising (Workflow.checkpointWorkflow store inst)

section Blocks

theorem raising_bind {α β : Type} (x : Except PyError α) (f : α → Except PyError β) :
    raising (x >>= f) = raising x >>= fun a => raising (f a) := by
  cases x <;> rfl

theorem raising_foldlM {α β : Type} (f : β → α → Except PyError β) (xs : List α) (b : β) :
    raising (xs.foldlM f b) = xs.foldlM (fun b a => raising (f b a)) b := by
  induction xs generalizing b with
  | nil => rfl
  | cons a rest ih =>
    rw [List.foldlM_cons, List.foldlM_cons, raising_bind]
    exact congrArg (raising (f b a) >>= ·) (funext ih)

theorem run_insertTask (t : TaskExecutionState) (table : Table) :
    (insertTask t).run table = raising (SQLiteTaskStateRepository.save table t) := by
  unfold Statement.run insertTask dumping SQLiteTaskStateRepository.save
  cases jsonPayload (encodeAttrs t.metadata) <;> rfl

/-- A table written anew, one row after the other. -/
theorem runAll_anew {α : Type} (insert : α → SqlStatement Table)
    (save : Table → α → Except PyError Table)
    (hinsert : ∀ a table, (insert a).run table = raising (save table a))
    (d : Dict String α) (table : Table) :
    Statement.runAll (clear :: d.values.map insert) table =
      raising (d.entries.foldlM (fun table e => save table e.2) .empty) := by
  rw [raising_foldlM, Statement.runAll_cons]
  change Statement.runAll (d.values.map insert) .empty = _
  rw [Statement.runAll, Dict.values, List.map_map, List.foldlM_map]
  simp only [Function.comp_apply, hinsert]

theorem runAll_saveStatements (state : RuntimeState) (store : StateStore) :
    Statement.runAll (saveStatements state) store = raising (store.saveRuntimeState state) := by
  have htasks := runAll_anew insertTask SQLiteTaskStateRepository.save run_insertTask state.tasks
  have hworkers := runAll_anew insertWorker SQLiteWorkerStateRepository.save
    (fun _ _ => rfl) state.workers
  unfold saveStatements StateStore.saveRuntimeState
  rw [Statement.runAll_append, Statement.runAll_append, Part.runAll_statements]
  unfold Part.lift
  rw [htasks]
  cases state.tasks.entries.foldlM (fun table e => SQLiteTaskStateRepository.save table e.2)
      (Dict.empty : Table) with
  | error e => rfl
  | ok tasks =>
    change Statement.runAll (List.map workersPart.statement _) { store with tasks } >>= _ = _
    rw [Part.runAll_statements]
    unfold Part.lift
    rw [hworkers]
    cases state.workers.entries.foldlM (fun table e => SQLiteWorkerStateRepository.save table e.2)
        (Dict.empty : Table) with
    | error e => rfl
    | ok workers =>
      change Statement.runAll [_, _] { store with tasks, workers } = raising (do
        let queueState ← bindParams (StateStore.queueColumns state.queue)
        let schedulerState ← bindParams (StateStore.schedulerColumns state)
        return { store with tasks, workers, queueState := some queueState,
                            schedulerState := some schedulerState })
      unfold Statement.runAll Statement.run insertQueueState insertSchedulerState
      cases bindParams (StateStore.queueColumns state.queue) <;>
        cases bindParams (StateStore.schedulerColumns state) <;> rfl

theorem transaction_part {π : Type} (part : Part SqliteDatabase π)
    (statements : List (SqlStatement π)) (db : SqliteDatabase) :
    transaction (statements.map part.statement) { committed := db } =
      Connection.settled db (part.lift (Statement.runAll statements) db) := by
  unfold transaction
  rw [Connection.transaction_idle, Part.runAll_statements]

theorem block_part {π : Type} (part : Part SqliteDatabase π)
    (statements : List (SqlStatement π)) (db : SqliteDatabase) :
    Connection.block (statements.map part.statement) { committed := db } =
      Connection.settled db (part.lift (Statement.runAll statements) db) := by
  rw [Connection.block_idle, Part.runAll_statements]

theorem runAll_insertEvents (events : List EventRecord) (table : EventTable) :
    Statement.runAll (events.map insertEvent) table = SQLiteEventStore.recordAll events table := by
  unfold Statement.runAll SQLiteEventStore.recordAll
  rw [List.foldlM_map]
  rfl

theorem run_insertInstance (inst : Workflow.WorkflowInstance) (store : Workflow.Store) :
    (insertInstance inst).run store = raising (replaceInstance store inst) := by
  unfold Statement.run insertInstance dumping
  cases hdump : jsonPayload inst.toDict with
  | ok row => rfl
  | error e =>
    have hreplace : replaceInstance store inst = .error e := by
      unfold replaceInstance
      split
      · rename_i e' he
        rw [hdump] at he
        cases he
        rfl
      · rename_i row hrow
        rw [hdump] at hrow
        cases hrow
    rw [hreplace]
    rfl

theorem runAll_checkpoint (inst : Workflow.WorkflowInstance) (store : Workflow.Store) :
    Statement.runAll [insertDefinition inst.definition, insertInstance inst] store =
      raising (Workflow.checkpointWorkflow store inst) := by
  rw [Statement.runAll_cons, Statement.runAll_singleton]
  unfold Statement.run insertDefinition dumping Workflow.checkpointWorkflow
  cases jsonPayload inst.definition.toDict with
  | error e => rfl
  | ok _ => exact run_insertInstance inst store

/-- A call on an idle connection takes place as a whole or not at all. -/
theorem run_idle (c : Coders) (call : StoreCall) (db : SqliteDatabase) :
    call.run c { committed := db } = Connection.settled db (call.perform c db) := by
  cases call with
  | saveRuntimeState state =>
    have hrun : Statement.runAll (saveStatements state) =
        fun store => raising (store.saveRuntimeState state) :=
      funext (runAll_saveStatements state)
    exact (transaction_part statePart _ db).trans (by rw [hrun, perform])
  | saveSnapshot snapshotId state =>
    cases hdumps : Json.dumps c.floatRepr state.toDict with
    | error e =>
      simp only [run, perform, Part.lift, StateStore.saveSnapshot, hdumps]
      rfl
    | ok stateJson =>
      have hrun := transaction_part statePart [insertSnapshot snapshotId state stateJson] db
      rw [Statement.runAll_singleton] at hrun
      simp only [run, perform, StateStore.saveSnapshot, hdumps]
      exact hrun
  | deleteSnapshot snapshotId => exact transaction_part statePart [removeSnapshot snapshotId] db
  | append e =>
    refine (block_part eventsPart [insertEvent e] db).trans ?_
    rw [Statement.runAll_singleton]
    rfl
  | appendBatch events =>
    have hrun : Statement.runAll (events.map insertEvent) =
        SQLiteEventStore.recordAll events := funext (runAll_insertEvents events)
    rw [run, ← List.map_map, block_part, hrun, perform]
  | truncate => exact block_part eventsPart [clearEvents] db
  | checkpointWorkflow inst =>
    have hrun : Statement.runAll [insertDefinition inst.definition, insertInstance inst] =
        fun store => raising (Workflow.checkpointWorkflow store inst) :=
      funext (runAll_checkpoint inst)
    exact (transaction_part workflowsPart
      [insertDefinition inst.definition, insertInstance inst] db).trans (by rw [hrun, perform])

end Blocks

end StoreCall

end MollisRuntime.Persistence
