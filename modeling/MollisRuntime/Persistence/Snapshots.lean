import MollisRuntime.Persistence.StateStore
import MollisRuntime.Python.Json

/-!
Snapshots: a runtime state as one text, compressed or not, and the table of the
named snapshots. json.loads, zlib and base64 are parameters. The text of a
dictionary begins with a brace, which tells it from a compressed one.
-/
namespace MollisRuntime.Persistence

open Ordered Python
open Workflow (encodeOptStr encodeStrs)

section ToDict

/-- `asdict(self)`, as for the other snapshots: free-form values are copied. -/
def TaskExecutionState.toDict (t : TaskExecutionState) : List (String × Value) :=
  [("task_id", .str t.taskId), ("title", .str t.title), ("task_type", .str t.taskType),
    ("status", .str t.status), ("created_at", .str t.createdAt),
    ("started_at", encodeOptStr t.startedAt), ("completed_at", encodeOptStr t.completedAt),
    ("retry_count", .int t.retryCount), ("metadata", encodeAttrs t.metadata),
    ("error_message", encodeOptStr t.errorMessage), ("version", .int t.version)]

def WorkerStateSnapshot.toDict (w : WorkerStateSnapshot) : List (String × Value) :=
  [("worker_id", .str w.workerId), ("state", .str w.state),
    ("current_task_id", encodeOptStr w.currentTaskId),
    ("heartbeat_time", .str w.heartbeatTime), ("tasks_processed", .int w.tasksProcessed),
    ("failures", .int w.failures), ("start_time", .str w.startTime),
    ("version", .int w.version)]

def QueueStateSnapshot.toDict (q : QueueStateSnapshot) : List (String × Value) :=
  [("queued_task_ids", encodeStrs q.queuedTaskIds), ("size", .int q.size),
    ("capacity", encodeOptInt q.capacity), ("policy_type", .str q.policyType),
    ("version", .int q.version)]

def SchedulerStateSnapshot.toDict (s : SchedulerStateSnapshot) : List (String × Value) :=
  [("started", .bool s.started), ("uptime_seconds", .float s.uptimeSeconds),
    ("delayed_task_ids", encodeStrs s.delayedTaskIds),
    ("active_timeouts", encodeDict .float s.activeTimeouts), ("version", .int s.version)]

def RuntimeState.toDict (state : RuntimeState) : Value :=
  .dict [("timestamp", .str state.timestamp),
    ("tasks", encodeDict (fun t => .dict t.toDict) state.tasks),
    ("workers", encodeDict (fun w => .dict w.toDict) state.workers),
    ("queue", .dict state.queue.toDict), ("scheduler", .dict state.scheduler.toDict),
    ("schema_version", .int state.schemaVersion)]

/-- A from_dict, for any value; what is not a dictionary has no keys. -/
def ofDict {α : Type} (fromDict : List (String × Value) → Except PyError α) (v : Value) :
    Except PyError α := do
  fromDict (← v.asDict)

def RuntimeState.fromDict (data : List (String × Value)) : Except PyError RuntimeState := do
  let timestamp ← (← getItem data "timestamp").asStr
  let tasks ← decodeDict (ofDict TaskExecutionState.fromDict) (← getItem data "tasks")
  let workers ← decodeDict (ofDict WorkerStateSnapshot.fromDict) (← getItem data "workers")
  let queue ← ofDict QueueStateSnapshot.fromDict (← getItem data "queue")
  let scheduler ← ofDict SchedulerStateSnapshot.fromDict (← getItem data "scheduler")
  let schemaVersion ← (getD data "schema_version" (.int 1)).asInt
  return { timestamp, tasks, workers, queue, scheduler, schemaVersion }

theorem ofDict_dict {α : Type} (fromDict : List (String × Value) → Except PyError α)
    (entries : List (String × Value)) : ofDict fromDict (.dict entries) = fromDict entries := rfl

theorem TaskExecutionState.fromDict_toDict (t : TaskExecutionState) :
    TaskExecutionState.fromDict t.toDict = .ok t :=
  fromDict_columns t

theorem WorkerStateSnapshot.fromDict_toDict (w : WorkerStateSnapshot) :
    WorkerStateSnapshot.fromDict w.toDict = .ok w :=
  workerFromDict_columns w

theorem QueueStateSnapshot.fromDict_toDict (q : QueueStateSnapshot) :
    QueueStateSnapshot.fromDict q.toDict = .ok q := by
  simp [QueueStateSnapshot.fromDict, QueueStateSnapshot.toDict, getItem, getD, lookup,
    Value.asStr, Value.asInt]

theorem SchedulerStateSnapshot.fromDict_toDict (s : SchedulerStateSnapshot) :
    SchedulerStateSnapshot.fromDict s.toDict = .ok s := by
  have htimeouts := decodeDict_encodeDict Value.float Value.asFloat (fun _ => rfl)
    s.activeTimeouts
  simp [SchedulerStateSnapshot.fromDict, SchedulerStateSnapshot.toDict, getItem, getD, lookup,
    Value.asBool, Value.asFloat, Value.asInt, htimeouts]

theorem RuntimeState.fromDict_toDict (state : RuntimeState) :
    ofDict RuntimeState.fromDict state.toDict = .ok state := by
  have htasks := decodeDict_encodeDict (fun t : TaskExecutionState => .dict t.toDict)
    (ofDict TaskExecutionState.fromDict) TaskExecutionState.fromDict_toDict state.tasks
  have hworkers := decodeDict_encodeDict (fun w : WorkerStateSnapshot => .dict w.toDict)
    (ofDict WorkerStateSnapshot.fromDict) WorkerStateSnapshot.fromDict_toDict state.workers
  rw [RuntimeState.toDict, ofDict_dict]
  simp [RuntimeState.fromDict, getItem, getD, lookup, Value.asStr, Value.asInt, ofDict_dict,
    htasks, hworkers, QueueStateSnapshot.fromDict_toDict, SchedulerStateSnapshot.fromDict_toDict]

theorem TaskExecutionState.isJson_toDict {t : TaskExecutionState}
    (h : (encodeAttrs t.metadata).isJson = true) : (Value.dict t.toDict).isJson = true := by
  simp only [Value.isJson_dict, TaskExecutionState.toDict, List.forall_mem_cons]
  simpa using h

theorem WorkerStateSnapshot.isJson_toDict (w : WorkerStateSnapshot) :
    (Value.dict w.toDict).isJson = true := by
  simp [WorkerStateSnapshot.toDict]

theorem QueueStateSnapshot.isJson_toDict (q : QueueStateSnapshot) :
    (Value.dict q.toDict).isJson = true := by
  obtain ⟨ids, size, _ | capacity, policy, version⟩ := q <;>
    simp [QueueStateSnapshot.toDict, encodeOptInt]

theorem SchedulerStateSnapshot.isJson_toDict (s : SchedulerStateSnapshot) :
    (Value.dict s.toDict).isJson = true := by
  simp [SchedulerStateSnapshot.toDict]

/-- The free-form values of a state are the metadata of its tasks. -/
theorem RuntimeState.isJson_toDict {state : RuntimeState}
    (h : ∀ e ∈ state.tasks.entries, (encodeAttrs e.2.metadata).isJson = true) :
    state.toDict.isJson = true := by
  have htasks : (encodeDict (fun t : TaskExecutionState => .dict t.toDict) state.tasks).isJson =
      true := (isJson_encodeDict _ _).mpr fun e he => TaskExecutionState.isJson_toDict (h e he)
  have hworkers : (encodeDict (fun w : WorkerStateSnapshot => .dict w.toDict)
      state.workers).isJson = true :=
    (isJson_encodeDict _ _).mpr fun e _ => e.2.isJson_toDict
  have hqueue := state.queue.isJson_toDict
  have hscheduler := state.scheduler.isJson_toDict
  rw [RuntimeState.toDict, Value.isJson_dict]
  simp only [List.forall_mem_cons, htasks, hworkers, hqueue, hscheduler]
  simp

end ToDict

/-- What the snapshots are written and read with. The text of base64 is ASCII. -/
structure Coders where
  floatRepr : ℚ → String
  loads : String → Except PyError Value
  compress : ByteArray → ByteArray
  decompress : ByteArray → Except PyError ByteArray
  b64encode : ByteArray → String
  b64decode : String → Except PyError ByteArray

/-- The coders undo themselves on the way of one payload. -/
structure Coders.InverseOn (c : Coders) (payload : Value) : Prop where
  json : ∀ raw, Json.dumps c.floatRepr payload = .ok raw → c.loads raw = .ok payload
  zlib : ∀ raw, Json.dumps c.floatRepr payload = .ok raw →
    c.decompress (c.compress raw.toUTF8) = .ok raw.toUTF8
  base64 : ∀ raw, Json.dumps c.floatRepr payload = .ok raw →
    c.b64decode (c.b64encode (c.compress raw.toUTF8)) = .ok (c.compress raw.toUTF8)

/-- `data.decode("utf-8")` -/
def decodeUtf8 (data : ByteArray) : Except PyError String :=
  match String.fromUTF8? data with
  | some s => .ok s
  | none => .error (.valueError "'utf-8' codec can't decode")

@[simp] theorem decodeUtf8_toUTF8 (s : String) : decodeUtf8 s.toUTF8 = .ok s := by
  have hvalid : s.toUTF8.IsValidUTF8 := s.isValidUTF8
  simp only [decodeUtf8, String.fromUTF8?, dif_pos hvalid]
  rfl

def SnapshotSerializer.serialize (c : Coders) (state : RuntimeState) (compress : Bool) :
    Except PyError String := do
  let payload ← Json.dumps c.floatRepr state.toDict
  if compress then return "zlib:" ++ c.b64encode (c.compress payload.toUTF8)
  else return payload

namespace SnapshotLoader

/-- `raw_data.startswith("zlib:")` -/
def isCompressed (rawData : String) : Bool := "zlib:".toList.isPrefixOf rawData.toList

def deserialize (c : Coders) (rawData : String) : Except PyError RuntimeState := do
  let payload ←
    if isCompressed rawData then do
      let compressed ← c.b64decode (String.ofList (rawData.toList.drop "zlib:".toList.length))
      let decompressed ← c.decompress compressed
      c.loads (← decodeUtf8 decompressed)
    else c.loads rawData
  ofDict RuntimeState.fromDict payload

theorem isCompressed_tagged (s : String) : isCompressed ("zlib:" ++ s) = true := by
  rw [isCompressed, String.toList_append]
  exact List.isPrefixOf_iff_prefix.mpr (List.prefix_append _ _)

/-- A text that begins with a brace is not taken for a compressed one. -/
theorem isCompressed_dumps {floatRepr : ℚ → String} {entries : List (String × Value)}
    {raw : String} (h : Json.dumps floatRepr (.dict entries) = .ok raw) :
    isCompressed raw = false := by
  obtain ⟨v, hv, hraw⟩ := bind_eq_ok h
  obtain ⟨-, rfl⟩ := (jsonPayload_eq_ok_iff _ _).mp hv
  cases Except.ok.inj hraw
  have hraw : (String.ofList (Json.text floatRepr (.dict entries))).toList =
      Json.text floatRepr (.dict entries) := String.toList_ofList
  rw [isCompressed, hraw, Json.text]
  rfl

theorem untag (s : String) :
    String.ofList (("zlib:" ++ s).toList.drop "zlib:".toList.length) = s := by
  rw [String.toList_append, List.drop_left, String.ofList_toList]

end SnapshotLoader

/-- Either text of a state is read back, and as what it is. -/
theorem deserialize_serialize {c : Coders} {state : RuntimeState}
    (hjson : ∀ e ∈ state.tasks.entries, (encodeAttrs e.2.metadata).isJson = true)
    (hc : c.InverseOn state.toDict) (compress : Bool) :
    ∃ raw, SnapshotSerializer.serialize c state compress = .ok raw ∧
      SnapshotLoader.isCompressed raw = compress ∧
      SnapshotLoader.deserialize c raw = .ok state := by
  have hdumps := Json.dumps_ok c.floatRepr (RuntimeState.isJson_toDict hjson)
  generalize String.ofList (Json.text c.floatRepr state.toDict) = payload at hdumps
  have hread := hc.json payload hdumps
  cases compress with
  | false =>
    have hplain : SnapshotLoader.isCompressed payload = false :=
      SnapshotLoader.isCompressed_dumps hdumps
    refine ⟨payload, ?_, hplain, ?_⟩
    · rw [SnapshotSerializer.serialize, hdumps]
      rfl
    · rw [SnapshotLoader.deserialize, hplain, if_neg Bool.false_ne_true, hread]
      exact state.fromDict_toDict
  | true =>
    have htagged := SnapshotLoader.isCompressed_tagged (c.b64encode (c.compress payload.toUTF8))
    refine ⟨_, ?_, htagged, ?_⟩
    · rw [SnapshotSerializer.serialize, hdumps]
      rfl
    · rw [SnapshotLoader.deserialize, htagged, if_pos rfl, SnapshotLoader.untag,
        hc.base64 payload hdumps, ok_bind, hc.zlib payload hdumps, ok_bind, decodeUtf8_toUTF8,
        ok_bind, hread]
      exact state.fromDict_toDict

namespace StateStore
variable (c : Coders)

def snapshotColumns (snapshotId : String) (state : RuntimeState) (stateJson : String) : Row :=
  [("snapshot_id", .str snapshotId), ("timestamp", .str state.timestamp),
    ("state_data", .str stateJson), ("schema_version", .int state.schemaVersion)]

def saveSnapshot (store : StateStore) (snapshotId : String) (state : RuntimeState) :
    Except PyError StateStore := do
  let stateJson ← Json.dumps c.floatRepr state.toDict
  let row ← bindParams (snapshotColumns snapshotId state stateJson)
  return { store with snapshots := store.snapshots.replace snapshotId row }

def loadSnapshot (store : StateStore) (snapshotId : String) :
    Except PyError (Option RuntimeState) :=
  match store.snapshots.get? snapshotId with
  | none => .ok none
  | some row => do
    let stateDict ← c.loads (← (← getItem row "state_data").asStr)
    return some (← ofDict RuntimeState.fromDict stateDict)

def deleteSnapshot (store : StateStore) (snapshotId : String) : StateStore :=
  { store with snapshots := store.snapshots.erase snapshotId }

inductive Action
  | saveRuntimeState (state : RuntimeState)
  | saveSnapshot (snapshotId : String) (state : RuntimeState)
  | deleteSnapshot (snapshotId : String)

/-- A save that raises is rolled back. -/
def orRollback (store : StateStore) : Except PyError StateStore → StateStore
  | .ok saved => saved
  | .error _ => store

def apply (store : StateStore) : Action → StateStore
  | .saveRuntimeState state => store.orRollback (store.saveRuntimeState state)
  | .saveSnapshot snapshotId state => store.orRollback (store.saveSnapshot c snapshotId state)
  | .deleteSnapshot snapshotId => store.deleteSnapshot snapshotId

def Action.Spares (snapshotId : String) : Action → Prop
  | .saveRuntimeState _ => True
  | .saveSnapshot other _ => other ≠ snapshotId
  | .deleteSnapshot other => other ≠ snapshotId

variable {c} {store saved : StateStore} {snapshotId : String} {state : RuntimeState}

theorem saveSnapshot_eq_ok (h : store.saveSnapshot c snapshotId state = .ok saved) :
    ∃ raw, Json.dumps c.floatRepr state.toDict = .ok raw ∧
      saved = { store with snapshots :=
        store.snapshots.replace snapshotId (snapshotColumns snapshotId state raw) } := by
  obtain ⟨raw, hraw, h⟩ := bind_eq_ok h
  obtain ⟨row, hrow, h⟩ := bind_eq_ok h
  rw [bindParams_eq_ok hrow] at h
  exact ⟨raw, hraw, (Except.ok.inj h).symm⟩

/-- A snapshot of JSON values is saved when its schema version fits the column. -/
theorem saveSnapshot_returns_iff (store : StateStore) (snapshotId : String)
    (hjson : state.toDict.isJson = true) :
    (∃ saved, store.saveSnapshot c snapshotId state = .ok saved) ↔
      -2 ^ 63 ≤ state.schemaVersion ∧ state.schemaVersion < 2 ^ 63 := by
  have hrow := bindParams_returns_iff
    (snapshotColumns snapshotId state (String.ofList (Json.text c.floatRepr state.toDict)))
  rw [saveSnapshot, Json.dumps_ok _ hjson, ok_bind, bind_returns_iff]
  simp only [snapshotColumns, List.all_cons, List.all_nil, bindParams.fits, Bool.true_and,
    Bool.and_true, decide_eq_true_eq] at hrow
  rw [← hrow]
  constructor
  · rintro ⟨row, hbound, -⟩
    exact ⟨row, hbound⟩
  · rintro ⟨row, hbound⟩
    exact ⟨row, hbound, _, rfl⟩

theorem loadSnapshot_of_get? {raw : String} (hc : c.InverseOn state.toDict)
    (hraw : Json.dumps c.floatRepr state.toDict = .ok raw)
    (h : store.snapshots.get? snapshotId = some (snapshotColumns snapshotId state raw)) :
    store.loadSnapshot c snapshotId = .ok (some state) := by
  have hcolumn : getItem (snapshotColumns snapshotId state raw) "state_data" = .ok (.str raw) := rfl
  have hread := hc.json raw hraw
  have hstate := state.fromDict_toDict
  simp only [loadSnapshot, h, hcolumn, ok_bind, Value.asStr, hread, hstate]
  rfl

/-- What is done to other snapshots leaves a row alone. -/
theorem get?_apply (store : StateStore) {a : Action} (h : a.Spares snapshotId) :
    (store.apply c a).snapshots.get? snapshotId = store.snapshots.get? snapshotId := by
  cases a with
  | saveRuntimeState state =>
    rw [apply]
    cases hsave : store.saveRuntimeState state with
    | error e => rfl
    | ok saved =>
      rw [saveRuntimeState_eq_ok hsave]
      rfl
  | saveSnapshot other state =>
    rw [apply]
    cases hsave : store.saveSnapshot c other state with
    | error e => rfl
    | ok saved =>
      obtain ⟨raw, -, rfl⟩ := saveSnapshot_eq_ok hsave
      exact (Dict.get?_replace _ _ _ _).trans (if_neg h)
  | deleteSnapshot other => exact (Dict.get?_erase _ _ _).trans (if_neg h)

theorem get?_foldl_apply (store : StateStore) {actions : List Action}
    (h : ∀ a ∈ actions, a.Spares snapshotId) :
    (actions.foldl (apply c) store).snapshots.get? snapshotId =
      store.snapshots.get? snapshotId := by
  induction actions generalizing store with
  | nil => rfl
  | cons a rest ih =>
    rw [List.foldl_cons, ih _ fun b hb => h b (List.mem_cons_of_mem _ hb),
      get?_apply store (h a (by simp))]

end StateStore

/-- A state comes back from its text, compressed or not, and from the store. -/
theorem snapshot_round_trip (c : Coders) (state : RuntimeState)
    (hjson : ∀ e ∈ state.tasks.entries, (encodeAttrs e.2.metadata).isJson = true)
    (hc : c.InverseOn state.toDict) :
    (∀ compress, ∃ raw, SnapshotSerializer.serialize c state compress = .ok raw ∧
      SnapshotLoader.isCompressed raw = compress ∧
      SnapshotLoader.deserialize c raw = .ok state) ∧
    ∀ (store : StateStore) (snapshotId : String),
      ((∃ saved, store.saveSnapshot c snapshotId state = .ok saved) ↔
        -2 ^ 63 ≤ state.schemaVersion ∧ state.schemaVersion < 2 ^ 63) ∧
      ∀ saved, store.saveSnapshot c snapshotId state = .ok saved →
        ∀ actions : List StateStore.Action, (∀ a ∈ actions, a.Spares snapshotId) →
          (actions.foldl (StateStore.apply c) saved).loadSnapshot c snapshotId =
            .ok (some state) := by
  refine ⟨deserialize_serialize hjson hc, fun store snapshotId => ⟨?_, ?_⟩⟩
  · exact StateStore.saveSnapshot_returns_iff store snapshotId (RuntimeState.isJson_toDict hjson)
  · intro saved hsaved actions hspares
    obtain ⟨raw, hraw, rfl⟩ := StateStore.saveSnapshot_eq_ok hsaved
    apply StateStore.loadSnapshot_of_get? hc hraw
    rw [StateStore.get?_foldl_apply _ hspares, Dict.get?_replace, if_pos rfl]

section Samples

/-- A started runtime with one task waiting for its second attempt. -/
def sampleState : RuntimeState where
  timestamp := "2026-01-01T12:00:00"
  tasks := Dict.empty.set "t1" {
    taskId := "t1", title := "ls", taskType := "shell", status := "Pending",
    createdAt := "2026-01-01T11:59:00", retryCount := 1,
    metadata := Dict.empty.set "env" (.dict [("LANG", .str "C")]) }
  workers := .empty
  queue := { queuedTaskIds := ["t1"], size := 1, capacity := none, policyType := "FIFO" }
  scheduler := {
    started := true, uptimeSeconds := 60, delayedTaskIds := [], activeTimeouts := .empty }
  schemaVersion := 2

def samplePayload : String := String.ofList (Json.text (fun _ => "60.0") sampleState.toDict)

/-- What zlib makes of the sample's text. -/
def sampleCompressed : ByteArray :=
  ⟨#[120, 156, 109, 145, 65, 75, 3, 49, 16, 133, 255, 74, 201, 89, 101, 119, 193, 130, 189, 137,
    208, 34, 136, 122, 240, 38, 18, 134, 100, 104, 67, 179, 201, 154, 76, 42, 107, 233, 127, 119,
    38, 174, 45, 44, 66, 32, 201, 151, 153, 247, 222, 206, 30, 21, 185, 30, 51, 65, 63, 168, 213,
    66, 117, 77, 183, 188, 110, 90, 94, 111, 109, 183, 106, 26, 94, 234, 106, 161, 8, 242, 62,
    243, 251, 81, 81, 251, 187, 49, 208, 206, 74, 11, 19, 169, 112, 228, 81, 174, 62, 255, 53,
    104, 26, 135, 138, 242, 14, 189, 23, 202, 54, 84, 68, 71, 189, 98, 176, 46, 108, 5, 154, 132,
    64, 104, 53, 208, 60, 64, 187, 186, 189, 155, 2, 112, 103, 58, 23, 133, 226, 189, 52, 198,
    126, 240, 56, 167, 9, 41, 141, 218, 196, 18, 4, 182, 76, 122, 36, 176, 64, 80, 131, 99, 56,
    212, 253, 233, 254, 121, 35, 126, 15, 234, 116, 226, 26, 76, 41, 38, 205, 131, 200, 176, 197,
    139, 216, 1, 83, 118, 49, 136, 80, 45, 251, 138, 105, 207, 72, 20, 228, 250, 89, 176, 96,
    149, 171, 39, 171, 167, 177, 72, 193, 187, 12, 230, 67, 162, 187, 111, 156, 146, 24, 24, 192,
    56, 26, 47, 6, 67, 244, 206, 140, 231, 73, 173, 31, 215, 47, 106, 230, 43, 18, 102, 135, 182,
    120, 76, 213, 107, 154, 5, 159, 41, 21, 228, 231, 50, 200, 63, 212, 25, 77, 12, 213, 123,
    217, 220, 52, 204, 45, 122, 24, 103, 169, 36, 17, 24, 114, 7, 212, 210, 20, 11, 157, 191,
    230, 31, 211, 30, 244, 133, 118, 167, 31, 144, 255, 173, 52]⟩

def sampleBase64 : String :=
  "eJxtkUFLAzEQhf9KyVlld8GCvYnQIoh68CYShmRoQ7PJmkwqa+l/dyauLSxCIMmXmffezh4VuR4zQT+o" ++
  "1UJ1Tbe8blpeb223ahpe6mqhCPI+8/tRUfu7MdDOSgsTqXDkUa4+/zVoGoeK8g69F8o2VERHvWKwLmwF" ++
  "moRAaDXQPEC7ur2bAnBnOheF4r00xn7wOKcJKY3axBIEtkx6JLBAUINjONT96f55I34P6nTiGkwpJs2D" ++
  "yLDFi9gBU3YxiFAt+4ppz0gU5PpZsGCVqyerp7FIwbsM5kOiu2+ckhgYwDgaLwZD9M6M50mtH9cvauYr" ++
  "EmaHtnhM1WuaBZ8pFeTnMsg/1BlNDNV72dw0zC16GGepJBEYcgfU0hQLnb/mH9Me9IV2px+Q/600"

/-- The coders on the sample. -/
def sampleCoders : Coders where
  floatRepr _ := "60.0"
  loads raw :=
    if raw = samplePayload then .ok sampleState.toDict
    else .error (.valueError "JSONDecodeError")
  compress data := if data.data = samplePayload.toUTF8.data then sampleCompressed else data
  decompress data :=
    if data.data = sampleCompressed.data then .ok samplePayload.toUTF8
    else .error (.valueError "incorrect header check")
  b64encode data := if data.data = sampleCompressed.data then sampleBase64 else ""
  b64decode s :=
    if s = sampleBase64 then .ok sampleCompressed else .error (.valueError "Incorrect padding")

theorem inverseOn_sample : sampleCoders.InverseOn sampleState.toDict := by
  have hpayload : ∀ raw, Json.dumps sampleCoders.floatRepr sampleState.toDict = .ok raw →
      raw = samplePayload := by
    intro raw h
    rw [Json.dumps_ok _ (by decide)] at h
    exact (Except.ok.inj h).symm
  have hcompress : sampleCoders.compress samplePayload.toUTF8 = sampleCompressed := by
    simp [sampleCoders]
  have hencode : sampleCoders.b64encode sampleCompressed = sampleBase64 := by
    simp [sampleCoders]
  constructor
  · intro raw h
    simp [sampleCoders, hpayload raw h]
  · intro raw h
    rw [hpayload raw h, hcompress]
    simp [sampleCoders]
  · intro raw h
    rw [hpayload raw h, hcompress, hencode]
    simp [sampleCoders]

theorem snapshot_round_trip_sample :
    (∃ raw, SnapshotSerializer.serialize sampleCoders sampleState true = .ok raw ∧
      SnapshotLoader.isCompressed raw = true ∧
      SnapshotLoader.deserialize sampleCoders raw = .ok sampleState) ∧
    ∀ saved, ({} : StateStore).saveSnapshot sampleCoders "alpha" sampleState = .ok saved →
      (saved.deleteSnapshot "beta").loadSnapshot sampleCoders "alpha" =
        .ok (some sampleState) := by
  have hjson : ∀ e ∈ sampleState.tasks.entries, (encodeAttrs e.2.metadata).isJson = true := by
    decide
  obtain ⟨htext, hstore⟩ := snapshot_round_trip sampleCoders sampleState hjson inverseOn_sample
  refine ⟨htext true, fun saved hsaved => ?_⟩
  exact (hstore {} "alpha").2 saved hsaved [.deleteSnapshot "beta"] (by
    simp [StateStore.Action.Spares])

end Samples

end MollisRuntime.Persistence
