import MollisRuntime.Persistence.Events
import MollisRuntime.Workflow.Codec

/-!
Runtime events with all their fields. An event has the fields of the base class
and one value for each field of its own class; to_dict writes them under their
names, and from_dict looks the class up by the name that to_dict wrote.
-/
namespace MollisRuntime.Persistence

open Ordered Python
open Workflow (encodeOptStr)

/-- An event class: its name, and the fields it adds to the base class. -/
structure EventClass where
  name : String
  ownFields : List String
  deriving DecidableEq

namespace EventClass

/-- RuntimeEvent itself, which is not registered. -/
def base : EventClass := ⟨"RuntimeEvent", []⟩

/-- `__dataclass_fields__` of the base class. -/
def baseFields : List String :=
  ["event_id", "runtime_id", "correlation_id", "causation_id", "timestamp", "event_type",
    "version", "metadata"]

/-- EVENT_REGISTRY -/
def registry : List EventClass :=
  [⟨"TaskSubmitted", ["task_id", "title", "task_type"]⟩, ⟨"TaskQueued", ["task_id"]⟩,
    ⟨"TaskDequeued", ["task_id"]⟩, ⟨"TaskStarted", ["task_id"]⟩, ⟨"TaskCompleted", ["task_id"]⟩,
    ⟨"TaskFailed", ["task_id", "error_message"]⟩, ⟨"TaskCancelled", ["task_id"]⟩,
    ⟨"TaskTimedOut", ["task_id"]⟩, ⟨"TaskRetried", ["task_id", "retry_count"]⟩,
    ⟨"WorkerStarted", ["worker_id"]⟩, ⟨"WorkerStopped", ["worker_id"]⟩,
    ⟨"WorkerHeartbeat", ["worker_id", "heartbeat_time"]⟩,
    ⟨"WorkerFailed", ["worker_id", "error_message"]⟩, ⟨"WorkerRecovered", ["worker_id"]⟩,
    ⟨"SchedulerStarted", []⟩, ⟨"SchedulerStopped", []⟩,
    ⟨"RetryScheduled", ["task_id", "delay_seconds"]⟩,
    ⟨"TimeoutTriggered", ["task_id", "timeout_seconds"]⟩, ⟨"DelayedTaskReleased", ["task_id"]⟩,
    ⟨"RuntimeStarted", []⟩, ⟨"RuntimeStopped", []⟩, ⟨"RuntimeRecovered", []⟩,
    ⟨"SnapshotCreated", ["snapshot_id"]⟩, ⟨"SnapshotLoaded", ["snapshot_id"]⟩]

/-- `EVENT_REGISTRY.get(event_type, cls)`, where from_dict is called on the base class. -/
def ofName (name : String) : EventClass :=
  (registry.find? fun cls => cls.name = name).getD base

/-- The base class and the registered ones. -/
def known : List EventClass := base :: registry

/-- No two classes share a name. -/
theorem ofName_of_known {cls : EventClass} (h : cls ∈ known) : ofName cls.name = cls := by
  revert cls
  decide +kernel

/-- A class adds no field that the base class has. -/
theorem ownFields_disjoint {cls : EventClass} (h : cls ∈ known) :
    ∀ f ∈ cls.ownFields, f ∉ baseFields := by
  revert cls
  decide +kernel

end EventClass

structure EventRecord where
  cls : EventClass
  eventId : String
  runtimeId : String := "default-runtime"
  correlationId : Option String := none
  causationId : Option String := none
  timestamp : String
  eventType : String := cls.name
  version : ℤ := 1
  metadata : Attrs := .empty
  own : {f // f ∈ cls.ownFields} → Value

namespace EventRecord

/-- The fields of the base class as asdict gives them, with the name of the class
in the place of the event type. -/
def basePayload (e : EventRecord) : List (String × Value) :=
  [("event_id", .str e.eventId), ("runtime_id", .str e.runtimeId),
    ("correlation_id", encodeOptStr e.correlationId),
    ("causation_id", encodeOptStr e.causationId), ("timestamp", .str e.timestamp),
    ("event_type", .str e.cls.name), ("version", .int e.version),
    ("metadata", encodeAttrs e.metadata)]

def ownPayload (e : EventRecord) : List (String × Value) :=
  e.cls.ownFields.attach.map fun f => (f.1, e.own f)

def toDict (e : EventRecord) : List (String × Value) := e.basePayload ++ e.ownPayload

/-- What the default factories of the base class return. -/
structure Factories where
  eventId : String
  timestamp : String

/-- A keyword argument, or the field's default. -/
def field {α : Type} (data : List (String × Value)) (key : String)
    (read : Value → Except PyError α) (default : α) : Except PyError α :=
  match lookup key data with
  | some v => read v
  | none => .ok default

/-- The fields of the class itself have no defaults. -/
def ownOfDict (cls : EventClass) (data : List (String × Value)) :
    Except PyError ({f // f ∈ cls.ownFields} → Value) :=
  if h : ∀ f ∈ cls.ownFields, (lookup f data).isSome then
    .ok fun f => (lookup f.1 data).get (h f.1 f.2)
  else .error (.typeError "missing required keyword-only argument")

/-- `target_cls(**kwargs)` -/
def construct (factories : Factories) (cls : EventClass) (data : List (String × Value)) :
    Except PyError EventRecord := do
  let eventId ← field data "event_id" Value.asStr factories.eventId
  let runtimeId ← field data "runtime_id" Value.asStr "default-runtime"
  let correlationId ← field data "correlation_id" Value.asOptStr none
  let causationId ← field data "causation_id" Value.asOptStr none
  let timestamp ← field data "timestamp" Value.asStr factories.timestamp
  let eventType ← field data "event_type" Value.asStr cls.name
  let version ← field data "version" Value.asInt 1
  let metadata ← field data "metadata" decodeAttrs .empty
  let own ← ownOfDict cls data
  return { cls, eventId, runtimeId, correlationId, causationId, timestamp, eventType, version,
           metadata, own }

def fromDict (factories : Factories) (data : List (String × Value)) :
    Except PyError EventRecord := do
  let name ← field data "event_type" Value.asStr "RuntimeEvent"
  construct factories (EventClass.ofName name) data

def Known (e : EventRecord) : Prop := e.cls ∈ EventClass.known

/-- The event with the event type that to_dict writes. -/
def normalized (e : EventRecord) : EventRecord := { e with eventType := e.cls.name }

/-- An event of a registered class whose event type was left at the default. -/
structure Registered (e : EventRecord) : Prop where
  cls : e.cls ∈ EventClass.registry
  eventType : e.eventType = e.cls.name

theorem Registered.known {e : EventRecord} (h : e.Registered) : e.Known :=
  List.mem_cons_of_mem _ h.cls

theorem Registered.normalized {e : EventRecord} (h : e.Registered) : e.normalized = e := by
  unfold EventRecord.normalized
  rw [← h.eventType]

section RoundTrip

theorem keys_basePayload (e : EventRecord) :
    e.basePayload.map Prod.fst = EventClass.baseFields := rfl

/-- The payload has the value of each field of the class. -/
theorem lookup_own {e : EventRecord} (h : e.Known) (f : {f // f ∈ e.cls.ownFields}) :
    lookup f.1 e.toDict = some (e.own f) := by
  have hbase : f.1 ∉ e.basePayload.map Prod.fst := by
    rw [keys_basePayload]
    exact EventClass.ownFields_disjoint h f.1 f.2
  rw [toDict, lookup_append_of_notMem hbase]
  exact lookup_attach e.own f

theorem ownOfDict_toDict {e : EventRecord} (h : e.Known) :
    ownOfDict e.cls e.toDict = .ok e.own := by
  have hall : ∀ f ∈ e.cls.ownFields, (lookup f e.toDict).isSome := by
    intro f hf
    rw [lookup_own h ⟨f, hf⟩]
    rfl
  rw [ownOfDict, dif_pos hall]
  congr 1
  funext f
  exact Option.get_of_eq_some _ (lookup_own h f)

theorem construct_toDict (factories : Factories) {e : EventRecord} (h : e.Known) :
    construct factories e.cls e.toDict = .ok e.normalized := by
  have hmetadata := decodeAttrs_encodeAttrs e.metadata
  have hown := ownOfDict_toDict h
  unfold construct
  rw [hown]
  simp [field, toDict, basePayload, lookup, Value.asStr, Value.asInt, hmetadata, normalized]

/-- from_dict reverses to_dict, up to an event type that is not the default. -/
theorem fromDict_toDict (factories : Factories) {e : EventRecord} (h : e.Known) :
    fromDict factories e.toDict = .ok e.normalized := by
  have hname : field e.toDict "event_type" Value.asStr "RuntimeEvent" = .ok e.cls.name := rfl
  rw [fromDict, hname, ok_bind, EventClass.ofName_of_known h]
  exact construct_toDict factories h

end RoundTrip

end EventRecord

end MollisRuntime.Persistence
