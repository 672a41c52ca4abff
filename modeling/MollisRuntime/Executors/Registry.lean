import Mathlib.Data.List.Sort
import MollisRuntime.Executors.LegacyAdapter

/-!
ExecutorRegistry. Executors are registered by name and version, as instances or as
builders that are called when they are first looked up; a worker asks for the
executor of a task type, whose value is one of the names. The orchestrator makes a
task type of the executor type of a node, and a PYTHON task where there is none.
-/
namespace MollisRuntime.Executors

open Ordered Python Scheduling Workflow

/-- An executor that was registered, or a callable that makes one. -/
inductive Registration (E : Type)
  | ready (executor : E)
  | lazily (build : Unit → Except Raised E)

/-- Calling the builder, if there is one. -/
def Registration.instantiate {E : Type} : Registration E → Except Raised E
  | .ready executor => .ok executor
  | .lazily build => build ()

/-- Legacy executors by task type, new ones by name and version. -/
structure ExecutorRegistry (B E : Type) where
  executors : Dict TaskType B := .empty
  newRegistry : Dict String (Dict String (Registration E)) := .empty
  defaultExecutorType : Option String := none
  defaultVersion : Option String := none

/-- What a worker executes a task with. -/
inductive Obtained (B E : Type)
  | legacy (executor : B)
  | adapter (executor : E)
  deriving DecidableEq

/-- How a lookup ends; a builder that was called has been replaced by what it made. -/
structure Lookup (B E α : Type) where
  registry : ExecutorRegistry B E
  result : Except Raised α

def valueError (message : String) : Raised := ⟨["ValueError", "Exception"], message⟩

def recursionError : Raised :=
  ⟨["RecursionError", "RuntimeError", "Exception"], "maximum recursion depth exceeded"⟩

/-- `if s:` for an optional string. -/
def given (s : Option String) : Option String := s.filter fun s => s ≠ ""

namespace ExecutorRegistry

variable {B E : Type}

section Operations

variable (registry : ExecutorRegistry B E)

def register (taskType : TaskType) (executor : B) : ExecutorRegistry B E :=
  { registry with executors := registry.executors.set taskType executor }

/-- The versions under a name. -/
def versions (executorType : String) : Dict String (Registration E) :=
  (registry.newRegistry.get? executorType).getD .empty

def registerExecutor (executorType : String) (registration : Registration E)
    (version : String := "1.0.0") : ExecutorRegistry B E :=
  { registry with
    newRegistry := registry.newRegistry.set executorType
      ((registry.versions executorType).set version registration) }

def unregisterExecutor (executorType : String) (version : String := "1.0.0") :
    ExecutorRegistry B E :=
  if (registry.versions executorType).contains version then
    let versions := (registry.versions executorType).erase version
    { registry with
      newRegistry :=
        if versions.entries = [] then registry.newRegistry.erase executorType
        else registry.newRegistry.set executorType versions }
  else registry

def setDefaultExecutor (executorType : String) (version : String := "1.0.0") :
    ExecutorRegistry B E :=
  { registry with defaultExecutorType := some executorType, defaultVersion := some version }

/-- `sorted(versions.keys())[-1]` -/
def newest (versions : Dict String (Registration E)) : Option String :=
  (versions.keys.insertionSort (· ≤ ·)).getLast?

/-- The calls of a lookup by itself are limited. -/
def lookupExecutor : ℕ → String → Option String → Lookup B E E
  | 0, _, _ => { registry, result := .error recursionError }
  | depth + 1, executorType, version =>
    let versions := registry.versions executorType
    if versions.entries = [] then
      match given registry.defaultExecutorType with
      | some fallback => lookupExecutor depth fallback registry.defaultVersion
      | none =>
        if registry.newRegistry.contains (lower executorType) then
          lookupExecutor depth (lower executorType) version
        else
          { registry
            result := .error (valueError s!"No executor registered with name: {executorType}") }
    else
      let target := (given version).getD ((newest versions).getD "")
      match versions.get? target with
      | none =>
        { registry
          result := .error (valueError
            s!"No executor registered with name {executorType} and version {target}") }
      | some (.ready executor) => { registry, result := .ok executor }
      | some (.lazily build) =>
        match build () with
        | .error e => { registry, result := .error e }
        | .ok executor =>
          { registry := registry.registerExecutor executorType (.ready executor) target
            result := .ok executor }

def recursionLimit : ℕ := 1000

def noExecutor (taskType : TaskType) : Raised :=
  valueError s!"No executor registered for task type: {taskType.value}"

/-- A legacy executor, or an adapter of a new one under the value of the task type. -/
def getExecutor (taskType : TaskType) : Lookup B E (Obtained B E) :=
  match registry.executors.get? taskType with
  | some executor => { registry, result := .ok (.legacy executor) }
  | none =>
    let found := registry.lookupExecutor recursionLimit taskType.value none
    { registry := found.registry
      result :=
        match found.result with
        | .ok executor => .ok (.adapter executor)
        | .error _ => .error (noExecutor taskType) }

end Operations

/-- Some version of the executor is registered under the name. -/
def RegisteredUnder (registry : ExecutorRegistry B E) (executorType : String) (executor : E) :
    Prop :=
  ∃ version registration, (registry.versions executorType).get? version = some registration ∧
    registration.instantiate = .ok executor

/-- The newest version under the name is there, or its builder returns. -/
def Offers (registry : ExecutorRegistry B E) (executorType : String) : Prop :=
  ∃ version registration executor,
    newest (registry.versions executorType) = some version ∧
      (registry.versions executorType).get? version = some registration ∧
      registration.instantiate = .ok executor

section Lookups

variable {registry : ExecutorRegistry B E} {executorType : String}

theorem newest_registered {versions : Dict String (Registration E)} (h : versions.entries ≠ []) :
    ∃ version registration, newest versions = some version ∧
      versions.get? version = some registration := by
  have hsorted : versions.keys.insertionSort (· ≤ ·) ≠ [] := by
    intro hnil
    have hperm := versions.keys.perm_insertionSort (· ≤ ·)
    rw [hnil] at hperm
    exact h (List.map_eq_nil_iff.mp hperm.symm.eq_nil)
  obtain ⟨version, hnewest⟩ : ∃ version, newest versions = some version :=
    ⟨_, List.getLast?_eq_some_getLast hsorted⟩
  have hmem : version ∈ versions.keys :=
    (versions.keys.mem_insertionSort (· ≤ ·)).mp (List.mem_of_getLast? hnewest)
  obtain ⟨registration, hget⟩ := (Dict.mem_keys_iff _ _).mp hmem
  exact ⟨version, registration, hnewest, hget⟩

/-- With versions under the name, the newest one is taken. -/
theorem lookup_registered (depth : ℕ) {version : String} {registration : Registration E}
    (hnewest : newest (registry.versions executorType) = some version)
    (hget : (registry.versions executorType).get? version = some registration) :
    (registry.lookupExecutor (depth + 1) executorType none).result = registration.instantiate := by
  have hversions : (registry.versions executorType).entries ≠ [] := by
    intro hnil
    have hmem := (Dict.mem_entries_iff _ _ _).mpr hget
    rw [hnil] at hmem
    exact absurd hmem List.not_mem_nil
  have htarget : (given none).getD ((newest (registry.versions executorType)).getD "") =
      version := by
    rw [hnewest]
    rfl
  unfold lookupExecutor
  dsimp only
  rw [if_neg hversions, htarget, hget]
  cases registration with
  | ready executor => rfl
  | lazily build =>
    dsimp only [Registration.instantiate]
    cases build () <;> rfl

/-- Without versions and without a default, a name in lower case is not found. -/
theorem lookup_unregistered (hversions : (registry.versions executorType).entries = [])
    (hdefault : registry.defaultExecutorType = none) (hlower : lower executorType = executorType)
    (depth : ℕ) (version : Option String) :
    ∃ e, (registry.lookupExecutor depth executorType version).result = .error e := by
  induction depth with
  | zero => exact ⟨_, rfl⟩
  | succ depth ih =>
    unfold lookupExecutor
    dsimp only
    rw [if_pos hversions, hdefault, hlower]
    dsimp only [given, Option.filter]
    split
    · exact ih
    · exact ⟨_, rfl⟩

theorem not_offers_unregistered (hversions : (registry.versions executorType).entries = []) :
    ¬ registry.Offers executorType := by
  rintro ⟨version, registration, -, -, hget, -⟩
  have hmem := (Dict.mem_entries_iff _ _ _).mpr hget
  rw [hversions] at hmem
  exact absurd hmem List.not_mem_nil

theorem offers_iff {version : String} {registration : Registration E}
    (hnewest : newest (registry.versions executorType) = some version)
    (hget : (registry.versions executorType).get? version = some registration) :
    registry.Offers executorType ↔ ∃ new, registration.instantiate = .ok new := by
  constructor
  · rintro ⟨other, registered, new, hother, hregistered, hbuilt⟩
    obtain rfl := Option.some.inj (hnewest.symm.trans hother)
    obtain rfl := Option.some.inj (hget.symm.trans hregistered)
    exact ⟨new, hbuilt⟩
  · rintro ⟨new, hbuilt⟩
    exact ⟨version, registration, new, hnewest, hget, hbuilt⟩

end Lookups

end ExecutorRegistry

section Routing

variable {B E : Type}

def TaskType.values : List String := ["python", "browser", "shell"]

/-- The name under which the executor of a node is looked up. -/
def routedName (executorType : String) : String := (TaskType.ofExecutor executorType).value

theorem lower_value (taskType : TaskType) : lower taskType.value = taskType.value := by
  cases taskType <;> decide

/-- A node keeps its name exactly when that is the value of a task type. -/
theorem routedName_eq_iff (executorType : String) :
    routedName executorType = executorType ↔ executorType ∈ TaskType.values := by
  constructor
  · intro h
    rw [← h, routedName]
    cases TaskType.ofExecutor executorType <;> decide
  · intro h
    simp only [TaskType.values, List.mem_cons, List.not_mem_nil, or_false] at h
    rcases h with rfl | rfl | rfl <;> decide

theorem taskType_taskFor (inst : WorkflowInstance) (nid : String) (node : GraphNode) :
    (taskFor inst nid node).taskType = TaskType.ofExecutor node.executorType := rfl

/-- What a worker obtains for the task of a node is registered under the value of its
task type, and is there exactly when the newest version can be had. -/
theorem node_executor (newRegistry : Dict String (Dict String (Registration E)))
    (inst : WorkflowInstance) (nid : String) (node : GraphNode) :
    let registry : ExecutorRegistry B E := { newRegistry }
    let taskType := (taskFor inst nid node).taskType
    let obtained := (registry.getExecutor taskType).result
    (∀ executor, obtained = .ok executor →
      ∃ new, executor = .adapter new ∧
        registry.RegisteredUnder (routedName node.executorType) new) ∧
    (registry.Offers (routedName node.executorType) ↔ ∃ executor, obtained = .ok executor) ∧
    (¬ registry.Offers (routedName node.executorType) →
      obtained = .error (ExecutorRegistry.noExecutor taskType)) ∧
    (routedName node.executorType = node.executorType ↔
      node.executorType ∈ TaskType.values) := by
  intro registry taskType obtained
  have hname : taskType.value = routedName node.executorType := rfl
  have hobtained : obtained =
      match (registry.lookupExecutor ExecutorRegistry.recursionLimit taskType.value none).result with
      | .ok executor => .ok (.adapter executor)
      | .error _ => .error (ExecutorRegistry.noExecutor taskType) := rfl
  have hrouted := routedName_eq_iff node.executorType
  rw [← hname] at hrouted ⊢
  by_cases hversions : (registry.versions taskType.value).entries = []
  · -- nothing is registered under the name
    obtain ⟨e, he⟩ := ExecutorRegistry.lookup_unregistered hversions rfl (lower_value taskType)
      ExecutorRegistry.recursionLimit none
    have hnone : ¬ registry.Offers taskType.value :=
      ExecutorRegistry.not_offers_unregistered hversions
    rw [he] at hobtained
    refine ⟨?_, iff_of_false hnone ?_, fun _ => hobtained, hrouted⟩
    · intro executor hok
      cases hobtained.symm.trans hok
    · rintro ⟨executor, hok⟩
      cases hobtained.symm.trans hok
  · obtain ⟨version, registration, hnewest, hget⟩ := ExecutorRegistry.newest_registered hversions
    rw [ExecutorRegistry.recursionLimit, ExecutorRegistry.lookup_registered _ hnewest hget]
      at hobtained
    have hoffers := ExecutorRegistry.offers_iff hnewest hget
    cases hbuilt : registration.instantiate with
    | ok new =>
      rw [hbuilt] at hobtained
      have hthere := hoffers.mpr ⟨new, hbuilt⟩
      refine ⟨?_, iff_of_true hthere ⟨_, hobtained⟩, fun hnot => absurd hthere hnot, hrouted⟩
      intro executor hok
      obtain rfl := Except.ok.inj (hobtained.symm.trans hok)
      exact ⟨new, rfl, version, registration, hget, hbuilt⟩
    | error e =>
      rw [hbuilt] at hobtained
      have hnone : ¬ registry.Offers taskType.value := by
        rw [hoffers, hbuilt]
        rintro ⟨new, hnew⟩
        cases hnew
      refine ⟨?_, iff_of_false hnone ?_, fun _ => hobtained, hrouted⟩
      · intro executor hok
        cases hobtained.symm.trans hok
      · rintro ⟨executor, hok⟩
        cases hobtained.symm.trans hok

/-- A node that names the executor registered as "http" is run on the Python executor. -/
theorem node_executor_other :
    let registry : ExecutorRegistry Unit String :=
      (({} : ExecutorRegistry Unit String).registerExecutor "http" (.ready "HttpExecutor")
        ).registerExecutor "python" (.ready "PythonExecutor")
    let node : GraphNode := { id := "fetch", executorType := "http", payload := .empty }
    (registry.getExecutor (taskFor (loneInstance node) "fetch" node).taskType).result =
        .ok (.adapter "PythonExecutor") ∧
      registry.RegisteredUnder node.executorType "HttpExecutor" ∧
      ¬ registry.RegisteredUnder node.executorType "PythonExecutor" := by
  intro registry node
  refine ⟨?_, ?_, ?_⟩
  · rw [taskType_taskFor]
    decide +kernel
  · exact ⟨"1.0.0", .ready "HttpExecutor", rfl, rfl⟩
  · rintro ⟨version, registration, hget, hmade⟩
    have hentry := (Dict.mem_entries_iff _ _ _).mpr hget
    change (version, registration) ∈ [("1.0.0", Registration.ready "HttpExecutor")] at hentry
    obtain ⟨-, rfl⟩ := Prod.mk.inj (List.mem_singleton.mp hentry)
    exact absurd (Except.ok.inj hmade) (by decide)

end Routing

end MollisRuntime.Executors
