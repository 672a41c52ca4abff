import MollisRuntime.Executors.Registry

/-!
Looking an executor up. The registry is changed by registering, unregistering and
setting a default; no name in it is left without versions. A name without versions
is looked up as the default, and the default is looked up the same way.
-/
namespace MollisRuntime.Executors

open Ordered Python Scheduling

/-- A registration whose builder, if it has one, returns an executor. -/
structure Working (E : Type) where
  registration : Registration E
  executor : E
  returns : registration.instantiate = .ok executor

def Working.ready {E : Type} (executor : E) : Working E := ⟨.ready executor, executor, rfl⟩

def Working.lazily {E : Type} (build : Unit → E) : Working E :=
  ⟨.lazily fun called => .ok (build called), build (), rfl⟩

/-- The calls that change the registry. -/
inductive RegistryCall (E : Type)
  | registerExecutor (executorType : String) (working : Working E) (version : String)
  | unregisterExecutor (executorType : String) (version : String)
  | setDefaultExecutor (executorType : String) (version : String)

/-- How a lookup ends that ends as it should. -/
def Answered {E : Type} (result : Except Raised E) : Prop :=
  (∃ executor, result = .ok executor) ∨ ∃ message, result = .error (valueError message)

namespace ExecutorRegistry

variable {B E : Type}

def call (registry : ExecutorRegistry B E) : RegistryCall E → ExecutorRegistry B E
  | .registerExecutor executorType working version =>
    registry.registerExecutor executorType working.registration version
  | .unregisterExecutor executorType version => registry.unregisterExecutor executorType version
  | .setDefaultExecutor executorType version => registry.setDefaultExecutor executorType version

/-- The registry after the calls on a new one. -/
def after (calls : List (RegistryCall E)) : ExecutorRegistry B E := calls.foldl call {}

/-- There is a depth from which on every lookup is answered. -/
def Terminates (registry : ExecutorRegistry B E) (executorType : String)
    (version : Option String) : Prop :=
  ∃ enough, ∀ depth, enough ≤ depth →
    Answered (registry.lookupExecutor depth executorType version).result

/-- The name has versions, or the default that stands in for it does. -/
def Resolves (registry : ExecutorRegistry B E) (executorType : String) : Prop :=
  (registry.versions executorType).entries ≠ [] ∨
    ∀ fallback, given registry.defaultExecutorType = some fallback →
      (registry.versions fallback).entries ≠ []

/-- No name is left without versions, and whatever is registered can be had. -/
structure Stocked (registry : ExecutorRegistry B E) : Prop where
  versioned : ∀ executorType versions,
    registry.newRegistry.get? executorType = some versions → versions.entries ≠ []
  working : ∀ executorType version registration,
    (registry.versions executorType).get? version = some registration →
      ∃ executor, registration.instantiate = .ok executor

section Versions

variable (registry : ExecutorRegistry B E) (executorType other : String)

theorem versions_registerExecutor (registration : Registration E) (version : String) :
    (registry.registerExecutor executorType registration version).versions other =
      if executorType = other then (registry.versions executorType).set version registration
      else registry.versions other := by
  rw [versions, registerExecutor, Dict.get?_set]
  split <;> rfl

/-- A name whose last version goes is removed, which leaves it without versions too. -/
theorem versions_unregisterExecutor (version : String) :
    (registry.unregisterExecutor executorType version).versions other =
      if executorType = other then (registry.versions executorType).erase version
      else registry.versions other := by
  unfold unregisterExecutor
  split
  · dsimp only
    split
    next hempty =>
      rw [versions, Dict.get?_erase]
      split
      · exact (Dict.ext_entries hempty).symm
      · rfl
    next hrest =>
      rw [versions, Dict.get?_set]
      split <;> rfl
  next habsent =>
    have hnot : version ∉ (registry.versions executorType).keys :=
      mt (Dict.contains_iff _ _).mpr habsent
    rw [Dict.erase_of_notMem _ _ hnot]
    split
    next heq => rw [heq]
    next => rfl

@[simp] theorem versions_setDefaultExecutor (version : String) :
    (registry.setDefaultExecutor executorType version).versions other =
      registry.versions other := rfl

end Versions

theorem stocked_new : Stocked ({} : ExecutorRegistry B E) where
  versioned _ _ h := by cases h
  working _ _ _ h := by cases h

theorem Stocked.call {registry : ExecutorRegistry B E} (h : registry.Stocked)
    (c : RegistryCall E) : (registry.call c).Stocked := by
  cases c with
  | registerExecutor executorType working version =>
    constructor
    · intro other versions hget
      rw [ExecutorRegistry.call, registerExecutor, Dict.get?_set] at hget
      split at hget
      · obtain rfl := Option.some.inj hget
        have hmem : version ∈ ((registry.versions executorType).set version
            working.registration).keys := (Dict.mem_keys_set _ _ _ _).mpr (.inl rfl)
        intro hnil
        rw [Dict.keys, hnil] at hmem
        exact List.not_mem_nil hmem
      · exact h.versioned other versions hget
    · intro other version' registration hget
      rw [ExecutorRegistry.call, versions_registerExecutor] at hget
      split at hget
      · rw [Dict.get?_set] at hget
        split at hget
        · obtain rfl := Option.some.inj hget
          exact ⟨working.executor, working.returns⟩
        · exact h.working _ _ _ hget
      · exact h.working _ _ _ hget
  | unregisterExecutor executorType version =>
    constructor
    · intro other versions hget
      rw [ExecutorRegistry.call, unregisterExecutor] at hget
      split at hget
      · dsimp only at hget
        split at hget
        -- with its last version a name goes too
        next =>
          rw [Dict.get?_erase] at hget
          split at hget
          · cases hget
          · exact h.versioned other versions hget
        next hrest =>
          rw [Dict.get?_set] at hget
          split at hget
          · obtain rfl := Option.some.inj hget
            exact hrest
          · exact h.versioned other versions hget
      · exact h.versioned other versions hget
    · intro other version' registration hget
      rw [ExecutorRegistry.call, versions_unregisterExecutor] at hget
      split at hget
      · rw [Dict.get?_erase] at hget
        split at hget
        · cases hget
        · exact h.working _ _ _ hget
      · exact h.working _ _ _ hget
  | setDefaultExecutor executorType version => exact ⟨h.versioned, h.working⟩

theorem stocked_after (calls : List (RegistryCall E)) :
    (after calls : ExecutorRegistry B E).Stocked := by
  have hfold : ∀ registry : ExecutorRegistry B E, registry.Stocked →
      (calls.foldl call registry).Stocked := by
    induction calls with
    | nil => exact fun registry h => h
    | cons c rest ih => exact fun registry h => ih _ (h.call c)
  exact hfold {} stocked_new

section Lookups

variable {registry : ExecutorRegistry B E} {executorType : String}

/-- With versions under the name a lookup looks no further. -/
theorem Stocked.answered_of_versions (h : registry.Stocked)
    (hversions : (registry.versions executorType).entries ≠ []) (depth : ℕ)
    (version : Option String) :
    Answered (registry.lookupExecutor (depth + 1) executorType version).result := by
  unfold lookupExecutor
  dsimp only
  rw [if_neg hversions]
  split
  next => exact .inr ⟨_, rfl⟩
  next executor _ => exact .inl ⟨executor, rfl⟩
  next build hget =>
    obtain ⟨executor, hbuilt⟩ := h.working _ _ _ hget
    change build () = .ok executor at hbuilt
    rw [hbuilt]
    exact .inl ⟨executor, rfl⟩

/-- A default without versions is looked up again and again. -/
theorem lookup_circles {fallback : String}
    (hdefault : given registry.defaultExecutorType = some fallback)
    (hfallback : (registry.versions fallback).entries = []) (depth : ℕ) :
    ∀ {executorType : String}, (registry.versions executorType).entries = [] →
      ∀ version, (registry.lookupExecutor depth executorType version).result =
        .error recursionError := by
  induction depth with
  | zero => exact fun _ _ => rfl
  | succ depth ih =>
    intro executorType hversions version
    rw [lookupExecutor, if_pos hversions, hdefault]
    exact ih hfallback _

/-- Two calls are enough where the name resolves. -/
theorem Stocked.answered_of_resolves (h : registry.Stocked)
    (hresolves : registry.Resolves executorType) (depth : ℕ) (version : Option String) :
    Answered (registry.lookupExecutor (depth + 2) executorType version).result := by
  by_cases hversions : (registry.versions executorType).entries = []
  · have hfallback := hresolves.resolve_left (not_not_intro hversions)
    rw [lookupExecutor, if_pos hversions]
    cases hdefault : given registry.defaultExecutorType with
    | some fallback => exact h.answered_of_versions (hfallback fallback hdefault) depth _
    | none =>
      dsimp only
      split
      next hlower =>
        obtain ⟨versions, hget⟩ :=
          (Dict.mem_keys_iff _ _).mp ((Dict.contains_iff _ _).mp hlower)
        have hentries : (registry.versions (lower executorType)).entries ≠ [] := by
          rw [ExecutorRegistry.versions, hget]
          exact h.versioned _ _ hget
        exact h.answered_of_versions hentries depth version
      next => exact .inr ⟨_, rfl⟩
  · exact h.answered_of_versions hversions (depth + 1) version

theorem not_answered_recursionError :
    ¬ Answered (.error recursionError : Except Raised E) := by
  rintro (⟨executor, h⟩ | ⟨message, h⟩)
  · cases h
  · have hclasses : recursionError.classes = ["ValueError", "Exception"] :=
      congrArg Raised.classes (Except.error.inj h)
    exact absurd hclasses (by decide)

theorem recursionError_of_not_resolves (hnot : ¬ registry.Resolves executorType) (depth : ℕ)
    (version : Option String) :
    (registry.lookupExecutor depth executorType version).result = .error recursionError := by
  rw [Resolves, not_or] at hnot
  push Not at hnot
  obtain ⟨hversions, fallback, hdefault, hfallback⟩ := hnot
  exact lookup_circles hdefault hfallback depth hversions version

end Lookups

/-- A lookup terminates exactly when the name resolves, and within the limit of the
interpreter; otherwise it ends in a RecursionError at any limit. -/
theorem lookup_terminates_iff (calls : List (RegistryCall E)) (executorType : String)
    (version : Option String) :
    let registry : ExecutorRegistry B E := after calls
    (registry.Terminates executorType version ↔ registry.Resolves executorType) ∧
      (Answered (registry.lookupExecutor recursionLimit executorType version).result ↔
        registry.Resolves executorType) := by
  intro registry
  have hstocked : registry.Stocked := stocked_after calls
  have hcircles : ∀ depth, Answered (registry.lookupExecutor depth executorType version).result →
      registry.Resolves executorType := by
    intro depth hanswered
    by_contra hnot
    rw [recursionError_of_not_resolves hnot] at hanswered
    exact not_answered_recursionError hanswered
  constructor
  · constructor
    · rintro ⟨enough, h⟩
      exact hcircles enough (h enough le_rfl)
    · intro hresolves
      refine ⟨2, fun depth hdepth => ?_⟩
      obtain ⟨rest, rfl⟩ := Nat.exists_eq_add_of_le' hdepth
      exact hstocked.answered_of_resolves hresolves rest version
  · exact ⟨hcircles _, fun hresolves => hstocked.answered_of_resolves hresolves _ version⟩

/-- The default is unregistered, and the lookup of another name goes in circles. -/
theorem lookup_default_unregistered :
    let registry : ExecutorRegistry Unit String := after
      [.registerExecutor "python" (.ready "PythonExecutor") "1.0.0",
        .setDefaultExecutor "python" "1.0.0", .unregisterExecutor "python" "1.0.0"]
    (registry.lookupExecutor recursionLimit "http" none).result = .error recursionError ∧
      ¬ registry.Terminates "http" none := by
  intro registry
  have hdefault : given registry.defaultExecutorType = some "python" := rfl
  have hcircles (depth : ℕ) :
      (registry.lookupExecutor depth "http" none).result = .error recursionError :=
    lookup_circles hdefault rfl depth rfl none
  refine ⟨hcircles _, ?_⟩
  rintro ⟨enough, h⟩
  have hanswered := h enough le_rfl
  rw [hcircles] at hanswered
  exact not_answered_recursionError hanswered

end ExecutorRegistry

end MollisRuntime.Executors
