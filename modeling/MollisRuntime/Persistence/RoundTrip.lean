import MollisRuntime.Persistence.StateStore

/-!
Saving the runtime state again and again, then loading it. Of all states the
store returns the last one it saved, with nothing of the earlier ones, but no
column holds the schema version: a loaded state has the default.
-/
namespace MollisRuntime.Persistence

open Ordered Python

section Accepting

/-- A loop whose turns return or raise whatever the table returns when all turns do. -/
theorem foldlM_returns_iff {α σ : Type} {save : σ → α → Except PyError σ} {P : α → Prop}
    (hsave : ∀ table a, (∃ table', save table a = .ok table') ↔ P a) (entries : List α)
    (table : σ) : (∃ table', entries.foldlM save table = .ok table') ↔ ∀ a ∈ entries, P a := by
  induction entries generalizing table with
  | nil => exact iff_of_true ⟨table, rfl⟩ (by simp)
  | cons a rest ih =>
    rw [List.foldlM_cons, bind_returns_iff, List.forall_mem_cons, ← hsave table a]
    constructor
    · rintro ⟨next, hnext, hrest⟩
      exact ⟨⟨next, hnext⟩, (ih next).mp hrest⟩
    · rintro ⟨⟨next, hnext⟩, hrest⟩
      exact ⟨next, hnext, (ih next).mpr hrest⟩

/-- The metadata are JSON and every integer fits a column. -/
structure RuntimeState.Storable (state : RuntimeState) : Prop where
  metadata : ∀ e ∈ state.tasks.entries, (encodeAttrs e.2.metadata).isJson = true
  tasks : ∀ e ∈ state.tasks.entries,
    (SQLiteTaskStateRepository.columns e.2).all (fun c => bindParams.fits c.2) = true
  workers : ∀ e ∈ state.workers.entries,
    (SQLiteWorkerStateRepository.columns e.2).all (fun c => bindParams.fits c.2) = true
  queue : (StateStore.queueColumns state.queue).all (fun c => bindParams.fits c.2) = true
  scheduler : (StateStore.schedulerColumns state).all (fun c => bindParams.fits c.2) = true

theorem saveTask_returns_iff (table : Table) (t : TaskExecutionState) :
    (∃ table', SQLiteTaskStateRepository.save table t = .ok table') ↔
      (encodeAttrs t.metadata).isJson = true ∧
        (SQLiteTaskStateRepository.columns t).all (fun c => bindParams.fits c.2) = true := by
  unfold SQLiteTaskStateRepository.save
  rw [← bindParams_returns_iff, bind_returns_iff]
  simp [jsonPayload_eq_ok_iff, bind_returns_iff, pure, Except.pure]

theorem saveWorker_returns_iff (table : Table) (w : WorkerStateSnapshot) :
    (∃ table', SQLiteWorkerStateRepository.save table w = .ok table') ↔
      (SQLiteWorkerStateRepository.columns w).all (fun c => bindParams.fits c.2) = true := by
  unfold SQLiteWorkerStateRepository.save
  rw [← bindParams_returns_iff, bind_returns_iff]
  simp [pure, Except.pure]

theorem saveRuntimeState_returns_iff (store : StateStore) (state : RuntimeState) :
    (∃ saved, store.saveRuntimeState state = .ok saved) ↔ state.Storable := by
  have htasks := foldlM_returns_iff (fun table (e : String × TaskExecutionState) =>
    saveTask_returns_iff table e.2) state.tasks.entries
  have hworkers := foldlM_returns_iff (fun table (e : String × WorkerStateSnapshot) =>
    saveWorker_returns_iff table e.2) state.workers.entries
  have hqueue := bindParams_returns_iff (StateStore.queueColumns state.queue)
  have hscheduler := bindParams_returns_iff (StateStore.schedulerColumns state)
  constructor
  · rintro ⟨saved, h⟩
    obtain ⟨tasks, ht, h⟩ := bind_eq_ok h
    obtain ⟨workers, hw, h⟩ := bind_eq_ok h
    obtain ⟨queueRow, hq, h⟩ := bind_eq_ok h
    obtain ⟨schedulerRow, hs, -⟩ := bind_eq_ok h
    have hkept := (htasks _).mp ⟨tasks, ht⟩
    exact {
      metadata := fun e he => (hkept e he).1
      tasks := fun e he => (hkept e he).2
      workers := (hworkers _).mp ⟨workers, hw⟩
      queue := hqueue.mp ⟨queueRow, hq⟩
      scheduler := hscheduler.mp ⟨schedulerRow, hs⟩ }
  · intro h
    obtain ⟨tasks, ht⟩ := (htasks .empty).mpr fun e he => ⟨h.metadata e he, h.tasks e he⟩
    obtain ⟨workers, hw⟩ := (hworkers .empty).mpr h.workers
    obtain ⟨queueRow, hq⟩ := hqueue.mpr h.queue
    obtain ⟨schedulerRow, hs⟩ := hscheduler.mpr h.scheduler
    exact ⟨_, by simp only [StateStore.saveRuntimeState, ht, hw, hq, hs, ok_bind]; rfl⟩

end Accepting

/-- The tasks and the workers stand under the ids they carry, and there is a timestamp. -/
structure RuntimeState.Keyed (state : RuntimeState) : Prop where
  tasks : ∀ e ∈ state.tasks.entries, e.2.taskId = e.1
  workers : ∀ e ∈ state.workers.entries, e.2.workerId = e.1
  stamped : state.timestamp ≠ ""

/-- A store, with the last state whose save did not raise. -/
structure SaveHistory where
  store : StateStore := {}
  lastSaved : Option RuntimeState := none

namespace SaveHistory

/-- A save that raises is rolled back. -/
def save (s : SaveHistory) (state : RuntimeState) : SaveHistory :=
  match s.store.saveRuntimeState state with
  | .ok store => { store, lastSaved := some state }
  | .error _ => s

def saveAll (states : List RuntimeState) : SaveHistory := states.foldl save {}

end SaveHistory

theorem SaveHistory.save_storable (s : SaveHistory) {state : RuntimeState} (h : state.Storable) :
    (s.save state).lastSaved = some state := by
  obtain ⟨saved, hsaved⟩ := (saveRuntimeState_returns_iff s.store state).mpr h
  rw [SaveHistory.save, hsaved]

theorem SaveHistory.save_refused (s : SaveHistory) {state : RuntimeState} (h : ¬ state.Storable) :
    s.save state = s := by
  unfold SaveHistory.save
  cases hsave : s.store.saveRuntimeState state with
  | error e => rfl
  | ok saved => exact absurd ((saveRuntimeState_returns_iff _ _).mp ⟨saved, hsave⟩) h

/-- What the columns hold of a state. -/
def RuntimeState.stored (state : RuntimeState) : RuntimeState := { state with schemaVersion := 1 }

theorem RuntimeState.stored_eq_iff (state : RuntimeState) :
    state.stored = state ↔ state.schemaVersion = 1 := by
  constructor
  · intro h
    exact (congrArg RuntimeState.schemaVersion h).symm
  · intro h
    obtain ⟨timestamp, tasks, workers, queue, scheduler, schemaVersion⟩ := state
    cases h
    rfl

theorem loadRuntimeState_stored {store saved : StateStore} {state : RuntimeState}
    (hkeyed : state.Keyed) (h : store.saveRuntimeState state = .ok saved) (now : Timestamp) :
    saved.loadRuntimeState now = .ok (some state.stored) := by
  have hloaded := loadRuntimeState_saved h saved.eventStore now
  have htasks : savedTasks state = state.tasks := Dict.rekey_of_keyed _ hkeyed.tasks
  have hworkers : savedWorkers state = state.workers := Dict.rekey_of_keyed _ hkeyed.workers
  have hstamp : state.stamp now = state.timestamp := if_neg hkeyed.stamped
  rw [htasks, hworkers, hstamp] at hloaded
  exact hloaded

namespace SaveHistory

/-- What is loaded is the last state saved, as far as the columns hold it. -/
def Faithful (s : SaveHistory) : Prop :=
  ∀ now, s.store.loadRuntimeState now = .ok (s.lastSaved.map RuntimeState.stored)

theorem Faithful.save {s : SaveHistory} (h : s.Faithful) {state : RuntimeState}
    (hkeyed : state.Keyed) : (s.save state).Faithful := by
  intro now
  unfold SaveHistory.save
  cases hsave : s.store.saveRuntimeState state with
  | error e => exact h now
  | ok saved => exact loadRuntimeState_stored hkeyed hsave now

theorem faithful_saveAll {states : List RuntimeState} (hkeyed : ∀ state ∈ states, state.Keyed) :
    (saveAll states).Faithful := by
  refine List.foldlRecOn (motive := Faithful) states SaveHistory.save (fun _ => rfl) ?_
  intro s hs state hmem
  exact hs.save (hkeyed state hmem)

end SaveHistory

/-- The last state saved comes back exactly when it has the first schema version. -/
theorem state_round_trip_iff (states : List RuntimeState)
    (hkeyed : ∀ state ∈ states, state.Keyed) (now : Timestamp) :
    (SaveHistory.saveAll states).store.loadRuntimeState now =
        .ok (SaveHistory.saveAll states).lastSaved ↔
      ∀ last ∈ (SaveHistory.saveAll states).lastSaved, last.schemaVersion = 1 := by
  rw [SaveHistory.faithful_saveAll hkeyed now]
  cases (SaveHistory.saveAll states).lastSaved with
  | none => simp
  | some last =>
    have hsame := last.stored_eq_iff
    constructor
    · intro h state hstate
      cases Option.mem_some_iff.mp hstate
      exact hsame.mp (Option.some.inj (Except.ok.inj h))
    · intro h
      exact congrArg (fun state => Except.ok (some state)) (hsame.mpr (h last rfl))

section Samples

/-- A stopped runtime with one idle worker. -/
def idleState (timestamp : Timestamp) (schemaVersion : ℤ) : RuntimeState where
  timestamp := timestamp.val
  tasks := .empty
  workers := Dict.empty.set "W-001" {
    workerId := "W-001", state := "idle", currentTaskId := none,
    heartbeatTime := timestamp.val, tasksProcessed := 0, failures := 0,
    startTime := timestamp.val }
  queue := { queuedTaskIds := [], size := 0, capacity := none, policyType := "FIFO" }
  scheduler := {
    started := false, uptimeSeconds := 0, delayedTaskIds := [], activeTimeouts := .empty }
  schemaVersion

theorem keyed_idleState (timestamp : Timestamp) (schemaVersion : ℤ) :
    (idleState timestamp schemaVersion).Keyed where
  tasks := by simp [idleState, Dict.empty]
  workers := by simp [idleState, Dict.empty, Dict.set, upsert]
  stamped := timestamp.ne_empty

theorem storable_idleState (timestamp : Timestamp) (schemaVersion : ℤ) :
    (idleState timestamp schemaVersion).Storable :=
  (saveRuntimeState_returns_iff {} _).mp ⟨_, rfl⟩

def noon : Timestamp := ⟨"2026-01-01T12:00:00", by decide⟩

/-- A state of the first version comes back, whatever was saved before it. -/
theorem state_round_trip_first_version :
    (SaveHistory.saveAll [idleState noon 2, idleState noon 1]).store.loadRuntimeState noon =
      .ok (some (idleState noon 1)) := by
  have hkeyed : ∀ state ∈ [idleState noon 2, idleState noon 1], state.Keyed := by
    simp [keyed_idleState]
  have hlast : (SaveHistory.saveAll [idleState noon 2, idleState noon 1]).lastSaved =
      some (idleState noon 1) :=
    SaveHistory.save_storable _ (storable_idleState noon 1)
  have hfirst : ∀ last ∈ some (idleState noon 1), last.schemaVersion = 1 := by
    intro last h
    cases h
    rfl
  have hkept := (state_round_trip_iff [idleState noon 2, idleState noon 1] hkeyed noon).mpr
    (hlast ▸ hfirst)
  rw [hkept, hlast]

/-- A saved state of the second schema version is loaded as one of the first. -/
theorem not_state_round_trip : ¬ ∀ states : List RuntimeState,
    (∀ state ∈ states, state.Keyed) → ∀ now,
      (SaveHistory.saveAll states).store.loadRuntimeState now =
        .ok (SaveHistory.saveAll states).lastSaved := by
  intro h
  have hkeyed : ∀ state ∈ [idleState noon 2], state.Keyed := by simp [keyed_idleState]
  have hlast : (SaveHistory.saveAll [idleState noon 2]).lastSaved = some (idleState noon 2) :=
    SaveHistory.save_storable _ (storable_idleState noon 2)
  have hloaded := h _ hkeyed noon
  rw [SaveHistory.faithful_saveAll hkeyed noon, hlast] at hloaded
  have hversion : (idleState noon 2).schemaVersion = 1 :=
    (idleState noon 2).stored_eq_iff.mp (Option.some.inj (Except.ok.inj hloaded))
  exact absurd hversion (by decide)

end Samples

end MollisRuntime.Persistence
