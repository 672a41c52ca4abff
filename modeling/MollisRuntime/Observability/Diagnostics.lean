import MollisRuntime.Persistence.StoreQueries

/-!
DiagnosticsService. The summary is put together from queries on the tables of the
store. After any run of calls it is the summary of what the archive has: of the last
state that was saved, the snapshots, the events and the checkpoints.
-/
namespace MollisRuntime.Observability

open Ordered Python Database Persistence

structure DiagnosticsSummary where
  eventsStoredTotal : ℕ
  instancesByStatus : Dict String ℕ
  pendingTasksCount : ℕ
  queueSize : ℕ
  queuedTaskIds : List String
  completedTasksTotal : ℕ
  workersCount : ℕ
  workerStates : Dict String String
  snapshotsStoredTotal : ℕ

/-- `GROUP BY` a column, with the counts. The groups come in the order of the column. -/
def groupCounts (column : List String) : Dict String ℕ :=
  (column.insertionSort (· ≤ ·)).foldl
    (fun counts value => counts.set value ((counts.get? value).getD 0 + 1)) .empty

namespace DiagnosticsService

variable (db : SqliteDatabase)

/-- `SELECT COUNT(*) FROM tasks WHERE status = ?` -/
def countTasks (status : String) : ℕ :=
  (db.state.tasks.values.filter fun row => textColumn "status" row = status).length

/-- The status column of an instance holds what its dump has under that name. -/
def statusColumn : Value → String
  | .dict row => textColumn "status" row
  | _ => ""

/-- No row, or one that cannot be decoded, counts as an empty queue. -/
def queuedTaskIds : List String :=
  match db.state.queueState with
  | none => []
  | some row =>
    match getItem row "queued_task_ids" >>= Workflow.decodeStrs with
    | .ok ids => ids
    | .error _ => []

def getDiagnosticsSummary : DiagnosticsSummary where
  eventsStoredTotal := db.events.rows.length
  instancesByStatus := groupCounts (db.workflows.rows.values.map statusColumn)
  pendingTasksCount := countTasks db "Pending"
  queueSize := (queuedTaskIds db).length
  queuedTaskIds := queuedTaskIds db
  completedTasksTotal := countTasks db "Completed"
  workersCount := db.state.workers.values.length
  workerStates := db.state.workers.mapVal (textColumn "state")
  snapshotsStoredTotal := db.state.snapshots.keys.length

end DiagnosticsService

section Grouping

/-- How often each value occurs; a value that does not occur has no group. -/
def Counts (column : List String) (counts : Dict String ℕ) : Prop :=
  ∀ value, counts.get? value =
    if column.count value = 0 then none else some (column.count value)

theorem Counts.perm {xs ys : List String} {counts : Dict String ℕ} (h : Counts xs counts)
    (hperm : xs.Perm ys) : Counts ys counts := by
  intro value
  rw [h value, hperm.count_eq]

theorem Counts.concat {xs : List String} {counts : Dict String ℕ} (h : Counts xs counts)
    (x : String) :
    Counts (xs ++ [x]) (counts.set x ((counts.get? x).getD 0 + 1)) := by
  have hcount : (counts.get? x).getD 0 = xs.count x := by
    rw [h x]
    split
    · rename_i hzero
      exact hzero.symm
    · rfl
  intro value
  rw [Dict.get?_set, hcount, List.count_append]
  by_cases hvalue : x = value
  · subst hvalue
    simp
  · have hnone : [x].count value = 0 :=
      List.count_eq_zero_of_not_mem (by simpa using Ne.symm hvalue)
    rw [if_neg hvalue, h value, hnone, add_zero]

theorem counts_groupCounts (column : List String) : Counts column (groupCounts column) := by
  have hfold : ∀ (xs seen : List String) (counts : Dict String ℕ), Counts seen counts →
      Counts (seen ++ xs) (xs.foldl
        (fun counts value => counts.set value ((counts.get? value).getD 0 + 1)) counts) := by
    intro xs
    induction xs with
    | nil =>
      intro seen counts h
      rw [List.append_nil]
      exact h
    | cons x rest ih =>
      intro seen counts h
      rw [List.append_cons]
      exact ih (seen ++ [x]) _ (h.concat x)
  exact (hfold _ [] .empty fun _ => rfl).perm (List.perm_insertionSort _ column)

end Grouping

section Summaries

/-- The tasks, the workers and the queue of the last state that was saved. -/
def tasksOf (archive : Archive) : Dict String TaskExecutionState :=
  archive.saved.elim .empty savedTasks

def workersOf (archive : Archive) : Dict String WorkerStateSnapshot :=
  archive.saved.elim .empty savedWorkers

def queueOf (archive : Archive) : List String :=
  archive.saved.elim [] fun state => state.queue.queuedTaskIds

/-- The summary is about what the archive has. -/
structure Summarizes (summary : DiagnosticsSummary) (archive : Archive) : Prop where
  events : summary.eventsStoredTotal = archive.log.length
  instances : Counts (archive.workflows.values.map fun inst => inst.status.value)
    summary.instancesByStatus
  pending : summary.pendingTasksCount =
    (tasksOf archive).values.countP fun t => t.status = "Pending"
  completed : summary.completedTasksTotal =
    (tasksOf archive).values.countP fun t => t.status = "Completed"
  queue : summary.queuedTaskIds = queueOf archive ∧
    summary.queueSize = (queueOf archive).length
  workers : summary.workerStates = (workersOf archive).mapVal WorkerStateSnapshot.state ∧
    summary.workersCount = (workersOf archive).values.length
  snapshots : summary.snapshotsStoredTotal = archive.snapshots.keys.length

variable {c : Coders} {db : SqliteDatabase} {archive : Archive}

/-- The tables of the runtime state, each on its own. -/
theorem tables_of_savedIn (h : SavedIn db.state archive.saved) :
    db.state.tasks = (tasksOf archive).mapVal SQLiteTaskStateRepository.columns ∧
      db.state.workers = (workersOf archive).mapVal SQLiteWorkerStateRepository.columns ∧
      db.state.queueState = archive.saved.map fun state => StateStore.queueColumns state.queue := by
  unfold tasksOf workersOf
  cases hsaved : archive.saved with
  | none =>
    rw [hsaved] at h
    have hstate : db.state = { snapshots := db.state.snapshots } := h
    rw [hstate]
    exact ⟨rfl, rfl, rfl⟩
  | some state =>
    rw [hsaved] at h
    obtain ⟨before, after, hsave, hstate⟩ := h
    rw [hstate, saveRuntimeState_eq_ok hsave]
    exact ⟨rfl, rfl, rfl⟩

theorem countTasks_kept (h : SavedIn db.state archive.saved) (status : String) :
    DiagnosticsService.countTasks db status =
      (tasksOf archive).values.countP fun t => t.status = status := by
  unfold DiagnosticsService.countTasks
  rw [(tables_of_savedIn h).1, Dict.values_mapVal, List.filter_map, List.length_map,
    List.countP_eq_length_filter]
  rfl

theorem queuedTaskIds_kept (h : SavedIn db.state archive.saved) :
    DiagnosticsService.queuedTaskIds db = queueOf archive := by
  unfold DiagnosticsService.queuedTaskIds queueOf
  rw [(tables_of_savedIn h).2.2]
  cases archive.saved with
  | none => rfl
  | some state =>
    have hdecoded : (getItem (StateStore.queueColumns state.queue) "queued_task_ids" >>=
        Workflow.decodeStrs) = .ok state.queue.queuedTaskIds :=
      Workflow.decodeStrs_encodeStrs state.queue.queuedTaskIds
    change (match getItem (StateStore.queueColumns state.queue) "queued_task_ids" >>=
      Workflow.decodeStrs with
      | .ok ids => ids
      | .error _ => []) = _
    rw [hdecoded]
    rfl

theorem summarizes_kept (h : KeptIn c db archive) :
    Summarizes (DiagnosticsService.getDiagnosticsSummary db) archive where
  events := SQLiteEventStore.length_of_holds h.events
  instances := by
    have hstatuses : db.workflows.rows.values.map DiagnosticsService.statusColumn =
        archive.workflows.values.map fun inst => inst.status.value :=
      h.workflows.map_values fun k row inst hrow => by
        rw [hrow.2]
        rfl
    exact hstatuses ▸ counts_groupCounts _
  pending := countTasks_kept h.saved "Pending"
  completed := countTasks_kept h.saved "Completed"
  queue := ⟨queuedTaskIds_kept h.saved, congrArg List.length (queuedTaskIds_kept h.saved)⟩
  workers := by
    have hworkers := (tables_of_savedIn h.saved).2.1
    constructor
    · change db.state.workers.mapVal (textColumn "state") = _
      rw [hworkers]
      exact Dict.ext_entries List.map_map
    · change db.state.workers.values.length = _
      rw [hworkers, Dict.values_mapVal, List.length_map]
  snapshots := congrArg List.length h.snapshots.keys

/-- After any run of calls the summary is about what the archive has accepted. -/
theorem diagnostics_summarize (c : Coders) (calls : List StoreCall)
    (hreadable : ∀ call ∈ calls, call.Readable c) :
    Summarizes
      (DiagnosticsService.getDiagnosticsSummary
        (Machine.exec (StoreCall.serve c) calls ({ committed := {} }, [])).1.current)
      (Machine.exec Archive.serve calls ({}, [])).1 := by
  obtain ⟨-, hidle, hkept⟩ := exec_tracks_archive c calls hreadable
  rw [Connection.eq_of_idle hidle]
  exact summarizes_kept hkept

/-- One pending task, saved and in a snapshot. -/
def savedTwice : List StoreCall :=
  [.saveRuntimeState sampleState, .saveSnapshot "alpha" sampleState]

theorem savedTwice_summarized :
    let summary := DiagnosticsService.getDiagnosticsSummary
      (Machine.exec (StoreCall.serve sampleCoders) savedTwice ({ committed := {} }, [])).1.current
    summary.pendingTasksCount = 1 ∧ summary.queuedTaskIds = ["t1"] ∧
      summary.snapshotsStoredTotal = 1 ∧
      Summarizes summary (Machine.exec Archive.serve savedTwice ({}, [])).1 := by
  refine ⟨by decide +kernel, by decide +kernel, by decide +kernel, ?_⟩
  refine diagnostics_summarize sampleCoders savedTwice ?_
  simp [savedTwice, StoreCall.Readable, inverseOn_sample]

end Summaries

end MollisRuntime.Observability
