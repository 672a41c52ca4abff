import MollisRuntime.Persistence.Genesis
import MollisRuntime.Scheduling.Recorded

/-!
The journal of a run: the events that its handlers have appended, in order. What
a recovery from genesis makes of the delayed ids and of the status and the retries
of a task depends on the kinds of the events alone.
-/
namespace MollisRuntime.Scheduling

open Ordered Python Persistence RecoveryManager Overwriting

def Note.event : Note → Option RuntimeEvent
  | .logged event _ => some event
  | _ => none

def journal (notes : List Note) : List RuntimeEvent := notes.filterMap Note.event

theorem journal_append (notes more : List Note) :
    journal (notes ++ more) = journal notes ++ journal more := List.filterMap_append

theorem map_kind_journal (notes : List Note) :
    (journal notes).map RuntimeEvent.kind = kinds notes := by
  have hkind : ∀ note : Note, note.event.map RuntimeEvent.kind = note.kind := by
    intro note
    cases note <;> rfl
  rw [journal, kinds, List.map_filterMap]
  exact List.filterMap_congr fun note _ => hkind note

/-- The store that a part of a journal leads to. -/
theorem exists_earlier {store : StateStore} {notes more : List Note}
    (h : store.eventStore.events = journal (notes ++ more)) :
    ∃ earlier : StateStore, earlier.eventStore.events = journal notes := by
  refine ⟨{ eventStore := ⟨journal notes, fun e he => ?_⟩ }, rfl⟩
  refine store.eventStore.serialisable e ?_
  rw [h, journal_append]
  exact List.mem_append_left _ he

section Delays

/-- What an event does to the delayed ids. -/
def delayChange (kind : EventKind) : Option (UniqueQueue.Op String) :=
  delayOp { kind, timestamp := "" }

def delayChanges (kinds : List EventKind) : List (UniqueQueue.Op String) :=
  kinds.filterMap delayChange

theorem delayChanges_append (ks more : List EventKind) :
    delayChanges (ks ++ more) = delayChanges ks ++ delayChanges more := List.filterMap_append

/-- The ids that a recovery finds delayed. -/
def delayedIds (notes : List Note) : List String :=
  UniqueQueue.run (delayChanges (kinds notes)) []

theorem nodup_delayedIds (notes : List Note) : (delayedIds notes).Nodup :=
  UniqueQueue.nodup_run List.nodup_nil _

theorem delayedIds_append (notes more : List Note) :
    delayedIds (notes ++ more) =
      UniqueQueue.run (delayChanges (kinds more)) (delayedIds notes) := by
  rw [delayedIds, kinds_append, delayChanges_append, UniqueQueue.run_append]
  rfl

theorem filterMap_delayOp (notes : List Note) :
    (journal notes).filterMap delayOp = delayChanges (kinds notes) := by
  rw [← map_kind_journal, delayChanges, List.filterMap_map]
  exact List.filterMap_congr fun e _ => rfl

end Delays

section Tasks

/-- The status and the number of retries that are recovered for the tasks. -/
abbrev TaskViews := String → Option (String × ℤ)

def taskView (t : TaskExecutionState) : String × ℤ := (t.status, t.retryCount)

/-- An event about a task that has been submitted. -/
def TaskViews.change (views : TaskViews) (taskId : String) (f : String × ℤ → String × ℤ) :
    TaskViews := Function.update views taskId ((views taskId).map f)

theorem TaskViews.change_some {views : TaskViews} {taskId : String} {v : String × ℤ}
    {f : String × ℤ → String × ℤ} (h : views taskId = some v) :
    views.change taskId f = Function.update views taskId (some (f v)) := by
  rw [change, h]
  rfl

theorem TaskViews.change_update (views : TaskViews) (taskId : String) (v : String × ℤ)
    (f : String × ℤ → String × ℤ) :
    TaskViews.change (Function.update views taskId (some v)) taskId f =
      Function.update views taskId (some (f v)) := by
  rw [change_some (Function.update_self _ _ _), Function.update_idem]

def TaskViews.apply (views : TaskViews) : EventKind → TaskViews
  | .taskSubmitted taskId _ _ => Function.update views taskId (some ("Pending", 0))
  | .taskQueued taskId => views.change taskId fun v => ("Pending", v.2)
  | .taskStarted taskId => views.change taskId fun v => ("Running", v.2)
  | .taskCompleted taskId => views.change taskId fun v => ("Completed", v.2)
  | .taskFailed taskId _ => views.change taskId fun v => ("Failed", v.2)
  | .taskCancelled taskId => views.change taskId fun v => ("Failed", v.2)
  | .taskTimedOut taskId => views.change taskId fun v => ("Failed", v.2)
  | .taskRetried taskId count => views.change taskId fun _ => ("Pending", count)
  | _ => views

def taskViews (notes : List Note) : TaskViews :=
  (kinds notes).foldl TaskViews.apply fun _ => none

theorem taskViews_append (notes more : List Note) :
    taskViews (notes ++ more) = (kinds more).foldl TaskViews.apply (taskViews notes) := by
  rw [taskViews, kinds_append, List.foldl_append]
  rfl

/-- The recovered tasks as they are viewed. -/
def viewed (tasks : String → Option TaskExecutionState) : TaskViews := fun taskId =>
  (tasks taskId).map taskView

theorem viewed_update (tasks : String → Option TaskExecutionState) (taskId : String)
    (t : Option TaskExecutionState) : viewed (Function.update tasks taskId t) =
      Function.update (viewed tasks) taskId (t.map taskView) := by
  funext other
  by_cases h : other = taskId
  · subst h
    simp [viewed]
  · simp [viewed, h]

theorem viewed_taskStep (tasks : String → Option TaskExecutionState) (e : RuntimeEvent) :
    viewed (taskStep tasks e) = (viewed tasks).apply e.kind := by
  obtain ⟨kind, timestamp, metadata⟩ := e
  cases kind with
  | taskSubmitted | taskQueued | taskStarted | taskCompleted | taskFailed | taskCancelled
  | taskTimedOut | taskRetried =>
    refine (viewed_update _ _ _).trans ?_
    simp only [TaskViews.apply, TaskViews.change, viewed, change, Option.map_map]
    rfl
  | _ => rfl

end Tasks

/-- What is recovered from a journal of a bounded length. -/
theorem recovered_journal {store : StateStore} {notes : List Note}
    (hstore : store.eventStore.events = journal notes)
    (hbounded : store.eventStore.events.length ≤ 100000) (clock : Clock) :
    ∃ state, recoveredState store .fromGenesis clock = .ok state ∧
      state.scheduler.delayedTaskIds = delayedIds notes ∧
      viewed state.tasks.get? = taskViews notes := by
  refine ⟨_, recoveredState_replay hbounded clock, ?_, ?_⟩
  · refine (delayed_replay _ clock).trans ?_
    rw [hstore, filterMap_delayOp]
    rfl
  · refine (congrArg viewed (tasks_replay _ clock)).trans ?_
    rw [hstore, taskViews, ← map_kind_journal, List.foldl_map]
    exact (List.foldl_hom viewed fun tasks e => (viewed_taskStep tasks e).symm).symm

section Runs

variable {σ α : Type} {step : σ → α → σ × List Note} {start : σ} {actions : List α}
  {store : StateStore}

/-- While a run is going on the store has the events of its first steps. A relation
between a state and what is recovered then holds all the time exactly when it holds
of the ids and the views that the notes lead to. -/
theorem forall_recovered_iff
    (hlog : store.eventStore.events = journal (Machine.exec step actions (start, [])).2)
    (hbounded : store.eventStore.events.length ≤ 100000) (clock : Clock)
    {R : σ → RuntimeState → Prop} {I : σ × List Note → Prop}
    (hrelated : ∀ s notes (state : RuntimeState),
      state.scheduler.delayedTaskIds = delayedIds notes →
      viewed state.tasks.get? = taskViews notes → (R s state ↔ I (s, notes))) :
    (∀ before, before <+: actions → ∀ earlier : StateStore,
      earlier.eventStore.events = journal (Machine.exec step before (start, [])).2 →
      ∃ state, recoveredState earlier .fromGenesis clock = .ok state ∧
        R (Machine.exec step before (start, [])).1 state) ↔
    ∀ before, before <+: actions → I (Machine.exec step before (start, [])) := by
  refine forall_congr' fun before => forall_congr' fun hbefore => ?_
  obtain ⟨later, rfl⟩ := hbefore
  rw [Machine.exec_append, Machine.exec_outputs] at hlog
  obtain ⟨earlier, hevents⟩ := exists_earlier hlog
  have hlength : (journal (Machine.exec step before (start, [])).2).length ≤ 100000 := by
    rw [hlog, journal_append, List.length_append] at hbounded
    exact (Nat.le_add_right _ _).trans hbounded
  have hrecovered : ∀ earlier : StateStore,
      earlier.eventStore.events = journal (Machine.exec step before (start, [])).2 →
      ∃ state, recoveredState earlier .fromGenesis clock = .ok state ∧
        (R (Machine.exec step before (start, [])).1 state ↔
          I (Machine.exec step before (start, []))) := by
    intro earlier hevents
    obtain ⟨state, hstate, hids, hviews⟩ := recovered_journal hevents (hevents ▸ hlength) clock
    exact ⟨state, hstate, hrelated _ _ state hids hviews⟩
  constructor
  · intro h
    obtain ⟨state, hstate, hrelation⟩ := h earlier hevents
    obtain ⟨same, hsame, hiff⟩ := hrecovered earlier hevents
    obtain rfl := Except.ok.inj (hstate.symm.trans hsame)
    exact hiff.mp hrelation
  · intro h earlier hevents
    obtain ⟨state, hstate, hiff⟩ := hrecovered earlier hevents
    exact ⟨state, hstate, hiff.mpr h⟩

end Runs

end MollisRuntime.Scheduling
