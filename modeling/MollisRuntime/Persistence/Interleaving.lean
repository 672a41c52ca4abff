import MollisRuntime.Library.Projection
import MollisRuntime.Persistence.Drift

/-!
Threads that append to one log. Every event is about one task, one worker or the
runtime itself, and recovery changes only what belongs to that. Two logs that
tell the same about each of them, interleaved differently, are recovered to the
same state, up to the order of the dicts and of the two lists of ids.
-/
namespace MollisRuntime.Persistence

open Ordered Python RecoveryManager Overwriting

/-- What an event is about. -/
inductive Subject
  | task (taskId : String)
  | worker (workerId : String)
  | runtime
  deriving DecidableEq

def RuntimeEvent.subject (e : RuntimeEvent) : Subject :=
  match e.kind with
  | .taskSubmitted taskId _ _ => .task taskId
  | .taskQueued taskId => .task taskId
  | .taskDequeued taskId => .task taskId
  | .taskStarted taskId => .task taskId
  | .taskCompleted taskId => .task taskId
  | .taskFailed taskId _ => .task taskId
  | .taskCancelled taskId => .task taskId
  | .taskTimedOut taskId => .task taskId
  | .taskRetried taskId _ => .task taskId
  | .retryScheduled taskId _ => .task taskId
  | .timeoutTriggered taskId _ => .task taskId
  | .delayedTaskReleased taskId => .task taskId
  | .workerStarted workerId => .worker workerId
  | .workerStopped workerId => .worker workerId
  | .workerHeartbeat workerId _ => .worker workerId
  | .workerFailed workerId _ => .worker workerId
  | .workerRecovered workerId => .worker workerId
  | _ => .runtime

def isAbout (s : Subject) (e : RuntimeEvent) : Bool := e.subject = s

/-- The same events in the same order about each subject. -/
def SameHistories (events events' : List RuntimeEvent) : Prop :=
  ∀ s, events.filter (isAbout s) = events'.filter (isAbout s)

theorem SameHistories.filter {events events' : List RuntimeEvent}
    (h : SameHistories events events') (p : RuntimeEvent → Bool) :
    SameHistories (events.filter p) (events'.filter p) := by
  intro s
  rw [List.filter_comm (isAbout s), List.filter_comm (isAbout s), h s]

/-- Two appends in the other order. -/
theorem SameHistories.swap (front back : List RuntimeEvent) {e e' : RuntimeEvent}
    (h : e.subject ≠ e'.subject) :
    SameHistories (front ++ e :: e' :: back) (front ++ e' :: e :: back) := by
  intro s
  rw [List.filter_append, List.filter_append]
  congr 1
  by_cases he : e.subject = s
  · have he' : e'.subject ≠ s := fun hs => h (he.trans hs.symm)
    simp [isAbout, he, he']
  · simp [List.filter_cons, isAbout, he]

section Subjects

variable {e : RuntimeEvent}

theorem taskChange_subject {c : String × Change TaskExecutionState TaskPatch}
    (h : taskChange e = some c) : e.subject = .task c.1 := by
  obtain ⟨kind, timestamp, metadata⟩ := e
  cases kind <;> cases h <;> rfl

theorem timeoutChange_subject {c : String × Option ℚ} (h : timeoutChange e = some c) :
    e.subject = .task c.1 := by
  obtain ⟨kind, timestamp, metadata⟩ := e
  cases kind <;> cases h
  rfl

theorem workerChange_subject {c : String × Change WorkerStateSnapshot WorkerPatch}
    (h : workerChange e = some c) : e.subject = .worker c.1 := by
  obtain ⟨kind, timestamp, metadata⟩ := e
  cases kind <;> cases h <;> rfl

theorem startedChange_subject {b : Bool} (h : startedChange e = some b) :
    e.subject = .runtime := by
  obtain ⟨kind, timestamp, metadata⟩ := e
  cases kind <;> cases h <;> rfl

theorem queueOp_subject {op : UniqueQueue.Op String} (h : queueOp e = some op) :
    e.subject = .task op.membership.1 := by
  obtain ⟨kind, timestamp, metadata⟩ := e
  cases kind <;> cases h <;> rfl

theorem delayOp_subject {op : UniqueQueue.Op String} (h : delayOp e = some op) :
    e.subject = .task op.membership.1 := by
  obtain ⟨kind, timestamp, metadata⟩ := e
  cases kind <;> cases h <;> rfl

end Subjects

section Parts

open Machine

variable {κ σ α : Type} [DecidableEq κ]

/-- One entry of a table, where every event changes at most one. -/
theorem apart_keyed (step : σ → α → σ) (change : RuntimeEvent → Option (κ × α)) (k : κ)
    {mine : RuntimeEvent → Bool}
    (hmine : ∀ e c, change e = some c → c.1 = k → mine e = true) :
    Apart (fun f e => maybe (keyed step) f (change e)) (fun f => f k) mine where
  quiet f e he := by
    cases hc : change e with
    | none => rfl
    | some c =>
      have hk : c.1 ≠ k := by
        intro hk
        rw [hmine e c hc hk] at he
        contradiction
      exact Function.update_of_ne hk.symm _ _
  alone f g e _ hfg := by
    cases hc : change e with
    | none => exact hfg
    | some c =>
      by_cases hk : c.1 = k
      · subst hk
        simp [maybe, keyed, hfg]
      · simp [maybe, keyed, Function.update_of_ne (Ne.symm hk), hfg]

/-- How often one id occurs in a queue without duplicates. -/
theorem apart_count (op : RuntimeEvent → Option (UniqueQueue.Op κ)) (k : κ)
    {mine : RuntimeEvent → Bool}
    (hmine : ∀ e o, op e = some o → o.membership.1 = k → mine e = true) :
    Apart (fun q e => maybe UniqueQueue.step q (op e)) (List.count k) mine where
  quiet q e he := by
    cases ho : op e with
    | none => rfl
    | some o =>
      refine UniqueQueue.count_step_other q ?_
      intro hk
      rw [hmine e o ho hk] at he
      contradiction
  alone q r e _ hqr := by
    cases ho : op e with
    | none => exact hqr
    | some o => exact UniqueQueue.count_step_congr hqr o

end Parts

section Folding

open Machine

variable {events events' : List RuntimeEvent}

theorem SameHistories.perm (h : SameHistories events events') : events.Perm events' := by
  classical
  rw [List.perm_iff_count]
  intro e
  have habout : isAbout e.subject e = true := by simp [isAbout]
  rw [← List.count_filter habout, h e.subject, List.count_filter habout]

theorem SameHistories.agree (h : SameHistories events events') {ν : Type}
    {view : Reconstruction → ν} {s : Subject}
    (hview : Apart Reconstruction.apply view (isAbout s)) (r : Reconstruction) :
    view (events.foldl Reconstruction.apply r) = view (events'.foldl Reconstruction.apply r) :=
  hview.foldl_agree rfl (h s)

theorem apart_task (taskId : String) :
    Apart Reconstruction.apply (fun r => r.tasks.get? taskId) (isAbout (.task taskId)) :=
  (apart_keyed _ taskChange taskId (by
    rintro e c hc rfl
    simp [isAbout, taskChange_subject hc])).comp tasks_apply

theorem apart_timeout (taskId : String) :
    Apart Reconstruction.apply (fun r => r.activeTimeouts.get? taskId)
      (isAbout (.task taskId)) :=
  (apart_keyed _ timeoutChange taskId (by
    rintro e c hc rfl
    simp [isAbout, timeoutChange_subject hc])).comp timeouts_apply

theorem apart_worker (workerId : String) :
    Apart Reconstruction.apply (fun r => r.workers.get? workerId)
      (isAbout (.worker workerId)) :=
  (apart_keyed _ workerChange workerId (by
    rintro e c hc rfl
    simp [isAbout, workerChange_subject hc])).comp workers_apply

theorem apart_queued (taskId : String) :
    Apart Reconstruction.apply (fun r => r.queuedTaskIds.count taskId)
      (isAbout (.task taskId)) :=
  (apart_count queueOp taskId (by
    rintro e op hop rfl
    simp [isAbout, queueOp_subject hop])).comp queued_apply

theorem apart_delayed (taskId : String) :
    Apart Reconstruction.apply (fun r => r.delayedIds.count taskId)
      (isAbout (.task taskId)) :=
  (apart_count delayOp taskId (by
    rintro e op hop rfl
    simp [isAbout, delayOp_subject hop])).comp delayed_apply

theorem apart_started :
    Apart Reconstruction.apply (fun r => r.schedStarted) (isAbout .runtime) where
  quiet r e he := by
    rw [started_apply, startedStep]
    cases hc : startedChange e with
    | none => rfl
    | some b => simp [isAbout, startedChange_subject hc] at he
  alone r r' e _ hr := by
    rw [started_apply, started_apply, hr]

theorem queueSize_step (r : Reconstruction) (e : RuntimeEvent) :
    (r.apply e).queueSize =
      if (queueOp e).isSome then ((r.apply e).queuedTaskIds.length : ℤ) else r.queueSize := by
  obtain ⟨kind, timestamp, metadata⟩ := e
  cases kind with
  | retryScheduled taskId =>
    dsimp only [Reconstruction.apply]
    split <;> rfl
  | _ => rfl

/-- The size is the saved one until the first event that concerns the queue. -/
theorem queueSize_foldl (events : List RuntimeEvent) (r : Reconstruction) :
    (events.foldl Reconstruction.apply r).queueSize =
      if ∃ e ∈ events, (queueOp e).isSome
      then ((events.foldl Reconstruction.apply r).queuedTaskIds.length : ℤ)
      else r.queueSize := by
  induction events using List.reverseRecOn with
  | nil => simp
  | append_singleton front e ih =>
    rw [List.foldl_concat, queueSize_step]
    by_cases hop : (queueOp e).isSome = true
    · rw [if_pos hop, if_pos ⟨e, by simp, hop⟩]
    · have hnone : queueOp e = none := by simpa using hop
      have hids : ((front.foldl Reconstruction.apply r).apply e).queuedTaskIds =
          (front.foldl Reconstruction.apply r).queuedTaskIds := by
        rw [queued_apply, hnone]
        rfl
      have hlast : (∃ e' ∈ front ++ [e], (queueOp e').isSome) ↔
          ∃ e' ∈ front, (queueOp e').isSome := by simp [hop]
      rw [if_neg hop, ih, hids]
      simp only [hlast]

end Folding

section Recovering

/-- Equal but for the order of the dicts and of the two lists of ids. -/
structure SameRecovered (s s' : RuntimeState) : Prop where
  tasks : s.tasks.SameItems s'.tasks
  workers : s.workers.SameItems s'.workers
  queued : s.queue.queuedTaskIds.Perm s'.queue.queuedTaskIds
  delayed : s.scheduler.delayedTaskIds.Perm s'.scheduler.delayedTaskIds
  timeouts : s.scheduler.activeTimeouts.SameItems s'.scheduler.activeTimeouts
  rest : { s' with
    tasks := s.tasks
    workers := s.workers
    queue := { s'.queue with queuedTaskIds := s.queue.queuedTaskIds }
    scheduler := { s'.scheduler with
      delayedTaskIds := s.scheduler.delayedTaskIds
      activeTimeouts := s.scheduler.activeTimeouts } } = s

theorem SameHistories.recovered {events events' : List RuntimeEvent}
    (h : SameHistories events events') (base : RuntimeState) (now : Timestamp) :
    SameRecovered ((events.foldl Reconstruction.apply (.unpack base)).pack base now)
      ((events'.foldl Reconstruction.apply (.unpack base)).pack base now) := by
  have hqueued : (events.foldl Reconstruction.apply (.unpack base)).queuedTaskIds.Perm
      (events'.foldl Reconstruction.apply (.unpack base)).queuedTaskIds :=
    List.perm_iff_count.mpr fun taskId => h.agree (apart_queued taskId) _
  have hsize : (events.foldl Reconstruction.apply (.unpack base)).queueSize =
      (events'.foldl Reconstruction.apply (.unpack base)).queueSize := by
    rw [queueSize_foldl, queueSize_foldl, hqueued.length_eq]
    simp only [h.perm.mem_iff]
  constructor
  · exact fun taskId => h.agree (apart_task taskId) _
  · exact fun workerId => h.agree (apart_worker workerId) _
  · exact hqueued
  · exact List.perm_iff_count.mpr fun taskId => h.agree (apart_delayed taskId) _
  · exact fun taskId => h.agree (apart_timeout taskId) _
  · simp only [Reconstruction.pack, hsize, h.agree apart_started]

/-- The state that a recovery starts from, if one is loaded. -/
def loadedState (store : StateStore) (policy : RecoveryPolicy) (clock : Clock) :
    Except PyError (Option RuntimeState) :=
  match policy with
  | .fromLatestSnapshot => store.loadRuntimeState clock.loading
  | .fromGenesis => .ok none

/-- The events that the recovery is to apply. -/
def selected (log : EventStore) : Option RuntimeState → List RuntimeEvent
  | some base =>
      if base.timestamp ≠ "" then log.events.filter fun e => base.timestamp ≤ e.timestamp
      else log.events
  | none => log.events

/-- The single fetch of the recovery returns them all. -/
def FetchedWhole (log : EventStore) (loaded : Option RuntimeState) : Prop :=
  (selected log loaded).length ≤
    match loaded with
    | some base => if base.timestamp ≠ "" then 100 else 100000
    | none => 100000

theorem eventsToReplay_whole {log : EventStore} {loaded : Option RuntimeState}
    (h : FetchedWhole log loaded) : eventsToReplay log loaded = selected log loaded := by
  unfold FetchedWhole at h
  cases loaded with
  | none =>
    rw [eventsToReplay, EventStore.stream, List.drop_zero]
    exact List.take_of_length_le h
  | some base =>
    by_cases hstamp : base.timestamp ≠ ""
    · simp only [selected, if_pos hstamp] at h
      rw [eventsToReplay, if_pos hstamp, selected, if_pos hstamp, EventStore.streamFrom,
        List.drop_zero]
      exact List.take_of_length_le h
    · simp only [selected, if_neg hstamp] at h
      rw [eventsToReplay, if_neg hstamp, selected, if_neg hstamp, EventStore.stream,
        List.drop_zero]
      exact List.take_of_length_le h

theorem recoveredState_eq (store : StateStore) (policy : RecoveryPolicy) (clock : Clock) :
    recoveredState store policy clock = (do
      let loaded ← loadedState store policy clock
      let base := loaded.getD (genesisState clock.starting)
      return ((eventsToReplay store.eventStore loaded).foldl Reconstruction.apply
        (.unpack base)).pack base clock.packing) := by
  unfold recoveredState recover loadedState
  cases policy with
  | fromGenesis => rfl
  | fromLatestSnapshot =>
    cases store.loadRuntimeState clock.loading <;> rfl

theorem SameHistories.selected {log log' : EventStore}
    (h : SameHistories log.events log'.events) (loaded : Option RuntimeState) :
    SameHistories (selected log loaded) (selected log' loaded) := by
  unfold Persistence.selected
  split
  · split
    · exact h.filter _
    · exact h
  · exact h

/-- Under both policies and from any saved state: if the two logs contain the same
events in the same order about each task, each worker and the runtime, and the
fetch returns all of them, the recovered states are the same up to order. -/
theorem interleaved_recover_same (store : StateStore) (policy : RecoveryPolicy) (clock : Clock)
    (log log' : EventStore) (hsame : SameHistories log.events log'.events)
    (hwhole : ∀ loaded, loadedState store policy clock = .ok loaded → FetchedWhole log loaded) :
    (∃ e, recoveredState { store with eventStore := log } policy clock = .error e ∧
        recoveredState { store with eventStore := log' } policy clock = .error e) ∨
      ∃ s s', recoveredState { store with eventStore := log } policy clock = .ok s ∧
        recoveredState { store with eventStore := log' } policy clock = .ok s' ∧
        SameRecovered s s' := by
  rw [recoveredState_eq, recoveredState_eq]
  have hload : ∀ log, loadedState { store with eventStore := log } policy clock =
      loadedState store policy clock := fun _ => rfl
  rw [hload log, hload log']
  cases hloaded : loadedState store policy clock with
  | error e => exact Or.inl ⟨e, rfl, rfl⟩
  | ok loaded =>
    have hselected := hsame.selected loaded
    have hfetch := hwhole loaded hloaded
    have hfetch' : FetchedWhole log' loaded := by
      unfold FetchedWhole
      rw [← hselected.perm.length_eq]
      exact hfetch
    refine Or.inr ⟨_, _, rfl, rfl, ?_⟩
    rw [eventsToReplay_whole hfetch, eventsToReplay_whole hfetch']
    exact hselected.recovered _ _

/-- Two threads that enqueue different tasks. -/
def enqueuedInTurn (first second : String) : EventStore where
  events := [⟨.taskQueued first, "2026-01-01T00:00:00", .empty⟩,
    ⟨.taskQueued second, "2026-01-01T00:00:00", .empty⟩]
  serialisable := by
    intro e he
    rcases List.mem_pair.mp he with rfl | rfl <;> rfl

theorem enqueuedInTurn_recovered :
    (∃ e,
        recoveredState { eventStore := enqueuedInTurn "a" "b" } .fromGenesis sampleClock =
          .error e ∧
        recoveredState { eventStore := enqueuedInTurn "b" "a" } .fromGenesis sampleClock =
          .error e) ∨
      ∃ s s',
        recoveredState { eventStore := enqueuedInTurn "a" "b" } .fromGenesis sampleClock =
          .ok s ∧
        recoveredState { eventStore := enqueuedInTurn "b" "a" } .fromGenesis sampleClock =
          .ok s' ∧ SameRecovered s s' :=
  interleaved_recover_same {} .fromGenesis sampleClock (enqueuedInTurn "a" "b")
    (enqueuedInTurn "b" "a") (SameHistories.swap [] [] (by decide)) (by
      rintro loaded hloaded
      cases hloaded
      exact Nat.le_of_ble_eq_true rfl)

end Recovering

end MollisRuntime.Persistence
