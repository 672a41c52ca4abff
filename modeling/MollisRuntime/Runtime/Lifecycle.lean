import MollisRuntime.Scheduling.Conservation
import MollisRuntime.Scheduling.PoolLifecycle

/-!
Starting and stopping the runtime. One thread calls start and stop, which go through
the worker pool and the scheduler one after the other; the loop of the scheduler, the
workers and the supervisor run beside it, and any thread calls the queue. One loop
lives at most, and the pool is not stopped before the loop has ended.
-/
namespace MollisRuntime.Scheduling

open Ordered Python Persistence

/-- Where the loop of the scheduler stands. -/
inductive LoopPhase
  /-- At the head of the loop. -/
  | checking
  /-- Before it asks for idle workers. -/
  | looking
  /-- Before it asks whether the queue is empty. -/
  | asking
  | dequeuing
  /-- Before the check of `submit`. -/
  | holding (task : TaskHandle)
  | putting (task : TaskHandle)
  | dead

namespace LoopPhase

def isDead : LoopPhase → Bool
  | dead => true
  | _ => false

/-- The task that was dequeued and is not in the pool's queue. -/
def inHand : LoopPhase → Option TaskHandle
  | holding task => some task
  | putting task => some task
  | _ => none

/-- The task that `submit` has let through. -/
def submitted : LoopPhase → Option TaskHandle
  | putting task => some task
  | _ => none

end LoopPhase

/-- Where the thread stands that calls `Runtime.start` and `Runtime.stop`. -/
inductive RuntimeControl
  | outside
  /-- The pool has been started, the scheduler comes next. -/
  | starting
  /-- In `scheduler.stop()`, which joins the loop. -/
  | joining
  /-- The scheduler has been stopped, the pool comes next. -/
  | stopping
  | closing
  deriving DecidableEq

/-- All loops ever started, in this order; the last one is `_thread`. -/
structure Lifecycle (P : Type) where
  queue : InMemoryTaskQueue P
  pool : WorkerPool
  started : Bool := false
  stopEvent : Bool := false
  loops : List LoopPhase := []
  control : RuntimeControl := .outside

inductive LifecycleNote
  /-- A call of some other thread on the queue. -/
  | called (response : Response)
  /-- The loop's own call of `dequeue`. -/
  | asked (response : Response)
  /-- `submit` raised. -/
  | refused (task : TaskHandle)
  | pool (note : PoolNote)

namespace LifecycleNote

def asResponse : LifecycleNote → Option Response
  | called response => some response
  | asked response => some response
  | _ => none

def asDequeued : LifecycleNote → Option TaskHandle
  | asked response => response.handedOut
  | _ => none

/-- Handed out to others. -/
def asGiven : LifecycleNote → Option TaskHandle
  | called response => response.handedOut
  | _ => none

def asRefused : LifecycleNote → Option TaskHandle
  | refused task => some task
  | _ => none

def asPool : LifecycleNote → Option PoolNote
  | pool note => some note
  | _ => none

end LifecycleNote

/-- `appends` says whether the event store takes the events that are appended there;
`object` is what the tasks are at that moment. -/
inductive LifecycleAction
  | start (now : String) (appends : Bool)
  | startScheduler
  | stop
  | joinLoop (appends : Bool)
  | stopPool
  | notify
  | joinWorker
  | finish
  | supervise (workerId now : String)
  | worker (i : ℕ) (env : TurnEnv)
  | loop (i : ℕ) (env : QueueEnv) (object : TaskHandle → Task)
  | call (env : QueueEnv) (call : QueueCall)

/-- The task object behind the handle. -/
def TaskHandle.task (handle : TaskHandle) (object : TaskHandle → Task) : Task :=
  { object handle with id := handle.id }

/-- `len(self._worker_pool.idle_workers()) > 0` -/
def WorkerPool.hasIdle (pool : WorkerPool) : Bool :=
  pool.workers.values.any fun i => (pool.threads[i]?).any fun t => t.worker.state = .idle

namespace Lifecycle

variable {P : Type} [SchedulingPolicy P]

def setLoop (s : Lifecycle P) (i : ℕ) (phase : LoopPhase) : Lifecycle P :=
  { s with loops := s.loops.set i phase }

def onPool (s : Lifecycle P) (a : PoolAction) : Lifecycle P × List LifecycleNote :=
  ({ s with pool := (s.pool.step a).1 }, (s.pool.step a).2.map .pool)

/-- `worker_pool.start()`; what it raises ends `Runtime.start`. -/
def start (s : Lifecycle P) (now : String) (appends : Bool) : Lifecycle P × List LifecycleNote :=
  match s.control with
  | .outside =>
    let started := s.onPool (.start now)
    ({ started.1 with control := if appends then .starting else .outside }, started.2)
  | _ => (s, [])

/-- `scheduler.start()`, under its lock; nothing is undone when the append raises. -/
def startScheduler (s : Lifecycle P) : Lifecycle P :=
  match s.control with
  | .starting =>
    if s.started then { s with control := .outside }
    else
      { s with
        started := true
        stopEvent := false
        loops := s.loops ++ [.checking]
        control := .outside }
  | _ => s

/-- The first part of `scheduler.stop()`, under its lock. -/
def stop (s : Lifecycle P) : Lifecycle P :=
  match s.control with
  | .outside =>
    if s.started then { s with started := false, stopEvent := true, control := .joining }
    else { s with control := .stopping }
  | _ => s

/-- `self._thread.join()`, and the event behind it. -/
def joinLoop (s : Lifecycle P) (appends : Bool) : Lifecycle P :=
  match s.control with
  | .joining =>
    if s.loops.getLast?.all LoopPhase.isDead then
      { s with control := if appends then .stopping else .outside }
    else s
  | _ => s

def stopPool (s : Lifecycle P) : Lifecycle P × List LifecycleNote :=
  match s.control with
  | .stopping =>
    let stopped := s.onPool .stop
    ({ stopped.1 with control := .closing }, stopped.2)
  | _ => (s, [])

def finish (s : Lifecycle P) : Lifecycle P :=
  match s.control, s.pool.control with
  | .closing, .outside => { s with control := .outside }
  | _, _ => s

/-- The next step of a loop. -/
def loopTurn (s : Lifecycle P) (i : ℕ) (env : QueueEnv) (object : TaskHandle → Task) :
    Lifecycle P × List LifecycleNote :=
  match s.loops[i]? with
  | none | some .dead => (s, [])
  | some .checking => (s.setLoop i (if s.stopEvent then .dead else .looking), [])
  | some .looking => (s.setLoop i (if s.pool.hasIdle then .asking else .checking), [])
  | some .asking => (s.setLoop i (if s.queue.isEmpty then .checking else .dequeuing), [])
  | some .dequeuing =>
    let reply := s.queue.answer env .dequeue
    let response : Response := { call := .dequeue, events := reply.events, result := reply.result }
    let phase := (response.handedOut.map LoopPhase.holding).getD .checking
    ({ s with queue := reply.queue }.setLoop i phase, [.asked response])
  | some (.holding task) =>
    if s.pool.started then
      let submitted := s.onPool (.submit (task.task object))
      (submitted.1.setLoop i (.putting task), submitted.2)
    else (s.setLoop i .checking, [.refused task])
  | some (.putting _) =>
    let put := s.onPool (.put 0)
    (put.1.setLoop i .checking, put.2)

def step (s : Lifecycle P) : LifecycleAction → Lifecycle P × List LifecycleNote
  | .start now appends => s.start now appends
  | .startScheduler => (s.startScheduler, [])
  | .stop => (s.stop, [])
  | .joinLoop appends => (s.joinLoop appends, [])
  | .stopPool => s.stopPool
  | .notify => s.onPool .notify
  | .joinWorker => s.onPool .join
  | .finish => (s.finish, [])
  | .supervise workerId now => s.onPool (.supervise workerId now)
  | .worker i env => s.onPool (.turn i env)
  | .loop i env object => s.loopTurn i env object
  | .call env call =>
    let reply := s.queue.answer env call
    ({ s with queue := reply.queue },
      [.called { call, events := reply.events, result := reply.result }])

def create (maxSize : Option ℤ) (size : ℕ) : Lifecycle P where
  queue := InMemoryTaskQueue.create maxSize SchedulingPolicy.init
  pool := { size }

/-- A new runtime after some steps, with what was noted. -/
def run (maxSize : Option ℤ) (size : ℕ) (actions : List LifecycleAction) :
    Lifecycle P × List LifecycleNote :=
  Machine.exec step actions (create maxSize size, [])

/-- The pool is stopped only while no loop lives, and knows of no other submissions than
that of the loop. -/
structure Sound (s : Lifecycle P) : Prop where
  pool : s.pool.Sound
  alone : ∀ (i : ℕ) (phase : LoopPhase), s.loops[i]? = some phase → phase.isDead = false →
    i + 1 = s.loops.length ∧ s.pool.started = true ∧ (s.started = true ∨ s.control = .joining)
  running : s.started = true →
    s.pool.started = true ∧ (s.control = .outside ∨ s.control = .starting)
  starting : s.control = .starting → s.pool.started = true
  closing : s.pool.control ≠ .outside → s.control = .closing
  submitting : s.pool.submitting.map Task.id =
    (s.loops.filterMap LoopPhase.submitted).map TaskHandle.id

end Lifecycle

namespace WorkerPool

/-- The pool goes on without being started or stopped, and without a submission. -/
structure GoesOn (pool pool' : WorkerPool) : Prop where
  started : pool'.started = pool.started
  submitting : pool'.submitting = pool.submitting
  control : pool'.control ≠ .outside → pool.control ≠ .outside

theorem goesOn_notify (pool : WorkerPool) : pool.GoesOn pool.notify := by
  unfold notify
  split
  · rename_i hcontrol
    have hne : pool.control ≠ .outside := by
      rw [hcontrol]
      exact Control.noConfusion
    split <;> exact ⟨rfl, rfl, fun _ => hne⟩
  · rename_i hcontrol
    have hne : pool.control ≠ .outside := by
      rw [hcontrol]
      exact Control.noConfusion
    exact ⟨rfl, rfl, fun _ => hne⟩
  · exact ⟨rfl, rfl, id⟩

theorem goesOn_join (pool : WorkerPool) : pool.GoesOn pool.join := by
  unfold join
  split
  · rename_i hcontrol
    have hne : pool.control ≠ .outside := by
      rw [hcontrol]
      exact Control.noConfusion
    split <;> exact ⟨rfl, rfl, fun _ => hne⟩
  · exact ⟨rfl, rfl, fun h => absurd rfl h⟩
  · exact ⟨rfl, rfl, id⟩

theorem goesOn_supervise (pool : WorkerPool) (workerId now : String) :
    pool.GoesOn (pool.supervise workerId now) := by
  unfold supervise
  split
  · split
    · split <;> exact ⟨rfl, rfl, id⟩
    · exact ⟨rfl, rfl, id⟩
  · exact ⟨rfl, rfl, id⟩

theorem goesOn_turn (pool : WorkerPool) (i : ℕ) (env : TurnEnv) :
    pool.GoesOn (pool.turn i env).1 := by
  unfold turn
  split
  · exact ⟨rfl, rfl, id⟩
  · exact ⟨rfl, rfl, id⟩

theorem start_frame (pool : WorkerPool) (now : String) :
    (pool.start now).submitting = pool.submitting ∧
      (pool.start now).control = pool.control := by
  unfold start
  split
  · split
    · exact ⟨rfl, rfl⟩
    · exact ⟨launches_frame submitting (fun _ _ => rfl) _ _,
        launches_frame WorkerPool.control (fun _ _ => rfl) _ _⟩
  · exact ⟨rfl, rfl⟩

theorem started_start {pool : WorkerPool} (hcontrol : pool.control = .outside) (now : String) :
    (pool.start now).started = true := by
  unfold start
  rw [hcontrol]
  dsimp only
  split
  · assumption
  · exact launches_frame WorkerPool.started (fun _ _ => rfl) _ _

theorem submit_started {pool : WorkerPool} (h : pool.started = true) (task : Task) :
    pool.submit task = { pool with submitting := pool.submitting ++ [task] } := by
  rw [submit, if_pos h]

theorem put_first {pool : WorkerPool} {task : Task} (h : pool.submitting = [task]) :
    pool.put 0 =
      ({ pool with submitting := [], taskQueue := pool.taskQueue ++ [task] }, [.put task]) := by
  unfold put
  rw [h]
  rfl

theorem submitting_stop (pool : WorkerPool) : pool.stop.submitting = pool.submitting := by
  unfold stop
  split <;> [split; skip] <;> rfl

end WorkerPool

namespace Lifecycle

variable {P : Type} {s s' : Lifecycle P}

section Invariant

theorem Sound.goesOn (h : s.Sound) {pool' : WorkerPool} (hpool : pool'.Sound)
    (hgoes : s.pool.GoesOn pool') : Sound { s with pool := pool' } where
  pool := hpool
  alone i phase hat hlive := by
    obtain ⟨hlast, hstarted, hrun⟩ := h.alone i phase hat hlive
    exact ⟨hlast, hgoes.started.trans hstarted, hrun⟩
  running hstarted := ⟨hgoes.started.trans (h.running hstarted).1, (h.running hstarted).2⟩
  starting hcontrol := hgoes.started.trans (h.starting hcontrol)
  closing hcontrol := h.closing (hgoes.control hcontrol)
  submitting := (congrArg (List.map Task.id) hgoes.submitting).trans h.submitting

/-- The pool is not stopping before the scheduler tells it to. -/
theorem Sound.outside (h : s.Sound) (hcontrol : s.control ≠ .closing) :
    s.pool.control = .outside := by
  by_contra hne
  exact hcontrol (h.closing hne)

theorem Sound.not_started (h : s.Sound) (houtside : s.control ≠ .outside)
    (hstarting : s.control ≠ .starting) : s.started ≠ true := by
  intro hrun
  rcases (h.running hrun).2 with hwhere | hwhere
  · exact houtside hwhere
  · exact hstarting hwhere

/-- A loop lives on only under a started scheduler, or while `stop` waits for it. -/
theorem Sound.loops_dead (h : s.Sound) (hidle : s.started ≠ true)
    (hcontrol : s.control ≠ .joining) : ∀ p ∈ s.loops, p.isDead = true := by
  intro p hp
  obtain ⟨i, hi⟩ := List.getElem?_of_mem hp
  by_contra hlive
  rcases (h.alone i p hi (by simpa using hlive)).2.2 with hrun | hjoin
  · exact hidle hrun
  · exact hcontrol hjoin

theorem not_live {phases : List LoopPhase} (hdead : ∀ p ∈ phases, p.isDead = true) {i : ℕ}
    {phase : LoopPhase} (hat : phases[i]? = some phase) : phase.isDead ≠ false := by
  rw [hdead phase (List.mem_of_getElem? hat)]
  exact Bool.noConfusion

/-- A loop that lives is the last one. -/
theorem Sound.last (h : s.Sound) {i : ℕ} {phase : LoopPhase} (hat : s.loops[i]? = some phase)
    (hlive : phase.isDead = false) : ∃ before : List LoopPhase, s.loops = before ++ [phase] ∧
      i = before.length ∧ ∀ p ∈ before, p.isDead = true := by
  have hlength := (h.alone i phase hat hlive).1
  obtain ⟨hlt, hget⟩ := List.getElem?_eq_some_iff.mp hat
  refine ⟨s.loops.take i, ?_, ?_, ?_⟩
  · have hdrop : s.loops.drop i = [phase] := by
      rw [List.drop_eq_getElem_cons hlt, hget, List.drop_eq_nil_of_le hlength.ge]
    rw [← hdrop, List.take_append_drop]
  · rw [List.length_take, Nat.min_eq_left hlt.le]
  · intro p hp
    obtain ⟨j, hj⟩ := List.getElem?_of_mem hp
    obtain ⟨hjlt, -⟩ := List.getElem?_eq_some_iff.mp hj
    rw [List.length_take, Nat.min_eq_left hlt.le] at hjlt
    rw [List.getElem?_take_of_lt hjlt] at hj
    by_contra hdead
    have hother := (h.alone j p hj (by simpa using hdead)).1
    omega

theorem filterMap_dead {α : Type} {part : LoopPhase → Option α} (hpart : part .dead = none)
    {phases : List LoopPhase} (h : ∀ p ∈ phases, p.isDead = true) : phases.filterMap part = [] := by
  refine List.filterMap_eq_nil_iff.mpr fun p hp => ?_
  have hdead := h p hp
  cases p with
  | dead => exact hpart
  | _ => cases hdead

/-- What the loops have in hand is what the one that lives has. -/
theorem Sound.filterMap_loops (h : s.Sound) {i : ℕ} {phase : LoopPhase}
    (hat : s.loops[i]? = some phase) (hlive : phase.isDead = false)
    (part : LoopPhase → Option TaskHandle) (hpart : part .dead = none) (phase' : LoopPhase) :
    s.loops.filterMap part = (part phase).toList ∧
      (s.loops.set i phase').filterMap part = (part phase').toList := by
  obtain ⟨before, hloops, rfl, hdead⟩ := h.last hat hlive
  have hsingle (p : LoopPhase) : (before ++ [p]).filterMap part = (part p).toList := by
    rw [List.filterMap_append, filterMap_dead hpart hdead, List.nil_append]
    cases hp : part p <;> simp [hp]
  rw [hloops, List.set_append_right _ _ le_rfl, Nat.sub_self, List.set_cons_zero]
  exact ⟨hsingle phase, hsingle phase'⟩

/-- A loop that lives goes on to its next phase. -/
theorem Sound.setLoop (h : s.Sound) {i : ℕ} {phase phase' : LoopPhase}
    (hat : s.loops[i]? = some phase) (hlive : phase.isDead = false)
    (queue : InMemoryTaskQueue P) {pool' : WorkerPool} (hpool : pool'.Sound)
    (hstarted : pool'.started = s.pool.started) (hcontrol : pool'.control = s.pool.control)
    (hsubmitting : pool'.submitting.map Task.id =
      phase'.submitted.toList.map TaskHandle.id) :
    Sound { s with queue, pool := pool', loops := s.loops.set i phase' } where
  pool := hpool
  alone j p hj hp := by
    change (s.loops.set i phase')[j]? = some p at hj
    change j + 1 = (s.loops.set i phase').length ∧ pool'.started = true ∧ _
    rw [List.length_set, hstarted]
    rw [List.getElem?_set] at hj
    split at hj
    · rename_i hij
      subst hij
      exact h.alone i phase hat hlive
    · exact h.alone j p hj hp
  running hrun := by
    obtain ⟨hpoolStarted, hrun'⟩ := h.running hrun
    exact ⟨hstarted.trans hpoolStarted, hrun'⟩
  starting hstarting := hstarted.trans (h.starting hstarting)
  closing hne := h.closing (hcontrol ▸ hne)
  submitting := by
    rw [(h.filterMap_loops hat hlive LoopPhase.submitted rfl phase').2]
    exact hsubmitting

theorem Sound.submitting_eq (h : s.Sound) {i : ℕ} {phase : LoopPhase}
    (hat : s.loops[i]? = some phase) (hlive : phase.isDead = false) :
    s.pool.submitting.map Task.id = phase.submitted.toList.map TaskHandle.id := by
  rw [h.submitting, (h.filterMap_loops hat hlive LoopPhase.submitted rfl phase).1]

theorem Sound.stay (h : s.Sound) {i : ℕ} {phase phase' : LoopPhase}
    (hat : s.loops[i]? = some phase) (hlive : phase.isDead = false)
    (hbefore : phase.submitted = none) (hafter : phase'.submitted = none)
    (queue : InMemoryTaskQueue P) :
    Sound { s with queue, loops := s.loops.set i phase' } := by
  refine h.setLoop hat hlive queue h.pool rfl rfl ?_
  rw [h.submitting_eq hat hlive, hbefore, hafter]

theorem Sound.start (h : s.Sound) (now : String) (appends : Bool) :
    Sound (s.start now appends).1 := by
  unfold Lifecycle.start
  split
  · rename_i hcontrol
    have hframe := s.pool.start_frame now
    have hout : s.pool.control = .outside := h.outside (by simp [hcontrol])
    have hstarted := WorkerPool.started_start hout now
    constructor
    · exact h.pool.start now
    · intro i phase hat hlive
      obtain ⟨hlast, -, hrun⟩ := h.alone i phase hat hlive
      refine ⟨hlast, hstarted, .inl (hrun.resolve_right ?_)⟩
      rw [hcontrol]
      exact RuntimeControl.noConfusion
    · intro hrun
      refine ⟨hstarted, ?_⟩
      cases appends
      · exact .inl rfl
      · exact .inr rfl
    · exact fun _ => hstarted
    · intro hne
      exact absurd (hframe.2.trans hout) hne
    · exact (congrArg (List.map Task.id) hframe.1).trans h.submitting
  · exact h

theorem Sound.startScheduler (h : s.Sound) : Sound s.startScheduler := by
  unfold Lifecycle.startScheduler
  split
  · rename_i hcontrol
    have hpool := h.starting hcontrol
    have hout : s.pool.control = .outside := h.pool.outside hpool
    split
    · rename_i hrun
      constructor
      · exact h.pool
      · intro i phase hat hlive
        obtain ⟨hlast, hstarted, -⟩ := h.alone i phase hat hlive
        exact ⟨hlast, hstarted, .inl hrun⟩
      · exact fun _ => ⟨hpool, .inl rfl⟩
      · exact fun _ => hpool
      · exact fun hne => absurd hout hne
      · exact h.submitting
    · rename_i hidle
      have hdead := h.loops_dead hidle (by simp [hcontrol])
      constructor
      · exact h.pool
      · intro i phase hat hlive
        refine ⟨?_, hpool, .inl rfl⟩
        change (s.loops ++ [LoopPhase.checking])[i]? = some phase at hat
        change i + 1 = (s.loops ++ [LoopPhase.checking]).length
        have hlt := (List.getElem?_eq_some_iff.mp hat).1
        rw [List.length_append, List.length_singleton] at hlt ⊢
        by_contra hne
        rw [List.getElem?_append_left (by omega)] at hat
        exact not_live hdead hat hlive
      · exact fun _ => ⟨hpool, .inl rfl⟩
      · exact fun _ => hpool
      · exact fun hne => absurd hout hne
      · change _ = ((s.loops ++ [LoopPhase.checking]).filterMap
          LoopPhase.submitted).map TaskHandle.id
        rw [List.filterMap_append]
        exact h.submitting.trans (by simp [LoopPhase.submitted])
  · exact h

theorem Sound.stop (h : s.Sound) : Sound s.stop := by
  unfold Lifecycle.stop
  split
  · rename_i hcontrol
    have hout : s.pool.control = .outside := h.outside (by simp [hcontrol])
    split
    · rename_i hrun
      have hpool := (h.running hrun).1
      refine ⟨h.pool, ?_, fun h => (by cases h), fun h => (by cases h),
        fun hne => absurd hout hne, h.submitting⟩
      intro i phase hat hlive
      exact ⟨(h.alone i phase hat hlive).1, hpool, .inr rfl⟩
    · rename_i hidle
      refine ⟨h.pool, ?_, fun hrun => absurd hrun hidle, fun h => (by cases h),
        fun hne => absurd hout hne, h.submitting⟩
      intro i phase hat hlive
      exact absurd hlive (not_live (h.loops_dead hidle (by simp [hcontrol])) hat)
  · exact h

/-- No loop lives when the last one is dead. -/
theorem Sound.all_dead (h : s.Sound) (hlast : s.loops.getLast?.all LoopPhase.isDead = true) :
    ∀ p ∈ s.loops, p.isDead = true := by
  intro p hp
  obtain ⟨i, hi⟩ := List.getElem?_of_mem hp
  by_contra hlive
  have hlive : p.isDead = false := by simpa using hlive
  obtain ⟨before, hloops, -, -⟩ := h.last hi hlive
  rw [hloops, List.getLast?_concat] at hlast
  rw [show p.isDead = true from hlast] at hlive
  cases hlive

theorem Sound.joinLoop (h : s.Sound) (appends : Bool) : Sound (s.joinLoop appends) := by
  unfold Lifecycle.joinLoop
  split
  · rename_i hcontrol
    split
    · rename_i hlast
      have hdead := h.all_dead hlast
      have hidle := h.not_started (by simp [hcontrol]) (by simp [hcontrol])
      have hout : s.pool.control = .outside := h.outside (by simp [hcontrol])
      refine ⟨h.pool, ?_, fun hrun => absurd hrun hidle, ?_, fun hne => absurd hout hne,
        h.submitting⟩
      · intro i phase hat hlive
        exact absurd hlive (not_live hdead hat)
      · intro hstarting
        change (if appends then RuntimeControl.stopping else .outside) = .starting at hstarting
        cases appends <;> cases hstarting
    · exact h
  · exact h

theorem Sound.stopPool (h : s.Sound) : Sound s.stopPool.1 := by
  unfold Lifecycle.stopPool
  split
  · rename_i hcontrol
    have hidle := h.not_started (by simp [hcontrol]) (by simp [hcontrol])
    have hdead := h.loops_dead hidle (by simp [hcontrol])
    refine ⟨h.pool.stop, ?_, fun hrun => absurd hrun hidle, fun h => (by cases h), fun _ => rfl, ?_⟩
    · intro i phase hat hlive
      exact absurd hlive (not_live hdead hat)
    · exact (congrArg (List.map Task.id) s.pool.submitting_stop).trans h.submitting
  · exact h

theorem Sound.finish (h : s.Sound) : Sound s.finish := by
  unfold Lifecycle.finish
  split
  · rename_i hcontrol hout
    have hidle := h.not_started (by simp [hcontrol]) (by simp [hcontrol])
    have hdead := h.loops_dead hidle (by simp [hcontrol])
    refine ⟨h.pool, ?_, fun hrun => absurd hrun hidle, fun h => (by cases h),
      fun hne => absurd hout hne, h.submitting⟩
    intro i phase hat hlive
    exact absurd hlive (not_live hdead hat)
  · exact h

variable [SchedulingPolicy P]

theorem Sound.loopTurn (h : s.Sound) (i : ℕ) (env : QueueEnv) (object : TaskHandle → Task) :
    Sound (s.loopTurn i env object).1 := by
  unfold Lifecycle.loopTurn
  split
  · exact h
  · exact h
  · rename_i hat
    exact h.stay hat rfl rfl (by split <;> rfl) s.queue
  · rename_i hat
    exact h.stay hat rfl rfl (by split <;> rfl) s.queue
  · rename_i hat
    exact h.stay hat rfl rfl (by split <;> rfl) s.queue
  · rename_i hat
    refine h.stay hat rfl rfl ?_ _
    cases Response.handedOut _ <;> rfl
  · rename_i task hat
    split
    · rename_i hstarted
      have hnone := List.map_eq_nil_iff.mp (h.submitting_eq hat rfl)
      have hsubmit := WorkerPool.submit_started hstarted (task.task object)
      have hpool : (s.pool.submit (task.task object)).Sound := h.pool.step (.submit _)
      change Sound { s with
        queue := s.queue
        pool := s.pool.submit (task.task object)
        loops := s.loops.set i (.putting task) }
      refine h.setLoop hat rfl s.queue hpool (by rw [hsubmit]) (by rw [hsubmit]) ?_
      rw [hsubmit, hnone]
      rfl
    · exact h.stay hat rfl rfl rfl s.queue
  · rename_i task hat
    obtain ⟨submitted, hsubmitted, -⟩ := List.map_eq_singleton_iff.mp (h.submitting_eq hat rfl)
    have hput := congrArg Prod.fst (WorkerPool.put_first hsubmitted)
    have hpool : (s.pool.put 0).1.Sound := h.pool.step (.put 0)
    change Sound { s with
      queue := s.queue, pool := (s.pool.put 0).1, loops := s.loops.set i .checking }
    refine h.setLoop hat rfl s.queue hpool (by rw [hput]) (by rw [hput]) ?_
    rw [hput]
    rfl

theorem Sound.step (h : s.Sound) (a : LifecycleAction) : Sound (s.step a).1 := by
  cases a with
  | start now appends => exact h.start now appends
  | startScheduler => exact h.startScheduler
  | stop => exact h.stop
  | joinLoop appends => exact h.joinLoop appends
  | stopPool => exact h.stopPool
  | notify => exact h.goesOn h.pool.notify s.pool.goesOn_notify
  | joinWorker => exact h.goesOn h.pool.join s.pool.goesOn_join
  | finish => exact h.finish
  | supervise workerId now =>
    exact h.goesOn (h.pool.supervise workerId now) (s.pool.goesOn_supervise workerId now)
  | worker i env => exact h.goesOn (h.pool.turn i env) (s.pool.goesOn_turn i env)
  | loop i env object => exact h.loopTurn i env object
  | call env call =>
    exact ⟨h.pool, h.alone, h.running, h.starting, h.closing, h.submitting⟩

theorem sound_create (maxSize : Option ℤ) (size : ℕ) :
    Sound (create maxSize size : Lifecycle P) where
  pool := WorkerPool.sound_init size
  alone i phase hat := by cases hat
  running h := by cases h
  starting h := by cases h
  closing h := absurd rfl h
  submitting := rfl

theorem sound_run (maxSize : Option ℤ) (size : ℕ) (actions : List LifecycleAction) :
    Sound (run (P := P) maxSize size actions).1 :=
  Machine.exec_preserves (fun c : Lifecycle P × List LifecycleNote => c.1.Sound)
    (fun _ a h => h.step a) (sound_create maxSize size) actions

end Invariant

end Lifecycle

end MollisRuntime.Scheduling
