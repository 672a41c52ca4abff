import MollisRuntime.Workflow.Absorbing
import MollisRuntime.Workflow.Interruption

/-!
Cancelled workflows and the tasks on their way to a worker: the task queue, the
hands of the scheduler loop, the pool's queue, and a worker that has picked the
task. Cancelling empties the first place only, and only of the nodes that are
still PENDING or RUNNING. After it a task of the instance can start exactly if
one of its tasks is in another place, or queued for a node that is settled.
-/
namespace MollisRuntime.Workflow

open Ordered Python Persistence

/-- Where the loop of the scheduler stands. -/
inductive LoopState
  | polling
  /-- It has seen an idle worker and a queue that is not empty. -/
  | ready
  /-- It has dequeued the task and not submitted it to the pool yet. -/
  | holding (s : Submission)

/-- Where the loop of a worker stands. -/
inductive WorkerPhase
  | idle
  /-- Taken from the pool's queue; the worker's state is still IDLE. -/
  | picked (s : Submission)
  /-- The worker's state is RUNNING, the task has not been started. -/
  | noted (s : Submission)
  | executing (s : Submission)

namespace WorkerPhase

/-- `worker.state == WorkerState.IDLE` -/
def isIdle : WorkerPhase → Bool
  | .idle => true
  | .picked _ => true
  | _ => false

/-- The task the worker has taken and not started. -/
def waiting : WorkerPhase → Option Submission
  | .picked s => some s
  | .noted s => some s
  | _ => none

end WorkerPhase

/-- The persisted rows and every place of a task that was accepted. The queue is
the storage of the task queue; the scheduling policy decides which of its tasks
is dequeued. -/
structure System where
  rows : Store
  queue : Dict String Submission := .empty
  loop : LoopState := .polling
  pool : List Submission := []
  workers : Dict String WorkerPhase

inductive Action
  | start (env : Env) (uuid : Uuid) (definition : WorkflowDefinition) (inputs : Attrs)
  | operate (env : Env) (instanceId : String) (op : Operation)
  | poll
  | dequeue (taskId : String)
  | submit
  | pick (worker : String)
  | note (worker : String)
  | execute (worker : String)
  | finish (worker : String)

namespace System

/-- A started pool and a scheduler that has nothing to do. -/
def initial (rows : Store) (workerIds : List String) : System where
  rows
  workers := .fromKeys workerIds .idle

def enqueueAll (queue : Dict String Submission) (submitted : List Submission) :
    Dict String Submission :=
  submitted.foldl (fun queue s => queue.set s.task.id s) queue

/-- What an operation of the orchestrator does to the rows and the queue. -/
def absorb (sys : System) (out : Outcome Unit) : System :=
  { sys with
    rows := out.store
    queue := enqueueAll (out.queueCancels.foldl Dict.erase sys.queue) out.submitted }

/-- One step, and the tasks that start executing in it. A uuid that names a row
is never drawn again. -/
def step (sys : System) : Action → System × List Submission
  | .start env uuid definition inputs =>
      if sys.rows.rows.contains uuid.val then (sys, [])
      else (sys.absorb ((DispatchCall.start uuid definition inputs).perform env sys.rows), [])
  | .operate env instanceId op => (sys.absorb (op.perform instanceId env sys.rows), [])
  | .poll =>
      match sys.loop with
      | .polling =>
        if (sys.workers.entries.any fun e => e.2.isIdle) ∧ sys.queue.entries ≠ [] then
          ({ sys with loop := .ready }, [])
        else (sys, [])
      | _ => (sys, [])
  | .dequeue taskId =>
      match sys.loop with
      | .ready =>
        match sys.queue.get? taskId with
        | some s => ({ sys with loop := .holding s, queue := sys.queue.erase taskId }, [])
        | none => ({ sys with loop := .polling }, [])
      | _ => (sys, [])
  | .submit =>
      match sys.loop with
      | .holding s => ({ sys with loop := .polling, pool := sys.pool ++ [s] }, [])
      | _ => (sys, [])
  | .pick worker =>
      match sys.workers.get? worker, sys.pool with
      | some .idle, s :: rest =>
        ({ sys with pool := rest, workers := sys.workers.set worker (.picked s) }, [])
      | _, _ => (sys, [])
  | .note worker =>
      match sys.workers.get? worker with
      | some (.picked s) => ({ sys with workers := sys.workers.set worker (.noted s) }, [])
      | _ => (sys, [])
  | .execute worker =>
      match sys.workers.get? worker with
      | some (.noted s) => ({ sys with workers := sys.workers.set worker (.executing s) }, [s])
      | _ => (sys, [])
  | .finish worker =>
      match sys.workers.get? worker with
      | some (.executing _) => ({ sys with workers := sys.workers.set worker .idle }, [])
      | _ => (sys, [])

/-- The state after the actions, and the tasks that have started in them. -/
def run (sys : System) (actions : List Action) : System × List Submission :=
  Machine.exec step actions (sys, [])

/-- Dequeued and not started: in the hands of the loop, in the pool's queue, or
taken by a worker. -/
def Underway (sys : System) (s : Submission) : Prop :=
  sys.loop = .holding s ∨ s ∈ sys.pool ∨
    ∃ worker phase, sys.workers.get? worker = some phase ∧ phase.waiting = some s

/-- Nothing that may follow starts a task of the instance. -/
def QuietFor (sys : System) (id : String) : Prop :=
  ∀ actions, ∀ s ∈ (sys.run actions).2, s.instanceId ≠ id

end System

/-- Cancelling the instance now would cancel this node. -/
def CancellableAt (rows : Store) (id n : String) : Prop :=
  ∃ inst state, loadInstance rows id = .ok inst ∧
    (inst.status = .running ∨ inst.status = .paused) ∧ inst.nodeStates.get? n = some state ∧
    state.isCancellable = true

/-- All tasks of the instance that have not started are in the task queue, for
nodes that cancelling cancels. -/
structure System.Covered (sys : System) (id : String) : Prop where
  underway : ∀ s, sys.Underway s → s.instanceId ≠ id
  queue : ∀ key s, sys.queue.get? key = some s → s.instanceId = id →
    CancellableAt sys.rows id s.nodeId

section Queue

theorem get?_enqueueAll {queue : Dict String Submission} {submitted : List Submission}
    {key : String} {s : Submission}
    (h : (System.enqueueAll queue submitted).get? key = some s) :
    (s ∈ submitted ∧ key = s.task.id) ∨ queue.get? key = some s := by
  induction submitted generalizing queue with
  | nil => exact Or.inr h
  | cons t rest ih =>
    change (System.enqueueAll (queue.set t.task.id t) rest).get? key = some s at h
    rcases ih h with ⟨hs, hkey⟩ | hset
    · exact Or.inl ⟨List.mem_cons_of_mem _ hs, hkey⟩
    · rw [Dict.get?_set] at hset
      split at hset
      · rename_i hid
        cases hset
        exact Or.inl ⟨by simp, hid.symm⟩
      · exact Or.inr hset

theorem get?_absorb {sys : System} {out : Outcome Unit} {key : String} {s : Submission}
    (h : (sys.absorb out).queue.get? key = some s) :
    (s ∈ out.submitted ∧ key = s.task.id) ∨
      (key ∉ out.queueCancels ∧ sys.queue.get? key = some s) := by
  rcases get?_enqueueAll h with hsub | hkept
  · exact Or.inl hsub
  · rw [Dict.get?_foldl_erase] at hkept
    split at hkept
    · contradiction
    · rename_i hkey
      exact Or.inr ⟨hkey, hkept⟩

theorem underway_absorb (sys : System) (out : Outcome Unit) (s : Submission) :
    (sys.absorb out).Underway s ↔ sys.Underway s := Iff.rfl

end Queue

section Submissions

/-- A loop submits tasks under the composite key of instance and node. -/
theorem dispatchLoop_taskId {env : Env} {deps : Dict String (List String)} (ns : List String)
    (inst : WorkflowInstance) :
    ∀ s ∈ (dispatchLoop env deps ns inst).1, s.task.id = s.instanceId ++ "_" ++ s.nodeId := by
  refine dispatchLoop_rule (P := fun _ _ out => ∀ s ∈ out.1,
    s.task.id = s.instanceId ++ "_" ++ s.nodeId) ?_ ?_ ?_ ?_ ns inst
  · simp
  · simp
  · intro n rest inst out h
    exact h
  · intro n rest inst node submitted result _ _ ih s hs
    rcases List.mem_cons.mp hs with rfl | hs
    · rfl
    · exact ih s hs

/-- What a call submits is what a pass submits. -/
def FromPass (env : Env) (submitted : List Submission) : Prop :=
  submitted = [] ∨ ∃ store inst, submitted = (dispatchEligibleNodes env store inst).submitted

variable {env : Env} {store : Store}

theorem FromPass.taskId {submitted : List Submission} (h : FromPass env submitted) :
    ∀ s ∈ submitted, s.task.id = s.instanceId ++ "_" ++ s.nodeId := by
  rcases h with rfl | ⟨store, inst, rfl⟩
  · simp
  · rcases dispatch_submitted inst with hnone | ⟨deps, hloop⟩
    · rw [hnone]
      simp
    · rw [hloop]
      exact dispatchLoop_taskId _ inst

theorem EndsInPass.fromPass {out : Outcome Unit} (h : EndsInPass env store out) :
    FromPass env out.submitted := by
  cases h with
  | idle hnone => exact Or.inl hnone
  | saved store' inst _ hout =>
    rw [hout]
    exact Or.inr ⟨store', inst, rfl⟩
  | replayed _ _ replayed _ _ hout =>
    rw [hout]
    exact Or.inr ⟨store, replayed, rfl⟩

/-- A start under another id. -/
theorem startWorkflow_frame {uuid : Uuid} {d : WorkflowDefinition} {inputs : Attrs} {id : String}
    (hne : uuid.val ≠ id) :
    Untouched id store ((DispatchCall.start uuid d inputs).perform env store) := by
  rw [DispatchCall.perform, startWorkflow]
  split
  · exact untouched_of_same rfl rfl
  · dsimp only
    split
    · exact untouched_of_same rfl rfl
    · rename_i store' hstore
      exact untouched_dispatch hne (checkpoint_frame hstore id (Ne.symm hne))

end Submissions

section Moves

/-- What a step can do, and the tasks that start executing in it. -/
inductive Move (sys : System) : System → List Submission → Prop
  | stay : Move sys sys []
  | start (env : Env) (uuid : Uuid) (d : WorkflowDefinition) (inputs : Attrs)
      (hfresh : sys.rows.rows.get? uuid.val = none) :
      Move sys (sys.absorb ((DispatchCall.start uuid d inputs).perform env sys.rows)) []
  | operate (env : Env) (id : String) (op : Operation) :
      Move sys (sys.absorb (op.perform id env sys.rows)) []
  | look (loop : LoopState) (hold : ∀ s, sys.loop ≠ .holding s)
      (hnew : ∀ s, loop ≠ .holding s) : Move sys { sys with loop } []
  | dequeue (key : String) (s : Submission) (hloop : sys.loop = .ready)
      (hkey : sys.queue.get? key = some s) :
      Move sys { sys with loop := .holding s, queue := sys.queue.erase key } []
  | submit (s : Submission) (hloop : sys.loop = .holding s) :
      Move sys { sys with loop := .polling, pool := sys.pool ++ [s] } []
  | pick (w : String) (s : Submission) (rest : List Submission)
      (hworker : sys.workers.get? w = some .idle) (hpool : sys.pool = s :: rest) :
      Move sys { sys with pool := rest, workers := sys.workers.set w (.picked s) } []
  | note (w : String) (s : Submission) (hworker : sys.workers.get? w = some (.picked s)) :
      Move sys { sys with workers := sys.workers.set w (.noted s) } []
  | execute (w : String) (s : Submission) (hworker : sys.workers.get? w = some (.noted s)) :
      Move sys { sys with workers := sys.workers.set w (.executing s) } [s]
  | finish (w : String) (s : Submission)
      (hworker : sys.workers.get? w = some (.executing s)) :
      Move sys { sys with workers := sys.workers.set w .idle } []

/-- Every step is such a move. -/
theorem System.step_move (sys : System) (a : Action) :
    Move sys (sys.step a).1 (sys.step a).2 := by
  cases a with
  | start env uuid d inputs =>
    dsimp only [System.step]
    split
    · exact Move.stay
    · rename_i hfresh
      refine Move.start env uuid d inputs ?_
      rw [Dict.get?_eq_none_iff, ← Dict.contains_iff]
      exact hfresh
  | operate env id op => exact Move.operate env id op
  | poll =>
    dsimp only [System.step]
    split
    · rename_i hloop
      split
      · exact Move.look .ready (by simp [hloop]) (by simp)
      · exact Move.stay
    · exact Move.stay
  | dequeue taskId =>
    dsimp only [System.step]
    split
    · rename_i hloop
      split
      · rename_i s hkey
        exact Move.dequeue taskId s hloop hkey
      · exact Move.look .polling (by simp [hloop]) (by simp)
    · exact Move.stay
  | submit =>
    dsimp only [System.step]
    split
    · rename_i s hloop
      exact Move.submit s hloop
    · exact Move.stay
  | pick w =>
    dsimp only [System.step]
    split
    · rename_i s rest hworker hpool
      exact Move.pick w s rest hworker hpool
    · exact Move.stay
  | note w =>
    dsimp only [System.step]
    split
    · rename_i s hworker
      exact Move.note w s hworker
    · exact Move.stay
  | execute w =>
    dsimp only [System.step]
    split
    · rename_i s hworker
      exact Move.execute w s hworker
    · exact Move.stay
  | finish w =>
    dsimp only [System.step]
    split
    · rename_i s hworker
      exact Move.finish w s hworker
    · exact Move.stay

/-- The invariant rule of the system. -/
theorem run_invariant {I : System → Prop}
    (hstep : ∀ sys sys' out, Move sys sys' out → I sys → I sys') {sys : System} (h : I sys)
    (actions : List Action) : I (sys.run actions).1 := by
  have hinv : ∀ c : System × List Submission, I c.1 →
      I (Machine.exec System.step actions c).1 := by
    intro c hc
    exact Machine.exec_preserves (fun c => I c.1)
      (fun c a hc => hstep _ _ _ (c.1.step_move a) hc) hc actions
  exact hinv (sys, []) h

end Moves

/-- Every queued task lies under its composite key. -/
def System.Filed (sys : System) : Prop :=
  ∀ key s, sys.queue.get? key = some s → key = s.instanceId ++ "_" ++ s.nodeId

/-- The instance is terminal and none of its tasks is left to start. -/
structure System.Silent (sys : System) (inst : WorkflowInstance) : Prop where
  row : sys.rows.Holds inst
  final : inst.status.isFinal = true
  queue : ∀ key s, sys.queue.get? key = some s → s.instanceId ≠ inst.instanceId
  underway : ∀ s, sys.Underway s → s.instanceId ≠ inst.instanceId

section Invariants

variable {sys sys' : System} {inst : WorkflowInstance} {out : List Submission}

theorem filed_initial (rows : Store) (workerIds : List String) :
    (System.initial rows workerIds).Filed := by
  intro key s hs
  contradiction

theorem filed_absorb {env : Env} {out : Outcome Unit} (h : sys.Filed)
    (hpass : FromPass env out.submitted) : (sys.absorb out).Filed := by
  intro key s hs
  rcases get?_absorb hs with ⟨hsub, rfl⟩ | ⟨_, hkept⟩
  · exact hpass.taskId s hsub
  · exact h key s hkept

theorem Move.filed (hmove : Move sys sys' out) (h : sys.Filed) : sys'.Filed := by
  cases hmove with
  | start env uuid d inputs _ => exact filed_absorb h (start_endsInPass uuid d inputs).fromPass
  | operate env id op => exact filed_absorb h (operate_endsInPass op id).fromPass
  | dequeue key s _ _ =>
    intro key' s' hs
    dsimp only at hs
    rw [Dict.get?_erase] at hs
    split at hs
    · contradiction
    · exact h key' s' hs
  | stay | look | submit | pick | note | execute | finish => exact h

theorem filed_run (h : sys.Filed) (actions : List Action) : (sys.run actions).1.Filed :=
  run_invariant (fun _ _ _ hmove hfiled => hmove.filed hfiled) h actions

theorem silent_absorb (h : sys.Silent inst) {out : Outcome Unit}
    (hout : Untouched inst.instanceId sys.rows out) : (sys.absorb out).Silent inst where
  row := hout.row.trans h.row
  final := h.final
  queue key s hs := by
    rcases get?_absorb hs with ⟨hsub, _⟩ | ⟨_, hkept⟩
    · exact hout.submitted s hsub
    · exact h.queue key s hkept
  underway s hs := h.underway s ((underway_absorb sys out s).mp hs)

/-- Replacing what one worker does: a waiting task is the new one or an old one. -/
theorem underway_set {w : String} {phase : WorkerPhase} {pool : List Submission} {s : Submission}
    (hpool : ∀ t ∈ pool, t ∈ sys.pool)
    (hs : ({ sys with pool, workers := sys.workers.set w phase } : System).Underway s) :
    phase.waiting = some s ∨ sys.Underway s := by
  rcases hs with hloop | hmem | ⟨w', phase', hworker, hwaiting⟩
  · exact Or.inr (Or.inl hloop)
  · exact Or.inr (Or.inr (Or.inl (hpool s hmem)))
  · dsimp only at hworker
    rw [Dict.get?_set] at hworker
    split at hworker
    · cases hworker
      exact Or.inl hwaiting
    · exact Or.inr (Or.inr (Or.inr ⟨w', phase', hworker, hwaiting⟩))

/-- A task that a step puts underway was underway or in the queue. -/
theorem Move.underway (hmove : Move sys sys' out) {s : Submission}
    (hs : sys'.Underway s) : sys.Underway s ∨ ∃ key, sys.queue.get? key = some s := by
  cases hmove with
  | stay | start | operate => exact Or.inl hs
  | look loop _ hnew =>
    rcases hs with hloop | hrest
    · exact absurd hloop (hnew s)
    · exact Or.inl (Or.inr hrest)
  | dequeue key t _ hkey =>
    rcases hs with hloop | hrest
    · cases hloop
      exact Or.inr ⟨key, hkey⟩
    · exact Or.inl (Or.inr hrest)
  | submit t hloop =>
    rcases hs with hpolling | hmem | hworker
    · cases hpolling
    · rcases List.mem_append.mp hmem with hmem | hmem
      · exact Or.inl (Or.inr (Or.inl hmem))
      · rw [List.mem_singleton.mp hmem]
        exact Or.inl (Or.inl hloop)
    · exact Or.inl (Or.inr (Or.inr hworker))
  | pick w t rest _ hpool =>
    rcases underway_set (fun u hu => by rw [hpool]; exact List.mem_cons_of_mem _ hu) hs with
      hnew | hold
    · cases hnew
      exact Or.inl (Or.inr (Or.inl (by rw [hpool]; simp)))
    · exact Or.inl hold
  | note w t hworker =>
    rcases underway_set (fun _ hu => hu) hs with hnew | hold
    · cases hnew
      exact Or.inl (Or.inr (Or.inr ⟨w, _, hworker, rfl⟩))
    · exact Or.inl hold
  | execute w t _ =>
    rcases underway_set (fun _ hu => hu) hs with hnew | hold
    · cases hnew
    · exact Or.inl hold
  | finish w t _ =>
    rcases underway_set (fun _ hu => hu) hs with hnew | hold
    · cases hnew
    · exact Or.inl hold

/-- Only a task that is underway starts. -/
theorem Move.started (hmove : Move sys sys' out) : ∀ s ∈ out, sys.Underway s := by
  cases hmove with
  | execute w t hworker =>
    intro s hs
    rw [List.mem_singleton.mp hs]
    exact Or.inr (Or.inr ⟨w, .noted t, hworker, rfl⟩)
  | stay | start | operate | look | dequeue | submit | pick | note | finish => simp

theorem Move.silent (hmove : Move sys sys' out) (h : sys.Silent inst) :
    sys'.Silent inst := by
  have hunderway : ∀ s, sys'.Underway s → s.instanceId ≠ inst.instanceId := by
    intro s hs
    rcases hmove.underway hs with hold | ⟨key, hkey⟩
    · exact h.underway s hold
    · exact h.queue key s hkey
  cases hmove with
  | start env uuid d inputs hfresh =>
    apply silent_absorb h
    apply startWorkflow_frame
    rintro hid
    rw [hid, h.row] at hfresh
    contradiction
  | operate env id op => exact silent_absorb h (perform_final h.row h.final id op)
  | dequeue key t _ _ =>
    refine ⟨h.row, h.final, ?_, hunderway⟩
    intro key' s hs
    dsimp only at hs
    rw [Dict.get?_erase] at hs
    split at hs
    · contradiction
    · exact h.queue key' s hs
  | stay | look | submit | pick | note | execute | finish =>
    exact ⟨h.row, h.final, h.queue, hunderway⟩

/-- A silent system is quiet for its instance, whatever follows. -/
theorem System.Silent.quiet (h : sys.Silent inst) : sys.QuietFor inst.instanceId := by
  intro actions
  induction actions generalizing sys with
  | nil => simp [System.run]
  | cons a rest ih =>
    have hmove := sys.step_move a
    intro s hs
    rw [System.run, Machine.exec_cons, Machine.exec_outputs] at hs
    rcases List.mem_append.mp hs with hnow | hlater
    · exact h.underway s (hmove.started s (by simpa [Machine.advance] using hnow))
    · exact ih (hmove.silent h) s hlater

end Invariants

section Starting

variable {sys : System} {s : Submission} {w : String}

/-- Some continuation starts the task. -/
def System.Starts (sys : System) (s : Submission) : Prop :=
  ∃ actions, s ∈ (sys.run actions).2

theorem starts_of_step (a : Action) (h : (sys.step a).1.Starts s) : sys.Starts s := by
  obtain ⟨actions, hs⟩ := h
  refine ⟨a :: actions, ?_⟩
  rw [System.run, Machine.exec_cons, Machine.exec_outputs]
  exact List.mem_append_right _ hs

theorem starts_of_noted (hworker : sys.workers.get? w = some (.noted s)) : sys.Starts s := by
  refine ⟨[.execute w], ?_⟩
  simp [System.run, Machine.advance, System.step, hworker]

theorem starts_of_picked (hworker : sys.workers.get? w = some (.picked s)) : sys.Starts s := by
  apply starts_of_step (.note w)
  apply starts_of_noted (w := w)
  simp [System.step, hworker]

/-- A worker is through with its task in at most three steps. -/
theorem starts_of_freed {phase : WorkerPhase} (hworker : sys.workers.get? w = some phase)
    (h : ∀ sys' : System, sys'.workers.get? w = some .idle → sys'.queue = sys.queue →
      sys'.loop = sys.loop → sys'.pool = sys.pool → sys'.Starts s) : sys.Starts s := by
  have hexecuting : ∀ (sys' : System) (t : Submission),
      sys'.workers.get? w = some (.executing t) → sys'.queue = sys.queue →
      sys'.loop = sys.loop → sys'.pool = sys.pool → sys'.Starts s := by
    intro sys' t hworker' hqueue hloop hpool
    apply starts_of_step (.finish w)
    apply h
    all_goals simp [System.step, hworker', hqueue, hloop, hpool]
  have hnoted : ∀ (sys' : System) (t : Submission),
      sys'.workers.get? w = some (.noted t) → sys'.queue = sys.queue →
      sys'.loop = sys.loop → sys'.pool = sys.pool → sys'.Starts s := by
    intro sys' t hworker' hqueue hloop hpool
    apply starts_of_step (.execute w)
    apply hexecuting _ t
    all_goals simp [System.step, hworker', hqueue, hloop, hpool]
  cases phase with
  | idle => exact h sys hworker rfl rfl rfl
  | picked t =>
    apply starts_of_step (.note w)
    apply hnoted _ t
    all_goals simp [System.step, hworker]
  | noted t => exact hnoted sys t hworker rfl rfl rfl
  | executing t => exact hexecuting sys t hworker rfl rfl rfl

/-- One worker empties the pool's queue. -/
theorem starts_of_pool {phase : WorkerPhase} (hworker : sys.workers.get? w = some phase)
    (hs : s ∈ sys.pool) : sys.Starts s := by
  generalize hpool : sys.pool = pool at hs
  induction pool generalizing sys phase with
  | nil => contradiction
  | cons t rest ih =>
    apply starts_of_freed hworker
    intro sys' hidle _ _ hsame
    have hpool' : sys'.pool = t :: rest := hsame.trans hpool
    rcases List.mem_cons.mp hs with rfl | hrest
    · apply starts_of_step (.pick w)
      apply starts_of_picked (w := w)
      simp [System.step, hidle, hpool']
    · apply starts_of_step (.pick w)
      have hbusy : (sys'.step (.pick w)).1.workers.get? w = some (.picked t) := by
        simp [System.step, hidle, hpool']
      refine ih hbusy ?_ hrest
      simp [System.step, hidle, hpool']

theorem starts_of_holding {phase : WorkerPhase} (hworker : sys.workers.get? w = some phase)
    (hloop : sys.loop = .holding s) : sys.Starts s := by
  apply starts_of_step .submit
  have hstill : (sys.step .submit).1.workers.get? w = some phase := by
    simpa [System.step, hloop] using hworker
  apply starts_of_pool hstill
  simp [System.step, hloop]

theorem starts_of_underway {phase : WorkerPhase} (hworker : sys.workers.get? w = some phase)
    (hs : sys.Underway s) : sys.Starts s := by
  rcases hs with hloop | hpool | ⟨w', phase', hworker', hwaiting⟩
  · exact starts_of_holding hworker hloop
  · exact starts_of_pool hworker hpool
  · cases phase' with
    | idle => cases hwaiting
    | picked t =>
      cases hwaiting
      exact starts_of_picked hworker'
    | noted t =>
      cases hwaiting
      exact starts_of_noted hworker'
    | executing t => cases hwaiting

/-- The loop comes to dequeue any task of the queue. -/
theorem starts_of_queued {phase : WorkerPhase} {key : String}
    (hworker : sys.workers.get? w = some phase) (hkey : sys.queue.get? key = some s) :
    sys.Starts s := by
  have hready : ∀ (sys' : System) (phase' : WorkerPhase),
      sys'.workers.get? w = some phase' → sys'.queue.get? key = some s →
      sys'.loop = .ready → sys'.Starts s := by
    intro sys' phase' hworker' hkey' hloop
    apply starts_of_step (.dequeue key)
    have hstill : (sys'.step (.dequeue key)).1.workers.get? w = some phase' := by
      simpa [System.step, hloop, hkey'] using hworker'
    apply starts_of_holding hstill
    simp [System.step, hloop, hkey']
  have hpolling : ∀ (sys' : System) (phase' : WorkerPhase),
      sys'.workers.get? w = some phase' → sys'.queue.get? key = some s →
      sys'.loop = .polling → sys'.Starts s := by
    intro sys' phase' hworker' hkey' hloop
    apply starts_of_freed hworker'
    intro freed hidle hqueue hsame _
    have hloop' : freed.loop = .polling := hsame.trans hloop
    have hany : (freed.workers.entries.any fun e => e.2.isIdle) = true :=
      List.any_eq_true.mpr ⟨(w, .idle), (Dict.mem_entries_iff _ _ _).mpr hidle, rfl⟩
    have hkept : freed.queue.get? key = some s := by
      rw [hqueue]
      exact hkey'
    have hsome : freed.queue.entries ≠ [] :=
      List.ne_nil_of_mem ((Dict.mem_entries_iff _ _ _).mpr hkept)
    apply starts_of_step .poll
    apply hready _ .idle
    all_goals simp [System.step, hloop', hany, hsome, hidle, hkept]
  cases hloop : sys.loop with
  | polling => exact hpolling sys phase hworker hkey hloop
  | ready => exact hready sys phase hworker hkey hloop
  | holding t =>
    apply starts_of_step .submit
    apply hpolling _ phase
    all_goals simp [System.step, hloop, hworker, hkey]

end Starting

/-- The pool has a worker. -/
def System.Staffed (sys : System) : Prop := ∃ w phase, sys.workers.get? w = some phase

section Workers

variable {sys sys' : System}

theorem staffed_initial (rows : Store) {workerIds : List String} (h : workerIds ≠ []) :
    (System.initial rows workerIds).Staffed := by
  obtain ⟨w, hw⟩ := List.exists_mem_of_ne_nil _ h
  refine ⟨w, .idle, ?_⟩
  rw [System.initial, Dict.fromKeys, Dict.ofList, Dict.get?_setAll_const]
  simp [hw]

theorem staffed_set {w : String} {phase : WorkerPhase} (pool : List Submission) :
    ({ sys with pool, workers := sys.workers.set w phase } : System).Staffed :=
  ⟨w, phase, by simp⟩

theorem Move.staffed {out : List Submission} (hmove : Move sys sys' out) (h : sys.Staffed) :
    sys'.Staffed := by
  cases hmove with
  | stay | start | operate | look | dequeue | submit => exact h
  | pick w s rest _ _ => exact staffed_set rest
  | note | execute | finish => exact staffed_set sys.pool

theorem staffed_run (h : sys.Staffed) (actions : List Action) : (sys.run actions).1.Staffed :=
  run_invariant (fun _ _ _ hmove hstaffed => hmove.staffed hstaffed) h actions

end Workers

section Cancelling

variable {env : Env} {id : String} {inst' : WorkflowInstance}

/-- What `cancel_workflow` has done when it returns an instance. -/
theorem cancelWorkflow_cases {store : Store}
    (h : (cancelWorkflow env store id).result = .ok inst') :
    ∃ inst, loadInstance store id = .ok inst ∧
      (((inst.status = .running ∨ inst.status = .paused) ∧ inst' = cancelNodes env.now inst ∧
          (cancelWorkflow env store id).store.Holds inst' ∧
          (cancelWorkflow env store id).queueCancels =
            (inst.nodeStates.entries.filter fun e => e.2.isCancellable).map
              fun e => id ++ "_" ++ e.1) ∨
        (¬ (inst.status = .running ∨ inst.status = .paused) ∧ inst' = inst ∧
          cancelWorkflow env store id = { store, result := .ok inst })) := by
  cases hload : loadInstance store id with
  | error err => simp [cancelWorkflow, hload] at h
  | ok inst =>
    refine ⟨inst, rfl, ?_⟩
    obtain ⟨hholds, rfl⟩ := (loadInstance_eq_ok_iff _ _ _).mp hload
    by_cases hopen : inst.status = .running ∨ inst.status = .paused
    · left
      obtain ⟨hsaved, _⟩ := cancelWorkflow_open env store hholds hopen
      cases hstore : checkpointWorkflow store (cancelNodes env.now inst) with
      | error err => simp [cancelWorkflow, hload, hopen, hstore] at h
      | ok store' =>
        have hresult : cancelNodes env.now inst = inst' := by
          simpa [cancelWorkflow, hload, hopen, hstore] using h
        rw [← hresult]
        refine ⟨hopen, rfl, hsaved, ?_⟩
        simp [cancelWorkflow, hload, hopen, hstore]
    · right
      have hsame : cancelWorkflow env store inst.instanceId = { store, result := .ok inst } := by
        simp [cancelWorkflow, hload, hopen]
      rw [hsame] at h
      cases h
      exact ⟨hopen, rfl, hsame⟩

/-- The key of a node is removed exactly if cancelling cancels the node. -/
theorem mem_queueCancels_iff {store : Store} {n : String}
    (h : (cancelWorkflow env store id).result = .ok inst') :
    id ++ "_" ++ n ∈ (cancelWorkflow env store id).queueCancels ↔ CancellableAt store id n := by
  obtain ⟨inst, hload, ⟨hopen, _, _, hcancels⟩ | ⟨hclosed, _, hsame⟩⟩ := cancelWorkflow_cases h
  · rw [hcancels]
    constructor
    · intro hmem
      obtain ⟨⟨m, state⟩, hentry, hkey⟩ := List.mem_map.mp hmem
      obtain ⟨hentry, hstate⟩ := List.mem_filter.mp hentry
      have hname : m = n := (String.append_right_inj _).mp hkey
      subst hname
      exact ⟨inst, state, hload, hopen, (Dict.mem_entries_iff _ _ _).mp hentry, hstate⟩
    · rintro ⟨inst₂, state, hload₂, _, hstate, hcancellable⟩
      rw [hload] at hload₂
      cases hload₂
      refine List.mem_map.mpr ⟨(n, state), ?_, rfl⟩
      exact List.mem_filter.mpr ⟨(Dict.mem_entries_iff _ _ _).mpr hstate, hcancellable⟩
  · rw [hsame]
    constructor
    · intro hmem
      cases hmem
    · rintro ⟨inst₂, _, hload₂, hopen, _⟩
      rw [hload] at hload₂
      cases hload₂
      exact absurd hopen hclosed

variable {sys : System}

/-- What cancelling leaves in the queue. -/
theorem get?_cancelled {key : String} :
    (sys.step (.operate env id .cancel)).1.queue.get? key =
      if key ∈ (cancelWorkflow env sys.rows id).queueCancels then none
      else sys.queue.get? key := by
  have hnone : (Operation.cancel.perform id env sys.rows).submitted = [] :=
    cancelWorkflow_submitted env sys.rows id
  dsimp only [System.step, System.absorb]
  rw [hnone]
  exact Dict.get?_foldl_erase _ _ _

theorem System.Covered.silent (hcovered : sys.Covered id) (hfiled : sys.Filed)
    (hresult : (cancelWorkflow env sys.rows id).result = .ok inst')
    (hstatus : inst'.status = .cancelled) :
    (sys.step (.operate env id .cancel)).1.Silent inst' ∧ inst'.instanceId = id := by
  have hrow : (cancelWorkflow env sys.rows id).store.Holds inst' ∧ inst'.instanceId = id := by
    obtain ⟨inst, hload, ⟨_, rfl, hsaved, _⟩ | ⟨_, rfl, hsame⟩⟩ := cancelWorkflow_cases hresult
    · exact ⟨hsaved, ((loadInstance_eq_ok_iff _ _ _).mp hload).2⟩
    · obtain ⟨hholds, hid⟩ := (loadInstance_eq_ok_iff _ _ _).mp hload
      rw [hsame]
      exact ⟨hholds, hid⟩
  obtain ⟨hsaved, hid⟩ := hrow
  refine ⟨⟨hsaved, by rw [hstatus]; rfl, ?_, ?_⟩, hid⟩
  · rintro key s hs hown
    rw [get?_cancelled] at hs
    split at hs
    · contradiction
    · rename_i hkept
      rw [hid] at hown
      have hcancellable := hcovered.queue key s hs hown
      rw [hfiled key s hs, hown, mem_queueCancels_iff hresult] at hkept
      exact hkept hcancellable
  · intro s hs
    rw [hid]
    exact hcovered.underway s hs

/-- A task in another place can still start. -/
theorem covered_of_quiet (hfiled : sys.Filed) (hstaffed : sys.Staffed)
    (hresult : (cancelWorkflow env sys.rows id).result = .ok inst')
    (hquiet : (sys.step (.operate env id .cancel)).1.QuietFor id) : sys.Covered id := by
  obtain ⟨w, phase, hworker⟩ := hstaffed
  have hstill : (sys.step (.operate env id .cancel)).1.workers.get? w = some phase := hworker
  constructor
  · intro s hs hown
    obtain ⟨actions, hstarts⟩ := starts_of_underway hstill (s := s) hs
    exact hquiet actions s hstarts hown
  · intro key s hs hown
    by_contra hkept
    rw [← mem_queueCancels_iff hresult, ← hown, ← hfiled key s hs, hown] at hkept
    have hleft : (sys.step (.operate env id .cancel)).1.queue.get? key = some s := by
      rw [get?_cancelled, if_neg hkept, hs]
    obtain ⟨actions, hstarts⟩ := starts_of_queued hstill hleft
    exact hquiet actions s hstarts hown

end Cancelling

/-- A pool of one worker, the workflow of one node just started, and these
actions. -/
def soloSystem (actions : List Action) : System :=
  ((System.initial .empty ["W-001"]).run
    (.start (.accepting "2026-01-01T00:00:00") sampleId soloDefinition .empty :: actions)).1

/-- Reading a concrete result. -/
theorem exists_cancelled (sys : System) (id : String)
    (h : (cancelWorkflow laterEnv sys.rows id).result.toOption.map WorkflowInstance.status =
      some .cancelled) :
    ∃ inst, (cancelWorkflow laterEnv sys.rows id).result = .ok inst ∧
      inst.status = .cancelled := by
  cases hresult : (cancelWorkflow laterEnv sys.rows id).result with
  | error e => simp [hresult, Except.toOption] at h
  | ok inst => exact ⟨inst, rfl, by simpa [hresult, Except.toOption] using h⟩

theorem soloSystem_covered : (soloSystem []).Covered "i1" where
  underway s hs := by
    have hmove := (System.initial .empty ["W-001"]).step_move
      (.start (.accepting "2026-01-01T00:00:00") sampleId soloDefinition .empty)
    rcases hmove.underway hs with (hloop | hpool | ⟨w, phase, hworker, hwaiting⟩) | ⟨key, hkey⟩
    · cases hloop
    · cases hpool
    · have hidle := Dict.eq_of_get?_fromKeys (by decide) hworker
      rw [hidle] at hwaiting
      cases hwaiting
    · cases hkey
  queue key s hs _ := by
    have hnodes : ∀ e ∈ (soloSystem []).queue.entries, e.2.nodeId = "A" := by decide +kernel
    rw [hnodes (key, s) ((Dict.mem_entries_iff _ _ _).mpr hs)]
    obtain ⟨inst, hload, hview⟩ := exists_loaded (soloSystem []).rows "i1"
      (fun inst => (inst.status, inst.nodeStates.get? "A")) (.running, some .running)
      (by decide +kernel)
    obtain ⟨hstatus, hstate⟩ := Prod.mk.inj hview
    exact ⟨inst, .running, hload, Or.inl hstatus, hstate, rfl⟩

end MollisRuntime.Workflow
