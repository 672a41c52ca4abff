import MollisRuntime.Runtime.Lifecycle

/-!
The tasks of a runtime that is started and stopped any number of times. What the loop
of the scheduler has dequeued is never refused by the pool and reaches the workers in
order, and no task that was accepted is lost.
-/
namespace MollisRuntime.Scheduling

open Ordered Python Persistence

namespace Lifecycle

variable {P : Type} {s : Lifecycle P}

section Traces

def poolNotes (notes : List LifecycleNote) : List PoolNote := notes.filterMap LifecycleNote.asPool

/-- The ids of the tasks that the loops have dequeued. -/
def dequeuedIds (notes : List LifecycleNote) : List String :=
  (notes.filterMap LifecycleNote.asDequeued).map TaskHandle.id

def putIds (notes : List PoolNote) : List String :=
  (notes.filterMap PoolNote.asPut).map Task.id

def inHandIds (s : Lifecycle P) : List String :=
  (s.loops.filterMap LoopPhase.inHand).map TaskHandle.id

/-- What was dequeued has been put into the pool's queue, in this order, or is in the
hand of the loop. -/
structure Traced (c : Lifecycle P × List LifecycleNote) : Prop where
  history : WorkerPool.History (c.1.pool, poolNotes c.2)
  order : dequeuedIds c.2 = putIds (poolNotes c.2) ++ c.1.inHandIds
  refused : c.2.filterMap LifecycleNote.asRefused = []

variable {notes more : List LifecycleNote}

theorem poolNotes_map (poolNotes : List PoolNote) :
    Lifecycle.poolNotes (poolNotes.map .pool) = poolNotes := by
  rw [Lifecycle.poolNotes, List.filterMap_map]
  exact List.filterMap_some ..

theorem poolNotes_append (notes more : List LifecycleNote) :
    poolNotes (notes ++ more) = poolNotes notes ++ poolNotes more := List.filterMap_append

theorem dequeuedIds_append (notes more : List LifecycleNote) :
    dequeuedIds (notes ++ more) = dequeuedIds notes ++ dequeuedIds more := by
  rw [dequeuedIds, List.filterMap_append, List.map_append]
  rfl

theorem putIds_append (notes more : List PoolNote) :
    putIds (notes ++ more) = putIds notes ++ putIds more := by
  rw [putIds, List.filterMap_append, List.map_append]
  rfl

/-- A step of the pool that puts no task. -/
theorem Traced.onPool (h : Traced (s, notes)) (a : PoolAction)
    (hputs : putIds (s.pool.step a).2 = []) (s' : Lifecycle P)
    (hpool : s'.pool = (s.pool.step a).1) (hloops : s'.loops = s.loops) :
    Traced (s', notes ++ (s.pool.step a).2.map .pool) where
  history := by
    rw [poolNotes_append, poolNotes_map, hpool]
    exact h.history.step a
  order := by
    have hnone : dequeuedIds ((s.pool.step a).2.map .pool) = [] := by
      rw [dequeuedIds, List.filterMap_map]
      exact congrArg _ (List.filterMap_none ..)
    rw [dequeuedIds_append, poolNotes_append, poolNotes_map, putIds_append, hputs, hnone,
      List.append_nil, List.append_nil, inHandIds, hloops]
    exact h.order
  refused := by
    rw [List.filterMap_append, h.refused, List.nil_append, List.filterMap_map]
    exact List.filterMap_none ..

/-- A step that neither the pool nor the hand of the loop sees. -/
theorem Traced.quiet (h : Traced (s, notes)) (s' : Lifecycle P) (hpool : s'.pool = s.pool)
    (hhand : s'.inHandIds = s.inHandIds) (hmore : poolNotes more = [])
    (hdequeued : dequeuedIds more = []) (hrefused : more.filterMap LifecycleNote.asRefused = []) :
    Traced (s', notes ++ more) where
  history := by
    rw [poolNotes_append, hmore, List.append_nil, hpool]
    exact h.history
  order := by
    rw [dequeuedIds_append, poolNotes_append, hmore, hdequeued, List.append_nil, List.append_nil,
      hhand]
    exact h.order
  refused := by
    rw [List.filterMap_append, h.refused, hrefused]
    rfl

theorem putIds_turn (pool : WorkerPool) (i : ℕ) (env : TurnEnv) :
    putIds (pool.turn i env).2 = [] := by
  unfold WorkerPool.turn
  split
  · rename_i t _
    rw [putIds, (WorkerPool.accounts_turn t env pool.taskQueue).puts]
    rfl
  · rfl

theorem inHandIds_startScheduler (s : Lifecycle P) :
    s.startScheduler.inHandIds = s.inHandIds := by
  unfold Lifecycle.startScheduler
  split
  · split
    · rfl
    · rw [inHandIds, List.filterMap_append]
      simp [inHandIds, LoopPhase.inHand]
  · rfl

theorem frame_startScheduler (s : Lifecycle P) : s.startScheduler.pool = s.pool := by
  unfold Lifecycle.startScheduler
  split <;> [split; skip] <;> rfl

theorem frame_stop (s : Lifecycle P) : s.stop.pool = s.pool ∧ s.stop.loops = s.loops := by
  unfold Lifecycle.stop
  split <;> [split; skip] <;> exact ⟨rfl, rfl⟩

theorem frame_joinLoop (s : Lifecycle P) (appends : Bool) :
    (s.joinLoop appends).pool = s.pool ∧ (s.joinLoop appends).loops = s.loops := by
  unfold Lifecycle.joinLoop
  split <;> [split; skip] <;> exact ⟨rfl, rfl⟩

theorem frame_finish (s : Lifecycle P) : s.finish.pool = s.pool ∧ s.finish.loops = s.loops := by
  unfold Lifecycle.finish
  split <;> exact ⟨rfl, rfl⟩

theorem inHandIds_congr {s s' : Lifecycle P} (h : s'.loops = s.loops) :
    s'.inHandIds = s.inHandIds := by
  rw [inHandIds, h]
  rfl

/-- What the loop has in hand, before and after its step. -/
theorem Sound.inHandIds_set (h : s.Sound) {i : ℕ} {phase : LoopPhase}
    (hat : s.loops[i]? = some phase) (hlive : phase.isDead = false) {phase' : LoopPhase}
    {s' : Lifecycle P} (hloops : s'.loops = s.loops.set i phase') :
    s.inHandIds = phase.inHand.toList.map TaskHandle.id ∧
      s'.inHandIds = phase'.inHand.toList.map TaskHandle.id := by
  obtain ⟨hbefore, hafter⟩ := h.filterMap_loops hat hlive LoopPhase.inHand rfl phase'
  rw [inHandIds, inHandIds, hloops, hbefore, hafter]
  exact ⟨rfl, rfl⟩

/-- A step of the loop that has nothing in hand. -/
theorem Traced.idle (h : Traced (s, notes)) (hsound : s.Sound) {i : ℕ} {phase phase' : LoopPhase}
    (hat : s.loops[i]? = some phase) (hlive : phase.isDead = false)
    (hbefore : phase.inHand = none) (hafter : phase'.inHand = none) :
    Traced (s.setLoop i phase', notes ++ []) := by
  have hset : (s.setLoop i phase').loops = s.loops.set i phase' := rfl
  obtain ⟨hhand, hhand'⟩ := hsound.inHandIds_set hat hlive hset
  refine h.quiet _ rfl ?_ rfl rfl rfl
  rw [hhand, hhand', hbefore, hafter]

/-- What `dequeue` returns is in the hand of the loop. -/
theorem Traced.asked (h : Traced (s, notes)) (hsound : s.Sound) {i : ℕ}
    (hat : s.loops[i]? = some .dequeuing) (response : Response) {s' : Lifecycle P}
    (hpool : s'.pool = s.pool) (hloops : s'.loops =
      s.loops.set i ((response.handedOut.map LoopPhase.holding).getD .checking)) :
    Traced (s', notes ++ [.asked response]) := by
  obtain ⟨hhand, hhand'⟩ := hsound.inHandIds_set hat rfl hloops
  have hmore : dequeuedIds [.asked response] = response.handedOut.toList.map TaskHandle.id := by
    rw [dequeuedIds, List.filterMap_cons,
      show (LifecycleNote.asked response).asDequeued = response.handedOut from rfl]
    cases response.handedOut <;> rfl
  have hquiet : poolNotes (notes ++ [.asked response]) = poolNotes notes := by
    rw [poolNotes_append]
    exact List.append_nil _
  constructor
  · rw [hquiet, hpool]
    exact h.history
  · have horder : dequeuedIds notes = putIds (poolNotes notes) ++ s.inHandIds := h.order
    rw [hhand] at horder
    rw [dequeuedIds_append, hquiet, hmore, hhand', horder]
    cases response.handedOut <;> simp [LoopPhase.inHand]
  · rw [List.filterMap_append, h.refused]
    rfl

/-- The task stays in the hand of the loop until it is put. -/
theorem Traced.passes (h : Traced (s, notes)) (hsound : s.Sound) {i : ℕ}
    {phase phase' : LoopPhase} (hat : s.loops[i]? = some phase) (hlive : phase.isDead = false)
    (a : PoolAction) {s' : Lifecycle P} (hpool : s'.pool = (s.pool.step a).1)
    (hloops : s'.loops = s.loops.set i phase')
    (hputs : phase.inHand.toList.map TaskHandle.id =
      putIds (s.pool.step a).2 ++ phase'.inHand.toList.map TaskHandle.id) :
    Traced (s', notes ++ (s.pool.step a).2.map .pool) := by
  obtain ⟨hhand, hhand'⟩ := hsound.inHandIds_set hat hlive hloops
  constructor
  · rw [poolNotes_append, poolNotes_map, hpool]
    exact h.history.step a
  · have hnone : dequeuedIds ((s.pool.step a).2.map .pool) = [] := by
      rw [dequeuedIds, List.filterMap_map]
      exact congrArg _ (List.filterMap_none ..)
    have horder := h.order
    rw [hhand, hputs] at horder
    rw [dequeuedIds_append, poolNotes_append, poolNotes_map, putIds_append, hnone, hhand',
      List.append_nil, List.append_assoc]
    exact horder
  · rw [List.filterMap_append, h.refused, List.nil_append, List.filterMap_map]
    exact List.filterMap_none ..

variable [SchedulingPolicy P]

theorem Traced.loopTurn (h : Traced (s, notes)) (hsound : s.Sound) (i : ℕ) (env : QueueEnv)
    (object : TaskHandle → Task) : Traced ((s.loopTurn i env object).1,
      notes ++ (s.loopTurn i env object).2) := by
  unfold Lifecycle.loopTurn
  split
  · exact h.quiet s rfl rfl rfl rfl rfl
  · exact h.quiet s rfl rfl rfl rfl rfl
  · rename_i hat
    exact h.idle hsound hat rfl rfl (by split <;> rfl)
  · rename_i hat
    exact h.idle hsound hat rfl rfl (by split <;> rfl)
  · rename_i hat
    exact h.idle hsound hat rfl rfl (by split <;> rfl)
  · rename_i hat
    exact h.asked hsound hat _ rfl rfl
  · rename_i task hat
    obtain ⟨-, hstarted, -⟩ := hsound.alone i _ hat rfl
    rw [if_pos hstarted]
    exact h.passes hsound hat rfl (.submit (task.task object)) rfl rfl rfl
  · rename_i task hat
    obtain ⟨submitted, hsubmitted, hid⟩ :=
      List.map_eq_singleton_iff.mp (hsound.submitting_eq hat rfl)
    refine h.passes hsound hat rfl (.put 0) rfl rfl ?_
    change [task.id] = putIds (s.pool.put 0).2 ++ []
    rw [WorkerPool.put_first hsubmitted]
    exact congrArg (fun id => [id]) hid.symm

theorem Traced.step (h : Traced (s, notes)) (hsound : s.Sound) (a : LifecycleAction) :
    Traced (Machine.advance Lifecycle.step (s, notes) a) := by
  cases a with
  | start now appends =>
    change Traced ((s.start now appends).1, notes ++ (s.start now appends).2)
    unfold Lifecycle.start
    split
    · exact h.onPool (.start now) rfl _ rfl rfl
    · exact h.quiet s rfl rfl rfl rfl rfl
  | startScheduler =>
    exact h.quiet _ s.frame_startScheduler s.inHandIds_startScheduler rfl rfl rfl
  | stop => exact h.quiet _ s.frame_stop.1 (inHandIds_congr s.frame_stop.2) rfl rfl rfl
  | joinLoop appends =>
    exact h.quiet _ (s.frame_joinLoop appends).1 (inHandIds_congr (s.frame_joinLoop appends).2)
      rfl rfl rfl
  | stopPool =>
    change Traced (s.stopPool.1, notes ++ s.stopPool.2)
    unfold Lifecycle.stopPool
    split
    · exact h.onPool .stop rfl _ rfl rfl
    · exact h.quiet s rfl rfl rfl rfl rfl
  | notify => exact h.onPool .notify rfl _ rfl rfl
  | joinWorker => exact h.onPool .join rfl _ rfl rfl
  | finish => exact h.quiet _ s.frame_finish.1 (inHandIds_congr s.frame_finish.2) rfl rfl rfl
  | supervise workerId now => exact h.onPool (.supervise workerId now) rfl _ rfl rfl
  | worker i env => exact h.onPool (.turn i env) (putIds_turn s.pool i env) _ rfl rfl
  | loop i env object => exact h.loopTurn hsound i env object
  | call env call => exact h.quiet _ rfl rfl rfl rfl rfl

theorem traced_run (maxSize : Option ℤ) (size : ℕ) (actions : List LifecycleAction) :
    Traced (run (P := P) maxSize size actions) := by
  have hkept := Machine.exec_preserves
    (fun c : Lifecycle P × List LifecycleNote => c.1.Sound ∧ Traced c)
    (fun c a h => ⟨h.1.step a, h.2.step h.1 a⟩)
    (c := (create maxSize size, []))
    ⟨sound_create maxSize size, ⟨WorkerPool.history_init size, rfl, rfl⟩⟩ actions
  exact hkept.2

/-- `Runtime.stop` has returned, or nothing was started yet. -/
def AtRest (s : Lifecycle P) : Prop :=
  s.started = false ∧ s.control = .outside ∧ s.pool.AtRest

/-- At every moment one loop lives at most, the pool has refused none of its tasks, and
they were taken by the workers in the order in which they were dequeued. When the runtime
is at rest no thread lives, and what was dequeued has ended or waits in the pool's queue
for the next start. -/
theorem restarts_in_order (maxSize : Option ℤ) (size : ℕ) (actions : List LifecycleAction) :
    let c := run (P := P) maxSize size actions
    let taken := (poolNotes c.2).filterMap PoolNote.asTaken
    let ended := (poolNotes c.2).filterMap PoolNote.asEnded
    (∀ (i j : ℕ) (p q : LoopPhase), c.1.loops[i]? = some p → c.1.loops[j]? = some q →
        p.isDead = false → q.isDead = false → i = j) ∧
      c.2.filterMap LifecycleNote.asRefused = [] ∧
      dequeuedIds c.2 = (taken ++ c.1.pool.taskQueue).map Task.id ++ c.1.inHandIds ∧
      taken.Perm (ended ++ c.1.pool.held) ∧
      (c.1.AtRest → (∀ p ∈ c.1.loops, p.isDead = true) ∧
        (∀ t ∈ c.1.pool.threads, t.phase.isDead = true) ∧
        (dequeuedIds c.2).Perm ((ended ++ c.1.pool.taskQueue).map Task.id)) := by
  intro c taken ended
  have hsound : c.1.Sound := sound_run maxSize size actions
  have htraced : Traced c := traced_run maxSize size actions
  have horder : dequeuedIds c.2 = (taken ++ c.1.pool.taskQueue).map Task.id ++ c.1.inHandIds := by
    rw [htraced.order, putIds, htraced.history.order]
  refine ⟨?_, htraced.refused, horder, htraced.history.ended, ?_⟩
  · intro i j p q hi hj hp hq
    have hlast := (hsound.alone i p hi hp).1
    have hlast' := (hsound.alone j q hj hq).1
    omega
  · rintro ⟨hidle, hcontrol, hrest⟩
    have hdead := hsound.loops_dead (by simp [hidle]) (by simp [hcontrol])
    have hthreads := hsound.pool.atRest hrest
    refine ⟨hdead, hthreads, ?_⟩
    have hended : taken.Perm (ended ++ c.1.pool.held) := htraced.history.ended
    rw [WorkerPool.held_of_dead hthreads, List.append_nil] at hended
    rw [horder, inHandIds, filterMap_dead rfl hdead, List.map_nil, List.append_nil]
    exact (hended.append_right _).map Task.id

end Traces

section Custody

/-- The call on the queue that the step makes. -/
def queueCall (s : Lifecycle P) : LifecycleAction → Option (QueueEnv × QueueCall)
  | .call env call => some (env, call)
  | .loop i env _ =>
    match s.loops[i]? with
    | some .dequeuing => some (env, .dequeue)
    | _ => none
  | _ => none

def responses (notes : List LifecycleNote) : List Response :=
  notes.filterMap LifecycleNote.asResponse

/-- What was handed out was dequeued by the loops or given to others. -/
theorem handedOut_perm (notes : List LifecycleNote) : (handedOutTasks (responses notes)).Perm
    (notes.filterMap LifecycleNote.asDequeued ++ notes.filterMap LifecycleNote.asGiven) := by
  induction notes with
  | nil => exact List.Perm.refl _
  | cons note rest ih =>
    cases note with
    | called response =>
      change (handedOutTasks ([response] ++ responses rest)).Perm (_ ++
        List.filterMap LifecycleNote.asGiven ([.called response] ++ rest))
      rw [handedOutTasks, List.filterMap_append, List.filterMap_append]
      exact (ih.append_left _).trans (List.perm_append_comm_assoc ..)
    | asked response =>
      change (handedOutTasks ([response] ++ responses rest)).Perm
        (List.filterMap LifecycleNote.asDequeued ([.asked response] ++ rest) ++ _)
      rw [handedOutTasks, List.filterMap_append, List.filterMap_append, List.append_assoc]
      exact ih.append_left _
    | refused task => exact ih
    | pool note => exact ih

theorem responses_pool (notes : List PoolNote) : responses (notes.map .pool) = [] := by
  rw [responses, List.filterMap_map]
  exact List.filterMap_none ..

theorem responses_append (notes more : List LifecycleNote) :
    responses (notes ++ more) = responses notes ++ responses more := List.filterMap_append

variable [SchedulingPolicy P]

/-- A step makes one call on the queue, or leaves it alone. -/
theorem step_responses (s : Lifecycle P) (a : LifecycleAction) :
    match s.queueCall a with
    | some b => (s.step a).1.queue = (s.queue.step b).1 ∧
        responses (s.step a).2 = (s.queue.step b).2
    | none => (s.step a).1.queue = s.queue ∧ responses (s.step a).2 = [] := by
  cases a with
  | start now appends =>
    change (s.start now appends).1.queue = s.queue ∧ responses (s.start now appends).2 = []
    unfold Lifecycle.start
    split
    · exact ⟨rfl, responses_pool _⟩
    · exact ⟨rfl, rfl⟩
  | startScheduler =>
    change s.startScheduler.queue = s.queue ∧ [] = []
    unfold Lifecycle.startScheduler
    split <;> [split; skip] <;> exact ⟨rfl, rfl⟩
  | stop =>
    change s.stop.queue = s.queue ∧ [] = []
    unfold Lifecycle.stop
    split <;> [split; skip] <;> exact ⟨rfl, rfl⟩
  | joinLoop appends =>
    change (s.joinLoop appends).queue = s.queue ∧ [] = []
    unfold Lifecycle.joinLoop
    split <;> [split; skip] <;> exact ⟨rfl, rfl⟩
  | stopPool =>
    change s.stopPool.1.queue = s.queue ∧ responses s.stopPool.2 = []
    unfold Lifecycle.stopPool
    split
    · exact ⟨rfl, responses_pool _⟩
    · exact ⟨rfl, rfl⟩
  | finish =>
    change s.finish.queue = s.queue ∧ [] = []
    unfold Lifecycle.finish
    split <;> exact ⟨rfl, rfl⟩
  | notify | joinWorker | supervise | worker => exact ⟨rfl, responses_pool _⟩
  | call env call => exact ⟨rfl, rfl⟩
  | loop i env object =>
    change match (match s.loops[i]? with
        | some .dequeuing => some (env, .dequeue)
        | _ => none) with
      | some b => (s.loopTurn i env object).1.queue = (s.queue.step b).1 ∧
          responses (s.loopTurn i env object).2 = (s.queue.step b).2
      | none => (s.loopTurn i env object).1.queue = s.queue ∧
          responses (s.loopTurn i env object).2 = []
    rw [Lifecycle.loopTurn]
    cases s.loops[i]? with
    | none => exact ⟨rfl, rfl⟩
    | some phase =>
      cases phase with
      | holding task =>
        dsimp only
        split
        · exact ⟨rfl, responses_pool _⟩
        · exact ⟨rfl, rfl⟩
      | putting task => exact ⟨rfl, responses_pool _⟩
      | _ => exact ⟨rfl, rfl⟩

/-- The calls that the step makes on the queue are accounted for. -/
def KeepsAccounts (c : Lifecycle P × List LifecycleNote) (a : LifecycleAction) : Prop :=
  ∀ b, c.1.queueCall a = some b → Accounted c.1.queue b

theorem conserved_step {c : Lifecycle P × List LifecycleNote} (a : LifecycleAction)
    (h : Conserved (c.1.queue, responses c.2)) (haccounts : KeepsAccounts c a) :
    Conserved ((Machine.advance Lifecycle.step c a).1.queue,
      responses (Machine.advance Lifecycle.step c a).2) := by
  have hstep := step_responses c.1 a
  rw [Machine.advance, responses_append]
  split at hstep
  · rename_i b hcall
    rw [hstep.1, hstep.2]
    exact (h.step_iff b).mpr (haccounts b hcall)
  · rw [hstep.1, hstep.2, List.append_nil]
    exact h

/-- Over any number of restarts: as long as the calls on the queue are accounted for, each
task that was accepted is stored in the queue, in the hand of the loop, in the pool's
queue, in the hands of a worker, was given to others, or has ended, each of them once. -/
theorem accepted_through_restarts (maxSize : Option ℤ) (size : ℕ)
    (actions : List LifecycleAction)
    (haccounts : Machine.Along Lifecycle.step KeepsAccounts actions
      (create (P := P) maxSize size, [])) :
    let c := run (P := P) maxSize size actions
    let ended := (poolNotes c.2).filterMap PoolNote.asEnded
    ((acceptedTasks (responses c.2)).map TaskHandle.id).Perm
      (((c.2.filterMap LifecycleNote.asGiven ++ c.1.queue.storage.values).map TaskHandle.id ++
        c.1.inHandIds) ++ (c.1.pool.taskQueue ++ c.1.pool.held ++ ended).map Task.id) := by
  intro c ended
  have hconserved : Conserved (c.1.queue, responses c.2) := by
    refine Machine.exec_invariant
      (fun c : Lifecycle P × List LifecycleNote => Conserved (c.1.queue, responses c.2))
      (fun c a h hkeeps => conserved_step a h hkeeps) ?_ haccounts
    exact ⟨rfl, List.Perm.refl []⟩
  have htraced : Traced c := traced_run maxSize size actions
  have horder : dequeuedIds c.2 = putIds (poolNotes c.2) ++ c.1.inHandIds := htraced.order
  rw [putIds, htraced.history.order] at horder
  have hworkers : ((poolNotes c.2).filterMap PoolNote.asTaken).Perm (ended ++ c.1.pool.held) :=
    htraced.history.ended
  refine List.perm_iff_count.mpr fun id => ?_
  have hcustody := (hconserved.custody.map TaskHandle.id).count_eq id
  have hhanded := ((handedOut_perm c.2).map TaskHandle.id).count_eq id
  have hended := (hworkers.map Task.id).count_eq id
  have hdequeued := congrArg (List.count id) horder
  simp only [dequeuedIds, List.map_append, List.count_append] at hcustody hhanded hended hdequeued ⊢
  omega

/-- A task that the loop had in hand when the runtime was told to stop. -/
theorem accepted_through_restarts_stopped :
    let loop : LifecycleAction := .loop 0 (.plain "t2") fun task => { id := task.id, title := "a" }
    let c := run (P := FIFOPolicy) none 1 [.call (.plain "t0") (.enqueue ⟨0, "a"⟩ .empty),
      .start "t1" true, .startScheduler, loop, loop, loop, loop, .stop]
    let ended := (poolNotes c.2).filterMap PoolNote.asEnded
    ((acceptedTasks (responses c.2)).map TaskHandle.id).Perm
      (((c.2.filterMap LifecycleNote.asGiven ++ c.1.queue.storage.values).map TaskHandle.id ++
        c.1.inHandIds) ++ (c.1.pool.taskQueue ++ c.1.pool.held ++ ended).map Task.id) := by
  intro loop
  refine accepted_through_restarts none 1 _ ⟨?_, ?_, ?_, ?_, ?_, ?_, ?_, ?_, trivial⟩
  · rintro b ⟨⟩
    exact fun _ => ⟨by decide, rfl⟩
  · rintro b ⟨⟩
  · rintro b ⟨⟩
  · rintro b ⟨⟩
  · rintro b ⟨⟩
  · rintro b ⟨⟩
  · intro b hb
    obtain rfl := Option.some.inj
      (show some (QueueEnv.plain "t2", QueueCall.dequeue) = some b from hb)
    exact fun task _ => rfl
  · rintro b ⟨⟩

end Custody

end Lifecycle

end MollisRuntime.Scheduling
