import MollisRuntime.Scheduling.WorkerPool

/-!
Starting and stopping the pool, any number of times. At every moment a name
belongs to at most one live thread, which the pool knows. Once `stop` has
returned no thread is left, every task that a worker had begun is done, and the
others wait for the next start in the order in which they were submitted.
-/
namespace MollisRuntime.Scheduling

open Ordered Python Persistence
open scoped List

namespace WorkerThread

variable {t t' : WorkerThread}

/-- The state tells whether the thread has ended. -/
def Honest (t : WorkerThread) : Prop := t.phase.isDead = t.worker.hasEnded

/-- The same worker, later. -/
structure Follows (t t' : WorkerThread) : Prop where
  workerId : t'.worker.workerId = t.worker.workerId
  live : t'.phase.isDead = false → t.phase.isDead = false
  stopEvent : t.stopEvent = true → t'.stopEvent = true
  honest : t.Honest → t'.Honest

theorem follows_stop (t : WorkerThread) : t.Follows t.stop := by
  unfold stop
  split
  · exact ⟨rfl, id, id, id⟩
  · rename_i hended
    refine ⟨rfl, id, fun _ => rfl, ?_⟩
    intro hhonest
    rw [Honest, Bool.not_eq_true] at *
    rw [hhonest, hended]
    rfl

/-- A live worker hears of it. -/
theorem stopEvent_stop (hhonest : t.Honest) (hlive : t.phase.isDead = false) :
    t.stop.stopEvent = true := by
  have hended : t.worker.hasEnded = false := hhonest ▸ hlive
  simp [stop, hended]

@[simp] theorem phase_stop (t : WorkerThread) : t.stop.phase = t.phase := by
  unfold stop
  split <;> rfl

theorem hasEnded_conclude (worker : Worker) (now : String) (completed stopping : Bool)
    (h : worker.hasEnded = false) :
    (worker.conclude now completed stopping).hasEnded = false := by
  cases completed <;> cases stopping <;> first | exact h | rfl

/-- A live worker that changes its phase and its record. -/
theorem follows_of_live (hlive : t.phase.isDead = false)
    (hid : t'.worker.workerId = t.worker.workerId) (hstop : t'.stopEvent = t.stopEvent)
    (hended : t.worker.hasEnded = false → t'.worker.hasEnded = t'.phase.isDead) :
    t.Follows t' := by
  refine ⟨hid, fun _ => hlive, fun h => hstop.trans h, ?_⟩
  intro hhonest
  exact (hended (hhonest.symm.trans hlive)).symm

theorem workerId_conclude (worker : Worker) (now : String) (completed stopping : Bool) :
    (worker.conclude now completed stopping).workerId = worker.workerId := by
  cases completed <;> rfl

theorem follows_turn (t : WorkerThread) (env : TurnEnv) (queue : List Task) :
    t.Follows (t.turn env queue).1 := by
  unfold turn
  cases hphase : t.phase with
  | checking =>
    refine follows_of_live (by rw [hphase]; rfl) rfl rfl ?_
    intro hended
    cases t.stopEvent <;> exact hended
  | getting =>
    cases queue with
    | nil =>
      refine follows_of_live (by rw [hphase]; rfl) ?_ rfl ?_
      · cases t.stopEvent <;> rfl
      · intro hended
        cases t.stopEvent <;> exact hended
    | cons task rest => exact follows_of_live (by rw [hphase]; rfl) rfl rfl fun h => h
  | holding task => exact follows_of_live (by rw [hphase]; rfl) rfl rfl fun _ => rfl
  | marked task =>
    dsimp only
    split
    · exact follows_of_live (by rw [hphase]; rfl) rfl rfl fun h => h
    · exact follows_of_live (by rw [hphase]; rfl) rfl rfl fun _ => rfl
  | executing task =>
    refine follows_of_live (by rw [hphase]; rfl) (workerId_conclude _ _ _ _) rfl ?_
    exact hasEnded_conclude _ _ _ _
  | leaving => exact follows_of_live (by rw [hphase]; rfl) rfl rfl fun _ => rfl
  | dead => exact ⟨rfl, id, id, id⟩

end WorkerThread

/-- What `stop` has seen to so far. -/
def Control.Sound (pool : WorkerPool) : Control → Prop
  | .outside => pool.started = false →
      ∀ (i : ℕ) (t : WorkerThread), pool.threads[i]? = some t → t.phase.isDead = true
  | .notifying rest joins => pool.started = false ∧
      ∀ (i : ℕ) (t : WorkerThread), pool.threads[i]? = some t → t.phase.isDead = false →
        i ∈ joins ∧ (i ∈ rest ∨ t.stopEvent = true)
  | .joining rest => pool.started = false ∧
      ∀ (i : ℕ) (t : WorkerThread), pool.threads[i]? = some t → t.phase.isDead = false →
        i ∈ rest ∧ t.stopEvent = true

namespace WorkerPool

variable {pool : WorkerPool}

/-- A live thread is the one that the pool knows under its name. -/
structure Registered (pool : WorkerPool) : Prop where
  named : ∀ workerId i, pool.workers.get? workerId = some i →
    ∃ t : WorkerThread, pool.threads[i]? = some t ∧ t.worker.workerId = workerId
  known : ∀ (i : ℕ) (t : WorkerThread), pool.threads[i]? = some t → t.phase.isDead = false →
    pool.workers.get? t.worker.workerId = some i
  honest : ∀ (i : ℕ) (t : WorkerThread), pool.threads[i]? = some t → t.Honest

/-- The same workers, some of them later. -/
structure Evolves (pool pool' : WorkerPool) : Prop where
  workers : pool'.workers = pool.workers
  started : pool'.started = pool.started
  length : pool'.threads.length = pool.threads.length
  follows : ∀ (i : ℕ) (t' : WorkerThread), pool'.threads[i]? = some t' →
    ∃ t : WorkerThread, pool.threads[i]? = some t ∧ WorkerThread.Follows t t'

theorem Evolves.refl (pool : WorkerPool) : pool.Evolves pool :=
  ⟨rfl, rfl, rfl, fun _ t ht => ⟨t, ht, rfl, id, id, id⟩⟩

theorem evolves_setThread {i : ℕ} {t t' : WorkerThread} (ht : pool.threads[i]? = some t)
    (hfollows : t.Follows t') : pool.Evolves (pool.setThread i t') := by
  refine ⟨rfl, rfl, List.length_set, ?_⟩
  intro j u hu
  rw [WorkerPool.setThread, List.getElem?_set] at hu
  split at hu
  · rename_i hij
    subst hij
    split at hu
    · cases hu
      exact ⟨t, ht, hfollows⟩
    · cases hu
  · exact ⟨u, hu, rfl, id, id, id⟩

theorem Registered.evolves {pool' : WorkerPool} (h : pool.Registered)
    (hevolves : pool.Evolves pool') : pool'.Registered where
  named := by
    intro workerId i hi
    rw [hevolves.workers] at hi
    obtain ⟨t, ht, hid⟩ := h.named workerId i hi
    have hlt : i < pool'.threads.length := by
      rw [hevolves.length]
      exact (List.getElem?_eq_some_iff.mp ht).1
    obtain ⟨u, hu, hfollows⟩ := hevolves.follows i _ (List.getElem?_eq_getElem hlt)
    rw [ht] at hu
    cases hu
    exact ⟨_, List.getElem?_eq_getElem hlt, hfollows.workerId.trans hid⟩
  known := by
    intro i t' ht' hlive
    obtain ⟨t, ht, hfollows⟩ := hevolves.follows i t' ht'
    rw [hevolves.workers, hfollows.workerId]
    exact h.known i t ht (hfollows.live hlive)
  honest := by
    intro i t' ht'
    obtain ⟨t, ht, hfollows⟩ := hevolves.follows i t' ht'
    exact hfollows.honest (h.honest i t ht)

theorem evolves_control {pool' : WorkerPool} {control : Control}
    (h : control.Sound pool) (hevolves : pool.Evolves pool') : control.Sound pool' := by
  cases control with
  | outside =>
    intro hstopped i t' ht'
    obtain ⟨t, ht, hfollows⟩ := hevolves.follows i t' ht'
    by_contra hlive
    rw [Bool.not_eq_true] at hlive
    have hdead := h (hevolves.started ▸ hstopped) i t ht
    rw [hfollows.live hlive] at hdead
    contradiction
  | notifying rest joins =>
    refine ⟨hevolves.started.trans h.1, ?_⟩
    intro i t' ht' hlive
    obtain ⟨t, ht, hfollows⟩ := hevolves.follows i t' ht'
    obtain ⟨hjoin, hrest⟩ := h.2 i t ht (hfollows.live hlive)
    exact ⟨hjoin, hrest.imp id hfollows.stopEvent⟩
  | joining rest =>
    refine ⟨hevolves.started.trans h.1, ?_⟩
    intro i t' ht' hlive
    obtain ⟨t, ht, hfollows⟩ := hevolves.follows i t' ht'
    obtain ⟨hrest, hstop⟩ := h.2 i t ht (hfollows.live hlive)
    exact ⟨hrest, hfollows.stopEvent hstop⟩

/-- The invariant of the pool. -/
structure Sound (pool : WorkerPool) : Prop where
  registered : pool.Registered
  control : pool.control.Sound pool

theorem Sound.evolves {pool' : WorkerPool} (h : pool.Sound) (hevolves : pool.Evolves pool')
    (hcontrol : pool'.control = pool.control) : pool'.Sound :=
  ⟨h.registered.evolves hevolves, hcontrol ▸ evolves_control h.control hevolves⟩

theorem sound_init (size : ℕ) : Sound { size } where
  registered := ⟨by simp, by simp, by simp⟩
  control := by simp [Control.Sound]

/-- No live thread has the name. -/
def Vacant (pool : WorkerPool) (workerId : String) : Prop :=
  ∀ (i : ℕ) (t : WorkerThread), pool.threads[i]? = some t → t.worker.workerId = workerId →
    t.phase.isDead = true

theorem getElem?_launch {now workerId : String} {i : ℕ} {t : WorkerThread}
    (ht : (pool.launch now workerId).threads[i]? = some t) :
    pool.threads[i]? = some t ∨ i = pool.threads.length ∧
      t = { worker := { workerId, state := .idle, heartbeatTime := now } } := by
  rw [launch, List.getElem?_append] at ht
  split at ht
  · exact Or.inl ht
  · rw [List.getElem?_singleton] at ht
    split at ht
    · cases ht
      exact Or.inr ⟨by omega, rfl⟩
    · cases ht

theorem Registered.launch (h : pool.Registered) {now workerId : String}
    (hvacant : pool.Vacant workerId) : (pool.launch now workerId).Registered where
  named := by
    intro other i hi
    rw [WorkerPool.launch, Dict.get?_set] at hi
    split at hi
    · rename_i hother
      cases hi
      refine ⟨_, List.getElem?_concat_length, hother⟩
    · obtain ⟨t, ht, hid⟩ := h.named other i hi
      have hlt : i < pool.threads.length := (List.getElem?_eq_some_iff.mp ht).1
      exact ⟨t, (List.getElem?_append_left hlt).trans ht, hid⟩
  known := by
    intro i t ht hlive
    obtain hold | ⟨rfl, rfl⟩ := getElem?_launch ht
    · rw [WorkerPool.launch, Dict.get?_set_ne, h.known i t hold hlive]
      rintro rfl
      rw [hvacant i t hold rfl] at hlive
      contradiction
    · exact Dict.get?_set_self _ _ _
  honest := by
    intro i t ht
    obtain hold | ⟨rfl, rfl⟩ := getElem?_launch ht
    · exact h.honest i t hold
    · rfl

theorem Vacant.launch {now workerId other : String} (h : pool.Vacant other)
    (hne : workerId ≠ other) : (pool.launch now workerId).Vacant other := by
  intro i t ht hid
  obtain hold | ⟨rfl, rfl⟩ := getElem?_launch ht
  · exact h i t hold hid
  · exact absurd hid hne

/-- Workers of different names, one after the other. -/
theorem Registered.launches {now : String} {workerIds : List String} (hnodup : workerIds.Nodup)
    (h : pool.Registered) (hvacant : ∀ workerId ∈ workerIds, pool.Vacant workerId) :
    (workerIds.foldl (fun pool workerId => pool.launch now workerId) pool).Registered := by
  induction workerIds generalizing pool with
  | nil => exact h
  | cons workerId rest ih =>
    obtain ⟨hfirst, hrest⟩ := List.nodup_cons.mp hnodup
    refine ih hrest (h.launch (hvacant workerId (by simp))) ?_
    intro other hother
    refine (hvacant other (List.mem_cons_of_mem _ hother)).launch ?_
    rintro rfl
    exact hfirst hother

/-- What launching one worker leaves alone. -/
theorem launches_frame {α : Type} (part : WorkerPool → α) {now : String}
    (hpart : ∀ pool workerId, part (pool.launch now workerId) = part pool)
    (workerIds : List String) (pool : WorkerPool) :
    part (workerIds.foldl (fun pool workerId => pool.launch now workerId) pool) = part pool := by
  induction workerIds generalizing pool with
  | nil => rfl
  | cons workerId rest ih => exact (ih _).trans (hpart pool workerId)

theorem Evolves.withControl {pool' : WorkerPool} (h : pool.Evolves pool') (control : Control) :
    pool.Evolves { pool' with control } :=
  ⟨h.workers, h.started, h.length, h.follows⟩

theorem running_control {pool' : WorkerPool} (hstarted : pool'.started = true)
    {control : Control} (hcontrol : control = .outside) : control.Sound pool' := by
  subst hcontrol
  intro hstopped
  rw [hstarted] at hstopped
  contradiction

section Steps

variable (h : pool.Sound)
include h

/-- `stop` begins with the flag. -/
theorem Sound.outside (hstarted : pool.started = true) : pool.control = .outside := by
  have hcontrol := h.control
  cases hc : pool.control with
  | outside => rfl
  | notifying rest joins =>
    rw [hc] at hcontrol
    rw [hcontrol.1] at hstarted
    contradiction
  | joining rest =>
    rw [hc] at hcontrol
    rw [hcontrol.1] at hstarted
    contradiction

theorem Sound.start (now : String) : (pool.start now).Sound := by
  have hcontrol := h.control
  unfold WorkerPool.start
  split
  · rename_i hidle
    rw [hidle] at hcontrol
    split
    · exact h
    · rename_i hstarted
      rw [Bool.not_eq_true] at hstarted
      have hnames : ((List.range pool.size).map RuntimeEngine.workerName).Nodup :=
        List.nodup_range.map RuntimeEngine.workerName_injective
      have hfresh : Registered { pool with started := true } :=
        ⟨h.registered.named, h.registered.known, h.registered.honest⟩
      refine ⟨hfresh.launches hnames ?_, ?_⟩
      · intro workerId _ i t ht _
        exact hcontrol hstarted i t ht
      · rw [launches_frame WorkerPool.control fun _ _ => rfl]
        refine running_control ?_ hidle
        exact launches_frame WorkerPool.started (fun _ _ => rfl) _ _
  · exact h

theorem Sound.stop : pool.stop.Sound := by
  unfold WorkerPool.stop
  split
  · split
    · refine ⟨⟨h.registered.named, h.registered.known, h.registered.honest⟩, rfl, ?_⟩
      intro i t ht hlive
      have hknown := h.registered.known i t ht hlive
      have hmem : i ∈ pool.workers.values := Dict.mem_values_iff.mpr ⟨_, hknown⟩
      exact ⟨hmem, Or.inl hmem⟩
    · exact h
  · exact h

theorem Sound.notify : pool.notify.Sound := by
  have hcontrol := h.control
  unfold WorkerPool.notify
  split
  · rename_i i rest joins hnotifying
    rw [hnotifying] at hcontrol
    obtain ⟨hstarted, hlive⟩ := hcontrol
    split
    · rename_i t ht
      have hevolves := (evolves_setThread ht t.follows_stop).withControl (.notifying rest joins)
      refine ⟨h.registered.evolves hevolves, hstarted, ?_⟩
      intro j u hu hulive
      rw [WorkerPool.setThread, List.getElem?_set] at hu
      split at hu
      · rename_i hij
        subst hij
        split at hu
        · cases hu
          rw [WorkerThread.phase_stop] at hulive
          have hstop := WorkerThread.stopEvent_stop (h.registered.honest i t ht) hulive
          exact ⟨(hlive i t ht hulive).1, Or.inr hstop⟩
        · cases hu
      · rename_i hij
        obtain ⟨hjoin, hrest⟩ := hlive j u hu hulive
        refine ⟨hjoin, hrest.imp_left ?_⟩
        intro hmem
        exact (List.mem_cons.mp hmem).resolve_left (Ne.symm hij)
    · rename_i hnone
      refine ⟨h.registered.evolves ((Evolves.refl pool).withControl _), hstarted, ?_⟩
      intro j u hu hulive
      obtain ⟨hjoin, hrest⟩ := hlive j u hu hulive
      refine ⟨hjoin, hrest.imp_left ?_⟩
      intro hmem
      refine (List.mem_cons.mp hmem).resolve_left ?_
      rintro rfl
      rw [hnone] at hu
      cases hu
  · rename_i joins hnotifying
    rw [hnotifying] at hcontrol
    refine ⟨h.registered.evolves ((Evolves.refl pool).withControl _), hcontrol.1, ?_⟩
    intro j u hu hulive
    obtain ⟨hjoin, hrest⟩ := hcontrol.2 j u hu hulive
    exact ⟨hjoin, hrest.resolve_left (by simp)⟩
  · exact h

theorem Sound.join : pool.join.Sound := by
  have hcontrol := h.control
  unfold WorkerPool.join
  split
  · rename_i i rest hjoining
    rw [hjoining] at hcontrol
    split
    · rename_i hdead
      refine ⟨h.registered.evolves ((Evolves.refl pool).withControl _), hcontrol.1, ?_⟩
      intro j u hu hulive
      obtain ⟨hmem, hstop⟩ := hcontrol.2 j u hu hulive
      refine ⟨(List.mem_cons.mp hmem).resolve_left ?_, hstop⟩
      rintro rfl
      rw [hu] at hdead
      simp [hulive] at hdead
    · exact h
  · rename_i hjoining
    rw [hjoining] at hcontrol
    refine ⟨h.registered.evolves ((Evolves.refl pool).withControl _), ?_⟩
    intro _ j u hu
    by_contra hulive
    rw [Bool.not_eq_true] at hulive
    simpa using (hcontrol.2 j u hu hulive).1
  · exact h

theorem Sound.supervise (workerId now : String) : (pool.supervise workerId now).Sound := by
  unfold WorkerPool.supervise
  split
  · rename_i hstarted
    split
    · rename_i t hfound
      obtain ⟨i, hi, ht⟩ := Option.bind_eq_some_iff.mp hfound
      split
      · rename_i hfailed
        have hdead : t.phase.isDead = true := by
          rw [h.registered.honest i t ht, Worker.hasEnded, hfailed]
          rfl
        have hvacant : pool.Vacant workerId := by
          intro j u hu hid
          by_contra hulive
          rw [Bool.not_eq_true] at hulive
          have hj := h.registered.known j u hu hulive
          rw [hid, hi] at hj
          cases hj
          rw [ht] at hu
          cases hu
          rw [hdead] at hulive
          contradiction
        have hrunning : (pool.launch now workerId).started = true := hstarted
        exact ⟨h.registered.launch hvacant, running_control hrunning (h.outside hstarted)⟩
      · exact h
    · exact h
  · exact h

theorem Sound.turn (i : ℕ) (env : TurnEnv) : (pool.turn i env).1.Sound := by
  unfold WorkerPool.turn
  split
  · rename_i t ht
    have hevolves := evolves_setThread ht (t.follows_turn env pool.taskQueue)
    exact h.evolves ⟨hevolves.workers, hevolves.started, hevolves.length, hevolves.follows⟩ rfl
  · exact h

/-- Every step keeps the invariant. -/
theorem Sound.step (a : PoolAction) : (pool.step a).1.Sound := by
  have hsame : ∀ {pool' : WorkerPool}, pool'.threads = pool.threads → pool'.workers = pool.workers →
      pool'.started = pool.started → pool'.control = pool.control → pool'.Sound := by
    intro pool' hthreads hworkers hstarted hcontrol
    refine h.evolves ⟨hworkers, hstarted, by rw [hthreads], ?_⟩ hcontrol
    rw [hthreads]
    exact (Evolves.refl pool).follows
  cases a with
  | start now => exact h.start now
  | stop => exact h.stop
  | notify => exact h.notify
  | join => exact h.join
  | submit task =>
    rw [WorkerPool.step, WorkerPool.submit]
    split
    · exact hsame rfl rfl rfl rfl
    · exact h
  | put n =>
    rw [WorkerPool.step, WorkerPool.put]
    split
    · exact hsame rfl rfl rfl rfl
    · exact h
  | supervise workerId now => exact h.supervise workerId now
  | turn i env => exact h.turn i env

end Steps

section History

/-- The tasks in the hands of the workers. -/
def held (pool : WorkerPool) : List Task := pool.threads.filterMap fun t => t.phase.task

/-- Tasks leave the queue in the order in which they were put, and a task that was
taken is in the hands of one worker until it has ended. -/
structure History (c : WorkerPool × List PoolNote) : Prop where
  order : c.2.filterMap PoolNote.asPut = c.2.filterMap PoolNote.asTaken ++ c.1.taskQueue
  ended : (c.2.filterMap PoolNote.asTaken).Perm
    (c.2.filterMap PoolNote.asEnded ++ c.1.held)

/-- What one turn of a worker takes, ends and keeps. -/
structure Accounts (t : WorkerThread) (queue : List Task)
    (turned : WorkerThread × List Task × List PoolNote) : Prop where
  puts : turned.2.2.filterMap PoolNote.asPut = []
  queue : queue = turned.2.2.filterMap PoolNote.asTaken ++ turned.2.1
  ended : (turned.2.2.filterMap PoolNote.asTaken ++ t.phase.task.toList).Perm
    (turned.2.2.filterMap PoolNote.asEnded ++ turned.1.phase.task.toList)

theorem accounts_turn (t : WorkerThread) (env : TurnEnv) (queue : List Task) :
    Accounts t queue (t.turn env queue) := by
  unfold WorkerThread.turn
  cases hphase : t.phase with
  | checking =>
    refine ⟨rfl, rfl, ?_⟩
    rw [hphase]
    cases t.stopEvent <;> exact List.Perm.refl _
  | getting =>
    cases queue with
    | nil => exact ⟨rfl, rfl, by rw [hphase]; exact List.Perm.refl _⟩
    | cons task rest => exact ⟨rfl, rfl, by rw [hphase]; exact List.Perm.refl _⟩
  | marked task =>
    dsimp only
    split <;> exact ⟨rfl, rfl, by rw [hphase]; exact List.Perm.refl _⟩
  | holding task | executing task | leaving =>
    exact ⟨rfl, rfl, by rw [hphase]; exact List.Perm.refl _⟩
  | dead => exact ⟨rfl, rfl, List.Perm.refl _⟩

theorem held_cons (t : WorkerThread) (threads : List WorkerThread) :
    ((t :: threads).filterMap fun t => t.phase.task) =
      t.phase.task.toList ++ threads.filterMap fun t => t.phase.task := by
  rw [List.filterMap_cons]
  cases t.phase.task <;> rfl

theorem held_setThread {i : ℕ} {t : WorkerThread} (ht : pool.threads[i]? = some t)
    (t' : WorkerThread) : ∃ rest : List Task, pool.held.Perm (t.phase.task.toList ++ rest) ∧
      (pool.setThread i t').held.Perm (t'.phase.task.toList ++ rest) := by
  obtain ⟨hlt, rfl⟩ := List.getElem?_eq_some_iff.mp ht
  refine ⟨(pool.threads.eraseIdx i).filterMap fun t => t.phase.task, ?_, ?_⟩
  · rw [← held_cons]
    exact (List.getElem_cons_eraseIdx_perm hlt).symm.filterMap _
  · rw [← held_cons]
    exact (List.set_perm_cons_eraseIdx hlt t').filterMap _

theorem held_launch (pool : WorkerPool) (now workerId : String) :
    (pool.launch now workerId).held = pool.held := by
  simp [held, launch, Phase.task]

theorem held_start (pool : WorkerPool) (now : String) : (pool.start now).held = pool.held := by
  unfold start
  split
  · split
    · rfl
    · rw [launches_frame held fun pool workerId => held_launch pool now workerId]
      rfl
  · rfl

theorem held_notify (pool : WorkerPool) : pool.notify.held.Perm pool.held := by
  unfold notify
  split
  · split
    · rename_i t ht
      obtain ⟨rest, hbefore, hafter⟩ := held_setThread ht t.stop
      rw [WorkerThread.phase_stop] at hafter
      exact hafter.trans hbefore.symm
    · exact List.Perm.refl _
  · exact List.Perm.refl _
  · exact List.Perm.refl _

theorem held_supervise (pool : WorkerPool) (workerId now : String) :
    (pool.supervise workerId now).held = pool.held := by
  unfold supervise
  split
  · split
    · split
      · exact held_launch pool now workerId
      · rfl
    · rfl
  · rfl

theorem taskQueue_start (pool : WorkerPool) (now : String) :
    (pool.start now).taskQueue = pool.taskQueue := by
  unfold start
  split
  · split
    · rfl
    · rw [launches_frame taskQueue fun _ _ => rfl]
  · rfl

/-- What neither takes a task nor puts one. -/
theorem History.quiet {c : WorkerPool × List PoolNote} (h : History c) (pool' : WorkerPool)
    (hqueue : pool'.taskQueue = c.1.taskQueue) (hheld : pool'.held.Perm c.1.held) :
    History (pool', c.2 ++ []) := by
  rw [List.append_nil]
  refine ⟨by rw [hqueue]; exact h.order, ?_⟩
  exact h.ended.trans (hheld.symm.append_left _)

theorem History.turn {c : WorkerPool × List PoolNote} (h : History c) (i : ℕ) (env : TurnEnv) :
    History (Machine.advance WorkerPool.step c (.turn i env)) := by
  rw [Machine.advance, WorkerPool.step, WorkerPool.turn]
  split
  · rename_i t ht
    have haccounts := accounts_turn t env c.1.taskQueue
    obtain ⟨rest, hbefore, hafter⟩ := held_setThread ht (t.turn env c.1.taskQueue).1
    generalize t.turn env c.1.taskQueue = turned at haccounts hafter
    constructor
    · rw [List.filterMap_append, List.filterMap_append, haccounts.puts, List.append_nil, h.order,
        List.append_assoc, ← haccounts.queue]
    · rw [List.filterMap_append, List.filterMap_append, List.append_assoc]
      calc c.2.filterMap PoolNote.asTaken ++ turned.2.2.filterMap PoolNote.asTaken
        _ ~ (c.2.filterMap PoolNote.asEnded ++ (t.phase.task.toList ++ rest)) ++
              turned.2.2.filterMap PoolNote.asTaken :=
            (h.ended.trans (hbefore.append_left _)).append_right _
        _ ~ c.2.filterMap PoolNote.asEnded ++
              ((turned.2.2.filterMap PoolNote.asTaken ++ t.phase.task.toList) ++ rest) := by
            rw [List.append_assoc, List.append_assoc _ t.phase.task.toList]
            exact List.perm_append_comm.append_left _
        _ ~ c.2.filterMap PoolNote.asEnded ++
              ((turned.2.2.filterMap PoolNote.asEnded ++ turned.1.phase.task.toList) ++ rest) :=
            (haccounts.ended.append_right _).append_left _
        _ ~ c.2.filterMap PoolNote.asEnded ++ (turned.2.2.filterMap PoolNote.asEnded ++
              (c.1.setThread i turned.1).held) := by
            rw [List.append_assoc]
            exact (hafter.symm.append_left _).append_left _
  · exact h.quiet c.1 rfl (List.Perm.refl _)

theorem stop_frame (pool : WorkerPool) :
    pool.stop.taskQueue = pool.taskQueue ∧ pool.stop.threads = pool.threads := by
  unfold stop
  split <;> [split; skip] <;> exact ⟨rfl, rfl⟩

theorem taskQueue_notify (pool : WorkerPool) : pool.notify.taskQueue = pool.taskQueue := by
  unfold notify
  split <;> [split; skip; skip] <;> rfl

theorem join_frame (pool : WorkerPool) :
    pool.join.taskQueue = pool.taskQueue ∧ pool.join.threads = pool.threads := by
  unfold join
  split <;> [split; skip; skip] <;> exact ⟨rfl, rfl⟩

theorem submit_frame (pool : WorkerPool) (task : Task) :
    (pool.submit task).taskQueue = pool.taskQueue ∧
      (pool.submit task).threads = pool.threads := by
  unfold submit
  split <;> exact ⟨rfl, rfl⟩

theorem taskQueue_supervise (pool : WorkerPool) (workerId now : String) :
    (pool.supervise workerId now).taskQueue = pool.taskQueue := by
  unfold supervise
  split
  · split
    · split <;> rfl
    · rfl
  · rfl

theorem held_congr {pool' : WorkerPool} (h : pool'.threads = pool.threads) :
    pool'.held.Perm pool.held := by
  unfold held
  rw [h]

theorem History.put {c : WorkerPool × List PoolNote} (h : History c) (n : ℕ) :
    History (Machine.advance WorkerPool.step c (.put n)) := by
  rw [Machine.advance, WorkerPool.step, WorkerPool.put]
  split
  · rename_i task _
    constructor
    · rw [List.filterMap_append, List.filterMap_append, h.order]
      simp [PoolNote.asPut, PoolNote.asTaken]
    · rw [List.filterMap_append, List.filterMap_append]
      change (c.2.filterMap PoolNote.asTaken ++ []).Perm
        (c.2.filterMap PoolNote.asEnded ++ [] ++ c.1.held)
      rw [List.append_nil, List.append_nil]
      exact h.ended
  · exact h.quiet _ rfl (List.Perm.refl _)

/-- Every step keeps the accounts. -/
theorem History.step {c : WorkerPool × List PoolNote} (h : History c) (a : PoolAction) :
    History (Machine.advance WorkerPool.step c a) := by
  cases a with
  | start now =>
    exact h.quiet _ (taskQueue_start c.1 now) (List.Perm.of_eq (held_start c.1 now))
  | stop => exact h.quiet _ (stop_frame c.1).1 (held_congr (stop_frame c.1).2)
  | notify => exact h.quiet _ (taskQueue_notify c.1) (held_notify c.1)
  | join => exact h.quiet _ (join_frame c.1).1 (held_congr (join_frame c.1).2)
  | submit task => exact h.quiet _ (submit_frame c.1 task).1 (held_congr (submit_frame c.1 task).2)
  | put n => exact h.put n
  | supervise workerId now =>
    exact h.quiet _ (taskQueue_supervise c.1 workerId now)
      (List.Perm.of_eq (held_supervise c.1 workerId now))
  | turn i env => exact h.turn i env

theorem history_init (size : ℕ) : History ({ size }, []) := ⟨rfl, List.Perm.refl _⟩

end History

section Runs

theorem sound_run (size : ℕ) (actions : List PoolAction) : (run size actions).1.Sound :=
  Machine.exec_preserves (fun c : WorkerPool × List PoolNote => c.1.Sound)
    (fun _ a h => h.step a) (sound_init size) actions

theorem history_run (size : ℕ) (actions : List PoolAction) : History (run size actions) :=
  Machine.exec_preserves History (fun _ a h => h.step a) (history_init size) actions

/-- `stop` has returned, or nothing was started yet. -/
def AtRest (pool : WorkerPool) : Prop := pool.started = false ∧ pool.control = .outside

theorem Sound.atRest (h : pool.Sound) (hrest : pool.AtRest) :
    ∀ t ∈ pool.threads, t.phase.isDead = true := by
  intro t ht
  obtain ⟨i, hi⟩ := List.getElem?_of_mem ht
  have hcontrol := h.control
  rw [hrest.2] at hcontrol
  exact hcontrol hrest.1 i t hi

theorem held_of_dead (h : ∀ t ∈ pool.threads, t.phase.isDead = true) : pool.held = [] := by
  refine List.filterMap_eq_nil_iff.mpr ?_
  intro t ht
  have hdead := h t ht
  cases hphase : t.phase with
  | dead => rfl
  | _ =>
    rw [hphase] at hdead
    contradiction

/-- At every moment a name belongs to one live thread at most, the tasks were taken
in the order of the puts, each of them once, and each is in the hands of one worker
until it has ended. Once `stop` has returned no thread is live and every task that
was taken has ended; the others are still in the queue. -/
theorem pool_threads (size : ℕ) (actions : List PoolAction) :
    let c := run size actions
    let taken := c.2.filterMap PoolNote.asTaken
    let ended := c.2.filterMap PoolNote.asEnded
    (∀ (i j : ℕ) (t u : WorkerThread), c.1.threads[i]? = some t → c.1.threads[j]? = some u →
        t.phase.isDead = false → u.phase.isDead = false →
        t.worker.workerId = u.worker.workerId → i = j) ∧
      c.2.filterMap PoolNote.asPut = taken ++ c.1.taskQueue ∧
      taken.Perm (ended ++ c.1.held) ∧
      (c.1.AtRest → (∀ t ∈ c.1.threads, t.phase.isDead = true) ∧ taken.Perm ended) := by
  intro c taken ended
  have hsound : c.1.Sound := sound_run size actions
  have hhistory : History c := history_run size actions
  refine ⟨?_, hhistory.order, hhistory.ended, ?_⟩
  · intro i j t u ht hu htlive hulive hid
    have hi := hsound.registered.known i t ht htlive
    have hj := hsound.registered.known j u hu hulive
    rw [hid, hj] at hi
    exact (Option.some.inj hi).symm
  · intro hrest
    have hdead := hsound.atRest hrest
    have hended := hhistory.ended
    rw [held_of_dead hdead, List.append_nil] at hended
    exact ⟨hdead, hended⟩

end Runs

end WorkerPool

end MollisRuntime.Scheduling
