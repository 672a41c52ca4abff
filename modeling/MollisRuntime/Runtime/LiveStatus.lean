import MollisRuntime.Runtime.Wiring
import MollisRuntime.Scheduling.DelayedSet

/-!
The status and the number of retries that a recovery finds for a task, against the
task in memory. A handler changes the object of one task and tells of that task; the
two agree afterwards unless a task comes back from the heap after its attempt has
ended, an attempt ends after its timeout, or the delay of a retry cannot be computed.
-/
namespace MollisRuntime.Scheduling

open Ordered Python Persistence RecoveryManager

section Mirrors

variable {P : Type}

/-- What is recovered for a task is what its object says. -/
def Mirrors (view : Option (String × ℤ)) (object : TaskObject) : Prop :=
  ∃ count, object.metadata.retryCount = .ok count ∧ view = some (object.status.value, count)

theorem mirrors_iff {object : TaskObject} {status : TaskStatus} {count viewed : ℤ}
    (hcount : object.metadata.retryCount = .ok count) :
    Mirrors (some (status.value, viewed)) object ↔ object.status = status ∧ count = viewed := by
  constructor
  · rintro ⟨other, hother, hsame⟩
    cases Except.ok.inj (hcount.symm.trans hother)
    obtain ⟨hstatus, hviewed⟩ := Prod.mk.inj (Option.some.inj hsame)
    exact ⟨(TaskStatus.value_injective hstatus).symm, hviewed.symm⟩
  · rintro ⟨hstatus, rfl⟩
    exact ⟨count, hcount, by rw [hstatus]⟩

/-- The tasks of the task manager are recovered as they are. -/
def LiveRecovered (c : Runtime P × List Note) : Prop :=
  ∀ taskId task, c.1.engine.taskManager.get? taskId = some task →
    Mirrors (taskViews c.2 taskId) (c.1.engine.object task)

/-- Each registered task is an object of its own, and only registered tasks are
anywhere in the engine. -/
structure Runtime.Orderly (rt : Runtime P) : Prop where
  keyed : ∀ taskId task, rt.engine.taskManager.get? taskId = some task → task.id = taskId
  created : ∀ taskId task, rt.engine.taskManager.get? taskId = some task → task.ref < rt.created
  apart : ∀ taskId task otherId other, rt.engine.taskManager.get? taskId = some task →
    rt.engine.taskManager.get? otherId = some other → task.ref = other.ref → task = other
  held : ∀ task ∈ rt.engine.custody, rt.engine.taskManager.get? task.id = some task

namespace LiveRecovered

variable {c : Runtime P × List Note} {rt : Runtime P} {more : List Note} {task : TaskHandle}
  {view : Option (String × ℤ)}

/-- What is done to one task matters for this task. -/
theorem touched_iff (h : LiveRecovered c) (object : TaskObject)
    (hmem : rt.engine.taskManager.get? task.id = some task)
    (hothers : ∀ taskId other, taskId ≠ task.id → rt.engine.taskManager.get? taskId = some other →
      c.1.engine.taskManager.get? taskId = some other ∧ other.ref ≠ task.ref)
    (hobjects : rt.engine.objects = Function.update c.1.engine.objects task.ref object)
    (hviews : taskViews (c.2 ++ more) = Function.update (taskViews c.2) task.id view) :
    LiveRecovered (rt, c.2 ++ more) ↔ Mirrors view object := by
  have hview : taskViews (c.2 ++ more) task.id = view := by
    rw [hviews, Function.update_self]
  have hobject : rt.engine.object task = object := by
    rw [RuntimeEngine.object, hobjects, Function.update_self]
  constructor
  · intro hafter
    have hmirrors := hafter task.id task hmem
    rwa [hview, hobject] at hmirrors
  · intro hmirrors taskId other hother
    by_cases hid : taskId = task.id
    · subst hid
      cases Option.some.inj (hmem.symm.trans hother)
      rwa [hview, hobject]
    · obtain ⟨hbefore, href⟩ := hothers taskId other hid hother
      have hsame : rt.engine.object other = c.1.engine.object other := by
        rw [RuntimeEngine.object, hobjects]
        exact Function.update_of_ne href _ _
      rw [hviews, Function.update_of_ne hid, hsame]
      exact h taskId other hbefore

theorem changed_iff (h : LiveRecovered c) (object : TaskObject) (ho : c.1.Orderly)
    (hmem : c.1.engine.taskManager.get? task.id = some task)
    (hmanager : rt.engine.taskManager = c.1.engine.taskManager)
    (hobjects : rt.engine.objects = Function.update c.1.engine.objects task.ref object)
    (hviews : taskViews (c.2 ++ more) = Function.update (taskViews c.2) task.id view) :
    LiveRecovered (rt, c.2 ++ more) ↔ Mirrors view object := by
  refine h.touched_iff object (hmanager ▸ hmem) ?_ hobjects hviews
  intro taskId other hid hother
  rw [hmanager] at hother
  refine ⟨hother, fun href => hid ?_⟩
  obtain rfl := ho.apart _ _ _ _ hother hmem href
  exact (ho.keyed _ _ hother).symm

theorem registered_iff (h : LiveRecovered c) (object : TaskObject) (ho : c.1.Orderly)
    (hcreated : c.1.created ≤ task.ref)
    (hmanager : rt.engine.taskManager = c.1.engine.taskManager.set task.id task)
    (hobjects : rt.engine.objects = Function.update c.1.engine.objects task.ref object)
    (hviews : taskViews (c.2 ++ more) = Function.update (taskViews c.2) task.id view) :
    LiveRecovered (rt, c.2 ++ more) ↔ Mirrors view object := by
  refine h.touched_iff object ?_ ?_ hobjects hviews
  · rw [hmanager, Dict.get?_set_self]
  · intro taskId other hid hother
    rw [hmanager, Dict.get?_set_ne _ _ _ _ (Ne.symm hid)] at hother
    exact ⟨hother, ((ho.created taskId other hother).trans_le hcreated).ne⟩

theorem untouched (h : LiveRecovered c)
    (hmanager : rt.engine.taskManager = c.1.engine.taskManager)
    (hobjects : rt.engine.objects = c.1.engine.objects)
    (hviews : taskViews (c.2 ++ more) = taskViews c.2) : LiveRecovered (rt, c.2 ++ more) := by
  intro taskId other hother
  rw [hmanager] at hother
  have hobject : rt.engine.object other = c.1.engine.object other := congrFun hobjects other.ref
  rw [hviews, hobject]
  exact h taskId other hother

end LiveRecovered

end Mirrors

section Order

variable {P : Type} [SchedulingPolicy P] [FloatArith]

namespace Runtime.Orderly

variable {rt : Runtime P}

omit [SchedulingPolicy P] [FloatArith] in
theorem of_same_manager {s : Runtime P} (h : rt.Orderly)
    (hmanager : s.engine.taskManager = rt.engine.taskManager) (hcreated : rt.created ≤ s.created)
    (hcustody : ∀ task ∈ s.engine.custody, task ∈ rt.engine.custody) : s.Orderly where
  keyed := by
    rw [hmanager]
    exact h.keyed
  created taskId task htask := by
    rw [hmanager] at htask
    exact (h.created taskId task htask).trans_le hcreated
  apart := by
    rw [hmanager]
    exact h.apart
  held task htask := by
    rw [hmanager]
    exact h.held task (hcustody task htask)

omit [SchedulingPolicy P] [FloatArith] in
theorem of_registered {s : Runtime P} {task : TaskHandle} (h : rt.Orderly)
    (hnew : task.id ∉ rt.engine.taskManager.keys)
    (hmanager : s.engine.taskManager = rt.engine.taskManager.set task.id task)
    (href : task.ref = rt.created) (hcreated : s.created = rt.created + 1)
    (hcustody : ∀ other ∈ s.engine.custody, other = task ∨ other ∈ rt.engine.custody) :
    s.Orderly := by
  have hentry : ∀ otherId other, s.engine.taskManager.get? otherId = some other →
      otherId = task.id ∧ other = task ∨ rt.engine.taskManager.get? otherId = some other := by
    intro otherId other hother
    rw [hmanager, Dict.get?_set] at hother
    split at hother
    · rename_i hid
      exact .inl ⟨hid.symm, (Option.some.inj hother).symm⟩
    · exact .inr hother
  constructor
  · intro otherId other hother
    rcases hentry otherId other hother with ⟨rfl, rfl⟩ | hold
    · rfl
    · exact h.keyed otherId other hold
  · intro otherId other hother
    rw [hcreated]
    rcases hentry otherId other hother with ⟨-, rfl⟩ | hold
    · exact href.trans_lt (Nat.lt_succ_self _)
    · exact (h.created otherId other hold).trans (Nat.lt_succ_self _)
  · intro firstId first secondId second hfirst hsecond hsame
    rcases hentry firstId first hfirst with ⟨-, rfl⟩ | holdFirst
    · rcases hentry secondId second hsecond with ⟨-, rfl⟩ | holdSecond
      · rfl
      · exact absurd (hsame.symm.trans href) (h.created _ _ holdSecond).ne
    · rcases hentry secondId second hsecond with ⟨-, rfl⟩ | holdSecond
      · exact absurd (hsame.trans href) (h.created _ _ holdFirst).ne
      · exact h.apart _ _ _ _ holdFirst holdSecond hsame
  · intro other hother
    rw [hmanager]
    rcases hcustody other hother with rfl | hold
    · exact Dict.get?_set_self _ _ _
    · have hget := h.held other hold
      rw [Dict.get?_set_ne, hget]
      intro hid
      exact hnew ((Dict.mem_keys_iff _ _).mpr ⟨other, hid ▸ hget⟩)

/-- A new task is an object that was not there. -/
theorem submitTask (h : rt.Orderly) (env : StepEnv) (taskId : String) (task : Submission)
    (delay : Number) : (rt.submitTask env taskId task delay).runtime.Orderly := by
  cases htitle : isBlank task.title with
  | true =>
    rw [Runtime.submitTask_blank htitle]
    exact h
  | false =>
    rw [Runtime.submitTask_visible htitle]
    have hcustody : ∀ other ∈ (rt.engine.submitTask env ⟨rt.created, taskId⟩ task.title
        task.taskType task.metadata (rt.admission task) delay).system.custody,
        other = ⟨rt.created, taskId⟩ ∨ other ∈ rt.engine.custody := by
      intro other hother
      exact Multiset.mem_cons.mp (Multiset.mem_of_le RuntimeEngine.custody_submitTask hother)
    obtain hsystem | ⟨hnew, object, queue, tracker, hsystem⟩ :=
      rt.engine.system_submitTask env ⟨rt.created, taskId⟩ task.title task.taskType task.metadata
        (rt.admission task) delay
    · refine h.of_same_manager (congrArg RuntimeEngine.taskManager hsystem) (Nat.le_succ _) ?_
      intro other hother
      rw [← hsystem]
      exact hother
    · exact h.of_registered hnew (congrArg RuntimeEngine.taskManager hsystem) rfl rfl hcustody

theorem advance {c : Runtime P × List Note} (h : c.1.Orderly) (a : StepEnv × RuntimeAction) :
    (Machine.advance Runtime.step c a).1.Orderly := by
  obtain ⟨env, action⟩ := a
  cases action with
  | submitTask taskId task delay => exact h.submitTask env taskId task delay
  | work action =>
    obtain ⟨action, hinternal⟩ := action
    refine h.of_same_manager ?_ le_rfl ?_
    · obtain hsame | ⟨task, title, taskType, metadata, admission, delay, rfl, -⟩ :=
        c.1.engine.taskManager_perform env action
      · exact hsame
      · cases hinternal
    · intro task htask
      refine (RuntimeEngine.mem_custody_perform htask).resolve_left ?_
      cases action with
      | schedule => cases hinternal
      | submitTask => cases hinternal
      | _ => exact Multiset.notMem_zero task

end Runtime.Orderly

end Order

section Steps

variable {P : Type} [SchedulingPolicy P] [FloatArith]

/-- The condition on the steps of the scheduler and the workers. -/
def RuntimeEngine.StatusTold (sys : RuntimeEngine P) (env : StepEnv) : Action → Prop
  | .release => ∀ task ∈ sys.due env, sys.Accepts task → (sys.object task).status = .pending
  | .conclude workerId (.ok ()) =>
    ∀ task ∈ sys.attempted workerId, (sys.object task).status ≠ .failed
  | action => ∀ failed ∈ sys.failing env action,
      ∀ computed ∈ sys.retryDelay failed.1 failed.2, computed.isOk = true

instance (sys : RuntimeEngine P) (env : StepEnv) :
    ∀ action : Action, Decidable (sys.StatusTold env action)
  | .release => inferInstanceAs (Decidable (∀ _ ∈ _, _ → _ = _))
  | .conclude _ (.ok ()) => inferInstanceAs (Decidable (∀ _ ∈ _, _ ≠ _))
  | .schedule .. | .submitTask .. | .dispatch | .start _ | .conclude _ (.error _) | .timeout _
  | .respawn _ => inferInstanceAs (Decidable (∀ _ ∈ _, ∀ _ ∈ _, _ = _))

theorem RuntimeEngine.statusTold_of_quiet {sys : RuntimeEngine P} {env : StepEnv}
    {action : Action} (hfailing : sys.failing env action = none) (hrelease : action ≠ .release)
    (hconclude : ∀ workerId, action ≠ .conclude workerId (.ok ())) : sys.StatusTold env action := by
  have hnone : ∀ failed ∈ sys.failing env action,
      ∀ computed ∈ sys.retryDelay failed.1 failed.2, computed.isOk = true := by
    rw [hfailing]
    exact fun failed hfailed => absurd hfailed (Option.not_mem_none failed)
  cases action with
  | release => exact absurd rfl hrelease
  | conclude workerId result =>
    cases result with
    | ok _ => exact absurd rfl (hconclude workerId)
    | error e => exact hnone
  | _ => exact hnone

/-- A submitted task comes without retries behind it. -/
def StatusKept (c : Runtime P × List Note) (a : StepEnv × RuntimeAction) : Prop :=
  match a.2 with
  | .submitTask taskId task _ => isBlank task.title = false →
      c.1.engine.taskManager.contains taskId = false →
      (c.1.admission task task.metadata).1.retryCount = .ok 0
  | .work action => c.1.engine.StatusTold a.1 action.1

instance (c : Runtime P × List Note) : ∀ a : StepEnv × RuntimeAction, Decidable (StatusKept c a)
  | (_, .submitTask ..) => inferInstanceAs (Decidable (_ → _ → _ = _))
  | (env, .work action) => inferInstanceAs (Decidable (c.1.engine.StatusTold env action.1))

namespace LiveRecovered

variable {c : Runtime P × List Note} {env : StepEnv} {task : TaskHandle}

omit [FloatArith] in
/-- A task that the queue takes back is recovered as PENDING. -/
theorem release_iff (h : LiveRecovered c) (ho : c.1.Orderly) (hstore : env.Recording) :
    LiveRecovered ({ c.1 with engine := (c.1.engine.release env).system },
        c.2 ++ (c.1.engine.release env).notes) ↔
      ∀ task ∈ c.1.engine.due env, c.1.engine.Accepts task →
        (c.1.engine.object task).status = .pending := by
  cases hdue : c.1.engine.due env with
  | none =>
    rw [RuntimeEngine.release_none hdue, List.append_nil]
    exact iff_of_true h (by simp)
  | some task =>
    obtain ⟨entry, rest, hentries, hitem, hrelease⟩ := RuntimeEngine.release_some hdue
    let popped : RuntimeEngine P :=
      { c.1.engine with tracker.heap := c.1.engine.tracker.heap.pop }
    have hregistered : c.1.engine.taskManager.get? task.id = some task := by
      refine ho.held task (RuntimeEngine.mem_custody.mpr (.inr (.inl ?_)))
      rw [DelayedTaskTracker.tasks, hentries, ← hitem]
      exact List.mem_cons_self
    have hkinds := RuntimeEngine.kinds_onDelayedTaskReady hstore popped task
    have hsystem : (c.1.engine.release env).system = (popped.enqueue env task).system := by
      rw [hrelease, RuntimeEngine.system_onDelayedTaskReady]
    rw [← hrelease] at hkinds
    simp only [Option.mem_some_iff, forall_eq']
    by_cases haccepts : c.1.engine.Accepts task
    · rw [if_pos (show popped.Accepts task from haccepts)] at hkinds
      obtain ⟨count, hcount, hview⟩ := h task.id task hregistered
      have hafter : taskViews (c.2 ++ (c.1.engine.release env).notes) =
          Function.update (taskViews c.2) task.id (some (TaskStatus.pending.value, count)) := by
        rw [taskViews_append, hkinds]
        exact TaskViews.change_some hview
      rw [h.changed_iff (c.1.engine.object task) ho hregistered ?_ ?_ hafter, mirrors_iff hcount]
      · exact ⟨fun hstatus _ => hstatus.1, fun hstatus => ⟨hstatus haccepts, rfl⟩⟩
      · rw [hsystem]
        rfl
      · rw [hsystem]
        exact (Function.update_eq_self _ _).symm
    · rw [if_neg (show ¬ popped.Accepts task from haccepts)] at hkinds
      refine iff_of_true (h.untouched ?_ ?_ ?_) fun hnow => absurd hnow haccepts
      · rw [hsystem]
        rfl
      · rw [hsystem]
        rfl
      · rw [taskViews_append, hkinds]
        rfl

omit [SchedulingPolicy P] [FloatArith] in
/-- A started attempt is told before the task is RUNNING. -/
theorem start (h : LiveRecovered c) (ho : c.1.Orderly) (hstore : env.Recording)
    (workerId : String) :
    LiveRecovered ({ c.1 with engine := (c.1.engine.start env workerId).system },
      c.2 ++ (c.1.engine.start env workerId).notes) := by
  cases hoffered : c.1.engine.offered workerId with
  | none =>
    rw [RuntimeEngine.start_idle hoffered, List.append_nil]
    exact h
  | some task =>
    have hregistered := ho.held task (RuntimeEngine.mem_custody_of_offered hoffered)
    obtain ⟨hslot, rest, hpool⟩ := RuntimeEngine.offered_eq_some.mp hoffered
    obtain ⟨count, hcount, hview⟩ := h task.id task hregistered
    have hkinds := RuntimeEngine.kinds_start hstore hoffered
    have hstart := RuntimeEngine.start_reliable hstore.reliable hslot hpool
    have hafter : taskViews (c.2 ++ (c.1.engine.start env workerId).notes) =
        Function.update (taskViews c.2) task.id (some (TaskStatus.running.value, count)) := by
      rw [taskViews_append, hkinds]
      exact TaskViews.change_some hview
    refine (h.changed_iff { c.1.engine.object task with status := .running } ho hregistered
      ?_ ?_ hafter).mpr ⟨count, hcount, rfl⟩
    · rw [hstart]
      rfl
    · rw [hstart]
      rfl

omit [SchedulingPolicy P] [FloatArith] in
/-- The report of a timeout says nothing of the retries. -/
theorem views_reported {views : TaskViews} {status : String} {count : ℤ}
    {reported : List EventKind} (hview : views task.id = some (status, count))
    (hreported : reported = [] ∨
      ∃ seconds, reported = [.taskTimedOut task.id, .timeoutTriggered task.id seconds]) :
    ∃ told, reported.foldl TaskViews.apply views =
      Function.update views task.id (some (told, count)) := by
  rcases hreported with rfl | ⟨seconds, rfl⟩
  · refine ⟨status, ?_⟩
    rw [← hview, Function.update_eq_self]
    rfl
  · exact ⟨TaskStatus.failed.value, TaskViews.change_some hview⟩

/-- A failure is told by its outcome. A retry whose delay cannot be computed is not told. -/
theorem fail_iff (h : LiveRecovered c) (ho : c.1.Orderly) (hstore : env.Recording)
    {action : Action} {error : Raised}
    (hfailing : c.1.engine.failing env action = some (task, error)) :
    LiveRecovered ({ c.1 with engine := (c.1.engine.perform env action).system },
        c.2 ++ (c.1.engine.perform env action).notes) ↔
      ∀ computed ∈ c.1.engine.retryDelay task error, computed.isOk = true := by
  have hregistered := ho.held task (RuntimeEngine.mem_custody_of_failing hfailing)
  obtain ⟨count, hcount, hview⟩ := h task.id task hregistered
  obtain ⟨workers, reported, hsystem, hkinds, hreported⟩ :=
    RuntimeEngine.failing_perform hstore hfailing
  have hfailed : (c.1.engine.setStatus task .failed).countFailed.object task =
      { c.1.engine.object task with status := .failed } :=
    c.1.engine.object_setObject_self rfl _
  let retried := RetryEngine.retried { c.1.engine.object task with status := .failed } (count + 1)
  have hretried : retried.metadata.retryCount = .ok (count + 1) :=
    Metadata.retryCount_setRetryCount _ _
  obtain ⟨status, hstatus⟩ := views_reported hview hreported
  have hviews : taskViews (c.2 ++ (c.1.engine.perform env action).notes) =
      (kinds ((c.1.engine.setStatus task .failed).countFailed.handleTaskFailure env task
        error).notes).foldl TaskViews.apply
          (Function.update (taskViews c.2) task.id (some (status, count))) := by
    rw [taskViews_append, hkinds, List.foldl_append, hstatus]
  have hdelay := RuntimeEngine.retryDelay_failed c.1.engine task error
  obtain ⟨hnone, hsame, htold⟩ | ⟨other, e, hother, herror, hset, htold⟩ |
      ⟨other, delay, hother, hsome, hadd, htold⟩ :=
    RuntimeEngine.handleTaskFailure_recorded hstore
      (c.1.engine.setStatus task .failed).countFailed task error
  · rw [← hdelay, hnone, hsystem, hsame]
    refine iff_of_true ?_ (by simp)
    obtain htold | ⟨-, e, hnocount⟩ := htold
    · rw [htold] at hviews
      rw [h.changed_iff { c.1.engine.object task with status := .failed } ho hregistered ?_ ?_
        (hviews.trans (TaskViews.change_update _ _ _ _))]
      · exact ⟨count, hcount, rfl⟩
      · rfl
      · rfl
    · rw [hfailed] at hnocount
      cases hcount.symm.trans hnocount
  · rw [hfailed] at hother hset
    obtain rfl := Except.ok.inj (hcount.symm.trans hother)
    rw [htold] at hviews
    rw [← hdelay, herror, hsystem, hset, h.changed_iff retried ho hregistered ?_ ?_ hviews]
    · refine iff_of_false ?_ fun hok => absurd (hok _ rfl) Bool.false_ne_true
      rintro ⟨live, hlive, hsame⟩
      cases hretried.symm.trans hlive
      exact absurd (congrArg Prod.snd (Option.some.inj hsame)) (Int.lt_succ count).ne
    · rfl
    · exact Function.update_idem _ _ _
  · rw [hfailed] at hother hadd htold
    obtain rfl := Except.ok.inj (hcount.symm.trans hother)
    obtain ⟨queue, tracker, hsame⟩ := RuntimeEngine.system_addDelayedTask
      ((c.1.engine.setStatus task .failed).countFailed.setObject task retried) env task delay
    have hpending : taskViews (c.2 ++ (c.1.engine.perform env action).notes) =
        Function.update (taskViews c.2) task.id
          (some (TaskStatus.pending.value, count + 1)) := by
      rw [hviews, htold, RuntimeEngine.kinds_addDelayedTask hstore, List.foldl_append]
      split
      · exact Eq.trans (congrArg (TaskViews.change · task.id _)
          (TaskViews.change_update _ _ _ _)) (TaskViews.change_update _ _ _ _)
      · exact TaskViews.change_update _ _ _ _
    rw [← hdelay, hsome, hsystem, hadd, hsame, h.changed_iff retried ho hregistered ?_ ?_ hpending]
    · refine iff_of_true ⟨count + 1, hretried, rfl⟩ ?_
      intro computed hcomputed
      cases hcomputed
      rfl
    · rfl
    · exact Function.update_idem _ _ _

/-- An attempt that ends well is told as completed, whatever its task has become. -/
theorem conclude_iff (h : LiveRecovered c) (ho : c.1.Orderly) (hstore : env.Recording)
    (workerId : String) :
    LiveRecovered ({ c.1 with engine := (c.1.engine.conclude env workerId (.ok ())).system },
        c.2 ++ (c.1.engine.conclude env workerId (.ok ())).notes) ↔
      ∀ task ∈ c.1.engine.attempted workerId, (c.1.engine.object task).status ≠ .failed := by
  have hsucceeds : c.1.engine.failing env (.conclude workerId (.ok ())) = none := rfl
  obtain ⟨hnone, hidle⟩ | ⟨attempt, hslot, -, hsystem, hkinds⟩ :=
    RuntimeEngine.conclude_recorded hstore hsucceeds
  · rw [hnone, hidle, List.append_nil]
    exact iff_of_true h (by simp)
  · have hregistered := ho.held _ (RuntimeEngine.mem_custody_of_executing hslot)
    obtain ⟨count, hcount, hview⟩ := h _ _ hregistered
    have hattempted : c.1.engine.attempted workerId = some attempt.task := by
      rw [RuntimeEngine.attempted, hslot]
      rfl
    have hafter : taskViews (c.2 ++ (c.1.engine.conclude env workerId (.ok ())).notes) =
        Function.update (taskViews c.2) attempt.task.id
          (some (TaskStatus.completed.value, count)) := by
      rw [taskViews_append, hkinds]
      exact TaskViews.change_some hview
    simp only [hattempted, Option.mem_some_iff, forall_eq']
    by_cases hfailed : (c.1.engine.object attempt.task).status = .failed
    · rw [h.changed_iff (c.1.engine.object attempt.task) ho hregistered ?_ ?_ hafter,
        mirrors_iff hcount]
      · refine iff_of_false ?_ (not_not.mpr hfailed)
        rintro ⟨hcompleted, -⟩
        cases hfailed.symm.trans hcompleted
      · rw [hsystem, RuntimeEngine.settle, if_pos hfailed]
        rfl
      · rw [hsystem, RuntimeEngine.settle, if_pos hfailed]
        exact (Function.update_eq_self _ _).symm
    · rw [h.changed_iff { c.1.engine.object attempt.task with status := .completed } ho
        hregistered ?_ ?_ hafter]
      · exact iff_of_true ⟨count, hcount, rfl⟩ hfailed
      · rw [hsystem, RuntimeEngine.settle, if_neg hfailed]
        rfl
      · rw [hsystem, RuntimeEngine.settle, if_neg hfailed]
        rfl

/-- A task that is scheduled is PENDING, queued or not. -/
theorem taskViews_submitTask (hstore : env.Recording) (sys : RuntimeEngine P) (notes : List Note)
    (task : TaskHandle) (title : String) (taskType : TaskType) (metadata : Metadata)
    (admission : Admission) (delay : Number) (hnew : ¬ sys.taskManager.contains task.id = true) :
    taskViews (notes ++ (sys.submitTask env task title taskType metadata admission delay).notes) =
      Function.update (taskViews notes) task.id (some (TaskStatus.pending.value, 0)) := by
  rw [taskViews_append, RuntimeEngine.kinds_submitTask hstore, if_neg hnew,
    RuntimeEngine.kinds_schedule hstore]
  split
  · unfold RuntimeEngine.routed
    split
    · rfl
    · split
      · exact TaskViews.change_update _ _ _ _
      · rfl
  · rfl

/-- A task that is submitted is recovered without retries. -/
theorem submitTask_iff (h : LiveRecovered c) (ho : c.1.Orderly) (hstore : env.Recording)
    (taskId : String) (task : Submission) (delay : Number) :
    LiveRecovered ((c.1.submitTask env taskId task delay).runtime,
        c.2 ++ (c.1.submitTask env taskId task delay).notes) ↔
      (isBlank task.title = false → c.1.engine.taskManager.contains taskId = false →
        (c.1.admission task task.metadata).1.retryCount = .ok 0) := by
  by_cases hblank : isBlank task.title = true
  · rw [Runtime.submitTask_blank hblank, List.append_nil]
    exact iff_of_true h fun hvisible => absurd (hblank.symm.trans hvisible) (by simp)
  have hvisible := Bool.eq_false_of_not_eq_true hblank
  rw [Runtime.submitTask_visible hvisible]
  by_cases hknown : c.1.engine.taskManager.contains taskId = true
  · rw [RuntimeEngine.submitTask, if_pos hknown, List.append_nil]
    exact iff_of_true h fun _ hunknown => absurd (hknown.symm.trans hunknown) (by simp)
  let handle : TaskHandle := ⟨c.1.created, taskId⟩
  let object : TaskObject := { metadata := (c.1.admission task task.metadata).1 }
  obtain ⟨queue, tracker, hsystem⟩ := RuntimeEngine.system_submitTask_fresh hstore.reliable
    c.1.engine handle task.title task.taskType task.metadata (c.1.admission task) delay hknown
  have hviews := taskViews_submitTask hstore c.1.engine c.2 handle task.title
    task.taskType task.metadata (c.1.admission task) delay hknown
  have hmirrors : Mirrors (some (TaskStatus.pending.value, 0)) object ↔
      object.metadata.retryCount = .ok 0 := by
    constructor
    · rintro ⟨count, hcount, hsame⟩
      cases Option.some.inj hsame
      exact hcount
    · intro hcount
      exact ⟨0, hcount, rfl⟩
  rw [h.registered_iff object ho (show c.1.created ≤ handle.ref from le_rfl) ?_ ?_ hviews,
    hmirrors]
  · refine ⟨fun hcount _ _ => hcount, fun hcount => hcount ?_ ?_⟩
    · exact hvisible
    · exact Bool.eq_false_of_not_eq_true hknown
  · exact congrArg RuntimeEngine.taskManager hsystem
  · exact congrArg RuntimeEngine.objects hsystem

omit [SchedulingPolicy P] [FloatArith] in
theorem taskViews_dequeued (notes : List Note) (taken : List TaskHandle) :
    (taken.map fun task => EventKind.taskDequeued task.id).foldl TaskViews.apply
      (taskViews notes) = taskViews notes := by
  induction taken with
  | nil => rfl
  | cons task rest ih => exact ih

theorem work_iff (h : LiveRecovered c) (ho : c.1.Orderly) (hstore : env.Recording)
    {action : Action} (hinternal : action.internal = true) :
    LiveRecovered ({ c.1 with engine := (c.1.engine.perform env action).system },
        c.2 ++ (c.1.engine.perform env action).notes) ↔ c.1.engine.StatusTold env action := by
  cases action with
  | schedule => cases hinternal
  | submitTask => cases hinternal
  | release => exact h.release_iff ho hstore
  | dispatch =>
    obtain ⟨queue, pool, hsystem⟩ := c.1.engine.system_dispatch env
    obtain ⟨taken, -, hkinds⟩ := RuntimeEngine.kinds_dispatch hstore c.1.engine
    refine iff_of_true (h.untouched ?_ ?_ ?_)
      (RuntimeEngine.statusTold_of_quiet rfl (by simp) (by simp))
    · rw [RuntimeEngine.perform, hsystem]
    · rw [RuntimeEngine.perform, hsystem]
    · rw [taskViews_append, RuntimeEngine.perform, hkinds, taskViews_dequeued]
  | start workerId =>
    exact iff_of_true (h.start ho hstore workerId)
      (RuntimeEngine.statusTold_of_quiet rfl (by simp) (by simp))
  | conclude workerId result =>
    cases result with
    | ok _ => exact h.conclude_iff ho hstore workerId
    | error e =>
      cases hfailing : c.1.engine.failing env (.conclude workerId (.error e)) with
      | some failed =>
        dsimp only [RuntimeEngine.StatusTold]
        rw [hfailing, h.fail_iff ho hstore hfailing]
        simp only [Option.mem_some_iff, forall_eq']
      | none =>
        obtain ⟨-, hidle⟩ | ⟨attempt, -, hresult, -⟩ :=
          RuntimeEngine.conclude_recorded hstore hfailing
        · rw [RuntimeEngine.perform, hidle, List.append_nil]
          exact iff_of_true h (RuntimeEngine.statusTold_of_quiet hfailing (by simp) (by simp))
        · cases hresult
  | timeout workerId =>
    cases hfailing : c.1.engine.failing env (.timeout workerId) with
    | some failed =>
      dsimp only [RuntimeEngine.StatusTold]
      rw [hfailing, h.fail_iff ho hstore hfailing]
      simp only [Option.mem_some_iff, forall_eq']
    | none =>
      have hidle := RuntimeEngine.timeout_idle (Option.map_eq_none_iff.mp hfailing)
      rw [RuntimeEngine.perform, hidle, List.append_nil]
      exact iff_of_true h (RuntimeEngine.statusTold_of_quiet hfailing (by simp) (by simp))
  | respawn workerId =>
    obtain ⟨workers, hsystem⟩ := c.1.engine.system_respawn env workerId
    refine iff_of_true (h.untouched ?_ ?_ ?_)
      (RuntimeEngine.statusTold_of_quiet rfl (by simp) (by simp))
    · rw [RuntimeEngine.perform, hsystem]
    · rw [RuntimeEngine.perform, hsystem]
    · rw [taskViews_append, RuntimeEngine.perform, RuntimeEngine.kinds_respawn hstore]
      split <;> rfl

theorem step_iff (h : LiveRecovered c) (ho : c.1.Orderly) {a : StepEnv × RuntimeAction}
    (hstore : a.1.Recording) :
    LiveRecovered (Machine.advance Runtime.step c a) ↔ StatusKept c a := by
  obtain ⟨env, action⟩ := a
  cases action with
  | submitTask taskId task delay => exact h.submitTask_iff ho hstore taskId task delay
  | work action => exact h.work_iff ho hstore action.2

end LiveRecovered

end Steps

section Runs

variable {P : Type}

/-- The recovered state has the status and the number of retries of each task. -/
def Runtime.RecoveredAs (rt : Runtime P) (state : RuntimeState) : Prop :=
  ∀ taskId task, rt.engine.taskManager.get? taskId = some task →
    ∃ recovered, state.tasks.get? taskId = some recovered ∧
      recovered.status = (rt.engine.object task).status.value ∧
      (rt.engine.object task).metadata.retryCount = .ok recovered.retryCount

theorem recoveredAs_iff {rt : Runtime P} {notes : List Note} {state : RuntimeState}
    (hviews : viewed state.tasks.get? = taskViews notes) :
    rt.RecoveredAs state ↔ LiveRecovered (rt, notes) := by
  refine forall_congr' fun taskId => forall_congr' fun task => imp_congr_right fun _ => ?_
  rw [Mirrors, ← hviews, viewed]
  constructor
  · rintro ⟨recovered, hget, hstatus, hcount⟩
    refine ⟨recovered.retryCount, hcount, ?_⟩
    rw [hget, ← hstatus]
    rfl
  · rintro ⟨count, hcount, hview⟩
    obtain ⟨recovered, hget, hsame⟩ := Option.map_eq_some_iff.mp hview
    obtain ⟨hstatus, rfl⟩ := Prod.mk.inj hsame
    exact ⟨recovered, hget, hstatus, hcount⟩

variable [SchedulingPolicy P] [FloatArith]

omit [FloatArith] in
theorem Runtime.orderly_create (controller : Option AdmissionController) (maxSize : Option ℤ)
    (poolSize : ℕ) : (create controller maxSize poolSize : Runtime P).Orderly where
  keyed _ _ := nofun
  created _ _ := nofun
  apart _ _ _ _ := nofun
  held task htask := by
    rw [create, RuntimeEngine.custody_create] at htask
    exact absurd htask (Multiset.notMem_zero task)

/-- In every state of a run a recovery gives each task the status and the number of
retries of its object, exactly when each step meets the condition. -/
theorem status_recovered_iff (controller : Option AdmissionController) (maxSize : Option ℤ)
    (poolSize : ℕ) (actions : List (StepEnv × RuntimeAction))
    (hrecording : ∀ a ∈ actions, a.1.Recording) (store : StateStore)
    (hlog : store.eventStore.events =
      journal (Runtime.run controller maxSize poolSize actions : Runtime P × _).2)
    (hbounded : store.eventStore.events.length ≤ 100000) (clock : Clock) :
    (∀ before, before <+: actions → ∀ earlier : StateStore, earlier.eventStore.events =
        journal (Runtime.run controller maxSize poolSize before : Runtime P × _).2 →
      ∃ state, recoveredState earlier .fromGenesis clock = .ok state ∧
        (Runtime.run controller maxSize poolSize before : Runtime P × List Note).1.RecoveredAs
          state) ↔
    Machine.Along Runtime.step StatusKept actions
      ((Runtime.create controller maxSize poolSize : Runtime P), []) := by
  have hstart : LiveRecovered ((Runtime.create controller maxSize poolSize : Runtime P), []) := by
    intro taskId task hget
    cases hget
  have hrun := Machine.forall_prefix_iff_along_among (P := StatusKept)
    (fun c : Runtime P × List Note => c.1.Orderly ∧ LiveRecovered c) LiveRecovered
    (fun _ h => h.2) (fun c a ha h hkept => ⟨h.1.advance a, (h.2.step_iff h.1 ha).mpr hkept⟩)
    (fun c a ha h => (h.2.step_iff h.1 ha).mp) hrecording
    ⟨Runtime.orderly_create controller maxSize poolSize, hstart⟩
  refine (forall_recovered_iff hlog hbounded clock (R := Runtime.RecoveredAs) ?_).trans hrun
  intro s notes state _ hviews
  exact recoveredAs_iff hviews

end Runs

section Samples

/-- A plugin that lets a task be retried once and end after ten seconds. -/
def attachPolicies : AdmissionPlugin := fun task =>
  ({ task with metadata := { task.metadata with
    retryPolicy := some { maxRetries := 1 }
    timeoutPolicy := some { timeoutSeconds := 10 } } }, .ok ())

/-- A timeout of the first attempt, a retry after a second, and the end of the second. -/
def retriedSteps (late : List (StepEnv × RuntimeAction)) : List (StepEnv × RuntimeAction) :=
  [(.recording "t0" 0, .submitTask "a" { title := "job" } (.finite 0)),
    (.recording "t1" 1, .work ⟨.dispatch, rfl⟩),
    (.recording "t1" 1, .work ⟨.start "W-001", rfl⟩),
    (.recording "t12" 12, .work ⟨.timeout "W-001", rfl⟩)] ++ late ++
  [(.recording "t13" 13, .work ⟨.release, rfl⟩), (.recording "t13" 13, .work ⟨.dispatch, rfl⟩),
    (.recording "t13" 13, .work ⟨.start "W-002", rfl⟩),
    (.recording "t14" 14, .work ⟨.conclude "W-002" (.ok ()), rfl⟩)]

theorem status_recovered_retried :
    let _ : FloatArith := .exact
    ∀ before, before <+: retriedSteps [] → ∀ earlier : StateStore, earlier.eventStore.events =
        journal (Runtime.run (some [attachPolicies]) none 2 before : Runtime FIFOPolicy × _).2 →
      ∃ state, recoveredState earlier .fromGenesis noClock = .ok state ∧
        (Runtime.run (some [attachPolicies]) none 2 before :
          Runtime FIFOPolicy × List Note).1.RecoveredAs state :=
  (@status_recovered_iff FIFOPolicy _ .exact (some [attachPolicies]) none 2 (retriedSteps [])
    (by simp [retriedSteps, StepEnv.Recording, StepEnv.recording])
    { eventStore := ⟨journal (@Runtime.run FIFOPolicy _ .exact (some [attachPolicies]) none 2
      (retriedSteps [])).2, by decide +kernel⟩ } rfl (by decide +kernel) noClock).mpr
    (by decide +kernel)

/-- The first attempt ends well after its timeout, and the task is queued again. -/
theorem status_recovered_late_success :
    let _ : FloatArith := .exact
    let late := [(.recording "t12" 12, .work ⟨.conclude "W-001" (.ok ()), rfl⟩)]
    let queued := (Runtime.run (some [attachPolicies]) none 2 ((retriedSteps late).take 6) :
      Runtime FIFOPolicy × List Note)
    let store : StateStore := { eventStore := ⟨journal queued.2, by decide +kernel⟩ }
    ∃ state, recoveredState store .fromGenesis noClock = .ok state ∧
      (state.tasks.get? "a").map taskView = some ("Pending", 1) ∧
      queued.1.engine.taskManager.get? "a" = some ⟨0, "a"⟩ ∧
      (queued.1.engine.object ⟨0, "a"⟩).status = .completed ∧ ¬ queued.1.RecoveredAs state := by
  intro _ late queued store
  obtain ⟨state, hstate, -, hviews⟩ := recovered_journal
    (show store.eventStore.events = journal queued.2 from rfl) (by decide +kernel) noClock
  have hview : (state.tasks.get? "a").map taskView = some ("Pending", 1) :=
    (congrFun hviews "a").trans (by decide +kernel)
  have hget : queued.1.engine.taskManager.get? "a" = some ⟨0, "a"⟩ := by
    decide +kernel
  have hstatus : (queued.1.engine.object ⟨0, "a"⟩).status = .completed := by
    decide +kernel
  refine ⟨state, hstate, hview, hget, hstatus, fun hsame => ?_⟩
  obtain ⟨recovered, hfound, hrecovered, -⟩ := hsame "a" _ hget
  rw [hstatus] at hrecovered
  rw [hfound] at hview
  have htwo : TaskStatus.completed.value = "Pending" :=
    hrecovered.symm.trans (congrArg Prod.fst (Option.some.inj hview))
  exact absurd htwo (by decide)

end Samples

end MollisRuntime.Scheduling
