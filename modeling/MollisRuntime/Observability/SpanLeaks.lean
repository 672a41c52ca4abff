import Mathlib.Data.List.Induction
import MollisRuntime.Observability.Subscriber

/-!
The spans of the tasks of a scheduler. An attempt that is retried has no event of its
own that ends it, and the span of the next attempt takes its place as the open span of
the task; nothing ends the first one any more.
-/
namespace MollisRuntime.Observability

open Ordered Python

/-- Where a task is in its events; `again` says whether it was started more than once. -/
inductive Phase
  | unstarted
  | running (again : Bool)
  | retried (again : Bool)
  | scheduled (again : Bool)
  | ended (again : Bool)
  deriving DecidableEq

namespace Phase

def starts : Phase → Option Phase
  | .unstarted => some (.running false)
  | .scheduled _ => some (.running true)
  | _ => none

def retries : Phase → Option Phase
  | .running again => some (.retried again)
  | _ => none

def schedules : Phase → Option Phase
  | .retried again => some (.scheduled again)
  | _ => none

def ends : Phase → Option Phase
  | .running again => some (.ended again)
  | _ => none

/-- The events of the scheduler for a task: each attempt is completed, failed for good,
or retried and scheduled before the next one; none is cancelled or times out. -/
def next (taskId : String) (e : BusEvent) (p : Phase) : Option Phase :=
  match e.kind with
  | .taskStarted id => if id = taskId then p.starts else some p
  | .taskCompleted id => if id = taskId then p.ends else some p
  | .taskFailed id _ => if id = taskId then p.ends else some p
  | .taskRetried id _ => if id = taskId then p.retries else some p
  | .retryScheduled id _ => if id = taskId then p.schedules else some p
  | .taskCancelled id => if id = taskId then none else some p
  | .taskTimedOut id => if id = taskId then none else some p
  | _ => some p

/-- The task has been started and is not over. -/
def opened : Phase → Bool
  | .running _ => true
  | .retried _ => true
  | .scheduled _ => true
  | _ => false

def again : Phase → Bool
  | .unstarted => false
  | .running again => again
  | .retried again => again
  | .scheduled again => again
  | .ended again => again

end Phase

/-- The phase of a task after the events, if they come as the scheduler appends them. -/
def phase (events : List BusEvent) (taskId : String) : Option Phase :=
  events.foldl (fun p e => p.bind (Phase.next taskId e)) (some .unstarted)

/-- Events in an order in which the scheduler can append them for its tasks. -/
structure SchedulerEvents where
  events : List BusEvent
  lawful : ∀ taskId, phase events taskId ≠ none

/-- The task has had its TaskCompleted or TaskFailed event. -/
def Finished (events : List BusEvent) (taskId : String) : Prop :=
  ∃ e ∈ events, e.kind = .taskCompleted taskId ∨ ∃ message, e.kind = .taskFailed taskId message

def Retried (events : List BusEvent) (taskId : String) : Prop :=
  ∃ e ∈ events, ∃ count, e.kind = .taskRetried taskId count

/-- The subscriber after the events. -/
def handled (env : TracingEnv) (events : List BusEvent) : ObservabilitySubscriber :=
  events.foldl (·.handle env ·) {}

/-- A span of the task has been started and not ended. -/
def Unended (s : ObservabilitySubscriber) (taskId id : String) : Prop :=
  ∃ span, s.thread.tracer.spans.get? id = some span ∧ span.name = spanName taskId ∧
    span.endTime = none

/-- Whenever a task has finished, every span that was started for it has been ended. -/
def NoLeak (env : TracingEnv) (events : List BusEvent) : Prop :=
  ∀ before, before <+: events → ∀ taskId, Finished before taskId →
    ∀ id, ¬ Unended (handled env before) taskId id

namespace Phase

variable {taskId : String} {e : BusEvent} {p q : Phase}

theorem next_of_opens {id : String} (h : ObservabilitySubscriber.opens e = some id) :
    p.next taskId e = if id = taskId then p.starts else some p := by
  obtain ⟨⟨kind, timestamp, metadata⟩, correlationId, causationId⟩ := e
  cases kind <;> cases h
  rfl

theorem next_of_closes {id : String} (h : ObservabilitySubscriber.closes e = some id)
    (hnext : p.next taskId e = some q) : if id = taskId then p.ends = some q else q = p := by
  obtain ⟨⟨kind, timestamp, metadata⟩, correlationId, causationId⟩ := e
  cases kind <;> cases h
  all_goals
    unfold next at hnext
    dsimp only at hnext
    split at hnext
    next heq =>
      rw [if_pos heq]
      first
        | exact hnext
        | cases hnext
    next hne =>
      rw [if_neg hne]
      exact (Option.some.inj hnext).symm

theorem next_of_neither (hopens : ObservabilitySubscriber.opens e = none)
    (hcloses : ObservabilitySubscriber.closes e = none) (hnext : p.next taskId e = some q) :
    q.opened = p.opened ∧ q.again = p.again := by
  obtain ⟨⟨kind, timestamp, metadata⟩, correlationId, causationId⟩ := e
  cases kind with
  | taskStarted id => cases hopens
  | taskCompleted id => cases hcloses
  | taskFailed id message => cases hcloses
  | taskCancelled id => cases hcloses
  | taskTimedOut id => cases hcloses
  | taskRetried id count =>
    rw [next] at hnext
    dsimp only at hnext
    split at hnext
    · cases p <;> cases hnext
      exact ⟨rfl, rfl⟩
    · obtain rfl := Option.some.inj hnext
      exact ⟨rfl, rfl⟩
  | retryScheduled id delay =>
    rw [next] at hnext
    dsimp only at hnext
    split at hnext
    · cases p <;> cases hnext
      exact ⟨rfl, rfl⟩
    · obtain rfl := Option.some.inj hnext
      exact ⟨rfl, rfl⟩
  | _ =>
    obtain rfl := Option.some.inj hnext
    exact ⟨rfl, rfl⟩

def isOver : Phase → Bool
  | .ended _ => true
  | _ => false

def wasRetried : Phase → Bool
  | .retried _ => true
  | .scheduled _ => true
  | p => p.again

/-- A task is over with its TaskCompleted or TaskFailed event, and was retried with a
TaskRetried event. -/
theorem marks_next (hnext : p.next taskId e = some q) :
    (q.isOver = true ↔ p.isOver = true ∨ e.kind = .taskCompleted taskId ∨
      ∃ message, e.kind = .taskFailed taskId message) ∧
    (q.wasRetried = true ↔ p.wasRetried = true ∨ ∃ count, e.kind = .taskRetried taskId count) := by
  obtain ⟨⟨kind, timestamp, metadata⟩, correlationId, causationId⟩ := e
  cases kind
  all_goals
    unfold next at hnext
    dsimp only at hnext
    try split at hnext
  -- for the task itself by its phase, for other tasks and events nothing changes
  any_goals
    rename_i heq
    subst heq
    cases p <;> cases hnext <;> simp [isOver, wasRetried, again]
  all_goals
    obtain rfl := Option.some.inj hnext
    simp_all

end Phase

section Phases

variable {events : List BusEvent} {taskId : String}

theorem phase_append (events : List BusEvent) (e : BusEvent) (taskId : String) :
    phase (events ++ [e]) taskId = (phase events taskId).bind (Phase.next taskId e) := by
  rw [phase, List.foldl_append]
  rfl

theorem phase_of_opens {e : BusEvent} {started : String} {p : Phase}
    (hopens : ObservabilitySubscriber.opens e = some started)
    (hp : phase (events ++ [e]) taskId = some p) : ∃ before, phase events taskId = some before ∧
      (if started = taskId then before.starts else some before) = some p := by
  rw [phase_append] at hp
  obtain ⟨before, hbefore, hnext⟩ := Option.bind_eq_some_iff.mp hp
  rw [Phase.next_of_opens hopens] at hnext
  exact ⟨before, hbefore, hnext⟩

theorem phase_of_closes {e : BusEvent} {closed : String} {p : Phase}
    (hcloses : ObservabilitySubscriber.closes e = some closed)
    (hp : phase (events ++ [e]) taskId = some p) : ∃ before, phase events taskId = some before ∧
      if closed = taskId then before.ends = some p else p = before := by
  rw [phase_append] at hp
  obtain ⟨before, hbefore, hnext⟩ := Option.bind_eq_some_iff.mp hp
  exact ⟨before, hbefore, Phase.next_of_closes hcloses hnext⟩

theorem phase_of_neither {e : BusEvent} {p : Phase}
    (hopens : ObservabilitySubscriber.opens e = none)
    (hcloses : ObservabilitySubscriber.closes e = none)
    (hp : phase (events ++ [e]) taskId = some p) : ∃ before, phase events taskId = some before ∧
      p.opened = before.opened ∧ p.again = before.again := by
  rw [phase_append] at hp
  obtain ⟨before, hbefore, hnext⟩ := Option.bind_eq_some_iff.mp hp
  exact ⟨before, hbefore, Phase.next_of_neither hopens hcloses hnext⟩

/-- What the phase says about the events so far. -/
theorem marks_phase {p : Phase} (h : phase events taskId = some p) :
    (p.isOver = true ↔ Finished events taskId) ∧ (p.wasRetried = true ↔ Retried events taskId) := by
  induction events using List.reverseRecOn generalizing p with
  | nil =>
    obtain rfl := Option.some.inj h
    simp [Finished, Retried, Phase.isOver, Phase.wasRetried, Phase.again]
  | append_singleton events e ih =>
    rw [phase_append] at h
    obtain ⟨before, hbefore, hnext⟩ := Option.bind_eq_some_iff.mp h
    obtain ⟨hover, hretried⟩ := Phase.marks_next hnext
    obtain ⟨hover', hretried'⟩ := ih hbefore
    rw [hover, hretried, hover', hretried']
    simp only [Finished, Retried, List.mem_append, List.mem_singleton, or_and_right, exists_or,
      exists_eq_left, and_self]

end Phases

section Effects

variable {env : TracingEnv} {s : ObservabilitySubscriber} {taskId id : String}

theorem spanName_injective {t u : String} (h : spanName t = spanName u) : t = u :=
  (String.append_right_inj _).mp h

theorem Unended.task_eq {s : ObservabilitySubscriber} {t u id : String} (ht : Unended s t id)
    (hu : Unended s u id) : t = u := by
  obtain ⟨span, hspan, hname, -⟩ := ht
  obtain ⟨same, hsame, hname', -⟩ := hu
  obtain rfl := Option.some.inj (hspan.symm.trans hsame)
  exact spanName_injective (hname.symm.trans hname')

/-- A new span is not ended, and the others are as they were. -/
theorem unended_start {e : BusEvent} {started : String} (h : s.thread.Sound env) :
    Unended (s.start env e started) taskId id ↔
      started = taskId ∧
        id = (s.thread.newSpan env (ObservabilitySubscriber.spanArgs e started)).spanId ∨
      Unended s taskId id := by
  let newSpan := s.thread.newSpan env (ObservabilitySubscriber.spanArgs e started)
  have hget : (s.start env e started).thread.tracer.spans.get? id =
      if newSpan.spanId = id then some newSpan else s.thread.tracer.spans.get? id :=
    Thread.get?_startSpan _ _
  rw [Unended, hget]
  constructor
  · rintro ⟨span, hspan, hname, hend⟩
    split at hspan
    next heq =>
      obtain rfl := Option.some.inj hspan
      exact .inl ⟨spanName_injective hname, heq.symm⟩
    next => exact .inr ⟨span, hspan, hname, hend⟩
  · rintro (⟨rfl, rfl⟩ | ⟨span, hspan, hname, hend⟩)
    · exact ⟨newSpan, if_pos rfl, rfl, rfl⟩
    · refine ⟨span, (if_neg ?_).trans hspan, hname, hend⟩
      rintro rfl
      cases (h.fresh _).symm.trans hspan

/-- Ending the open span of a task ends no other span. -/
theorem unended_close {closed spanId : String} {metadata : Attrs} (h : s.thread.Sound env)
    (hopen : s.activeSpans.get? closed = some spanId) (hspan : Unended s closed spanId) :
    Unended (s.close env closed metadata) taskId id ↔ Unended s taskId id ∧ id ≠ spanId := by
  obtain ⟨open_, hrecorded, -, -⟩ := hspan
  obtain ⟨k, -, hk⟩ := h.minted spanId open_ hrecorded
  have hpresent : present (s.activeSpans.get? closed) = some spanId := by
    rw [hopen]
    exact present_of_ne (hk ▸ env.uuid_ne_empty k)
  have hget : (s.close env closed metadata).thread.tracer.spans.get? id =
      if spanId = id then some (s.thread.endedSpan env metadata open_)
      else s.thread.tracer.spans.get? id := by
    rw [ObservabilitySubscriber.close, hpresent]
    exact Thread.get?_endSpan hrecorded id
  rw [Unended, hget]
  constructor
  · rintro ⟨span, hspan, hname, hend⟩
    split at hspan
    next =>
      obtain rfl := Option.some.inj hspan
      cases hend
    next hne => exact ⟨⟨span, hspan, hname, hend⟩, fun heq => hne heq.symm⟩
  · rintro ⟨⟨span, hspan, hname, hend⟩, hne⟩
    exact ⟨span, (if_neg fun heq => hne heq.symm).trans hspan, hname, hend⟩

theorem sound_close (h : s.thread.Sound env) (closed : String) (metadata : Attrs) :
    (s.close env closed metadata).thread.Sound env := by
  unfold ObservabilitySubscriber.close
  dsimp only
  split
  · exact h
  · exact h.endSpan _ _

end Effects

/-- A span of the task that was not ended and is not the open one any more. -/
def Lost (s : ObservabilitySubscriber) (taskId : String) : Prop :=
  ∃ id, Unended s taskId id ∧ s.activeSpans.get? taskId ≠ some id

/-- With a new span for a task, all that were not ended before are lost. -/
theorem lost_start_self {env : TracingEnv} {s : ObservabilitySubscriber} {e : BusEvent}
    {taskId : String} (h : s.thread.Sound env) :
    Lost (s.start env e taskId) taskId ↔ ∃ id, Unended s taskId id := by
  have hactive : (s.start env e taskId).activeSpans.get? taskId =
      some (s.thread.newSpan env (ObservabilitySubscriber.spanArgs e taskId)).spanId :=
    (Dict.get?_set _ _ _ _).trans (if_pos rfl)
  rw [Lost, hactive]
  constructor
  · rintro ⟨id, hunended, hne⟩
    rcases (unended_start h).mp hunended with ⟨-, rfl⟩ | hold
    · exact absurd rfl hne
    · exact ⟨id, hold⟩
  · rintro ⟨id, hunended⟩
    refine ⟨id, (unended_start h).mpr (.inr hunended), fun heq => ?_⟩
    obtain ⟨span, hspan, -⟩ := hunended
    rw [← Option.some.inj heq, h.fresh] at hspan
    cases hspan

/-- The open span of a task is recorded and not ended, there is one from the first start
to the end, and a span is lost with the second start. -/
structure Tracks (env : TracingEnv) (events : List BusEvent) (s : ObservabilitySubscriber) :
    Prop where
  sound : s.thread.Sound env
  open_unended : ∀ taskId id, s.activeSpans.get? taskId = some id → Unended s taskId id
  opened : ∀ taskId p, phase events taskId = some p →
    ((s.activeSpans.get? taskId).isSome = true ↔ p.opened = true)
  lost : ∀ taskId p, phase events taskId = some p → (Lost s taskId ↔ p.again = true)

section Tracking

variable {env : TracingEnv} {events : List BusEvent} {s : ObservabilitySubscriber}

theorem tracks_new : Tracks env [] {} where
  sound := Thread.sound_new
  open_unended taskId id h := by cases h
  opened taskId p h := by
    obtain rfl := Option.some.inj h
    exact iff_of_false Bool.false_ne_true Bool.false_ne_true
  lost taskId p h := by
    obtain rfl := Option.some.inj h
    refine iff_of_false ?_ Bool.false_ne_true
    rintro ⟨id, ⟨span, hspan, -⟩, -⟩
    cases hspan

/-- A task that starts has a span that was not ended exactly when it was started before. -/
theorem Tracks.unended_iff_again {taskId : String} {before p : Phase} (h : Tracks env events s)
    (hbefore : phase events taskId = some before) (hstarts : before.starts = some p) :
    (∃ id, Unended s taskId id) ↔ p.again = true := by
  have hopened := h.opened taskId before hbefore
  have hlost := h.lost taskId before hbefore
  cases before with
  | unstarted =>
    cases hstarts
    refine iff_of_false ?_ Bool.false_ne_true
    rintro ⟨id, hunended⟩
    refine absurd (hlost.mp ⟨id, hunended, fun hget => ?_⟩) Bool.false_ne_true
    exact absurd (hopened.mp (hget ▸ rfl)) Bool.false_ne_true
  | scheduled again =>
    cases hstarts
    obtain ⟨id, hget⟩ := Option.isSome_iff_exists.mp (hopened.mpr rfl)
    exact iff_of_true ⟨id, h.open_unended taskId id hget⟩ rfl
  | running => cases hstarts
  | retried => cases hstarts
  | ended => cases hstarts

/-- The span that is started takes the place of the one that was open. -/
theorem Tracks.start {e : BusEvent} {started : String} (h : Tracks env events s)
    (hopens : ObservabilitySubscriber.opens e = some started) :
    Tracks env (events ++ [e]) (s.start env e started) := by
  have hactive (taskId : String) : (s.start env e started).activeSpans.get? taskId =
      if started = taskId then
        some (s.thread.newSpan env (ObservabilitySubscriber.spanArgs e started)).spanId
      else s.activeSpans.get? taskId := Dict.get?_set _ _ _ _
  refine ⟨h.sound.startSpan _, ?_, ?_, ?_⟩
  · intro taskId id hid
    rw [hactive] at hid
    rw [unended_start h.sound]
    split at hid
    next heq => exact .inl ⟨heq, (Option.some.inj hid).symm⟩
    next => exact .inr (h.open_unended taskId id hid)
  · intro taskId p hp
    obtain ⟨before, hbefore, hnext⟩ := phase_of_opens hopens hp
    rw [hactive]
    split at hnext
    next heq =>
      rw [if_pos heq]
      cases before <;> cases hnext <;> exact iff_of_true rfl rfl
    next hne =>
      obtain rfl := Option.some.inj hnext
      rw [if_neg hne]
      exact h.opened taskId before hbefore
  · intro taskId p hp
    obtain ⟨before, hbefore, hnext⟩ := phase_of_opens hopens hp
    split at hnext
    next heq =>
      subst heq
      rw [lost_start_self h.sound]
      exact h.unended_iff_again hbefore hnext
    next hne =>
      obtain rfl := Option.some.inj hnext
      rw [← h.lost taskId before hbefore, Lost, Lost, hactive, if_neg hne]
      simp only [unended_start h.sound, hne, false_and, false_or]

/-- The task that an event ends has an open span. -/
theorem Tracks.exists_open {e : BusEvent} {closed : String} (h : Tracks env events s)
    (hcloses : ObservabilitySubscriber.closes e = some closed)
    (hlawful : phase (events ++ [e]) closed ≠ none) :
    ∃ spanId, s.activeSpans.get? closed = some spanId := by
  obtain ⟨p, hp⟩ := Option.ne_none_iff_exists'.mp hlawful
  obtain ⟨before, hbefore, hends⟩ := phase_of_closes hcloses hp
  rw [if_pos rfl] at hends
  refine Option.isSome_iff_exists.mp ((h.opened closed before hbefore).mpr ?_)
  cases before <;> cases hends
  rfl

/-- The end of the open span loses none and leaves those of other tasks. -/
theorem Tracks.close {e : BusEvent} {closed : String} {metadata : Attrs}
    (h : Tracks env events s) (hcloses : ObservabilitySubscriber.closes e = some closed)
    (hlawful : phase (events ++ [e]) closed ≠ none) :
    Tracks env (events ++ [e]) (s.close env closed metadata) := by
  obtain ⟨spanId, hopen⟩ := h.exists_open hcloses hlawful
  have hspan : Unended s closed spanId := h.open_unended closed spanId hopen
  have hunended (taskId id : String) : Unended (s.close env closed metadata) taskId id ↔
      Unended s taskId id ∧ id ≠ spanId := unended_close h.sound hopen hspan
  have hother {taskId id : String} (hne : closed ≠ taskId) (hold : Unended s taskId id) :
      id ≠ spanId := by
    rintro rfl
    exact hne (hspan.task_eq hold)
  have hactive (taskId : String) : (s.close env closed metadata).activeSpans.get? taskId =
      if closed = taskId then none else s.activeSpans.get? taskId := Dict.get?_erase _ _ _
  refine ⟨sound_close h.sound closed metadata, ?_, ?_, ?_⟩
  · intro taskId id hid
    rw [hactive] at hid
    split at hid
    next => cases hid
    next hne =>
      have hold := h.open_unended taskId id hid
      exact (hunended taskId id).mpr ⟨hold, hother hne hold⟩
  · intro taskId p hp
    obtain ⟨before, hbefore, hends⟩ := phase_of_closes hcloses hp
    rw [hactive]
    split at hends
    next heq =>
      rw [if_pos heq]
      cases before <;> cases hends
      exact iff_of_false Bool.false_ne_true Bool.false_ne_true
    next hne =>
      rw [if_neg hne, hends]
      exact h.opened taskId before hbefore
  · intro taskId p hp
    obtain ⟨before, hbefore, hends⟩ := phase_of_closes hcloses hp
    rw [Lost, hactive]
    split at hends
    next heq =>
      subst heq
      have hagain : p.again = before.again := by
        cases before <;> cases hends
        rfl
      rw [hagain, ← h.lost closed before hbefore, Lost, hopen]
      refine exists_congr fun id => ?_
      rw [hunended, if_pos rfl, and_assoc]
      refine and_congr_right fun _ => ?_
      constructor
      · rintro ⟨hne, -⟩ heq
        exact hne (Option.some.inj heq).symm
      · exact fun hne => ⟨fun heq => hne (congrArg some heq.symm), (Option.some_ne_none id).symm⟩
    next hne =>
      rw [hends, ← h.lost taskId before hbefore, Lost]
      refine exists_congr fun id => ?_
      rw [hunended, if_neg hne, and_assoc]
      refine and_congr_right fun hold => ?_
      exact and_iff_right (hother hne hold)

theorem Tracks.neither {e : BusEvent} (h : Tracks env events s)
    (hopens : ObservabilitySubscriber.opens e = none)
    (hcloses : ObservabilitySubscriber.closes e = none) : Tracks env (events ++ [e]) s := by
  refine ⟨h.sound, h.open_unended, ?_, ?_⟩
  · intro taskId p hp
    obtain ⟨before, hbefore, hsame, -⟩ := phase_of_neither hopens hcloses hp
    rw [hsame]
    exact h.opened taskId before hbefore
  · intro taskId p hp
    obtain ⟨before, hbefore, -, hsame⟩ := phase_of_neither hopens hcloses hp
    rw [hsame]
    exact h.lost taskId before hbefore

theorem phase_of_append {e : BusEvent} {taskId : String}
    (h : phase (events ++ [e]) taskId ≠ none) : phase events taskId ≠ none := by
  intro hnone
  rw [phase_append, hnone] at h
  exact h rfl

theorem tracks_handled (hlawful : ∀ taskId, phase events taskId ≠ none) :
    Tracks env events (handled env events) := by
  induction events using List.reverseRecOn with
  | nil => exact tracks_new
  | append_singleton events e ih =>
    have h := ih fun taskId => phase_of_append (hlawful taskId)
    rw [handled, List.foldl_append]
    change Tracks env (events ++ [e]) ((handled env events).handle env e)
    rcases ObservabilitySubscriber.handle_cases env (handled env events) e with
      ⟨taskId, hopens, -, heq⟩ | ⟨taskId, metadata, -, hcloses, heq⟩ | ⟨hopens, hcloses, heq⟩
    · rw [heq]
      exact h.start hopens
    · rw [heq]
      exact h.close hcloses (hlawful taskId)
    · rw [heq]
      exact h.neither hopens hcloses

end Tracking

section Leaks

variable {env : TracingEnv} {events : List BusEvent} {taskId : String}

theorem phase_prefix {before : List BusEvent} (hinitial : before <+: events)
    (h : phase events taskId ≠ none) : phase before taskId ≠ none := by
  obtain ⟨after, rfl⟩ := hinitial
  induction after using List.reverseRecOn with
  | nil => rwa [List.append_nil] at h
  | append_singleton after e ih =>
    rw [← List.append_assoc] at h
    exact ih (phase_of_append h)

/-- A task that is over leaves a span behind exactly when it was retried. -/
theorem unended_iff_retried (hlawful : ∀ taskId, phase events taskId ≠ none)
    (hfinished : Finished events taskId) :
    (∃ id, Unended (handled env events) taskId id) ↔ Retried events taskId := by
  have h : Tracks env events (handled env events) := tracks_handled hlawful
  obtain ⟨p, hp⟩ := Option.ne_none_iff_exists'.mp (hlawful taskId)
  obtain ⟨hover, hretried⟩ := marks_phase hp
  cases p with
  | ended again =>
    have hnone : (handled env events).activeSpans.get? taskId = none := by
      cases hget : (handled env events).activeSpans.get? taskId with
      | none => rfl
      | some id => exact absurd ((h.opened taskId _ hp).mp (hget ▸ rfl)) Bool.false_ne_true
    rw [← hretried]
    refine Iff.trans (exists_congr fun id => ?_) (h.lost taskId _ hp)
    rw [hnone]
    exact (and_iff_left (Option.some_ne_none id).symm).symm
  | unstarted => exact absurd (hover.mpr hfinished) Bool.false_ne_true
  | running => exact absurd (hover.mpr hfinished) Bool.false_ne_true
  | retried => exact absurd (hover.mpr hfinished) Bool.false_ne_true
  | scheduled => exact absurd (hover.mpr hfinished) Bool.false_ne_true

/-- No span leaks exactly when no task that has finished was retried. -/
theorem noLeak_iff (env : TracingEnv) (p : SchedulerEvents) :
    NoLeak env p.events ↔ ∀ taskId, Finished p.events taskId → ¬ Retried p.events taskId := by
  constructor
  · intro hleak taskId hfinished hretried
    obtain ⟨id, hunended⟩ : ∃ id, Unended (handled env p.events) taskId id :=
      (unended_iff_retried p.lawful hfinished).mpr hretried
    exact hleak p.events (List.prefix_refl _) taskId hfinished id hunended
  · intro hnever before hinitial taskId hfinished id hunended
    have hretried := (unended_iff_retried (fun taskId => phase_prefix hinitial (p.lawful taskId))
      hfinished).mp ⟨id, hunended⟩
    obtain ⟨e, he, hends⟩ := hfinished
    obtain ⟨e', he', hretries⟩ := hretried
    exact hnever taskId ⟨e, hinitial.subset he, hends⟩ ⟨e', hinitial.subset he', hretries⟩

end Leaks

section Samples

def eventOf (kind : Persistence.EventKind) : BusEvent where
  kind
  timestamp := "2024-01-01T00:00:00"

/-- A task whose first attempt is retried and whose second one completes. -/
def retriedOnce : List BusEvent :=
  [eventOf (.taskStarted "a"), eventOf (.taskRetried "a" 1),
    eventOf (.retryScheduled "a" (.finite 1)), eventOf (.taskStarted "a"),
    eventOf (.taskCompleted "a")]

theorem retriedOnce_lawful (taskId : String) : phase retriedOnce taskId ≠ none := by
  by_cases htask : "a" = taskId
  · subst htask
    decide
  · simp [phase, retriedOnce, eventOf, Phase.next, htask]

/-- The span of the first attempt is never ended. -/
theorem retriedOnce_leaks : ¬ NoLeak TracingEnv.sample
    (SchedulerEvents.mk retriedOnce retriedOnce_lawful).events := by
  intro h
  refine h retriedOnce (List.prefix_refl _) "a" ⟨eventOf (.taskCompleted "a"), ?_, .inl rfl⟩ "u"
    ⟨_, rfl, rfl, rfl⟩
  exact List.mem_cons_of_mem _ (List.mem_cons_of_mem _ (List.mem_cons_of_mem _
    (List.mem_cons_of_mem _ (List.mem_singleton_self _))))

end Samples

end MollisRuntime.Observability
