import MollisRuntime.Library.Machine
import MollisRuntime.Observability.SpanContext
import MollisRuntime.Persistence.Events

/-!
ObservabilitySubscriber. A task that starts gets a span, in the trace of its workflow if
it has one; the parent of the span is whatever span is active in the thread. The events
that end a task end its span.
-/
namespace MollisRuntime.Observability

open Ordered Python

/-- An event as the bus hands it out, with the ids that spans take over. -/
structure BusEvent extends Persistence.RuntimeEvent where
  correlationId : Option String := none
  causationId : Option String := none

/-- The tracer as the thread of the subscriber sees it, and the open span of each task.
The health monitor and the metrics have no part in the spans. -/
structure ObservabilitySubscriber where
  thread : Thread := {}
  activeSpans : Dict String String := .empty

/-- The name of the spans of a task. -/
def spanName (taskId : String) : String := "ExecuteTask:" ++ taskId

namespace ObservabilitySubscriber

variable (env : TracingEnv)

def spanArgs (e : BusEvent) (taskId : String) : SpanArgs where
  name := spanName taskId
  correlationId := e.correlationId
  causationId := e.causationId
  traceId := e.workflowInstanceId

def start (e : BusEvent) (taskId : String) (s : ObservabilitySubscriber) :
    ObservabilitySubscriber where
  thread := s.thread.startSpan env (spanArgs e taskId)
  activeSpans := s.activeSpans.set taskId (s.thread.newSpan env (spanArgs e taskId)).spanId

/-- `self._active_spans.pop(event.task_id, None)`, and the end of that span. -/
def close (taskId : String) (metadata : Attrs) (s : ObservabilitySubscriber) :
    ObservabilitySubscriber where
  thread :=
    match present (s.activeSpans.get? taskId) with
    | none => s.thread
    | some spanId => s.thread.endSpan env spanId metadata
  activeSpans := s.activeSpans.erase taskId

def succeeded (e : BusEvent) : Attrs :=
  (Dict.empty.set "status" (.str "Succeeded")).set "result" e.result

def failed (e : BusEvent) : Attrs :=
  (Dict.empty.set "status" (.str "Failed")).set "error" ((e.metadata.get? "error").getD .none)

/-- `__call__` -/
def handle (s : ObservabilitySubscriber) (e : BusEvent) : ObservabilitySubscriber :=
  match e.kind with
  | .taskStarted taskId => s.start env e taskId
  | .taskCompleted taskId => s.close env taskId (succeeded e)
  | .taskFailed taskId _ => s.close env taskId (failed e)
  | .taskCancelled taskId => s.close env taskId (failed e)
  | .taskTimedOut taskId => s.close env taskId (failed e)
  | _ => s

def step (s : ObservabilitySubscriber) (e : BusEvent) : ObservabilitySubscriber × List Empty :=
  (s.handle env e, [])

/-- The task that an event starts a span for. -/
def opens (e : BusEvent) : Option String :=
  match e.kind with
  | .taskStarted taskId => some taskId
  | _ => none

/-- The task whose span an event ends. -/
def closes (e : BusEvent) : Option String :=
  match e.kind with
  | .taskCompleted taskId => some taskId
  | .taskFailed taskId _ => some taskId
  | .taskCancelled taskId => some taskId
  | .taskTimedOut taskId => some taskId
  | _ => none

/-- What an event does: it starts a span, ends one or does nothing. -/
theorem handle_cases (s : ObservabilitySubscriber) (e : BusEvent) :
    (∃ taskId, opens e = some taskId ∧ closes e = none ∧ s.handle env e = s.start env e taskId) ∨
      (∃ taskId metadata, opens e = none ∧ closes e = some taskId ∧
        s.handle env e = s.close env taskId metadata) ∨
      opens e = none ∧ closes e = none ∧ s.handle env e = s := by
  obtain ⟨⟨kind, timestamp, metadata⟩, correlationId, causationId⟩ := e
  cases kind with
  | taskStarted taskId => exact .inl ⟨taskId, rfl, rfl, rfl⟩
  | taskCompleted taskId => exact .inr (.inl ⟨taskId, _, rfl, rfl, rfl⟩)
  | taskFailed taskId message => exact .inr (.inl ⟨taskId, _, rfl, rfl, rfl⟩)
  | taskCancelled taskId => exact .inr (.inl ⟨taskId, _, rfl, rfl, rfl⟩)
  | taskTimedOut taskId => exact .inr (.inl ⟨taskId, _, rfl, rfl, rfl⟩)
  | _ => exact .inr (.inr ⟨rfl, rfl, rfl⟩)

/-- A span and its parent, where that is recorded, belong to the same trace. -/
def Closed (tracer : Tracer) : Prop :=
  ∀ id span parentId parent, tracer.spans.get? id = some span →
    span.parentSpanId = some parentId → tracer.spans.get? parentId = some parent →
      span.traceId = parent.traceId

/-- A task starts outside of all spans, without a workflow, or in the workflow of the
active span. -/
def Continues (s : ObservabilitySubscriber) (e : BusEvent) : Prop :=
  opens e ≠ none → s.thread.context.spanId = none ∨
    e.workflowInstanceId = none ∨ e.workflowInstanceId = s.thread.context.traceId

/-- The parent of a span is recorded and in its trace, and the context has the trace of
its span. -/
structure Rooted (t : Thread) : Prop where
  sound : t.Sound env
  parent : ∀ id span, t.tracer.spans.get? id = some span → ∀ parentId,
    span.parentSpanId = some parentId → ∃ parent, t.tracer.spans.get? parentId = some parent ∧
      span.traceId = parent.traceId
  active : ∀ id, t.context.spanId = some id →
    ∃ span, t.tracer.spans.get? id = some span ∧ t.context.traceId = some span.traceId

variable {env}

theorem Rooted.closed {t : Thread} (h : Rooted env t) : Closed t.tracer := by
  intro id span parentId parent hspan hparent hget
  obtain ⟨recorded, hrecorded, htrace⟩ := h.parent id span hspan parentId hparent
  rw [htrace, Option.some.inj (hrecorded.symm.trans hget)]

theorem rooted_new : Rooted env {} where
  sound := Thread.sound_new
  parent id span h := by cases h
  active id h := by cases h

theorem workflowInstanceId_ne {e : Persistence.RuntimeEvent} {id : String}
    (h : e.workflowInstanceId = some id) : id ≠ "" := by
  unfold Persistence.RuntimeEvent.workflowInstanceId Persistence.RuntimeEvent.correlation at h
  split at h
  · split at h
    · cases h
    next hne => exact Option.some.inj h ▸ hne
  · cases h

theorem present_workflowInstanceId (e : Persistence.RuntimeEvent) :
    present e.workflowInstanceId = e.workflowInstanceId := by
  cases hid : e.workflowInstanceId with
  | none => rfl
  | some id => exact present_of_ne (workflowInstanceId_ne hid)

section Traces

variable {s : ObservabilitySubscriber} {t : Thread}

/-- The trace of a new span: that of its workflow, or that of the active span. -/
theorem newSpan_trace {e : BusEvent} {taskId trace : String}
    (htrace : t.context.traceId = some trace) (hne : trace ≠ "") :
    (t.newSpan env (spanArgs e taskId)).traceId = e.workflowInstanceId.getD trace := by
  change (t.inheritedTrace (spanArgs e taskId)).getD _ = _
  rw [Thread.inheritedTrace, htrace, present_of_ne hne]
  change ((present e.workflowInstanceId).or (some trace)).getD _ = _
  rw [present_workflowInstanceId]
  cases e.workflowInstanceId <;> rfl

/-- A span that is started in the trace of the active one keeps the traces together. -/
theorem Rooted.start {e : BusEvent} {taskId : String} (h : Rooted env s.thread)
    (hcontinues : s.thread.context.spanId = none ∨ e.workflowInstanceId = none ∨
      e.workflowInstanceId = s.thread.context.traceId) :
    Rooted env (s.start env e taskId).thread := by
  have hfresh := h.sound.fresh (spanArgs e taskId)
  refine ⟨h.sound.startSpan _, ?_, ?_⟩
  · intro id span hget parentId hparent
    change (s.thread.startSpan env (spanArgs e taskId)).tracer.spans.get? id = some span at hget
    have hold : ∀ {parent : Span}, s.thread.tracer.spans.get? parentId = some parent →
        (s.thread.startSpan env (spanArgs e taskId)).tracer.spans.get? parentId = some parent := by
      intro parent hrecorded
      rw [Thread.get?_startSpan, if_neg, hrecorded]
      intro heq
      rw [← heq, hfresh] at hrecorded
      cases hrecorded
    rw [Thread.get?_startSpan] at hget
    split at hget
    · obtain rfl := Option.some.inj hget
      have hactive : s.thread.context.spanId = some parentId := hparent
      obtain ⟨parent, hrecorded, htrace⟩ := h.active parentId hactive
      refine ⟨parent, hold hrecorded, ?_⟩
      obtain ⟨-, trace, hsome, hne⟩ := h.sound.context.active parentId hactive
      rw [newSpan_trace hsome hne]
      obtain rfl : trace = parent.traceId := Option.some.inj (hsome.symm.trans htrace)
      rcases hcontinues with hnone | hnone | hsame
      · cases hnone.symm.trans hactive
      · rw [hnone]
        rfl
      · rw [hsame, hsome]
        rfl
    · obtain ⟨parent, hrecorded, htrace⟩ := h.parent id span hget parentId hparent
      exact ⟨parent, hold hrecorded, htrace⟩
  · intro id hid
    obtain rfl := Option.some.inj hid
    exact ⟨s.thread.newSpan env (spanArgs e taskId), (Thread.get?_startSpan _ _).trans (if_pos rfl),
      rfl⟩

theorem Rooted.endSpan (h : Rooted env t) (spanId : String) (metadata : Option Attrs) :
    Rooted env (t.endSpan env spanId metadata) := by
  cases hspan : t.tracer.spans.get? spanId with
  | none => rwa [Thread.endSpan_of_none hspan]
  | some span =>
    have hkeeps : t.Keeps (t.endSpan env spanId metadata) := Thread.keeps_endSpan spanId metadata
    refine ⟨h.sound.endSpan spanId metadata, ?_, ?_⟩
    · intro id recorded hget parentId hparent
      obtain ⟨before, hbefore, -, htrace, hsame⟩ := Thread.recorded_before spanId metadata hget
      obtain ⟨parent, hrecorded, hroot⟩ := h.parent id before hbefore parentId (hsame ▸ hparent)
      obtain ⟨parent', hrecorded', -, htrace', -⟩ := hkeeps.span parentId parent hrecorded
      exact ⟨parent', hrecorded', by rw [htrace, hroot, htrace']⟩
    · have hforward : ∀ {id : String} {old : Span}, t.tracer.spans.get? id = some old →
          t.context.traceId = some old.traceId →
          ∃ new, (t.endSpan env spanId metadata).tracer.spans.get? id = some new ∧
            t.context.traceId = some new.traceId := by
        intro id old hold htrace
        obtain ⟨new, hnew, -, hsame, -⟩ := hkeeps.span id old hold
        exact ⟨new, hnew, by rw [htrace, hsame]⟩
      rw [Thread.context_endSpan hspan]
      split
      next hactive =>
        split
        next parentId hpresent =>
          -- the parent becomes active, and is in the trace of the span that has ended
          intro id hid
          obtain rfl := Option.some.inj hid
          have hparent : span.parentSpanId = some parentId :=
            (Option.filter_eq_some_iff.mp hpresent).1
          obtain ⟨parent, hrecorded, hroot⟩ := h.parent spanId span hspan parentId hparent
          obtain ⟨active, hget, htrace⟩ := h.active spanId hactive
          obtain rfl := Option.some.inj (hspan.symm.trans hget)
          exact hforward hrecorded (by rw [htrace, hroot])
        next =>
          intro id hid
          cases hid
      next =>
        intro id hid
        obtain ⟨active, hget, htrace⟩ := h.active id hid
        exact hforward hget htrace

theorem Rooted.close (h : Rooted env s.thread) (taskId : String) (metadata : Attrs) :
    Rooted env (s.close env taskId metadata).thread := by
  unfold ObservabilitySubscriber.close
  dsimp only
  split
  · exact h
  · exact h.endSpan _ _

theorem Rooted.handle {e : BusEvent} (h : Rooted env s.thread) (hcontinues : Continues s e) :
    Rooted env (s.handle env e).thread := by
  rcases handle_cases env s e with ⟨taskId, hopens, -, heq⟩ |
    ⟨taskId, metadata, -, -, heq⟩ | ⟨-, -, heq⟩
  · rw [heq]
    refine h.start (hcontinues ?_)
    rw [hopens]
    exact Option.some_ne_none taskId
  · rw [heq]
    exact h.close taskId metadata
  · rwa [heq]

/-- A span that is started in another trace than the active one's is apart from its parent. -/
theorem continues_of_closed {e : BusEvent} (h : Rooted env s.thread)
    (hclosed : Closed (s.handle env e).thread.tracer) : Continues s e := by
  intro hopens
  obtain ⟨taskId, -, -, heq⟩ | ⟨_, _, hnone, -⟩ | ⟨hnone, -⟩ := handle_cases env s e
  · cases hactive : s.thread.context.spanId with
    | none => exact .inl rfl
    | some parentId =>
      obtain ⟨parent, hrecorded, htrace⟩ := h.active parentId hactive
      obtain ⟨-, trace, hsome, hne⟩ := h.sound.context.active parentId hactive
      obtain rfl : trace = parent.traceId := Option.some.inj (hsome.symm.trans htrace)
      have hnew : (s.handle env e).thread.tracer.spans.get?
          (s.thread.newSpan env (spanArgs e taskId)).spanId =
            some (s.thread.newSpan env (spanArgs e taskId)) := by
        rw [heq]
        exact (Thread.get?_startSpan _ _).trans (if_pos rfl)
      have hold : (s.handle env e).thread.tracer.spans.get? parentId = some parent := by
        rw [heq]
        refine (Thread.get?_startSpan _ _).trans ((if_neg ?_).trans hrecorded)
        intro hsame
        rw [← hsame, h.sound.fresh] at hrecorded
        cases hrecorded
      have hsame := hclosed _ _ parentId parent hnew hactive hold
      rw [newSpan_trace hsome hne] at hsame
      rw [htrace]
      cases hworkflow : e.workflowInstanceId with
      | none => exact .inr (.inl rfl)
      | some id =>
        rw [hworkflow] at hsame
        exact .inr (.inr (congrArg some hsame))
  · exact absurd hnone hopens
  · exact absurd hnone hopens

/-- The traces are closed under parenthood in every state exactly when every task starts
outside of all spans, without a workflow, or in the workflow of the active span. -/
theorem traces_closed_iff (env : TracingEnv) (events : List BusEvent) :
    (∀ before, before <+: events →
      Closed (Machine.exec (step env) before ({}, [])).1.thread.tracer) ↔
        Machine.Along (step env) (fun c e => Continues c.1 e) events ({}, []) := by
  apply Machine.forall_prefix_iff_along_of
    (fun c : ObservabilitySubscriber × List Empty => Rooted env c.1.thread)
    (fun c : ObservabilitySubscriber × List Empty => Closed c.1.thread.tracer)
  · exact fun c h => h.closed
  · exact fun c e h hcontinues => h.handle hcontinues
  · exact fun c e h hclosed => continues_of_closed h hclosed
  · exact rooted_new

end Traces

section Samples

def started (taskId : String) (workflowId : Option String) : BusEvent where
  kind := .taskStarted taskId
  timestamp := "2024-01-01T00:00:00"
  metadata :=
    match workflowId with
    | none => .empty
    | some id => Dict.empty.set "workflow_instance_id" (.str id)

/-- Tasks of two workflows overlap, and the span of the second has a parent in the
trace of the first. -/
theorem overlapping_not_closed :
    let events := [started "a" (some "wf-1"), started "b" (some "wf-2")]
    let tracer := (Machine.exec (step TracingEnv.sample) events ({}, [])).1.thread.tracer
    (tracer.spans.values.map fun span => (span.spanId, span.parentSpanId, span.traceId)) =
        [("u", none, "wf-1"), ("uu", some "u", "wf-2")] ∧ ¬ Closed tracer := by
  intro events tracer
  have hspans : (tracer.spans.values.map fun span =>
      (span.spanId, span.parentSpanId, span.traceId)) =
        [("u", none, "wf-1"), ("uu", some "u", "wf-2")] := by decide +kernel
  refine ⟨hspans, fun hclosed => ?_⟩
  have hparents : (tracer.spans.get? "u").isSome = true ∧
      ∃ span, tracer.spans.get? "uu" = some span ∧ span.parentSpanId = some "u" ∧
        span.traceId = "wf-2" := ⟨by decide +kernel, _, rfl, rfl, rfl⟩
  obtain ⟨hsome, span, hget, hparent, htrace⟩ := hparents
  obtain ⟨parent, hrecorded⟩ := Option.isSome_iff_exists.mp hsome
  have hroot : (tracer.spans.get? "u").map Span.traceId = some "wf-1" := by decide +kernel
  have hsame := hclosed "uu" span "u" parent hget hparent hrecorded
  rw [hrecorded, Option.map_some, ← hsame, htrace] at hroot
  exact absurd hroot (by decide)

end Samples

end ObservabilitySubscriber

end MollisRuntime.Observability
