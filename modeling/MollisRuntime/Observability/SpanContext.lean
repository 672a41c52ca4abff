import MollisRuntime.Observability.Tracing

/-!
The trace context along the calls of one thread. Where a span is active the context has
a trace, and where none is the context is empty. A span that ends gives the id of its
parent back to the context, and leaves the other ids there as it set them.
-/
namespace MollisRuntime.Observability

open Ordered Python

theorem present_eq_some {s : Option String} {x : String} (h : present s = some x) : x ≠ "" := by
  have hpresent := (Option.filter_eq_some_iff.mp h).2
  exact of_decide_eq_true hpresent

theorem present_of_ne {x : String} (h : x ≠ "") : present (some x) = some x :=
  Option.filter_eq_some_iff.mpr ⟨rfl, decide_eq_true h⟩

/-- An active span is not without a trace, and without one there is nothing. -/
structure TraceContext.Sound (c : TraceContext) : Prop where
  active : ∀ id, c.spanId = some id → id ≠ "" ∧ ∃ trace, c.traceId = some trace ∧ trace ≠ ""
  idle : c.spanId = none → c = {}

theorem TraceContext.sound_empty : TraceContext.Sound {} where
  active id h := by cases h
  idle _ := rfl

/-- Only the active span is another one. -/
theorem TraceContext.Sound.of_active {c : TraceContext} {id parent : String} (h : c.Sound)
    (hid : c.spanId = some id) (hparent : parent ≠ "") :
    TraceContext.Sound { c with spanId := some parent } where
  active other hother := by
    obtain rfl := Option.some.inj hother
    exact ⟨hparent, (h.active id hid).2⟩
  idle hnone := by cases hnone

namespace Thread

variable {env : TracingEnv}

/-- The recorded ids were drawn before. -/
structure Sound (env : TracingEnv) (t : Thread) : Prop where
  minted : ∀ id span, t.tracer.spans.get? id = some span → ∃ k < t.drawn, env.uuid k = id
  context : t.context.Sound

theorem sound_new : Sound env {} where
  minted id span h := by cases h
  context := TraceContext.sound_empty

/-- What is recorded of a span stays, but for its end. -/
structure Keeps (t u : Thread) : Prop where
  span : ∀ id s, t.tracer.spans.get? id = some s → ∃ s', u.tracer.spans.get? id = some s' ∧
    s'.name = s.name ∧ s'.traceId = s.traceId ∧ s'.parentSpanId = s.parentSpanId

theorem Keeps.refl (t : Thread) : t.Keeps t := ⟨fun _ s h => ⟨s, h, rfl, rfl, rfl⟩⟩

theorem Keeps.trans {t u v : Thread} (h : t.Keeps u) (h' : u.Keeps v) : t.Keeps v := by
  constructor
  intro id s hget
  obtain ⟨s', hget', hname, htrace, hparent⟩ := h.span id s hget
  obtain ⟨s'', hget'', hname', htrace', hparent'⟩ := h'.span id s' hget'
  exact ⟨s'', hget'', hname'.trans hname, htrace'.trans htrace, hparent'.trans hparent⟩

section Start

variable {t : Thread} (args : SpanArgs)

theorem newSpan_traceId_ne (t : Thread) : (t.newSpan env args).traceId ≠ "" := by
  change (t.inheritedTrace args).getD (env.uuid (t.drawn + 1)) ≠ ""
  cases hinherited : t.inheritedTrace args with
  | none => exact env.uuid_ne_empty _
  | some trace =>
    rcases Option.or_eq_some_iff.mp hinherited with hgiven | ⟨-, hcontext⟩
    · exact present_eq_some hgiven
    · exact present_eq_some hcontext

theorem drawn_startSpan : t.drawn < (t.startSpan env args).drawn := by
  unfold startSpan
  dsimp only
  split <;> omega

/-- The id of a new span is not recorded yet. -/
theorem Sound.fresh (h : t.Sound env) : t.tracer.spans.get? (t.newSpan env args).spanId = none := by
  cases hget : t.tracer.spans.get? (t.newSpan env args).spanId with
  | none => rfl
  | some span =>
    obtain ⟨k, hk, heq⟩ := h.minted _ span hget
    exact absurd (env.uuid_injective heq) hk.ne

theorem get?_startSpan (id : String) :
    (t.startSpan env args).tracer.spans.get? id =
      if (t.newSpan env args).spanId = id then some (t.newSpan env args)
      else t.tracer.spans.get? id := Dict.get?_set _ _ _ _

theorem Sound.startSpan (h : t.Sound env) : (t.startSpan env args).Sound env where
  minted id span hget := by
    rw [get?_startSpan] at hget
    split at hget
    next heq => exact ⟨t.drawn, drawn_startSpan args, heq⟩
    next =>
      obtain ⟨k, hk, heq⟩ := h.minted id span hget
      exact ⟨k, hk.trans (drawn_startSpan args), heq⟩
  context :=
    { active id hid := by
        obtain rfl := Option.some.inj hid
        exact ⟨env.uuid_ne_empty _, _, rfl, newSpan_traceId_ne args t⟩
      idle hnone := by cases hnone }

theorem Sound.keeps_startSpan (h : t.Sound env) : t.Keeps (t.startSpan env args) := by
  constructor
  intro id s hget
  refine ⟨s, ?_, rfl, rfl, rfl⟩
  rw [get?_startSpan, if_neg, hget]
  intro heq
  rw [← heq, h.fresh] at hget
  cases hget

end Start

section End

variable {t : Thread} {spanId : String} {metadata : Option Attrs}

theorem endSpan_of_none (h : t.tracer.spans.get? spanId = none) :
    t.endSpan env spanId metadata = t := by
  rw [endSpan, h]

theorem get?_endSpan {span : Span} (h : t.tracer.spans.get? spanId = some span) (id : String) :
    (t.endSpan env spanId metadata).tracer.spans.get? id =
      if spanId = id then some (t.endedSpan env metadata span)
      else t.tracer.spans.get? id := by
  rw [endSpan, h]
  exact Dict.get?_set _ _ _ _

theorem drawn_endSpan : (t.endSpan env spanId metadata).drawn = t.drawn := by
  unfold endSpan
  split <;> rfl

theorem context_endSpan {span : Span} (h : t.tracer.spans.get? spanId = some span) :
    (t.endSpan env spanId metadata).context =
      if t.context.spanId = some spanId then
        match present span.parentSpanId with
        | some parent => { t.context with spanId := some parent }
        | none => {}
      else t.context := by
  unfold endSpan
  split
  next hnone => cases h.symm.trans hnone
  next recorded hrecorded =>
    obtain rfl := Option.some.inj (h.symm.trans hrecorded)
    rfl

variable (spanId metadata)

theorem keeps_endSpan : t.Keeps (t.endSpan env spanId metadata) := by
  cases hspan : t.tracer.spans.get? spanId with
  | none => rw [endSpan_of_none hspan]; exact Keeps.refl t
  | some span =>
    constructor
    intro id s hget
    rw [get?_endSpan hspan]
    by_cases heq : spanId = id
    · subst heq
      obtain rfl := Option.some.inj (hspan.symm.trans hget)
      exact ⟨_, if_pos rfl, rfl, rfl, rfl⟩
    · exact ⟨s, (if_neg heq).trans hget, rfl, rfl, rfl⟩

/-- What is recorded after the end of a span was recorded before. -/
theorem recorded_before {id : String} {s : Span}
    (h : (t.endSpan env spanId metadata).tracer.spans.get? id = some s) :
    ∃ s₀, t.tracer.spans.get? id = some s₀ ∧ s.name = s₀.name ∧ s.traceId = s₀.traceId ∧
      s.parentSpanId = s₀.parentSpanId := by
  cases hspan : t.tracer.spans.get? spanId with
  | none =>
    rw [endSpan_of_none hspan] at h
    exact ⟨s, h, rfl, rfl, rfl⟩
  | some span =>
    rw [get?_endSpan hspan] at h
    split at h
    next heq =>
      obtain rfl := Option.some.inj h
      exact ⟨span, heq ▸ hspan, rfl, rfl, rfl⟩
    next => exact ⟨s, h, rfl, rfl, rfl⟩

theorem Sound.endSpan (h : t.Sound env) : (t.endSpan env spanId metadata).Sound env := by
  cases hspan : t.tracer.spans.get? spanId with
  | none => rwa [endSpan_of_none hspan]
  | some span =>
    refine ⟨fun id s hget => ?_, ?_⟩
    · rw [get?_endSpan hspan] at hget
      rw [drawn_endSpan]
      split at hget
      next heq => exact h.minted id span (heq ▸ hspan)
      next => exact h.minted id s hget
    · rw [context_endSpan hspan]
      split
      next hactive =>
        split
        next parent hparent => exact h.context.of_active hactive (present_eq_some hparent)
        next => exact TraceContext.sound_empty
      next => exact h.context

end End

end Thread

/-- The ids that may be given explicitly when a span is started. -/
structure SpanIds where
  name : String
  correlationId : Option String := none
  causationId : Option String := none
  traceId : Option String := none

def SpanIds.args (ids : SpanIds) : SpanArgs where
  name := ids.name
  correlationId := ids.correlationId
  causationId := ids.causationId
  traceId := ids.traceId

/-- A well-nested sequence of calls: a span with the calls up to its end, and the calls
after that. -/
inductive Nested
  | done
  | span (ids : SpanIds) (metadata : Option Attrs) (inner rest : Nested)

/-- An id that is not given, or that is in effect already. -/
def Inherited (id inEffect : Option String) : Prop := present id = none ∨ present id = inEffect

/-- A root span, or one whose ids are those in effect. -/
def SpanIds.Inherits (ids : SpanIds) (c : TraceContext) : Prop :=
  c.spanId = none ∨ Inherited ids.traceId c.traceId ∧
    Inherited ids.correlationId c.correlationId ∧ Inherited ids.causationId c.causationId

namespace Nested

variable (env : TracingEnv)

def run : Nested → Thread → Thread
  | .done, t => t
  | .span ids metadata inner rest, t =>
    rest.run ((inner.run (t.startSpan env ids.args)).endSpan env (t.newSpan env ids.args).spanId
      metadata)

/-- The thread right after the end of a span. -/
def ended (ids : SpanIds) (metadata : Option Attrs) (inner : Nested) (t : Thread) : Thread :=
  (inner.run env (t.startSpan env ids.args)).endSpan env (t.newSpan env ids.args).spanId metadata

/-- After the end of each span the context is what it was before its start. -/
def Restores : Nested → Thread → Prop
  | .done, _ => True
  | .span ids metadata inner rest, t =>
    let after := ended env ids metadata inner t
    after.context = t.context ∧ inner.Restores (t.startSpan env ids.args) ∧ rest.Restores after

/-- Each span is a root span or has the ids in effect when it is started. -/
def Inherits : Nested → Thread → Prop
  | .done, _ => True
  | .span ids metadata inner rest, t =>
    let after := ended env ids metadata inner t
    ids.Inherits t.context ∧ inner.Inherits (t.startSpan env ids.args) ∧ rest.Inherits after

variable {env}

theorem sound_run (calls : Nested) {t : Thread} (h : t.Sound env) :
    (calls.run env t).Sound env := by
  induction calls generalizing t with
  | done => exact h
  | span ids metadata inner rest ihInner ihRest =>
    exact ihRest ((ihInner (h.startSpan ids.args)).endSpan _ _)

theorem keeps_run (calls : Nested) {t : Thread} (h : t.Sound env) : t.Keeps (calls.run env t) := by
  induction calls generalizing t with
  | done => exact Thread.Keeps.refl t
  | span ids metadata inner rest ihInner ihRest =>
    have hstarted := h.startSpan ids.args
    have hinner := sound_run inner hstarted
    exact (((h.keeps_startSpan ids.args).trans (ihInner hstarted)).trans
      (Thread.keeps_endSpan _ _)).trans (ihRest (hinner.endSpan _ _))

variable {t : Thread}

theorem Restores.context {calls : Nested} (h : calls.Restores env t) :
    (calls.run env t).context = t.context := by
  induction calls generalizing t with
  | done => rfl
  | span ids metadata inner rest ihInner ihRest =>
    obtain ⟨hcontext, -, hrest⟩ := h
    exact (ihRest hrest).trans hcontext

/-- The active span gives way to the one that was active before it. -/
theorem context_ended (ids : SpanIds) (metadata : Option Attrs) {inner : Nested}
    (h : t.Sound env)
    (hinner : (inner.run env (t.startSpan env ids.args)).context =
      (t.startSpan env ids.args).context) :
    (ended env ids metadata inner t).context =
      match t.context.spanId with
      | some parent => { (t.startSpan env ids.args).context with spanId := some parent }
      | none => {} := by
  have hstarted := h.startSpan ids.args
  have hrecorded : (t.startSpan env ids.args).tracer.spans.get? (t.newSpan env ids.args).spanId =
      some (t.newSpan env ids.args) := by
    rw [Thread.get?_startSpan, if_pos rfl]
  obtain ⟨span, hspan, -, -, hparent⟩ := (keeps_run inner hstarted).span _ _ hrecorded
  have hparent' : span.parentSpanId = t.context.spanId := hparent
  have hactive : (t.startSpan env ids.args).context.spanId =
      some (t.newSpan env ids.args).spanId := rfl
  rw [ended, Thread.context_endSpan hspan, hinner, if_pos hactive, hparent']
  cases hcontext : t.context.spanId with
  | none => rfl
  | some parent =>
    rw [present_of_ne (h.context.active parent hcontext).1]

theorem or_eq_iff_inherited (id inEffect : Option String) :
    (present id).or inEffect = inEffect ↔ Inherited id inEffect := by
  rw [Inherited]
  cases present id with
  | none => simp
  | some x => simp

/-- With the context restored inside, the end of a span restores it exactly when the
span has the ids in effect. -/
theorem context_ended_iff (ids : SpanIds) (metadata : Option Attrs) {inner : Nested}
    (h : t.Sound env)
    (hinner : (inner.run env (t.startSpan env ids.args)).context =
      (t.startSpan env ids.args).context) :
    (ended env ids metadata inner t).context = t.context ↔ ids.Inherits t.context := by
  rw [context_ended ids metadata h hinner]
  cases hcontext : t.context.spanId with
  | none => exact iff_of_true (h.context.idle hcontext).symm (.inl hcontext)
  | some parent =>
    obtain ⟨-, trace, htrace, hne⟩ := h.context.active parent hcontext
    have hnew : some (t.newSpan env ids.args).traceId = t.context.traceId ↔
        Inherited ids.traceId t.context.traceId := by
      change some ((t.inheritedTrace ids.args).getD _) = _ ↔ _
      rw [Thread.inheritedTrace, htrace, present_of_ne hne, Inherited]
      change some (((present ids.traceId).or (some trace)).getD _) = _ ↔ _
      cases present ids.traceId with
      | none => simp
      | some given => simp
    constructor
    · intro heq
      exact .inr ⟨hnew.mp (congrArg TraceContext.traceId heq),
        (or_eq_iff_inherited _ _).mp (congrArg TraceContext.correlationId heq),
        (or_eq_iff_inherited _ _).mp (congrArg TraceContext.causationId heq)⟩
    · rintro (hnone | ⟨hids, hcorrelation, hcausation⟩)
      · cases hcontext.symm.trans hnone
      · exact TraceContext.ext (hnew.mpr hids) hcontext.symm
          ((or_eq_iff_inherited _ _).mpr hcorrelation) ((or_eq_iff_inherited _ _).mpr hcausation)

/-- The context is restored after every span exactly when every span is a root span or
has the ids in effect. -/
theorem restores_iff (calls : Nested) (t : { t : Thread // t.Sound env }) :
    calls.Restores env t ↔ calls.Inherits env t := by
  obtain ⟨t, h⟩ := t
  induction calls generalizing t with
  | done => exact Iff.rfl
  | span ids metadata inner rest ihInner ihRest =>
    have hstarted := h.startSpan ids.args
    have hended : (ended env ids metadata inner t).Sound env :=
      (sound_run inner hstarted).endSpan _ _
    constructor
    · rintro ⟨hcontext, hinner, hrest⟩
      exact ⟨(context_ended_iff ids metadata h hinner.context).mp hcontext,
        (ihInner _ hstarted).mp hinner, (ihRest _ hended).mp hrest⟩
    · rintro ⟨hids, hinner, hrest⟩
      have hrestores : inner.Restores env (t.startSpan env ids.args) :=
        (ihInner _ hstarted).mpr hinner
      exact ⟨(context_ended_iff ids metadata h hrestores.context).mpr hids, hrestores,
        (ihRest _ hended).mpr hrest⟩

/-- A span inside another one is given a correlation id. -/
def correlated : Nested :=
  .span { name := "parent" } none
    (.span { name := "child", correlationId := some "c2" } none .done .done) .done

/-- The correlation id of the child stays in the context after its end. -/
theorem correlated_leaks :
    let started := (({} : Thread).startSpan TracingEnv.sample { name := "parent" })
    let after := ended TracingEnv.sample { name := "child", correlationId := some "c2" } none
      .done started
    started.context.correlationId = none ∧ after.context.correlationId = some "c2" ∧
      ¬ correlated.Restores TracingEnv.sample {} := by
  intro started after
  have hbefore : started.context.correlationId = none := rfl
  have hafter : after.context.correlationId = some "c2" := by decide +kernel
  refine ⟨hbefore, hafter, ?_⟩
  rintro ⟨-, ⟨hcontext, -, -⟩, -⟩
  have hcorrelation := congrArg TraceContext.correlationId hcontext
  cases (hafter.symm.trans hcorrelation).trans hbefore

end Nested

end MollisRuntime.Observability
