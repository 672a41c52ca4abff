import MollisRuntime.Library.Machine
import MollisRuntime.Observability.SpanContext

/-!
The two indexes of the tracer, over the calls of all the threads that share it. Each
index holds the records of the spans in the order in which the spans were started: the
table all of them, the list of a trace those of this trace.
-/
namespace MollisRuntime.Observability

open Ordered Python

/-- `list_spans` -/
def Tracer.listSpans (tracer : Tracer) : List Span := tracer.spans.values

/-- The threads that share a tracer, each with a trace context of its own. -/
structure Tracing (κ : Type) where
  tracer : Tracer := {}
  contexts : κ → TraceContext := fun _ => {}
  drawn : ℕ := 0
  read : ℕ := 0

inductive TracerCall (κ : Type)
  | startSpan (thread : κ) (args : SpanArgs)
  | endSpan (thread : κ) (spanId : String) (metadata : Option Attrs)

namespace Tracing

variable {κ : Type}

def thread (s : Tracing κ) (k : κ) : Thread where
  tracer := s.tracer
  context := s.contexts k
  drawn := s.drawn
  read := s.read

variable [DecidableEq κ]

def resume (s : Tracing κ) (k : κ) (t : Thread) : Tracing κ where
  tracer := t.tracer
  contexts := Function.update s.contexts k t.context
  drawn := t.drawn
  read := t.read

/-- A start returns the span. -/
def step (env : TracingEnv) (s : Tracing κ) : TracerCall κ → Tracing κ × List Span
  | .startSpan k args =>
    (s.resume k ((s.thread k).startSpan env args), [(s.thread k).newSpan env args])
  | .endSpan k spanId metadata => (s.resume k ((s.thread k).endSpan env spanId metadata), [])

end Tracing

section Replacing

theorem values_upsert (span : Span) {entries : List (String × Span)}
    (hkeyed : ∀ e ∈ entries, e.2.spanId = e.1) (hmem : span.spanId ∈ entries.map Prod.fst) :
    (upsert span.spanId span entries).map Prod.snd =
      replaceSpan span (entries.map Prod.snd) := by
  induction entries with
  | nil => exact absurd hmem List.not_mem_nil
  | cons e rest ih =>
    have hid : e.2.spanId = e.1 := hkeyed e List.mem_cons_self
    rw [upsert, List.map_cons, replaceSpan, hid]
    by_cases he : e.1 = span.spanId
    · rw [if_pos he, if_pos he]
      rfl
    · rw [if_neg he, if_neg he, List.map_cons,
        ih (fun e he => hkeyed e (List.mem_cons_of_mem _ he))
          ((List.mem_cons.mp hmem).resolve_left (Ne.symm he))]

variable {span : Span} {spans : List Span}

/-- The ids and the traces stay where they are. -/
theorem marks_replaceSpan
    (htrace : ∀ s ∈ spans, s.spanId = span.spanId → s.traceId = span.traceId) :
    (replaceSpan span spans).map (fun s => (s.spanId, s.traceId)) =
      spans.map fun s => (s.spanId, s.traceId) := by
  induction spans with
  | nil => rfl
  | cons s rest ih =>
    rw [replaceSpan]
    split
    next hid =>
      rw [List.map_cons, List.map_cons, hid, htrace s List.mem_cons_self hid]
    next =>
      rw [List.map_cons, List.map_cons, ih fun s hs => htrace s (List.mem_cons_of_mem _ hs)]

theorem filter_replaceSpan (trace : String)
    (htrace : ∀ s ∈ spans, s.spanId = span.spanId → s.traceId = span.traceId) :
    (replaceSpan span spans).filter (fun s => s.traceId = trace) =
      if span.traceId = trace then replaceSpan span (spans.filter fun s => s.traceId = trace)
      else spans.filter fun s => s.traceId = trace := by
  induction spans with
  | nil => simp [replaceSpan]
  | cons s rest ih =>
    have hrest := ih fun s hs => htrace s (List.mem_cons_of_mem _ hs)
    have hhead := htrace s List.mem_cons_self
    by_cases hid : s.spanId = span.spanId
    · by_cases hspan : span.traceId = trace <;> simp [replaceSpan, hid, hhead hid, hspan]
    · by_cases hs : s.traceId = trace <;> by_cases hspan : span.traceId = trace <;>
        simp [replaceSpan, hid, hs, hspan, hrest]

/-- Where no id occurs twice, a span is the only one with its id. -/
theorem filter_spanId (hnodup : (spans.map Span.spanId).Nodup) (hmem : span ∈ spans) :
    spans.filter (fun s => s.spanId = span.spanId) = [span] := by
  induction spans with
  | nil => exact absurd hmem List.not_mem_nil
  | cons s rest ih =>
    obtain ⟨hnew, hrest⟩ := List.nodup_cons.mp hnodup
    rcases List.mem_cons.mp hmem with rfl | hmem
    · have hnone : rest.filter (fun s => s.spanId = span.spanId) = [] := by
        rw [List.filter_eq_nil_iff]
        intro s hs hid
        exact hnew (of_decide_eq_true hid ▸ List.mem_map_of_mem hs)
      simp [hnone]
    · have hne : s.spanId ≠ span.spanId := fun hid => hnew (hid ▸ List.mem_map_of_mem hmem)
      simp [hne, ih hrest hmem]

end Replacing

/-- The records of the table are those of the started spans; each is in the list of its
trace, once, and in no other; and the list of a trace has its spans as they were started.
Reading a trace gives its list. -/
structure Tracer.Agrees (tracer : Tracer) (started : List Span) : Prop where
  read : ∀ trace, (tracer.getTrace trace).getD [] = (tracer.traces.get? trace).getD []
  distinct : (started.map Span.spanId).Nodup
  table : tracer.listSpans.map Span.spanId = started.map Span.spanId
  once : ∀ id span, tracer.spans.get? id = some span → span.spanId = id ∧
    ∀ trace, ((tracer.traces.get? trace).getD []).filter (fun s => s.spanId = id) =
      if trace = span.traceId then [span] else []
  ordered : ∀ trace, ((tracer.traces.get? trace).getD []).map Span.spanId =
    (started.filter fun s => s.traceId = trace).map Span.spanId

/-- The list of a trace is what the table has of it. -/
structure Tracer.Indexed (tracer : Tracer) (started : List Span) : Prop where
  keyed : ∀ id span, tracer.spans.get? id = some span → span.spanId = id
  traces : ∀ trace, (tracer.traces.get? trace).getD [] =
    tracer.listSpans.filter fun s => s.traceId = trace
  marks : tracer.listSpans.map (fun s => (s.spanId, s.traceId)) =
    started.map fun s => (s.spanId, s.traceId)

theorem Tracer.getD_getTrace (tracer : Tracer) (trace : String) :
    (tracer.getTrace trace).getD [] = (tracer.traces.get? trace).getD [] := by
  unfold getTrace
  cases tracer.traces.get? trace with
  | none => rfl
  | some spans => cases spans <;> simp [Option.filter]

namespace Tracer.Indexed

variable {tracer : Tracer} {started : List Span}

theorem entries_keyed (h : tracer.Indexed started) :
    ∀ e ∈ tracer.spans.entries, e.2.spanId = e.1 :=
  fun e he => h.keyed e.1 e.2 ((tracer.spans.mem_entries_iff e.1 e.2).mp he)

theorem ids (h : tracer.Indexed started) :
    tracer.listSpans.map Span.spanId = tracer.spans.keys := by
  rw [listSpans, Dict.values, Dict.keys, List.map_map]
  exact List.map_congr_left h.entries_keyed

theorem get?_of_mem (h : tracer.Indexed started) {span : Span} (hspan : span ∈ tracer.listSpans) :
    tracer.spans.get? span.spanId = some span := by
  obtain ⟨id, hget⟩ := Dict.mem_values_iff.mp hspan
  rwa [h.keyed id span hget]

theorem map_marks {spans others : List Span}
    (h : spans.map (fun s => (s.spanId, s.traceId)) = others.map fun s => (s.spanId, s.traceId))
    (trace : String) : (spans.filter fun s => s.traceId = trace).map Span.spanId =
      (others.filter fun s => s.traceId = trace).map Span.spanId := by
  have hmarks (l : List Span) : (l.filter fun s => s.traceId = trace).map Span.spanId =
      ((l.map fun s => (s.spanId, s.traceId)).filter fun m => m.2 = trace).map Prod.fst := by
    rw [List.filter_map, List.map_map]
    rfl
  rw [hmarks, hmarks, h]

theorem agrees (h : tracer.Indexed started) : tracer.Agrees started := by
  have htable : tracer.listSpans.map Span.spanId = started.map Span.spanId := by
    have hfst := congrArg (List.map Prod.fst) h.marks
    rwa [List.map_map, List.map_map] at hfst
  have hnodup : (tracer.listSpans.map Span.spanId).Nodup := by
    rw [h.ids]
    exact tracer.spans.nodup_keys'
  refine ⟨tracer.getD_getTrace, htable ▸ hnodup, htable,
    fun id span hget => ⟨h.keyed id span hget, fun trace => ?_⟩, fun trace => ?_⟩
  · obtain rfl := h.keyed id span hget
    have hmem : span ∈ tracer.listSpans := Dict.mem_values_iff.mpr ⟨_, hget⟩
    rw [h.traces, List.filter_comm, filter_spanId hnodup hmem, List.filter_singleton]
    by_cases htrace : trace = span.traceId
    · simp [htrace]
    · simp [htrace, Ne.symm htrace]
  · rw [h.traces]
    exact map_marks h.marks trace

theorem empty : ({} : Tracer).Indexed [] where
  keyed id span h := by cases h
  traces trace := rfl
  marks := rfl

end Tracer.Indexed

namespace Thread

variable {env : TracingEnv} {t : Thread} {started : List Span}

theorem listSpans_startSpan (hsound : t.Sound env) (args : SpanArgs) :
    (t.startSpan env args).tracer.listSpans = t.tracer.listSpans ++ [t.newSpan env args] := by
  have hnew := (t.tracer.spans.get?_eq_none_iff _).mp (hsound.fresh args)
  change (t.tracer.spans.set _ _).values = _
  rw [Dict.values, Dict.entries_set_of_notMem _ hnew, List.map_append]
  rfl

theorem indexed_startSpan (h : t.tracer.Indexed started) (hsound : t.Sound env) (args : SpanArgs) :
    (t.startSpan env args).tracer.Indexed (started ++ [t.newSpan env args]) where
  keyed id span hget := by
    rw [get?_startSpan] at hget
    split at hget
    next heq => exact Option.some.inj hget ▸ heq
    next => exact h.keyed id span hget
  traces trace := by
    rw [listSpans_startSpan hsound, List.filter_append, ← h.traces]
    change ((t.tracer.traces.set (t.newSpan env args).traceId _).get? trace).getD [] = _
    rw [Dict.get?_set]
    by_cases htrace : (t.newSpan env args).traceId = trace <;> simp [htrace]
  marks := by
    rw [listSpans_startSpan hsound, List.map_append, List.map_append, h.marks]

section End

variable {spanId : String} {metadata : Option Attrs} {span : Span}

theorem tracer_endSpan (hget : t.tracer.spans.get? spanId = some span) :
    (t.endSpan env spanId metadata).tracer =
      { spans := t.tracer.spans.set spanId (t.endedSpan env metadata span)
        traces :=
          match t.tracer.traces.get? span.traceId with
          | none => t.tracer.traces
          | some spans =>
            t.tracer.traces.set span.traceId
              (replaceSpan (t.endedSpan env metadata span) spans) } := by
  unfold endSpan
  cases hrecorded : t.tracer.spans.get? spanId with
  | none => cases hrecorded.symm.trans hget
  | some recorded =>
    obtain rfl := Option.some.inj (hrecorded.symm.trans hget)
    rfl

theorem listSpans_endSpan (h : t.tracer.Indexed started)
    (hget : t.tracer.spans.get? spanId = some span) :
    (t.endSpan env spanId metadata).tracer.listSpans =
      replaceSpan (t.endedSpan env metadata span) t.tracer.listSpans := by
  obtain rfl := h.keyed spanId span hget
  rw [tracer_endSpan hget]
  exact values_upsert (t.endedSpan env metadata span) h.entries_keyed
    ((t.tracer.spans.mem_keys_iff _).mpr ⟨span, hget⟩)

theorem traces_endSpan (hget : t.tracer.spans.get? spanId = some span) (trace : String) :
    ((t.endSpan env spanId metadata).tracer.traces.get? trace).getD [] =
      if span.traceId = trace then
        replaceSpan (t.endedSpan env metadata span) ((t.tracer.traces.get? trace).getD [])
      else (t.tracer.traces.get? trace).getD [] := by
  rw [tracer_endSpan hget]
  by_cases htrace : span.traceId = trace
  · subst htrace
    rw [if_pos rfl]
    cases htraces : t.tracer.traces.get? span.traceId with
    | none => simp [htraces, replaceSpan]
    | some spans => simp
  · rw [if_neg htrace]
    cases htraces : t.tracer.traces.get? span.traceId with
    | none => rfl
    | some spans => simp [Dict.get?_set, htrace]

theorem indexed_endSpan (h : t.tracer.Indexed started) (spanId : String)
    (metadata : Option Attrs) : (t.endSpan env spanId metadata).tracer.Indexed started := by
  cases hget : t.tracer.spans.get? spanId with
  | none => rwa [endSpan_of_none hget]
  | some span =>
    have htrace : ∀ s ∈ t.tracer.listSpans, s.spanId = (t.endedSpan env metadata span).spanId →
        s.traceId = (t.endedSpan env metadata span).traceId := by
      intro s hs hid
      have hrecorded := h.get?_of_mem hs
      rw [hid.trans (h.keyed spanId span hget), hget] at hrecorded
      exact Option.some.inj hrecorded ▸ rfl
    refine ⟨fun id s hs => ?_, fun trace => ?_, ?_⟩
    · rw [get?_endSpan hget] at hs
      split at hs
      next heq => exact Option.some.inj hs ▸ (h.keyed spanId span hget).trans heq
      next => exact h.keyed id s hs
    · rw [traces_endSpan hget, listSpans_endSpan h hget, filter_replaceSpan trace htrace, h.traces]
      rfl
    · rw [listSpans_endSpan h hget, marks_replaceSpan htrace, h.marks]

end End

end Thread

namespace Tracing

variable {κ : Type} [DecidableEq κ] {env : TracingEnv}

theorem sound_resume {s : Tracing κ} {k : κ} {t : Thread} (hs : ∀ j, (s.thread j).Sound env)
    (ht : t.Sound env) (j : κ) : ((s.resume k t).thread j).Sound env where
  minted := ht.minted
  context := by
    change (Function.update s.contexts k t.context j).Sound
    by_cases hj : j = k
    · subst hj
      rw [Function.update_self]
      exact ht.context
    · rw [Function.update_of_ne hj]
      exact (hs j).context

theorem sound_indexed_exec (env : TracingEnv) (calls : List (TracerCall κ)) :
    let run := Machine.exec (step env) calls (({} : Tracing κ), [])
    (∀ k, (run.1.thread k).Sound env) ∧ run.1.tracer.Indexed run.2 := by
  refine Machine.exec_preserves (fun c : Tracing κ × List Span =>
    (∀ k, (c.1.thread k).Sound env) ∧ c.1.tracer.Indexed c.2) ?_
    ⟨fun _ => Thread.sound_new, .empty⟩ calls
  rintro ⟨s, started⟩ call ⟨hsound, hindexed⟩
  cases call with
  | startSpan k args =>
    exact ⟨sound_resume hsound ((hsound k).startSpan args),
      Thread.indexed_startSpan (t := s.thread k) hindexed (hsound k) args⟩
  | endSpan k spanId metadata =>
    refine ⟨sound_resume hsound ((hsound k).endSpan spanId metadata), ?_⟩
    rw [Machine.advance, step, List.append_nil]
    exact Thread.indexed_endSpan (t := s.thread k) hindexed spanId metadata

/-- Whatever the threads start and end, in any order: the indexes of the tracer agree. -/
theorem indexes_agree (env : TracingEnv) (calls : List (TracerCall κ)) :
    let run := Machine.exec (step env) calls (({} : Tracing κ), [])
    run.1.tracer.Agrees run.2 :=
  (sound_indexed_exec env calls).2.agrees

end Tracing

end MollisRuntime.Observability
