import MollisRuntime.Python.Values

/-!
The tracer. A span that is started takes from the trace context of the thread what it is
not given, and becomes the active one; a span that is ended makes its parent the active
one again, or clears the context. The spans are kept by id and by trace.
-/
namespace MollisRuntime.Observability

open Ordered Python

structure Span where
  spanId : String
  traceId : String
  name : String
  startTime : String
  endTime : Option String := none
  parentSpanId : Option String := none
  metadata : Attrs := .empty

/-- The trace context of a thread. -/
@[ext] structure TraceContext where
  traceId : Option String := none
  spanId : Option String := none
  correlationId : Option String := none
  causationId : Option String := none
  deriving DecidableEq

structure Tracer where
  spans : Dict String Span := .empty
  traces : Dict String (List Span) := .empty

/-- A thread that calls the tracer, with the ids that were drawn and the times that
were read so far. -/
structure Thread where
  tracer : Tracer := {}
  context : TraceContext := {}
  drawn : ℕ := 0
  read : ℕ := 0

/-- The ids that uuid4 makes, the times that the clock shows, and the seconds from one
to another; fromisoformat may raise. -/
structure TracingEnv where
  uuid : ℕ → String
  now : ℕ → String
  seconds : String → String → Option ℚ
  uuid_injective : Function.Injective uuid
  uuid_ne_empty : ∀ n, uuid n ≠ ""

/-- Ids of growing length, and a clock that stands still. -/
def TracingEnv.sample : TracingEnv where
  uuid n := String.ofList (List.replicate (n + 1) 'u')
  now _ := "2024-01-01T00:00:00"
  seconds _ _ := some 0
  uuid_injective n m h := by
    have hlength := congrArg (fun s : String => s.toList.length) h
    simpa using hlength
  uuid_ne_empty n h := by
    have hlength := congrArg (fun s : String => s.toList.length) h
    simp at hlength

/-- The arguments of start_span. -/
structure SpanArgs where
  name : String
  parentSpanId : Option String := none
  correlationId : Option String := none
  causationId : Option String := none
  traceId : Option String := none

/-- What comes before `or`: an empty string does not count. -/
def present (s : Option String) : Option String := s.filter fun s => s ≠ ""

def optStr : Option String → Value
  | none => .none
  | some s => .str s

/-- The span takes the place of the first one with its id. -/
def replaceSpan (span : Span) : List Span → List Span
  | [] => []
  | s :: rest => if s.spanId = span.spanId then span :: rest else s :: replaceSpan span rest

namespace Thread

variable (env : TracingEnv)

/-- `trace_id or ctx.get("trace_id")` -/
def inheritedTrace (args : SpanArgs) (t : Thread) : Option String :=
  (present args.traceId).or (present t.context.traceId)

def newSpan (args : SpanArgs) (t : Thread) : Span where
  spanId := env.uuid t.drawn
  traceId := (t.inheritedTrace args).getD (env.uuid (t.drawn + 1))
  name := args.name
  startTime := env.now t.read
  parentSpanId := (present args.parentSpanId).or t.context.spanId
  metadata := (Dict.empty.set "correlation_id"
      (optStr ((present args.correlationId).or t.context.correlationId))).set "causation_id"
    (optStr ((present args.causationId).or t.context.causationId))

def startSpan (args : SpanArgs) (t : Thread) : Thread :=
  let span := t.newSpan env args
  { tracer :=
      { spans := t.tracer.spans.set span.spanId span
        traces := t.tracer.traces.set span.traceId
          ((t.tracer.traces.get? span.traceId).getD [] ++ [span]) }
    context :=
      { traceId := some span.traceId
        spanId := some span.spanId
        correlationId := (present args.correlationId).or t.context.correlationId
        causationId := (present args.causationId).or t.context.causationId }
    drawn := if (t.inheritedTrace args).isSome then t.drawn + 1 else t.drawn + 2
    read := t.read + 1 }

def endedSpan (metadata : Option Attrs) (t : Thread) (span : Span) : Span :=
  let endTime := env.now t.read
  let updated := span.metadata.setAll ((metadata.getD .empty).entries)
  { span with
    endTime := some endTime
    metadata :=
      match env.seconds span.startTime endTime with
      | none => updated
      | some seconds => updated.set "duration_seconds" (.float seconds) }

/-- An id that is not recorded ends nothing. -/
def endSpan (spanId : String) (metadata : Option Attrs) (t : Thread) : Thread :=
  match t.tracer.spans.get? spanId with
  | none => t
  | some span =>
    let updated := endedSpan env metadata t span
    { t with
      tracer :=
        { spans := t.tracer.spans.set spanId updated
          traces :=
            match t.tracer.traces.get? span.traceId with
            | none => t.tracer.traces
            | some spans => t.tracer.traces.set span.traceId (replaceSpan updated spans) }
      context :=
        if t.context.spanId = some spanId then
          match present span.parentSpanId with
          | some parent => { t.context with spanId := some parent }
          | none => {}
        else t.context
      read := t.read + 1 }

end Thread

def Tracer.getTrace (tracer : Tracer) (traceId : String) : Option (List Span) :=
  (tracer.traces.get? traceId).filter fun spans => spans ≠ []

end MollisRuntime.Observability
