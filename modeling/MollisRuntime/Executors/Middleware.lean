import MollisRuntime.Executors.LegacyAdapter
import MollisRuntime.Library.Dialogue

/-!
The middleware pipeline. A middleware gets the request, the context and the next call,
which it may make as often as it likes; the last call is the one to the executor. The
log and the metrics are what is observed: the logging and the metrics middleware read
the clock for them, and no other middleware reads them back.
-/
namespace MollisRuntime.Executors.Middleware

open Ordered Python Scheduling Dialogue

structure ExecutionError where
  message : String
  errorType : String
  isTransient : Bool := false
  deriving DecidableEq

structure ExecutionPolicy where
  timeoutSeconds : Option ℚ := none
  maxRetries : ℤ := 0
  retryDelaySeconds : ℚ := 1
  deriving DecidableEq

structure ExecutionRequest where
  executorType : String
  payload : Attrs
  policy : ExecutionPolicy := {}

structure ExecutionResult where
  status : ExecutionStatus
  output : Value := .none
  error : Option ExecutionError := none

structure Logger (τ : Type) where
  info : String → τ → τ
  error : String → τ → τ
  debug : String → τ → τ

/-- Recording may raise, whatever it has written by then. -/
structure MetricsStore (τ : Type) where
  recordExecution : String → String → ℚ → τ → τ × Except Raised Unit

structure TaskRetried where
  taskId : String
  retryCount : ℤ

structure EventStore (σ : Type) where
  append : TaskRetried → σ → σ × Except Raised Unit

structure ExecutionServices (σ τ : Type) where
  logger : Option (Logger τ) := none
  metrics : Option (MetricsStore τ) := none
  eventStore : Option (EventStore σ) := none

structure ExecutionContext (σ τ : Type) where
  runtimeId : String
  taskId : String
  workerId : String
  correlationId : Option String := none
  causationId : Option String := none
  services : Option (ExecutionServices σ τ) := none

/-- The clock that is read for the log and the metrics, the logger of the module, and
how a number of seconds is written: with four digits, and as it is. -/
structure Ambient (τ : Type) where
  time : τ → τ × ℚ
  logger : Logger τ
  fixed4 : ℚ → String
  text : ℚ → String

def statusValue : ExecutionStatus → String
  | .queued => "Queued"
  | .preparing => "Preparing"
  | .running => "Running"
  | .succeeded => "Succeeded"
  | .failed => "Failed"
  | .timedOut => "TimedOut"
  | .cancelled => "Cancelled"
  | .retrying => "Retrying"
  | .recovered => "Recovered"

variable {σ τ : Type}

abbrev Arguments (σ τ : Type) : Type := ExecutionRequest × ExecutionContext σ τ

abbrev Outcome : Type := Except Raised ExecutionResult

abbrev Call (σ τ : Type) : Type := Answerer σ τ (Arguments σ τ) Outcome

abbrev Process (σ τ : Type) : Type := Program σ τ (Arguments σ τ) Outcome

/-- `time.time()` -/
def readClock (ambient : Ambient τ) (w : World σ τ (Arguments σ τ)) :
    World σ τ (Arguments σ τ) × ℚ :=
  let reading := ambient.time w.observed
  ({ w with observed := reading.1 }, reading.2)

def LoggingMiddleware.process (ambient : Ambient τ) (next : Call σ τ) : Call σ τ :=
  fun (request, context) w =>
    let log := (context.services.bind (·.logger)).getD ambient.logger
    let w := w.observe (log.info
      s!"Execution started for task {context.taskId} (Executor: {request.executorType})")
    let (w, startTime) := readClock ambient w
    match next (request, context) w with
    | (w, .error e) => (w, .error e)
    | (w, .ok result) =>
      let (w, stopTime) := readClock ambient w
      let duration := ambient.fixed4 (stopTime - startTime)
      if result.status = .succeeded then
        (w.observe (log.info s!"Execution succeeded for task {context.taskId} in {duration}s"),
          .ok result)
      else
        let status := statusValue result.status
        let errMsg := (result.error.map (·.message)).getD "Unknown execution error"
        (w.observe (log.error (s!"Execution failed for task {context.taskId} status={status} " ++
          s!"in {duration}s. Error: {errMsg}")), .ok result)

/-- What recording raises is logged and goes no further. -/
def MetricsMiddleware.process (ambient : Ambient τ) (next : Call σ τ) : Call σ τ :=
  fun (request, context) w =>
    let (w, startTime) := readClock ambient w
    match next (request, context) w with
    | (w, .error e) => (w, .error e)
    | (w, .ok result) =>
      let (w, stopTime) := readClock ambient w
      match context.services.bind (·.metrics) with
      | none => (w, .ok result)
      | some metrics =>
        let recorded := metrics.recordExecution request.executorType (statusValue result.status)
          (stopTime - startTime) w.observed
        let w := { w with observed := recorded.1 }
        match recorded.2 with
        | .ok () => (w, .ok result)
        | .error e =>
          (w.observe (ambient.logger.debug s!"Metrics recording failed: {e.message}"), .ok result)

/-- A logging or a metrics middleware. -/
inductive Observer
  | logging
  | metrics
  deriving DecidableEq

def Observer.process (ambient : Ambient τ) : Observer → Call σ τ → Call σ τ
  | .logging => LoggingMiddleware.process ambient
  | .metrics => MetricsMiddleware.process ambient

/-- A middleware of the pipeline: an observer, or any other one. -/
inductive ExecutionMiddleware (σ τ : Type)
  | observer (kind : Observer)
  | other (process : Arguments σ τ → Process σ τ)

def ExecutionMiddleware.process (ambient : Ambient τ) :
    ExecutionMiddleware σ τ → Call σ τ → Call σ τ
  | .observer kind => kind.process ambient
  | .other process => fun next arguments => (process arguments).run next

/-- `compile_chain(0)(request, context)` -/
def MiddlewarePipeline.execute (ambient : Ambient τ) (middlewares : List (ExecutionMiddleware σ τ))
    (targetCall : Call σ τ) : Call σ τ :=
  stack (middlewares.map (ExecutionMiddleware.process ambient)) targetCall

section Transparency

variable (ambient : Ambient τ)

/-- What goes wrong before the call returns goes wrong without the observer too. -/
theorem logging_observes :
    Observes (LoggingMiddleware.process ambient : Call σ τ → Call σ τ) := by
  intro next hnext ⟨request, context⟩ w w' hw
  unfold LoggingMiddleware.process
  dsimp only
  have hbefore : (readClock ambient (w.observe
      (((context.services.bind (·.logger)).getD ambient.logger).info
        s!"Execution started for task {context.taskId} (Executor: {request.executorType})"))
      ).1.Agrees w' := ⟨hw.state, hw.asked⟩
  obtain ⟨hworld, hanswer⟩ := hnext (request, context) _ _ hbefore
  split
  next w₁ e hraised =>
    rw [hraised] at hworld hanswer
    exact ⟨hworld, hanswer⟩
  next w₁ result hreturned =>
    rw [hreturned] at hworld hanswer
    split
    · exact ⟨⟨hworld.state, hworld.asked⟩, hanswer⟩
    · exact ⟨⟨hworld.state, hworld.asked⟩, hanswer⟩

theorem metrics_observes :
    Observes (MetricsMiddleware.process ambient : Call σ τ → Call σ τ) := by
  intro next hnext ⟨request, context⟩ w w' hw
  unfold MetricsMiddleware.process
  dsimp only
  have hbefore : (readClock ambient w).1.Agrees w' := ⟨hw.state, hw.asked⟩
  obtain ⟨hworld, hanswer⟩ := hnext (request, context) _ _ hbefore
  split
  next w₁ e hraised =>
    rw [hraised] at hworld hanswer
    exact ⟨hworld, hanswer⟩
  next w₁ result hreturned =>
    rw [hreturned] at hworld hanswer
    -- with or without a store, and whether recording raises or not
    split
    · exact ⟨⟨hworld.state, hworld.asked⟩, hanswer⟩
    · split
      · exact ⟨⟨hworld.state, hworld.asked⟩, hanswer⟩
      · exact ⟨⟨hworld.state, hworld.asked⟩, hanswer⟩

theorem observer_observes (kind : Observer) :
    Observes (kind.process ambient : Call σ τ → Call σ τ) := by
  cases kind with
  | logging => exact logging_observes ambient
  | metrics => exact metrics_observes ambient

theorem middleware_respects (middleware : ExecutionMiddleware σ τ) :
    Respects (middleware.process ambient) := by
  cases middleware with
  | observer kind => exact (observer_observes ambient kind).respects
  | other process => exact respects_program process

/-- A place in a pipeline: a middleware that is given, or an observer that is inserted. -/
inductive Slot (σ τ : Type)
  | given (middleware : ExecutionMiddleware σ τ)
  | inserted (kind : Observer)

def Slot.middleware : Slot σ τ → ExecutionMiddleware σ τ
  | .given middleware => middleware
  | .inserted kind => .observer kind

def Slot.isInserted : Slot σ τ → Bool
  | .given _ => false
  | .inserted _ => true

end Transparency

end MollisRuntime.Executors.Middleware
