import MollisRuntime.Executors.RetryMiddleware
import MollisRuntime.Library.AwaitedCalls

/-!
The pipeline with threads. TimeoutMiddleware makes the next call in a thread of its own
and stops waiting for it after the timeout; the thread goes on, while the middlewares
outside may already have begun the next attempt. However long the threads take, the
executor is called no more often than the retries allow for, and as long as no timeout
passes the pipeline is the one without timeouts.
-/
namespace MollisRuntime.Executors.Middleware

open Ordered Python Scheduling Dialogue

variable {σ τ : Type}

abbrev Job (σ τ : Type) : Type 1 := Plan σ τ (Arguments σ τ) Outcome

/-- What the middlewares find around them: the clock and the loggers, what happens
while they sleep, and `uuid4`. -/
structure Host (σ τ : Type) where
  ambient : Ambient τ
  warning : String → τ → τ
  pass : ℚ → σ → σ
  uuid4 : σ → σ × String

def TracingMiddleware.process (uuid4 : σ → σ × String) : Arguments σ τ → Process σ τ :=
  fun (request, context) =>
    let traced (correlationId : String) : ExecutionContext σ τ :=
      { context with
        correlationId := some correlationId
        causationId := some ((given context.causationId).getD context.taskId) }
    match given context.correlationId with
    | some correlationId => .ask (request, traced correlationId) .done
    | none => .act (fun state => (uuid4 state).1) fun state =>
        .ask (request, traced (uuid4 state).2) .done

/-- What TimeoutMiddleware returns for the thread that it no longer waits for. -/
def timedOut (ambient : Ambient τ) (timeout : ℚ) : ExecutionResult where
  status := .timedOut
  error := some
    { message := s!"Execution exceeded timeout limit of {ambient.text timeout} seconds."
      errorType := "TimeoutError"
      isTransient := true }

/-- What the thread raises is raised again. -/
def TimeoutMiddleware.job (host : Host σ τ) (next : Arguments σ τ → Job σ τ) :
    Arguments σ τ → Job σ τ :=
  fun (request, context) =>
    match request.policy.timeoutSeconds with
    | none => next (request, context)
    | some timeout =>
      if timeout ≤ 0 then next (request, context)
      else
        .fork (next (request, context))
          (host.warning (s!"TimeoutMiddleware triggered: task {context.taskId} timed out after " ++
            s!"{host.ambient.text timeout}s."))
          (.ok (timedOut host.ambient timeout)) .done

/-- What LoggingMiddleware does with the outcome of the next call. -/
def LoggingMiddleware.ended (ambient : Ambient τ) (context : ExecutionContext σ τ)
    (startTime : ℚ) : Outcome → Job σ τ
  | .error e => .done (.error e)
  | .ok result => .look ambient.time fun stopTime =>
    let log := (context.services.bind (·.logger)).getD ambient.logger
    let duration := ambient.fixed4 (stopTime - startTime)
    if result.status = .succeeded then
      .record (log.info s!"Execution succeeded for task {context.taskId} in {duration}s")
        (.done (.ok result))
    else
      let status := statusValue result.status
      let errMsg := (result.error.map (·.message)).getD "Unknown execution error"
      .record (log.error (s!"Execution failed for task {context.taskId} status={status} " ++
        s!"in {duration}s. Error: {errMsg}")) (.done (.ok result))

def LoggingMiddleware.job (ambient : Ambient τ) (next : Arguments σ τ → Job σ τ) :
    Arguments σ τ → Job σ τ :=
  fun (request, context) =>
    let log := (context.services.bind (·.logger)).getD ambient.logger
    .record (log.info
      s!"Execution started for task {context.taskId} (Executor: {request.executorType})") <|
    .look ambient.time fun startTime =>
      (next (request, context)).bind (ended ambient context startTime)

/-- What MetricsMiddleware does with the outcome of the next call. -/
def MetricsMiddleware.ended (ambient : Ambient τ) (request : ExecutionRequest)
    (context : ExecutionContext σ τ) (startTime : ℚ) : Outcome → Job σ τ
  | .error e => .done (.error e)
  | .ok result => .look ambient.time fun stopTime =>
    match context.services.bind (·.metrics) with
    | none => .done (.ok result)
    | some metrics =>
      .look (metrics.recordExecution request.executorType (statusValue result.status)
        (stopTime - startTime)) fun
        | .ok () => .done (.ok result)
        | .error e =>
          .record (ambient.logger.debug s!"Metrics recording failed: {e.message}")
            (.done (.ok result))

def MetricsMiddleware.job (ambient : Ambient τ) (next : Arguments σ τ → Job σ τ) :
    Arguments σ τ → Job σ τ :=
  fun (request, context) =>
    .look ambient.time fun startTime =>
      (next (request, context)).bind (ended ambient request context startTime)

/-- The middlewares that come with the runtime. -/
inductive Kind
  | logging
  | metrics
  | tracing
  | timeout
  | retry
  deriving DecidableEq

/-- A place in a pipeline with threads. -/
inductive Layer (σ τ : Type)
  | standard (kind : Kind)
  | other (process : Arguments σ τ → Process σ τ)

def Layer.job (host : Host σ τ) (next : Arguments σ τ → Job σ τ) :
    Layer σ τ → Arguments σ τ → Job σ τ
  | .standard .logging => LoggingMiddleware.job host.ambient next
  | .standard .metrics => MetricsMiddleware.job host.ambient next
  | .standard .tracing => fun arguments =>
    (TracingMiddleware.process host.uuid4 arguments).graft next
  | .standard .timeout => TimeoutMiddleware.job host next
  | .standard .retry => fun arguments =>
    (RetryMiddleware.process host.ambient host.pass arguments).graft next
  | .other process => fun arguments => (process arguments).graft next

/-- `compile_chain(0)(request, context)` in a thread. -/
def MiddlewarePipeline.job (host : Host σ τ) (layers : List (Layer σ τ)) :
    Arguments σ τ → Job σ τ :=
  layers.foldr (fun layer next => layer.job host next) fun arguments => .ask arguments .done

/-- The middleware in a pipeline without threads; there is none for a timeout. -/
def Layer.sequential (host : Host σ τ) : Layer σ τ → Option (ExecutionMiddleware σ τ)
  | .standard .logging => some (.observer .logging)
  | .standard .metrics => some (.observer .metrics)
  | .standard .tracing => some (.other (TracingMiddleware.process host.uuid4))
  | .standard .timeout => none
  | .standard .retry => some (.other (RetryMiddleware.process host.ambient host.pass))
  | .other process => some (.other process)

variable (host : Host σ τ) (call : Arguments σ τ → σ → σ × Outcome)

section Awaited

variable (next : Arguments σ τ → Job σ τ)

theorem run_logging (arguments : Arguments σ τ) (w : World σ τ (Arguments σ τ)) :
    (LoggingMiddleware.job host.ambient next arguments).run call w =
      LoggingMiddleware.process host.ambient (fun arguments => (next arguments).run call)
        arguments w := by
  obtain ⟨request, context⟩ := arguments
  let log := (context.services.bind (·.logger)).getD host.ambient.logger
  let begun := readClock host.ambient (w.observe (log.info
    s!"Execution started for task {context.taskId} (Executor: {request.executorType})"))
  calc (LoggingMiddleware.job host.ambient next (request, context)).run call w
      = ((next (request, context)).bind
          (LoggingMiddleware.ended host.ambient context begun.2)).run call begun.1 := rfl
    _ = (LoggingMiddleware.ended host.ambient context begun.2
          ((next (request, context)).run call begun.1).2).run call
          ((next (request, context)).run call begun.1).1 := Plan.run_bind ..
    _ = _ := by
      unfold LoggingMiddleware.process
      dsimp only
      split
      · rename_i w₂ e hraised
        rw [show (next (request, context)).run call begun.1 = _ from hraised]
        rfl
      · rename_i w₂ result hreturned
        rw [show (next (request, context)).run call begun.1 = _ from hreturned]
        rw [LoggingMiddleware.ended, Plan.run]
        split
        · rfl
        · rfl

theorem run_metrics (arguments : Arguments σ τ) (w : World σ τ (Arguments σ τ)) :
    (MetricsMiddleware.job host.ambient next arguments).run call w =
      MetricsMiddleware.process host.ambient (fun arguments => (next arguments).run call)
        arguments w := by
  obtain ⟨request, context⟩ := arguments
  let begun := readClock host.ambient w
  calc (MetricsMiddleware.job host.ambient next (request, context)).run call w
      = ((next (request, context)).bind
          (MetricsMiddleware.ended host.ambient request context begun.2)).run call begun.1 := rfl
    _ = (MetricsMiddleware.ended host.ambient request context begun.2
          ((next (request, context)).run call begun.1).2).run call
          ((next (request, context)).run call begun.1).1 := Plan.run_bind ..
    _ = _ := by
      unfold MetricsMiddleware.process
      dsimp only
      split
      · rename_i w₂ e hraised
        rw [show (next (request, context)).run call begun.1 = _ from hraised]
        rfl
      · rename_i w₂ result hreturned
        rw [show (next (request, context)).run call begun.1 = _ from hreturned]
        rw [MetricsMiddleware.ended, Plan.run]
        cases context.services.bind (·.metrics) with
        | none => rfl
        | some metrics =>
          dsimp only
          rw [Plan.run]
          split
          · rename_i hrecorded
            rw [show (metrics.recordExecution request.executorType (statusValue result.status)
              ((readClock host.ambient w₂).2 - (readClock host.ambient w).2)
              (readClock host.ambient w₂).1.observed).2 = _ from hrecorded]
            rfl
          · rename_i hrecorded
            rw [show (metrics.recordExecution request.executorType (statusValue result.status)
              ((readClock host.ambient w₂).2 - (readClock host.ambient w).2)
              (readClock host.ambient w₂).1.observed).2 = _ from hrecorded]
            rfl

theorem run_timeout (arguments : Arguments σ τ) (w : World σ τ (Arguments σ τ)) :
    (TimeoutMiddleware.job host next arguments).run call w = (next arguments).run call w := by
  obtain ⟨request, context⟩ := arguments
  unfold TimeoutMiddleware.job
  dsimp only
  split
  · rfl
  · split
    · rfl
    · rfl

/-- A layer is the middleware without threads, or takes no part. -/
theorem run_layer (layer : Layer σ τ) (arguments : Arguments σ τ) (w : World σ τ (Arguments σ τ)) :
    (layer.job host next arguments).run call w =
      ((layer.sequential host).elim id (ExecutionMiddleware.process host.ambient))
        (fun arguments => (next arguments).run call) arguments w := by
  cases layer with
  | other process => exact Program.run_graft call next _ w
  | standard kind =>
    cases kind with
    | logging => exact run_logging host call next arguments w
    | metrics => exact run_metrics host call next arguments w
    | tracing => exact Program.run_graft call next _ w
    | timeout => exact run_timeout host call next arguments w
    | retry => exact Program.run_graft call next _ w

/-- In one thread the pipeline is the one without timeouts. -/
theorem run_pipeline (layers : List (Layer σ τ)) :
    (fun arguments => (MiddlewarePipeline.job host layers arguments).run call) =
      MiddlewarePipeline.execute host.ambient (layers.filterMap (Layer.sequential host))
        (target call) := by
  induction layers with
  | nil => rfl
  | cons layer rest ih =>
    funext arguments w
    change (layer.job host (MiddlewarePipeline.job host rest) arguments).run call w = _
    rw [run_layer, ih, List.filterMap_cons]
    cases layer.sequential host with
    | none => rfl
    | some middleware => rfl

end Awaited

section Attempts

/-- Programs that ask for nothing that is counted, and then for what is. -/
theorem cost_appendRetried {next : Arguments σ τ → Job σ τ} {ambient : Ambient τ}
    {context : ExecutionContext σ τ} {attempts : ℤ} {proceed : Process σ τ} {bound : ℕ∞}
    (h : (proceed.graft next).cost ≤ bound) :
    ((appendRetried ambient context attempts proceed).graft next).cost ≤ bound := by
  unfold appendRetried
  split
  · exact h
  · refine iSup_le fun state => ?_
    dsimp only
    split
    · exact h
    · exact (Plan.cost_record _ _).trans_le h

theorem cost_sleep {next : Arguments σ τ → Job σ τ} {pass : ℚ → σ → σ} {seconds : ℚ}
    {proceed : Process σ τ} {bound : ℕ∞} (h : (proceed.graft next).cost ≤ bound) :
    ((sleep pass seconds proceed).graft next).cost ≤ bound := by
  unfold sleep
  split
  · exact zero_le
  · exact iSup_le fun _ => h

/-- Each attempt costs what the next call costs. -/
theorem cost_loop {next : Arguments σ τ → Job σ τ} {ambient : Ambient τ} {pass : ℚ → σ → σ}
    {request : ExecutionRequest} {context : ExecutionContext σ τ} {each : ℕ∞}
    (hnext : (next (request, context)).cost ≤ each) (left : ℕ) :
    ∀ {attempts : ℤ}, (request.policy.maxRetries - attempts).toNat = left →
      ((RetryMiddleware.loop ambient pass request context attempts).graft next).cost ≤
        (left + 1) * each := by
  have hattempt {attempts : ℤ} {bound : ℕ∞}
      (hrest : attempts < request.policy.maxRetries →
        ((RetryMiddleware.loop ambient pass request context (attempts + 1)).graft next).cost ≤
          bound) :
      ((RetryMiddleware.loop ambient pass request context attempts).graft next).cost ≤
        each + bound := by
    rw [RetryMiddleware.loop, Program.graft]
    refine (Plan.cost_bind_le fun outcome => ?_).trans (add_le_add_left hnext bound)
    rcases outcome with e | result
    · exact zero_le
    · dsimp only
      split
      · exact zero_le
      · split
        · exact zero_le
        · rename_i hretries
          rw [Program.graft, Plan.cost_record]
          exact cost_appendRetried (cost_sleep (hrest (not_le.mp hretries)))
  induction left with
  | zero =>
    intro attempts hleft
    rw [Nat.cast_zero, zero_add, one_mul]
    exact (hattempt fun hlt => by omega).trans (add_zero each).le
  | succ left ih =>
    intro attempts hleft
    rw [Nat.cast_succ, add_one_mul, add_comm]
    exact hattempt fun hlt => ih (by omega)

variable {host} {next : Arguments σ τ → Job σ τ} {request : ExecutionRequest} {each : ℕ∞}

theorem cost_logged (context : ExecutionContext σ τ) (startTime : ℚ) (outcome : Outcome) :
    (LoggingMiddleware.ended host.ambient context startTime outcome).cost ≤ 0 := by
  rcases outcome with e | result
  · exact le_rfl
  · refine iSup_le fun stopTime => ?_
    dsimp only
    split <;> exact (Plan.cost_record _ _).le

theorem cost_recorded (context : ExecutionContext σ τ) (startTime : ℚ) (outcome : Outcome) :
    (MetricsMiddleware.ended host.ambient request context startTime outcome).cost ≤ 0 := by
  rcases outcome with e | result
  · exact le_rfl
  · refine iSup_le fun stopTime => ?_
    dsimp only
    split
    · exact le_rfl
    · refine iSup_le fun recorded => ?_
      rcases recorded with e | ⟨⟩
      · exact (Plan.cost_record _ _).le
      · exact le_rfl

theorem cost_once {ended : Outcome → Job σ τ} (hended : ∀ outcome, (ended outcome).cost ≤ 0)
    {context : ExecutionContext σ τ} (hnext : (next (request, context)).cost ≤ each) :
    ((next (request, context)).bind ended).cost ≤ each :=
  ((Plan.cost_bind_le hended).trans_eq (add_zero _)).trans hnext

theorem cost_tracing (hnext : ∀ context, (next (request, context)).cost ≤ each)
    (uuid4 : σ → σ × String) (context : ExecutionContext σ τ) :
    ((TracingMiddleware.process uuid4 (request, context)).graft next).cost ≤ each := by
  unfold TracingMiddleware.process
  dsimp only
  split
  · exact cost_once (fun outcome => le_rfl) (hnext _)
  · exact iSup_le fun state => cost_once (fun outcome => le_rfl) (hnext _)

theorem cost_timeout (host : Host σ τ) {context : ExecutionContext σ τ}
    (hnext : (next (request, context)).cost ≤ each) :
    (TimeoutMiddleware.job host next (request, context)).cost ≤ each := by
  unfold TimeoutMiddleware.job
  dsimp only
  split
  · exact hnext
  · split
    · exact hnext
    · exact (add_le_add_right (iSup_le fun outcome => le_rfl) _).trans ((add_zero _).trans_le hnext)

/-- How often a middleware makes the next call at most. -/
def Kind.attempts (policy : ExecutionPolicy) : Kind → ℕ
  | .retry => permitted policy + 1
  | .logging | .metrics | .tracing | .timeout => 1

theorem cost_standard (hnext : ∀ context, (next (request, context)).cost ≤ each) (kind : Kind)
    (context : ExecutionContext σ τ) :
    (Layer.job host next (.standard kind) (request, context)).cost ≤
      kind.attempts request.policy * each := by
  have honce {cost : ℕ∞} (h : cost ≤ each) : cost ≤ ((1 : ℕ) : ℕ∞) * each := by
    rwa [Nat.cast_one, one_mul]
  cases kind with
  | logging =>
    refine honce ((Plan.cost_record _ _).trans_le (iSup_le fun startTime => ?_))
    exact cost_once (cost_logged context startTime) (hnext context)
  | metrics =>
    refine honce (iSup_le fun startTime => ?_)
    exact cost_once (cost_recorded context startTime) (hnext context)
  | tracing => exact honce (cost_tracing hnext host.uuid4 context)
  | timeout => exact honce (cost_timeout host (hnext context))
  | retry =>
    exact (cost_loop (hnext context) (permitted request.policy) (by rw [permitted, sub_zero])).trans
      (by rw [Kind.attempts, Nat.cast_succ])

/-- Retries within retries multiply. -/
theorem cost_pipeline (host : Host σ τ) (request : ExecutionRequest) (kinds : List Kind) :
    ∀ context : ExecutionContext σ τ,
      (MiddlewarePipeline.job host (kinds.map .standard) (request, context)).cost ≤
        ((permitted request.policy + 1) ^ kinds.count .retry : ℕ) := by
  induction kinds with
  | nil =>
    intro context
    rw [List.count_nil, pow_zero, Nat.cast_one, ← zero_add (1 : ℕ∞)]
    exact add_le_add_left (iSup_le fun outcome => le_rfl) 1
  | cons kind rest ih =>
    intro context
    refine (cost_standard ih kind context).trans_eq ?_
    rw [← Nat.cast_mul, List.count_cons]
    cases kind with
    | retry => rw [Kind.attempts, if_pos (beq_self_eq_true _), pow_succ']
    | _ => rw [Kind.attempts, one_mul]; rfl

end Attempts

/-- The threads of one pipeline, after some moves. -/
def attempted (host : Host σ τ) (call : Arguments σ τ → σ → σ × Outcome)
    (layers : List (Layer σ τ)) (arguments : Arguments σ τ) (w : World σ τ (Arguments σ τ))
    (moves : List (Move σ)) : Pool σ τ (Arguments σ τ) Outcome :=
  moves.foldl (Pool.step call) (Pool.start (MiddlewarePipeline.job host layers arguments) w)

/-- However the threads take turns, whichever timeouts pass and whatever else changes the
state meanwhile: the executor is called at most once for every attempt that the retries
allow for, by the threads that were given up included, and at any time no more threads
can go on than one and those that were given up. -/
theorem attempts_bounded (kinds : List Kind) (request : ExecutionRequest)
    (context : ExecutionContext σ τ) (state : σ) (observed : τ) (moves : List (Move σ)) :
    let pool := attempted host call (kinds.map .standard) (request, context) { state, observed }
      moves
    pool.world.asked.length ≤ (permitted request.policy + 1) ^ kinds.count .retry ∧
      pool.busy.card ≤ pool.givenUp + 1 := by
  intro pool
  obtain ⟨hasked, hbusy⟩ := Pool.run_bounded call
    (MiddlewarePipeline.job host (kinds.map .standard) (request, context)) { state, observed } moves
  refine ⟨?_, hbusy⟩
  have hcost := hasked.trans (add_le_add_right (cost_pipeline host request kinds context) _)
  have hnone : (((([] : List (Arguments σ τ)).length : ℕ) : ℕ∞)) = 0 := rfl
  rw [hnone, zero_add] at hcost
  exact Nat.cast_le.mp hcost

theorem attempted_turns (layers : List (Layer σ τ)) (arguments : Arguments σ τ)
    (w : World σ τ (Arguments σ τ)) (turns : List ℕ) :
    attempted host call layers arguments w (turns.map .turn) =
      (Pool.start (MiddlewarePipeline.job host layers arguments) w).turns call turns :=
  List.foldl_map

end MollisRuntime.Executors.Middleware
