import Mathlib.Order.Bounds.Basic
import MollisRuntime.Executors.Middleware
import MollisRuntime.Executors.Registry

/-!
RetryMiddleware. The next call is made until it succeeds or the retries are used up;
whether an error is transient is looked at and has no say in it.
-/
namespace MollisRuntime.Executors.Middleware

open Ordered Python Scheduling Dialogue

variable {σ τ : Type}

/-- `time.sleep(seconds)`, given what the time that passes does to the state. -/
def sleep (pass : ℚ → σ → σ) (seconds : ℚ) (proceed : Process σ τ) : Process σ τ :=
  if seconds < 0 then .done (.error (valueError "sleep length must be non-negative"))
  else .act (pass seconds) fun _ => proceed

/-- The event of a retry; what appending it raises is logged and goes no further. -/
def appendRetried (ambient : Ambient τ) (context : ExecutionContext σ τ) (attempts : ℤ)
    (proceed : Process σ τ) : Process σ τ :=
  match context.services.bind (·.eventStore) with
  | none => proceed
  | some eventStore =>
    let event : TaskRetried := { taskId := context.taskId, retryCount := attempts }
    .act (fun state => (eventStore.append event state).1) fun state =>
      match (eventStore.append event state).2 with
      | .ok () => proceed
      | .error e =>
        .record (ambient.logger.debug s!"Failed to log retry event: {e.message}") proceed

/-- The loop, with the retries made so far. -/
def RetryMiddleware.loop (ambient : Ambient τ) (pass : ℚ → σ → σ) (request : ExecutionRequest)
    (context : ExecutionContext σ τ) (attempts : ℤ) : Process σ τ :=
  .ask (request, context) fun
    | .error e => .done (.error e)
    | .ok result =>
      if result.status = .succeeded then .done (.ok result)
      -- the source sets is_transient from the error here and does not read it again
      else if attempts ≥ request.policy.maxRetries then .done (.ok result)
      else
        let retry := attempts + 1
        .record (ambient.logger.info
          (s!"RetryMiddleware: Execution failed for task {context.taskId}. Attempt {retry}/" ++
            s!"{request.policy.maxRetries} following delay of " ++
            s!"{ambient.text request.policy.retryDelaySeconds}s.")) <|
        appendRetried ambient context retry <|
        sleep pass request.policy.retryDelaySeconds <|
        loop ambient pass request context retry
termination_by (request.policy.maxRetries - attempts).toNat
decreasing_by omega

def RetryMiddleware.process (ambient : Ambient τ) (pass : ℚ → σ → σ) :
    Arguments σ τ → Process σ τ :=
  fun (request, context) => loop ambient pass request context 0

/-- What HTTPExecutor returns for an HTTP error. -/
def httpFailure (code : ℕ) (reason responseBody : String) : ExecutionResult where
  status := .failed
  error := some
    { message := s!"HTTP {code}: {reason}. Response: {responseBody}"
      errorType := "HTTPError"
      isTransient := decide (500 ≤ code ∧ code < 600) }

section Contract

/-- The next call returns the results one after the other. -/
def returning (results : ℕ → ExecutionResult) : Call σ τ := fun arguments w =>
  ({ w with asked := w.asked ++ [arguments] }, .ok (results w.asked.length))

/-- The result carries an error that is not transient. -/
def Permanent (result : ExecutionResult) : Prop :=
  ∃ error, result.error = some error ∧ error.isTransient = false

/-- The retries that are permitted. -/
def permitted (policy : ExecutionPolicy) : ℕ := policy.maxRetries.toNat

/-- After the result there is no further call, as it should be. -/
def Ends (policy : ExecutionPolicy) (results : ℕ → ExecutionResult) (k : ℕ) : Prop :=
  (results k).status = .succeeded ∨ Permanent (results k) ∨ k = permitted policy

variable (ambient : Ambient τ) (pass : ℚ → σ → σ) (request : ExecutionRequest)
  (context : ExecutionContext σ τ) (results : ℕ → ExecutionResult)

/-- How the loop goes on after some retries. -/
def rest (attempts : ℕ) (w : World σ τ (Arguments σ τ)) : World σ τ (Arguments σ τ) × Outcome :=
  (RetryMiddleware.loop ambient pass request context attempts).run (returning results) w

/-- The next call is made up to the first result that ends it, which is returned. -/
def KeepsContract (state : σ) (observed : τ) : Prop :=
  let processed := (RetryMiddleware.process ambient pass (request, context)).run
    (returning results) { state, observed }
  ∃ k, IsLeast {k | Ends request.policy results k} k ∧
    processed.1.asked = List.replicate (k + 1) (request, context) ∧
    processed.2 = .ok (results k)

/-- No permanent error is retried, and a delay can be slept for or is not needed. -/
def Retriable : Prop :=
  (∀ n < permitted request.policy, (∀ m ≤ n, (results m).status ≠ .succeeded) →
    ¬ Permanent (results n)) ∧
  (0 ≤ request.policy.retryDelaySeconds ∨ (results 0).status = .succeeded ∨
    request.policy.maxRetries ≤ 0)

variable {ambient pass request context results}

theorem run_sleep {next : Call σ τ} {seconds : ℚ} (h : 0 ≤ seconds) (proceed : Process σ τ)
    (w : World σ τ (Arguments σ τ)) :
    (sleep pass seconds proceed).run next w =
      proceed.run next { w with state := pass seconds w.state } := by
  rw [sleep, if_neg (not_lt.mpr h)]
  rfl

/-- The event changes the state and what is observed, and nothing else. -/
theorem run_appendRetried {next : Call σ τ} {attempts : ℤ} {proceed : Process σ τ}
    {w : World σ τ (Arguments σ τ)} {P : World σ τ (Arguments σ τ) × Outcome → Prop}
    (h : ∀ state observed, P (proceed.run next { state, asked := w.asked, observed })) :
    P ((appendRetried ambient context attempts proceed).run next w) := by
  unfold appendRetried
  split
  · exact h w.state w.observed
  · simp only [Program.run]
    split
    · exact h _ w.observed
    · exact h _ _

section Attempts

variable {attempts : ℕ} {w : World σ τ (Arguments σ τ)}

/-- An attempt that is not retried. -/
theorem rest_last (h : (results w.asked.length).status = .succeeded ∨
    permitted request.policy ≤ attempts) :
    rest ambient pass request context results attempts w =
      ({ w with asked := w.asked ++ [(request, context)] }, .ok (results w.asked.length)) := by
  rw [permitted] at h
  rw [rest, RetryMiddleware.loop]
  simp only [Program.run, returning]
  by_cases hstatus : (results w.asked.length).status = .succeeded
  · rw [if_pos hstatus]
    rfl
  · have hused := h.resolve_left hstatus
    rw [if_neg hstatus, if_pos (by omega)]
    rfl

/-- An attempt that is retried after the delay. -/
theorem rest_retried (hstatus : (results w.asked.length).status ≠ .succeeded)
    (hleft : attempts < permitted request.policy)
    (hdelay : 0 ≤ request.policy.retryDelaySeconds) :
    ∃ state observed, rest ambient pass request context results attempts w =
      rest ambient pass request context results (attempts + 1)
        { state, asked := w.asked ++ [(request, context)], observed } := by
  rw [permitted] at hleft
  rw [rest, RetryMiddleware.loop]
  simp only [Program.run, returning]
  rw [if_neg hstatus, if_neg (by omega)]
  apply run_appendRetried (P := fun run => ∃ state observed, run =
    rest ambient pass request context results (attempts + 1)
      { state, asked := w.asked ++ [(request, context)], observed })
  intro state observed
  exact ⟨pass request.policy.retryDelaySeconds state, observed, run_sleep hdelay _ _⟩

/-- A negative delay cannot be slept for. -/
theorem rest_raised (hstatus : (results w.asked.length).status ≠ .succeeded)
    (hleft : attempts < permitted request.policy)
    (hdelay : request.policy.retryDelaySeconds < 0) :
    (rest ambient pass request context results attempts w).2 =
      .error (valueError "sleep length must be non-negative") := by
  rw [permitted] at hleft
  rw [rest, RetryMiddleware.loop]
  simp only [Program.run, returning]
  rw [if_neg hstatus, if_neg (by omega)]
  apply run_appendRetried (P := fun run =>
    run.2 = .error (valueError "sleep length must be non-negative"))
  intro state observed
  rw [sleep, if_pos hdelay]
  rfl

end Attempts

variable (ambient pass context)

/-- The loop ends with the first success or the last permitted attempt. -/
theorem rest_ends (hdelay : 0 ≤ request.policy.retryDelaySeconds) (left : ℕ) :
    ∀ {attempts : ℕ} {w : World σ τ (Arguments σ τ)},
      attempts + left = permitted request.policy →
      w.asked = List.replicate attempts (request, context) →
      ∃ k, k ≤ permitted request.policy ∧
        (∀ n, attempts ≤ n → n < k → (results n).status ≠ .succeeded) ∧
        ((results k).status = .succeeded ∨ k = permitted request.policy) ∧
        (rest ambient pass request context results attempts w).1.asked =
          List.replicate (k + 1) (request, context) ∧
        (rest ambient pass request context results attempts w).2 = .ok (results k) := by
  induction left with
  | zero =>
    intro attempts w hleft hasked
    have hlength : w.asked.length = attempts := by rw [hasked, List.length_replicate]
    have hused : permitted request.policy ≤ attempts := hleft.ge
    refine ⟨attempts, hleft.le, fun n hge hlt => absurd hlt (not_lt.mpr hge), .inr hleft, ?_⟩
    rw [rest_last (.inr hused), hlength]
    exact ⟨by rw [hasked, ← List.replicate_succ'], rfl⟩
  | succ left ih =>
    intro attempts w hleft hasked
    have hlength : w.asked.length = attempts := by rw [hasked, List.length_replicate]
    by_cases hstatus : (results attempts).status = .succeeded
    · refine ⟨attempts, by omega, fun n hge hlt => absurd hlt (not_lt.mpr hge), .inl hstatus, ?_⟩
      rw [rest_last (.inl (by rw [hlength, hstatus])), hlength]
      exact ⟨by rw [hasked, ← List.replicate_succ'], rfl⟩
    · have hlost : (results w.asked.length).status ≠ .succeeded := by rwa [hlength]
      have hpermitted : attempts < permitted request.policy := by omega
      obtain ⟨state, observed, hretried⟩ := rest_retried hlost hpermitted hdelay
      rw [hretried]
      have hleft' : attempts + 1 + left = permitted request.policy := by omega
      obtain ⟨k, hk, hbefore, hend, hended⟩ := ih
        (w := { state, asked := w.asked ++ [(request, context)], observed }) hleft'
        (by rw [hasked, ← List.replicate_succ'])
      refine ⟨k, hk, fun n hge hlt => ?_, hend, hended⟩
      rcases hge.eq_or_lt with rfl | hgt
      · exact hstatus
      · exact hbefore n hgt hlt

/-- What the loop does from the start, where no delay has to be slept for that cannot be. -/
theorem rest_ends_from_start (hsleeps : 0 ≤ request.policy.retryDelaySeconds ∨
      (results 0).status = .succeeded ∨ request.policy.maxRetries ≤ 0) (state : σ) (observed : τ) :
    ∃ k, k ≤ permitted request.policy ∧ (∀ n < k, (results n).status ≠ .succeeded) ∧
      ((results k).status = .succeeded ∨ k = permitted request.policy) ∧
      (rest ambient pass request context results 0 { state, observed }).1.asked =
        List.replicate (k + 1) (request, context) ∧
      (rest ambient pass request context results 0 { state, observed }).2 = .ok (results k) := by
  rcases hsleeps with hdelay | hfirst
  · obtain ⟨k, hk, hbefore, hended⟩ := rest_ends ambient pass context hdelay
      (permitted request.policy) (w := { state, observed }) (Nat.zero_add _) rfl
    exact ⟨k, hk, fun n hn => hbefore n (Nat.zero_le n) hn, hended⟩
  · have hlast : (results 0).status = .succeeded ∨ permitted request.policy ≤ 0 := by
      rw [permitted]
      exact hfirst.imp_right fun h => by omega
    refine ⟨0, Nat.zero_le _, fun n hn => absurd hn (Nat.not_lt_zero n), ?_, ?_⟩
    · exact hlast.imp_right fun h => (Nat.le_zero.mp h).symm
    · rw [rest_last hlast]
      exact ⟨rfl, rfl⟩

variable (request results)

/-- The contract is kept exactly when no permanent error is retried, as long as the
delay can be slept for. -/
theorem keepsContract_iff (state : σ) (observed : τ) :
    KeepsContract ambient pass request context results state observed ↔
      Retriable request results := by
  have hstart : (RetryMiddleware.process ambient pass (request, context)).run (returning results)
      { state, observed } = rest ambient pass request context results 0 { state, observed } := rfl
  rw [KeepsContract, hstart]
  by_cases hsleeps : 0 ≤ request.policy.retryDelaySeconds ∨ (results 0).status = .succeeded ∨
      request.policy.maxRetries ≤ 0
  · -- the loop ends with the first success or the last permitted attempt
    obtain ⟨last, hlast, hbefore, hend, hasked, hreturned⟩ :=
      rest_ends_from_start ambient pass context hsleeps state observed
    constructor
    · rintro ⟨k, hleast, hasked', -⟩
      have hlength := congrArg List.length (hasked.symm.trans hasked')
      rw [List.length_replicate, List.length_replicate] at hlength
      obtain rfl : last = k := Nat.succ.inj hlength
      refine ⟨fun n hn hfailed hpermanent => ?_, hsleeps⟩
      have hle : last ≤ n := hleast.2 (.inr (.inl hpermanent))
      rcases hend with hsucceeded | hused
      · exact hfailed last hle hsucceeded
      · omega
    · rintro ⟨hretried, -⟩
      refine ⟨last, ⟨hend.imp_right .inr, fun n hends => ?_⟩, hasked, hreturned⟩
      by_contra hlt
      have hlt := not_le.mp hlt
      rcases hends with hsucceeded | hpermanent | hused
      · exact hbefore n hlt hsucceeded
      · refine hretried n (by omega) (fun m hm => hbefore m (by omega)) hpermanent
      · omega
  · -- the first attempt is retried, and sleeping raises
    push Not at hsleeps
    obtain ⟨hdelay, hstatus, hretries⟩ := hsleeps
    have hpermitted : 0 < permitted request.policy := by
      rw [permitted]
      omega
    refine iff_of_false ?_ ?_
    · rintro ⟨k, -, -, hreturned⟩
      rw [rest_raised hstatus hpermitted hdelay] at hreturned
      cases hreturned
    · rintro ⟨-, hdelay' | hstatus' | hretries'⟩
      · exact absurd hdelay' (not_le.mpr hdelay)
      · exact hstatus hstatus'
      · exact absurd hretries' (not_le.mpr hretries)

end Contract

/-- Nothing is written, and no time passes. -/
def Ambient.quiet : Ambient Unit where
  time observed := (observed, 0)
  logger := ⟨fun _ observed => observed, fun _ observed => observed, fun _ observed => observed⟩
  fixed4 _ := ""
  text _ := ""

/-- A page that is not found is asked for three times with two retries. -/
theorem notFound_retried :
    let request : ExecutionRequest :=
      { executorType := "http", payload := .empty, policy := { maxRetries := 2 } }
    let context : ExecutionContext Unit Unit :=
      { runtimeId := "rt", taskId := "t", workerId := "w" }
    let results : ℕ → ExecutionResult := fun _ => httpFailure 404 "Not Found" ""
    Permanent (results 0) ∧
      (rest Ambient.quiet (fun _ state => state) request context results 0
        { state := (), observed := () }).1.asked.length = 3 ∧
      ¬ KeepsContract Ambient.quiet (fun _ state => state) request context results () () := by
  intro request context results
  have hpermanent : Permanent (results 0) := ⟨_, rfl, rfl⟩
  have hsleeps : 0 ≤ request.policy.retryDelaySeconds ∨ (results 0).status = .succeeded ∨
      request.policy.maxRetries ≤ 0 := .inl (by decide)
  obtain ⟨last, -, -, hend, hasked, -⟩ := rest_ends_from_start Ambient.quiet
    (fun _ state => state) context hsleeps () ()
  have hlast : last = 2 := hend.resolve_left (by decide)
  have hcalls : (rest Ambient.quiet (fun _ state => state) request context results 0
      { state := (), observed := () }).1.asked.length = 3 := by
    rw [hasked, hlast, List.length_replicate]
  refine ⟨hpermanent, hcalls, ?_⟩
  rintro ⟨k, hleast, hasked', -⟩
  have hk : k = 0 := Nat.le_zero.mp (hleast.2 (.inr (.inl hpermanent)))
  have hlength := congrArg List.length hasked'
  rw [List.length_replicate, hk] at hlength
  exact absurd (hcalls.symm.trans hlength) (by decide)

end MollisRuntime.Executors.Middleware
