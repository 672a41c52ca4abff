import MollisRuntime.Python.Numbers
import MollisRuntime.Task

/-!
Retry and timeout policies. A task object has a status and metadata, which may
hold the two policies; the number of retries is an entry of the metadata. It is
counted, and the task is PENDING again, before the delay is computed.
-/
namespace MollisRuntime.Scheduling

open Ordered Python

/-- An exception: the classes it is an instance of, and its text. -/
structure Raised where
  classes : List String
  message : String
  deriving DecidableEq, Repr

def Raised.typeError (message : String) : Raised := ⟨["TypeError", "Exception"], message⟩

def Raised.keyError (key : String) : Raised :=
  ⟨["KeyError", "LookupError", "Exception"], s!"'{key}'"⟩

/-- What the scheduler hands to the retry engine when an attempt times out. -/
def Raised.timeout : Raised :=
  ⟨["TimeoutError", "OSError", "Exception"], "Task execution exceeded timeout threshold."⟩

/-- The float operations that the scheduler uses. A power may be out of range,
and so may the seconds of a timedelta. -/
class FloatArith where
  add : Number → Number → Number
  mul : Number → Number → Number
  pow : Number → ℕ → Except Raised Number
  timedelta : ℚ → Except Raised ℚ

/-- Exact arithmetic, as the floats of small whole numbers have it. -/
abbrev FloatArith.exact : FloatArith where
  add a b := match a, b with
    | .finite p, .finite q => .finite (p + q)
    | .finite _, b => b
    | a, _ => a
  mul a b := match a, b with
    | .finite p, .finite q => .finite (p * q)
    | .finite _, b => b
    | a, _ => a
  pow a n := match a with
    | .finite q => .ok (.finite (q ^ n))
    | a => .ok a
  timedelta seconds := .ok seconds

structure RetryPolicy where
  maxRetries : ℤ
  initialDelaySeconds : Number := .finite 1
  backoffFactor : Number := .finite 2
  retryableExceptions : Option (List String) := none
  deriving DecidableEq

structure TimeoutPolicy where
  timeoutSeconds : ℚ
  deriving DecidableEq

/-- Exponential backoff. -/
def RetryPolicy.calculateDelay [FloatArith] (policy : RetryPolicy) (retryCount : ℤ) :
    Except Raised Number :=
  if retryCount ≤ 0 then .ok (.finite 0)
  else (FloatArith.mul policy.initialDelaySeconds) <$>
    FloatArith.pow policy.backoffFactor (retryCount - 1).toNat

/-- The metadata of a task. The policies are kept apart from the entries; a
value under one of their names that is no policy is an entry like others. -/
structure Metadata where
  entries : Attrs := .empty
  retryPolicy : Option RetryPolicy := none
  timeoutPolicy : Option TimeoutPolicy := none

namespace Metadata

/-- `task.metadata.get("retry_count", 0)` where it is compared with an integer. -/
def retryCount (m : Metadata) : Except Raised ℤ :=
  match m.entries.get? "retry_count" with
  | none => .ok 0
  | some (.int n) => .ok n
  | some (.bool b) => .ok (if b then 1 else 0)
  | some (.float q) =>
    if q.den = 1 then .ok q.num else .error (.typeError "retry_count is not a count")
  | some v => .error (.typeError
      s!"'>=' not supported between instances of '{v.typeName}' and 'int'")

def setRetryCount (m : Metadata) (count : ℤ) : Metadata :=
  { m with entries := m.entries.set "retry_count" (.int count) }

/-- The dictionary as json.dumps finds it. -/
def dump (m : Metadata) : Attrs :=
  let attrs := match m.retryPolicy with
    | none => m.entries
    | some _ => m.entries.set "retry_policy" (.object "RetryPolicy")
  match m.timeoutPolicy with
  | none => attrs
  | some _ => attrs.set "timeout_policy" (.object "TimeoutPolicy")

@[simp] theorem retryCount_setRetryCount (m : Metadata) (count : ℤ) :
    (m.setRetryCount count).retryCount = .ok count := by
  simp [retryCount, setRetryCount, Dict.get?_set_self]

end Metadata

/-- What may change of a task object. -/
structure TaskObject where
  status : TaskStatus := .pending
  metadata : Metadata := {}

namespace RetryEngine

def retryable (policy : RetryPolicy) (error : Raised) : Bool :=
  match policy.retryableExceptions with
  | none => true
  | some [] => true
  | some classes => classes.any fun cls => error.classes.contains cls

def shouldRetry (metadata : Metadata) (error : Raised) : Except Raised Bool :=
  match metadata.retryPolicy with
  | none => .ok false
  | some policy =>
    match metadata.retryCount with
    | .error e => .error e
    | .ok count =>
      if policy.maxRetries ≤ count then .ok false else .ok (retryable policy error)

/-- The task as it waits for its next attempt. -/
def retried (object : TaskObject) (count : ℤ) : TaskObject :=
  { status := .pending, metadata := object.metadata.setRetryCount count }

def prepareRetry [FloatArith] (object : TaskObject) : TaskObject × Except Raised Number :=
  match object.metadata.retryPolicy, object.metadata.retryCount with
  | none, _ => (object, .error (.keyError "retry_policy"))
  | some _, .error e => (object, .error e)
  | some policy, .ok count =>
    (retried object (count + 1), policy.calculateDelay (count + 1))

/-- A task that qualifies has a policy and a count. -/
theorem shouldRetry_true [FloatArith] {object : TaskObject} {error : Raised}
    (h : shouldRetry object.metadata error = .ok true) :
    ∃ policy count, object.metadata.retryPolicy = some policy ∧
      object.metadata.retryCount = .ok count ∧ count < policy.maxRetries ∧
      prepareRetry object =
        (retried object (count + 1), policy.calculateDelay (count + 1)) := by
  unfold shouldRetry at h
  cases hpolicy : object.metadata.retryPolicy with
  | none =>
    rw [hpolicy] at h
    cases h
  | some policy =>
    cases hcount : object.metadata.retryCount with
    | error e =>
      simp only [hpolicy, hcount] at h
      cases h
    | ok count =>
      simp only [hpolicy, hcount] at h
      split at h
      · cases h
      · rename_i hlimit
        refine ⟨policy, count, rfl, rfl, not_le.mp hlimit, ?_⟩
        simp only [prepareRetry, hpolicy, hcount]

/-- The delay does not depend on the status. -/
theorem prepareRetry_status [FloatArith] (object : TaskObject) (status : TaskStatus) :
    (prepareRetry { object with status }).2 = (prepareRetry object).2 := by
  simp only [prepareRetry]
  split <;> rfl

/-- With a count that can be compared, the engine decides. -/
theorem shouldRetry_ok {metadata : Metadata} {count : ℤ} (h : metadata.retryCount = .ok count)
    (error : Raised) : ∃ b, shouldRetry metadata error = .ok b := by
  unfold shouldRetry
  rw [h]
  split
  · exact ⟨_, rfl⟩
  · dsimp only
    split <;> exact ⟨_, rfl⟩

end RetryEngine

end MollisRuntime.Scheduling
