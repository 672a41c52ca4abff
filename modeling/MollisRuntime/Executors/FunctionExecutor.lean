import MollisRuntime.Executors.LegacyAdapter

/-!
FunctionExecutor. A function is called with keyword arguments only: the parameters of its
signature are looked up in the payload, in the dependencies and in the context, one after
the other. What the call makes of the keyword arguments is Python's own binding.
-/
namespace MollisRuntime.Executors.Injection

open Ordered

/-- A parameter that may be passed by keyword, `*args` or `**kwargs`. -/
inductive ParameterKind
  | keyword
  | varPositional
  | varKeyword
  deriving DecidableEq, Repr

structure Parameter (ν : Type) where
  name : String
  kind : ParameterKind := .keyword
  default : Option ν := none

/-- A signature as `inspect.signature` gives it. -/
structure Signature (ν : Type) where
  parameters : List (Parameter ν)
  distinct : (parameters.map Parameter.name).Nodup
  noDefault : ∀ p ∈ parameters, p.kind ≠ .keyword → p.default = none
  single : ∀ p ∈ parameters, ∀ q ∈ parameters, p.kind ≠ .keyword → p.kind = q.kind → p = q

/-- What a parameter is bound to. -/
inductive Bound (ν : Type)
  | value (v : ν)
  | noPositional
  | keywords (d : Dict String ν)

/-- Why Python refuses a call. -/
inductive Refusal
  | unexpectedKeyword (names : List String)
  | missing (names : List String)

abbrev Bindings (ν : Type) := Dict String (Bound ν)

namespace Signature

variable {ν : Type} (sig : Signature ν) (kwargs : Dict String ν)

def names : List String := sig.parameters.map Parameter.name

def keywordNames : List String :=
  (sig.parameters.filter fun p => p.kind = .keyword).map Parameter.name

/-- The keyword arguments that no parameter is named for. -/
def extras : Dict String ν := sig.keywordNames.foldl Dict.erase kwargs

def bound (p : Parameter ν) : Option (Bound ν) :=
  match p.kind with
  | .keyword => ((kwargs.get? p.name).or p.default).map .value
  | .varPositional => some .noPositional
  | .varKeyword => some (.keywords (sig.extras kwargs))

/-- The parameters that got nothing. -/
def unbound : List (Parameter ν) :=
  sig.parameters.filter fun p => (sig.bound kwargs p).isNone

theorem nodup_bindings :
    ((sig.parameters.filterMap fun p => (sig.bound kwargs p).map (p.name, ·)).map
      Prod.fst).Nodup := by
  refine sig.distinct.sublist ?_
  generalize sig.parameters = parameters
  induction parameters with
  | nil => exact List.Sublist.refl _
  | cons p rest ih =>
    rw [List.filterMap_cons]
    cases sig.bound kwargs p with
    | none => exact ih.cons _
    | some b => exact ih.cons_cons _

/-- `func(**kwargs)`: the extra keyword arguments need a `**kwargs`, and each parameter
without a default an argument. -/
def bind : Except Refusal (Bindings ν) :=
  if (sig.extras kwargs).keys ≠ [] ∧ ∀ p ∈ sig.parameters, p.kind ≠ .varKeyword then
    .error (.unexpectedKeyword (sig.extras kwargs).keys)
  else if (sig.unbound kwargs).isEmpty then
    .ok ⟨sig.parameters.filterMap fun p => (sig.bound kwargs p).map (p.name, ·),
      sig.nodup_bindings kwargs⟩
  else .error (.missing ((sig.unbound kwargs).map Parameter.name))

end Signature

structure ExecutionError where
  message : String
  errorType : String

/-- A registered function: its signature, what it does with its arguments, and how Python
words the TypeError of a call that it refuses. -/
structure Function (ν : Type) where
  signature : Signature ν
  body : Bindings ν → Except ExecutionError ν
  typeError : Refusal → String

structure ExecutionServices (ν : Type) where
  logger : Option ν := none
  eventStore : Option ν := none
  stateStore : Option ν := none
  configuration : Option ν := none

/-- The context, which may be passed on as an object, and its services. -/
structure ExecutionContext (ν : Type) where
  object : ν
  services : Option (ExecutionServices ν) := none

/-- The entries of the payload that are read. -/
structure Payload (ν : Type) where
  functionName : Option String
  kwargs : Option (Dict String ν) := none

/-- The readings of the clock, and how a time is written. -/
structure Times where
  startTime : ℚ
  stopTime : ℚ
  completed : ℚ
  strftime : ℚ → String

structure ExecutionMetadata where
  startedAt : String
  completedAt : String
  durationSeconds : ℚ

structure ExecutionResult (ν : Type) where
  status : ExecutionStatus
  output : Option ν := none
  error : Option ExecutionError := none
  metadata : ExecutionMetadata

inductive ExecutorError
  | valueError (message : String)
  | runtimeError (message : String)
  deriving DecidableEq, Repr

structure FunctionExecutor (ν : Type) where
  functions : Dict String (Function ν) := .empty
  dependencies : Dict String ν := .empty

/-- What the function was called with, unless Python refused the call, and the result. -/
structure Execution (ν : Type) where
  called : Option (Bindings ν)
  result : ExecutionResult ν

/-- The services that a parameter may be named for. -/
def ExecutionContext.service {ν : Type} (context : ExecutionContext ν) (name : String) : Option ν :=
  match name with
  | "logger" => context.services.bind ExecutionServices.logger
  | "event_store" => context.services.bind ExecutionServices.eventStore
  | "state_store" => context.services.bind ExecutionServices.stateStore
  | "config" => context.services.bind ExecutionServices.configuration
  | _ => none

namespace FunctionExecutor

variable {ν : Type} (executor : FunctionExecutor ν) (context : ExecutionContext ν)

/-- The sources of a parameter in order of priority; its kind is not looked at. -/
def resolve (kwargs : Dict String ν) (p : Parameter ν) : Except ExecutorError (Option ν) :=
  match kwargs.get? p.name with
  | some v => .ok (some v)
  | none =>
    match executor.dependencies.get? p.name with
    | some v => .ok (some v)
    | none =>
      match context.service p.name with
      | some v => .ok (some v)
      | none =>
        if p.name = "context" then .ok (some context.object)
        else if p.default.isSome then .ok none
        else .error (.runtimeError
          s!"Dependency injection failed: Parameter '{p.name}' is required but not resolved.")

def inject (kwargs : Dict String ν) :
    List (Parameter ν) → Dict String ν → Except ExecutorError (Dict String ν)
  | [], injected => .ok injected
  | p :: rest, injected =>
    match executor.resolve context kwargs p with
    | .error e => .error e
    | .ok none => inject kwargs rest injected
    | .ok (some v) => inject kwargs rest (injected.set p.name v)

def metadata (times : Times) : ExecutionMetadata where
  startedAt := times.strftime times.startTime
  completedAt := times.strftime times.completed
  durationSeconds := times.stopTime - times.startTime

/-- `func(**injected_kwargs)`, with what is raised made a result -/
def run (times : Times) (function : Function ν) (injected : Dict String ν) : Execution ν :=
  match function.signature.bind injected with
  | .error refusal =>
    { called := none
      result :=
        { status := .failed
          error := some ⟨function.typeError refusal, "TypeError"⟩
          metadata := metadata times } }
  | .ok bindings =>
    { called := some bindings
      result :=
        match function.body bindings with
        | .ok output => { status := .succeeded, output := some output, metadata := metadata times }
        | .error e => { status := .failed, error := some e, metadata := metadata times } }

def executeRequest (times : Times) (payload : Payload ν) : Except ExecutorError (Execution ν) :=
  match payload.functionName.filter (· ≠ "") with
  | none => .error (.valueError "ExecutionRequest payload must contain 'function_name'.")
  | some functionName =>
    match executor.functions.get? functionName with
    | none => .error (.valueError s!"No function registered with name: {functionName}")
    | some function =>
      match executor.inject context (payload.kwargs.getD .empty) function.signature.parameters
          .empty with
      | .error e => .error e
      | .ok injected => .ok (run times function injected)

end FunctionExecutor

end MollisRuntime.Executors.Injection
