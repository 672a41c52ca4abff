import MollisRuntime.Workflow.Builder

/-!
The workflow SDK. Compiling a workflow runs its body, and what the tasks of the body do
goes by a global pointer: with a builder there they are recorded, without one they are
executed. A body may compile other workflows, each with a builder of its own.
-/
namespace MollisRuntime.Workflow

open Ordered Python

/-- What is passed to a task, and what it returns. -/
inductive TaskArg
  | reference (nodeId : String)
  | other (value : Value)

def TaskArg.nodeId : TaskArg → Option String
  | .reference nodeId => some nodeId
  | .other _ => none

/-- A function with the task decorator. -/
structure TaskFunction where
  name : String
  executorType : String := "python"
  policy : Option NodePolicy := none
  capabilities : Option (List String) := none
  isCheckpoint : Bool := false
  isApproval : Bool := false
  func : List TaskArg → Dict String TaskArg → Except PyError Value

/-- The builders made so far, the global pointer to one of them, the tasks whose
functions were executed, and how each compilation ended. -/
structure Tracing where
  builders : List WorkflowBuilder := []
  currentBuilder : Option ℕ := none
  executed : List String := []
  compiled : List (String × Except PyError WorkflowDefinition) := []

def Tracing.builder (s : Tracing) (id : ℕ) : WorkflowBuilder := s.builders.getD id { name := "" }

/-- The body of a workflow: it calls tasks and compiles other workflows, and goes on
with what they return or raise. -/
inductive Body
  | exit (ended : Except PyError Unit)
  | call (task : TaskFunction) (args : List TaskArg) (kwargs : Dict String TaskArg)
      (proceed : Except PyError TaskArg → Body)
  | compile (name : String) (body : Body)
      (proceed : Except PyError WorkflowDefinition → Body)

namespace TaskFunction

variable (task : TaskFunction) (args : List TaskArg) (kwargs : Dict String TaskArg)

def parents : List String := args.filterMap TaskArg.nodeId ++ kwargs.values.filterMap TaskArg.nodeId

def payload : Attrs := Dict.empty.set "callable_name" (.str task.name)

/-- The node and its edges; an id that is taken raises. -/
def record (b : WorkflowBuilder) : WorkflowBuilder × Except PyError TaskArg :=
  match b.addNode task.name task.executorType task.payload (task.policy.getD {})
    (task.capabilities.getD []) {} task.isCheckpoint task.isApproval with
  | .error e => (b, .error e)
  | .ok b =>
    ((parents args kwargs).foldl (fun b parent => b.connect parent task.name) b,
      .ok (.reference task.name))

/-- The wrapper that the decorator puts around the function. -/
def wrapper (s : Tracing) : Tracing × Except PyError TaskArg :=
  match s.currentBuilder with
  | some id =>
    let recorded := task.record args kwargs (s.builder id)
    ({ s with builders := s.builders.set id recorded.1 }, recorded.2)
  | none => ({ s with executed := s.executed ++ [task.name] }, (task.func args kwargs).map .other)

end TaskFunction

/-- What comes of a compilation when the body has ended. -/
def built (b : WorkflowBuilder) : Except PyError Unit → Except PyError WorkflowDefinition
  | .error e => .error e
  | .ok () => b.build

/-- The pointer is set to a new builder. -/
def Tracing.enter (name : String) (s : Tracing) : Tracing :=
  { s with builders := s.builders ++ [{ name }], currentBuilder := some s.builders.length }

/-- The pointer is cleared, whether the body returned or raised. -/
def Tracing.leave (name : String) (id : ℕ) (ran : Tracing × Except PyError Unit) :
    Tracing × Except PyError WorkflowDefinition :=
  let outcome := built (ran.1.builder id) ran.2
  ({ ran.1 with currentBuilder := none, compiled := ran.1.compiled ++ [(name, outcome)] }, outcome)

def Body.run : Body → Tracing → Tracing × Except PyError Unit
  | .exit ended, s => (s, ended)
  | .call task args kwargs proceed, s =>
    let called := task.wrapper args kwargs s
    (proceed called.2).run called.1
  | .compile name body proceed, s =>
    let left := Tracing.leave name s.builders.length (body.run (s.enter name))
    (proceed left.2).run left.1

def compileWorkflow (name : String) (body : Body) (s : Tracing) :
    Tracing × Except PyError WorkflowDefinition :=
  Tracing.leave name s.builders.length (body.run (s.enter name))

/-- How a body is meant to be compiled: its tasks go to its own builder, whatever is
compiled in between. The second part is how the compilations ended. -/
def Body.intended : Body → WorkflowBuilder →
    WorkflowBuilder × List (String × Except PyError WorkflowDefinition) × Except PyError Unit
  | .exit ended, b => (b, [], ended)
  | .call task args kwargs proceed, b =>
    let recorded := task.record args kwargs b
    (proceed recorded.2).intended recorded.1
  | .compile name body proceed, b =>
    let inner := body.intended { name }
    let outcome := built inner.1 inner.2.2
    let rest := (proceed outcome).intended b
    (rest.1, inner.2.1 ++ (name, outcome) :: rest.2.1, rest.2.2)

/-- Compiling executes no task, and every definition is the one that is meant. -/
def KeepsNesting (name : String) (body : Body) (s : Tracing) : Prop :=
  let compiled := compileWorkflow name body s
  let intended := body.intended { name }
  let outcome := built intended.1 intended.2.2
  compiled.1.executed = s.executed ∧
    compiled.1.compiled = s.compiled ++ intended.2.1 ++ [(name, outcome)] ∧ compiled.2 = outcome

/-- In no body does a task follow another compilation; `after` says whether one has
been made. -/
def Body.Separated : Bool → Body → WorkflowBuilder → Prop
  | _, .exit _, _ => True
  | after, .call task args kwargs proceed, b =>
    let recorded := task.record args kwargs b
    after = false ∧ (proceed recorded.2).Separated after recorded.1
  | _, .compile name body proceed, b =>
    let inner := body.intended { name }
    body.Separated false { name } ∧ (proceed (built inner.1 inner.2.2)).Separated true b

namespace Tracing

/-- A body runs with its own builder; the pointer is at it until another compilation. -/
structure Within (s : Tracing) (id : ℕ) (b : WorkflowBuilder) (after : Bool) : Prop where
  bound : id < s.builders.length
  builder_eq : s.builder id = b
  pointer : s.currentBuilder = if after then none else some id

/-- From one state to the other no task was executed and of the builders there were
only the one of the body has changed. -/
structure Traces (s : Tracing) (id : ℕ) (t : Tracing) (b : WorkflowBuilder)
    (compiled : List (String × Except PyError WorkflowDefinition)) : Prop where
  executed_eq : t.executed = s.executed
  compiled_eq : t.compiled = s.compiled ++ compiled
  builder_eq : t.builder id = b
  others : ∀ j < s.builders.length, j ≠ id → t.builder j = s.builder j
  length_le : s.builders.length ≤ t.builders.length

variable {s t : Tracing} {id : ℕ} {b : WorkflowBuilder}

theorem builder_set_self (h : id < s.builders.length) :
    ({ s with builders := s.builders.set id b } : Tracing).builder id = b := by
  simp [builder, List.getD_eq_getElem?_getD, h]

theorem builder_set_ne {j : ℕ} (h : j ≠ id) :
    ({ s with builders := s.builders.set id b } : Tracing).builder j = s.builder j := by
  simp [builder, List.getD_eq_getElem?_getD, List.getElem?_set_ne h.symm]

theorem builder_enter_new (name : String) :
    (s.enter name).builder s.builders.length = { name } := by
  simp [builder, enter, List.getD_eq_getElem?_getD]

theorem builder_enter_old (name : String) {j : ℕ} (h : j < s.builders.length) :
    (s.enter name).builder j = s.builder j := by
  simp [builder, enter, List.getD_eq_getElem?_getD, List.getElem?_append_left h]

theorem length_enter (name : String) :
    (s.enter name).builders.length = s.builders.length + 1 := List.length_append

theorem within_enter (name : String) : (s.enter name).Within s.builders.length { name } false :=
  ⟨by rw [length_enter]; exact Nat.lt_succ_self _, builder_enter_new name, rfl⟩

theorem Traces.refl (s : Tracing) (id : ℕ) : s.Traces id s (s.builder id) [] :=
  ⟨rfl, (List.append_nil _).symm, rfl, fun _ _ _ => rfl, le_rfl⟩

theorem Traces.trans {r : Tracing} {c : WorkflowBuilder}
    {compiled compiled' : List (String × Except PyError WorkflowDefinition)}
    (h : s.Traces id t b compiled) (h' : t.Traces id r c compiled') :
    s.Traces id r c (compiled ++ compiled') where
  executed_eq := h'.executed_eq.trans h.executed_eq
  compiled_eq := by rw [h'.compiled_eq, h.compiled_eq, List.append_assoc]
  builder_eq := h'.builder_eq
  others j hj hne := (h'.others j (hj.trans_le h.length_le) hne).trans (h.others j hj hne)
  length_le := h.length_le.trans h'.length_le

end Tracing

section Nesting

variable {s : Tracing} {id : ℕ} {b : WorkflowBuilder} {after : Bool}

/-- With the pointer at a builder the call is recorded there. -/
theorem wrapper_recorded (task : TaskFunction) (args : List TaskArg) (kwargs : Dict String TaskArg)
    (h : s.Within id b false) :
    let called := task.wrapper args kwargs s
    let recorded := task.record args kwargs b
    called.2 = recorded.2 ∧ called.1.Within id recorded.1 false ∧
      s.Traces id called.1 recorded.1 [] := by
  have hwrapper : task.wrapper args kwargs s =
      ({ s with builders := s.builders.set id (task.record args kwargs b).1 },
        (task.record args kwargs b).2) := by
    have hpointer : s.currentBuilder = some id := h.pointer
    unfold TaskFunction.wrapper
    split
    next current hcurrent =>
      obtain rfl := Option.some.inj (hcurrent.symm.trans hpointer)
      rw [h.builder_eq]
    next hnone => cases hnone.symm.trans hpointer
  intro called recorded
  have hbuilder : called.1.builder id = recorded.1 := by
    rw [show called = _ from hwrapper]
    exact Tracing.builder_set_self h.bound
  refine ⟨congrArg Prod.snd hwrapper, ⟨?_, hbuilder, ?_⟩, ?_⟩
  · rw [show called = _ from hwrapper, List.length_set]
    exact h.bound
  · rw [show called = _ from hwrapper]
    exact h.pointer
  · refine ⟨?_, ?_, hbuilder, fun j hj hne => ?_, ?_⟩
    all_goals rw [show called = _ from hwrapper]
    · exact (List.append_nil _).symm
    · exact Tracing.builder_set_ne hne
    · rw [List.length_set]

/-- Another compilation leaves the enclosing builder, and no pointer. -/
theorem left_traces {name : String} {ran : Tracing × Except PyError Unit}
    {inner : WorkflowBuilder} {compiled : List (String × Except PyError WorkflowDefinition)}
    (h : s.Within id b after)
    (hran : (s.enter name).Traces s.builders.length ran.1 inner compiled) :
    let left := Tracing.leave name s.builders.length ran
    left.2 = built inner ran.2 ∧ left.1.Within id b true ∧
      s.Traces id left.1 b (compiled ++ [(name, built inner ran.2)]) := by
  intro left
  have houtcome : left.2 = built inner ran.2 := congrArg (built · ran.2) hran.builder_eq
  have hold (j : ℕ) (hj : j < s.builders.length) : left.1.builder j = s.builder j := by
    have hentered : j < (s.enter name).builders.length := by
      rw [Tracing.length_enter]
      omega
    exact (hran.others j hentered hj.ne).trans (Tracing.builder_enter_old name hj)
  have hlength : s.builders.length ≤ left.1.builders.length := by
    have hle := hran.length_le
    rw [Tracing.length_enter] at hle
    exact (Nat.le_succ _).trans hle
  refine ⟨houtcome, ⟨h.bound.trans_le hlength, (hold id h.bound).trans h.builder_eq, rfl⟩,
    ⟨hran.executed_eq, ?_, (hold id h.bound).trans h.builder_eq, fun j hj _ => hold j hj, hlength⟩⟩
  rw [← houtcome, ← List.append_assoc]
  exact congrArg (· ++ [(name, left.2)]) hran.compiled_eq

/-- Where no task follows another compilation, a body runs as it is meant to. -/
theorem run_of_separated (body : Body) :
    ∀ {s : Tracing} {id : ℕ} {b : WorkflowBuilder} {after : Bool}, s.Within id b after →
      body.Separated after b →
      s.Traces id (body.run s).1 (body.intended b).1 (body.intended b).2.1 ∧
        (body.run s).2 = (body.intended b).2.2 := by
  induction body with
  | exit ended =>
    intro s id b after h _
    refine ⟨?_, rfl⟩
    have hrefl := Tracing.Traces.refl s id
    rwa [h.builder_eq] at hrefl
  | call task args kwargs proceed ih =>
    intro s id b after h hseparated
    obtain ⟨rfl, hrest⟩ := hseparated
    obtain ⟨hreturned, hwithin, htraces⟩ := wrapper_recorded task args kwargs h
    rw [Body.run, Body.intended, hreturned]
    obtain ⟨htraces', hended⟩ := ih _ hwithin hrest
    exact ⟨htraces.trans htraces', hended⟩
  | compile name body proceed ihBody ihProceed =>
    intro s id b after h hseparated
    obtain ⟨hbody, hrest⟩ := hseparated
    obtain ⟨hran, hended⟩ := ihBody (Tracing.within_enter name) hbody
    obtain ⟨houtcome, hwithin, htraces⟩ := left_traces h hran
    rw [hended] at houtcome htraces
    rw [Body.run, Body.intended, houtcome]
    obtain ⟨htraces', hended'⟩ := ihProceed _ hwithin hrest
    refine ⟨?_, hended'⟩
    have hboth := htraces.trans htraces'
    rwa [List.append_assoc] at hboth

/-- Without a pointer the function is executed. -/
theorem wrapper_executed (task : TaskFunction) (args : List TaskArg) (kwargs : Dict String TaskArg)
    (h : s.currentBuilder = none) :
    (task.wrapper args kwargs s).1.executed = s.executed ++ [task.name] := by
  unfold TaskFunction.wrapper
  split
  next hcurrent => cases h.symm.trans hcurrent
  next => rfl

theorem length_executed_wrapper (task : TaskFunction) (args : List TaskArg)
    (kwargs : Dict String TaskArg) (s : Tracing) :
    s.executed.length ≤ (task.wrapper args kwargs s).1.executed.length := by
  cases hcurrent : s.currentBuilder with
  | none =>
    rw [wrapper_executed task args kwargs hcurrent, List.length_append]
    exact Nat.le_add_right _ _
  | some id =>
    unfold TaskFunction.wrapper
    rw [hcurrent]

theorem length_executed_run (body : Body) (s : Tracing) :
    s.executed.length ≤ (body.run s).1.executed.length := by
  induction body generalizing s with
  | exit ended => exact le_rfl
  | call task args kwargs proceed ih =>
    exact (length_executed_wrapper task args kwargs s).trans (ih _ _)
  | compile name body proceed ihBody ihProceed =>
    let left := Tracing.leave name s.builders.length (body.run (s.enter name))
    exact (ihBody (s.enter name)).trans (ihProceed left.2 left.1)

/-- Where a task follows another compilation, it is executed. -/
theorem executed_of_not_separated (body : Body) :
    ∀ {s : Tracing} {id : ℕ} {b : WorkflowBuilder} {after : Bool}, s.Within id b after →
      ¬ body.Separated after b → s.executed.length < (body.run s).1.executed.length := by
  induction body with
  | exit ended => exact fun _ hnot => absurd trivial hnot
  | call task args kwargs proceed ih =>
    intro s id b after h hnot
    cases after with
    | true =>
      -- the compilation before it has reset the pointer
      have hexecuted := wrapper_executed task args kwargs h.pointer
      refine Nat.lt_of_lt_of_le ?_ (length_executed_run (proceed _) _)
      rw [hexecuted, List.length_append]
      exact Nat.lt_succ_self _
    | false =>
      obtain ⟨hreturned, hwithin, htraces⟩ := wrapper_recorded task args kwargs h
      have hrest := ih (task.record args kwargs b).2 hwithin fun hrest => hnot ⟨rfl, hrest⟩
      rw [htraces.executed_eq, ← hreturned] at hrest
      exact hrest
  | compile name body proceed ihBody ihProceed =>
    intro s id b after h hnot
    have hwithin := s.within_enter name
    by_cases hbody : body.Separated false { name }
    · obtain ⟨hran, hended⟩ := run_of_separated body hwithin hbody
      obtain ⟨houtcome, hwithin', htraces⟩ := left_traces h hran
      rw [hended] at houtcome
      have hrest := ihProceed _ hwithin' fun hrest => hnot ⟨hbody, hrest⟩
      rw [htraces.executed_eq, ← houtcome] at hrest
      exact hrest
    · let left := Tracing.leave name s.builders.length (body.run (s.enter name))
      exact (ihBody hwithin hbody).trans_le (length_executed_run (proceed left.2) left.1)

/-- A nested compilation keeps to itself exactly when no task follows another
compilation in the same body. -/
theorem keepsNesting_iff (name : String) (body : Body) (s : Tracing) :
    KeepsNesting name body s ↔ body.Separated false { name } := by
  have hwithin := s.within_enter name
  constructor
  · rintro ⟨hexecuted, -, -⟩
    by_contra hnot
    have hlt := executed_of_not_separated body hwithin hnot
    exact hlt.ne (congrArg List.length hexecuted.symm)
  · intro hseparated
    obtain ⟨hran, hended⟩ := run_of_separated body hwithin hseparated
    have houtcome : (compileWorkflow name body s).2 =
        built (body.intended { name }).1 (body.intended { name }).2.2 :=
      (congrArg (built · _) hran.builder_eq).trans (congrArg (built _) hended)
    refine ⟨hran.executed_eq, ?_, houtcome⟩
    change (body.run (s.enter name)).1.compiled ++ [(name, (compileWorkflow name body s).2)] = _
    rw [hran.compiled_eq, houtcome]
    rfl

end Nesting

section Samples

def plainTask (name : String) : TaskFunction := { name, func := fun _ _ => .ok .none }

/-- `a()`, then the compilation of a workflow that calls `x()`, then `b()`. -/
def interrupted : Body :=
  .call (plainTask "a") [] .empty fun _ =>
    .compile "inner" (.call (plainTask "x") [] .empty fun _ => .exit (.ok ())) fun _ =>
      .call (plainTask "b") [] .empty fun _ => .exit (.ok ())

/-- The task after the nested compilation is executed, and is no node. -/
theorem interrupted_executed :
    let compiled := compileWorkflow "outer" interrupted {}
    compiled.1.executed = ["b"] ∧ (compiled.2.map fun d => d.graph.nodeIds) = .ok ["a"] ∧
      ¬ KeepsNesting "outer" interrupted {} := by
  intro compiled
  have hexecuted : compiled.1.executed = ["b"] := by decide +kernel
  refine ⟨hexecuted, by decide +kernel, fun hkeeps => ?_⟩
  exact absurd (hexecuted.symm.trans hkeeps.1) (by decide)

end Samples

end MollisRuntime.Workflow
