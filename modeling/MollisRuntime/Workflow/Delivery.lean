import MollisRuntime.Workflow.Discipline

/-!
Runs in which every event is the one final event of a RUNNING node, with an
outcome that is fixed for the node and does not fail the workflow. In such runs
the states and the outputs of the finished nodes are known, and the nodes that
have left PENDING are exactly those handed to the scheduler.
-/
namespace MollisRuntime.Workflow

open Ordered Python Persistence Precedence

inductive NodeOutcome
  | success (result : Value)
  | failure

namespace NodeOutcome

def state : NodeOutcome → NodeState
  | .success _ => .succeeded
  | .failure => .skipped

/-- The output frame that the outcome leaves, if it leaves one. -/
def frame : NodeOutcome → Option Attrs
  | .success result => some (Dict.empty.set "result" result)
  | .failure => none

/-- A final event that reports the outcome. -/
def Matches (o : NodeOutcome) (e : RuntimeEvent) : Prop :=
  match o with
  | .success result => e.isCompletion = true ∧ e.result = result
  | .failure => e.isFailure = true

theorem isDone_state (o : NodeOutcome) : o.state.isDone = true := by
  cases o <;> rfl

theorem Matches.isTerminal {o : NodeOutcome} {e : RuntimeEvent} (h : o.Matches e) :
    e.isTerminal = true := by
  cases o with
  | success result => simp [RuntimeEvent.isTerminal, h.1]
  | failure =>
    unfold Matches at h
    simp [RuntimeEvent.isTerminal, h]

end NodeOutcome

/-- An outcome for each node: results are JSON, and a node fails only where the
workflow ignores failures and the node has no policy of its own. -/
structure Outcomes (d : WorkflowDefinition) where
  outcome : String → NodeOutcome
  json : ∀ n result, outcome n = .success result → result.isJson = true
  ignored : ∀ n, outcome n = .failure → d.policy.failureHandling = .ignore ∧
    ∀ node, d.graph.nodes.get? n = some node → node.policy.failureHandling = none

/-- The call is an event that reports the outcome of the node. -/
def Announces {d : WorkflowDefinition} (id : String) (o : Outcomes d) (call : Env × Operation)
    (n : String) : Prop :=
  call.1.Accepting ∧ ∃ e, call.2 = .event e ∧ e.workflowInstanceId = some id ∧
    e.nodeId = some n ∧ (o.outcome n).Matches e

/-- The call reports the outcome of a node that is RUNNING. -/
def Delivers {d : WorkflowDefinition} (id : String) (o : Outcomes d)
    (c : Store × List Submission) (call : Env × Operation) : Prop :=
  ∃ n, Announces id o call n ∧ runningAt c.1 id n = true

section Handling
variable {d : WorkflowDefinition}

/-- What a delivered event makes of the instance, before the completion check. -/
structure Handled (o : Outcomes d) (inst : WorkflowInstance) (n : String)
    (handled : WorkflowInstance) : Prop where
  status : handled.status = inst.status
  states : handled.nodeStates = inst.nodeStates.set n (o.outcome n).state
  outputs : ∀ m, handled.nodeOutputs.get? m =
    if n = m then (o.outcome n).frame.or (inst.nodeOutputs.get? m)
    else inst.nodeOutputs.get? m

theorem failurePolicyAt_ignored (o : Outcomes d) {n : String} (hn : n ∈ d.graph.nodeIds)
    (ho : o.outcome n = .failure) : failurePolicyAt d n = .ok .ignore := by
  obtain ⟨hworkflow, hnode⟩ := o.ignored n ho
  obtain ⟨node, hget⟩ := (Dict.mem_keys_iff _ _).mp hn
  simp [failurePolicyAt, hget, WorkflowDefinition.failureHandling, hnode node hget, hworkflow]

theorem NodeOutcome.Matches.notCompletion {o : NodeOutcome} {e : RuntimeEvent}
    (h : o.Matches e) (ho : o = .failure) : e.isCompletion = false := by
  subst ho
  rw [Bool.eq_false_iff]
  intro hc
  have hf : e.isFailure = true := h
  rw [RuntimeEvent.not_failure_of_completion hc] at hf
  contradiction

/-- The event gives its node the outcome's state. -/
theorem terminalState_matches (o : Outcomes d) {e : RuntimeEvent} {n : String}
    (hn : n ∈ d.graph.nodeIds) (hmatch : (o.outcome n).Matches e) :
    terminalState d n e = (o.outcome n).state := by
  cases ho : o.outcome n with
  | success result =>
    rw [ho] at hmatch
    exact terminalState_of_completion d n hmatch.1
  | failure =>
    rw [terminalState_of_policy (hmatch.notCompletion ho) (failurePolicyAt_ignored o hn ho),
      if_pos rfl]
    rfl

theorem handleEvent_matches (o : Outcomes d) (now : String) {inst : WorkflowInstance}
    {e : RuntimeEvent} {n : String} (hd : inst.definition = d) (hn : n ∈ d.graph.nodeIds)
    (hnode : e.nodeId = some n) (hmatch : (o.outcome n).Matches e)
    (hjson : inst.toDict.isJson = true) :
    ∃ handled, handleEvent now inst e n = .ok handled ∧ handled.toDict.isJson = true ∧
      Handled o inst n handled := by
  have hresult : e.isCompletion = true → e.result.isJson = true := by
    intro hc
    cases ho : o.outcome n with
    | success result =>
      rw [ho] at hmatch
      exact hmatch.2 ▸ o.json n result ho
    | failure =>
      rw [hmatch.notCompletion ho] at hc
      contradiction
  obtain ⟨handled, hhandled, hsaved, happlied⟩ := handleEvent_applied now
    (show n ∈ inst.definition.graph.nodeIds by rw [hd]; exact hn) hnode hmatch.isTerminal hjson
    hresult
  have hstate : terminalState inst.definition n e = (o.outcome n).state := by
    rw [hd]
    exact terminalState_matches o hn hmatch
  refine ⟨handled, hhandled, hsaved, ?_, by rw [happlied.states, hstate], ?_⟩
  · rw [happlied.status, failsHard, hstate]
    cases o.outcome n <;> rfl
  · intro m
    rw [happlied.outputs]
    cases ho : o.outcome n with
    | success result =>
      rw [ho] at hmatch
      simp [completes, hnode, hmatch.1, NodeOutcome.frame, RuntimeEvent.outputFrame, hmatch.2]
    | failure => simp [completes, hmatch.notCompletion ho, NodeOutcome.frame]

/-- One delivery: the node's final state and output, the completion check, and
the pass that follows. -/
structure Delivery (id : String) (o : Outcomes d) (env : Env) (inst : WorkflowInstance)
    (n : String) (handled inst' : WorkflowInstance) (submitted : List Submission) : Prop where
  running : inst.nodeStates.get? n = some .running
  spec : Handled o inst n handled
  after : Belongs d id (completeIfDone env.now handled)
  passed : Passed env (completeIfDone env.now handled) inst' submitted

/-- A delivered event takes effect. -/
theorem deliver {id : String} (o : Outcomes d) {c : Store × List Submission} {env : Env}
    {e : RuntimeEvent} {n : String} (haddress : e.workflowInstanceId = some id)
    (hnode : e.nodeId = some n) (hmatch : (o.outcome n).Matches e)
    (hrunningAt : runningAt c.1 id n = true) {inst : WorkflowInstance}
    (hholds : c.1.Holds inst) (hbelongs : Belongs d id inst) (hclosed : d.graph.Closed)
    (hrun : inst.status = .running) :
    ∃ handled inst', (Operation.step id c.1 (env, .event e)).1.Holds inst' ∧
      Delivery id o env inst n handled inst'
        (own id (Operation.step id c.1 (env, .event e)).2) ∧
      Effect env inst (.event e) inst'
        (own id (Operation.step id c.1 (env, .event e)).2) := by
  have hrunning : inst.nodeStates.get? n = some .running := by
    rw [← runningAt_iff hholds, hbelongs.instanceId]
    exact hrunningAt
  have hn : n ∈ d.graph.nodeIds := hbelongs.tracked.open_mem n _ hrunning rfl
  obtain ⟨handled, hhandled, hjson, hspec⟩ :=
    handleEvent_matches o env.now hbelongs.definition hn hnode hmatch hholds.json
  have haddress' : e.workflowInstanceId = some inst.instanceId := by
    rw [haddress, hbelongs.instanceId]
  obtain ⟨inst', hsaved, _, hpassed⟩ := onRuntimeEvent_handled env c.1 hholds
    (hbelongs.wellFormed hclosed) haddress' hnode hrun hhandled hjson
  have hafter := belongs_handled hhandled hbelongs
  have hown : ∀ s ∈ (onRuntimeEvent env c.1 e).submitted, s.instanceId = id := by
    intro s hs
    rw [hpassed.instanceId s hs]
    exact hafter.instanceId
  refine ⟨handled, inst', hsaved, ?_, ?_⟩
  · rw [Operation.step, Operation.perform, own_eq_self hown]
    exact ⟨hrunning, hspec, hafter, hpassed⟩
  · rw [Operation.step, Operation.perform, own_eq_self hown]
    exact Effect.event e n handled inst' _ hrun haddress' hnode hhandled hpassed

end Handling

section Invariant
variable {d : WorkflowDefinition} {G : Dag String}

/-- The output of a node: its outcome's frame once it is done, before that
whatever `start_workflow` put there. -/
def expectedOutput (o : Outcomes d) (inputs : Attrs) (states : Dict String NodeState)
    (n : String) : Option Attrs :=
  if doneAt states n then (o.outcome n).frame.or ((startOutputs inputs).get? n)
  else (startOutputs inputs).get? n

/-- States and outputs tell the outcomes of the finished nodes, and the tasks
handed over are those of the nodes that have left PENDING. -/
structure Reported (o : Outcomes d) (inputs : Attrs) (inst : WorkflowInstance)
    (history : List Submission) : Prop where
  keys : inst.nodeStates.keys = d.graph.nodeIds
  final : ∀ n s, inst.nodeStates.get? n = some s → s.isDone = true → s = (o.outcome n).state
  outputs : ∀ n, inst.nodeOutputs.get? n = expectedOutput o inputs inst.nodeStates n
  dispatched : ∀ n s, inst.nodeStates.get? n = some s → s ≠ .pending →
    n ∈ history.map Submission.nodeId

variable {o : Outcomes d} {inputs : Attrs} {inst : WorkflowInstance}
  {history : List Submission}

theorem Reported.handled {handled : WorkflowInstance} {n : String}
    (h : Reported o inputs inst history) (hspec : Handled o inst n handled)
    (hrunning : inst.nodeStates.get? n = some .running) : Reported o inputs handled history where
  keys := by
    rw [hspec.states, Dict.keys_set_of_mem _ _ _ ((Dict.mem_keys_iff _ _).mpr ⟨_, hrunning⟩)]
    exact h.keys
  final m s hm hdone := by
    rw [hspec.states, Dict.get?_set] at hm
    split at hm
    · rename_i hnm
      cases hm
      rw [hnm]
    · exact h.final m s hm hdone
  outputs m := by
    have hbefore := h.outputs m
    rw [hspec.outputs, hspec.states]
    unfold expectedOutput at hbefore ⊢
    rw [doneAt_set, (o.outcome n).isDone_state]
    by_cases hnm : n = m
    · subst hnm
      have hnot : doneAt inst.nodeStates n = false := by simp [doneAt, hrunning, NodeState.isDone]
      rw [hnot] at hbefore
      simp only [if_true]
      rw [hbefore]
      rfl
    · simp only [if_neg hnm]
      exact hbefore
  dispatched m s hm hs := by
    rw [hspec.states, Dict.get?_set] at hm
    split at hm
    · rename_i hnm
      rw [← hnm]
      exact h.dispatched n .running hrunning (by simp)
    · exact h.dispatched m s hm hs

theorem Reported.completed {now : String} (h : Reported o inputs inst history) :
    Reported o inputs (completeIfDone now inst) history := by
  rcases completeIfDone_cases now inst with ⟨_, _, heq⟩ | ⟨_, heq⟩
  · rw [heq]
    exact ⟨h.keys, h.final, h.outputs, h.dispatched⟩
  · rw [heq]
    exact h

theorem Reported.passed {env : Env} {inst' : WorkflowInstance} {submitted : List Submission}
    (hpassed : Passed env inst inst' submitted) (hacc : env.Accepting)
    (h : Reported o inputs inst history) : Reported o inputs inst' (history ++ submitted) := by
  cases hpassed with
  | idle _ =>
    rw [List.append_nil]
    exact h
  | cut _ _ _ hraised => exact absurd hacc hraised
  | through _ _ _ hall =>
    have hdone : doneAt inst.advanced.nodeStates = doneAt inst.nodeStates :=
      funext inst.doneAt_advanced
    constructor
    · rw [inst.keys_advanced]
      exact h.keys
    · intro n s hn hs
      rw [inst.get?_advanced] at hn
      split at hn
      · cases hn
        simp [NodeState.isDone] at hs
      · exact h.final n s hn hs
    · intro n
      unfold expectedOutput
      rw [hdone]
      exact h.outputs n
    · intro n s hn hs
      rw [List.map_append, List.mem_append]
      rw [inst.get?_advanced] at hn
      split at hn
      · rename_i he
        right
        rw [hall]
        exact (inst.mem_eligibleNodes n).mpr he
      · exact Or.inl (h.dispatched n s hn hs)

/-- Nothing but deliveries has happened since the start. -/
structure Delivered (G : Dag String) (o : Outcomes d) (inputs : Attrs)
    (inst : WorkflowInstance) (history : List Submission) : Prop where
  status : inst.status = .running ∨ inst.status = .succeeded
  sound : Sound inst
  flowing : Flowing d G inst
  disciplined : Disciplined G inst history
  reported : Reported o inputs inst history

/-- A RUNNING node belongs to a running instance. -/
theorem Delivered.running_of_node (h : Delivered G o inputs inst history) {n : String}
    (hn : inst.nodeStates.get? n = some .running) : inst.status = .running := by
  rcases h.status with hrun | hsucceeded
  · exact hrun
  · have hdone := h.sound.complete hsucceeded n .running hn
    simp [NodeState.isDone] at hdone

theorem status_completeIfDone {now : String} (hrun : inst.status = .running) :
    (completeIfDone now inst).status = .running ∨
      (completeIfDone now inst).status = .succeeded := by
  rcases completeIfDone_cases now inst with ⟨_, _, heq⟩ | ⟨_, heq⟩
  · exact Or.inr (by rw [heq])
  · exact Or.inl (by rw [heq]; exact hrun)

end Invariant

section Runs

variable {run : Run} {G : Dag String} {o : Outcomes run.definition}

theorem pending_initial (p : ExecutionPlan) {n : String} {s : NodeState}
    (hn : (run.initial p).nodeStates.get? n = some s) : s = .pending := by
  have hnodup := run.definition.graph.nodeIds_nodup
  have hkeys : (run.initial p).nodeStates.keys = run.definition.graph.nodeIds :=
    Dict.keys_fromKeys _ _ hnodup
  have hmem : n ∈ run.definition.graph.nodeIds := by
    rw [← hkeys]
    exact (Dict.mem_keys_iff _ _).mpr ⟨s, hn⟩
  have hget : (run.initial p).nodeStates.get? n = some .pending :=
    Dict.get?_fromKeys _ _ hnodup n hmem
  rw [hget] at hn
  exact (Option.some.inj hn).symm

theorem notDone_initial (p : ExecutionPlan) (n : String) :
    doneAt (run.initial p).nodeStates n = false := by
  unfold doneAt
  cases hn : (run.initial p).nodeStates.get? n with
  | none => rfl
  | some s =>
    rw [pending_initial p hn]
    rfl

theorem reported_initial (p : ExecutionPlan) :
    Reported o run.inputs (run.initial p) [] where
  keys := Dict.keys_fromKeys _ _ run.definition.graph.nodeIds_nodup
  final n s hn hdone := by
    rw [pending_initial p hn] at hdone
    simp [NodeState.isDone] at hdone
  outputs n := by
    unfold expectedOutput
    rw [notDone_initial]
    rfl
  dispatched n s hn hs := absurd (pending_initial p hn) hs

theorem Delivered.start {p : ExecutionPlan} {inst : WorkflowInstance}
    {submitted : List Submission} (h : Passed run.env (run.initial p) inst submitted)
    (hacc : run.env.Accepting) (hG : GraphOf run.definition G)
    (hne : run.definition.graph.nodeIds ≠ []) :
    Delivered G o run.inputs inst submitted := by
  refine ⟨?_, ?_, Flowing.start h hacc hG hne, Disciplined.start h hacc hG,
    (reported_initial p).passed h hacc⟩
  · rw [h.status]
    exact Or.inl rfl
  · exact (Sound.of_running rfl
      (healthy_fromKeys _ run.definition.graph.nodeIds_nodup)).passed h

/-- A delivery keeps the invariant. -/
theorem Delivered.deliver {c : Store × List Submission} {call : Env × Operation} {n : String}
    (hG : GraphOf run.definition G) (h : Announces run.id o call n)
    (hrunningAt : runningAt c.1 run.id n = true) {inst : WorkflowInstance}
    (hholds : c.1.Holds inst) (hbelongs : Belongs run.definition run.id inst)
    (hinv : Delivered G o run.inputs inst (own run.id c.2)) :
    ∃ handled inst', (Operation.step run.id c.1 call).1.Holds inst' ∧
      Belongs run.definition run.id inst' ∧
      Delivery run.id o call.1 inst n handled inst'
        (own run.id (Operation.step run.id c.1 call).2) ∧
      Delivered G o run.inputs inst'
        (own run.id c.2 ++ own run.id (Operation.step run.id c.1 call).2) := by
  obtain ⟨env, op⟩ := call
  obtain ⟨hacc, e, rfl, haddress, hnode, hmatch⟩ := h
  have hrunning : inst.nodeStates.get? n = some .running := by
    rw [← runningAt_iff hholds, hbelongs.instanceId]
    exact hrunningAt
  have hrun := hinv.running_of_node hrunning
  obtain ⟨handled, inst', hsaved, hdelivery, heffect⟩ :=
    Workflow.deliver o haddress hnode hmatch hrunningAt hholds hbelongs run.accepted.closed hrun
  refine ⟨handled, inst', hsaved, heffect.belongs hbelongs, hdelivery, ?_, ?_, ?_, ?_, ?_⟩
  · rw [hdelivery.passed.status]
    exact status_completeIfDone (hdelivery.spec.status.trans hrun)
  · exact heffect.sound hinv.sound (by simp)
  · exact Flowing.step heffect hacc (by simp) hG hbelongs hinv.flowing
  · refine Disciplined.step heffect hacc (by simp) ?_ hG hbelongs hinv.disciplined
    intro e' he' _ _ m hm
    cases he'
    rw [hnode] at hm
    cases hm
    exact hrunning
  · exact ((hinv.reported.handled hdelivery.spec hrunning).completed).passed hdelivery.passed
      hacc

theorem delivered_started (hG : GraphOf run.definition G)
    (hne : run.definition.graph.nodeIds ≠ []) (hacc : run.env.Accepting)
    (hstarted : run.Started) : run.Has (Delivered G o run.inputs) run.started := by
  obtain ⟨inst, hload⟩ := hstarted
  exact (Run.keeps_started (fun p inst' submitted _ _ hpassed =>
    Delivered.start hpassed hacc hG hne)).has hload

theorem delivered_advance (hG : GraphOf run.definition G) {c : Store × List Submission}
    {call : Env × Operation} (h : run.Has (Delivered G o run.inputs) c)
    (hcall : Delivers run.id o c call) :
    run.Has (Delivered G o run.inputs) (Machine.advance (Operation.step run.id) c call) := by
  obtain ⟨inst, hholds, hbelongs, hinv⟩ := h
  obtain ⟨n, hannounces, hrunning⟩ := hcall
  obtain ⟨_, inst', hsaved, hbelongs', _, hinv'⟩ :=
    Delivered.deliver hG hannounces hrunning hholds hbelongs hinv
  refine ⟨inst', hsaved, hbelongs', ?_⟩
  rw [Machine.advance, own_append]
  exact hinv'

/-- The invariant along every run of deliveries. -/
theorem delivered_final (hG : GraphOf run.definition G)
    (hne : run.definition.graph.nodeIds ≠ []) (hacc : run.env.Accepting)
    (hstarted : run.Started) (hdelivers : run.Along (Delivers run.id o)) :
    run.Has (Delivered G o run.inputs) run.final :=
  Machine.exec_invariant _ (fun _ _ => delivered_advance hG)
    (delivered_started hG hne hacc hstarted) hdelivers

end Runs

end MollisRuntime.Workflow
