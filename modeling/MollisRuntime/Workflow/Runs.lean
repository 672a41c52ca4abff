import MollisRuntime.Workflow.Steps

/-!
Runs of the orchestrator: `start_workflow` and then any operations. Either the
first checkpoint was never written and nothing ever happens, or the row holds an
instance throughout. What the steps of an instance preserve holds at the end of
every run.
-/
namespace MollisRuntime.Workflow

open Ordered Python Persistence

theorem tracked_fromKeys (graph : ExecutionGraph) :
    Tracked graph (.fromKeys graph.nodeIds .pending) where
  covers n hn := by
    rw [Dict.keys_fromKeys _ _ graph.nodeIds_nodup]
    exact hn
  open_mem n s hn _ := by
    rw [← Dict.keys_fromKeys graph.nodeIds NodeState.pending graph.nodeIds_nodup]
    exact (Dict.mem_keys_iff _ _).mpr ⟨s, hn⟩

theorem Passed.belongs {env : Env} {inst inst' : WorkflowInstance} {d : WorkflowDefinition}
    {id : String} {submitted : List Submission} (h : Passed env inst inst' submitted)
    (hinst : Belongs d id inst) : Belongs d id inst' := by
  cases h with
  | idle _ => exact hinst
  | cut _ _ _ _ => exact hinst
  | through _ _ _ _ =>
    refine ⟨hinst.definition, hinst.instanceId, ?_⟩
    rw [← hinst.definition]
    apply inst.tracked_advanced
    rw [hinst.definition]
    exact hinst.tracked

/-- What is not PENDING stays as it is through a pass. -/
theorem Passed.kept {env : Env} {inst inst' : WorkflowInstance} {submitted : List Submission}
    {n : String} (h : Passed env inst inst' submitted)
    (hn : inst.nodeStates.get? n ≠ some .pending) :
    inst'.nodeStates.get? n = inst.nodeStates.get? n ∧
      inst'.nodeOutputs.get? n = inst.nodeOutputs.get? n := by
  cases h with
  | idle _ => exact ⟨rfl, rfl⟩
  | cut _ _ _ _ => exact ⟨rfl, rfl⟩
  | through _ _ _ _ => exact ⟨inst.get?_advanced_of_ne hn, rfl⟩

/-- What an event makes of its node stays in the saved instance. -/
theorem Passed.kept_handled {env : Env} {now : String} {handled inst' : WorkflowInstance}
    {submitted : List Submission} {n : String}
    (h : Passed env (completeIfDone now handled) inst' submitted)
    (hn : handled.nodeStates.get? n ≠ some .pending) :
    inst'.nodeStates.get? n = handled.nodeStates.get? n ∧
      inst'.nodeOutputs.get? n = handled.nodeOutputs.get? n := by
  have hsame := h.kept (n := n) (by rw [nodeStates_completeIfDone]; exact hn)
  rw [nodeStates_completeIfDone, nodeOutputs_completeIfDone] at hsame
  exact hsame

theorem belongs_handled {now nid : String} {inst handled : WorkflowInstance}
    {e : RuntimeEvent} {d : WorkflowDefinition} {id : String}
    (h : handleEvent now inst e nid = .ok handled) (hinst : Belongs d id inst) :
    Belongs d id (completeIfDone now handled) where
  definition := by
    rw [(sameFrame_completeIfDone now handled).definition, (sameFrame_handleEvent h).definition]
    exact hinst.definition
  instanceId := by
    rw [(sameFrame_completeIfDone now handled).instanceId, (sameFrame_handleEvent h).instanceId]
    exact hinst.instanceId
  tracked := by
    rw [nodeStates_completeIfDone]
    exact tracked_handleEvent hinst.tracked h

theorem tracked_cancelNodes {now : String} {inst : WorkflowInstance} {graph : ExecutionGraph}
    (h : Tracked graph inst.nodeStates) : Tracked graph (cancelNodes now inst).nodeStates where
  covers n hn := by
    rw [cancelNodes, Dict.keys_mapVal]
    exact h.covers n hn
  open_mem n s' hn hopen := by
    rw [cancelNodes, Dict.get?_mapVal] at hn
    cases hs : inst.nodeStates.get? n with
    | none => simp [hs] at hn
    | some s =>
      rw [hs] at hn
      cases hn
      apply h.open_mem n s hs
      cases s <;> simp_all [NodeState.isCancellable, NodeState.isOpen]

/-- The fixed parts stay fixed, and the node states keep covering the graph. -/
theorem Effect.belongs {env : Env} {inst inst' : WorkflowInstance} {op : Operation}
    {d : WorkflowDefinition} {id : String} {submitted : List Submission}
    (h : Effect env inst op inst' submitted) (hinst : Belongs d id inst) :
    Belongs d id inst' := by
  cases h with
  | none _ => exact hinst
  | event _ nid handled _ _ _ _ _ hhandled hpassed =>
    exact hpassed.belongs (belongs_handled hhandled hinst)
  | pause _ => exact ⟨hinst.definition, hinst.instanceId, hinst.tracked⟩
  | resume _ _ _ hpassed =>
    exact hpassed.belongs ⟨hinst.definition, hinst.instanceId, hinst.tracked⟩
  | cancel _ => exact ⟨hinst.definition, hinst.instanceId, tracked_cancelNodes hinst.tracked⟩
  | recoverCut _ _ _ _ _ _ => exact hinst
  | recover _ replayed _ hreplayed _ _ _ =>
    obtain ⟨hframe, _, _, htr⟩ := replayEvents_frame hreplayed
    have hdef : replayed.definition = d := hframe.definition.trans hinst.definition
    refine ⟨hdef, hframe.instanceId.trans hinst.instanceId, ?_⟩
    rw [← hdef]
    apply replayed.tracked_advanced
    rw [hdef]
    exact htr _ hinst.tracked

theorem Handed.nodes {inst : WorkflowInstance} {nodes : List String}
    {submitted : List Submission} (h : Handed inst nodes submitted) :
    ∀ s ∈ submitted, s.nodeId ∈ inst.definition.graph.nodeIds := by
  intro s hs
  obtain ⟨node, hnode, _⟩ := h.task s hs
  exact (Dict.mem_keys_iff _ _).mpr ⟨node, hnode⟩

theorem Passed.nodes {env : Env} {inst inst' : WorkflowInstance} {submitted : List Submission}
    (h : Passed env inst inst' submitted) :
    ∀ s ∈ submitted, s.nodeId ∈ inst.definition.graph.nodeIds := by
  cases h with
  | idle _ => simp
  | cut _ _ hhanded _ => exact hhanded.nodes
  | through _ _ hhanded _ => exact hhanded.nodes

/-- Only nodes of the graph are handed to the scheduler. -/
theorem Effect.nodes {env : Env} {inst inst' : WorkflowInstance} {op : Operation}
    {d : WorkflowDefinition} {id : String} {submitted : List Submission}
    (h : Effect env inst op inst' submitted) (hinst : Belongs d id inst) :
    ∀ s ∈ submitted, s.nodeId ∈ d.graph.nodeIds := by
  cases h with
  | none _ => simp
  | event _ nid handled _ _ _ _ _ hhandled hpassed =>
    rw [← (belongs_handled hhandled hinst).definition]
    exact hpassed.nodes
  | pause _ => simp
  | resume _ _ _ hpassed =>
    rw [← hinst.definition]
    exact hpassed.nodes
  | cancel _ => simp
  | recoverCut _ replayed _ hreplayed _ hhanded =>
    rw [← hinst.definition, ← (replayEvents_frame hreplayed).1.definition]
    exact hhanded.nodes
  | recover _ replayed _ hreplayed _ hhanded _ =>
    rw [← hinst.definition, ← (replayEvents_frame hreplayed).1.definition]
    exact hhanded.nodes

namespace Run

variable (run : Run)

/-- The instance that the run saves first, with its plan. -/
def initial (executionPlan : ExecutionPlan) : WorkflowInstance :=
  initialInstance run.env.now run.uuid run.definition run.inputs executionPlan

theorem initial_belongs (p : ExecutionPlan) : Belongs run.definition run.id (run.initial p) where
  definition := rfl
  instanceId := rfl
  tracked := tracked_fromKeys run.definition.graph

/-- `start_workflow` saves the initial instance and dispatches it, unless the
instance cannot be saved. -/
theorem started_cases : ∃ p, WorkflowPlanner.plan run.definition = .ok p ∧
    (((run.initial p).toDict.isJson = false ∧ run.started.1.rows.get? run.id = none ∧
        run.started.2 = []) ∨
      ((run.initial p).toDict.isJson = true ∧ ∃ inst', run.started.1.Holds inst' ∧
        inst'.instanceId = run.id ∧ Passed run.env (run.initial p) inst' run.started.2)) := by
  obtain ⟨p, hp⟩ := WorkflowPlanner.plan_total run.accepted
  refine ⟨p, hp, ?_⟩
  unfold started startWorkflow
  simp only [hp]
  cases hjson : (run.initial p).toDict.isJson with
  | false =>
    obtain ⟨e, he⟩ := checkpoint_error run.store hjson
    unfold initial at he
    simp only [he]
    exact Or.inl ⟨by simp, run.fresh, by simp⟩
  | true =>
    obtain ⟨store', hstore, hholds, _⟩ := checkpoint_ok run.store hjson
    obtain ⟨inst', hsaved, hid, hpassed⟩ := dispatch_passed run.env store' hholds
      ((run.initial_belongs p).wellFormed run.accepted.closed)
    unfold initial at hstore hsaved hpassed
    simp only [hstore]
    exact Or.inr ⟨by simp, inst', hsaved, hid, hpassed⟩

/-- The run's own accepted tasks. -/
def submissions : List Submission := own run.id run.final.2

/-- The row holds an instance of the run for which the property holds. -/
def Has (I : WorkflowInstance → List Submission → Prop) (c : Store × List Submission) : Prop :=
  ∃ inst, c.1.Holds inst ∧ Belongs run.definition run.id inst ∧ I inst (own run.id c.2)

/-- The row holds such an instance, or it was never written. -/
def Keeps (I : WorkflowInstance → List Submission → Prop) (c : Store × List Submission) : Prop :=
  run.Has I c ∨ (c.1.rows.get? run.id = none ∧ own run.id c.2 = [])

/-- The first checkpoint was written. -/
def Started : Prop := ∃ inst, loadInstance run.started.1 run.id = .ok inst

variable {run}

theorem keeps_started {I : WorkflowInstance → List Submission → Prop}
    (hstart : ∀ p inst' submitted, WorkflowPlanner.plan run.definition = .ok p →
      (run.initial p).toDict.isJson = true → Passed run.env (run.initial p) inst' submitted →
      I inst' submitted) : run.Keeps I run.started := by
  obtain ⟨p, hp, ⟨_, hrow, hsub⟩ | ⟨hjson, inst', hholds, _, hpassed⟩⟩ := run.started_cases
  · refine Or.inr ⟨hrow, ?_⟩
    rw [hsub]
    rfl
  · refine Or.inl ⟨inst', hholds, hpassed.belongs (run.initial_belongs p), ?_⟩
    rw [own_eq_self (show ∀ s ∈ run.started.2, s.instanceId = run.id from hpassed.instanceId)]
    exact hstart p inst' _ hp hjson hpassed

theorem keeps_advance {I : WorkflowInstance → List Submission → Prop}
    {c : Store × List Submission} {call : Env × Operation}
    (hstep : ∀ inst inst' submitted, c.1.Holds inst → Belongs run.definition run.id inst →
      I inst (own run.id c.2) → Effect call.1 inst call.2 inst' submitted →
      I inst' (own run.id c.2 ++ submitted))
    (hc : run.Keeps I c) :
    run.Keeps I (Machine.advance (Operation.step run.id) c call) := by
  rcases hc with ⟨inst, hholds, hbelongs, hI⟩ | ⟨hrow, hown⟩
  · obtain ⟨inst', hsaved, _, heffect⟩ := perform_effect call.1 c.1 call.2 hholds
      (hbelongs.wellFormed run.accepted.closed)
    rw [hbelongs.instanceId] at hsaved heffect
    refine Or.inl ⟨inst', hsaved, heffect.belongs hbelongs, ?_⟩
    rw [Machine.advance, own_append]
    exact hstep inst inst' _ hholds hbelongs hI heffect
  · obtain ⟨hrow', hsub⟩ := perform_absent call.1 c.1 call.2 run.id hrow
    refine Or.inr ⟨hrow', ?_⟩
    rw [Machine.advance, own_append, hown, List.nil_append]
    exact own_eq_nil hsub

/-- The invariant rule for runs. -/
theorem invariant (P : Store × List Submission → Env × Operation → Prop)
    (I : WorkflowInstance → List Submission → Prop)
    (hstart : ∀ p inst' submitted, WorkflowPlanner.plan run.definition = .ok p →
      (run.initial p).toDict.isJson = true → Passed run.env (run.initial p) inst' submitted →
      I inst' submitted)
    (hstep : ∀ c call inst inst' submitted, c.1.Holds inst →
      Belongs run.definition run.id inst → I inst (own run.id c.2) → P c call →
      Effect call.1 inst call.2 inst' submitted → I inst' (own run.id c.2 ++ submitted))
    (hP : run.Along P) : run.Keeps I run.final :=
  Machine.exec_invariant (run.Keeps I)
    (fun c call hc hcall => keeps_advance
      (fun inst inst' submitted hholds hbelongs hI heffect =>
        hstep c call inst inst' submitted hholds hbelongs hI hcall heffect) hc)
    (keeps_started hstart) hP

/-- The tasks handed over so far are tasks of nodes of the graph. -/
def Known (_ : WorkflowInstance) (history : List Submission) : Prop :=
  ∀ s ∈ history, s.nodeId ∈ run.definition.graph.nodeIds

theorem known_started : run.Keeps run.Known run.started :=
  keeps_started (fun _ _ _ _ _ hpassed => hpassed.nodes)

theorem known_advance {c : Store × List Submission} (call : Env × Operation)
    (hc : run.Keeps run.Known c) :
    run.Keeps run.Known (Machine.advance (Operation.step run.id) c call) := by
  refine keeps_advance ?_ hc
  intro inst inst' submitted _ hbelongs hknown heffect s hs
  rcases List.mem_append.mp hs with hs | hs
  · exact hknown s hs
  · exact heffect.nodes hbelongs s hs

theorem Keeps.known {c : Store × List Submission} (h : run.Keeps run.Known c) :
    ∀ s ∈ own run.id c.2, s.nodeId ∈ run.definition.graph.nodeIds := by
  rcases h with ⟨_, _, _, hknown⟩ | ⟨_, hnone⟩
  · exact hknown
  · rw [hnone]
    simp

theorem keeps_known : run.Keeps run.Known run.final :=
  Machine.exec_preserves (run.Keeps run.Known) (fun _ call hc => known_advance call hc)
    known_started _

theorem known_final : ∀ s ∈ run.submissions, s.nodeId ∈ run.definition.graph.nodeIds :=
  Keeps.known keeps_known

theorem Has.load {I : WorkflowInstance → List Submission → Prop} {c : Store × List Submission}
    (h : run.Has I c) : ∃ inst, loadInstance c.1 run.id = .ok inst ∧
      Belongs run.definition run.id inst ∧ I inst (own run.id c.2) := by
  obtain ⟨inst, hholds, hbelongs, hI⟩ := h
  exact ⟨inst, (loadInstance_eq_ok_iff _ _ _).mpr ⟨hholds, hbelongs.instanceId⟩, hbelongs, hI⟩

theorem Keeps.has {I : WorkflowInstance → List Submission → Prop} {c : Store × List Submission}
    {inst : WorkflowInstance} (h : run.Keeps I c)
    (hload : loadInstance c.1 run.id = .ok inst) : run.Has I c := by
  rcases h with hhas | ⟨hrow, _⟩
  · exact hhas
  · obtain ⟨err, herr⟩ := loadInstance_of_none hrow
    rw [herr] at hload
    contradiction

theorem Keeps.of_load {I : WorkflowInstance → List Submission → Prop}
    {c : Store × List Submission} {inst : WorkflowInstance} (h : run.Keeps I c)
    (hload : loadInstance c.1 run.id = .ok inst) :
    Belongs run.definition run.id inst ∧ I inst (own run.id c.2) := by
  obtain ⟨inst', hload', hbelongs, hI⟩ := (h.has hload).load
  rw [hload] at hload'
  cases hload'
  exact ⟨hbelongs, hI⟩

/-- A loaded instance is an instance of the run. -/
theorem belongs_of_load {inst : WorkflowInstance}
    (hload : loadInstance run.final.1 run.id = .ok inst) :
    Belongs run.definition run.id inst :=
  (keeps_known.of_load hload).1

/-- Plain definitions and inputs can be saved, so the workflow is started. -/
theorem started_of_json (hd : run.definition.toDict.isJson = true)
    (hinputs : (encodeAttrs run.inputs).isJson = true) : run.Started := by
  obtain ⟨p, _, ⟨hjson, _⟩ | ⟨_, inst', hholds, hid, _⟩⟩ := run.started_cases
  · have hsaved : (run.initial p).toDict.isJson = true := by
      apply (WorkflowInstance.isJson_toDict_iff _).mpr
      refine ⟨hd, ?_⟩
      intro e he
      have hmem : e ∈ (startOutputs run.inputs).entries := he
      unfold startOutputs at hmem
      split at hmem
      · contradiction
      · have heq : e = ("workflow_inputs", run.inputs) := by
          simpa [Dict.set, Dict.empty, upsert] using hmem
        rw [heq]
        exact hinputs
    rw [hsaved] at hjson
    contradiction
  · exact ⟨inst', (loadInstance_eq_ok_iff _ _ _).mpr ⟨hholds, hid⟩⟩

end Run

section Samples

/-- A scheduler with room for everything. -/
def Env.accepting (now : String) : Env := { now, schedule := fun _ => .ok () }

theorem Env.accepting_accepting (now : String) : (Env.accepting now).Accepting := fun _ => rfl

def laterEnv : Env := .accepting "2026-01-01T00:00:10"

/-- An event as the runtime publishes it for the task of a node. -/
def nodeEvent (kind : EventKind) (id n : String) (result : Value := .none) : RuntimeEvent where
  kind
  timestamp := "2026-01-01T00:00:05"
  metadata := ((Dict.empty.set "workflow_instance_id" (.str id)).set "node_id" (.str n)).set
    "result" result

theorem nodeEvent_workflowInstanceId (kind : EventKind) (id n : String) (result : Value)
    (hid : id ≠ "") : (nodeEvent kind id n result).workflowInstanceId = some id := by
  simp [nodeEvent, RuntimeEvent.workflowInstanceId, RuntimeEvent.correlation, Dict.get?_set, hid]

theorem nodeEvent_nodeId (kind : EventKind) (id n : String) (result : Value) (hn : n ≠ "") :
    (nodeEvent kind id n result).nodeId = some n := by
  simp [nodeEvent, RuntimeEvent.nodeId, RuntimeEvent.correlation, Dict.get?_set, hn]

theorem nodeEvent_result (kind : EventKind) (id n : String) (result : Value) :
    (nodeEvent kind id n result).result = result := by
  simp [nodeEvent, RuntimeEvent.result]

def sampleNode (id : String) : GraphNode := { id, executorType := "python", payload := .empty }

def sampleId : Uuid := ⟨"i1", by decide⟩

/-- An accepted workflow, started under a fixed id and followed by the given
operations. -/
def sampleRun (d : WorkflowDefinition) (h : d.Accepted) (operations : List Operation) : Run where
  store := .empty
  uuid := sampleId
  fresh := rfl
  definition := d
  accepted := h
  env := .accepting "2026-01-01T00:00:00"
  calls := operations.map fun op => (laterEnv, op)

/-- One node and nothing else. -/
def soloBuilder : WorkflowBuilder where
  name := "Solo"
  nodes := Dict.empty.set "A" (sampleNode "A")

def soloDefinition : WorkflowDefinition where
  name := "Solo"
  graph := { nodes := soloBuilder.nodes }

theorem soloDefinition_accepted : soloDefinition.Accepted :=
  WorkflowDefinition.accepted_of_checks soloBuilder (by decide +kernel) (by decide +kernel)

def soloRun (operations : List Operation) : Run :=
  sampleRun soloDefinition soloDefinition_accepted operations

/-- Two nodes, the second after the first. -/
def chainBuilder : WorkflowBuilder where
  name := "Chain"
  nodes := (Dict.empty.set "A" (sampleNode "A")).set "B" (sampleNode "B")
  edges := [{ fromNodeId := "A", toNodeId := "B" }]

def chainDefinition : WorkflowDefinition where
  name := "Chain"
  graph := { nodes := chainBuilder.nodes, edges := chainBuilder.edges }

theorem chainDefinition_accepted : chainDefinition.Accepted :=
  WorkflowDefinition.accepted_of_checks chainBuilder (by decide +kernel) (by decide +kernel)

def chainRun (operations : List Operation) : Run :=
  sampleRun chainDefinition chainDefinition_accepted operations

theorem sampleRun_accepting {d : WorkflowDefinition} {h : d.Accepted}
    {operations : List Operation} {call : Env × Operation}
    (hcall : call ∈ (sampleRun d h operations).calls) :
    call.1.Accepting ∧ call.2 ∈ operations := by
  obtain ⟨op, hop, rfl⟩ := List.mem_map.mp hcall
  exact ⟨fun _ => rfl, hop⟩

/-- Reading a concrete row. -/
theorem exists_loaded (store : Store) (id : String) {α : Type} (view : WorkflowInstance → α)
    (a : α) (h : (loadInstance store id).toOption.map view = some a) :
    ∃ inst, loadInstance store id = .ok inst ∧ view inst = a := by
  cases hload : loadInstance store id with
  | error e => simp [hload, Except.toOption] at h
  | ok inst => exact ⟨inst, rfl, by simpa [hload, Except.toOption] using h⟩

theorem Run.exists_loaded (run : Run) {α : Type} (view : WorkflowInstance → α) (a : α)
    (h : (loadInstance run.final.1 run.id).toOption.map view = some a) :
    ∃ inst, loadInstance run.final.1 run.id = .ok inst ∧ view inst = a :=
  Workflow.exists_loaded _ _ view a h

/-- The sample workflows start before their events are recorded. -/
theorem nodeEvent_since (kind : EventKind) (id n : String) (result : Value) :
    "2026-01-01T00:00:00" ≤ (nodeEvent kind id n result).timestamp := by
  change "2026-01-01T00:00:00" ≤ "2026-01-01T00:00:05"
  decide +kernel

/-- A log of one event. -/
def logOf (e : RuntimeEvent) (h : e.isJson = true) : EventStore := ⟨[e], by simpa using h⟩

theorem streamFrom_logOf (kind : EventKind) (id n : String) (result : Value)
    (h : (nodeEvent kind id n result).isJson = true) :
    (logOf (nodeEvent kind id n result) h).streamFrom "2026-01-01T00:00:00" =
      [nodeEvent kind id n result] := by
  apply EventStore.streamFrom_eq_events
  · intro e he
    rw [List.mem_singleton.mp he]
    exact nodeEvent_since kind id n result
  · simp [logOf]

end Samples

end MollisRuntime.Workflow
