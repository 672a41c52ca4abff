import MollisRuntime.Workflow.Runs

/-!
Which definitions can be checkpointed. `GraphNode.to_dict` leaves a node's own
failure handling as an Enum member, which json.dumps refuses; everything else
of an accepted definition is JSON if its free-form values are.
-/
namespace MollisRuntime.Workflow

open Ordered Python

/-- The free-form values of a definition. -/
structure WorkflowDefinition.JsonValues (d : WorkflowDefinition) : Prop where
  payloads : ∀ e ∈ d.graph.nodes.entries, (encodeAttrs e.2.payload).isJson = true
  defaults : ∀ e ∈ d.graph.nodes.entries, ∀ i ∈ e.2.dataMapping.inputMappings.entries,
    i.2.defaultValue.isJson = true
  extra : (encodeAttrs d.metadata.extra).isJson = true

/-- No node policy sets `failure_handling`. -/
def WorkflowDefinition.LeavesFailures (d : WorkflowDefinition) : Prop :=
  ∀ e ∈ d.graph.nodes.entries, e.2.policy.failureHandling = none

/-- The definition and each of its instances is dumped and saved, and a workflow
that is started with it has a row. -/
structure WorkflowDefinition.Checkpointable (d : WorkflowDefinition) : Prop where
  definition : d.toDict.isJson = true
  instances : ∀ inst : WorkflowInstance, inst.definition = d →
    (∀ e ∈ inst.nodeOutputs.entries, (encodeAttrs e.2).isJson = true) →
    inst.toDict.isJson = true ∧
      ∀ store, ∃ store', checkpointWorkflow store inst = .ok store' ∧ store'.Holds inst
  started : ∀ run : Run, run.definition = d → (encodeAttrs run.inputs).isJson = true →
    run.Started

section Json

theorem isJson_encodeOptFloat (q : Option ℚ) : (encodeOptFloat q).isJson = true := by
  cases q <;> rfl

theorem isJson_optional {α : Type} (enc : α → Value) (h : ∀ a, (enc a).isJson = true)
    (o : Option α) : ((o.map enc).getD .none).isJson = true := by
  cases o with
  | none => rfl
  | some a => exact h a

theorem RetryPolicy.isJson_asDict (p : RetryPolicy) : p.asDict.isJson = true := by
  simp [asDict]

theorem TimeoutPolicy.isJson_asDict (p : TimeoutPolicy) : p.asDict.isJson = true := by
  simp [asDict, isJson_encodeOptFloat]

theorem CompensationPolicy.isJson_asDict (p : CompensationPolicy) : p.asDict.isJson = true := by
  simp [asDict]

theorem WorkflowPolicy.isJson_toDict (p : WorkflowPolicy) : p.toDict.isJson = true := by
  simp [toDict, p.retry.isJson_asDict, p.timeout.isJson_asDict, p.compensation.isJson_asDict]

/-- The enum member is the one part of a node policy that is not JSON. -/
theorem NodePolicy.isJson_asDict_iff (p : NodePolicy) :
    p.asDict.isJson = true ↔ p.failureHandling = none := by
  have hretry := isJson_optional RetryPolicy.asDict RetryPolicy.isJson_asDict p.retry
  have htimeout := isJson_optional TimeoutPolicy.asDict TimeoutPolicy.isJson_asDict p.timeout
  have hcomp := isJson_optional CompensationPolicy.asDict CompensationPolicy.isJson_asDict
    p.compensation
  simp only [asDict, Value.isJson_dict, List.forall_mem_cons, hretry, htimeout, hcomp]
  cases p.failureHandling <;> simp [FailurePolicy.member]

theorem NodeInput.isJson_asDict_iff (i : NodeInput) :
    i.asDict.isJson = true ↔ i.defaultValue.isJson = true := by
  simp [asDict]

theorem DataMapping.isJson_toDict_iff (m : DataMapping) :
    m.toDict.isJson = true ↔ ∀ e ∈ m.inputMappings.entries, e.2.defaultValue.isJson = true := by
  simp [toDict, NodeInput.isJson_asDict_iff]

theorem GraphNode.isJson_toDict_iff (n : GraphNode) :
    n.toDict.isJson = true ↔ (encodeAttrs n.payload).isJson = true ∧
      n.policy.failureHandling = none ∧
      ∀ e ∈ n.dataMapping.inputMappings.entries, e.2.defaultValue.isJson = true := by
  simp only [toDict, Value.isJson_dict, List.forall_mem_cons, n.policy.isJson_asDict_iff,
    n.dataMapping.isJson_toDict_iff]
  simp

theorem GraphEdge.isJson_toDict (e : GraphEdge) : e.toDict.isJson = true := by
  simp [toDict]

theorem ExecutionGraph.isJson_toDict_iff (g : ExecutionGraph) :
    g.toDict.isJson = true ↔ ∀ e ∈ g.nodes.entries, e.2.toDict.isJson = true := by
  simp [toDict, GraphEdge.isJson_toDict]

theorem WorkflowDefinition.isJson_toDict_iff (d : WorkflowDefinition) :
    d.toDict.isJson = true ↔ d.graph.toDict.isJson = true ∧
      (encodeAttrs d.metadata.extra).isJson = true := by
  simp only [toDict, WorkflowMetadata.asDict, Value.isJson_dict, List.forall_mem_cons,
    d.policy.isJson_toDict]
  simp

/-- With JSON values the node policies decide. -/
theorem WorkflowDefinition.JsonValues.isJson_iff {d : WorkflowDefinition} (h : d.JsonValues) :
    d.toDict.isJson = true ↔ d.LeavesFailures := by
  rw [d.isJson_toDict_iff, d.graph.isJson_toDict_iff]
  constructor
  · rintro ⟨hnodes, _⟩ e he
    exact (e.2.isJson_toDict_iff.mp (hnodes e he)).2.1
  · intro hpolicies
    refine ⟨?_, h.extra⟩
    intro e he
    exact e.2.isJson_toDict_iff.mpr ⟨h.payloads e he, hpolicies e he, h.defaults e he⟩

end Json

/-- A definition with JSON values can be checkpointed exactly when no node brings
its own failure handling. -/
theorem checkpointable_iff (d : WorkflowDefinition) (hvalues : d.JsonValues) :
    d.Checkpointable ↔ d.LeavesFailures := by
  constructor
  · intro h
    exact hvalues.isJson_iff.mp h.definition
  · intro hpolicies
    have hdef := hvalues.isJson_iff.mpr hpolicies
    refine ⟨hdef, ?_, ?_⟩
    · rintro inst rfl houtputs
      have hinst := inst.isJson_toDict_iff.mpr ⟨hdef, houtputs⟩
      refine ⟨hinst, ?_⟩
      intro store
      obtain ⟨store', hstore, hholds, _⟩ := checkpoint_ok store hinst
      exact ⟨store', hstore, hholds⟩
    · rintro run rfl hinputs
      exact Run.started_of_json hdef hinputs

/-- Nodes without payload and mappings leave nothing to check. -/
theorem jsonValues_of_plain {d : WorkflowDefinition}
    (hnodes : ∀ e ∈ d.graph.nodes.entries, e.2.payload = .empty ∧ e.2.dataMapping = {})
    (hextra : d.metadata.extra = .empty) : d.JsonValues where
  payloads e he := by
    rw [(hnodes e he).1]
    rfl
  defaults e he i hi := by
    rw [(hnodes e he).2] at hi
    contradiction
  extra := by
    rw [hextra]
    rfl

/-- The chain sets no policies. -/
theorem chainDefinition_checkpointable : chainDefinition.Checkpointable :=
  (checkpointable_iff chainDefinition
    (jsonValues_of_plain (by simp [chainDefinition, chainBuilder, Dict.set, Dict.empty, upsert,
      sampleNode]) rfl)).mpr
    (by simp [WorkflowDefinition.LeavesFailures, chainDefinition, chainBuilder, Dict.set,
      Dict.empty, upsert, sampleNode])

/-- One node whose failure is ignored. -/
def lenientBuilder : WorkflowBuilder where
  name := "Lenient"
  nodes := Dict.empty.set "A"
    { sampleNode "A" with policy := { failureHandling := some .ignore } }

def lenientDefinition : WorkflowDefinition where
  name := "Lenient"
  graph := { nodes := lenientBuilder.nodes }

theorem lenientDefinition_accepted : lenientDefinition.Accepted :=
  WorkflowDefinition.accepted_of_checks lenientBuilder (by decide +kernel) (by decide +kernel)

/-- The dump of its node policy holds an Enum member. -/
theorem not_checkpointable : ¬ ∀ d : WorkflowDefinition, d.Accepted → d.JsonValues →
    d.Checkpointable := by
  intro h
  have hvalues : lenientDefinition.JsonValues :=
    jsonValues_of_plain (by simp [lenientDefinition, lenientBuilder, Dict.set, Dict.empty, upsert,
      sampleNode]) rfl
  have hjson := (h lenientDefinition lenientDefinition_accepted hvalues).definition
  revert hjson
  decide +kernel

end MollisRuntime.Workflow
