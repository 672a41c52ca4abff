import MollisRuntime.Workflow.Confluence

/-!
Input resolution. A task carries the outputs that are there when it is handed
over, and eligibility looks at edges only. So a mapped input is the same in all
complete runs when the graph orders its source: the source is an ancestor of
the node, or it comes after all the node's parents and is never done in time.
-/
namespace MollisRuntime.Workflow

open Ordered Python Persistence Precedence

section Payload

/-- The payload entry of a task's metadata, which the node's own payload may
replace. -/
theorem payload_taskFor_congr {i j : WorkflowInstance} (n : String) (node : GraphNode)
    (h : resolveNodeInputs node i.nodeOutputs = resolveNodeInputs node j.nodeOutputs) :
    (taskFor i n node).metadata.get? "payload" = (taskFor j n node).metadata.get? "payload" := by
  unfold taskFor
  apply Dict.get?_setAll_congr
  rw [Dict.get?_set_self, Dict.get?_set_self, h]

end Payload

section Timing
variable {d : WorkflowDefinition} {G : Dag String} {o : Outcomes d} {inputs : Attrs}

/-- Each task was built from the expected outputs of the moment, and nothing
that comes after all its parents was done then. -/
structure Timed (G : Dag String) (o : Outcomes d) (inputs : Attrs)
    (history : List Submission) : Prop where
  built : ∀ s ∈ history, ∃ node inst, d.graph.nodes.get? s.nodeId = some node ∧
    s.task = taskFor inst s.nodeId node ∧
    ∀ src, inst.nodeOutputs.get? src = expectedOutput o inputs s.nodeStates src
  early : ∀ s ∈ history, ∀ src ∈ d.graph.nodeIds,
    (∀ p, (p, s.nodeId) ∈ d.graph.edgePairs → G.Ancestor p src) →
      doneAt s.nodeStates src = false
  inside : ∀ s ∈ history, ∀ src, doneAt s.nodeStates src = true → src ∈ d.graph.nodeIds

theorem Timed.append {history submitted : List Submission} (h : Timed G o inputs history)
    (h' : Timed G o inputs submitted) : Timed G o inputs (history ++ submitted) where
  built s hs := (List.mem_append.mp hs).elim (h.built s) (h'.built s)
  early s hs := (List.mem_append.mp hs).elim (h.early s) (h'.early s)
  inside s hs := (List.mem_append.mp hs).elim (h.inside s) (h'.inside s)

theorem Timed.nil : Timed G o inputs [] where
  built := by simp
  early := by simp
  inside := by simp

/-- The tasks of one pass, if nothing that comes after all the parents of an
eligible node is done. -/
theorem Timed.passed {env : Env} {inst inst' : WorkflowInstance}
    {submitted history : List Submission} (h : Passed env inst inst' submitted)
    (hacc : env.Accepting) (hd : inst.definition = d) (hreported : Reported o inputs inst history)
    (hearly : ∀ n, eligible d.graph inst.nodeStates n = true → ∀ src ∈ d.graph.nodeIds,
      (∀ p, (p, n) ∈ d.graph.edgePairs → G.Ancestor p src) → doneAt inst.nodeStates src = false) :
    Timed G o inputs submitted := by
  cases h with
  | idle _ => exact Timed.nil
  | cut _ _ _ hraised => exact absurd hacc hraised
  | through _ _ hhanded hall =>
    constructor
    · intro s hs
      obtain ⟨node, hnode, htask⟩ := hhanded.task s hs
      refine ⟨node, inst, hd ▸ hnode, htask, ?_⟩
      intro src
      have hout := hreported.outputs src
      unfold expectedOutput at hout ⊢
      rw [hhanded.doneAt s hs src]
      exact hout
    · intro s hs src hsrc hafter
      have hmem : s.nodeId ∈ inst.eligibleNodes := by
        rw [← hall]
        exact List.mem_map_of_mem hs
      have he := (inst.mem_eligibleNodes _).mp hmem
      rw [hd] at he
      rw [hhanded.doneAt s hs src]
      exact hearly s.nodeId he src hsrc hafter
    · intro s hs src hdone
      rw [hhanded.doneAt s hs src] at hdone
      rw [← hreported.keys]
      unfold doneAt at hdone
      split at hdone
      · rename_i state hstate
        exact (Dict.mem_keys_iff _ _).mpr ⟨state, hstate⟩
      · contradiction

/-- What a delivery makes eligible waited for the delivered node, so nothing
that comes after all its parents can be done. -/
theorem early_delivery {env : Env} {inst handled inst' : WorkflowInstance} {n id : String}
    {history submitted : List Submission} (hG : GraphOf d G)
    (hbelongs : Belongs d id inst) (hinv : Delivered G o inputs inst history)
    (hdelivery : Delivery id o env inst n handled inst' submitted) (v : String)
    (he : eligible d.graph handled.nodeStates v = true) (src : String)
    (hsrc : src ∈ d.graph.nodeIds)
    (hafter : ∀ p, (p, v) ∈ d.graph.edgePairs → G.Ancestor p src) :
    doneAt handled.nodeStates src = false := by
  have hrun := hinv.running_of_node hdelivery.running
  have hlive := hinv.flowing (Or.inl hrun)
  have hstates := hdelivery.spec.states
  have hnode := (o.outcome n).isDone_state
  rw [hstates] at he
  obtain ⟨hpending, hparents⟩ := (eligible_iff _ _ _).mp he
  have hvn : n ≠ v := by
    rintro rfl
    rw [Dict.get?_set_self] at hpending
    have hstate := Option.some.inj hpending
    rw [hstate] at hnode
    simp [NodeState.isDone] at hnode
  rw [Dict.get?_set_ne _ _ _ _ hvn] at hpending
  have hv : v ∈ G.nodes := by
    rw [hG.nodes]
    exact hbelongs.tracked.pending_mem v hpending
  -- before the delivery some parent of `v` was not done: the delivered node
  have hedge : (n, v) ∈ d.graph.edgePairs := by
    by_contra hnot
    apply hlive.settled v hv _ ((marking_waiting_iff _ _).mpr hpending)
    rw [ready_iff hG]
    intro p hp
    have hdone := hparents p hp
    rw [doneAt_set] at hdone
    split at hdone
    · rename_i hnp
      exact absurd (hnp ▸ hp) hnot
    · exact hdone
  have hanc := hafter n hedge
  rw [hstates, doneAt_set, if_neg hanc.ne]
  by_contra hdone
  have hfinished : marking inst.nodeStates src = .finished :=
    (marking_finished_iff _ _).mpr (by simpa using hdone)
  have hbefore := ancestors_finished G _ (hinv.disciplined.justified (Or.inl hrun))
    (hG.nodes ▸ hsrc) (by rw [hfinished]; simp) hanc
  rw [marking_finished_iff, doneAt, hdelivery.running] at hbefore
  simp [NodeState.isDone] at hbefore

end Timing

section Runs
variable {run : Run} {G : Dag String} {o : Outcomes run.definition}

/-- The invariant along every run of deliveries, with the timing of the tasks. -/
theorem timed_final (hG : GraphOf run.definition G)
    (hne : run.definition.graph.nodeIds ≠ []) (hacc : run.env.Accepting)
    (hstarted : run.Started) (hdelivers : run.Along (Delivers run.id o)) :
    run.Has (fun inst history => Delivered G o run.inputs inst history ∧
      Timed G o run.inputs history) run.final := by
  refine Machine.exec_invariant (run.Has (fun inst history =>
    Delivered G o run.inputs inst history ∧ Timed G o run.inputs history)) ?_ ?_ hdelivers
  · rintro c call ⟨inst, hholds, hbelongs, hinv, htimed⟩ ⟨n, hannounces, hrunning⟩
    obtain ⟨handled, inst', hsaved, hbelongs', hdelivery, hinv'⟩ :=
      Delivered.deliver hG hannounces hrunning hholds hbelongs hinv
    refine ⟨inst', hsaved, hbelongs', ?_⟩
    rw [Machine.advance, own_append]
    refine ⟨hinv', htimed.append ?_⟩
    refine Timed.passed hdelivery.passed hannounces.1 hdelivery.after.definition
      (hinv.reported.handled hdelivery.spec hdelivery.running).completed ?_
    rw [nodeStates_completeIfDone]
    exact early_delivery hG hbelongs hinv hdelivery
  · obtain ⟨inst, hload⟩ := hstarted
    refine (Run.keeps_started ?_).has hload
    intro p inst' submitted _ _ hpassed
    refine ⟨Delivered.start hpassed hacc hG hne, ?_⟩
    exact Timed.passed hpassed hacc rfl (reported_initial p)
      (fun _ _ src _ _ => notDone_initial p src)

end Runs

/-- The graph orders each mapped source of the node with the node: the source
is its ancestor, or it comes after all the node's parents. -/
def OrderedInputs (d : WorkflowDefinition) (n : String) (node : GraphNode) : Prop :=
  ∀ e ∈ node.dataMapping.inputMappings.entries, ∀ src ∈ d.graph.nodeIds,
    e.2.sourceNodeId = some src → src ≠ "" →
      Relation.TransGen (fun a b => (a, b) ∈ d.graph.edgePairs) src n ∨
        ∀ p, (p, n) ∈ d.graph.edgePairs →
          Relation.TransGen (fun a b => (a, b) ∈ d.graph.edgePairs) p src

section Resolution
variable {d : WorkflowDefinition} {o : Outcomes d} {inputs : Attrs}

/-- What a task of a complete run was built from: of the mapped sources exactly
the ancestors of its node were done. -/
theorem task_of_complete {run : Run} (h : Complete o inputs run) {s : Submission}
    (hs : s ∈ run.submissions) {node : GraphNode}
    (hnode : d.graph.nodes.get? s.nodeId = some node)
    (hordered : OrderedInputs d s.nodeId node) :
    ∃ inst, s.task = taskFor inst s.nodeId node ∧
      (∀ src, inst.nodeOutputs.get? src = expectedOutput o inputs s.nodeStates src) ∧
      ∀ e ∈ node.dataMapping.inputMappings.entries, ∀ src, e.2.sourceNodeId = some src →
        src ≠ "" → (doneAt s.nodeStates src = true ↔ src ∈ d.graph.nodeIds ∧
          Relation.TransGen (fun a b => (a, b) ∈ d.graph.edgePairs) src s.nodeId) := by
  obtain ⟨rfl, rfl, hstarted, haccepting, hdelivers, _⟩ := h
  obtain ⟨G, hG⟩ := run.accepted.exists_graph
  have hne : run.definition.graph.nodeIds ≠ [] :=
    List.ne_nil_of_mem ((Dict.mem_keys_iff _ _).mpr ⟨node, hnode⟩)
  obtain ⟨_, _, _, hinv, htimed⟩ := timed_final hG hne haccepting hstarted hdelivers
  obtain ⟨node', inst, hnode', htask, houtputs⟩ := htimed.built s hs
  rw [hnode] at hnode'
  cases hnode'
  have hanc : G.Ancestor = Relation.TransGen
      (fun a b => (a, b) ∈ run.definition.graph.edgePairs) := by
    unfold Dag.Ancestor
    rw [hG.edges]
  refine ⟨inst, htask, houtputs, ?_⟩
  intro e he src hsrc hempty
  constructor
  · intro hdone
    have hgraph := htimed.inside s hs src hdone
    refine ⟨hgraph, ?_⟩
    rcases hordered e he src hgraph hsrc hempty with hbefore | hafter
    · exact hbefore
    · have hnot := htimed.early s hs src hgraph (fun p hp => hanc ▸ hafter p hp)
      rw [hdone] at hnot
      contradiction
  · rintro ⟨_, hbefore⟩
    exact hinv.disciplined.ancestors s hs src (hanc ▸ hbefore)

end Resolution

/-- In any two complete runs with the same outcomes, the tasks of a node whose
mapped sources the graph orders carry the same resolved payload. -/
theorem resolved_payload_unique {d : WorkflowDefinition} (o : Outcomes d) (inputs : Attrs)
    (run₁ run₂ : Run) (h₁ : Complete o inputs run₁) (h₂ : Complete o inputs run₂)
    (n : String) (node : GraphNode) (hnode : d.graph.nodes.get? n = some node)
    (hordered : OrderedInputs d n node) (s₁ s₂ : Submission)
    (hs₁ : s₁ ∈ run₁.submissions) (hs₂ : s₂ ∈ run₂.submissions)
    (hn₁ : s₁.nodeId = n) (hn₂ : s₂.nodeId = n) :
    s₁.task.metadata.get? "payload" = s₂.task.metadata.get? "payload" := by
  subst hn₁
  obtain ⟨inst₁, htask₁, hout₁, hdone₁⟩ := task_of_complete h₁ hs₁ hnode hordered
  obtain ⟨inst₂, htask₂, hout₂, hdone₂⟩ := task_of_complete h₂ hs₂ (hn₂ ▸ hnode)
    (hn₂ ▸ hordered)
  rw [htask₁, htask₂, hn₂]
  apply payload_taskFor_congr
  apply resolveNodeInputs_congr
  intro e he src hsrc hempty
  have hsame : doneAt s₁.nodeStates src = doneAt s₂.nodeStates src := by
    rw [Bool.eq_iff_iff, hdone₁ e he src hsrc hempty, hdone₂ e he src hsrc hempty, hn₂]
  rw [hout₁ src, hout₂ src]
  unfold expectedOutput
  rw [hsame]

section Samples

/-- C comes after A and B, so its source B is an ancestor. -/
def joinEdges : List GraphEdge :=
  [{ fromNodeId := "A", toNodeId := "C" }, { fromNodeId := "B", toNodeId := "C" }]

theorem joinDefinition_accepted : (tripleDefinition joinEdges).Accepted :=
  WorkflowDefinition.accepted_of_checks (tripleBuilder joinEdges)
    (by decide +kernel) (by decide +kernel)

def joinRun (order : List String) : Run :=
  completingRun (tripleDefinition joinEdges) joinDefinition_accepted order

theorem complete_joinRun_ABC : Complete (allDone (tripleDefinition joinEdges)) .empty
    (joinRun ["A", "B", "C"]) :=
  complete_completingRun _ _ (by decide +kernel)

theorem complete_joinRun_BAC : Complete (allDone (tripleDefinition joinEdges)) .empty
    (joinRun ["B", "A", "C"]) :=
  complete_completingRun _ _ (by decide +kernel)

/-- Reading the tasks of a concrete run. -/
theorem exists_submission (submitted : List Submission) (n : String) (p : Submission → Bool)
    (h : submitted.any (fun s => decide (s.nodeId = n) && p s) = true) :
    ∃ s ∈ submitted, s.nodeId = n ∧ p s = true := by
  obtain ⟨s, hs, hp⟩ := List.any_eq_true.mp h
  simp only [Bool.and_eq_true, decide_eq_true_eq] at hp
  exact ⟨s, hs, hp.1, hp.2⟩

/-- Whether the resolved payload of a task has a true value under the key. -/
def payloadTruthy (key : String) (s : Submission) : Bool :=
  match s.task.metadata.get? "payload" with
  | some (.dict entries) => ((lookup key entries).getD .none).truthy
  | _ => false

end Samples

theorem joinRuns_same_payload :
    ∃ s₁ ∈ (joinRun ["A", "B", "C"]).submissions, ∃ s₂ ∈ (joinRun ["B", "A", "C"]).submissions,
      s₁.nodeId = "C" ∧ s₂.nodeId = "C" ∧
      s₁.task.metadata.get? "payload" = s₂.task.metadata.get? "payload" := by
  obtain ⟨s₁, hs₁, hn₁, _⟩ := exists_submission (joinRun ["A", "B", "C"]).submissions "C"
    (fun _ => true) (by decide +kernel)
  obtain ⟨s₂, hs₂, hn₂, _⟩ := exists_submission (joinRun ["B", "A", "C"]).submissions "C"
    (fun _ => true) (by decide +kernel)
  obtain ⟨node, hnode⟩ := (Dict.mem_keys_iff (tripleDefinition joinEdges).graph.nodes "C").mp
    (by decide)
  refine ⟨s₁, hs₁, s₂, hs₂, hn₁, hn₂, ?_⟩
  refine resolved_payload_unique (allDone (tripleDefinition joinEdges)) .empty _ _
    complete_joinRun_ABC complete_joinRun_BAC "C" node hnode ?_ s₁ s₂ hs₁ hs₂ hn₁ hn₂
  intro e he src _ hsrc _
  have hC : (tripleDefinition joinEdges).graph.nodes.get? "C" =
      some { sampleNode "C" with
        dataMapping :=
          { inputMappings := Dict.empty.set "x"
              { sourceNodeId := some "B", outputKey := some "result" } } } := rfl
  rw [hC] at hnode
  cases hnode
  rw [List.mem_singleton.mp he] at hsrc
  cases hsrc
  exact Or.inl (.single (by decide))

/-- Without the order, C gets the output of B only if B completes before A. -/
theorem not_resolved_payload_unique : ¬ ∀ (d : WorkflowDefinition) (o : Outcomes d)
    (inputs : Attrs) (run₁ run₂ : Run), (∀ n, ∃ result, o.outcome n = .success result) →
      Complete o inputs run₁ → Complete o inputs run₂ →
      ∀ s₁ ∈ run₁.submissions, ∀ s₂ ∈ run₂.submissions, s₁.nodeId = s₂.nodeId →
        s₁.task.metadata.get? "payload" = s₂.task.metadata.get? "payload" := by
  intro h
  obtain ⟨s₁, hs₁, hn₁, hp₁⟩ := exists_submission (forkRun ["A", "B", "C"]).submissions "C"
    (fun s => !payloadTruthy "x" s) (by decide +kernel)
  obtain ⟨s₂, hs₂, hn₂, hp₂⟩ := exists_submission (forkRun ["B", "A", "C"]).submissions "C"
    (payloadTruthy "x") (by decide +kernel)
  have hsame := h forkDefinition (allDone forkDefinition) .empty _ _ (fun _ => ⟨_, rfl⟩)
    complete_forkRun_ABC complete_forkRun_BAC s₁ hs₁ s₂ hs₂
    (hn₁.trans hn₂.symm)
  unfold payloadTruthy at hp₁ hp₂
  rw [hsame, hp₂] at hp₁
  exact Bool.noConfusion hp₁

end MollisRuntime.Workflow
