import MollisRuntime.Workflow.Delivery

/-!
Confluence. A complete run of deliveries ends with every node finished, because
a settled marking without active nodes is complete. What it ends with is a
function of the definition, the inputs and the outcomes, so the order of the
events does not matter.
-/
namespace MollisRuntime.Workflow

open Ordered Python Persistence Precedence

/-- A run of the definition that was started, delivers one event after the
other, and ends when no node is RUNNING. -/
structure Complete {d : WorkflowDefinition} (o : Outcomes d) (inputs : Attrs)
    (run : Run) : Prop where
  definition : run.definition = d
  inputs : run.inputs = inputs
  started : run.Started
  accepting : run.env.Accepting
  delivers : run.Along (Delivers run.id o)
  finished : ∀ inst, loadInstance run.final.1 run.id = .ok inst →
    ∀ n, inst.nodeStates.get? n ≠ some .running

/-- What complete runs end with. -/
structure Result {d : WorkflowDefinition} (o : Outcomes d) (inputs : Attrs)
    (inst : WorkflowInstance) (submitted : List Submission) : Prop where
  status : inst.status = .succeeded
  keys : inst.nodeStates.keys = d.graph.nodeIds
  states : ∀ n ∈ d.graph.nodeIds, inst.nodeStates.get? n = some (o.outcome n).state
  outputs : ∀ n, inst.nodeOutputs.get? n =
    if n ∈ d.graph.nodeIds then (o.outcome n).frame.or ((startOutputs inputs).get? n)
    else (startOutputs inputs).get? n
  tasks : (submitted.map Submission.nodeId).Perm d.graph.nodeIds

variable {d : WorkflowDefinition} {o : Outcomes d} {inputs : Attrs}

/-- What a complete run ends with is fixed by its definition, inputs and
outcomes. -/
theorem complete_result {run : Run} (hne : d.graph.nodeIds ≠ [])
    (h : Complete o inputs run) :
    ∃ inst, loadInstance run.final.1 run.id = .ok inst ∧
      Result o inputs inst run.submissions := by
  obtain ⟨rfl, rfl, hstarted, haccepting, hdelivers, hfinished⟩ := h
  obtain ⟨G, hG⟩ := run.accepted.exists_graph
  obtain ⟨inst, hload, hbelongs, hinv⟩ :=
    (delivered_final hG hne haccepting hstarted hdelivers).load
  have hidle := hfinished inst hload
  have hstatus : inst.status = .succeeded := by
    rcases hinv.status with hrun | hsucceeded
    · obtain ⟨n, _, hn⟩ := (hinv.flowing (Or.inl hrun)).exists_running hG hbelongs
      exact absurd hn (hidle n)
    · exact hsucceeded
  have hget : ∀ n ∈ run.definition.graph.nodeIds,
      ∃ s, inst.nodeStates.get? n = some s ∧ s.isDone = true := by
    intro n hn
    obtain ⟨s, hs⟩ := (Dict.mem_keys_iff _ _).mp (hbelongs.tracked.covers n hn)
    exact ⟨s, hs, hinv.sound.complete hstatus n s hs⟩
  refine ⟨inst, hload, hstatus, hinv.reported.keys, ?_, ?_, ?_⟩
  · intro n hn
    obtain ⟨s, hs, hdone⟩ := hget n hn
    rw [hs, hinv.reported.final n s hs hdone]
  · intro n
    rw [hinv.reported.outputs n]
    unfold expectedOutput
    by_cases hn : n ∈ run.definition.graph.nodeIds
    · obtain ⟨s, hs, hdone⟩ := hget n hn
      have hdoneAt : doneAt inst.nodeStates n = true := by
        unfold doneAt
        rw [hs]
        exact hdone
      simp [hn, hdoneAt]
    · have hnone : inst.nodeStates.get? n = none := by
        rw [Dict.get?_eq_none_iff, hinv.reported.keys]
        exact hn
      simp [hn, doneAt, hnone]
  · apply (List.perm_ext_iff_of_nodup hinv.disciplined.nodup
      run.definition.graph.nodeIds_nodup).mpr
    intro n
    constructor
    · intro hn
      obtain ⟨s, hs, rfl⟩ := List.mem_map.mp hn
      exact Run.known_final s hs
    · intro hn
      obtain ⟨s, hs, hdone⟩ := hget n hn
      apply hinv.reported.dispatched n s hs
      rintro rfl
      simp [NodeState.isDone] at hdone

/-- Two complete runs with the same outcomes succeed with the same states and
outputs, and each has submitted one task for every node. -/
theorem complete_runs_agree (hne : d.graph.nodeIds ≠ []) (run₁ run₂ : Run)
    (h₁ : Complete o inputs run₁) (h₂ : Complete o inputs run₂) :
    ∃ inst₁ inst₂, loadInstance run₁.final.1 run₁.id = .ok inst₁ ∧
      loadInstance run₂.final.1 run₂.id = .ok inst₂ ∧
      inst₁.status = .succeeded ∧ inst₂.status = .succeeded ∧
      inst₁.nodeStates = inst₂.nodeStates ∧
      inst₁.nodeOutputs.SameItems inst₂.nodeOutputs ∧
      (run₁.submissions.map Submission.nodeId).Perm d.graph.nodeIds ∧
      (run₂.submissions.map Submission.nodeId).Perm d.graph.nodeIds := by
  obtain ⟨inst₁, hload₁, hres₁⟩ := complete_result hne h₁
  obtain ⟨inst₂, hload₂, hres₂⟩ := complete_result hne h₂
  refine ⟨inst₁, inst₂, hload₁, hload₂, hres₁.status, hres₂.status, ?_, ?_, hres₁.tasks,
    hres₂.tasks⟩
  · apply Dict.ext_get?
    · rw [hres₁.keys, hres₂.keys]
    · intro n hn
      rw [hres₁.keys] at hn
      rw [hres₁.states n hn, hres₂.states n hn]
  · intro n
    rw [hres₁.outputs n, hres₂.outputs n]

section Samples

/-- Three nodes, of which C reads the output of B, with the given edges. -/
def tripleBuilder (edges : List GraphEdge) : WorkflowBuilder where
  name := "Triple"
  nodes :=
    ((Dict.empty.set "A" (sampleNode "A")).set "B" (sampleNode "B")).set "C"
      { sampleNode "C" with
        dataMapping :=
          { inputMappings := Dict.empty.set "x"
              { sourceNodeId := some "B", outputKey := some "result" } } }
  edges

def tripleDefinition (edges : List GraphEdge) : WorkflowDefinition where
  name := "Triple"
  graph := { nodes := (tripleBuilder edges).nodes, edges }

/-- C comes after A only. -/
def forkDefinition : WorkflowDefinition :=
  tripleDefinition [{ fromNodeId := "A", toNodeId := "C" }]

theorem forkDefinition_accepted : forkDefinition.Accepted :=
  WorkflowDefinition.accepted_of_checks (tripleBuilder [{ fromNodeId := "A", toNodeId := "C" }])
    (by decide +kernel) (by decide +kernel)

/-- Every node succeeds with the same result. -/
def allDone (d : WorkflowDefinition) : Outcomes d where
  outcome _ := .success (.str "done")
  json := by
    intro _ result h
    cases h
    rfl
  ignored := by
    intro _ h
    cases h

def completion (n : String) : RuntimeEvent :=
  nodeEvent (.taskCompleted ("i1_" ++ n)) "i1" n (.str "done")

/-- The nodes complete in the given order. -/
def completingRun (d : WorkflowDefinition) (h : d.Accepted) (order : List String) : Run :=
  sampleRun d h (order.map fun n => .event (completion n))

theorem delivers_completion {d : WorkflowDefinition} (c : Store × List Submission)
    (n : String) (hn : n ≠ "") (hrunning : runningAt c.1 "i1" n = true) :
    Delivers "i1" (allDone d) c (laterEnv, .event (completion n)) :=
  ⟨n, ⟨fun _ => rfl, completion n, rfl, nodeEvent_workflowInstanceId _ _ _ _ (by decide),
    nodeEvent_nodeId _ _ _ _ hn, rfl, nodeEvent_result _ _ _ _⟩, hrunning⟩

/-- Whether each node is RUNNING when its completion comes, and no node is at the
end. -/
def completesInOrder : List String → Store × List Submission → Bool
  | [], c =>
    match loadInstance c.1 "i1" with
    | .ok inst => inst.nodeStates.entries.all fun e => e.2 ≠ .running
    | .error _ => false
  | n :: rest, c =>
    decide (n ≠ "") && runningAt c.1 "i1" n && completesInOrder rest
      (Machine.advance (Operation.step "i1") c (laterEnv, .event (completion n)))

theorem completesInOrder_spec {d : WorkflowDefinition} (order : List String)
    (c : Store × List Submission) (h : completesInOrder order c = true) :
    (∃ inst, loadInstance c.1 "i1" = .ok inst) ∧
      Machine.Along (Operation.step "i1") (Delivers "i1" (allDone d))
        ((order.map fun n => Operation.event (completion n)).map fun op => (laterEnv, op)) c ∧
      ∀ inst, loadInstance (Machine.exec (Operation.step "i1")
        ((order.map fun n => Operation.event (completion n)).map fun op => (laterEnv, op)) c).1
          "i1" = .ok inst → ∀ n, inst.nodeStates.get? n ≠ some .running := by
  induction order generalizing c with
  | nil =>
    cases hload : loadInstance c.1 "i1" with
    | error e => simp [completesInOrder, hload] at h
    | ok inst =>
      refine ⟨⟨inst, rfl⟩, trivial, ?_⟩
      intro inst' hload' n hn
      have hsame := hload.symm.trans hload'
      cases hsame
      simp only [completesInOrder, hload, List.all_eq_true] at h
      have hne := h (n, .running) ((Dict.mem_entries_iff _ _ _).mpr hn)
      simp at hne
  | cons n rest ih =>
    simp only [completesInOrder, Bool.and_eq_true, decide_eq_true_eq] at h
    obtain ⟨⟨hn, hrunning⟩, hrest⟩ := h
    obtain ⟨_, hdelivers, hfinished⟩ := ih _ hrest
    refine ⟨?_, ⟨delivers_completion c n hn hrunning, hdelivers⟩, hfinished⟩
    cases hload : loadInstance c.1 "i1" with
    | error e => simp [runningAt, hload] at hrunning
    | ok inst => exact ⟨inst, rfl⟩

/-- Such a run is complete once it has passed the check. -/
theorem complete_completingRun {d : WorkflowDefinition} (h : d.Accepted) (order : List String)
    (hcheck : completesInOrder order (completingRun d h order).started = true) :
    Complete (allDone d) .empty (completingRun d h order) where
  definition := rfl
  inputs := rfl
  started := (completesInOrder_spec (d := d) order _ hcheck).1
  accepting := fun _ => rfl
  delivers := (completesInOrder_spec order _ hcheck).2.1
  finished := (completesInOrder_spec (d := d) order _ hcheck).2.2

def forkRun (order : List String) : Run :=
  completingRun forkDefinition forkDefinition_accepted order

theorem complete_forkRun_ABC : Complete (allDone forkDefinition) .empty
    (forkRun ["A", "B", "C"]) :=
  complete_completingRun _ _ (by decide +kernel)

theorem complete_forkRun_BAC : Complete (allDone forkDefinition) .empty
    (forkRun ["B", "A", "C"]) :=
  complete_completingRun _ _ (by decide +kernel)

end Samples

theorem forkRuns_agree :
    ∃ inst₁ inst₂, loadInstance (forkRun ["A", "B", "C"]).final.1 "i1" = .ok inst₁ ∧
      loadInstance (forkRun ["B", "A", "C"]).final.1 "i1" = .ok inst₂ ∧
      inst₁.status = .succeeded ∧ inst₂.status = .succeeded ∧
      inst₁.nodeStates = inst₂.nodeStates ∧
      inst₁.nodeOutputs.SameItems inst₂.nodeOutputs ∧
      ((forkRun ["A", "B", "C"]).submissions.map Submission.nodeId).Perm
        forkDefinition.graph.nodeIds ∧
      ((forkRun ["B", "A", "C"]).submissions.map Submission.nodeId).Perm
        forkDefinition.graph.nodeIds :=
  complete_runs_agree (by decide) (forkRun ["A", "B", "C"]) (forkRun ["B", "A", "C"])
    complete_forkRun_ABC complete_forkRun_BAC

end MollisRuntime.Workflow
