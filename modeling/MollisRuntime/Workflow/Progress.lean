import MollisRuntime.Workflow.Completion

/-!
Progress and dispatch discipline. The node states are a marking of the graph's
precedence order: a dispatch pass activates it and a final event finishes a
node. So a running workflow always has a running node, and a node is handed to
the scheduler once, after all its ancestors are done.
-/
namespace MollisRuntime.Workflow

open Ordered Python Persistence Precedence

section Marking

def NodeState.phase : NodeState → Phase
  | .pending => .waiting
  | .succeeded => .finished
  | .skipped => .finished
  | _ => .active

/-- The node states as a marking of the precedence graph. -/
def marking (states : Dict String NodeState) : Marking String := fun n =>
  match states.get? n with
  | some s => s.phase
  | none => .active

/-- The precedence graph is the definition's graph. -/
structure GraphOf (d : WorkflowDefinition) (G : Dag String) : Prop where
  nodes : G.nodes = d.graph.nodeIds
  edges : G.edges = d.graph.edgePairs

theorem WorkflowDefinition.Accepted.exists_graph {d : WorkflowDefinition} (h : d.Accepted) :
    ∃ G : Dag String, GraphOf d G := by
  obtain ⟨G, hnodes, hedges⟩ := h.exists_dag
  exact ⟨G, hnodes, hedges⟩

theorem marking_waiting_iff (states : Dict String NodeState) (n : String) :
    marking states n = .waiting ↔ states.get? n = some .pending := by
  unfold marking
  cases states.get? n with
  | none => simp
  | some s => cases s <;> simp [NodeState.phase]

theorem marking_finished_iff (states : Dict String NodeState) (n : String) :
    marking states n = .finished ↔ doneAt states n = true := by
  unfold marking doneAt
  cases states.get? n with
  | none => simp
  | some s => cases s <;> simp [NodeState.phase, NodeState.isDone]

/-- A final state finishes its node. -/
theorem marking_set_done (states : Dict String NodeState) (n : String) {s : NodeState}
    (hs : s.isDone = true) : marking (states.set n s) = finish (marking states) n := by
  funext m
  by_cases hm : m = n
  · subst hm
    rw [(marking_finished_iff _ _).mpr (by simp [doneAt_set, hs])]
    simp [finish]
  · simp [finish, marking, hm, Dict.get?_set_ne _ _ _ _ (Ne.symm hm)]

variable {d : WorkflowDefinition} {G : Dag String}

theorem ready_iff (hG : GraphOf d G) (states : Dict String NodeState) (n : String) :
    Ready G (marking states) n ↔ ∀ p, (p, n) ∈ d.graph.edgePairs → doneAt states p = true := by
  unfold Ready
  rw [hG.edges]
  exact forall₂_congr fun p _ => marking_finished_iff states p

theorem eligible_iff_ready (hG : GraphOf d G) (states : Dict String NodeState) (n : String) :
    eligible d.graph states n = true ↔
      marking states n = .waiting ∧ Ready G (marking states) n := by
  rw [eligible_iff, marking_waiting_iff, ready_iff hG]

/-- A complete dispatch pass is the activation of the marking. -/
theorem marking_advanced {inst : WorkflowInstance} (hd : inst.definition = d)
    (hG : GraphOf d G) :
    marking inst.advanced.nodeStates = activate G (marking inst.nodeStates) := by
  funext n
  unfold activate
  by_cases he : eligible d.graph inst.nodeStates n = true
  · rw [if_pos ((eligible_iff_ready hG _ _).mp he)]
    simp [marking, inst.get?_advanced, hd, he, NodeState.phase]
  · rw [if_neg (fun h => he ((eligible_iff_ready hG _ _).mpr h))]
    simp [marking, inst.get?_advanced, hd, he]

end Marking

section Flow
variable {d : WorkflowDefinition} {G : Dag String}

/-- What holds of an instance that is still on its way. -/
structure Live (d : WorkflowDefinition) (G : Dag String) (inst : WorkflowInstance) : Prop where
  healthy : Healthy inst.nodeStates
  settled : Settled G (marking inst.nodeStates)
  unfinished : ∃ n ∈ d.graph.nodeIds, doneAt inst.nodeStates n = false

def Flowing (d : WorkflowDefinition) (G : Dag String) (inst : WorkflowInstance) : Prop :=
  inst.status = .running ∨ inst.status = .paused → Live d G inst

theorem Flowing.passed {env : Env} {inst inst' : WorkflowInstance}
    {submitted : List Submission} (h : Passed env inst inst' submitted) (hacc : env.Accepting)
    (hG : GraphOf d G) (hd : inst.definition = d) (hnotPaused : inst.status ≠ .paused)
    (hopen : inst.status = .running → Healthy inst.nodeStates ∧
      ∃ n ∈ d.graph.nodeIds, doneAt inst.nodeStates n = false) : Flowing d G inst' := by
  cases h with
  | idle hstatus =>
    rintro (hrun | hpaused)
    · exact absurd hrun hstatus
    · exact absurd hpaused hnotPaused
  | cut _ _ _ hraised => exact absurd hacc hraised
  | through _ hstatus _ _ =>
    intro _
    obtain ⟨hhealthy, n, hn, hnot⟩ := hopen hstatus
    refine ⟨hhealthy.advanced, ?_, n, hn, ?_⟩
    · rw [marking_advanced hd hG]
      exact settled_activate G _
    · rw [inst.doneAt_advanced]
      exact hnot

/-- A running instance after an event that did not complete it. -/
theorem unfinished_completeIfDone {now : String} {inst : WorkflowInstance}
    (htr : Tracked d.graph inst.nodeStates)
    (hrun : (completeIfDone now inst).status = .running) :
    ∃ n ∈ d.graph.nodeIds, doneAt inst.nodeStates n = false := by
  rcases completeIfDone_cases now inst with ⟨_, _, heq⟩ | ⟨hcase, heq⟩
  · rw [heq] at hrun
    simp at hrun
  · rw [heq] at hrun
    rcases hcase with ⟨⟨n, s⟩, hmem, hopen⟩ | hstatus
    · have hn := (inst.nodeStates.mem_entries_iff n s).mp hmem
      refine ⟨n, htr.open_mem n s hn hopen, ?_⟩
      unfold doneAt
      rw [hn]
      cases s <;> simp_all [NodeState.isOpen, NodeState.isDone]
    · exact absurd hrun hstatus

/-- Neither handling nor completing an event pauses the instance. -/
theorem status_handled {now nid : String} {inst handled : WorkflowInstance} {e : RuntimeEvent}
    (hrun : inst.status = .running) (h : handleEvent now inst e nid = .ok handled) :
    (completeIfDone now handled).status ≠ .paused := by
  have hhandled : handled.status = .running ∨ handled.status = .failed := by
    rcases handleEvent_cases h with ⟨_, rfl⟩ | ⟨_, _, _, rfl⟩ | ⟨_, _, _, rfl⟩ | ⟨_, rfl⟩
    · exact Or.inl hrun
    · exact Or.inl hrun
    · exact Or.inr rfl
    · exact Or.inl hrun
  rcases completeIfDone_cases now handled with ⟨_, _, heq⟩ | ⟨_, heq⟩
  · simp [heq]
  · rw [heq]
    rcases hhandled with hs | hs <;> simp [hs]

/-- The scheduler never raises, and nothing is recovered. -/
def Steady (_ : Store × List Submission) (call : Env × Operation) : Prop :=
  call.1.Accepting ∧ ∀ log, call.2 ≠ .recover log

theorem Flowing.step {env : Env} {inst inst' : WorkflowInstance} {op : Operation} {id : String}
    {submitted : List Submission} (h : Effect env inst op inst' submitted)
    (hacc : env.Accepting) (hop : ∀ log, op ≠ .recover log) (hG : GraphOf d G)
    (hbelongs : Belongs d id inst) (hflow : Flowing d G inst) : Flowing d G inst' := by
  cases h with
  | none _ => exact hflow
  | event e nid handled _ _ hrun _ _ hhandled hpassed =>
    have hlive := hflow (Or.inl hrun)
    refine Flowing.passed hpassed hacc hG (belongs_handled hhandled hbelongs).definition
      (status_handled hrun hhandled) ?_
    intro hstatus
    have hsound : Sound (completeIfDone env.now handled) :=
      ((Sound.of_running hrun hlive.healthy).handled hrun hhandled).completed
    refine ⟨hsound.healthy (Or.inl hstatus), ?_⟩
    rw [nodeStates_completeIfDone]
    exact unfinished_completeIfDone (tracked_handleEvent hbelongs.tracked hhandled) hstatus
  | pause hrun =>
    intro _
    have hlive := hflow (Or.inl hrun)
    exact ⟨hlive.healthy, hlive.settled, hlive.unfinished⟩
  | resume _ _ hpaused hpassed =>
    have hlive := hflow (Or.inr hpaused)
    exact Flowing.passed hpassed hacc hG hbelongs.definition (by simp)
      (fun _ => ⟨hlive.healthy, hlive.unfinished⟩)
  | cancel _ => simp [Flowing, cancelNodes]
  | recoverCut log _ _ _ _ _ => exact absurd rfl (hop log)
  | recover log _ _ _ _ _ _ => exact absurd rfl (hop log)

theorem Flowing.start {run : Run} {p : ExecutionPlan} {inst : WorkflowInstance}
    {submitted : List Submission} (h : Passed run.env (run.initial p) inst submitted)
    (hacc : run.env.Accepting) (hG : GraphOf run.definition G)
    (hne : run.definition.graph.nodeIds ≠ []) : Flowing run.definition G inst := by
  have hnodup := run.definition.graph.nodeIds_nodup
  refine Flowing.passed h hacc hG rfl (by simp [Run.initial, initialInstance]) ?_
  intro _
  refine ⟨healthy_fromKeys _ hnodup, ?_⟩
  obtain ⟨n, hn⟩ := List.exists_mem_of_ne_nil _ hne
  refine ⟨n, hn, ?_⟩
  unfold doneAt Run.initial initialInstance
  rw [Dict.get?_fromKeys _ _ hnodup n hn]
  rfl

/-- A live instance has a RUNNING node. -/
theorem Live.exists_running {inst : WorkflowInstance} {id : String} (h : Live d G inst)
    (hG : GraphOf d G) (hbelongs : Belongs d id inst) :
    ∃ n ∈ d.graph.nodeIds, inst.nodeStates.get? n = some .running := by
  obtain ⟨n, hn, hnot⟩ := h.unfinished
  have hopen : ∃ v ∈ G.nodes, marking inst.nodeStates v ≠ .finished := by
    refine ⟨n, by rw [hG.nodes]; exact hn, ?_⟩
    rw [ne_eq, marking_finished_iff, hnot]
    exact Bool.false_ne_true
  obtain ⟨v, hv, hactive⟩ := exists_active G _ h.settled hopen
  rw [hG.nodes] at hv
  obtain ⟨s, hs⟩ := (Dict.mem_keys_iff _ _).mp (hbelongs.tracked.covers v hv)
  refine ⟨v, hv, ?_⟩
  rcases h.healthy v s hs with rfl | rfl | hdone
  · rw [(marking_waiting_iff _ _).mpr hs] at hactive
    contradiction
  · exact hs
  · have hfinished : marking inst.nodeStates v = .finished := by
      rw [marking_finished_iff, doneAt, hs]
      exact hdone
    rw [hfinished] at hactive
    contradiction

end Flow

/-- A persisted RUNNING instance has a RUNNING node: the workflow waits for a
task that was handed to the scheduler. -/
theorem running_workflow_has_running_node (run : Run)
    (hne : run.definition.graph.nodeIds ≠ []) (hstart : run.env.Accepting)
    (hsteady : run.Along Steady) (inst : WorkflowInstance)
    (hload : loadInstance run.final.1 run.id = .ok inst) (hrun : inst.status = .running) :
    ∃ n ∈ run.definition.graph.nodeIds, inst.nodeStates.get? n = some .running := by
  obtain ⟨G, hG⟩ := run.accepted.exists_graph
  have hkeeps : run.Keeps (fun inst _ => Flowing run.definition G inst) run.final := by
    apply Run.invariant Steady (fun inst _ => Flowing run.definition G inst) _ _ hsteady
    · intro p inst' submitted _ _ hpassed
      exact Flowing.start hpassed hstart hG hne
    · intro c call inst inst' submitted _ hbelongs hflow hcall heffect
      exact Flowing.step heffect hcall.1 hcall.2 hG hbelongs hflow
  obtain ⟨hbelongs, hflow⟩ := hkeeps.of_load hload
  exact (hflow (Or.inl hrun)).exists_running hG hbelongs

/-- The first node of the chain is done, and the workflow waits for the second. -/
def advancedChain : Run :=
  chainRun [.event (nodeEvent (.taskCompleted "i1_A") "i1" "A"), .pause, .resume]

theorem advancedChain_has_running_node :
    ∃ inst, loadInstance advancedChain.final.1 advancedChain.id = .ok inst ∧
      inst.status = .running ∧
      ∃ n ∈ chainDefinition.graph.nodeIds, inst.nodeStates.get? n = some .running := by
  obtain ⟨inst, hload, hrun⟩ := advancedChain.exists_loaded (fun i => i.status) .running
    (by decide +kernel)
  have hsteady : advancedChain.Along Steady := by
    apply Machine.along_of_forall
    intro call hcall _
    obtain ⟨hacc, hop⟩ := sampleRun_accepting hcall
    refine ⟨hacc, ?_⟩
    rintro log hlog
    simp [hlog] at hop
  exact ⟨inst, hload, hrun, running_workflow_has_running_node advancedChain (by decide)
    (fun _ => rfl) hsteady inst hload hrun⟩

end MollisRuntime.Workflow
