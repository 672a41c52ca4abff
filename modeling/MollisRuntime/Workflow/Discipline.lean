import MollisRuntime.Workflow.Progress

/-!
Dispatch discipline. When final events arrive only for RUNNING nodes, the
marking stays justified, so whatever has left PENDING has only finished
ancestors. The tasks handed over so far are those of distinct nodes that have
left PENDING, and no node returns to it.
-/
namespace MollisRuntime.Workflow

open Ordered Python Persistence Precedence

/-- The node is RUNNING in the persisted instance. -/
def runningAt (store : Store) (id n : String) : Bool :=
  match loadInstance store id with
  | .ok inst => decide (inst.nodeStates.get? n = some .running)
  | .error _ => false

theorem runningAt_iff {store : Store} {inst : WorkflowInstance} (h : store.Holds inst)
    (n : String) :
    runningAt store inst.instanceId n = true ↔ inst.nodeStates.get? n = some .running := by
  simp [runningAt, h.load]

/-- The scheduler never raises, nothing is recovered, and a final event of the
instance finds its node RUNNING. -/
def Orderly (id : String) (c : Store × List Submission) (call : Env × Operation) : Prop :=
  call.1.Accepting ∧
    match call.2 with
    | .recover _ => False
    | .event e => e.isTerminal = true → e.workflowInstanceId = some id →
        ∀ n, e.nodeId = some n → runningAt c.1 id n = true
    | _ => True

section History
variable {d : WorkflowDefinition} {G : Dag String}

structure Disciplined (G : Dag String) (inst : WorkflowInstance)
    (history : List Submission) : Prop where
  justified : inst.status = .running ∨ inst.status = .paused →
    Justified G (marking inst.nodeStates)
  left : ∀ s ∈ history, inst.nodeStates.get? s.nodeId ≠ some .pending
  nodup : (history.map Submission.nodeId).Nodup
  ancestors : ∀ s ∈ history, ∀ u, G.Ancestor u s.nodeId → doneAt s.nodeStates u = true

/-- A pass adds tasks of PENDING nodes, which are then RUNNING. -/
theorem Disciplined.passed {env : Env} {inst inst' : WorkflowInstance}
    {history submitted : List Submission} (h : Passed env inst inst' submitted)
    (hacc : env.Accepting) (hd : inst.definition = d) (hG : GraphOf d G)
    (htr : Tracked d.graph inst.nodeStates)
    (hdis : Disciplined G inst history) : Disciplined G inst' (history ++ submitted) := by
  cases h with
  | idle _ =>
    rw [List.append_nil]
    exact hdis
  | cut _ _ _ hraised => exact absurd hacc hraised
  | through _ hstatus hhanded hall =>
    have hjustified : Justified G (marking inst.advanced.nodeStates) := by
      rw [marking_advanced hd hG]
      exact justified_activate G _ (hdis.justified (Or.inl hstatus))
    have hpending : ∀ s ∈ submitted, inst.nodeStates.get? s.nodeId = some .pending ∧
        inst.advanced.nodeStates.get? s.nodeId = some .running := by
      intro s hs
      have hmem : s.nodeId ∈ inst.eligibleNodes := by
        rw [← hall]
        exact List.mem_map_of_mem hs
      have he := (inst.mem_eligibleNodes _).mp hmem
      refine ⟨((eligible_iff _ _ _).mp he).1, ?_⟩
      rw [inst.get?_advanced, if_pos he]
    constructor
    · exact fun _ => hjustified
    · intro s hs
      rcases List.mem_append.mp hs with hs | hs
      · rw [inst.get?_advanced]
        split
        · simp
        · exact hdis.left s hs
      · rw [(hpending s hs).2]
        simp
    · rw [List.map_append, List.nodup_append]
      refine ⟨hdis.nodup, ?_, ?_⟩
      · rw [hall]
        exact inst.nodeStates.nodup_keys'.filter _
      · intro a ha b hb hab
        obtain ⟨s, hs, rfl⟩ := List.mem_map.mp ha
        obtain ⟨s', hs', rfl⟩ := List.mem_map.mp hb
        exact hdis.left s hs (hab ▸ (hpending s' hs').1)
    · intro s hs u hu
      rcases List.mem_append.mp hs with hs | hs
      · exact hdis.ancestors s hs u hu
      · have hnode : s.nodeId ∈ G.nodes := by
          rw [hG.nodes]
          exact htr.pending_mem _ (hpending s hs).1
        have hactive : marking inst.advanced.nodeStates s.nodeId ≠ .waiting := by
          rw [ne_eq, marking_waiting_iff, (hpending s hs).2]
          simp
        have hfinished := ancestors_finished G _ hjustified hnode hactive hu
        rw [marking_finished_iff, inst.doneAt_advanced] at hfinished
        rw [hhanded.doneAt s hs u]
        exact hfinished

/-- A final event of a RUNNING node makes no node PENDING and leaves the
marking justified while the workflow goes on. -/
theorem Disciplined.handled {now nid : String} {inst handled : WorkflowInstance}
    {e : RuntimeEvent} {history : List Submission} (hrun : inst.status = .running)
    (h : handleEvent now inst e nid = .ok handled)
    (hrunning : e.isTerminal = true → inst.nodeStates.get? nid = some .running)
    (hdis : Disciplined G inst history) : Disciplined G handled history := by
  have hjustified := hdis.justified (Or.inl hrun)
  have hfinish : ∀ s : NodeState, s.isDone = true → e.isTerminal = true →
      Justified G (marking (inst.nodeStates.set nid s)) := by
    intro s hs ht
    rw [marking_set_done _ _ hs]
    apply justified_finish G _ _ hjustified
    rw [ne_eq, marking_waiting_iff, hrunning ht]
    simp
  have hleft : ∀ s : NodeState, s ≠ .pending → ∀ s' ∈ history,
      (inst.nodeStates.set nid s).get? s'.nodeId ≠ some .pending := by
    intro s hs s' hs'
    rw [Dict.get?_set]
    split
    · simpa using hs
    · exact hdis.left s' hs'
  rcases handleEvent_cases h with ⟨hc, rfl⟩ | ⟨_, hf, _, rfl⟩ | ⟨_, _, _, rfl⟩ | ⟨_, rfl⟩
  · exact ⟨fun _ => hfinish _ rfl (by simp [RuntimeEvent.isTerminal, hc]),
      hleft _ (by simp), hdis.nodup, hdis.ancestors⟩
  · exact ⟨fun _ => hfinish _ rfl (by simp [RuntimeEvent.isTerminal, hf]),
      hleft _ (by simp), hdis.nodup, hdis.ancestors⟩
  · exact ⟨by simp, hleft _ (by simp), hdis.nodup, hdis.ancestors⟩
  · exact hdis

theorem Disciplined.completed {now : String} {inst : WorkflowInstance}
    {history : List Submission} (hdis : Disciplined G inst history) :
    Disciplined G (completeIfDone now inst) history := by
  rcases completeIfDone_cases now inst with ⟨_, _, heq⟩ | ⟨_, heq⟩
  · rw [heq]
    exact ⟨by simp, hdis.left, hdis.nodup, hdis.ancestors⟩
  · rw [heq]
    exact hdis

theorem Disciplined.step {env : Env} {inst inst' : WorkflowInstance} {op : Operation}
    {id : String} {history submitted : List Submission}
    (h : Effect env inst op inst' submitted) (hacc : env.Accepting)
    (hop : ∀ log, op ≠ .recover log)
    (hrunning : ∀ e, op = .event e → e.isTerminal = true →
      e.workflowInstanceId = some inst.instanceId → ∀ n, e.nodeId = some n →
        inst.nodeStates.get? n = some .running)
    (hG : GraphOf d G) (hbelongs : Belongs d id inst)
    (hdis : Disciplined G inst history) : Disciplined G inst' (history ++ submitted) := by
  cases h with
  | none _ =>
    rw [List.append_nil]
    exact hdis
  | event e nid handled _ _ hrun haddress hnode hhandled hpassed =>
    have hdone := hdis.handled hrun hhandled
      (fun ht => hrunning e rfl ht haddress nid hnode)
    have hafter := belongs_handled hhandled hbelongs
    exact hdone.completed.passed hpassed hacc hafter.definition hG hafter.tracked
  | pause hrun =>
    rw [List.append_nil]
    exact ⟨fun _ => hdis.justified (Or.inl hrun), hdis.left, hdis.nodup, hdis.ancestors⟩
  | resume _ _ hpaused hpassed =>
    have hresumed : Disciplined G { inst with status := .running } history :=
      ⟨fun _ => hdis.justified (Or.inr hpaused), hdis.left, hdis.nodup, hdis.ancestors⟩
    exact hresumed.passed hpassed hacc hbelongs.definition hG hbelongs.tracked
  | cancel _ =>
    rw [List.append_nil]
    refine ⟨by simp [cancelNodes], ?_, hdis.nodup, hdis.ancestors⟩
    intro s hs
    rw [cancelNodes, Dict.get?_mapVal]
    cases inst.nodeStates.get? s.nodeId with
    | none => simp
    | some state => cases state <;> simp [NodeState.isCancellable]
  | recoverCut log _ _ _ _ _ => exact absurd rfl (hop log)
  | recover log _ _ _ _ _ _ => exact absurd rfl (hop log)

theorem Disciplined.start {run : Run} {p : ExecutionPlan} {inst : WorkflowInstance}
    {submitted : List Submission} (h : Passed run.env (run.initial p) inst submitted)
    (hacc : run.env.Accepting) (hG : GraphOf run.definition G) :
    Disciplined G inst submitted := by
  have hnodup := run.definition.graph.nodeIds_nodup
  have hinitial : Disciplined G (run.initial p) [] := by
    refine ⟨?_, by simp, by simp, by simp⟩
    intro _ v hv hne
    rw [hG.nodes] at hv
    have hpending : (run.initial p).nodeStates.get? v = some .pending :=
      Dict.get?_fromKeys _ _ hnodup v hv
    exact absurd ((marking_waiting_iff _ _).mpr hpending) hne
  exact hinitial.passed h hacc rfl hG (run.initial_belongs p).tracked

/-- The invariant along every orderly run. -/
theorem disciplined_final (run : Run) (hG : GraphOf run.definition G)
    (hstart : run.env.Accepting) (horderly : run.Along (Orderly run.id)) :
    run.Keeps (Disciplined G) run.final := by
  apply Run.invariant (Orderly run.id) (Disciplined G) _ _ horderly
  · intro p inst' submitted _ _ hpassed
    exact Disciplined.start hpassed hstart hG
  · intro c call inst inst' submitted hholds hbelongs hdis hcall heffect
    obtain ⟨hacc, hop⟩ := hcall
    refine Disciplined.step heffect hacc ?_ ?_ hG hbelongs hdis
    · rintro log hlog
      simp only [hlog] at hop
    · intro e he ht haddress n hn
      simp only [he] at hop
      rw [← runningAt_iff hholds, hbelongs.instanceId]
      exact hop ht (hbelongs.instanceId ▸ haddress) n hn

end History

/-- In an orderly run every node is handed to the scheduler at most once, and
all its ancestors are SUCCEEDED or SKIPPED at that moment. -/
theorem dispatched_once_after_ancestors (run : Run) (hstart : run.env.Accepting)
    (horderly : run.Along (Orderly run.id)) :
    (run.submissions.map Submission.nodeId).Nodup ∧
      ∀ s ∈ run.submissions, ∀ u,
        Relation.TransGen (fun a b => (a, b) ∈ run.definition.graph.edgePairs) u s.nodeId →
          doneAt s.nodeStates u = true := by
  obtain ⟨G, hG⟩ := run.accepted.exists_graph
  rcases disciplined_final run hG hstart horderly with ⟨inst, _, _, hdis⟩ | ⟨_, hnone⟩
  · refine ⟨hdis.nodup, ?_⟩
    intro s hs u hu
    apply hdis.ancestors s hs u
    unfold Dag.Ancestor
    rw [hG.edges]
    exact hu
  · have hempty : run.submissions = [] := hnone
    rw [hempty]
    simp

/-- Both nodes of the chain were handed over, the second after the first. -/
theorem advancedChain_dispatched :
    advancedChain.submissions.map Submission.nodeId = ["A", "B"] ∧
      (advancedChain.submissions.map Submission.nodeId).Nodup ∧
      ∀ s ∈ advancedChain.submissions, ∀ u,
        Relation.TransGen (fun a b => (a, b) ∈ chainDefinition.graph.edgePairs) u s.nodeId →
          doneAt s.nodeStates u = true := by
  refine ⟨by decide +kernel, dispatched_once_after_ancestors advancedChain (fun _ => rfl)
    ⟨⟨fun _ => rfl, ?_⟩, ⟨fun _ => rfl, trivial⟩, ⟨fun _ => rfl, trivial⟩, trivial⟩⟩
  intro _ _ n hn
  have hA : n = "A" := by
    have h : (nodeEvent (.taskCompleted "i1_A") "i1" "A").nodeId = some "A" := by decide
    rw [h] at hn
    exact (Option.some.inj hn).symm
  subst hA
  decide +kernel

end MollisRuntime.Workflow
