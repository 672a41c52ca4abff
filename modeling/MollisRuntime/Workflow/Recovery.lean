import MollisRuntime.Workflow.Replay

/-!
Recovery. A recovered instance is saved only by the dispatch pass at its end,
which submits PENDING nodes and no others: a node that was RUNNING stays RUNNING
without a task unless the replayed window settles it. The window holds the
events of every instance, and the replay looks at their node ids alone.
-/
namespace MollisRuntime.Workflow

open Ordered Python Persistence

section Reenqueue

/-- Every node that the saved instance has RUNNING was handed to the scheduler
by this operation. -/
def Reenqueued (id : String) (out : Outcome WorkflowInstance) : Prop :=
  ∀ inst, loadInstance out.store id = .ok inst → ∀ n,
    inst.nodeStates.get? n = some .running →
      ∃ s ∈ out.submitted, s.instanceId = id ∧ s.nodeId = n

/-- Nothing was saved and nothing RUNNING was handed over. -/
theorem reenqueued_unsaved_iff {store : Store} {inst : WorkflowInstance}
    (hholds : store.Holds inst) {out : Outcome WorkflowInstance} (hstore : out.store = store)
    (hpending : ∀ s ∈ out.submitted, inst.nodeStates.get? s.nodeId = some .pending) :
    Reenqueued inst.instanceId out ↔ ∀ n, inst.nodeStates.get? n ≠ some .running := by
  constructor
  · intro h n hn
    obtain ⟨s, hs, _, rfl⟩ := h inst (by rw [hstore]; exact hholds.load) n hn
    rw [hpending s hs] at hn
    cases hn
  · intro h inst' hload n hn
    rw [hstore, hholds.load] at hload
    cases hload
    exact absurd hn (h n)

/-- The pass saved the advanced instance: its RUNNING nodes are the submitted
ones and those that were RUNNING before the pass. -/
theorem reenqueued_saved_iff {inst : WorkflowInstance} {out : Outcome WorkflowInstance}
    (hsaved : out.store.Holds inst.advanced)
    (hhanded : Handed inst inst.eligibleNodes out.submitted)
    (hall : out.submitted.map Submission.nodeId = inst.eligibleNodes) :
    Reenqueued inst.instanceId out ↔ ∀ n, inst.nodeStates.get? n ≠ some .running := by
  have hload : loadInstance out.store inst.instanceId = .ok inst.advanced := hsaved.load
  constructor
  · intro h n hn
    have hnot : eligible inst.definition.graph inst.nodeStates n = false := by
      simp [eligible, hn]
    obtain ⟨s, hs, _, rfl⟩ := h inst.advanced hload n (by rw [inst.get?_advanced, hnot]; exact hn)
    have hmem : s.nodeId ∈ inst.eligibleNodes := by
      rw [← hall]
      exact List.mem_map_of_mem hs
    rw [inst.mem_eligibleNodes, hnot] at hmem
    contradiction
  · intro h inst' hload' n hn
    rw [hload] at hload'
    cases hload'
    rw [inst.get?_advanced] at hn
    split at hn
    · rename_i he
      have hmem := (inst.mem_eligibleNodes n).mpr he
      rw [← hall] at hmem
      obtain ⟨s, hs, hsn⟩ := List.mem_map.mp hmem
      exact ⟨s, hs, hhanded.instanceId s hs, hsn⟩
    · exact absurd hn (h n)

end Reenqueue

section Recovering
variable {env : Env} {store : Store} {log : EventStore} {inst : WorkflowInstance}

/-- Recovery returns and has saved the replayed instance, dispatched, or it
raises: then the rows are as before, and at most PENDING nodes were handed over. -/
theorem recover_cases (hholds : store.Holds inst) (hrun : inst.status = .running)
    (hwf : inst.WellFormed) (env : Env) (log : EventStore) :
    ((recoverWorkflow env log store inst.instanceId).result.isOk = true ∧
      ∃ replayed, replayEvents inst (log.streamFrom inst.startedAt) = .ok replayed ∧
        (recoverWorkflow env log store inst.instanceId).store.Holds replayed.advanced ∧
        Handed replayed replayed.eligibleNodes
          (recoverWorkflow env log store inst.instanceId).submitted ∧
        (recoverWorkflow env log store inst.instanceId).submitted.map Submission.nodeId =
          replayed.eligibleNodes) ∨
      ((recoverWorkflow env log store inst.instanceId).result.isOk = false ∧
        (recoverWorkflow env log store inst.instanceId).store = store ∧
        ∀ s ∈ (recoverWorkflow env log store inst.instanceId).submitted,
          inst.nodeStates.get? s.nodeId = some .pending) := by
  cases hreplay : replayEvents inst (log.streamFrom inst.startedAt) with
  | error err =>
    rw [recoverWorkflow_raised env store log hholds hreplay]
    exact Or.inr ⟨rfl, rfl, by simp⟩
  | ok replayed =>
    obtain ⟨_, hstatus, _, _⟩ := replayEvents_frame hreplay
    rw [recoverWorkflow_replayed env store log hholds hreplay]
    obtain ⟨hhanded, ⟨e, herr, hstore, _⟩ | ⟨hok, hsaved, _, _, hall⟩⟩ := dispatch_spec env store
      (hstatus.trans hrun) (wellFormed_replayEvents hreplay hwf)
    · refine Or.inr ⟨by rw [herr]; rfl, hstore, ?_⟩
      intro s hs
      have hmem := hhanded.order.subset (List.mem_map_of_mem hs)
      have hpending := ((eligible_iff _ _ _).mp ((replayed.mem_eligibleNodes _).mp hmem)).1
      exact ((replayEvents_open_iff hreplay _ (Or.inl rfl)).mp hpending).1
    · exact Or.inl ⟨by rw [hok]; rfl, replayed, rfl, hsaved, hhanded, hall⟩

/-- After a replay a node is RUNNING if it was so and the window does not settle it. -/
theorem replayed_notRunning_iff {replayed : WorkflowInstance} {window : List RuntimeEvent}
    (hreplay : replayEvents inst window = .ok replayed) :
    (∀ n, replayed.nodeStates.get? n ≠ some .running) ↔
      ∀ n, inst.nodeStates.get? n = some .running → ∃ e ∈ window, settles n e = true := by
  apply forall_congr'
  intro n
  rw [ne_eq, replayEvents_open_iff hreplay n (Or.inr rfl)]
  push Not
  simp

/-- Nothing in the window makes the replay raise, and the scheduler takes the
tasks that the replayed instance has to submit. -/
structure Recoverable (env : Env) (inst : WorkflowInstance) (window : List RuntimeEvent) :
    Prop where
  resolvable : ∀ e ∈ window, ¬ Unresolvable inst e
  taken : ∀ replayed, replayEvents inst window = .ok replayed → env.Takes replayed

theorem recoverWorkflow_isOk_iff (hholds : store.Holds inst) (hrun : inst.status = .running)
    (hwf : inst.WellFormed) :
    (recoverWorkflow env log store inst.instanceId).result.isOk = true ↔
      Recoverable env inst (log.streamFrom inst.startedAt) := by
  have hreturns := replayEvents_ok_iff inst (log.streamFrom inst.startedAt)
  cases hreplay : replayEvents inst (log.streamFrom inst.startedAt) with
  | error err =>
    rw [recoverWorkflow_raised env store log hholds hreplay]
    refine iff_of_false (by simp [Except.isOk, Except.toBool]) ?_
    intro h
    obtain ⟨replayed, hok⟩ := hreturns.mpr h.resolvable
    rw [hreplay] at hok
    contradiction
  | ok replayed =>
    obtain ⟨hframe, hstatus, _, htracked⟩ := replayEvents_frame hreplay
    rw [recoverWorkflow_replayed env store log hholds hreplay,
      dispatch_isOk_iff env store (hstatus.trans hrun) (wellFormed_replayEvents hreplay hwf)
        (isJson_replayEvents hreplay hholds.json
          (fun e he => EventStore.isJson_of_streamFrom he))]
    constructor
    · intro htakes
      refine ⟨hreturns.mp ⟨replayed, hreplay⟩, ?_⟩
      intro replayed' hreplay'
      rw [hreplay] at hreplay'
      cases hreplay'
      exact htakes
    · intro h
      exact h.taken replayed hreplay

end Recovering

end MollisRuntime.Workflow
