import MollisRuntime.Workflow.Replay

/-!
What SUCCEEDED means. While an instance is running, paused or succeeded its
node states are only PENDING, RUNNING, SUCCEEDED and SKIPPED, and when it has
succeeded only the last two. Recovery keeps this up as long as it does not
replay a window that leaves a node FAILED, because it forgets the status that
goes with the failure.
-/
namespace MollisRuntime.Workflow

open Ordered Python Persistence

/-- The states that the nodes of an unfailed workflow are in. -/
def Healthy (states : Dict String NodeState) : Prop :=
  ∀ n s, states.get? n = some s → s = .pending ∨ s = .running ∨ s.isDone = true

structure Sound (inst : WorkflowInstance) : Prop where
  healthy : inst.status = .running ∨ inst.status = .paused ∨ inst.status = .succeeded →
    Healthy inst.nodeStates
  complete : inst.status = .succeeded →
    ∀ n s, inst.nodeStates.get? n = some s → s.isDone = true

/-- The window leaves a node of the graph FAILED, and the replay gets through. -/
def LeavesFailure (inst : WorkflowInstance) (events : List RuntimeEvent) : Prop :=
  (∀ e ∈ events, ¬ Unresolvable inst e) ∧
    ∃ n ∈ inst.definition.graph.nodeIds, ∃ e,
      lastWhere (settles n) events = some e ∧ failsHard inst.definition n e = true

/-- No running instance is recovered from a window that leaves a failure. -/
def Benign (id : String) (c : Store × List Submission) (call : Env × Operation) : Prop :=
  match call.2 with
  | .recover log => ∀ inst, loadInstance c.1 id = .ok inst → inst.status = .running →
      ¬ LeavesFailure inst (log.streamFrom inst.startedAt)
  | _ => True

section Healthy

theorem Healthy.set {states : Dict String NodeState} (h : Healthy states) (n : String)
    (s : NodeState) (hs : s = .pending ∨ s = .running ∨ s.isDone = true) :
    Healthy (states.set n s) := by
  intro m s' hm
  rw [Dict.get?_set] at hm
  split at hm
  · cases hm
    exact hs
  · exact h m s' hm

theorem healthy_fromKeys (ns : List String) (hns : ns.Nodup) :
    Healthy (.fromKeys ns .pending) := by
  intro n s hn
  exact Or.inl (Dict.eq_of_get?_fromKeys hns hn)

theorem Healthy.advanced {inst : WorkflowInstance} (h : Healthy inst.nodeStates) :
    Healthy inst.advanced.nodeStates := by
  intro n s hn
  rw [inst.get?_advanced] at hn
  split at hn
  · cases hn
    exact Or.inr (Or.inl rfl)
  · exact h n s hn

/-- Healthy states of which none is open are done. -/
theorem Healthy.done {states : Dict String NodeState} (h : Healthy states)
    (hopen : ∀ e ∈ states.entries, e.2.isOpen = false) {n : String} {s : NodeState}
    (hn : states.get? n = some s) : s.isDone = true := by
  have hclosed := hopen (n, s) ((states.mem_entries_iff n s).mpr hn)
  rcases h n s hn with rfl | rfl | hdone
  · simp [NodeState.isOpen] at hclosed
  · simp [NodeState.isOpen] at hclosed
  · exact hdone

end Healthy

section Steps

theorem Sound.passed {env : Env} {inst inst' : WorkflowInstance} {submitted : List Submission}
    (h : Passed env inst inst' submitted) (hs : Sound inst) : Sound inst' := by
  cases h with
  | idle _ => exact hs
  | cut _ _ _ _ => exact hs
  | through _ hrun _ _ =>
    constructor
    · intro _
      exact (hs.healthy (Or.inl hrun)).advanced
    · intro hsucceeded
      change inst.status = .succeeded at hsucceeded
      rw [hrun] at hsucceeded
      contradiction

/-- A running instance with healthy states is sound. -/
theorem Sound.of_running {inst : WorkflowInstance} (hstatus : inst.status = .running)
    (h : Healthy inst.nodeStates) : Sound inst where
  healthy _ := h
  complete hs := by
    rw [hstatus] at hs
    contradiction

theorem Sound.completed {now : String} {inst : WorkflowInstance} (h : Sound inst) :
    Sound (completeIfDone now inst) := by
  rcases completeIfDone_cases now inst with ⟨hopen, hrun, heq⟩ | ⟨_, heq⟩
  · rw [heq]
    have hhealthy := h.healthy (Or.inl hrun)
    exact ⟨fun _ => hhealthy, fun _ n s hn => hhealthy.done hopen hn⟩
  · rw [heq]
    exact h

theorem Sound.handled {now nid : String} {inst handled : WorkflowInstance} {e : RuntimeEvent}
    (hs : Sound inst) (hrun : inst.status = .running)
    (h : handleEvent now inst e nid = .ok handled) : Sound handled := by
  have hhealthy := hs.healthy (Or.inl hrun)
  rcases handleEvent_cases h with ⟨_, rfl⟩ | ⟨_, _, _, rfl⟩ | ⟨_, _, _, rfl⟩ | ⟨_, rfl⟩
  · exact Sound.of_running hrun (hhealthy.set nid _ (Or.inr (Or.inr rfl)))
  · exact Sound.of_running hrun (hhealthy.set nid _ (Or.inr (Or.inr rfl)))
  · exact ⟨by simp, by simp⟩
  · exact hs

/-- A replay that leaves no node of the graph FAILED keeps the states healthy. -/
theorem healthy_replayed {inst replayed : WorkflowInstance} {events : List RuntimeEvent}
    (hs : Healthy inst.nodeStates) (h : replayEvents inst events = .ok replayed)
    (hbenign : ¬ LeavesFailure inst events) : Healthy replayed.nodeStates := by
  have hresolvable := (replayEvents_ok_iff inst events).mp ⟨replayed, h⟩
  intro n s hn
  have hkey : n ∈ inst.nodeStates.keys := by
    obtain ⟨_, _, hkeys, _⟩ := replayEvents_frame h
    rw [← hkeys]
    exact (Dict.mem_keys_iff _ _).mpr ⟨s, hn⟩
  rw [(replayEvents_get? h n hkey).1] at hn
  unfold replayedState at hn
  cases hlast : lastWhere (settles n) events with
  | none =>
    rw [hlast] at hn
    exact hs n s hn
  | some e =>
    rw [hlast] at hn
    cases hn
    obtain ⟨hmem, hsettles⟩ := lastWhere_mem hlast
    simp only [settles, RuntimeEvent.isTerminal, Bool.and_eq_true, Bool.or_eq_true,
      decide_eq_true_eq] at hsettles
    obtain ⟨hnode, hc | hf⟩ := hsettles
    · rw [terminalState_of_completion _ _ hc]
      exact Or.inr (Or.inr rfl)
    · -- the failure names a node of the graph, so its policy decides
      have hgraph : n ∈ inst.definition.graph.nodeIds := by
        by_contra hout
        exact hresolvable e hmem ⟨n, hnode, hkey, hf, hout⟩
      have hsoft : terminalState inst.definition n e ≠ .failed := by
        intro hfailed
        exact hbenign ⟨hresolvable, n, hgraph, e, hlast, by simp [failsHard, hfailed]⟩
      unfold terminalState at hsoft ⊢
      split
      · exact Or.inr (Or.inr rfl)
      · rename_i hnc
        rw [if_neg hnc] at hsoft
        split
        · exact Or.inr (Or.inr rfl)
        · rename_i hp
          split at hsoft
          · rename_i hp'
            exact absurd hp' hp
          · exact absurd rfl hsoft

theorem Effect.sound {env : Env} {inst inst' : WorkflowInstance} {op : Operation}
    {submitted : List Submission} (h : Effect env inst op inst' submitted) (hs : Sound inst)
    (hbenign : ∀ log, op = .recover log → inst.status = .running →
      ¬ LeavesFailure inst (log.streamFrom inst.startedAt)) : Sound inst' := by
  cases h with
  | none _ => exact hs
  | event _ _ _ _ _ hstatus _ _ hhandled hpassed =>
    exact (hs.handled hstatus hhandled).completed.passed hpassed
  | pause hstatus => exact ⟨fun _ => hs.healthy (Or.inl hstatus), by simp⟩
  | resume _ _ hstatus hpassed =>
    have hresumed : Sound { inst with status := .running } :=
      Sound.of_running rfl (hs.healthy (Or.inr (Or.inl hstatus)))
    exact hresumed.passed hpassed
  | cancel _ => exact ⟨by simp [cancelNodes], by simp [cancelNodes]⟩
  | recoverCut _ _ _ _ _ _ => exact hs
  | recover log replayed _ hreplayed hstatus _ _ =>
    obtain ⟨_, hsame, _, _⟩ := replayEvents_frame hreplayed
    have hrun : inst.status = .running := hsame.symm.trans hstatus
    have hhealthy := healthy_replayed (hs.healthy (Or.inl hrun)) hreplayed
      (hbenign log rfl hrun)
    exact Sound.of_running hstatus hhealthy.advanced

end Steps

/-- In every run whose recoveries are benign, a persisted SUCCEEDED instance
has every node of its graph SUCCEEDED or SKIPPED, and no node FAILED. -/
theorem succeeded_all_done (run : Run) (hbenign : run.Along (Benign run.id))
    (inst : WorkflowInstance) (hload : loadInstance run.final.1 run.id = .ok inst)
    (hsucceeded : inst.status = .succeeded) :
    (∀ n ∈ run.definition.graph.nodeIds, doneAt inst.nodeStates n = true) ∧
      ∀ n, inst.nodeStates.get? n ≠ some .failed := by
  have hkeeps : run.Keeps (fun inst _ => Sound inst) run.final := by
    apply Run.invariant (Benign run.id) (fun inst _ => Sound inst) _ _ hbenign
    · intro p inst' _ _ _ hpassed
      exact (Sound.of_running rfl (healthy_fromKeys _ run.definition.graph.nodeIds_nodup)).passed
        hpassed
    · intro c call inst inst' _ hholds hbelongs hsound hcall heffect
      apply heffect.sound hsound
      intro log hop hrun
      unfold Benign at hcall
      rw [hop] at hcall
      exact hcall inst ((loadInstance_eq_ok_iff _ _ _).mpr ⟨hholds, hbelongs.instanceId⟩) hrun
  obtain ⟨hbelongs, hsound⟩ := hkeeps.of_load hload
  constructor
  · intro n hn
    obtain ⟨s, hs⟩ := (Dict.mem_keys_iff _ _).mp (hbelongs.tracked.covers n hn)
    unfold doneAt
    rw [hs]
    exact hsound.complete hsucceeded n s hs
  · intro n hn
    have hdone := hsound.complete hsucceeded n .failed hn
    simp [NodeState.isDone] at hdone

/-- One node, recovered from a window of one event; then its TaskStarted event. -/
def recoveredRun (e : RuntimeEvent) (h : e.isJson = true) : Run :=
  soloRun [.recover (logOf e h), .event (nodeEvent (.taskStarted "i1_A") "i1" "A")]

def completedRun : Run :=
  recoveredRun (nodeEvent (.taskCompleted "i1_A") "i1" "A") (by decide)

def failedRun : Run :=
  recoveredRun (nodeEvent (.taskFailed "i1_A" "boom") "i1" "A") (by decide)

/-- Recovery replays A's completion, and the next event completes the workflow. -/
theorem succeeded_all_done_recovered :
    ∃ inst, loadInstance completedRun.final.1 completedRun.id = .ok inst ∧
      inst.status = .succeeded ∧ doneAt inst.nodeStates "A" = true := by
  obtain ⟨inst, hload, hstatus⟩ := completedRun.exists_loaded (fun i => i.status) .succeeded
    (by decide +kernel)
  have hbenign : completedRun.Along (Benign completedRun.id) := by
    refine ⟨?_, trivial, trivial⟩
    rintro loaded _ _ ⟨_, n, _, e, hlast, hfails⟩
    have hmem := EventStore.mem_of_streamFrom (lastWhere_mem hlast).1
    rw [List.mem_singleton.mp hmem, failsHard, terminalState_of_completion _ _ rfl] at hfails
    exact absurd hfails (by decide)
  exact ⟨inst, hload, hstatus,
    (succeeded_all_done completedRun hbenign inst hload hstatus).1 "A" (by decide)⟩

/-- Recovery replays a failure that live handling would have failed the
workflow for, and a later event reports the workflow SUCCEEDED. -/
theorem not_succeeded_all_done : ¬ ∀ (run : Run) (inst : WorkflowInstance),
    loadInstance run.final.1 run.id = .ok inst → inst.status = .succeeded →
      ∀ n ∈ run.definition.graph.nodeIds, doneAt inst.nodeStates n = true := by
  intro h
  obtain ⟨inst, hload, hview⟩ := failedRun.exists_loaded
    (fun i => (i.status, doneAt i.nodeStates "A")) (.succeeded, false) (by decide +kernel)
  simp only [Prod.mk.injEq] at hview
  have hdone := h failedRun inst hload hview.1 "A" (by decide)
  rw [hview.2] at hdone
  exact Bool.false_ne_true hdone

end MollisRuntime.Workflow
