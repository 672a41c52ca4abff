import MollisRuntime.Scheduling.Worker
import MollisRuntime.Workflow.Runs

/-!
From the executed task back to its node. The orchestrator puts the ids of the
instance and the node into the metadata of the task it submits and reads them
from the metadata of the events it receives; the worker does not carry them
over, so the completion it appends names no node.
-/
namespace MollisRuntime.Workflow

open Ordered Python Persistence Scheduling

/-- The node is SUCCEEDED in the persisted instance. -/
def succeededAt (store : Store) (id n : String) : Bool :=
  match loadInstance store id with
  | .ok inst => decide (inst.nodeStates.get? n = some .succeeded)
  | .error _ => false

/-- The node has become SUCCEEDED, and no other node of any instance has. -/
structure Correlated (before after : Store) (id n : String) : Prop where
  node : succeededAt after id n = true
  others : ∀ j m, succeededAt after j m = true →
    (j = id ∧ m = n) ∨ succeededAt before j m = true

/-- An event without metadata is for no node of any instance. -/
theorem onRuntimeEvent_unaddressed (env : Env) (store : Store) (kind : EventKind)
    (timestamp : String) :
    onRuntimeEvent env store { kind, timestamp } = { store, result := .ok () } := rfl

/-- The completion that a worker appends for a submitted task is found by no
node: delivered, it changes nothing, so the node is SUCCEEDED afterwards only
where it was so before. -/
theorem completion_correlated_iff (env : Env) (store : Store) (s : Submission)
    (worker : Worker) (now : String) (execute : Execution) (stopping : Bool)
    (hsucceeded : (worker.process now execute stopping s.task).result = .ok ()) :
    ∃ e, (worker.process now execute stopping s.task).events.filter
        RuntimeEvent.isCompletion = [e] ∧
      onRuntimeEvent env store e = { store, result := .ok () } ∧
      (Correlated store (onRuntimeEvent env store e).store s.instanceId s.nodeId ↔
        succeededAt store s.instanceId s.nodeId = true) := by
  obtain ⟨id, hevents⟩ := Worker.process_completion hsucceeded
  refine ⟨_, hevents, onRuntimeEvent_unaddressed env store _ _, ?_⟩
  rw [onRuntimeEvent_unaddressed]
  constructor
  · exact Correlated.node
  · intro h
    exact ⟨h, fun _ _ hafter => Or.inr hafter⟩

section Samples

def sampleWorker : Worker := { workerId := "W-001", heartbeatTime := "2026-01-01T00:00:00" }

/-- An executor that does nothing and does not raise. -/
def instantly : Execution := fun task => (task, .ok ())

/-- The task of A as it was handed over in the solo run. -/
def submissionA : Submission where
  instanceId := "i1"
  nodeId := "A"
  task := { id := "i1_A", title := "Solo:A" }
  nodeStates := Dict.empty.set "A" .running

/-- A runs; its completion arrives and A still runs. -/
theorem soloRun_uncorrelated : ∃ e,
    (sampleWorker.process "2026-01-01T00:00:05" instantly false submissionA.task).events.filter
        RuntimeEvent.isCompletion = [e] ∧
      ¬ Correlated (soloRun []).final.1 (onRuntimeEvent laterEnv (soloRun []).final.1 e).store
        "i1" "A" := by
  obtain ⟨e, he, _, hiff⟩ := completion_correlated_iff laterEnv (soloRun []).final.1 submissionA
    sampleWorker "2026-01-01T00:00:05" instantly false rfl
  refine ⟨e, he, ?_⟩
  intro h
  have hbefore : succeededAt (soloRun []).final.1 "i1" "A" = false := by decide +kernel
  rw [show succeededAt (soloRun []).final.1 "i1" "A" = true from hiff.mp h] at hbefore
  cases hbefore

theorem not_completion_correlated : ¬ ∀ (run : Run) (env : Env) (worker : Worker) (now : String)
    (execute : Execution) (stopping : Bool), ∀ s ∈ run.submissions,
      (worker.process now execute stopping s.task).result = .ok () →
      ∀ e ∈ (worker.process now execute stopping s.task).events, e.isCompletion = true →
      (∃ inst, loadInstance run.final.1 run.id = .ok inst ∧ inst.status = .running) →
        Correlated run.final.1 (onRuntimeEvent env run.final.1 e).store run.id s.nodeId := by
  intro h
  have hone : (soloRun []).submissions.length = 1 := by decide +kernel
  obtain ⟨s, hs⟩ := List.length_eq_one_iff.mp hone
  have hmem : s ∈ (soloRun []).submissions := by simp [hs]
  have hcorrelated := h (soloRun []) laterEnv sampleWorker "2026-01-01T00:00:05" instantly false
    s hmem rfl { kind := .taskCompleted s.task.id, timestamp := "2026-01-01T00:00:05" }
    (by simp [Worker.process, instantly]) rfl
    (exists_loaded _ _ WorkflowInstance.status .running (by decide +kernel))
  rw [onRuntimeEvent_unaddressed] at hcorrelated
  have hnode : ∀ s ∈ (soloRun []).submissions,
      succeededAt (soloRun []).final.1 (soloRun []).id s.nodeId = false := by decide +kernel
  have hafter := hcorrelated.node
  rw [hnode s hmem] at hafter
  cases hafter

end Samples

end MollisRuntime.Workflow
