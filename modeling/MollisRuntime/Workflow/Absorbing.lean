import MollisRuntime.Workflow.Runs

/-!
Terminal workflows. Operations on any instances may follow, in any order and
with any events and logs. The row of an instance that is SUCCEEDED, FAILED or
CANCELLED stays what it is: only `recover_workflow` works on such an instance
before it asks for the status, and what it replays never reaches the row.
-/
namespace MollisRuntime.Workflow

open Ordered Python Persistence

/-- SUCCEEDED, FAILED or CANCELLED. -/
def WorkflowStatus.isFinal : WorkflowStatus → Bool
  | .succeeded => true
  | .failed => true
  | .cancelled => true
  | _ => false

/-- An operation on the instance with this id; an event is addressed by its
own metadata. -/
structure Call where
  instanceId : String
  env : Env
  op : Operation

def Call.step (store : Store) (call : Call) : Store × List Submission :=
  Operation.step call.instanceId store (call.env, call.op)

theorem WorkflowStatus.notRunning_of_final {s : WorkflowStatus} (h : s.isFinal = true) :
    s ≠ .running := by
  rintro rfl
  contradiction

theorem WorkflowStatus.notPaused_of_final {s : WorkflowStatus} (h : s.isFinal = true) :
    s ≠ .paused := by
  rintro rfl
  contradiction

/-- The row of the instance is untouched and none of its tasks is submitted. -/
structure Untouched (id : String) (store : Store) (out : Outcome Unit) : Prop where
  row : out.store.rows.get? id = store.rows.get? id
  submitted : ∀ s ∈ out.submitted, s.instanceId ≠ id

section Frames

variable {env : Env} {store : Store} {id address : String}

theorem untouched_of_same {out : Outcome Unit} (hstore : out.store = store)
    (hsubmitted : out.submitted = []) : Untouched id store out := by
  constructor
  · rw [hstore]
  · rw [hsubmitted]
    simp

theorem untouched_checkpoint {store' : Store} {inst : WorkflowInstance}
    {result : Except PyError Unit} {cancels : List String} (hne : inst.instanceId ≠ id)
    (h : checkpointWorkflow store inst = .ok store') :
    Untouched id store { store := store', queueCancels := cancels, result } where
  row := checkpoint_frame h id hne.symm
  submitted := by simp

/-- A pass over another instance, on rows in which this one's is as before. -/
theorem untouched_dispatch {store' : Store} {inst : WorkflowInstance} (hne : inst.instanceId ≠ id)
    (hsame : store'.rows.get? id = store.rows.get? id) :
    Untouched id store (Operation.perform.forget (dispatchEligibleNodes env store' inst)) := by
  obtain ⟨hrow, hsub⟩ := dispatch_frame env store' inst
  constructor
  · exact (hrow id hne.symm).trans hsame
  · intro s hs
    rw [hsub s hs]
    exact hne

theorem pauseWorkflow_frame (hne : address ≠ id) :
    Untouched id store (Operation.perform.forget (pauseWorkflow store address)) := by
  unfold pauseWorkflow
  split
  · exact untouched_of_same rfl rfl
  · rename_i inst hload
    have hid := ((loadInstance_eq_ok_iff _ _ _).mp hload).2
    split
    · dsimp only
      split
      · exact untouched_of_same rfl rfl
      · rename_i store' hstore
        exact untouched_checkpoint (by rw [hid]; exact hne) hstore
    · exact untouched_of_same rfl rfl

theorem resumeWorkflow_frame (hne : address ≠ id) :
    Untouched id store (Operation.perform.forget (resumeWorkflow env store address)) := by
  unfold resumeWorkflow
  split
  · exact untouched_of_same rfl rfl
  · rename_i inst hload
    have hid := ((loadInstance_eq_ok_iff _ _ _).mp hload).2
    split
    · dsimp only
      split
      · exact untouched_of_same rfl rfl
      · rename_i store' hstore
        have hother : inst.instanceId ≠ id := by
          rw [hid]
          exact hne
        exact untouched_dispatch hother (checkpoint_frame hstore id hother.symm)
    · exact untouched_of_same rfl rfl

theorem cancelWorkflow_frame (hne : address ≠ id) :
    Untouched id store (Operation.perform.forget (cancelWorkflow env store address)) := by
  unfold cancelWorkflow
  split
  · exact untouched_of_same rfl rfl
  · rename_i inst hload
    have hid := ((loadInstance_eq_ok_iff _ _ _).mp hload).2
    split
    · dsimp only
      split
      · exact untouched_of_same rfl rfl
      · rename_i store' hstore
        have hother : (cancelNodes env.now inst).instanceId ≠ id := by
          change inst.instanceId ≠ id
          rw [hid]
          exact hne
        exact untouched_checkpoint hother hstore
    · exact untouched_of_same rfl rfl

theorem recoverWorkflow_frame (log : EventStore) (hne : address ≠ id) :
    Untouched id store (Operation.perform.forget (recoverWorkflow env log store address)) := by
  unfold recoverWorkflow
  split
  · exact untouched_of_same rfl rfl
  · rename_i inst hload
    have hid := ((loadInstance_eq_ok_iff _ _ _).mp hload).2
    split
    · exact untouched_of_same rfl rfl
    · rename_i replayed hreplayed
      refine untouched_dispatch ?_ rfl
      rw [(replayEvents_frame hreplayed).1.instanceId, hid]
      exact hne

end Frames

section Final

variable {env : Env} {store : Store} {inst : WorkflowInstance}

theorem onRuntimeEvent_final (hholds : store.Holds inst) (hfinal : inst.status.isFinal = true)
    (e : RuntimeEvent) : Untouched inst.instanceId store (onRuntimeEvent env store e) := by
  by_cases haddress : e.workflowInstanceId = some inst.instanceId
  · have hrun := WorkflowStatus.notRunning_of_final hfinal
    obtain ⟨hstore, hsubmitted⟩ := onRuntimeEvent_ignored env store hholds haddress
      (fun _ _ _ hstatus _ => absurd hstatus hrun)
    exact untouched_of_same hstore hsubmitted
  · obtain ⟨hrow, hsub⟩ := onRuntimeEvent_frame env store e inst.instanceId haddress
    exact ⟨hrow, hsub⟩

/-- The replay keeps the status, so the pass on the replayed instance is idle. -/
theorem recoverWorkflow_final (hholds : store.Holds inst) (hfinal : inst.status.isFinal = true)
    (log : EventStore) : Untouched inst.instanceId store
      (Operation.perform.forget (recoverWorkflow env log store inst.instanceId)) := by
  cases hreplay : replayEvents inst (log.streamFrom inst.startedAt) with
  | error err =>
    rw [recoverWorkflow_raised env store log hholds hreplay]
    exact untouched_of_same rfl rfl
  | ok replayed =>
    have hstatus : replayed.status ≠ .running := by
      rw [(replayEvents_frame hreplay).2.1]
      exact WorkflowStatus.notRunning_of_final hfinal
    rw [recoverWorkflow_replayed env store log hholds hreplay, dispatch_idle env store hstatus]
    exact untouched_of_same rfl rfl

/-- One operation, whichever instance it is called for. -/
theorem perform_final (hholds : store.Holds inst) (hfinal : inst.status.isFinal = true)
    (address : String) (op : Operation) :
    Untouched inst.instanceId store (op.perform address env store) := by
  have hrun := WorkflowStatus.notRunning_of_final hfinal
  have hpaused := WorkflowStatus.notPaused_of_final hfinal
  by_cases hne : address = inst.instanceId
  · subst hne
    cases op with
    | event e => exact onRuntimeEvent_final hholds hfinal e
    | pause =>
      obtain ⟨hstore, hsubmitted⟩ := pauseWorkflow_other store hholds hrun
      exact untouched_of_same hstore hsubmitted
    | resume =>
      obtain ⟨hstore, hsubmitted⟩ := resumeWorkflow_other env store hholds hpaused
      exact untouched_of_same hstore hsubmitted
    | cancel =>
      obtain ⟨hstore, hsubmitted⟩ := cancelWorkflow_closed env store hholds
        (fun h => h.elim hrun hpaused)
      exact untouched_of_same hstore hsubmitted
    | recover log => exact recoverWorkflow_final hholds hfinal log
  · cases op with
    | event e => exact onRuntimeEvent_final hholds hfinal e
    | pause => exact pauseWorkflow_frame hne
    | resume => exact resumeWorkflow_frame hne
    | cancel => exact cancelWorkflow_frame hne
    | recover log => exact recoverWorkflow_frame log hne

end Final

/-- Whatever follows, a terminal instance is loaded as it was and no further
task is submitted for it. -/
theorem terminal_absorbing (store : Store) (id : String) (inst : WorkflowInstance)
    (hload : loadInstance store id = .ok inst) (hfinal : inst.status.isFinal = true)
    (calls : List Call) :
    loadInstance (Machine.exec Call.step calls (store, [])).1 id = .ok inst ∧
      own id (Machine.exec Call.step calls (store, [])).2 = [] := by
  obtain ⟨hholds, rfl⟩ := (loadInstance_eq_ok_iff _ _ _).mp hload
  have hinv : ∀ c : Store × List Submission,
      c.1.Holds inst ∧ own inst.instanceId c.2 = [] →
      (Machine.exec Call.step calls c).1.Holds inst ∧
        own inst.instanceId (Machine.exec Call.step calls c).2 = [] := by
    intro c hc
    refine Machine.exec_preserves (fun c : Store × List Submission =>
      c.1.Holds inst ∧ own inst.instanceId c.2 = []) ?_ hc calls
    rintro c call ⟨hrow, hown⟩
    have huntouched : Untouched inst.instanceId c.1
        (call.op.perform call.instanceId call.env c.1) :=
      perform_final hrow hfinal call.instanceId call.op
    refine ⟨huntouched.row.trans hrow, ?_⟩
    rw [Machine.advance, own_append, hown, List.nil_append]
    exact own_eq_nil huntouched.submitted
  obtain ⟨hrow, hown⟩ := hinv (store, []) ⟨hholds, rfl⟩
  exact ⟨hrow.load, hown⟩

/-- A has failed; its completion arrives late and is also found in the log. -/
theorem failedSolo_absorbing : ∃ inst,
    loadInstance (soloRun [.event (nodeEvent (.taskFailed "i1_A" "boom") "i1" "A")]).final.1
      "i1" = .ok inst ∧ inst.status = .failed ∧
    loadInstance (Machine.exec Call.step
      [⟨"i1", laterEnv, .event (nodeEvent (.taskCompleted "i1_A") "i1" "A")⟩,
        ⟨"i1", laterEnv, .recover (logOf (nodeEvent (.taskCompleted "i1_A") "i1" "A")
          (by decide))⟩,
        ⟨"i1", laterEnv, .resume⟩]
      ((soloRun [.event (nodeEvent (.taskFailed "i1_A" "boom") "i1" "A")]).final.1, [])).1
      "i1" = .ok inst := by
  obtain ⟨inst, hload, hstatus⟩ := (soloRun [.event (nodeEvent (.taskFailed "i1_A" "boom") "i1"
    "A")]).exists_loaded WorkflowInstance.status .failed (by decide +kernel)
  exact ⟨inst, hload, hstatus,
    (terminal_absorbing _ "i1" inst hload (by rw [hstatus]; rfl) _).1⟩

end MollisRuntime.Workflow
