import MollisRuntime.Workflow.Progress

/-!
Pausing. An event that finds its instance paused does nothing, so what is
delivered between pause and resume is lost. Pause and resume on their own are
neutral: a running instance that was always dispatched to the end has nothing
left to submit, and resuming it saves it as it was.
-/
namespace MollisRuntime.Workflow

open Ordered Python Persistence Precedence

theorem Store.ext_rows {s t : Store} (h : s.rows = t.rows) : s = t := by
  obtain ⟨rows, hrows⟩ := s
  obtain ⟨rows', hrows'⟩ := t
  dsimp only at h
  subst h
  rfl

section Paused

theorem onRuntimeEvent_paused (env : Env) (store : Store) {inst : WorkflowInstance}
    {e : RuntimeEvent} (hholds : store.Holds inst) (hstatus : inst.status = .paused)
    (haddress : e.workflowInstanceId = some inst.instanceId) :
    (onRuntimeEvent env store e).store = store ∧
      (onRuntimeEvent env store e).submitted = [] := by
  apply onRuntimeEvent_ignored env store hholds haddress
  intro _ _ _ hrun
  rw [hstatus] at hrun
  contradiction

/-- Events of a paused instance leave the whole configuration alone. -/
theorem exec_events_paused {id : String} {events : List (Env × RuntimeEvent)}
    (haddress : ∀ call ∈ events, call.2.workflowInstanceId = some id)
    {c : Store × List Submission} {inst : WorkflowInstance} (hholds : c.1.Holds inst)
    (hid : inst.instanceId = id) (hstatus : inst.status = .paused) :
    Machine.exec (Operation.step id) (events.map fun call => (call.1, .event call.2)) c = c := by
  induction events with
  | nil => rfl
  | cons call rest ih =>
    obtain ⟨hstore, hsub⟩ := onRuntimeEvent_paused call.1 c.1 hholds hstatus
      (hid ▸ haddress call (by simp))
    have hstep : Machine.advance (Operation.step id) c (call.1, .event call.2) = c := by
      simp [Machine.advance, Operation.step, Operation.perform, hstore, hsub]
    rw [List.map_cons, Machine.exec_cons, hstep]
    exact ih (fun call' hcall' => haddress call' (List.mem_cons_of_mem _ hcall'))

end Paused

section Neutral

/-- Nothing is left to submit while the workflow is on its way. -/
def Quiet (d : WorkflowDefinition) (inst : WorkflowInstance) : Prop :=
  inst.status = .running ∨ inst.status = .paused →
    ∀ n, eligible d.graph inst.nodeStates n = false

theorem Quiet.passed {env : Env} {inst inst' : WorkflowInstance} {d : WorkflowDefinition}
    {submitted : List Submission} (h : Passed env inst inst' submitted) (hacc : env.Accepting)
    (hd : inst.definition = d) (hnotPaused : inst.status ≠ .paused) : Quiet d inst' := by
  cases h with
  | idle hstatus =>
    rintro (hrun | hpaused)
    · exact absurd hrun hstatus
    · exact absurd hpaused hnotPaused
  | cut _ _ _ hraised => exact absurd hacc hraised
  | through _ _ _ _ =>
    intro _ n
    rw [← hd]
    exact inst.eligible_advanced n

theorem Quiet.step {env : Env} {inst inst' : WorkflowInstance} {op : Operation} {id : String}
    {d : WorkflowDefinition} {submitted : List Submission}
    (h : Effect env inst op inst' submitted) (hacc : env.Accepting)
    (hop : ∀ log, op ≠ .recover log) (hbelongs : Belongs d id inst) (hquiet : Quiet d inst) :
    Quiet d inst' := by
  cases h with
  | none _ => exact hquiet
  | event _ _ _ _ _ hrun _ _ hhandled hpassed =>
    exact Quiet.passed hpassed hacc (belongs_handled hhandled hbelongs).definition
      (status_handled hrun hhandled)
  | pause hrun => exact fun _ => hquiet (Or.inl hrun)
  | resume _ _ _ hpassed => exact Quiet.passed hpassed hacc hbelongs.definition (by simp)
  | cancel _ => simp [Quiet, cancelNodes]
  | recoverCut log _ _ _ _ _ => exact absurd rfl (hop log)
  | recover log _ _ _ _ _ _ => exact absurd rfl (hop log)

/-- Pausing a quiet running instance and resuming it restores every row. -/
theorem pause_resume_neutral (env₁ env₂ : Env) {c : Store × List Submission}
    {inst : WorkflowInstance} (hholds : c.1.Holds inst) (hrun : inst.status = .running)
    (hwf : inst.WellFormed)
    (hquiet : ∀ n, eligible inst.definition.graph inst.nodeStates n = false) :
    Machine.exec (Operation.step inst.instanceId) [(env₁, .pause), (env₂, .resume)] c = c := by
  obtain ⟨store, submitted⟩ := c
  have hrunning : { { inst with status := .paused } with status := .running } = inst := by
    rw [← hrun]
  have hjson : ({ inst with status := .paused } : WorkflowInstance).toDict.isJson = true :=
    (isJson_toDict_congr rfl rfl).trans hholds.json
  -- the four checkpoints: paused, running again, and after the pass
  obtain ⟨store₁, hstore₁, hholds₁, _⟩ := checkpoint_ok store hjson
  obtain ⟨store₂, hstore₂, _, _⟩ := checkpoint_ok store₁ hholds.json
  obtain ⟨store₃, hstore₃, _, _⟩ := checkpoint_ok store₂ hholds.json
  have hpause : (pauseWorkflow store inst.instanceId).store = store₁ ∧
      (pauseWorkflow store inst.instanceId).submitted = [] := by
    unfold pauseWorkflow
    simp [hholds.load, hrun, hstore₁]
  have hresume : (resumeWorkflow env₂ store₁ inst.instanceId).store = store₃ ∧
      (resumeWorkflow env₂ store₁ inst.instanceId).submitted = [] := by
    unfold resumeWorkflow
    rw [show loadInstance store₁ inst.instanceId = .ok { inst with status := .paused } from
      hholds₁.load]
    simp only [if_true, hrunning, hstore₂,
      dispatch_quiet env₂ hrun hwf hquiet hstore₃, and_self]
  have hrows : store₃.rows = store.rows := by
    rw [checkpoint_rows hstore₃, checkpoint_rows hstore₂, checkpoint_rows hstore₁]
    rw [Dict.set_set, Dict.set_set]
    exact Dict.set_of_get? hholds
  simp only [Machine.exec_cons, Machine.exec_nil, Machine.advance, Operation.step,
    Operation.perform, Operation.perform.forget, hpause.1, hpause.2, hresume.1, hresume.2,
    List.append_nil, Store.ext_rows hrows]

theorem quiet_final (run : Run) (hstart : run.env.Accepting) (hsteady : run.Along Steady)
    (inst : WorkflowInstance) (hload : loadInstance run.final.1 run.id = .ok inst) :
    Belongs run.definition run.id inst ∧ Quiet run.definition inst := by
  refine Run.Keeps.of_load (Run.invariant Steady (fun inst _ => Quiet run.definition inst)
    ?_ ?_ hsteady) hload
  · intro p inst' submitted _ _ hpassed
    exact Quiet.passed hpassed hstart rfl (by simp [Run.initial, initialInstance])
  · intro c call inst inst' submitted _ hbelongs hquiet hcall heffect
    exact Quiet.step heffect hcall.1 hcall.2 hbelongs hquiet

end Neutral

/-- The events as calls. -/
def deliveries (events : List (Env × RuntimeEvent)) : List (Env × Operation) :=
  events.map fun call => (call.1, .event call.2)

/-- Events between pause and resume are ignored. If the scheduler has never
raised, pausing and resuming changes nothing, so the events count again when
they are delivered after it. -/
theorem paused_events_ignored (run : Run) (hevents : ∀ call ∈ run.calls, ∃ e, call.2 = .event e)
    (inst : WorkflowInstance) (hload : loadInstance run.final.1 run.id = .ok inst)
    (hrun : inst.status = .running) (env₁ env₂ : Env) (events : List (Env × RuntimeEvent))
    (haddress : ∀ call ∈ events, call.2.workflowInstanceId = some run.id) :
    Machine.exec (Operation.step run.id)
        ((env₁, .pause) :: (deliveries events ++ [(env₂, .resume)])) run.final =
      Machine.exec (Operation.step run.id) [(env₁, .pause), (env₂, .resume)] run.final ∧
    (run.env.Accepting → (∀ call ∈ run.calls, call.1.Accepting) →
      Machine.exec (Operation.step run.id) [(env₁, .pause), (env₂, .resume)] run.final =
        run.final ∧
      Machine.exec (Operation.step run.id)
          ([(env₁, .pause), (env₂, .resume)] ++ deliveries events) run.final =
        Machine.exec (Operation.step run.id) (deliveries events) run.final) := by
  obtain ⟨hholds, hid⟩ := (loadInstance_eq_ok_iff _ _ _).mp hload
  constructor
  · have hpaused : (pauseWorkflow run.final.1 run.id).store.Holds
        { inst with status := .paused } := by
      rw [← hid]
      exact (pauseWorkflow_running run.final.1 hholds hrun).1
    have hid' : ({ inst with status := .paused } : WorkflowInstance).instanceId = run.id := hid
    have hignored : Machine.exec (Operation.step run.id) (deliveries events)
        (Machine.advance (Operation.step run.id) run.final (env₁, .pause)) =
        Machine.advance (Operation.step run.id) run.final (env₁, .pause) := by
      refine exec_events_paused haddress ?_ hid' rfl
      exact hpaused
    rw [Machine.exec_cons, Machine.exec_append, hignored]
    rfl
  · intro hstart hcalls
    have hsteady : run.Along Steady := by
      apply Machine.along_of_forall
      intro call hcall _
      refine ⟨hcalls call hcall, ?_⟩
      intro log hlog
      obtain ⟨e, he⟩ := hevents call hcall
      rw [hlog] at he
      cases he
    obtain ⟨hbelongs, hquiet⟩ := quiet_final run hstart hsteady inst hload
    have hneutral := pause_resume_neutral env₁ env₂ hholds hrun
      (hbelongs.wellFormed run.accepted.closed)
      (by rw [hbelongs.definition]; exact hquiet (Or.inl hrun))
    rw [hid] at hneutral
    refine ⟨hneutral, ?_⟩
    rw [Machine.exec_append, hneutral]

section Samples

/-- A is RUNNING and completes. -/
def soloCompletion : List (Env × RuntimeEvent) :=
  [(laterEnv, nodeEvent (.taskCompleted "i1_A") "i1" "A")]

theorem soloCompletion_address : ∀ call ∈ soloCompletion,
    call.2.workflowInstanceId = some (soloRun []).id := by
  intro call hcall
  rw [List.mem_singleton.mp hcall]
  exact nodeEvent_workflowInstanceId _ _ _ _ (by decide)

end Samples

/-- A's completion is lost during the pause, and counts after it. -/
theorem solo_completion_paused :
    Machine.exec (Operation.step (soloRun []).id)
        ((laterEnv, .pause) :: (deliveries soloCompletion ++ [(laterEnv, .resume)]))
        (soloRun []).final = (soloRun []).final ∧
    Machine.exec (Operation.step (soloRun []).id)
        ([(laterEnv, .pause), (laterEnv, .resume)] ++ deliveries soloCompletion)
        (soloRun []).final =
      Machine.exec (Operation.step (soloRun []).id) (deliveries soloCompletion)
        (soloRun []).final := by
  obtain ⟨inst, hload, hrun⟩ := (soloRun []).exists_loaded (fun i => i.status) .running
    (by decide +kernel)
  obtain ⟨hignored, hneutral⟩ := paused_events_ignored (soloRun [])
    (fun _ hcall => absurd hcall (by simp [soloRun, sampleRun])) inst hload hrun laterEnv laterEnv
    soloCompletion soloCompletion_address
  obtain ⟨hsame, hafter⟩ := hneutral (fun _ => rfl)
    (fun _ hcall => absurd hcall (by simp [soloRun, sampleRun]))
  exact ⟨hignored.trans hsame, hafter⟩

/-- Delivered between pause and resume, A's completion leaves the workflow
RUNNING for ever; without the pause it succeeds. -/
theorem not_events_survive_pause : ¬ ∀ (run : Run),
    (∀ call ∈ run.calls, ∃ e, call.2 = .event e) →
    ∀ inst, loadInstance run.final.1 run.id = .ok inst → inst.status = .running →
    ∀ (env₁ env₂ : Env) (events : List (Env × RuntimeEvent)),
      (∀ call ∈ events, call.2.isTerminal = true ∧
        call.2.workflowInstanceId = some run.id ∧
        ∃ n, call.2.nodeId = some n ∧ inst.nodeStates.get? n = some .running) →
      ∀ inst₁ inst₂,
        loadInstance (Machine.exec (Operation.step run.id) (deliveries events) run.final).1
          run.id = .ok inst₁ →
        loadInstance (Machine.exec (Operation.step run.id)
          ((env₁, .pause) :: (deliveries events ++ [(env₂, .resume)])) run.final).1
          run.id = .ok inst₂ →
        inst₁.status = inst₂.status := by
  intro h
  obtain ⟨inst, hload, hview⟩ := (soloRun []).exists_loaded
    (fun i => (i.status, i.nodeStates.get? "A")) (.running, some .running) (by decide +kernel)
  simp only [Prod.mk.injEq] at hview
  have hA : ∀ call ∈ soloCompletion, call.2.isTerminal = true ∧
      call.2.workflowInstanceId = some (soloRun []).id ∧
      ∃ n, call.2.nodeId = some n ∧ inst.nodeStates.get? n = some .running := by
    intro call hcall
    refine ⟨?_, soloCompletion_address call hcall, "A", ?_, hview.2⟩
    · rw [List.mem_singleton.mp hcall]
      rfl
    · rw [List.mem_singleton.mp hcall]
      exact nodeEvent_nodeId _ _ _ _ (by decide)
  obtain ⟨inst₁, hload₁, hstatus₁⟩ := (soloRun (soloCompletion.map fun call =>
    .event call.2)).exists_loaded (fun i => i.status) .succeeded (by decide +kernel)
  obtain ⟨inst₂, hload₂, hstatus₂⟩ := (soloRun (.pause :: (soloCompletion.map fun call =>
    .event call.2) ++ [.resume])).exists_loaded (fun i => i.status) .running (by decide +kernel)
  have hsame := h (soloRun []) (fun _ hcall => absurd hcall (by simp [soloRun, sampleRun])) inst
    hload hview.1 laterEnv laterEnv soloCompletion hA inst₁ inst₂ hload₁ hload₂
  rw [hstatus₁, hstatus₂] at hsame
  exact WorkflowStatus.noConfusion hsame

end MollisRuntime.Workflow
