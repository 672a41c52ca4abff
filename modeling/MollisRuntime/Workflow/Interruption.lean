import MollisRuntime.Workflow.Replay

/-!
Dispatch passes that raise. The only checkpoint of a pass comes after its loop,
so the row keeps every node PENDING whose task was accepted before the
exception, and the next pass that the scheduler accepts submits them again.
-/
namespace MollisRuntime.Workflow

open Ordered Python Persistence

/-- The calls that may contain a dispatch pass. -/
inductive DispatchCall
  | start (uuid : Uuid) (definition : WorkflowDefinition) (inputs : Attrs)
  | operate (instanceId : String) (op : Operation)

def DispatchCall.perform (env : Env) (store : Store) : DispatchCall → Outcome Unit
  | .start uuid definition inputs =>
      Operation.perform.forget (startWorkflow env store uuid definition inputs)
  | .operate instanceId op => op.perform instanceId env store

/-- The scheduler accepted some tasks before the call raised. -/
structure Outcome.Interrupted {α : Type} (out : Outcome α) : Prop where
  accepted : out.submitted ≠ []
  raised : out.result.isOk = false

/-- The rows record every accepted node as RUNNING. -/
def Outcome.Recorded {α : Type} (out : Outcome α) : Prop :=
  ∀ s ∈ out.submitted, ∃ inst, loadInstance out.store s.instanceId = .ok inst ∧
    inst.nodeStates.get? s.nodeId = some .running

/-- A later operation submits the task of every accepted node once more. -/
def Outcome.Resubmitted {α : Type} (out : Outcome α) : Prop :=
  ∃ env op, ∀ s ∈ out.submitted,
    ∃ s' ∈ (Operation.perform s.instanceId env out.store op).submitted,
      s'.nodeId = s.nodeId ∧ s'.task = s.task

section Loop

variable {env : Env} {deps : Dict String (List String)}

/-- The loop hands over nodes that were PENDING when it began. -/
theorem dispatchLoop_pending (ns : List String) (inst : WorkflowInstance) (hnodup : ns.Nodup) :
    ∀ s ∈ (dispatchLoop env deps ns inst).1,
      s.nodeId ∈ ns ∧ inst.nodeStates.get? s.nodeId = some .pending := by
  refine dispatchLoop_rule (P := fun ns inst out => ns.Nodup → ∀ s ∈ out.1,
    s.nodeId ∈ ns ∧ inst.nodeStates.get? s.nodeId = some .pending) ?_ ?_ ?_ ?_ ns inst hnodup
  · simp
  · simp
  · intro n rest inst out ih hnodup s hs
    obtain ⟨hmem, hget⟩ := ih (List.nodup_cons.mp hnodup).2 s hs
    exact ⟨List.mem_cons_of_mem _ hmem, hget⟩
  · intro n rest inst node submitted result hpending _ ih hnodup s hs
    obtain ⟨hn, hrest⟩ := List.nodup_cons.mp hnodup
    rcases List.mem_cons.mp hs with rfl | hs
    · exact ⟨by simp, hpending⟩
    · obtain ⟨hmem, hget⟩ := ih hrest s hs
      have hne : n ≠ s.nodeId := fun h => hn (h ▸ hmem)
      rw [WorkflowInstance.markRunning, Dict.get?_set_ne _ _ _ _ hne] at hget
      exact ⟨List.mem_cons_of_mem _ hmem, hget⟩

/-- A scheduler that takes everything takes what another one took. -/
theorem dispatchLoop_subset {env' : Env} (hacc : env'.Accepting) (ns : List String)
    (inst : WorkflowInstance) :
    (dispatchLoop env deps ns inst).1 ⊆ (dispatchLoop env' deps ns inst).1 := by
  induction ns generalizing inst with
  | nil => simp [dispatchLoop]
  | cons n rest ih =>
    unfold dispatchLoop
    split
    · split
      · simp
      · split
        · simp
        · exact ih inst
        · split
          · simp
          · dsimp only
            rw [hacc]
            split
            · simp
            · exact List.cons_subset_cons _ (ih _)
    · exact ih inst

end Loop

section Pass

variable {env : Env} {store : Store} {inst : WorkflowInstance}

/-- The rows are written only once the loop is through. -/
theorem dispatch_raised (h : (dispatchEligibleNodes env store inst).result.isOk = false) :
    (dispatchEligibleNodes env store inst).store = store := by
  unfold dispatchEligibleNodes at h ⊢
  split
  · rfl
  · rename_i hrun
    simp only [hrun, if_false] at h
    dsimp only
    split
    · rfl
    · rename_i deps hdeps
      simp only [hdeps] at h
      split
      · rfl
      · rename_i submitted inst' hloop
        simp only [hloop] at h
        split
        · rfl
        · rename_i store' hstore
          rw [hstore] at h
          contradiction

/-- A pass submits what its loop hands over, if it comes to the loop. -/
theorem dispatch_submitted (inst : WorkflowInstance) :
    (∀ env store, (dispatchEligibleNodes env store inst).submitted = []) ∨
      ∃ deps, ∀ env store, (dispatchEligibleNodes env store inst).submitted =
        (dispatchLoop env deps inst.nodeStates.keys inst).1 := by
  by_cases hrun : inst.status = .running
  · cases hdeps : Kahn.parentsOf inst.definition.graph.emptyLists
        inst.definition.graph.edgePairs with
    | error k =>
      left
      intro env store
      unfold dispatchEligibleNodes
      simp [hrun, hdeps]
    | ok deps =>
      right
      refine ⟨deps, ?_⟩
      intro env store
      unfold dispatchEligibleNodes
      simp only [hrun, ne_eq, not_true_eq_false, if_false, hdeps]
      split
      · rename_i heq
        rw [heq]
      · rename_i heq
        rw [heq]
        split <;> rfl
  · left
    intro env store
    rw [dispatch_idle env store hrun]

theorem dispatch_pending : ∀ s ∈ (dispatchEligibleNodes env store inst).submitted,
    inst.nodeStates.get? s.nodeId = some .pending := by
  intro s hs
  rcases dispatch_submitted inst with hnone | ⟨deps, hloop⟩
  · rw [hnone] at hs
    contradiction
  · rw [hloop] at hs
    exact (dispatchLoop_pending _ inst inst.nodeStates.nodup_keys' s hs).2

theorem dispatch_subset {env' : Env} (hacc : env'.Accepting) (store' : Store) :
    (dispatchEligibleNodes env store inst).submitted ⊆
      (dispatchEligibleNodes env' store' inst).submitted := by
  rcases dispatch_submitted inst with hnone | ⟨deps, hloop⟩
  · rw [hnone]
    exact List.nil_subset _
  · rw [hloop, hloop]
    exact dispatchLoop_subset hacc _ inst

end Pass

/-- A pass over an instance that was loaded and replayed from its row, or saved
before, has raised: the row is as it was before the pass. -/
structure CutShort (env : Env) (out : Outcome Unit) (log : EventStore)
    (inst replayed : WorkflowInstance) : Prop where
  saved : out.store.Holds inst
  replay : replayEvents inst (log.streamFrom inst.startedAt) = .ok replayed
  submitted : out.submitted = (dispatchEligibleNodes env out.store replayed).submitted

/-- How a call ends: without a pass and without a task, with a pass over an
instance that was just saved, or with one over an instance that was loaded and
replayed. -/
inductive EndsInPass (env : Env) (store : Store) (out : Outcome Unit) : Prop
  | idle (hnone : out.submitted = [])
  | saved (store' : Store) (inst : WorkflowInstance)
      (hsaved : checkpointWorkflow store inst = .ok store')
      (hout : out = Operation.perform.forget (dispatchEligibleNodes env store' inst))
  | replayed (log : EventStore) (inst replayed : WorkflowInstance) (hholds : store.Holds inst)
      (hreplay : replayEvents inst (log.streamFrom inst.startedAt) = .ok replayed)
      (hout : out = Operation.perform.forget (dispatchEligibleNodes env store replayed))

section Calls

variable {env : Env} {store : Store}

theorem start_endsInPass (uuid : Uuid) (d : WorkflowDefinition) (inputs : Attrs) :
    EndsInPass env store (Operation.perform.forget (startWorkflow env store uuid d inputs)) := by
  unfold startWorkflow
  split
  · exact EndsInPass.idle rfl
  · dsimp only
    split
    · exact EndsInPass.idle rfl
    · rename_i hsaved
      exact EndsInPass.saved _ _ hsaved rfl

theorem event_endsInPass (e : RuntimeEvent) :
    EndsInPass env store (onRuntimeEvent env store e) := by
  unfold onRuntimeEvent
  split
  · split
    · exact EndsInPass.idle rfl
    · split
      · exact EndsInPass.idle rfl
      · split
        · exact EndsInPass.idle rfl
        · dsimp only
          split
          · exact EndsInPass.idle rfl
          · rename_i hsaved
            split
            · exact EndsInPass.saved _ _ hsaved rfl
            · exact EndsInPass.idle rfl
  · exact EndsInPass.idle rfl

theorem resume_endsInPass (id : String) :
    EndsInPass env store (Operation.perform.forget (resumeWorkflow env store id)) := by
  unfold resumeWorkflow
  split
  · exact EndsInPass.idle rfl
  · split
    · dsimp only
      split
      · exact EndsInPass.idle rfl
      · rename_i hsaved
        exact EndsInPass.saved _ _ hsaved rfl
    · exact EndsInPass.idle rfl

theorem recover_endsInPass (log : EventStore) (id : String) :
    EndsInPass env store (Operation.perform.forget (recoverWorkflow env log store id)) := by
  unfold recoverWorkflow
  split
  · exact EndsInPass.idle rfl
  · rename_i hload
    split
    · exact EndsInPass.idle rfl
    · rename_i hreplay
      exact EndsInPass.replayed log _ _ ((loadInstance_eq_ok_iff _ _ _).mp hload).1 hreplay rfl

theorem pauseWorkflow_submitted (store : Store) (id : String) :
    (pauseWorkflow store id).submitted = [] := by
  unfold pauseWorkflow
  split
  · rfl
  · split
    · dsimp only
      split <;> rfl
    · rfl

theorem cancelWorkflow_submitted (env : Env) (store : Store) (id : String) :
    (cancelWorkflow env store id).submitted = [] := by
  unfold cancelWorkflow
  split
  · rfl
  · split
    · dsimp only
      split <;> rfl
    · rfl

theorem operate_endsInPass (op : Operation) (id : String) :
    EndsInPass env store (op.perform id env store) := by
  cases op with
  | event e => exact event_endsInPass e
  | pause => exact EndsInPass.idle (pauseWorkflow_submitted store id)
  | resume => exact resume_endsInPass id
  | cancel => exact EndsInPass.idle (cancelWorkflow_submitted env store id)
  | recover log => exact recover_endsInPass log id

theorem DispatchCall.endsInPass (call : DispatchCall) :
    EndsInPass env store (call.perform env store) := by
  cases call with
  | start uuid d inputs => exact start_endsInPass uuid d inputs
  | operate id op => exact operate_endsInPass op id

end Calls

section Cut

variable {env : Env} {store store' : Store} {inst : WorkflowInstance}

theorem forget_isOk (out : Outcome WorkflowInstance) :
    (Operation.perform.forget out).result.isOk = out.result.isOk := by
  unfold Operation.perform.forget
  cases out.result <;> rfl

theorem checkpoint_holds (h : checkpointWorkflow store inst = .ok store') :
    store'.Holds inst := by
  unfold Store.Holds
  rw [checkpoint_rows h, Dict.get?_set_self]

theorem streamFrom_empty (start : String) : EventStore.empty.streamFrom start = [] := by
  simp [EventStore.streamFrom, EventStore.empty]

/-- A pass that raised, over what the replay of the saved instance gave. -/
theorem cutShort_dispatch {log : EventStore} {replayed : WorkflowInstance}
    (hsaved : store.Holds inst)
    (hreplay : replayEvents inst (log.streamFrom inst.startedAt) = .ok replayed)
    (h : (Operation.perform.forget (dispatchEligibleNodes env store replayed)).result.isOk =
      false) :
    CutShort env (Operation.perform.forget (dispatchEligibleNodes env store replayed)) log inst
      replayed := by
  rw [forget_isOk] at h
  have hstore := dispatch_raised h
  constructor
  · change (dispatchEligibleNodes env store replayed).store.Holds inst
    rw [hstore]
    exact hsaved
  · exact hreplay
  · change (dispatchEligibleNodes env store replayed).submitted =
      (dispatchEligibleNodes env (dispatchEligibleNodes env store replayed).store
        replayed).submitted
    rw [hstore]

/-- Every call that is interrupted has cut its pass short. -/
theorem cutShort_of_interrupted {call : DispatchCall}
    (h : (call.perform env store).Interrupted) :
    ∃ log inst replayed, CutShort env (call.perform env store) log inst replayed := by
  cases call.endsInPass with
  | idle hnone => exact absurd hnone h.accepted
  | saved store' inst hsaved hout =>
    have hraised := h.raised
    rw [hout] at hraised ⊢
    -- a saved instance is its own replay over an empty log
    have hreplay : replayEvents inst (EventStore.empty.streamFrom inst.startedAt) =
        .ok inst := by
      rw [streamFrom_empty]
      rfl
    exact ⟨_, _, _, cutShort_dispatch (checkpoint_holds hsaved) hreplay hraised⟩
  | replayed log inst replayed hholds hreplay hout =>
    have hraised := h.raised
    rw [hout] at hraised ⊢
    exact ⟨_, _, _, cutShort_dispatch hholds hreplay hraised⟩

end Cut

section Rows

variable {env : Env} {out : Outcome Unit} {log : EventStore} {inst replayed : WorkflowInstance}

theorem CutShort.instanceId (h : CutShort env out log inst replayed) :
    ∀ s ∈ out.submitted, s.instanceId = inst.instanceId := by
  intro s hs
  rw [h.submitted] at hs
  rw [(dispatch_frame env out.store replayed).2 s hs]
  exact (replayEvents_frame h.replay).1.instanceId

/-- The row keeps the accepted nodes PENDING: a replay opens no node. -/
theorem CutShort.pending (h : CutShort env out log inst replayed) :
    ∀ s ∈ out.submitted, inst.nodeStates.get? s.nodeId = some .pending := by
  intro s hs
  rw [h.submitted] at hs
  exact ((replayEvents_open_iff h.replay s.nodeId (Or.inl rfl)).mp (dispatch_pending s hs)).1

/-- Recovering from the same log hands the accepted tasks over again. -/
theorem CutShort.resubmitted (h : CutShort env out log inst replayed) : out.Resubmitted := by
  refine ⟨.accepting env.now, .recover log, ?_⟩
  intro s hs
  refine ⟨s, ?_, rfl, rfl⟩
  rw [h.instanceId s hs, Operation.perform, Operation.perform.forget,
    recoverWorkflow_replayed _ _ log h.saved h.replay]
  rw [h.submitted] at hs
  exact dispatch_subset (Env.accepting_accepting env.now) _ hs

end Rows

/-- Whenever a pass is interrupted after some tasks were accepted, the rows have
their nodes PENDING, and a later operation submits them a second time. -/
theorem interrupted_unrecorded (env : Env) (store : Store) (call : DispatchCall)
    (h : (call.perform env store).Interrupted) :
    ¬ (call.perform env store).Recorded ∧ (call.perform env store).Resubmitted ∧
      ∀ s ∈ (call.perform env store).submitted,
        ∃ inst, loadInstance (call.perform env store).store s.instanceId = .ok inst ∧
          inst.nodeStates.get? s.nodeId = some .pending := by
  obtain ⟨log, inst, replayed, hcut⟩ := cutShort_of_interrupted h
  have hpending : ∀ s ∈ (call.perform env store).submitted,
      ∃ inst, loadInstance (call.perform env store).store s.instanceId = .ok inst ∧
        inst.nodeStates.get? s.nodeId = some .pending := by
    intro s hs
    refine ⟨inst, ?_, hcut.pending s hs⟩
    rw [hcut.instanceId s hs]
    exact hcut.saved.load
  refine ⟨?_, hcut.resubmitted, hpending⟩
  intro hrecorded
  obtain ⟨s, hs⟩ := List.exists_mem_of_ne_nil _ h.accepted
  obtain ⟨inst₁, hload₁, hrunning⟩ := hrecorded s hs
  obtain ⟨inst₂, hload₂, hstate⟩ := hpending s hs
  rw [hload₁] at hload₂
  cases hload₂
  rw [hstate] at hrunning
  cases hrunning

/-- Two nodes that are eligible from the start. -/
def pairBuilder : WorkflowBuilder where
  name := "Pair"
  nodes := (Dict.empty.set "A" (sampleNode "A")).set "B" (sampleNode "B")

def pairDefinition : WorkflowDefinition where
  name := "Pair"
  graph := { nodes := pairBuilder.nodes }

/-- A queue with room for the task of A only. -/
def fullAfterA : Env where
  now := "2026-01-01T00:00:00"
  schedule task :=
    if task.id = "i1_A" then .ok ()
    else .error (.schedulingError "Queue has reached its maximum capacity of 1.")

def startPair : DispatchCall := .start sampleId pairDefinition .empty

theorem startPair_interrupted : (startPair.perform fullAfterA .empty).Interrupted where
  accepted := by
    have hlength : (startPair.perform fullAfterA .empty).submitted.length = 1 := by
      decide +kernel
    intro h
    rw [h] at hlength
    contradiction
  raised := by decide +kernel

theorem startPair_unrecorded : ¬ (startPair.perform fullAfterA .empty).Recorded ∧
    (startPair.perform fullAfterA .empty).Resubmitted :=
  have h := interrupted_unrecorded fullAfterA .empty startPair startPair_interrupted
  ⟨h.1, h.2.1⟩

/-- The queue is full after the task of A: the row still has A PENDING. -/
theorem not_interrupted_recorded : ¬ ∀ (env : Env) (store : Store) (call : DispatchCall),
    (call.perform env store).Interrupted → (call.perform env store).Recorded := by
  intro h
  obtain ⟨s, hs⟩ := List.exists_mem_of_ne_nil _ startPair_interrupted.accepted
  obtain ⟨inst, hload, hrunning⟩ := h fullAfterA .empty startPair startPair_interrupted s hs
  have hid : ∀ s ∈ (startPair.perform fullAfterA .empty).submitted,
      s.instanceId = "i1" ∧ s.nodeId = "A" := by decide +kernel
  rw [(hid s hs).1] at hload
  rw [(hid s hs).2] at hrunning
  obtain ⟨inst', hload', hpending⟩ := exists_loaded
    (startPair.perform fullAfterA .empty).store "i1" (fun inst => inst.nodeStates.get? "A")
    (some .pending) (by decide +kernel)
  rw [hload] at hload'
  cases hload'
  rw [hrunning] at hpending
  cases hpending

end MollisRuntime.Workflow
