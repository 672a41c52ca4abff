import MollisRuntime.Workflow.Dispatch

/-!
What one operation can do to the persisted instance and what it submits for it.
Each operation of the orchestrator is one of these steps, also where the
scheduler or a checkpoint raises, and an operation that addresses another
instance is none for this one. Invariants of runs follow from the steps.
-/
namespace MollisRuntime.Workflow

open Ordered Python Persistence

/-- Saving an instance and dispatching it: the instance that stays saved, and
the accepted tasks. -/
inductive Passed (env : Env) (inst : WorkflowInstance) :
    WorkflowInstance → List Submission → Prop
  | idle (hstatus : inst.status ≠ .running) : Passed env inst inst []
  | cut (submitted : List Submission) (hstatus : inst.status = .running)
      (hhanded : Handed inst inst.eligibleNodes submitted) (hraised : ¬ env.Accepting) :
      Passed env inst inst submitted
  | through (submitted : List Submission) (hstatus : inst.status = .running)
      (hhanded : Handed inst inst.eligibleNodes submitted)
      (hall : submitted.map Submission.nodeId = inst.eligibleNodes) :
      Passed env inst inst.advanced submitted

inductive Effect (env : Env) (inst : WorkflowInstance) :
    Operation → WorkflowInstance → List Submission → Prop
  | none (op : Operation) : Effect env inst op inst []
  | event (e : RuntimeEvent) (nid : String) (handled inst' : WorkflowInstance)
      (submitted : List Submission) (hstatus : inst.status = .running)
      (haddress : e.workflowInstanceId = some inst.instanceId) (hnode : e.nodeId = some nid)
      (hhandled : handleEvent env.now inst e nid = .ok handled)
      (hpassed : Passed env (completeIfDone env.now handled) inst' submitted) :
      Effect env inst (.event e) inst' submitted
  | pause (hstatus : inst.status = .running) :
      Effect env inst .pause { inst with status := .paused } []
  | resume (inst' : WorkflowInstance) (submitted : List Submission)
      (hstatus : inst.status = .paused)
      (hpassed : Passed env { inst with status := .running } inst' submitted) :
      Effect env inst .resume inst' submitted
  | cancel (hstatus : inst.status = .running ∨ inst.status = .paused) :
      Effect env inst .cancel (cancelNodes env.now inst) []
  | recoverCut (log : EventStore) (replayed : WorkflowInstance) (submitted : List Submission)
      (hreplayed : replayEvents inst (log.streamFrom inst.startedAt) = .ok replayed)
      (hstatus : replayed.status = .running)
      (hhanded : Handed replayed replayed.eligibleNodes submitted) :
      Effect env inst (.recover log) inst submitted
  | recover (log : EventStore) (replayed : WorkflowInstance) (submitted : List Submission)
      (hreplayed : replayEvents inst (log.streamFrom inst.startedAt) = .ok replayed)
      (hstatus : replayed.status = .running)
      (hhanded : Handed replayed replayed.eligibleNodes submitted)
      (hall : submitted.map Submission.nodeId = replayed.eligibleNodes) :
      Effect env inst (.recover log) replayed.advanced submitted

/-- The parts of an instance that no operation changes, and what is always true
of its node states. -/
structure Belongs (d : WorkflowDefinition) (id : String) (inst : WorkflowInstance) : Prop where
  definition : inst.definition = d
  instanceId : inst.instanceId = id
  tracked : Tracked d.graph inst.nodeStates

theorem Belongs.wellFormed {d : WorkflowDefinition} {id : String} {inst : WorkflowInstance}
    (h : Belongs d id inst) (hclosed : d.graph.Closed) : inst.WellFormed := by
  constructor
  · rw [h.definition]
    exact hclosed
  · rw [h.definition]
    exact h.tracked

section Handling

/-- Only the node states, the outputs, the status and the completion time change. -/
structure SameFrame (inst inst' : WorkflowInstance) : Prop where
  definition : inst'.definition = inst.definition
  instanceId : inst'.instanceId = inst.instanceId
  workflowName : inst'.workflowName = inst.workflowName
  startedAt : inst'.startedAt = inst.startedAt

theorem SameFrame.refl (inst : WorkflowInstance) : SameFrame inst inst := ⟨rfl, rfl, rfl, rfl⟩

/-- The three things handling an event can do. -/
theorem handleEvent_cases {now nid : String} {inst handled : WorkflowInstance}
    {e : RuntimeEvent} (h : handleEvent now inst e nid = .ok handled) :
    (e.isCompletion = true ∧ handled = { inst with
        nodeStates := inst.nodeStates.set nid .succeeded
        nodeOutputs := inst.nodeOutputs.set nid e.outputFrame }) ∨
      (e.isCompletion = false ∧ e.isFailure = true ∧
        failurePolicyAt inst.definition nid = .ok .ignore ∧
        handled = { inst with nodeStates := inst.nodeStates.set nid .skipped }) ∨
      (e.isCompletion = false ∧ e.isFailure = true ∧
        (∃ policy, failurePolicyAt inst.definition nid = .ok policy ∧ policy ≠ .ignore) ∧
        handled = { inst with
          nodeStates := inst.nodeStates.set nid .failed
          status := .failed
          completedAt := some now }) ∨
      (e.isTerminal = false ∧ handled = inst) := by
  unfold handleEvent at h
  split at h
  · rename_i hc
    cases h
    exact Or.inl ⟨hc, rfl⟩
  · rename_i hc
    simp only [Bool.not_eq_true] at hc
    split at h
    · rename_i hf
      cases hp : failurePolicyAt inst.definition nid with
      | error err => simp [hp] at h
      | ok policy =>
        simp only [hp, ok_bind] at h
        split at h
        · rename_i hignore
          cases h
          subst hignore
          exact Or.inr (Or.inl ⟨hc, hf, rfl, rfl⟩)
        · rename_i hignore
          cases h
          exact Or.inr (Or.inr (Or.inl ⟨hc, hf, ⟨policy, rfl, hignore⟩, rfl⟩))
    · rename_i hf
      cases h
      simp only [Bool.not_eq_true] at hf
      exact Or.inr (Or.inr (Or.inr ⟨by simp [RuntimeEvent.isTerminal, hc, hf], rfl⟩))

theorem sameFrame_handleEvent {now nid : String} {inst handled : WorkflowInstance}
    {e : RuntimeEvent} (h : handleEvent now inst e nid = .ok handled) :
    SameFrame inst handled := by
  rcases handleEvent_cases h with ⟨_, rfl⟩ | ⟨_, _, _, rfl⟩ | ⟨_, _, _, rfl⟩ | ⟨_, rfl⟩
  all_goals exact ⟨rfl, rfl, rfl, rfl⟩

/-- Handling never opens a node. -/
theorem tracked_handleEvent {now nid : String} {inst handled : WorkflowInstance}
    {e : RuntimeEvent} {graph : ExecutionGraph} (htr : Tracked graph inst.nodeStates)
    (h : handleEvent now inst e nid = .ok handled) : Tracked graph handled.nodeStates := by
  rcases handleEvent_cases h with ⟨_, rfl⟩ | ⟨_, _, _, rfl⟩ | ⟨_, _, _, rfl⟩ | ⟨_, rfl⟩
  · exact htr.set nid .succeeded (by simp [NodeState.isOpen])
  · exact htr.set nid .skipped (by simp [NodeState.isOpen])
  · exact htr.set nid .failed (by simp [NodeState.isOpen])
  · exact htr

theorem completeIfDone_cases (now : String) (inst : WorkflowInstance) :
    ((∀ e ∈ inst.nodeStates.entries, e.2.isOpen = false) ∧ inst.status = .running ∧
        completeIfDone now inst = { inst with status := .succeeded, completedAt := some now }) ∨
      (((∃ e ∈ inst.nodeStates.entries, e.2.isOpen = true) ∨ inst.status ≠ .running) ∧
        completeIfDone now inst = inst) := by
  unfold completeIfDone
  split
  · rename_i h
    exact Or.inl ⟨by simpa using h.1, h.2, rfl⟩
  · rename_i h
    refine Or.inr ⟨?_, rfl⟩
    by_cases hs : inst.status = .running
    · refine Or.inl ?_
      simpa [hs] using h
    · exact Or.inr hs

theorem nodeStates_completeIfDone (now : String) (inst : WorkflowInstance) :
    (completeIfDone now inst).nodeStates = inst.nodeStates := by
  rcases completeIfDone_cases now inst with ⟨_, _, h⟩ | ⟨_, h⟩ <;> rw [h]

theorem nodeOutputs_completeIfDone (now : String) (inst : WorkflowInstance) :
    (completeIfDone now inst).nodeOutputs = inst.nodeOutputs := by
  rcases completeIfDone_cases now inst with ⟨_, _, h⟩ | ⟨_, h⟩ <;> rw [h]

theorem sameFrame_completeIfDone (now : String) (inst : WorkflowInstance) :
    SameFrame inst (completeIfDone now inst) := by
  rcases completeIfDone_cases now inst with ⟨_, _, h⟩ | ⟨_, h⟩ <;> rw [h]
  all_goals exact ⟨rfl, rfl, rfl, rfl⟩

theorem wellFormed_handled {now nid : String} {inst handled : WorkflowInstance}
    {e : RuntimeEvent} (h : handleEvent now inst e nid = .ok handled) (hwf : inst.WellFormed) :
    (completeIfDone now handled).WellFormed := by
  have hdef : (completeIfDone now handled).definition = inst.definition :=
    (sameFrame_completeIfDone now handled).definition.trans (sameFrame_handleEvent h).definition
  constructor
  · rw [hdef]
    exact hwf.closed
  · rw [hdef, nodeStates_completeIfDone]
    exact tracked_handleEvent hwf.tracked h

/-- Replaying one event: nothing, or one existing node gets a final state. -/
theorem applyEvent_cases {inst inst' : WorkflowInstance} {e : RuntimeEvent}
    (h : applyEventToInstance inst e = .ok inst') :
    (∃ nid, e.nodeId = some nid ∧ nid ∈ inst.nodeStates.keys ∧ e.isCompletion = true ∧
        inst' = { inst with
          nodeStates := inst.nodeStates.set nid .succeeded
          nodeOutputs := inst.nodeOutputs.set nid e.outputFrame }) ∨
      (∃ nid policy, e.nodeId = some nid ∧ nid ∈ inst.nodeStates.keys ∧
        e.isCompletion = false ∧ e.isFailure = true ∧
        failurePolicyAt inst.definition nid = .ok policy ∧
        inst' = { inst with
          nodeStates := inst.nodeStates.set nid
            (if policy = .ignore then .skipped else .failed) }) ∨
      ((∀ nid, e.nodeId = some nid → nid ∉ inst.nodeStates.keys ∨ e.isTerminal = false) ∧
        inst' = inst) := by
  unfold applyEventToInstance at h
  split at h
  · rename_i hnone
    cases h
    exact Or.inr (Or.inr ⟨by simp [hnone], rfl⟩)
  · rename_i nid hnid
    split at h
    · rename_i hkey
      cases h
      refine Or.inr (Or.inr ⟨?_, rfl⟩)
      intro n hn
      rw [hnid] at hn
      cases hn
      left
      intro hmem
      rw [(Dict.contains_iff _ _).mpr hmem] at hkey
      contradiction
    · rename_i hkey
      have hmem : nid ∈ inst.nodeStates.keys := by simpa using hkey
      split at h
      · rename_i hc
        cases h
        exact Or.inl ⟨nid, hnid, hmem, hc, rfl⟩
      · rename_i hc
        simp only [Bool.not_eq_true] at hc
        split at h
        · rename_i hf
          cases hp : failurePolicyAt inst.definition nid with
          | error err => simp [hp] at h
          | ok policy =>
            simp only [hp, ok_bind] at h
            refine Or.inr (Or.inl ⟨nid, policy, hnid, hmem, hc, hf, hp, ?_⟩)
            split at h
            · rename_i hignore
              cases h
              simp [hignore]
            · rename_i hignore
              cases h
              simp [hignore]
        · rename_i hf
          cases h
          simp only [Bool.not_eq_true] at hf
          refine Or.inr (Or.inr ⟨?_, rfl⟩)
          intro _ _
          exact Or.inr (by simp [RuntimeEvent.isTerminal, hc, hf])

/-- The parts replay leaves alone; the status is one of them. -/
theorem applyEvent_frame {inst inst' : WorkflowInstance} {e : RuntimeEvent}
    (h : applyEventToInstance inst e = .ok inst') :
    SameFrame inst inst' ∧ inst'.status = inst.status ∧
      inst'.nodeStates.keys = inst.nodeStates.keys := by
  rcases applyEvent_cases h with ⟨nid, _, hkey, _, rfl⟩ | ⟨nid, policy, _, hkey, _, _, _, rfl⟩ |
    ⟨_, rfl⟩
  · exact ⟨⟨rfl, rfl, rfl, rfl⟩, rfl, Dict.keys_set_of_mem _ _ _ hkey⟩
  · exact ⟨⟨rfl, rfl, rfl, rfl⟩, rfl, Dict.keys_set_of_mem _ _ _ hkey⟩
  · exact ⟨SameFrame.refl _, rfl, rfl⟩

theorem tracked_applyEvent {inst inst' : WorkflowInstance} {e : RuntimeEvent}
    {graph : ExecutionGraph} (htr : Tracked graph inst.nodeStates)
    (h : applyEventToInstance inst e = .ok inst') : Tracked graph inst'.nodeStates := by
  rcases applyEvent_cases h with ⟨nid, _, hkey, _, rfl⟩ | ⟨nid, policy, _, hkey, _, _, _, rfl⟩ |
    ⟨_, rfl⟩
  · exact htr.set nid .succeeded (by simp [NodeState.isOpen])
  · exact htr.set nid _ (by split <;> simp [NodeState.isOpen])
  · exact htr

theorem replayEvents_frame {inst inst' : WorkflowInstance} {events : List RuntimeEvent}
    (h : replayEvents inst events = .ok inst') :
    SameFrame inst inst' ∧ inst'.status = inst.status ∧
      inst'.nodeStates.keys = inst.nodeStates.keys ∧
      ∀ graph, Tracked graph inst.nodeStates → Tracked graph inst'.nodeStates := by
  induction events generalizing inst with
  | nil =>
    cases h
    exact ⟨SameFrame.refl _, rfl, rfl, fun _ h => h⟩
  | cons e rest ih =>
    unfold replayEvents at h
    cases hstep : applyEventToInstance inst e with
    | error err => simp [hstep] at h
    | ok mid =>
      simp only [hstep, ok_bind] at h
      obtain ⟨hframe, hstatus, hkeys⟩ := applyEvent_frame hstep
      obtain ⟨hframe', hstatus', hkeys', htr'⟩ := ih h
      refine ⟨⟨?_, ?_, ?_, ?_⟩, hstatus'.trans hstatus, hkeys'.trans hkeys,
        fun graph htr => htr' graph (tracked_applyEvent htr hstep)⟩
      · exact hframe'.definition.trans hframe.definition
      · exact hframe'.instanceId.trans hframe.instanceId
      · exact hframe'.workflowName.trans hframe.workflowName
      · exact hframe'.startedAt.trans hframe.startedAt

theorem wellFormed_replayEvents {inst inst' : WorkflowInstance} {events : List RuntimeEvent}
    (h : replayEvents inst events = .ok inst') (hwf : inst.WellFormed) : inst'.WellFormed := by
  obtain ⟨hframe, _, _, htracked⟩ := replayEvents_frame h
  constructor
  · rw [hframe.definition]
    exact hwf.closed
  · rw [hframe.definition]
    exact htracked _ hwf.tracked

end Handling

section Frame

theorem checkpoint_frame {store store' : Store} {inst : WorkflowInstance}
    (h : checkpointWorkflow store inst = .ok store') :
    store.SameExcept inst.instanceId store' := by
  cases hjson : inst.toDict.isJson with
  | false =>
    obtain ⟨e, he⟩ := checkpoint_error store hjson
    rw [he] at h
    contradiction
  | true =>
    obtain ⟨saved, hsaved, _, hsame⟩ := checkpoint_ok store hjson
    rw [hsaved] at h
    cases h
    exact hsame

/-- The rule of the dispatch loop: it may raise before it hands a node over, pass
a node by, or hand over a PENDING node of the graph and go on with it RUNNING. -/
theorem dispatchLoop_rule {env : Env} {deps : Dict String (List String)}
    {P : List String → WorkflowInstance → List Submission × Except PyError WorkflowInstance → Prop}
    (hnil : ∀ inst, P [] inst ([], .ok inst))
    (hraised : ∀ n rest inst e, P (n :: rest) inst ([], .error e))
    (hpassed : ∀ n rest inst out, P rest inst out → P (n :: rest) inst out)
    (hhanded : ∀ n rest inst node submitted result,
      inst.nodeStates.get? n = some .pending → inst.definition.graph.nodes.get? n = some node →
      P rest (inst.markRunning n) (submitted, result) →
      P (n :: rest) inst (⟨inst.instanceId, n, taskFor (inst.markRunning n) n node,
        (inst.markRunning n).nodeStates⟩ :: submitted, result))
    (ns : List String) (inst : WorkflowInstance) : P ns inst (dispatchLoop env deps ns inst) := by
  induction ns generalizing inst with
  | nil => exact hnil inst
  | cons n rest ih =>
    unfold dispatchLoop
    split
    · rename_i hpending
      split
      · exact hraised n rest inst _
      · split
        · exact hraised n rest inst _
        · exact hpassed n rest inst _ (ih inst)
        · split
          · exact hraised n rest inst _
          · rename_i node hnode
            dsimp only
            split
            · exact hraised n rest inst _
            · exact hhanded n rest inst node _ _ hpending hnode (ih (inst.markRunning n))
    · exact hpassed n rest inst _ (ih inst)

theorem dispatchLoop_frame (env : Env) (deps : Dict String (List String)) (ns : List String)
    (inst : WorkflowInstance) :
    (∀ s ∈ (dispatchLoop env deps ns inst).1, s.instanceId = inst.instanceId) ∧
      ∀ inst', (dispatchLoop env deps ns inst).2 = .ok inst' →
        inst'.instanceId = inst.instanceId := by
  refine dispatchLoop_rule (P := fun _ inst out =>
    (∀ s ∈ out.1, s.instanceId = inst.instanceId) ∧
      ∀ inst', out.2 = .ok inst' → inst'.instanceId = inst.instanceId) ?_ ?_ ?_ ?_ ns inst
  · intro inst
    refine ⟨by simp, ?_⟩
    intro inst' h
    cases h
    rfl
  · simp
  · intro n rest inst out h
    exact h
  · rintro n rest inst node submitted result _ _ ⟨hsubmitted, hresult⟩
    refine ⟨?_, hresult⟩
    intro s hs
    rcases List.mem_cons.mp hs with rfl | hs
    · rfl
    · exact hsubmitted s hs

/-- A pass writes the row of its instance and submits tasks of its instance,
whatever the graph and the node states. -/
theorem dispatch_frame (env : Env) (store : Store) (inst : WorkflowInstance) :
    store.SameExcept inst.instanceId (dispatchEligibleNodes env store inst).store ∧
      ∀ s ∈ (dispatchEligibleNodes env store inst).submitted,
        s.instanceId = inst.instanceId := by
  unfold dispatchEligibleNodes
  split
  · exact ⟨Store.SameExcept.refl _ _, by simp⟩
  · dsimp only
    split
    · exact ⟨Store.SameExcept.refl _ _, by simp⟩
    · rename_i deps _
      have hloop := dispatchLoop_frame env deps inst.nodeStates.keys inst
      split
      · rename_i submitted e heq
        rw [heq] at hloop
        exact ⟨Store.SameExcept.refl _ _, hloop.1⟩
      · rename_i submitted inst' heq
        rw [heq] at hloop
        split
        · exact ⟨Store.SameExcept.refl _ _, hloop.1⟩
        · rename_i store' hstore
          have hsame := checkpoint_frame hstore
          rw [hloop.2 inst' rfl] at hsame
          exact ⟨hsame, hloop.1⟩

/-- An event touches the instance it names and no other. -/
theorem onRuntimeEvent_frame (env : Env) (store : Store) (e : RuntimeEvent) (id : String)
    (h : e.workflowInstanceId ≠ some id) :
    (onRuntimeEvent env store e).store.rows.get? id = store.rows.get? id ∧
      ∀ s ∈ (onRuntimeEvent env store e).submitted, s.instanceId ≠ id := by
  unfold onRuntimeEvent
  split
  · rename_i j nid hj _
    have hne : id ≠ j := by
      rintro rfl
      exact h hj
    split
    · exact ⟨rfl, by simp⟩
    · rename_i inst hload
      obtain ⟨_, hid⟩ := (loadInstance_eq_ok_iff _ _ _).mp hload
      split
      · exact ⟨rfl, by simp⟩
      · split
        · exact ⟨rfl, by simp⟩
        · rename_i handled hhandled
          have hframe : (completeIfDone env.now handled).instanceId = j := by
            rw [(sameFrame_completeIfDone env.now handled).instanceId,
              (sameFrame_handleEvent hhandled).instanceId, hid]
          dsimp only
          split
          · exact ⟨rfl, by simp⟩
          · rename_i store' hstore
            have hsaved := checkpoint_frame hstore
            rw [hframe] at hsaved
            split
            · obtain ⟨hsame, hsub⟩ :=
                dispatch_frame env store' (completeIfDone env.now handled)
              rw [hframe] at hsame hsub
              refine ⟨((hsaved.trans hsame) id hne), ?_⟩
              intro s hs
              rw [hsub s hs]
              exact Ne.symm hne
            · exact ⟨hsaved id hne, by simp⟩
  · exact ⟨rfl, by simp⟩

end Frame

section Operations

variable (env : Env) (store : Store)

/-- The common second half: a saved instance, dispatched if it is running. -/
theorem dispatch_passed {inst : WorkflowInstance} (hholds : store.Holds inst)
    (hwf : inst.WellFormed) :
    ∃ inst', (dispatchEligibleNodes env store inst).store.Holds inst' ∧
      inst'.instanceId = inst.instanceId ∧
      Passed env inst inst' (dispatchEligibleNodes env store inst).submitted := by
  by_cases hrun : inst.status = .running
  · obtain ⟨hhanded, ⟨e, _, hstore, hraised⟩ | ⟨_, hsaved, _, _, hall⟩⟩ :=
      dispatch_spec env store hrun hwf
    · refine ⟨inst, by rw [hstore]; exact hholds, rfl, Passed.cut _ hrun hhanded ?_⟩
      intro hacc
      have hjson := hraised hacc
      rw [hholds.json] at hjson
      contradiction
    · exact ⟨inst.advanced, hsaved, rfl, Passed.through _ hrun hhanded hall⟩
  · rw [dispatch_idle env store hrun]
    exact ⟨inst, hholds, rfl, Passed.idle hrun⟩

/-- An event that cannot be handled, or that leaves an instance that cannot be
saved, changes nothing. -/
theorem onRuntimeEvent_ignored {inst : WorkflowInstance} {e : RuntimeEvent}
    (hholds : store.Holds inst) (haddress : e.workflowInstanceId = some inst.instanceId)
    (h : ∀ nid handled, e.nodeId = some nid → inst.status = .running →
      handleEvent env.now inst e nid = .ok handled → handled.toDict.isJson = false) :
    (onRuntimeEvent env store e).store = store ∧
      (onRuntimeEvent env store e).submitted = [] := by
  unfold onRuntimeEvent
  rw [haddress]
  cases hnid : e.nodeId with
  | none => exact ⟨rfl, rfl⟩
  | some nid =>
    simp only [hholds.load]
    by_cases hrun : inst.status = .running
    · simp only [hrun, ne_eq, not_true_eq_false, if_false]
      cases hhandled : handleEvent env.now inst e nid with
      | error err => exact ⟨rfl, rfl⟩
      | ok handled =>
        have hjson : (completeIfDone env.now handled).toDict.isJson = false := by
          rw [isJson_toDict_congr (sameFrame_completeIfDone env.now handled).definition
            (nodeOutputs_completeIfDone env.now handled)]
          exact h nid handled hnid hrun hhandled
        obtain ⟨err, herr⟩ := checkpoint_error store hjson
        simp [herr]
    · simp [hrun]

/-- An event that is handled and can be saved. -/
theorem onRuntimeEvent_handled {inst handled : WorkflowInstance} {e : RuntimeEvent}
    {nid : String} (hholds : store.Holds inst) (hwf : inst.WellFormed)
    (haddress : e.workflowInstanceId = some inst.instanceId) (hnode : e.nodeId = some nid)
    (hstatus : inst.status = .running)
    (hhandled : handleEvent env.now inst e nid = .ok handled)
    (hjson : handled.toDict.isJson = true) :
    ∃ inst', (onRuntimeEvent env store e).store.Holds inst' ∧
      inst'.instanceId = inst.instanceId ∧
      Passed env (completeIfDone env.now handled) inst'
        (onRuntimeEvent env store e).submitted := by
  have hframe := sameFrame_handleEvent hhandled
  have hframe' := sameFrame_completeIfDone env.now handled
  have hjson' : (completeIfDone env.now handled).toDict.isJson = true := by
    rw [isJson_toDict_congr hframe'.definition (nodeOutputs_completeIfDone env.now handled)]
    exact hjson
  obtain ⟨store', hstore, hsaved, _⟩ := checkpoint_ok store hjson'
  unfold onRuntimeEvent
  simp only [haddress, hnode, hholds.load, hstatus, ne_eq, not_true_eq_false, if_false,
    hhandled, hstore]
  by_cases hrun : (completeIfDone env.now handled).status = .running
  · simp only [hrun, if_true]
    obtain ⟨inst', hinst', hid, hpassed⟩ := dispatch_passed env store' hsaved
      (wellFormed_handled hhandled hwf)
    exact ⟨inst', hinst', hid.trans (hframe'.instanceId.trans hframe.instanceId), hpassed⟩
  · simp only [hrun, if_false]
    exact ⟨_, hsaved, hframe'.instanceId.trans hframe.instanceId, Passed.idle hrun⟩

theorem pauseWorkflow_running {inst : WorkflowInstance} (hholds : store.Holds inst)
    (hstatus : inst.status = .running) :
    (pauseWorkflow store inst.instanceId).store.Holds { inst with status := .paused } ∧
      (pauseWorkflow store inst.instanceId).submitted = [] := by
  have hjson : ({ inst with status := .paused } : WorkflowInstance).toDict.isJson = true :=
    (isJson_toDict_congr rfl rfl).trans hholds.json
  obtain ⟨store', hstore, hsaved, _⟩ := checkpoint_ok store hjson
  unfold pauseWorkflow
  simp only [hholds.load, hstatus, if_true, hstore]
  exact ⟨hsaved, trivial⟩

theorem pauseWorkflow_other {inst : WorkflowInstance} (hholds : store.Holds inst)
    (hstatus : inst.status ≠ .running) :
    (pauseWorkflow store inst.instanceId).store = store ∧
      (pauseWorkflow store inst.instanceId).submitted = [] := by
  unfold pauseWorkflow
  simp [hholds.load, hstatus]

theorem resumeWorkflow_paused {inst : WorkflowInstance} (hholds : store.Holds inst)
    (hwf : inst.WellFormed) (hstatus : inst.status = .paused) :
    ∃ inst', (resumeWorkflow env store inst.instanceId).store.Holds inst' ∧
      inst'.instanceId = inst.instanceId ∧
      Passed env { inst with status := .running } inst'
        (resumeWorkflow env store inst.instanceId).submitted := by
  have hjson : ({ inst with status := .running } : WorkflowInstance).toDict.isJson = true :=
    (isJson_toDict_congr rfl rfl).trans hholds.json
  obtain ⟨store', hstore, hsaved, _⟩ := checkpoint_ok store hjson
  unfold resumeWorkflow
  simp only [hholds.load, hstatus, if_true, hstore]
  exact dispatch_passed env store' hsaved ⟨hwf.closed, hwf.tracked⟩

theorem resumeWorkflow_other {inst : WorkflowInstance} (hholds : store.Holds inst)
    (hstatus : inst.status ≠ .paused) :
    (resumeWorkflow env store inst.instanceId).store = store ∧
      (resumeWorkflow env store inst.instanceId).submitted = [] := by
  unfold resumeWorkflow
  simp [hholds.load, hstatus]

theorem cancelWorkflow_open {inst : WorkflowInstance} (hholds : store.Holds inst)
    (hstatus : inst.status = .running ∨ inst.status = .paused) :
    (cancelWorkflow env store inst.instanceId).store.Holds (cancelNodes env.now inst) ∧
      (cancelWorkflow env store inst.instanceId).submitted = [] := by
  have hsame : (cancelNodes env.now inst).toDict.isJson = inst.toDict.isJson :=
    isJson_toDict_congr rfl rfl
  have hjson := hsame.trans hholds.json
  obtain ⟨store', hstore, hsaved, _⟩ := checkpoint_ok store hjson
  unfold cancelWorkflow
  simp only [hholds.load, hstatus, if_true, hstore]
  exact ⟨hsaved, trivial⟩

theorem cancelWorkflow_closed {inst : WorkflowInstance} (hholds : store.Holds inst)
    (hstatus : ¬ (inst.status = .running ∨ inst.status = .paused)) :
    (cancelWorkflow env store inst.instanceId).store = store ∧
      (cancelWorkflow env store inst.instanceId).submitted = [] := by
  unfold cancelWorkflow
  simp [hholds.load, hstatus]

/-- Recovery is the pass of the replayed instance, if the replay ends. -/
theorem recoverWorkflow_replayed (log : EventStore) {inst replayed : WorkflowInstance}
    (hholds : store.Holds inst)
    (h : replayEvents inst (log.streamFrom inst.startedAt) = .ok replayed) :
    recoverWorkflow env log store inst.instanceId =
      dispatchEligibleNodes env store replayed := by
  unfold recoverWorkflow
  simp only [hholds.load, h]

theorem recoverWorkflow_raised (log : EventStore) {inst : WorkflowInstance} {err : PyError}
    (hholds : store.Holds inst)
    (h : replayEvents inst (log.streamFrom inst.startedAt) = .error err) :
    recoverWorkflow env log store inst.instanceId = { store, result := .error err } := by
  unfold recoverWorkflow
  simp only [hholds.load, h]

/-- Nothing is loaded, so nothing happens to this instance. -/
theorem perform_absent (op : Operation) (id : String) (h : store.rows.get? id = none) :
    (op.perform id env store).store.rows.get? id = none ∧
      ∀ s ∈ (op.perform id env store).submitted, s.instanceId ≠ id := by
  obtain ⟨err, herr⟩ := loadInstance_of_none h
  cases op with
  | event e =>
    by_cases haddress : e.workflowInstanceId = some id
    · simp only [Operation.perform]
      unfold onRuntimeEvent
      rw [haddress]
      cases e.nodeId with
      | none => simp [h]
      | some nid => simp [herr, h]
    · obtain ⟨hrow, hsub⟩ := onRuntimeEvent_frame env store e id haddress
      exact ⟨hrow.trans h, hsub⟩
  | pause => simp [Operation.perform, Operation.perform.forget, pauseWorkflow, herr, h]
  | resume => simp [Operation.perform, Operation.perform.forget, resumeWorkflow, herr, h]
  | cancel => simp [Operation.perform, Operation.perform.forget, cancelWorkflow, herr, h]
  | recover log => simp [Operation.perform, Operation.perform.forget, recoverWorkflow, herr, h]

end Operations

section Performing

/-- The accepted tasks of one instance. -/
def own (id : String) (submitted : List Submission) : List Submission :=
  submitted.filter fun s => s.instanceId = id

theorem own_eq_self {id : String} {submitted : List Submission}
    (h : ∀ s ∈ submitted, s.instanceId = id) : own id submitted = submitted := by
  apply List.filter_eq_self.mpr
  intro s hs
  simp [h s hs]

theorem own_eq_nil {id : String} {submitted : List Submission}
    (h : ∀ s ∈ submitted, s.instanceId ≠ id) : own id submitted = [] := by
  apply List.filter_eq_nil_iff.mpr
  intro s hs
  simp [h s hs]

theorem own_append (id : String) (xs ys : List Submission) :
    own id (xs ++ ys) = own id xs ++ own id ys :=
  List.filter_append ..

theorem Passed.instanceId {env : Env} {inst inst' : WorkflowInstance}
    {submitted : List Submission} (h : Passed env inst inst' submitted) :
    ∀ s ∈ submitted, s.instanceId = inst.instanceId := by
  cases h with
  | idle _ => simp
  | cut _ _ hhanded _ => exact hhanded.instanceId
  | through _ _ hhanded _ => exact hhanded.instanceId

theorem Passed.status {env : Env} {inst inst' : WorkflowInstance}
    {submitted : List Submission} (h : Passed env inst inst' submitted) :
    inst'.status = inst.status := by
  cases h <;> rfl

/-- An operation that leaves the row alone and submits nothing. -/
theorem effect_of_nothing (env : Env) (store : Store) (op : Operation) {inst : WorkflowInstance}
    (hholds : store.Holds inst) {out : Outcome Unit} (hstore : out.store = store)
    (hsub : out.submitted = []) :
    ∃ inst', out.store.Holds inst' ∧ inst'.instanceId = inst.instanceId ∧
      Effect env inst op inst' (own inst.instanceId out.submitted) := by
  rw [hstore, hsub]
  exact ⟨inst, hholds, rfl, Effect.none op⟩

theorem event_effect (env : Env) (store : Store) (e : RuntimeEvent) {inst : WorkflowInstance}
    (hholds : store.Holds inst) (hwf : inst.WellFormed) :
    ∃ inst', (onRuntimeEvent env store e).store.Holds inst' ∧
      inst'.instanceId = inst.instanceId ∧
      Effect env inst (.event e) inst'
        (own inst.instanceId (onRuntimeEvent env store e).submitted) := by
  by_cases haddress : e.workflowInstanceId = some inst.instanceId
  · by_cases hexists : ∃ nid handled, e.nodeId = some nid ∧ inst.status = .running ∧
        handleEvent env.now inst e nid = .ok handled ∧ handled.toDict.isJson = true
    · obtain ⟨nid, handled, hnode, hstatus, hhandled, hjson⟩ := hexists
      obtain ⟨inst', hsaved, hid, hpassed⟩ := onRuntimeEvent_handled env store hholds
        hwf haddress hnode hstatus hhandled hjson
      have hown : ∀ s ∈ (onRuntimeEvent env store e).submitted,
          s.instanceId = inst.instanceId := by
        intro s hs
        rw [hpassed.instanceId s hs, (sameFrame_completeIfDone env.now handled).instanceId,
          (sameFrame_handleEvent hhandled).instanceId]
      refine ⟨inst', hsaved, hid, ?_⟩
      rw [own_eq_self hown]
      exact Effect.event e nid handled inst' _ hstatus haddress hnode hhandled hpassed
    · obtain ⟨hstore, hsub⟩ := onRuntimeEvent_ignored env store hholds haddress (by
        intro nid handled hnode hstatus hhandled
        by_contra hjson
        exact hexists ⟨nid, handled, hnode, hstatus, hhandled, by simpa using hjson⟩)
      exact effect_of_nothing env store _ hholds hstore hsub
  · obtain ⟨hrow, hsub⟩ := onRuntimeEvent_frame env store e inst.instanceId haddress
    refine ⟨inst, hrow.trans hholds, rfl, ?_⟩
    rw [own_eq_nil hsub]
    exact Effect.none _

theorem recover_effect (env : Env) (store : Store) (log : EventStore) {inst : WorkflowInstance}
    (hholds : store.Holds inst) (hwf : inst.WellFormed) :
    ∃ inst', ((Operation.recover log).perform inst.instanceId env store).store.Holds inst' ∧
      inst'.instanceId = inst.instanceId ∧
      Effect env inst (.recover log) inst'
        (own inst.instanceId
          ((Operation.recover log).perform inst.instanceId env store).submitted) := by
  rw [Operation.perform, Operation.perform.forget]
  cases hreplay : replayEvents inst (log.streamFrom inst.startedAt) with
  | error err =>
    rw [recoverWorkflow_raised env store log hholds hreplay]
    exact effect_of_nothing env store _ hholds rfl rfl
  | ok replayed =>
    obtain ⟨hframe, -, -, -⟩ := replayEvents_frame hreplay
    rw [recoverWorkflow_replayed env store log hholds hreplay]
    by_cases hstatus : replayed.status = .running
    · obtain ⟨hhanded, ⟨e, _, hstore, _⟩ | ⟨_, hsaved, _, _, hall⟩⟩ :=
        dispatch_spec env store hstatus (wellFormed_replayEvents hreplay hwf)
      all_goals
        have hown := own_eq_self hhanded.instanceId
        rw [hframe.instanceId] at hown
      · refine ⟨inst, by rw [hstore]; exact hholds, rfl, ?_⟩
        rw [hown]
        exact Effect.recoverCut log replayed _ hreplay hstatus hhanded
      · refine ⟨replayed.advanced, hsaved, hframe.instanceId, ?_⟩
        rw [hown]
        exact Effect.recover log replayed _ hreplay hstatus hhanded hall
    · rw [dispatch_idle env store hstatus]
      exact ⟨inst, hholds, rfl, Effect.none _⟩

/-- Every operation is a step of the saved instance. -/
theorem perform_effect (env : Env) (store : Store) (op : Operation) {inst : WorkflowInstance}
    (hholds : store.Holds inst) (hwf : inst.WellFormed) :
    ∃ inst', (op.perform inst.instanceId env store).store.Holds inst' ∧
      inst'.instanceId = inst.instanceId ∧
      Effect env inst op inst'
        (own inst.instanceId (op.perform inst.instanceId env store).submitted) := by
  cases op with
  | event e => exact event_effect env store e hholds hwf
  | pause =>
    by_cases hstatus : inst.status = .running
    · obtain ⟨hsaved, hsub⟩ := pauseWorkflow_running store hholds hstatus
      refine ⟨_, hsaved, rfl, ?_⟩
      rw [Operation.perform, Operation.perform.forget, hsub]
      exact Effect.pause hstatus
    · obtain ⟨hstore, hsub⟩ := pauseWorkflow_other store hholds hstatus
      exact effect_of_nothing env store _ hholds hstore hsub
  | resume =>
    by_cases hstatus : inst.status = .paused
    · obtain ⟨inst', hsaved, hid, hpassed⟩ :=
        resumeWorkflow_paused env store hholds hwf hstatus
      refine ⟨inst', hsaved, hid, ?_⟩
      rw [Operation.perform, Operation.perform.forget, own_eq_self hpassed.instanceId]
      exact Effect.resume inst' _ hstatus hpassed
    · obtain ⟨hstore, hsub⟩ := resumeWorkflow_other env store hholds hstatus
      exact effect_of_nothing env store _ hholds hstore hsub
  | cancel =>
    by_cases hstatus : inst.status = .running ∨ inst.status = .paused
    · obtain ⟨hsaved, hsub⟩ := cancelWorkflow_open env store hholds hstatus
      refine ⟨_, hsaved, rfl, ?_⟩
      rw [Operation.perform, Operation.perform.forget, hsub]
      exact Effect.cancel hstatus
    · obtain ⟨hstore, hsub⟩ := cancelWorkflow_closed env store hholds hstatus
      exact effect_of_nothing env store _ hholds hstore hsub
  | recover log => exact recover_effect env store log hholds hwf

end Performing

end MollisRuntime.Workflow
