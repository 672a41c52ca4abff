import MollisRuntime.Workflow.Recovery

/-!
Live handling against recovery. Both give the node of a terminal event the same
state and the same output. They part in the status: live handling fails or
completes the workflow, and recovery leaves the checkpoint's RUNNING. So they
agree exactly on sequences that leave the workflow on its way.
-/
namespace MollisRuntime.Workflow

open Ordered Python Persistence

/-- The call is a terminal event of the instance, for a node whose task has been
handed to the scheduler. -/
def Dispatched (id : String) (c : Store × List Submission) (call : Env × Operation) : Prop :=
  ∃ e, call.2 = .event e ∧ e.isTerminal = true ∧ e.workflowInstanceId = some id ∧
    ∃ s ∈ own id c.2, e.metadata.get? "node_id" = some (.str s.nodeId)

/-- The events among the calls. -/
def eventsOf (calls : List (Env × Operation)) : List RuntimeEvent :=
  calls.filterMap fun call => match call.2 with
    | .event e => some e
    | _ => none

/-- No event fails the workflow, and together they do not settle its graph. -/
structure Unfinished (d : WorkflowDefinition) (events : List RuntimeEvent) : Prop where
  soft : ∀ e ∈ events, ∀ n, settles n e = true → failsHard d n e = false
  unsettled : d.graph.nodeIds = [] ∨
    ∃ n ∈ d.graph.nodeIds, ∀ e ∈ events, settles n e = false

/-- The same status, the same states of the nodes that have an event, and the
same outputs. -/
structure Agrees (events : List RuntimeEvent) (live recovered : WorkflowInstance) : Prop where
  status : live.status = recovered.status
  states : ∀ n, (∃ e ∈ events, e.nodeId = some n) →
    live.nodeStates.get? n = recovered.nodeStates.get? n
  outputs : live.nodeOutputs.SameItems recovered.nodeOutputs

theorem Unfinished.before {d : WorkflowDefinition} {seen : List RuntimeEvent}
    {e : RuntimeEvent} (h : Unfinished d (seen ++ [e])) : Unfinished d seen where
  soft e' he' := h.soft e' (List.mem_append_left _ he')
  unsettled := by
    rcases h.unsettled with hempty | ⟨n, hn, hall⟩
    · exact Or.inl hempty
    · exact Or.inr ⟨n, hn, fun e' he' => hall e' (List.mem_append_left _ he')⟩

section Following

/-- The running instance is where the replay of the events seen so far leads,
up to which of the unsettled nodes have been dispatched. -/
structure Follows (start : WorkflowInstance) (seen : List RuntimeEvent)
    (inst : WorkflowInstance) : Prop where
  settled : ∀ n e, lastWhere (settles n) seen = some e →
    inst.nodeStates.get? n = some (terminalState start.definition n e)
  opened : ∀ n ∈ start.definition.graph.nodeIds, (∀ e ∈ seen, settles n e = false) →
    ∃ s, inst.nodeStates.get? n = some s ∧ s.isOpen = true
  outputs : ∀ n, inst.nodeOutputs.get? n = replayedOutput start seen n

variable {start inst inst' : WorkflowInstance} {seen : List RuntimeEvent}
  {e : RuntimeEvent} {n : String}

/-- An open node has not been settled. -/
theorem Follows.unsettled (h : Follows start seen inst) {s : NodeState}
    (hn : inst.nodeStates.get? n = some s) (hs : s.isOpen = true) :
    ∀ e ∈ seen, settles n e = false := by
  rw [← lastWhere_eq_none_iff]
  cases hlast : lastWhere (settles n) seen with
  | none => rfl
  | some e =>
    rw [h.settled n e hlast] at hn
    cases hn
    rw [isOpen_terminalState] at hs
    contradiction

theorem Follows.advanced (h : Follows start seen inst) : Follows start seen inst.advanced where
  settled n e hlast := by
    have hstate := h.settled n e hlast
    rw [inst.get?_advanced_of_ne (by simp [hstate, terminalState_ne_pending])]
    exact hstate
  opened n hn hseen := by
    rw [inst.get?_advanced]
    split
    · exact ⟨.running, rfl, rfl⟩
    · exact h.opened n hn hseen
  outputs := h.outputs

/-- Handling an event and replaying it have the same effect. -/
theorem Follows.handled {handled : WorkflowInstance} (h : Follows start seen inst)
    (hd : inst.definition = start.definition) (hnode : e.nodeId = some n)
    (hterminal : e.isTerminal = true) (happlied : Applied inst e n handled) :
    Follows start (seen ++ [e]) handled where
  settled m e' hlast := by
    rw [happlied.states, Dict.get?_set, hd]
    rw [lastWhere_concat] at hlast
    by_cases hnm : n = m
    · subst hnm
      rw [if_pos (by simp [settles, hnode, hterminal])] at hlast
      cases hlast
      rw [if_pos rfl]
    · rw [if_neg (by simp [settles, hnode, hnm])] at hlast
      rw [if_neg hnm]
      exact h.settled m e' hlast
  opened m hm hseen := by
    have hnm : n ≠ m := by
      rintro rfl
      have hnot := hseen e (by simp)
      simp [settles, hnode, hterminal] at hnot
    rw [happlied.states, Dict.get?_set_ne _ _ _ _ hnm]
    exact h.opened m hm (fun e' he' => hseen e' (List.mem_append_left _ he'))
  outputs m := by
    rw [happlied.outputs, h.outputs m]
    unfold replayedOutput
    rw [lastWhere_concat]
    by_cases hc : completes m e = true
    · rw [if_pos hc, if_pos hc]
    · rw [if_neg hc, if_neg hc]

/-- As long as the live instance runs it follows the replay and the events have
not finished the workflow; when it no longer runs, they have. -/
def Mirrors (start : WorkflowInstance) (seen : List RuntimeEvent) (inst : WorkflowInstance) :
    Prop :=
  (inst.status = .running ∧ Follows start seen inst ∧ Unfinished start.definition seen) ∨
    (inst.status ≠ .running ∧ ¬ Unfinished start.definition seen)

/-- An event that names no node is read by neither side. -/
theorem Mirrors.unnamed (h : Mirrors start seen inst) (hnode : e.nodeId = none) :
    Mirrors start (seen ++ [e]) inst := by
  have hnot : ∀ m, settles m e = false := by
    intro m
    simp [settles, hnode]
  have hlast : ∀ m, lastWhere (settles m) (seen ++ [e]) = lastWhere (settles m) seen := by
    intro m
    rw [lastWhere_concat, hnot m]
    rfl
  have hsame : ∀ m, (∀ e' ∈ seen ++ [e], settles m e' = false) ↔
      ∀ e' ∈ seen, settles m e' = false := by
    intro m
    rw [← lastWhere_eq_none_iff, ← lastWhere_eq_none_iff, hlast m]
  rcases h with ⟨hrun, hfollows, hunfinished⟩ | ⟨hrun, hfinished⟩
  · refine Or.inl ⟨hrun, ⟨?_, ?_, ?_⟩, ⟨?_, ?_⟩⟩
    · intro m e' he'
      exact hfollows.settled m e' (hlast m ▸ he')
    · intro m hm hseen
      exact hfollows.opened m hm ((hsame m).mp hseen)
    · intro m
      have hc : completes m e = false := by simp [completes, hnode]
      rw [hfollows.outputs m]
      unfold replayedOutput
      rw [lastWhere_concat, hc]
      rfl
    · intro e' he' m hm
      rcases List.mem_append.mp he' with he' | he'
      · exact hunfinished.soft e' he' m hm
      · rw [List.mem_singleton.mp he', hnot m] at hm
        contradiction
    · rcases hunfinished.unsettled with hempty | ⟨m, hm, hall⟩
      · exact Or.inl hempty
      · exact Or.inr ⟨m, hm, (hsame m).mpr hall⟩
  · exact Or.inr ⟨hrun, fun hunfinished => hfinished hunfinished.before⟩

/-- An event that fails the workflow finishes it. -/
theorem not_unfinished_of_failsHard {d : WorkflowDefinition} (hsettles : settles n e = true)
    (hhard : failsHard d n e = true) : ¬ Unfinished d (seen ++ [e]) := by
  intro h
  have hsoft := h.soft e (by simp) n hsettles
  rw [hhard] at hsoft
  contradiction

/-- Where no node is open, the events have settled the graph. -/
theorem Follows.not_unfinished (h : Follows start seen inst)
    (hn : n ∈ start.definition.graph.nodeIds)
    (hclosed : ∀ x ∈ inst.nodeStates.entries, x.2.isOpen = false) :
    ¬ Unfinished start.definition seen := by
  intro hunfinished
  rcases hunfinished.unsettled with hempty | ⟨m, hm, hnot⟩
  · rw [hempty] at hn
    simp at hn
  · obtain ⟨s, hs, hopen⟩ := h.opened m hm hnot
    rw [hclosed (m, s) ((Dict.mem_entries_iff _ _ _).mpr hs)] at hopen
    contradiction

/-- One more event that does not fail the workflow, after which a node is open. -/
theorem Unfinished.concat {d : WorkflowDefinition} (h : Unfinished d seen)
    (hnode : e.nodeId = some n) (hsoft : failsHard d n e = false)
    (hopen : ∃ m ∈ d.graph.nodeIds, ∀ e' ∈ seen ++ [e], settles m e' = false) :
    Unfinished d (seen ++ [e]) where
  soft e' he' m hm := by
    rcases List.mem_append.mp he' with he' | he'
    · exact h.soft e' he' m hm
    · rw [List.mem_singleton.mp he'] at hm ⊢
      have hnamed : e.nodeId = some m := of_decide_eq_true ((Bool.and_eq_true _ _).mp hm).1
      obtain rfl := Option.some.inj (hnode.symm.trans hnamed)
      exact hsoft
  unsettled := Or.inr hopen

/-- The step of a running instance. -/
theorem Mirrors.handled {env : Env} {handled : WorkflowInstance} {submitted : List Submission}
    (hfollows : Follows start seen inst) (hunfinished : Unfinished start.definition seen)
    (hrun : inst.status = .running) (hd : inst.definition = start.definition)
    (hn : n ∈ start.definition.graph.nodeIds) (hnode : e.nodeId = some n)
    (hterminal : e.isTerminal = true) (happlied : Applied inst e n handled)
    (htr : Tracked start.definition.graph handled.nodeStates)
    (hpassed : Passed env (completeIfDone env.now handled) inst' submitted) :
    Mirrors start (seen ++ [e]) inst' := by
  have hafter := hfollows.handled hd hnode hterminal happlied
  have hsettles : settles n e = true := by simp [settles, hnode, hterminal]
  cases hhard : failsHard inst.definition n e with
  | true =>
    -- the workflow fails with the node
    have hstatus : handled.status = .failed := by rw [happlied.status, if_pos hhard]
    have hfailed : (completeIfDone env.now handled).status ≠ .running := by
      rcases completeIfDone_cases env.now handled with ⟨_, hrun', _⟩ | ⟨_, heq⟩
      · rw [hstatus] at hrun'
        contradiction
      · rw [heq, hstatus]
        simp
    refine Or.inr ⟨?_, not_unfinished_of_failsHard hsettles (hd ▸ hhard)⟩
    rw [hpassed.status]
    exact hfailed
  | false =>
    have hstatus : handled.status = .running := by
      rw [happlied.status, if_neg (by simp [hhard]), hrun]
    rcases completeIfDone_cases env.now handled with ⟨hclosed, _, heq⟩ | ⟨hopen, heq⟩
    · -- the last open node was settled
      refine Or.inr ⟨?_, hafter.not_unfinished hn hclosed⟩
      rw [hpassed.status, heq]
      simp
    · rw [heq] at hpassed
      have hwitness : ∃ m ∈ start.definition.graph.nodeIds, ∀ e' ∈ seen ++ [e],
          settles m e' = false := by
        rcases hopen with ⟨⟨m, s⟩, hms, hs⟩ | hnot
        · have hget := (Dict.mem_entries_iff _ _ _).mp hms
          exact ⟨m, htr.open_mem m s hget hs, hafter.unsettled hget hs⟩
        · exact absurd hstatus hnot
      refine Or.inl ⟨hpassed.status.trans hstatus, ?_,
        hunfinished.concat hnode (hd ▸ hhard) hwitness⟩
      cases hpassed with
      | idle _ => exact hafter
      | cut _ _ _ _ => exact hafter
      | through _ _ _ _ => exact hafter.advanced

end Following

section Live
variable {run : Run} {start : WorkflowInstance}

theorem eventsOf_concat (calls : List (Env × Operation)) (env : Env) (e : RuntimeEvent) :
    eventsOf (calls ++ [(env, .event e)]) = eventsOf calls ++ [e] := by
  simp [eventsOf]

/-- After the start all nodes are open. -/
theorem mirrors_started (hload : loadInstance run.started.1 run.id = .ok start) :
    start.status = .running ∧
      (∀ n s, start.nodeStates.get? n = some s → s.isOpen = true) ∧
      Mirrors start [] start := by
  have hkeeps : run.Keeps (fun inst _ => inst.status = .running ∧
      ∀ n s, inst.nodeStates.get? n = some s → s.isOpen = true) run.started := by
    refine Run.keeps_started ?_
    intro p inst' submitted _ _ hpassed
    have hopen : ∀ n s, (run.initial p).nodeStates.get? n = some s → s.isOpen = true := by
      intro n s hn
      rw [Dict.eq_of_get?_fromKeys run.definition.graph.nodeIds_nodup hn]
      rfl
    refine ⟨hpassed.status, ?_⟩
    cases hpassed with
    | idle _ => exact hopen
    | cut _ _ _ _ => exact hopen
    | through _ _ _ _ =>
      intro n s hn
      rw [WorkflowInstance.get?_advanced] at hn
      split at hn
      · cases hn
        rfl
      · exact hopen n s hn
  obtain ⟨hbelongs, hrun, hopen⟩ := hkeeps.of_load hload
  refine ⟨hrun, hopen, Or.inl ⟨hrun, ⟨?_, ?_, fun _ => rfl⟩, ⟨by simp, ?_⟩⟩⟩
  · intro n e hlast
    simp at hlast
  · intro n hn _
    rw [hbelongs.definition] at hn
    obtain ⟨s, hs⟩ := (Dict.mem_keys_iff _ _).mp (hbelongs.tracked.covers n hn)
    exact ⟨s, hs, hopen n s hs⟩
  · cases hids : start.definition.graph.nodeIds with
    | nil => exact Or.inl rfl
    | cons n rest => exact Or.inr ⟨n, by simp, by simp⟩

/-- A delivered event is one step of the replay. -/
theorem mirrors_advance {c : Store × List Submission} {env : Env} {e : RuntimeEvent}
    {inst : WorkflowInstance} {seen : List RuntimeEvent}
    (hstart : start.definition = run.definition) (hholds : c.1.Holds inst)
    (hbelongs : Belongs run.definition run.id inst) (hmirrors : Mirrors start seen inst)
    (hterminal : e.isTerminal = true) (haddress : e.workflowInstanceId = some run.id)
    (hnodes : ∀ n, e.nodeId = some n → n ∈ run.definition.graph.nodeIds)
    (he : e.isJson = true) :
    ∃ inst', (Machine.advance (Operation.step run.id) c (env, .event e)).1.Holds inst' ∧
      Belongs run.definition run.id inst' ∧ Mirrors start (seen ++ [e]) inst' := by
  have haddress' : e.workflowInstanceId = some inst.instanceId := by
    rw [haddress, hbelongs.instanceId]
  cases hnode : e.nodeId with
  | none =>
    obtain ⟨hstore, _⟩ := onRuntimeEvent_ignored env c.1 hholds haddress'
      (fun n _ hn => by rw [hnode] at hn; cases hn)
    refine ⟨inst, ?_, hbelongs, hmirrors.unnamed hnode⟩
    rw [Machine.advance, Operation.step, Operation.perform, hstore]
    exact hholds
  | some n =>
    rcases hmirrors with ⟨hrun, hfollows, hunfinished⟩ | ⟨hrun, hfinished⟩
    · have hn := hnodes n hnode
      obtain ⟨handled, hhandled, hjson, happlied⟩ := handleEvent_applied env.now
        (show n ∈ inst.definition.graph.nodeIds by rw [hbelongs.definition]; exact hn) hnode
        hterminal hholds.json (fun _ => RuntimeEvent.isJson_result he)
      obtain ⟨inst', hsaved, _, hpassed⟩ := onRuntimeEvent_handled env c.1 hholds
        (hbelongs.wellFormed run.accepted.closed) haddress' hnode hrun hhandled hjson
      refine ⟨inst', hsaved, hpassed.belongs (belongs_handled hhandled hbelongs), ?_⟩
      refine Mirrors.handled hfollows hunfinished hrun
        (hbelongs.definition.trans hstart.symm) ?_ hnode hterminal happlied ?_ hpassed
      · rw [hstart]
        exact hn
      · rw [hstart]
        exact tracked_handleEvent hbelongs.tracked hhandled
    · obtain ⟨hstore, _⟩ := onRuntimeEvent_ignored env c.1 hholds haddress'
        (fun _ _ _ hrunning => absurd hrunning hrun)
      refine ⟨inst, ?_, hbelongs, Or.inr ⟨hrun, fun h => hfinished h.before⟩⟩
      rw [Machine.advance, Operation.step, Operation.perform, hstore]
      exact hholds

/-- An event for a dispatched node names a node of the graph, if it names one. -/
theorem Dispatched.nodes {c : Store × List Submission} {call : Env × Operation}
    (h : Dispatched run.id c call) (hknown : run.Keeps run.Known c) :
    ∃ e, call.2 = .event e ∧ e.isTerminal = true ∧ e.workflowInstanceId = some run.id ∧
      ∀ n, e.nodeId = some n → n ∈ run.definition.graph.nodeIds := by
  obtain ⟨e, hcall, hterminal, haddress, s, hs, hmeta⟩ := h
  refine ⟨e, hcall, hterminal, haddress, ?_⟩
  intro n hn
  unfold RuntimeEvent.nodeId RuntimeEvent.correlation at hn
  rw [hmeta] at hn
  dsimp only at hn
  split at hn
  · cases hn
  · cases hn
    exact hknown.known s hs

theorem along_dispatched (hevents : run.Along (Dispatched run.id)) :
    run.Along fun c call => run.Keeps run.Known c ∧ Dispatched run.id c call :=
  Machine.Along.with_invariant (run.Keeps run.Known) (fun _ call hc _ => Run.known_advance call hc)
    Run.known_started hevents

/-- The row holds an instance that mirrors the events among the calls so far, if
those can be logged. -/
def Mirrored (run : Run) (start : WorkflowInstance) (seen : List (Env × Operation))
    (c : Store × List Submission) : Prop :=
  (∀ e ∈ eventsOf seen, e.isJson = true) → ∃ inst, c.1.Holds inst ∧
    Belongs run.definition run.id inst ∧ Mirrors start (eventsOf seen) inst

/-- Live handling mirrors the replay to the end. -/
theorem mirrored_final (hevents : run.Along (Dispatched run.id))
    (hload : loadInstance run.started.1 run.id = .ok start) :
    Mirrored run start run.calls run.final := by
  obtain ⟨hbelongs, _⟩ := Run.Keeps.of_load Run.known_started hload
  have hfirst : Mirrored run start [] run.started := fun _ =>
    ⟨start, ((loadInstance_eq_ok_iff _ _ _).mp hload).1, hbelongs, (mirrors_started hload).2.2⟩
  refine Machine.exec_tracks (Mirrored run start) ?_ hfirst (along_dispatched hevents)
  rintro seen c ⟨env, op⟩ hseen ⟨hknown, hdispatched⟩ hall
  obtain ⟨e, hop, hterminal, haddress, hnodes⟩ := hdispatched.nodes hknown
  dsimp only at hop
  subst hop
  rw [eventsOf_concat] at hall ⊢
  obtain ⟨inst, hholds, hinst, hmirrors⟩ :=
    hseen (fun e' he' => hall e' (List.mem_append_left _ he'))
  exact mirrors_advance hbelongs.definition hholds hinst hmirrors hterminal haddress hnodes
    (hall e (by simp))

/-- The events of the calls are terminal and concern the graph. -/
theorem eventsOf_dispatched (hevents : run.Along (Dispatched run.id)) :
    ∀ e ∈ eventsOf run.calls, e.isTerminal = true ∧
      ∀ n, e.nodeId = some n → n ∈ run.definition.graph.nodeIds := by
  intro e he
  obtain ⟨⟨env, op⟩, hcall, hop⟩ := List.mem_filterMap.mp he
  obtain ⟨c, hknown, hdispatched⟩ := (along_dispatched hevents).exists_of_mem hcall
  obtain ⟨e', rfl, hterminal, _, hnodes⟩ := hdispatched.nodes hknown
  cases hop
  exact ⟨hterminal, hnodes⟩

end Live

section Comparing
variable {start live replayed : WorkflowInstance} {events : List RuntimeEvent}

/-- Every event names a node of the instance, or none. -/
def Named (start : WorkflowInstance) (events : List RuntimeEvent) : Prop :=
  ∀ e ∈ events, e.isTerminal = true ∧ ∀ n, e.nodeId = some n → n ∈ start.nodeStates.keys

/-- An event settles the node it names. -/
theorem Named.last (h : Named start events) {n : String} (hn : ∃ e ∈ events, e.nodeId = some n) :
    n ∈ start.nodeStates.keys ∧ ∃ last, lastWhere (settles n) events = some last := by
  obtain ⟨e, he, hnode⟩ := hn
  obtain ⟨hterminal, hnodes⟩ := h e he
  refine ⟨hnodes n hnode, ?_⟩
  cases hlast : lastWhere (settles n) events with
  | none =>
    have hnot := (lastWhere_eq_none_iff _ _).mp hlast e he
    simp [settles, hnode, hterminal] at hnot
  | some last => exact ⟨last, rfl⟩

/-- A live instance that follows the replay agrees with the dispatched replay. -/
theorem Follows.agrees (h : Follows start events live) (hnamed : Named start events)
    (hreplay : replayEvents start events = .ok replayed) (hstatus : live.status = start.status) :
    Agrees events live replayed.advanced where
  status := by
    obtain ⟨_, hsame, _, _⟩ := replayEvents_frame hreplay
    exact hstatus.trans hsame.symm
  states n hn := by
    obtain ⟨hkey, last, hlast⟩ := hnamed.last hn
    have hstate : replayed.nodeStates.get? n =
        some (terminalState start.definition n last) := by
      rw [(replayEvents_get? hreplay n hkey).1, replayedState, hlast]
    rw [h.settled n last hlast,
      replayed.get?_advanced_of_ne (by simp [hstate, terminalState_ne_pending]), hstate]
  outputs n := by
    rw [h.outputs n]
    change replayedOutput start events n = replayed.nodeOutputs.get? n
    by_cases hkey : n ∈ start.nodeStates.keys
    · exact (replayEvents_get? hreplay n hkey).2.symm
    · have hnone : lastWhere (completes n) events = none := by
        apply (lastWhere_eq_none_iff _ _).mpr
        intro e he
        rw [Bool.eq_false_iff]
        intro hc
        simp only [completes, Bool.and_eq_true, decide_eq_true_eq] at hc
        exact hkey ((hnamed e he).2 n hc.1)
      rw [replayEvents_output_of_notMem hreplay n hkey, replayedOutput, hnone]

/-- It agrees with the checkpoint itself only if no event names a node. -/
theorem Follows.agrees_start_iff (h : Follows start events live) (hnamed : Named start events)
    (hstatus : live.status = start.status)
    (hopen : ∀ n s, start.nodeStates.get? n = some s → s.isOpen = true) :
    Agrees events live start ↔ ∀ e ∈ events, e.nodeId = none := by
  constructor
  · intro hagrees e he
    cases hnode : e.nodeId with
    | none => rfl
    | some n =>
      obtain ⟨_, last, hlast⟩ := hnamed.last ⟨e, he, hnode⟩
      have hstate := (hagrees.states n ⟨e, he, hnode⟩).symm.trans (h.settled n last hlast)
      have hfinal := hopen n _ hstate
      rw [isOpen_terminalState] at hfinal
      contradiction
  · intro hnone
    refine ⟨hstatus, ?_, ?_⟩
    · rintro n ⟨e, he, hnode⟩
      rw [hnone e he] at hnode
      cases hnode
    · intro n
      have hnot : lastWhere (completes n) events = none := by
        apply (lastWhere_eq_none_iff _ _).mpr
        intro e he
        simp [completes, hnone e he]
      rw [h.outputs n, replayedOutput, hnot]

end Comparing

/-- Handled live, the events leave what recovery makes of the first checkpoint
exactly if they neither fail nor finish the workflow and recovery gets through,
or has nothing to do. -/
theorem recovery_agrees_iff (run : Run) (hevents : run.Along (Dispatched run.id))
    (start : WorkflowInstance) (hstart : loadInstance run.started.1 run.id = .ok start)
    (log : EventStore) (hlog : log.streamFrom start.startedAt = eventsOf run.calls) (env : Env)
    (live recovered : WorkflowInstance) (hlive : loadInstance run.final.1 run.id = .ok live)
    (hrecovered : loadInstance (recoverWorkflow env log run.started.1 run.id).store run.id =
      .ok recovered) :
    Agrees (eventsOf run.calls) live recovered ↔
      Unfinished run.definition (eventsOf run.calls) ∧
        (Recoverable env start (eventsOf run.calls) ∨
          ∀ e ∈ eventsOf run.calls, e.nodeId = none) := by
  obtain ⟨hholds, hid⟩ := (loadInstance_eq_ok_iff _ _ _).mp hstart
  obtain ⟨hbelongs, _⟩ := Run.Keeps.of_load Run.known_started hstart
  obtain ⟨hrun, hopen, _⟩ := mirrors_started hstart
  obtain ⟨inst, hinst, hinstBelongs, hmirrors⟩ := mirrored_final hevents hstart
    (fun e he => EventStore.isJson_of_streamFrom (hlog ▸ he))
  rw [← hinstBelongs.instanceId, hinst.load] at hlive
  cases hlive
  have hwf := hbelongs.wellFormed run.accepted.closed
  have hnamed : Named start (eventsOf run.calls) := by
    intro e he
    obtain ⟨hterminal, hnodes⟩ := eventsOf_dispatched hevents e he
    exact ⟨hterminal, fun n hn => hbelongs.tracked.covers n (hnodes n hn)⟩
  rw [← hid] at hrecovered
  rw [← hbelongs.definition]
  have hiff : (recoverWorkflow env log run.started.1 start.instanceId).result.isOk = true ↔ _ :=
    recoverWorkflow_isOk_iff hholds hrun hwf
  rw [hlog] at hiff
  rw [← hiff]
  rcases recover_cases hholds hrun hwf env log with
    ⟨hok, replayed, hreplay, hsaved, _⟩ | ⟨hraised, hstore, _⟩
  · obtain ⟨hframe, hstatus, _, _⟩ := replayEvents_frame hreplay
    have hload := hsaved.load
    rw [show replayed.advanced.instanceId = start.instanceId from hframe.instanceId,
      hrecovered] at hload
    cases hload
    rw [hlog] at hreplay
    rcases hmirrors with ⟨hliveRun, hfollows, hunfinished⟩ | ⟨hliveRun, hfinished⟩
    · exact iff_of_true (hfollows.agrees hnamed hreplay (hliveRun.trans hrun.symm))
        ⟨hunfinished, Or.inl hok⟩
    · refine iff_of_false ?_ (fun h => hfinished h.1)
      intro hagrees
      exact hliveRun (hagrees.status.trans (hstatus.trans hrun))
  · rw [hstore, hholds.load] at hrecovered
    cases hrecovered
    rcases hmirrors with ⟨hliveRun, hfollows, hunfinished⟩ | ⟨hliveRun, hfinished⟩
    · rw [hfollows.agrees_start_iff hnamed (hliveRun.trans hrun.symm) hopen]
      simp [hunfinished, hraised]
    · refine iff_of_false ?_ (fun h => hfinished h.1)
      intro hagrees
      exact hliveRun (hagrees.status.trans hrun)

section Samples

/-- A's completion after the start, and the log that holds it. -/
def completionA : RuntimeEvent := nodeEvent (.taskCompleted "i1_A") "i1" "A"

def completionLog : EventStore := logOf completionA (by decide)

theorem streamFrom_completionLog :
    completionLog.streamFrom "2026-01-01T00:00:00" = [completionA] :=
  streamFrom_logOf _ _ _ _ _

theorem dispatched_completionA {c : Store × List Submission}
    (h : "A" ∈ (own "i1" c.2).map Submission.nodeId) :
    Dispatched "i1" c (laterEnv, .event completionA) := by
  obtain ⟨s, hs, hA⟩ := List.mem_map.mp h
  refine ⟨completionA, rfl, rfl, nodeEvent_workflowInstanceId _ _ _ _ (by decide), s, hs, ?_⟩
  rw [hA]
  rfl

end Samples

/-- A is done and B is not: live handling and recovery agree. -/
theorem chain_recovery_agrees : ∃ live recovered,
    loadInstance (chainRun [.event completionA]).final.1 "i1" = .ok live ∧
    loadInstance (recoverWorkflow laterEnv completionLog
      (chainRun [.event completionA]).started.1 "i1").store "i1" = .ok recovered ∧
    Agrees [completionA] live recovered := by
  obtain ⟨start, hstart, hstarted⟩ := exists_loaded (chainRun [.event completionA]).started.1 "i1"
    (fun i => i.startedAt) "2026-01-01T00:00:00" (by decide +kernel)
  obtain ⟨live, hlive, _⟩ := (chainRun [.event completionA]).exists_loaded (fun _ => ()) ()
    (by decide +kernel)
  obtain ⟨recovered, hrecovered, _⟩ := exists_loaded
    (recoverWorkflow laterEnv completionLog (chainRun [.event completionA]).started.1 "i1").store
    "i1" (fun _ => ()) () (by decide +kernel)
  have hevents : (chainRun [.event completionA]).Along (Dispatched "i1") :=
    ⟨dispatched_completionA (by decide +kernel), trivial⟩
  refine ⟨live, recovered, hlive, hrecovered,
    (recovery_agrees_iff (chainRun [.event completionA]) hevents start hstart completionLog
      (by rw [hstarted]; exact streamFrom_completionLog) laterEnv live recovered hlive
      hrecovered).mpr ⟨⟨?_, Or.inr ⟨"B", by decide, ?_⟩⟩, Or.inl ⟨?_, fun _ _ _ _ _ _ => rfl⟩⟩⟩
  · intro e he n _
    rw [List.mem_singleton.mp he, failsHard, terminalState_of_completion _ _ rfl]
    rfl
  · intro e he
    rw [List.mem_singleton.mp he]
    decide
  · rintro e he ⟨_, _, _, hfailure, _⟩
    rw [List.mem_singleton.mp he] at hfailure
    exact Bool.noConfusion hfailure

/-- Live handling completes the workflow, and recovery leaves it RUNNING. -/
theorem not_recovery_agrees : ¬ ∀ run : Run, run.Along (Dispatched run.id) →
    ∀ start, loadInstance run.started.1 run.id = .ok start →
    ∀ log : EventStore, log.streamFrom start.startedAt = eventsOf run.calls →
    ∀ env, (recoverWorkflow env log run.started.1 run.id).result.isOk = true →
    ∀ live recovered, loadInstance run.final.1 run.id = .ok live →
      loadInstance (recoverWorkflow env log run.started.1 run.id).store run.id = .ok recovered →
      Agrees (eventsOf run.calls) live recovered := by
  intro h
  obtain ⟨start, hstart, hstarted⟩ := exists_loaded (soloRun [.event completionA]).started.1 "i1"
    (fun i => i.startedAt) "2026-01-01T00:00:00" (by decide +kernel)
  obtain ⟨live, hlive, hsucceeded⟩ := (soloRun [.event completionA]).exists_loaded
    (fun i => i.status) .succeeded (by decide +kernel)
  obtain ⟨recovered, hrecovered, hrunning⟩ := exists_loaded
    (recoverWorkflow laterEnv completionLog (soloRun [.event completionA]).started.1 "i1").store
    "i1" (fun i => i.status) .running (by decide +kernel)
  have hevents : (soloRun [.event completionA]).Along (Dispatched "i1") :=
    ⟨dispatched_completionA (by decide +kernel), trivial⟩
  have hagrees := h (soloRun [.event completionA]) hevents start hstart completionLog
    (by rw [hstarted]; exact streamFrom_completionLog) laterEnv (by decide +kernel) live recovered
    hlive hrecovered
  have hstatus := hagrees.status
  rw [hsucceeded, hrunning] at hstatus
  exact WorkflowStatus.noConfusion hstatus

end MollisRuntime.Workflow
