import MollisRuntime.Persistence.EventRefinement
import MollisRuntime.Workflow.Endings

/-!
ReplayEngine. It reads the row of an instance and one page of the event log, and gives
every node the state that the last of its started, completed and failed events stands
for. The orchestrator has more to say: a node can be SKIPPED, time out or be cancelled,
and events after the end of the workflow do not count.
-/
namespace MollisRuntime.Observability

open Ordered Python Persistence Workflow

/-- An entry of the history. -/
structure Transition where
  timestamp : String
  nodeId : String
  eventType : String
  transition : String

structure ReplayReport where
  instanceId : String
  workflowName : Value
  snapshotStatus : Value
  finalReplayedNodeStates : Dict String String
  transitionsHistory : List Transition

namespace ReplayEngine

/-- The state that an event stands for. -/
def newState (e : RuntimeEvent) : Option String :=
  match e.kind with
  | .taskStarted _ => some "Running"
  | .taskCompleted _ => some "Succeeded"
  | .taskFailed _ _ => some "Failed"
  | _ => none

/-- `meta.get("workflow_instance_id") == instance_id` -/
def ofInstance (instanceId : String) (e : RuntimeEvent) : Bool :=
  match e.metadata.get? "workflow_instance_id" with
  | some (.str id) => decide (id = instanceId)
  | _ => false

/-- What the engine reads of the log; `started_at` is a string in every row. -/
def fetched (log : Option EventStore) (startedAt : Value) : List RuntimeEvent :=
  match log, startedAt with
  | some log, .str start => if start = "" then [] else log.streamFrom start
  | _, _ => []

def replayEvent (replayed : Dict String String × List Transition) (e : RuntimeEvent) :
    Dict String String × List Transition :=
  match e.nodeId with
  | none => replayed
  | some nodeId =>
    let old := (replayed.1.get? nodeId).getD "Pending"
    let new := (newState e).getD old
    (replayed.1.set nodeId new,
      replayed.2 ++ [{ timestamp := e.timestamp, nodeId, eventType := e.kind.name,
                       transition := old ++ " -> " ++ new }])

def replayWorkflow (log : Option EventStore) (store : Store) (instanceId : String) :
    Except PyError ReplayReport :=
  match store.rows.get? instanceId with
  | none => .error (.valueError ("No WorkflowInstance found for: " ++ instanceId))
  | some row => do
    let data ← row.asDict
    let events := (fetched log (getD data "started_at" .none)).filter (ofInstance instanceId)
    let nodes ← (getD data "node_states" (.dict [])).asDict
    let (states, history) :=
      events.foldl replayEvent (Dict.fromKeys (nodes.map Prod.fst) "Pending", [])
    return {
      instanceId
      workflowName := getD data "workflow_name" .none
      snapshotStatus := getD data "status" .none
      finalReplayedNodeStates := states
      transitionsHistory := history }

end ReplayEngine

open ReplayEngine

/-- A run of a workflow that is handed started and terminal events, the latter for
RUNNING nodes, all of which are in the event log. -/
structure LoggedRun extends Run where
  log : EventStore
  handled : toRun.Along (FindsRunning toRun.id)
  logged : (log.events.filter fun e => ofInstance toRun.id e && (e.isStart || e.isTerminal)) =
    eventsOf toRun.calls

/-- An event that gives the node a state. -/
def tells (n : String) (e : RuntimeEvent) : Bool :=
  decide (e.nodeId = some n) && (newState e).isSome

namespace LoggedRun

variable (run : LoggedRun)

def events : List RuntimeEvent := eventsOf run.calls

/-- The events of the instance on the page that is fetched. -/
def page : List RuntimeEvent :=
  (fetched (some run.log) (.str run.env.now)).filter (ofInstance run.id)

/-- The debugger reports the persisted state of every node that has a terminal event. -/
def ReplayAgrees : Prop :=
  ∀ n, (∃ e ∈ run.events, settles n e = true) →
    ∃ report inst s, replayWorkflow (some run.log) run.final.1 run.id = .ok report ∧
      loadInstance run.final.1 run.id = .ok inst ∧ inst.nodeStates.get? n = some s ∧
      report.finalReplayedNodeStates.get? n = some s.value

/-- What the page has to say last of a node: that it completed, or failed with the
workflow, if it has a terminal event by the end of the workflow, and otherwise that it
started. -/
structure ToldOf (n : String) : Prop where
  settled : (∃ e ∈ untilEnd run.definition run.events, settles n e = true) →
    ∃ last, lastWhere (tells n) run.page = some last ∧
      (last.isCompletion = true ∨ newState last = some "Failed" ∧
        failurePolicyAt run.definition n ≠ .ok .ignore)
  late : (∀ e ∈ untilEnd run.definition run.events, settles n e = false) →
    ∃ last, lastWhere (tells n) run.page = some last ∧ last.isStart = true

end LoggedRun

section Replay

theorem newState_cases {e : RuntimeEvent} {s : String} (h : newState e = some s) :
    e.isStart = true ∧ s = NodeState.running.value ∨
      e.isCompletion = true ∧ s = NodeState.succeeded.value ∨
      e.isCompletion = false ∧ e.isFailure = true ∧ s = NodeState.failed.value := by
  obtain ⟨kind, timestamp, metadata⟩ := e
  cases kind with
  | taskStarted id =>
    cases h
    exact .inl ⟨rfl, rfl⟩
  | taskCompleted id =>
    cases h
    exact .inr (.inl ⟨rfl, rfl⟩)
  | taskFailed id message =>
    cases h
    exact .inr (.inr ⟨rfl, rfl, rfl⟩)
  | _ => cases h

theorem newState_of_completion {e : RuntimeEvent} (h : e.isCompletion = true) :
    newState e = some NodeState.succeeded.value := by
  obtain ⟨kind, timestamp, metadata⟩ := e
  cases kind <;> cases h
  rfl

theorem newState_of_start {e : RuntimeEvent} (h : e.isStart = true) :
    newState e = some NodeState.running.value := by
  obtain ⟨kind, timestamp, metadata⟩ := e
  cases kind <;> cases h
  rfl

/-- The replayed state of a node: what the last event that tells one stands for. -/
theorem get?_replayed {events : List RuntimeEvent} {n : String} {states : Dict String String}
    (history : List Transition) (hn : n ∈ states.keys) :
    (events.foldl replayEvent (states, history)).1.get? n =
      match lastWhere (tells n) events with
      | some e => newState e
      | none => states.get? n := by
  induction events generalizing states history with
  | nil => rfl
  | cons e rest ih =>
    rw [List.foldl_cons, lastWhere_cons]
    cases hnode : e.nodeId with
    | none =>
      have htells : tells n e = false := by simp [tells, hnode]
      have hstep : replayEvent (states, history) e = (states, history) := by
        rw [replayEvent, hnode]
      rw [hstep, ih history hn, htells]
      cases lastWhere (tells n) rest <;> rfl
    | some m =>
      have hkeys : n ∈ (replayEvent (states, history) e).1.keys := by
        rw [replayEvent, hnode]
        exact (Dict.mem_keys_set _ _ _ _).mpr (.inr hn)
      rw [← Prod.eta (replayEvent (states, history) e), ih _ hkeys]
      cases lastWhere (tells n) rest with
      | some last => rfl
      | none =>
        obtain ⟨old, hold⟩ := (Dict.mem_keys_iff _ _).mp hn
        by_cases hnm : m = n
        · subst hnm
          cases hnew : newState e <;> simp [replayEvent, tells, hnode, hnew, hold]
        · simp [replayEvent, tells, hnode, hnm, Dict.get?_set]

variable {store : Store} {inst : WorkflowInstance}

/-- The report on a persisted instance. -/
theorem replayWorkflow_eq (log : Option EventStore) (h : store.Holds inst) :
    replayWorkflow log store inst.instanceId =
      let replayed := ((fetched log (.str inst.startedAt)).filter
        (ofInstance inst.instanceId)).foldl replayEvent
          (Dict.fromKeys inst.nodeStates.keys "Pending", [])
      .ok { instanceId := inst.instanceId
            workflowName := .str inst.workflowName
            snapshotStatus := .str inst.status.value
            finalReplayedNodeStates := replayed.1
            transitionsHistory := replayed.2 } := by
  have hrow : store.rows.get? inst.instanceId = some inst.toDict := h
  have hkeys : (inst.nodeStates.entries.map fun e => (e.1, encodeState e.2)).map Prod.fst =
      inst.nodeStates.keys := by
    rw [List.map_map]
    rfl
  simp only [replayWorkflow, hrow]
  simp [WorkflowInstance.toDict, Value.asDict, getD, lookup, encodeDict, hkeys]

end Replay

section Agreement

variable {run : LoggedRun} {n : String}

theorem value_injective {s t : NodeState} (h : s.value = t.value) : s = t := by
  have hsame : NodeState.ofValue (.str s.value) = NodeState.ofValue (.str t.value) := by rw [h]
  rw [NodeState.ofValue_value, NodeState.ofValue_value] at hsame
  exact Except.ok.inj hsame

/-- What tells a state on the page is an event of the run. -/
theorem LoggedRun.mem_events {e : RuntimeEvent} (hpage : e ∈ run.page)
    (htells : tells n e = true) : e ∈ run.events := by
  obtain ⟨hfetched, hinstance⟩ := List.mem_filter.mp hpage
  have hlog : e ∈ run.log.events := by
    simp only [fetched] at hfetched
    split at hfetched
    · cases hfetched
    · exact EventStore.mem_of_streamFrom hfetched
  have hkind : (e.isStart || e.isTerminal) = true := by
    simp only [tells, Bool.and_eq_true] at htells
    obtain ⟨s, hs⟩ := Option.isSome_iff_exists.mp htells.2
    rcases newState_cases hs with ⟨hstart, -⟩ | ⟨hcompleted, -⟩ | ⟨-, hfailed, -⟩
    · simp [hstart]
    · simp [RuntimeEvent.isTerminal, hcompleted]
    · simp [RuntimeEvent.isTerminal, hfailed]
  rw [LoggedRun.events, ← run.logged]
  exact List.mem_filter.mpr ⟨hlog, by rw [hinstance, hkind]; rfl⟩

theorem LoggedRun.isJson (run : LoggedRun) : ∀ e ∈ eventsOf run.calls, e.isJson = true := by
  intro e he
  rw [← run.logged] at he
  exact run.log.serialisable e (List.mem_of_mem_filter he)

/-- A short log that was recorded after the start is on one page. -/
theorem LoggedRun.page_eq_events (hnow : run.env.now ≠ "")
    (hsince : ∀ e ∈ run.log.events, run.env.now ≤ e.timestamp)
    (hlength : run.log.events.length ≤ 100)
    (hkinds : ∀ e ∈ run.log.events, e.isStart = true ∨ e.isTerminal = true) :
    run.page = run.events := by
  have hfetched : fetched (some run.log) (.str run.env.now) = run.log.events :=
    (if_neg hnow).trans (EventStore.streamFrom_eq_events hsince hlength)
  rw [LoggedRun.page, hfetched, LoggedRun.events, ← run.logged]
  refine List.filter_congr fun e he => ?_
  rw [(Bool.or_eq_true _ _).mpr (hkinds e he), Bool.and_true]

/-- What the page tells of a node. -/
def LoggedRun.told (run : LoggedRun) (n : String) : String :=
  match lastWhere (tells n) run.page with
  | some e => (newState e).getD "Pending"
  | none => "Pending"

/-- The row and the report on it, for a node with a terminal event. -/
theorem exists_reported (hn : ∃ e ∈ run.events, settles n e = true) :
    ∃ inst report s, loadInstance run.final.1 run.id = .ok inst ∧
      Settled run.definition run.events inst ∧ inst.nodeStates.get? n = some s ∧
      replayWorkflow (some run.log) run.final.1 run.id = .ok report ∧
      report.finalReplayedNodeStates.get? n = some (run.told n) := by
  obtain ⟨e, he, hsettles⟩ := hn
  rcases settledRow_final run.handled run.isJson with
    ⟨inst, hholds, hbelongs, hstart, hsettled⟩ | ⟨-, hnot⟩
  · obtain ⟨s, hs⟩ : ∃ s, inst.nodeStates.get? n = some s := by
      by_cases hend : ∃ x ∈ untilEnd run.definition run.events, settles n x = true
      · obtain ⟨x, hx, hx'⟩ := hend
        exact ⟨_, hsettled.settled n x hx hx'⟩
      · refine ⟨_, hsettled.late n e he hsettles fun x hx => ?_⟩
        exact Bool.eq_false_iff.mpr fun hx' => hend ⟨x, hx, hx'⟩
    have hkey : n ∈ inst.nodeStates.keys := (Dict.mem_keys_iff _ _).mpr ⟨s, hs⟩
    have hnodup : inst.nodeStates.keys.Nodup := inst.nodeStates.nodup_keys'
    have hreport := replayWorkflow_eq (some run.log) hholds
    rw [hbelongs.instanceId, hstart] at hreport
    refine ⟨inst, _, s, (loadInstance_eq_ok_iff _ _ _).mpr ⟨hholds, hbelongs.instanceId⟩, hsettled,
      hs, hreport, ?_⟩
    refine (get?_replayed [] (by rwa [Dict.keys_fromKeys _ _ hnodup])).trans ?_
    change (match lastWhere (tells n) run.page with
      | some e => newState e
      | none => (Dict.fromKeys inst.nodeStates.keys "Pending").get? n) = _
    rw [LoggedRun.told]
    cases hlast : lastWhere (tells n) run.page with
    | none => exact Dict.get?_fromKeys _ _ hnodup n hkey
    | some last =>
      have htells := (lastWhere_mem hlast).2
      simp only [tells, Bool.and_eq_true] at htells
      obtain ⟨new, hnew⟩ := Option.isSome_iff_exists.mp htells.2
      simp [hnew]
  · have hterminal := hnot e he
    simp [settles, hterminal] at hsettles

theorem agrees_at_iff {inst : WorkflowInstance} {report : ReplayReport} {s : NodeState}
    (hload : loadInstance run.final.1 run.id = .ok inst) (hs : inst.nodeStates.get? n = some s)
    (hreport : replayWorkflow (some run.log) run.final.1 run.id = .ok report)
    (htold : report.finalReplayedNodeStates.get? n = some (run.told n)) :
    (∃ report inst s, replayWorkflow (some run.log) run.final.1 run.id = .ok report ∧
      loadInstance run.final.1 run.id = .ok inst ∧ inst.nodeStates.get? n = some s ∧
      report.finalReplayedNodeStates.get? n = some s.value) ↔ run.told n = s.value := by
  constructor
  · rintro ⟨report', inst', s', hreport', hload', hs', htold'⟩
    obtain rfl := Except.ok.inj (hload.symm.trans hload')
    obtain rfl := Except.ok.inj (hreport.symm.trans hreport')
    obtain rfl := Option.some.inj (hs.symm.trans hs')
    exact Option.some.inj (htold.symm.trans htold')
  · intro hsame
    exact ⟨report, inst, s, hreport, hload, hs, htold.trans (congrArg some hsame)⟩

/-- A state other than PENDING is told by an event. -/
theorem told_eq_iff {s : NodeState} (hs : s ≠ .pending) :
    run.told n = s.value ↔
      ∃ last, lastWhere (tells n) run.page = some last ∧ newState last = some s.value := by
  rw [LoggedRun.told]
  cases hlast : lastWhere (tells n) run.page with
  | none =>
    refine iff_of_false (fun hvalue => ?_) ?_
    · exact hs (value_injective (t := .pending) hvalue.symm)
    · rintro ⟨last, hnone, -⟩
      cases hnone
  | some last =>
    have htells := (lastWhere_mem hlast).2
    simp only [tells, Bool.and_eq_true] at htells
    obtain ⟨new, hnew⟩ := Option.isSome_iff_exists.mp htells.2
    simp [hnew]

theorem terminalState_eq_failed_iff {d : WorkflowDefinition} {e : RuntimeEvent} :
    terminalState d n e = .failed ↔
      e.isCompletion = false ∧ failurePolicyAt d n ≠ .ok .ignore := by
  unfold terminalState
  split
  next hcompleted => simp [hcompleted]
  next hnot =>
    rw [Bool.not_eq_true] at hnot
    split
    next hignore => simp [hignore]
    next hother => exact iff_of_true rfl ⟨hnot, hother⟩

/-- A node that was settled by the end of the workflow. -/
theorem told_settled_iff {inst : WorkflowInstance} {e : RuntimeEvent}
    (h : Settled run.definition run.events inst)
    (he : e ∈ untilEnd run.definition run.events) (hsettles : settles n e = true) :
    run.told n = (terminalState run.definition n e).value ↔
      ∃ last, lastWhere (tells n) run.page = some last ∧
        (last.isCompletion = true ∨ newState last = some "Failed" ∧
          failurePolicyAt run.definition n ≠ .ok .ignore) := by
  rw [told_eq_iff (terminalState_ne_pending _ _ _)]
  refine exists_congr fun last => and_congr_right fun hlast => ?_
  -- a terminal event of the node on the page is the one that settled it
  have honly (hterminal : last.isTerminal = true) : last = e := by
    obtain ⟨hpage, htells⟩ := lastWhere_mem hlast
    have hsame : settles n last = true := by
      simp only [tells, Bool.and_eq_true] at htells
      simp only [settles, Bool.and_eq_true]
      exact ⟨htells.1, hterminal⟩
    exact h.once n e he hsettles last (LoggedRun.mem_events hpage htells) hsame
  constructor
  · intro hnew
    rcases newState_cases hnew with ⟨-, hvalue⟩ | ⟨hcompleted, -⟩ | ⟨-, -, hvalue⟩
    · exact absurd (value_injective hvalue) (terminalState_ne_running _ _ _)
    · exact .inl hcompleted
    · have hfailed := value_injective hvalue
      exact .inr ⟨by rw [hnew, hfailed]; rfl, (terminalState_eq_failed_iff.mp hfailed).2⟩
  · rintro (hcompleted | ⟨hfailed, hpolicy⟩)
    · have hlast : last = e := honly (by simp [RuntimeEvent.isTerminal, hcompleted])
      rw [newState_of_completion hcompleted, ← hlast, terminalState_of_completion _ _ hcompleted]
    · rcases newState_cases hfailed with ⟨-, hvalue⟩ | ⟨-, hvalue⟩ | ⟨hnot, hfailure, -⟩
      · exact absurd hvalue (by decide)
      · exact absurd hvalue (by decide)
      · have hlast : last = e := honly (by simp [RuntimeEvent.isTerminal, hfailure])
        rw [hfailed, ← hlast, terminalState_eq_failed_iff.mpr ⟨hnot, hpolicy⟩]
        rfl

/-- A node whose terminal events came after the end. -/
theorem told_late_iff : run.told n = NodeState.running.value ↔
    ∃ last, lastWhere (tells n) run.page = some last ∧ last.isStart = true := by
  rw [told_eq_iff (by decide)]
  refine exists_congr fun last => and_congr_right fun _ => ?_
  constructor
  · intro hnew
    rcases newState_cases hnew with ⟨hstart, -⟩ | ⟨-, hvalue⟩ | ⟨-, -, hvalue⟩
    · exact hstart
    · exact absurd hvalue (by decide)
    · exact absurd hvalue (by decide)
  · exact newState_of_start

/-- The debugger agrees with the engine exactly when it is told last of each node with a
terminal event what became of it. -/
theorem replay_agrees_iff (run : LoggedRun) :
    run.ReplayAgrees ↔ ∀ n, (∃ e ∈ run.events, settles n e = true) → run.ToldOf n := by
  refine forall_congr' fun n => forall_congr' fun hn => ?_
  obtain ⟨inst, report, s, hload, hsettled, hs, hreport, htold⟩ := exists_reported hn
  rw [agrees_at_iff hload hs hreport htold]
  by_cases hend : ∃ e ∈ untilEnd run.definition run.events, settles n e = true
  · obtain ⟨e, he, hsettles⟩ := hend
    obtain rfl := Option.some.inj (hs.symm.trans (hsettled.settled n e he hsettles))
    rw [told_settled_iff hsettled he hsettles]
    refine ⟨fun h => ⟨fun _ => h, fun hnone => ?_⟩, fun h => h.settled ⟨e, he, hsettles⟩⟩
    rw [hnone e he] at hsettles
    cases hsettles
  · have hnone : ∀ e ∈ untilEnd run.definition run.events, settles n e = false :=
      fun e he => Bool.eq_false_iff.mpr fun hsettles => hend ⟨e, he, hsettles⟩
    obtain ⟨e, he, hsettles⟩ := hn
    obtain rfl := Option.some.inj (hs.symm.trans (hsettled.late n e he hsettles hnone))
    rw [told_late_iff]
    exact ⟨fun h => ⟨fun hsome => absurd hsome hend, fun _ => h⟩, fun h => h.late hnone⟩

end Agreement

section Samples

def startedA : RuntimeEvent := nodeEvent (.taskStarted "i1_A") "i1" "A"

def timedOutA : RuntimeEvent := nodeEvent (.taskTimedOut "i1_A") "i1" "A"

/-- A workflow of one node, which is started and times out. -/
def timedOutRun : LoggedRun where
  toRun := soloRun [.event startedA, .event timedOutA]
  log := ⟨[startedA, timedOutA], by decide⟩
  handled :=
    ⟨⟨startedA, rfl, nodeEvent_workflowInstanceId _ _ _ _ (by decide), .inl rfl⟩,
      ⟨timedOutA, rfl, nodeEvent_workflowInstanceId _ _ _ _ (by decide),
        .inr ⟨rfl, "A", nodeEvent_nodeId _ _ _ _ (by decide), by decide +kernel⟩⟩, trivial⟩
  logged := rfl

/-- The row says that the node has FAILED, and the report that it is running. -/
theorem timedOut_reported_running :
    ((loadInstance timedOutRun.final.1 "i1").toOption.map fun i => i.nodeStates.get? "A") =
        some (some .failed) ∧
      ((replayWorkflow (some timedOutRun.log) timedOutRun.final.1 "i1").toOption.map
        fun report => report.finalReplayedNodeStates.get? "A") = some (some "Running") ∧
      ¬ timedOutRun.ReplayAgrees := by
  have hrow : ((loadInstance timedOutRun.final.1 "i1").toOption.map
      fun i => i.nodeStates.get? "A") = some (some .failed) := by decide +kernel
  have hreport : ((replayWorkflow (some timedOutRun.log) timedOutRun.final.1 "i1").toOption.map
      fun report => report.finalReplayedNodeStates.get? "A") = some (some "Running") := by
    decide +kernel
  refine ⟨hrow, hreport, fun hagrees => ?_⟩
  have hsettles : settles "A" timedOutA = true := by decide +kernel
  obtain ⟨report, inst, s, hreplayed, hloaded, hs, htold⟩ :=
    hagrees "A" ⟨timedOutA, List.mem_cons_of_mem _ (List.mem_singleton_self _), hsettles⟩
  rw [show timedOutRun.id = "i1" from rfl] at hreplayed hloaded
  rw [hloaded] at hrow
  rw [hreplayed] at hreport
  have hfailed : s = .failed :=
    Option.some.inj (hs.symm.trans (Option.some.inj hrow))
  have hrunning : s.value = "Running" :=
    Option.some.inj (htold.symm.trans (Option.some.inj hreport))
  rw [hfailed] at hrunning
  exact absurd hrunning (by decide)

end Samples

end MollisRuntime.Observability
