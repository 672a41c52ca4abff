import MollisRuntime.Workflow.Replay

/-!
Stability of success. `on_runtime_event` asks for the status of the workflow but
not for the state of the node, so a late event overwrites a SUCCEEDED node. In a
run of events the successes are stable exactly if no event for a SUCCEEDED node
of the running workflow fails it or completes it with another result.
-/
namespace MollisRuntime.Workflow

open Ordered Python Persistence

/-- The persisted node has succeeded with this output. -/
def SucceededWith (store : Store) (id n : String) (output : Option Attrs) : Prop :=
  ∃ inst, loadInstance store id = .ok inst ∧ inst.nodeStates.get? n = some .succeeded ∧
    inst.nodeOutputs.get? n = output

namespace Run

/-- The rows and the accepted tasks after the first calls of the run. -/
def reached (run : Run) (calls : List (Env × Operation)) : Store × List Submission :=
  Machine.exec (Operation.step run.id) calls run.started

/-- A node of the graph that has succeeded keeps its state and its output. -/
def Stable (run : Run) : Prop :=
  ∀ before between later, run.calls = before ++ between ++ later →
    ∀ n ∈ run.definition.graph.nodeIds, ∀ output,
      SucceededWith (run.reached before).1 run.id n output →
        SucceededWith (run.reached (before ++ between)).1 run.id n output

end Run

/-- An event that finds its node SUCCEEDED in the running workflow is no
failure, and a completion brings the stored result, or one that is not JSON and
cannot be saved. -/
def Respects (id : String) (c : Store × List Submission) (call : Env × Operation) : Prop :=
  ∀ e inst n, call.2 = .event e → e.workflowInstanceId = some id → e.nodeId = some n →
    loadInstance c.1 id = .ok inst → inst.status = .running →
    n ∈ inst.definition.graph.nodeIds → inst.nodeStates.get? n = some .succeeded →
      e.isFailure = false ∧ (e.isCompletion = true → e.result.isJson = true →
        inst.nodeOutputs.get? n = some e.outputFrame)

section Steps

variable {env : Env} {inst inst' : WorkflowInstance} {n : String} {output : Option Attrs}

/-- Handling an event that respects the node. -/
theorem succeeded_handled {now nid : String} {handled : WorkflowInstance} {e : RuntimeEvent}
    (h : handleEvent now inst e nid = .ok handled)
    (hstate : inst.nodeStates.get? n = some .succeeded)
    (hrespects : nid = n → e.isFailure = false ∧
      (e.isCompletion = true → inst.nodeOutputs.get? n = some e.outputFrame)) :
    handled.nodeStates.get? n = some .succeeded ∧
      handled.nodeOutputs.get? n = inst.nodeOutputs.get? n := by
  rcases handleEvent_cases h with ⟨hc, rfl⟩ | ⟨_, hf, _, rfl⟩ | ⟨_, hf, _, rfl⟩ | ⟨_, rfl⟩
  · by_cases hn : nid = n
    · have hsame := (hrespects hn).2 hc
      subst hn
      exact ⟨Dict.get?_set_self _ _ _, by rw [Dict.get?_set_self, hsame]⟩
    · exact ⟨by rw [Dict.get?_set_ne _ _ _ _ hn]; exact hstate, Dict.get?_set_ne _ _ _ _ hn⟩
  · by_cases hn : nid = n
    · rw [(hrespects hn).1] at hf
      contradiction
    · exact ⟨by rw [Dict.get?_set_ne _ _ _ _ hn]; exact hstate, rfl⟩
  · by_cases hn : nid = n
    · rw [(hrespects hn).1] at hf
      contradiction
    · exact ⟨by rw [Dict.get?_set_ne _ _ _ _ hn]; exact hstate, rfl⟩
  · exact ⟨hstate, rfl⟩

/-- A completion that was saved brought a JSON result. -/
theorem isJson_result_of_saved {now : String} {handled : WorkflowInstance} {e : RuntimeEvent}
    {submitted : List Submission} (hhandled : handleEvent now inst e n = .ok handled)
    (hc : e.isCompletion = true) (hpassed : Passed env (completeIfDone now handled) inst' submitted)
    (hjson : inst'.toDict.isJson = true) : e.result.isJson = true := by
  unfold handleEvent at hhandled
  rw [if_pos hc] at hhandled
  cases hhandled
  have houtput := (hpassed.kept_handled (n := n) (by simp)).2
  rw [Dict.get?_set_self] at houtput
  have hframe := (inst'.isJson_toDict_iff.mp hjson).2 (n, e.outputFrame)
    ((Dict.mem_entries_iff _ _ _).mpr houtput)
  rw [isJson_encodeAttrs, RuntimeEvent.outputFrame_entries] at hframe
  simpa using hframe

/-- One event that respects the successes. -/
theorem Effect.succeeded {e : RuntimeEvent} {submitted : List Submission}
    (h : Effect env inst (.event e) inst' submitted) (hjson : inst'.toDict.isJson = true)
    (hstate : inst.nodeStates.get? n = some .succeeded)
    (hrespects : e.workflowInstanceId = some inst.instanceId → e.nodeId = some n →
      inst.status = .running → e.isFailure = false ∧ (e.isCompletion = true →
        e.result.isJson = true → inst.nodeOutputs.get? n = some e.outputFrame)) :
    inst'.nodeStates.get? n = some .succeeded ∧
      inst'.nodeOutputs.get? n = inst.nodeOutputs.get? n := by
  cases h with
  | none _ => exact ⟨hstate, rfl⟩
  | event _ nid handled _ _ hrun haddress hnode hhandled hpassed =>
    obtain ⟨hstate', houtput'⟩ := succeeded_handled hhandled hstate (by
      rintro rfl
      obtain ⟨hfailure, hcompletion⟩ := hrespects haddress hnode hrun
      exact ⟨hfailure, fun hc =>
        hcompletion hc (isJson_result_of_saved hhandled hc hpassed hjson)⟩)
    obtain ⟨hkept, houtput⟩ := hpassed.kept_handled (n := n) (by rw [hstate']; simp)
    exact ⟨hkept.trans hstate', houtput.trans houtput'⟩

end Steps

namespace Run

variable {run : Run}

theorem reached_append (before between : List (Env × Operation)) :
    run.reached (before ++ between) =
      Machine.exec (Operation.step run.id) between (run.reached before) :=
  Machine.exec_append _ before between _

theorem known_reached (calls : List (Env × Operation)) :
    run.Keeps run.Known (run.reached calls) :=
  Machine.exec_preserves (run.Keeps run.Known) (fun _ call hc => known_advance call hc)
    known_started calls

/-- An event of the run that respects the successes keeps each of them. -/
theorem succeeded_advance {c : Store × List Submission} {env : Env} {e : RuntimeEvent}
    (hknown : run.Keeps run.Known c) (hrespects : Respects run.id c (env, .event e)) {n : String}
    (hn : n ∈ run.definition.graph.nodeIds) {output : Option Attrs}
    (h : SucceededWith c.1 run.id n output) :
    SucceededWith (Machine.advance (Operation.step run.id) c (env, .event e)).1 run.id n
      output := by
  obtain ⟨inst, hload, hstate, houtput⟩ := h
  obtain ⟨hbelongs, _⟩ := hknown.of_load hload
  obtain ⟨hholds, hid⟩ := (loadInstance_eq_ok_iff _ _ _).mp hload
  obtain ⟨inst', hsaved, hid', heffect⟩ := perform_effect env c.1 (.event e) hholds
    (hbelongs.wellFormed run.accepted.closed)
  rw [hid] at hsaved hid' heffect
  obtain ⟨hstate', houtput'⟩ := heffect.succeeded hsaved.json hstate (by
    intro haddress hnode hrun
    rw [hid] at haddress
    exact hrespects e inst n rfl haddress hnode hload hrun (by rw [hbelongs.definition]; exact hn)
      hstate)
  exact ⟨inst', (loadInstance_eq_ok_iff _ _ _).mpr ⟨hsaved, hid'⟩, hstate',
    houtput'.trans houtput⟩

/-- A SUCCEEDED node whose event is handled and saved shows what the event made
of it. -/
theorem respects_of_kept {c : Store × List Submission} {env : Env} {op : Operation}
    (hknown : run.Keeps run.Known c)
    (hkept : ∀ n ∈ run.definition.graph.nodeIds, ∀ output, SucceededWith c.1 run.id n output →
      SucceededWith (Machine.advance (Operation.step run.id) c (env, op)).1 run.id n output) :
    Respects run.id c (env, op) := by
  rintro e inst n hop haddress hnode hload hrun hn hstate
  dsimp only at hop
  subst hop
  obtain ⟨hbelongs, _⟩ := hknown.of_load hload
  obtain ⟨hholds, hid⟩ := (loadInstance_eq_ok_iff _ _ _).mp hload
  have hn' : n ∈ run.definition.graph.nodeIds := by
    rw [← hbelongs.definition]
    exact hn
  -- if the event is handled and can be saved, the node has the state and the output it gives
  have hafter : e.isTerminal = true → (e.isCompletion = true → e.result.isJson = true) →
      terminalState inst.definition n e = .succeeded ∧
        inst.nodeOutputs.get? n =
          if completes n e = true then some e.outputFrame else inst.nodeOutputs.get? n := by
    intro hterminal hresult
    obtain ⟨handled, hhandled, hjson, happlied⟩ :=
      handleEvent_applied env.now hn hnode hterminal hholds.json hresult
    obtain ⟨inst', hsaved, hid', hpassed⟩ := onRuntimeEvent_handled env c.1 hholds
      (hbelongs.wellFormed run.accepted.closed) (by rw [haddress, hid]) hnode hrun hhandled hjson
    have hclosed : handled.nodeStates.get? n ≠ some .pending := by
      rw [happlied.states, Dict.get?_set_self]
      intro h
      exact terminalState_ne_pending _ _ _ (Option.some.inj h)
    obtain ⟨hstate', houtput'⟩ := hpassed.kept_handled hclosed
    obtain ⟨kept, hload', hkeptState, hkeptOutput⟩ :=
      hkept n hn' _ ⟨inst, hload, hstate, rfl⟩
    have hsame : loadInstance (Machine.advance (Operation.step run.id) c (env, .event e)).1
        run.id = .ok inst' :=
      (loadInstance_eq_ok_iff _ _ _).mpr ⟨hsaved, hid'.trans hid⟩
    rw [hsame] at hload'
    cases hload'
    rw [hstate', happlied.states, Dict.get?_set_self] at hkeptState
    rw [houtput', happlied.outputs] at hkeptOutput
    exact ⟨Option.some.inj hkeptState, hkeptOutput.symm⟩
  constructor
  · cases hf : e.isFailure with
    | false => rfl
    | true =>
      have hc : e.isCompletion = false := by
        cases hc : e.isCompletion with
        | false => rfl
        | true =>
          rw [RuntimeEvent.not_failure_of_completion hc] at hf
          contradiction
      obtain ⟨hstays, _⟩ := hafter (by simp [RuntimeEvent.isTerminal, hf]) (by simp [hc])
      unfold terminalState at hstays
      rw [if_neg (by simp [hc])] at hstays
      split at hstays <;> cases hstays
  · intro hc hresult
    obtain ⟨_, houtput⟩ := hafter (by simp [RuntimeEvent.isTerminal, hc]) (fun _ => hresult)
    rw [houtput, if_pos (by simp [completes, hnode, hc])]

end Run

/-- In a run of events the successes are stable exactly if every event respects
them. -/
theorem success_stable_iff (run : Run) (hevents : ∀ call ∈ run.calls, ∃ e, call.2 = .event e) :
    run.Stable ↔ run.Along (Respects run.id) := by
  constructor
  · intro hstable
    apply Machine.along_iff_splits.mpr
    intro before call later hcalls
    apply Run.respects_of_kept (Run.known_reached before)
    intro n hn output hsucceeded
    have hnext := hstable before [call] later (by rw [hcalls]; simp) n hn output hsucceeded
    rw [Run.reached_append] at hnext
    exact hnext
  · intro halong before between later hcalls n hn output hsucceeded
    have hbetween : Machine.Along (Operation.step run.id) (Respects run.id) between
        (run.reached before) := by
      unfold Run.Along at halong
      rw [hcalls, List.append_assoc, Machine.along_append, Machine.along_append] at halong
      exact halong.2.1
    have hbetweenEvents : ∀ call ∈ between, ∃ e, call.2 = .event e := by
      intro call hcall
      apply hevents
      rw [hcalls]
      simp [hcall]
    rw [Run.reached_append]
    have hboth : Machine.Along (Operation.step run.id)
        (fun c call => Respects run.id c call ∧ ∃ e, call.2 = .event e) between
        (run.reached before) := by
      apply Machine.along_iff_splits.mpr
      intro first call rest hsplit
      refine ⟨Machine.along_iff_splits.mp hbetween first call rest hsplit, ?_⟩
      exact hbetweenEvents call (by rw [hsplit]; simp)
    have hinv := Machine.exec_invariant
      (fun c => run.Keeps run.Known c ∧ SucceededWith c.1 run.id n output)
      (by
        rintro c ⟨env, op⟩ ⟨hknown, hkept⟩ ⟨hrespects, e, rfl⟩
        exact ⟨Run.known_advance _ hknown, Run.succeeded_advance hknown hrespects hn hkept⟩)
      ⟨Run.known_reached before, hsucceeded⟩ hboth
    exact hinv.2

section Samples

def completedFirst : RuntimeEvent := nodeEvent (.taskCompleted "i1_A") "i1" "A"

def startedLate : RuntimeEvent := nodeEvent (.taskStarted "i1_A") "i1" "A"

def timedOutLate : RuntimeEvent := nodeEvent (.taskTimedOut "i1_A") "i1" "A"

/-- The chain, started and then told these events. -/
def chainTold (events : List RuntimeEvent) : Run := chainRun (events.map .event)

theorem chainTold_events (events : List RuntimeEvent) :
    ∀ call ∈ (chainTold events).calls, ∃ e, call.2 = .event e := by
  intro call hcall
  obtain ⟨e, _, he⟩ := List.mem_map.mp (sampleRun_accepting hcall).2
  exact ⟨e, he.symm⟩

/-- The completion of A finds it RUNNING, and the late event is no result. -/
theorem chain_success_stable : (chainTold [completedFirst, startedLate]).Stable := by
  refine (success_stable_iff _ (chainTold_events _)).mpr ⟨?_, ?_, trivial⟩
  · rintro e inst n hop _ hnode hload _ _ hstate
    cases hop
    rw [completedFirst, nodeEvent_nodeId _ _ _ _ (by decide)] at hnode
    cases hnode
    obtain ⟨inst', hload', hrunning⟩ := exists_loaded
      (chainTold [completedFirst, startedLate]).started.1 "i1"
      (fun inst => inst.nodeStates.get? "A") (some .running) (by decide +kernel)
    have hsame := hload.symm.trans hload'
    cases hsame
    rw [hstate] at hrunning
    cases hrunning
  · rintro e inst n hop _ _ _ _ _ _
    cases hop
    exact ⟨rfl, fun hc => Bool.noConfusion hc⟩

/-- A has completed and B runs; then the timeout of A arrives. -/
theorem not_success_stable : ¬ ∀ run : Run,
    (∀ call ∈ run.calls, ∃ e, call.2 = .event e) → run.Stable := by
  intro h
  have hstable := h (chainTold [completedFirst, timedOutLate]) (chainTold_events _)
  obtain ⟨inst, hload, hsucceeded⟩ := exists_loaded
    ((chainTold [completedFirst, timedOutLate]).reached [(laterEnv, .event completedFirst)]).1 "i1"
    (fun inst => inst.nodeStates.get? "A") (some .succeeded) (by decide +kernel)
  obtain ⟨inst', hload', hstate, _⟩ := hstable [(laterEnv, .event completedFirst)]
    [(laterEnv, .event timedOutLate)] [] rfl "A" (by decide) _ ⟨inst, hload, hsucceeded, rfl⟩
  obtain ⟨inst'', hload'', hfailed⟩ := exists_loaded
    ((chainTold [completedFirst, timedOutLate]).reached
      ([(laterEnv, .event completedFirst)] ++ [(laterEnv, .event timedOutLate)])).1 "i1"
    (fun inst => inst.nodeStates.get? "A") (some .failed) (by decide +kernel)
  have hsame := hload'.symm.trans hload''
  cases hsame
  rw [hstate] at hfailed
  cases hfailed

end Samples

end MollisRuntime.Workflow
