import MollisRuntime.Workflow.Runs

/-!
What replaying a window of events does to an instance. For each node only the
last terminal event that names it counts for its state, and only its last
completion for its output; the replay raises exactly when a failure names an
entry of the node states that is not a node of the graph.
-/
namespace MollisRuntime.Workflow

open Ordered Python Persistence

section Last
variable {α : Type}

/-- The last element with the property. -/
def lastWhere (p : α → Bool) (xs : List α) : Option α := xs.reverse.find? p

@[simp] theorem lastWhere_nil (p : α → Bool) : lastWhere p [] = none := rfl

theorem lastWhere_cons (p : α → Bool) (x : α) (xs : List α) :
    lastWhere p (x :: xs) = (lastWhere p xs).or (if p x then some x else none) := by
  unfold lastWhere
  rw [List.reverse_cons, List.find?_append]
  by_cases h : p x <;> simp [h]

theorem lastWhere_concat (p : α → Bool) (xs : List α) (x : α) :
    lastWhere p (xs ++ [x]) = if p x then some x else lastWhere p xs := by
  unfold lastWhere
  rw [List.reverse_append, List.reverse_singleton, List.singleton_append, List.find?_cons]
  cases p x <;> rfl

theorem lastWhere_eq_none_iff (p : α → Bool) (xs : List α) :
    lastWhere p xs = none ↔ ∀ x ∈ xs, p x = false := by
  simp [lastWhere]

theorem lastWhere_mem {p : α → Bool} {xs : List α} {x : α} (h : lastWhere p xs = some x) :
    x ∈ xs ∧ p x = true :=
  ⟨List.mem_reverse.mp (List.mem_of_find?_eq_some h), List.find?_some h⟩

/-- Leaving out others than the last one with the property. -/
theorem lastWhere_filter (p q : α → Bool) (xs : List α)
    (h : ∀ x, lastWhere p xs = some x → q x = true) :
    lastWhere p (xs.filter q) = lastWhere p xs := by
  induction xs with
  | nil => rfl
  | cons x rest ih =>
    rw [lastWhere_cons] at h ⊢
    cases hlast : lastWhere p rest with
    | some y =>
      rw [hlast, Option.some_or] at h
      have hrest := ih (fun z hz => h z (hlast ▸ hz))
      rw [hlast] at hrest
      by_cases hq : q x = true
      · rw [List.filter_cons_of_pos hq, lastWhere_cons, hrest]
      · rw [List.filter_cons_of_neg hq, hrest, Option.some_or]
    | none =>
      rw [hlast, Option.none_or] at h
      have hrest := ih (fun z hz => by rw [hlast] at hz; cases hz)
      rw [hlast] at hrest
      by_cases hq : q x = true
      · rw [List.filter_cons_of_pos hq, lastWhere_cons, hrest]
      · have hp : ¬ p x = true := fun hp => hq (h x (by rw [if_pos hp]))
        rw [List.filter_cons_of_neg hq, hrest, if_neg hp]
        rfl

end Last

/-- A terminal event that names the node. -/
def settles (n : String) (e : RuntimeEvent) : Bool :=
  decide (e.nodeId = some n) && e.isTerminal

def completes (n : String) (e : RuntimeEvent) : Bool :=
  decide (e.nodeId = some n) && e.isCompletion

/-- The state a terminal event gives its node. -/
def terminalState (d : WorkflowDefinition) (n : String) (e : RuntimeEvent) : NodeState :=
  if e.isCompletion then .succeeded
  else match failurePolicyAt d n with
    | .ok .ignore => .skipped
    | _ => .failed

/-- A failure whose policy is not to ignore it. -/
def failsHard (d : WorkflowDefinition) (n : String) (e : RuntimeEvent) : Bool :=
  decide (terminalState d n e = .failed)

theorem settles_of_completes {n : String} {e : RuntimeEvent} (h : completes n e = true) :
    settles n e = true := by
  simp only [completes, settles, Bool.and_eq_true] at h ⊢
  exact ⟨h.1, by simp [RuntimeEvent.isTerminal, h.2]⟩

theorem terminalState_ne_pending (d : WorkflowDefinition) (n : String) (e : RuntimeEvent) :
    terminalState d n e ≠ .pending := by
  unfold terminalState
  split
  · simp
  · split <;> simp

theorem terminalState_ne_running (d : WorkflowDefinition) (n : String) (e : RuntimeEvent) :
    terminalState d n e ≠ .running := by
  unfold terminalState
  split
  · simp
  · split <;> simp

theorem isOpen_terminalState (d : WorkflowDefinition) (n : String) (e : RuntimeEvent) :
    (terminalState d n e).isOpen = false := by
  unfold terminalState
  split
  · rfl
  · split <;> rfl

theorem terminalState_of_completion (d : WorkflowDefinition) (n : String) {e : RuntimeEvent}
    (h : e.isCompletion = true) : terminalState d n e = .succeeded := by
  simp [terminalState, h]

theorem terminalState_of_policy {d : WorkflowDefinition} {n : String} {e : RuntimeEvent}
    {policy : FailurePolicy} (h : e.isCompletion = false)
    (hpolicy : failurePolicyAt d n = .ok policy) :
    terminalState d n e = if policy = .ignore then .skipped else .failed := by
  unfold terminalState
  rw [if_neg (by simp [h]), hpolicy]
  cases policy <;> rfl

section Replay

/-- One event gives its node, if it is known and the event terminal, its state
and, if it completes, its output. -/
theorem applyEvent_get? {inst inst' : WorkflowInstance} {e : RuntimeEvent}
    (h : applyEventToInstance inst e = .ok inst') (n : String) :
    (inst'.nodeStates.get? n =
        if n ∈ inst.nodeStates.keys ∧ settles n e = true
        then some (terminalState inst.definition n e) else inst.nodeStates.get? n) ∧
      inst'.nodeOutputs.get? n =
        if n ∈ inst.nodeStates.keys ∧ completes n e = true
        then some e.outputFrame else inst.nodeOutputs.get? n := by
  rcases applyEvent_cases h with ⟨nid, hnid, hkey, hc, rfl⟩ |
    ⟨nid, policy, hnid, hkey, hc, hf, hpolicy, rfl⟩ | ⟨hnot, rfl⟩
  · have ht : e.isTerminal = true := by simp [RuntimeEvent.isTerminal, hc]
    by_cases hn : nid = n
    · subst hn
      simp [settles, completes, hnid, hkey, hc, ht, terminalState]
    · simp [settles, completes, hnid, Dict.get?_set, hn]
  · have ht : e.isTerminal = true := by simp [RuntimeEvent.isTerminal, hf]
    by_cases hn : nid = n
    · subst hn
      simp [settles, completes, hnid, hkey, hc, ht, terminalState_of_policy hc hpolicy]
    · simp [settles, completes, hnid, Dict.get?_set, hn]
  · constructor
    · rw [if_neg]
      rintro ⟨hkey, hs⟩
      simp only [settles, Bool.and_eq_true, decide_eq_true_eq] at hs
      rcases hnot n hs.1 with hout | ht
      · exact hout hkey
      · rw [hs.2] at ht
        contradiction
    · rw [if_neg]
      rintro ⟨hkey, hs⟩
      have hs' := settles_of_completes hs
      simp only [settles, Bool.and_eq_true, decide_eq_true_eq] at hs'
      rcases hnot n hs'.1 with hout | ht
      · exact hout hkey
      · rw [hs'.2] at ht
        contradiction

/-- The node's state after the window: what its last terminal event says. -/
def replayedState (inst : WorkflowInstance) (events : List RuntimeEvent) (n : String) :
    Option NodeState :=
  match lastWhere (settles n) events with
  | some e => some (terminalState inst.definition n e)
  | none => inst.nodeStates.get? n

/-- The node's output after the window: its last completion's. -/
def replayedOutput (inst : WorkflowInstance) (events : List RuntimeEvent) (n : String) :
    Option Attrs :=
  match lastWhere (completes n) events with
  | some e => some e.outputFrame
  | none => inst.nodeOutputs.get? n

theorem replayEvents_get? {inst inst' : WorkflowInstance} {events : List RuntimeEvent}
    (h : replayEvents inst events = .ok inst') (n : String) (hn : n ∈ inst.nodeStates.keys) :
    inst'.nodeStates.get? n = replayedState inst events n ∧
      inst'.nodeOutputs.get? n = replayedOutput inst events n := by
  induction events generalizing inst with
  | nil =>
    cases h
    exact ⟨rfl, rfl⟩
  | cons e rest ih =>
    unfold replayEvents at h
    cases hstep : applyEventToInstance inst e with
    | error err => simp [hstep] at h
    | ok mid =>
      simp only [hstep, ok_bind] at h
      obtain ⟨hframe, _, hkeys⟩ := applyEvent_frame hstep
      obtain ⟨hstate, houtput⟩ := applyEvent_get? hstep n
      obtain ⟨hstate', houtput'⟩ := ih h (by rw [hkeys]; exact hn)
      rw [hstate', houtput']
      unfold replayedState replayedOutput
      rw [lastWhere_cons, lastWhere_cons, hframe.definition, hstate, houtput]
      constructor
      · cases lastWhere (settles n) rest with
        | some last => rfl
        | none => by_cases hs : settles n e = true <;> simp [hs, hn]
      · cases lastWhere (completes n) rest with
        | some last => rfl
        | none => by_cases hs : completes n e = true <;> simp [hs, hn]

/-- The replay neither opens a node nor leaves one open that it settles. -/
theorem replayEvents_open_iff {inst inst' : WorkflowInstance} {events : List RuntimeEvent}
    (h : replayEvents inst events = .ok inst') (n : String) {s : NodeState}
    (hs : s = .pending ∨ s = .running) :
    inst'.nodeStates.get? n = some s ↔
      inst.nodeStates.get? n = some s ∧ ∀ e ∈ events, settles n e = false := by
  obtain ⟨_, _, hkeys, _⟩ := replayEvents_frame h
  by_cases hn : n ∈ inst.nodeStates.keys
  · rw [(replayEvents_get? h n hn).1, ← lastWhere_eq_none_iff]
    unfold replayedState
    cases hlast : lastWhere (settles n) events with
    | none => simp
    | some e =>
      have hne : terminalState inst.definition n e ≠ s := by
        rcases hs with rfl | rfl
        · exact terminalState_ne_pending _ _ _
        · exact terminalState_ne_running _ _ _
      simp [hne]
  · have hnone := (Dict.get?_eq_none_iff inst.nodeStates n).mpr hn
    have hnone' := (Dict.get?_eq_none_iff inst'.nodeStates n).mpr (hkeys ▸ hn)
    simp [hnone, hnone']

/-- Entries of the outputs that are no entries of the states are left alone. -/
theorem replayEvents_output_of_notMem {inst inst' : WorkflowInstance}
    {events : List RuntimeEvent} (h : replayEvents inst events = .ok inst') (n : String)
    (hn : n ∉ inst.nodeStates.keys) : inst'.nodeOutputs.get? n = inst.nodeOutputs.get? n := by
  induction events generalizing inst with
  | nil =>
    cases h
    rfl
  | cons e rest ih =>
    unfold replayEvents at h
    cases hstep : applyEventToInstance inst e with
    | error err => simp [hstep] at h
    | ok mid =>
      simp only [hstep, ok_bind] at h
      obtain ⟨_, _, hkeys⟩ := applyEvent_frame hstep
      rw [ih h (by rw [hkeys]; exact hn), (applyEvent_get? hstep n).2,
        if_neg (fun hc => hn hc.1)]

/-- A failure that names an entry outside the graph: its policy is looked up in
`graph.nodes` and is not there. -/
def Unresolvable (inst : WorkflowInstance) (e : RuntimeEvent) : Prop :=
  ∃ n, e.nodeId = some n ∧ n ∈ inst.nodeStates.keys ∧ e.isFailure = true ∧
    n ∉ inst.definition.graph.nodeIds

theorem applyEvent_ok_iff (inst : WorkflowInstance) (e : RuntimeEvent) :
    (∃ inst', applyEventToInstance inst e = .ok inst') ↔ ¬ Unresolvable inst e := by
  constructor
  · rintro ⟨inst', h⟩ ⟨n, hn, hkey, hf, hout⟩
    rcases applyEvent_cases h with ⟨nid, _, _, hc, _⟩ | ⟨nid, policy, hnid, _, _, _, hp, _⟩ |
      ⟨hnot, _⟩
    · rw [RuntimeEvent.not_failure_of_completion hc] at hf
      contradiction
    · rw [hn] at hnid
      cases hnid
      unfold failurePolicyAt at hp
      rw [(Dict.get?_eq_none_iff _ _).mpr hout] at hp
      contradiction
    · rcases hnot n hn with hkey' | ht
      · exact hkey' hkey
      · simp [RuntimeEvent.isTerminal, hf] at ht
  · intro h
    unfold applyEventToInstance
    cases hnid : e.nodeId with
    | none => exact ⟨_, rfl⟩
    | some n =>
      dsimp only
      split
      · exact ⟨_, rfl⟩
      · rename_i hkey
        split
        · exact ⟨_, rfl⟩
        · split
          · rename_i hf
            have hmem : n ∈ inst.definition.graph.nodeIds := by
              by_contra hout
              exact h ⟨n, hnid, by simpa using hkey, hf, hout⟩
            obtain ⟨node, hnode⟩ := (Dict.mem_keys_iff _ _).mp hmem
            unfold failurePolicyAt
            rw [hnode]
            simp only [ok_bind]
            split <;> exact ⟨_, rfl⟩
          · exact ⟨_, rfl⟩

theorem replayEvents_ok_iff (inst : WorkflowInstance) (events : List RuntimeEvent) :
    (∃ inst', replayEvents inst events = .ok inst') ↔ ∀ e ∈ events, ¬ Unresolvable inst e := by
  induction events generalizing inst with
  | nil => simp [replayEvents]
  | cons e rest ih =>
    unfold replayEvents
    rw [List.forall_mem_cons, ← applyEvent_ok_iff]
    cases hstep : applyEventToInstance inst e with
    | error err => simp
    | ok mid =>
      obtain ⟨hframe, _, hkeys⟩ := applyEvent_frame hstep
      have hsame : ∀ e', Unresolvable mid e' ↔ Unresolvable inst e' := by
        intro e'
        unfold Unresolvable
        rw [hkeys, hframe.definition]
      simp only [ok_bind, ih mid, hsame]
      simp

/-- Replaying JSON events keeps an instance saveable. -/
theorem isJson_replayEvents {inst inst' : WorkflowInstance} {events : List RuntimeEvent}
    (h : replayEvents inst events = .ok inst') (hjson : inst.toDict.isJson = true)
    (hevents : ∀ e ∈ events, e.isJson = true) : inst'.toDict.isJson = true := by
  obtain ⟨hframe, _, _, _⟩ := replayEvents_frame h
  obtain ⟨hdef, houtputs⟩ := inst.isJson_toDict_iff.mp hjson
  apply (WorkflowInstance.isJson_toDict_iff _).mpr
  refine ⟨by rw [hframe.definition]; exact hdef, ?_⟩
  rintro ⟨n, frame⟩ hn
  have hget := (Dict.mem_entries_iff _ _ _).mp hn
  by_cases hkey : n ∈ inst.nodeStates.keys
  · rw [(replayEvents_get? h n hkey).2] at hget
    unfold replayedOutput at hget
    cases hlast : lastWhere (completes n) events with
    | some e =>
      rw [hlast] at hget
      cases hget
      exact RuntimeEvent.isJson_outputFrame
        (RuntimeEvent.isJson_result (hevents e (lastWhere_mem hlast).1))
    | none =>
      rw [hlast] at hget
      exact houtputs (n, frame) ((Dict.mem_entries_iff _ _ _).mpr hget)
  · rw [replayEvents_output_of_notMem h n hkey] at hget
    exact houtputs (n, frame) ((Dict.mem_entries_iff _ _ _).mpr hget)

end Replay

section Live

/-- Storing a JSON result keeps an instance saveable. -/
theorem isJson_completed {inst : WorkflowInstance} (hjson : inst.toDict.isJson = true)
    (n : String) {e : RuntimeEvent} (he : e.result.isJson = true) :
    ({ inst with
      nodeStates := inst.nodeStates.set n .succeeded
      nodeOutputs := inst.nodeOutputs.set n e.outputFrame } :
        WorkflowInstance).toDict.isJson = true := by
  obtain ⟨hdef, houtputs⟩ := inst.isJson_toDict_iff.mp hjson
  apply (WorkflowInstance.isJson_toDict_iff _).mpr
  refine ⟨hdef, ?_⟩
  rintro ⟨m, frame⟩ hm
  have hget : (inst.nodeOutputs.set n e.outputFrame).get? m = some frame :=
    (Dict.mem_entries_iff _ _ _).mp hm
  rw [Dict.get?_set] at hget
  split at hget
  · cases hget
    exact RuntimeEvent.isJson_outputFrame he
  · exact houtputs (m, frame) ((Dict.mem_entries_iff _ _ _).mpr hget)

/-- What live handling makes of a terminal event: the state and the output that
the replay gives the node, and the workflow failing with it. -/
structure Applied (inst : WorkflowInstance) (e : RuntimeEvent) (n : String)
    (handled : WorkflowInstance) : Prop where
  states : handled.nodeStates = inst.nodeStates.set n (terminalState inst.definition n e)
  outputs : ∀ m, handled.nodeOutputs.get? m =
    if completes m e = true then some e.outputFrame else inst.nodeOutputs.get? m
  status : handled.status =
    if failsHard inst.definition n e = true then .failed else inst.status

/-- A terminal event of a node of the graph is handled. -/
theorem handleEvent_applied (now : String) {inst : WorkflowInstance} {e : RuntimeEvent}
    {n : String} (hn : n ∈ inst.definition.graph.nodeIds) (hnode : e.nodeId = some n)
    (hterminal : e.isTerminal = true) (hjson : inst.toDict.isJson = true)
    (hresult : e.isCompletion = true → e.result.isJson = true) :
    ∃ handled, handleEvent now inst e n = .ok handled ∧ handled.toDict.isJson = true ∧
      Applied inst e n handled := by
  cases hc : e.isCompletion with
  | true =>
    refine ⟨{ inst with
      nodeStates := inst.nodeStates.set n .succeeded
      nodeOutputs := inst.nodeOutputs.set n e.outputFrame }, ?_, ?_, ?_, ?_, ?_⟩
    · unfold handleEvent
      rw [if_pos hc]
    · exact isJson_completed hjson n (hresult hc)
    · rw [terminalState_of_completion _ _ hc]
    · intro m
      by_cases hnm : n = m
      · simp [completes, hnode, hc, hnm]
      · simp [completes, hnode, hnm, Dict.get?_set]
    · simp [failsHard, terminalState_of_completion _ _ hc]
  | false =>
    have hf : e.isFailure = true := by
      simpa [RuntimeEvent.isTerminal, hc] using hterminal
    obtain ⟨node, hget⟩ := (Dict.mem_keys_iff _ _).mp hn
    have hpolicy : failurePolicyAt inst.definition n =
        .ok (inst.definition.failureHandling node) := by
      unfold failurePolicyAt
      rw [hget]
    have hstate := terminalState_of_policy (e := e) hc hpolicy
    have hnone : ∀ m, completes m e = false := by
      intro m
      simp [completes, hc]
    by_cases hignore : inst.definition.failureHandling node = .ignore
    · rw [if_pos hignore] at hstate
      refine ⟨{ inst with nodeStates := inst.nodeStates.set n .skipped }, ?_, ?_, ?_, ?_, ?_⟩
      · unfold handleEvent
        rw [if_neg (by simp [hc]), if_pos hf, hpolicy, ok_bind, if_pos hignore]
        rfl
      · rw [← hjson]
        exact isJson_toDict_congr rfl rfl
      · rw [hstate]
      · intro m
        simp [hnone]
      · simp [failsHard, hstate]
    · rw [if_neg hignore] at hstate
      refine ⟨{ inst with
        nodeStates := inst.nodeStates.set n .failed
        status := .failed
        completedAt := some now }, ?_, ?_, ?_, ?_, ?_⟩
      · unfold handleEvent
        rw [if_neg (by simp [hc]), if_pos hf, hpolicy, ok_bind, if_neg hignore]
        rfl
      · rw [← hjson]
        exact isJson_toDict_congr rfl rfl
      · rw [hstate]
      · intro m
        simp [hnone]
      · simp [failsHard, hstate]

end Live

end MollisRuntime.Workflow
