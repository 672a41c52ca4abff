import MollisRuntime.Workflow.Agreement
import MollisRuntime.Workflow.Discipline

/-!
The events of an instance up to the end of its workflow. A terminal event that is
handled by then gives its node its last state; a later one is ignored, and its node
stays RUNNING. Only a failure ends a workflow that has a RUNNING node.
-/
namespace MollisRuntime.Workflow

open Ordered Python Persistence

/-- A failure that fails its workflow. -/
def endsWorkflow (d : WorkflowDefinition) (e : RuntimeEvent) : Bool :=
  match e.nodeId with
  | none => false
  | some n => e.isTerminal && failsHard d n e

/-- The events up to the first one that fails the workflow. -/
def untilEnd (d : WorkflowDefinition) : List RuntimeEvent → List RuntimeEvent
  | [] => []
  | e :: rest => if endsWorkflow d e then [e] else e :: untilEnd d rest

/-- The call is a started or a terminal event of the instance, and a terminal one
finds its node RUNNING. -/
def FindsRunning (id : String) (c : Store × List Submission) (call : Env × Operation) : Prop :=
  ∃ e, call.2 = .event e ∧ e.workflowInstanceId = some id ∧
    (e.isStart = true ∨
      e.isTerminal = true ∧ ∃ n, e.nodeId = some n ∧ runningAt c.1 id n = true)

/-- The instance after the events so far. -/
structure Settled (d : WorkflowDefinition) (seen : List RuntimeEvent) (inst : WorkflowInstance) :
    Prop where
  settled : ∀ n, ∀ e ∈ untilEnd d seen, settles n e = true →
    inst.nodeStates.get? n = some (terminalState d n e)
  once : ∀ n, ∀ e ∈ untilEnd d seen, settles n e = true →
    ∀ e' ∈ seen, settles n e' = true → e' = e
  late : ∀ n, ∀ e ∈ seen, settles n e = true → (∀ e' ∈ untilEnd d seen, settles n e' = false) →
    inst.nodeStates.get? n = some .running
  going : inst.status = .running → ∀ e ∈ seen, endsWorkflow d e = false
  stopped : inst.status ≠ .running →
    (∃ e ∈ seen, endsWorkflow d e = true) ∨ ∀ n, inst.nodeStates.get? n ≠ some .running

section Endings

variable {d : WorkflowDefinition} {seen : List RuntimeEvent} {e : RuntimeEvent}

theorem untilEnd_of_going (h : ∀ e ∈ seen, endsWorkflow d e = false) : untilEnd d seen = seen := by
  induction seen with
  | nil => rfl
  | cons e rest ih =>
    obtain ⟨hfirst, hrest⟩ := List.forall_mem_cons.mp h
    rw [untilEnd, hfirst, ih hrest]
    rfl

/-- An event counts unless the workflow has failed before. -/
theorem mem_untilEnd_concat {x : RuntimeEvent} : x ∈ untilEnd d (seen ++ [e]) ↔
    x ∈ untilEnd d seen ∨ x = e ∧ ∀ y ∈ seen, endsWorkflow d y = false := by
  induction seen with
  | nil =>
    rw [List.nil_append, untilEnd]
    cases endsWorkflow d e <;> simp [untilEnd]
  | cons y rest ih =>
    rw [List.cons_append, untilEnd, untilEnd]
    cases hends : endsWorkflow d y with
    | true => simp [hends]
    | false => simp [hends, ih, or_assoc]

theorem endsWorkflow_eq_of_settles {n : String} (h : settles n e = true) :
    endsWorkflow d e = failsHard d n e := by
  simp only [settles, Bool.and_eq_true, decide_eq_true_eq] at h
  simp [endsWorkflow, h.1, h.2]

theorem endsWorkflow_of_not_terminal (h : e.isTerminal = false) : endsWorkflow d e = false := by
  unfold endsWorkflow
  cases e.nodeId with
  | none => rfl
  | some n => simp [h]

end Endings

section Steps

variable {d : WorkflowDefinition} {seen : List RuntimeEvent} {e : RuntimeEvent}
  {inst inst' : WorkflowInstance}

/-- An event after the end. -/
theorem Settled.ignored (h : Settled d seen inst) (hstatus : inst.status ≠ .running)
    (hrunning : ∀ n, settles n e = true → inst.nodeStates.get? n = some .running) :
    Settled d (seen ++ [e]) inst := by
  have hover := h.stopped hstatus
  have hbefore : ∀ n, ∀ x ∈ untilEnd d (seen ++ [e]), settles n x = true →
      x ∈ untilEnd d seen := by
    intro n x hx hsettles
    rcases mem_untilEnd_concat.mp hx with hx | ⟨rfl, hgoing⟩
    · exact hx
    · rcases hover with ⟨y, hy, hends⟩ | hnone
      · rw [hgoing y hy] at hends
        cases hends
      · exact absurd (hrunning n hsettles) (hnone n)
  constructor
  · intro n x hx hsettles
    exact h.settled n x (hbefore n x hx hsettles) hsettles
  · intro n x hx hsettles x' hx' hsettles'
    have hold := hbefore n x hx hsettles
    rcases List.mem_append.mp hx' with hx' | hx'
    · exact h.once n x hold hsettles x' hx' hsettles'
    · rw [List.mem_singleton.mp hx'] at hsettles'
      have hstate := (h.settled n x hold hsettles).symm.trans (hrunning n hsettles')
      exact absurd (Option.some.inj hstate) (terminalState_ne_running d n x)
  · intro n x hx hsettles hnone
    rcases List.mem_append.mp hx with hx | hx
    · exact h.late n x hx hsettles fun x' hx' => hnone x' (mem_untilEnd_concat.mpr (.inl hx'))
    · rw [List.mem_singleton.mp hx] at hsettles
      exact hrunning n hsettles
  · exact fun hrun => absurd hrun hstatus
  · intro _
    rcases hover with ⟨y, hy, hends⟩ | hnone
    · exact .inl ⟨y, List.mem_append_left _ hy, hends⟩
    · exact .inr hnone

/-- An event of a running workflow. -/
theorem Settled.taken (h : Settled d seen inst) (hstatus : inst.status = .running)
    (hrunning : ∀ n, settles n e = true → inst.nodeStates.get? n = some .running)
    (hstates : ∀ n, settles n e = true → inst'.nodeStates.get? n = some (terminalState d n e))
    (hkept : ∀ n s, settles n e = false → s ≠ .pending → inst.nodeStates.get? n = some s →
      inst'.nodeStates.get? n = some s)
    (hgoing : inst'.status = .running → endsWorkflow d e = false)
    (hover : inst'.status ≠ .running →
      endsWorkflow d e = true ∨ ∀ n, inst'.nodeStates.get? n ≠ some .running) :
    Settled d (seen ++ [e]) inst' := by
  have hends := h.going hstatus
  have hseen : untilEnd d seen = seen := untilEnd_of_going hends
  have hmem {x : RuntimeEvent} : x ∈ untilEnd d (seen ++ [e]) ↔ x ∈ seen ∨ x = e := by
    rw [mem_untilEnd_concat, hseen]
    exact or_congr_right (and_iff_left hends)
  -- a node that the event settles was RUNNING, so no event before it settled it
  have hfirst : ∀ n, settles n e = true → ∀ x ∈ seen, settles n x = false := by
    intro n hsettles x hx
    by_contra hold
    have hstate := h.settled n x (hseen.symm ▸ hx) (Bool.eq_true_of_not_eq_false hold)
    exact terminalState_ne_running d n x (Option.some.inj (hstate.symm.trans (hrunning n hsettles)))
  have hsame : ∀ n, ∀ x, x ∈ seen ∨ x = e → settles n x = true → settles n e = true → x = e := by
    intro n x hx hsettles he
    rcases hx with hx | rfl
    · rw [hfirst n he x hx] at hsettles
      cases hsettles
    · rfl
  have hother : ∀ n, ∀ x, x ∈ seen ∨ x = e → settles n x = true → settles n e = false →
      x ∈ seen := by
    intro n x hx hsettles he
    rcases hx with hx | rfl
    · exact hx
    · rw [hsettles] at he
      cases he
  constructor
  · intro n x hx hsettles
    have hx := hmem.mp hx
    cases he : settles n e with
    | true => rw [hsame n x hx hsettles he, hstates n he]
    | false =>
      refine hkept n _ he (terminalState_ne_pending d n x) ?_
      exact h.settled n x (hseen.symm ▸ hother n x hx hsettles he) hsettles
  · intro n x hx hsettles x' hx' hsettles'
    have hx := hmem.mp hx
    have hx' : x' ∈ seen ∨ x' = e := (List.mem_append.mp hx').imp_right List.mem_singleton.mp
    cases he : settles n e with
    | true => rw [hsame n x hx hsettles he, hsame n x' hx' hsettles' he]
    | false =>
      exact h.once n x (hseen.symm ▸ hother n x hx hsettles he) hsettles x'
        (hother n x' hx' hsettles' he) hsettles'
  · intro n x hx hsettles hnone
    have hx : x ∈ seen ∨ x = e := (List.mem_append.mp hx).imp_right List.mem_singleton.mp
    rw [hnone x (hmem.mpr hx)] at hsettles
    cases hsettles
  · intro hrun x hx
    rcases List.mem_append.mp hx with hx | hx
    · exact hends x hx
    · rw [List.mem_singleton.mp hx]
      exact hgoing hrun
  · intro hstop
    refine (hover hstop).imp_left fun he => ⟨e, ?_, he⟩
    exact List.mem_append_right _ (List.mem_singleton_self e)

theorem Passed.startedAt {env : Env} {submitted : List Submission}
    (h : Passed env inst inst' submitted) : inst'.startedAt = inst.startedAt := by
  cases h <;> rfl

/-- A workflow that is over after it was RUNNING has failed, or no node is open. -/
theorem over_of_passed {env : Env} {handled : WorkflowInstance} {submitted : List Submission}
    (hpassed : Passed env (completeIfDone env.now handled) inst' submitted)
    (hover : inst'.status ≠ .running) :
    handled.status ≠ .running ∨ ∀ n, inst'.nodeStates.get? n ≠ some .running := by
  have hstopped : (completeIfDone env.now handled).status ≠ .running := hpassed.status ▸ hover
  cases hpassed with
  | cut _ hrun _ _ => exact absurd hrun hstopped
  | through _ hrun _ _ => exact absurd hrun hstopped
  | idle _ =>
    rcases completeIfDone_cases env.now handled with ⟨hclosed, -, heq⟩ | ⟨-, heq⟩
    · refine .inr fun n hn => ?_
      rw [heq] at hn
      have hopen := hclosed (n, .running) ((Dict.mem_entries_iff _ _ _).mpr hn)
      cases hopen
    · exact .inl (heq ▸ hstopped)

/-- Handling and dispatching together. -/
theorem Settled.passed {env : Env} {handled : WorkflowInstance} {submitted : List Submission}
    (h : Settled d seen inst) (hstatus : inst.status = .running)
    (hrunning : ∀ n, settles n e = true → inst.nodeStates.get? n = some .running)
    (hstates : ∀ n, handled.nodeStates.get? n =
      if settles n e = true then some (terminalState d n e) else inst.nodeStates.get? n)
    (hends : handled.status = .running ↔ endsWorkflow d e = false)
    (hpassed : Passed env (completeIfDone env.now handled) inst' submitted) :
    Settled d (seen ++ [e]) inst' := by
  have hkept {n : String} {s : NodeState} (hs : s ≠ .pending)
      (hn : handled.nodeStates.get? n = some s) : inst'.nodeStates.get? n = some s := by
    rw [(hpassed.kept_handled (by simp [hn, hs])).1]
    exact hn
  refine h.taken hstatus hrunning ?_ ?_ ?_ ?_
  · intro n hsettles
    exact hkept (terminalState_ne_pending d n e) ((hstates n).trans (if_pos hsettles))
  · intro n s hnot hs hn
    refine hkept hs ((hstates n).trans ?_)
    rw [hnot]
    exact hn
  · intro hrun
    apply hends.mp
    rcases completeIfDone_cases env.now handled with ⟨-, hrun', -⟩ | ⟨-, heq⟩
    · exact hrun'
    · rw [← heq, ← hpassed.status]
      exact hrun
  · intro hstop
    refine (over_of_passed hpassed hstop).imp_left fun hfailed => ?_
    exact Bool.eq_true_of_not_eq_false fun hnot => hfailed (hends.mpr hnot)

end Steps

section Handling

variable {d : WorkflowDefinition} {inst : WorkflowInstance} {e : RuntimeEvent} {n : String}

/-- Handling an event that names a node of the graph. -/
theorem handleEvent_settles (now : String) (hstatus : inst.status = .running)
    (hd : inst.definition = d) (hjson : inst.toDict.isJson = true) (he : e.isJson = true)
    (hnode : e.nodeId = some n) (hn : e.isTerminal = true → n ∈ d.graph.nodeIds) :
    ∃ handled, handleEvent now inst e n = .ok handled ∧ handled.toDict.isJson = true ∧
      (∀ m, handled.nodeStates.get? m =
        if settles m e = true then some (terminalState d m e) else inst.nodeStates.get? m) ∧
      (handled.status = .running ↔ endsWorkflow d e = false) := by
  cases hterminal : e.isTerminal with
  | true =>
    have hsettles : settles n e = true := by simp [settles, hnode, hterminal]
    obtain ⟨handled, hhandled, hsaved, happlied⟩ := handleEvent_applied now
      (show n ∈ inst.definition.graph.nodeIds from hd ▸ hn hterminal) hnode hterminal hjson
      fun _ => RuntimeEvent.isJson_result he
    refine ⟨handled, hhandled, hsaved, fun m => ?_, ?_⟩
    · rw [happlied.states, Dict.get?_set, hd]
      by_cases hnm : n = m
      · subst hnm
        rw [if_pos rfl, if_pos hsettles]
      · have hother : ¬ settles m e = true := by simp [settles, hnode, hnm]
        rw [if_neg hnm, if_neg hother]
    · rw [happlied.status, hd, endsWorkflow_eq_of_settles hsettles, hstatus]
      cases failsHard d n e <;> simp
  | false =>
    have hhandled : handleEvent now inst e n = .ok inst := by
      simp only [RuntimeEvent.isTerminal, Bool.or_eq_false_iff] at hterminal
      simp [handleEvent, hterminal.1, hterminal.2]
    refine ⟨inst, hhandled, hjson, fun m => ?_,
      iff_of_true hstatus (endsWorkflow_of_not_terminal hterminal)⟩
    have hnot : ¬ settles m e = true := by simp [settles, hterminal]
    rw [if_neg hnot]

end Handling

section Runs

variable {run : Run}

/-- One call: the row still holds an instance of the run that the events settle. -/
theorem settled_advance {c : Store × List Submission} {env : Env} {e : RuntimeEvent}
    {inst : WorkflowInstance} {seen : List RuntimeEvent} (hholds : c.1.Holds inst)
    (hbelongs : Belongs run.definition run.id inst) (h : Settled run.definition seen inst)
    (haddress : e.workflowInstanceId = some run.id)
    (hfinds : e.isTerminal = true → ∃ n, e.nodeId = some n ∧ runningAt c.1 run.id n = true)
    (hjson : e.isJson = true) :
    ∃ inst', (Machine.advance (Operation.step run.id) c (env, .event e)).1.Holds inst' ∧
      Belongs run.definition run.id inst' ∧ inst'.startedAt = inst.startedAt ∧
      Settled run.definition (seen ++ [e]) inst' := by
  have haddress' : e.workflowInstanceId = some inst.instanceId := by
    rw [haddress, hbelongs.instanceId]
  have hrunning : ∀ n, settles n e = true → inst.nodeStates.get? n = some .running := by
    intro n hsettles
    simp only [settles, Bool.and_eq_true, decide_eq_true_eq] at hsettles
    obtain ⟨m, hm, hrunningAt⟩ := hfinds hsettles.2
    obtain rfl := Option.some.inj (hsettles.1.symm.trans hm)
    rwa [← hbelongs.instanceId, runningAt_iff hholds] at hrunningAt
  -- the row is left alone where the event is not handled
  have hignored (hnot : ∀ n handled, e.nodeId = some n → inst.status = .running →
      handleEvent env.now inst e n = .ok handled → handled.toDict.isJson = false) :
      (Machine.advance (Operation.step run.id) c (env, .event e)).1.Holds inst := by
    obtain ⟨hstore, -⟩ := onRuntimeEvent_ignored env c.1 hholds haddress' hnot
    rw [Machine.advance, Operation.step, Operation.perform, hstore]
    exact hholds
  by_cases hstatus : inst.status = .running
  · cases hnode : e.nodeId with
    | none =>
      have hnot (m : String) : settles m e = false := by simp [settles, hnode]
      have hends : endsWorkflow run.definition e = false := by rw [endsWorkflow, hnode]
      refine ⟨inst, hignored fun n _ hn => ?_, hbelongs, rfl, ?_⟩
      · rw [hnode] at hn
        cases hn
      · refine h.taken hstatus hrunning (fun n hsettles => ?_) (fun _ _ _ _ hn => hn)
          (fun _ => hends) (fun hstop => absurd hstatus hstop)
        rw [hnot] at hsettles
        cases hsettles
    | some n =>
      have hn (hterminal : e.isTerminal = true) : n ∈ run.definition.graph.nodeIds :=
        hbelongs.tracked.open_mem n _ (hrunning n (by simp [settles, hnode, hterminal])) rfl
      obtain ⟨handled, hhandled, hsaved, hstates, hends⟩ :=
        handleEvent_settles env.now hstatus hbelongs.definition hholds.json hjson hnode hn
      obtain ⟨inst', hholds', -, hpassed⟩ := onRuntimeEvent_handled env c.1 hholds
        (hbelongs.wellFormed run.accepted.closed) haddress' hnode hstatus hhandled hsaved
      refine ⟨inst', hholds', hpassed.belongs (belongs_handled hhandled hbelongs), ?_,
        h.passed hstatus hrunning hstates hends hpassed⟩
      rw [hpassed.startedAt, (sameFrame_completeIfDone env.now handled).startedAt]
      exact (sameFrame_handleEvent hhandled).startedAt
  · exact ⟨inst, hignored fun _ _ _ hrun => absurd hrun hstatus, hbelongs, rfl,
      h.ignored hstatus hrunning⟩

/-- The row holds an instance that the events settle, or it was never written and no
event is terminal. -/
def SettledRow (run : Run) (events : List RuntimeEvent) (store : Store) : Prop :=
  (∃ inst, store.Holds inst ∧ Belongs run.definition run.id inst ∧
      inst.startedAt = run.env.now ∧ Settled run.definition events inst) ∨
    (store.rows.get? run.id = none ∧ ∀ e ∈ events, e.isTerminal = false)

theorem settledRow_started : SettledRow run [] run.started.1 := by
  have hkeeps : run.Keeps (fun inst _ => inst.status = .running ∧ inst.startedAt = run.env.now)
      run.started :=
    Run.keeps_started fun _ _ _ _ _ hpassed => ⟨hpassed.status, hpassed.startedAt⟩
  rcases hkeeps with ⟨inst, hholds, hbelongs, hrun, hstart⟩ | ⟨hrow, -⟩
  · refine .inl ⟨inst, hholds, hbelongs, hstart, ?_⟩
    constructor
    · exact fun _ _ hx => absurd hx List.not_mem_nil
    · exact fun _ _ hx => absurd hx List.not_mem_nil
    · exact fun _ _ hx => absurd hx List.not_mem_nil
    · exact fun _ _ hx => absurd hx List.not_mem_nil
    · exact fun hstop => absurd hrun hstop
  · exact .inr ⟨hrow, fun _ hx => absurd hx List.not_mem_nil⟩

/-- At the end of the run. -/
theorem settledRow_final (hevents : run.Along (FindsRunning run.id))
    (hjson : ∀ e ∈ eventsOf run.calls, e.isJson = true) :
    SettledRow run (eventsOf run.calls) run.final.1 := by
  have hcalls : ∀ call ∈ run.calls, ∀ e, call.2 = .event e → e.isJson = true := by
    rintro ⟨env, op⟩ hcall e rfl
    exact hjson e (List.mem_filterMap.mpr ⟨_, hcall, rfl⟩)
  have hfirst : SettledRow run (eventsOf []) run.started.1 := settledRow_started
  refine Machine.exec_tracks (fun seen c => SettledRow run (eventsOf seen) c.1) ?_ hfirst
    (Machine.Along.and_forall hevents hcalls)
  rintro seen c ⟨env, op⟩ hrow ⟨⟨e, hop, haddress, hfinds⟩, he⟩
  dsimp only at hop
  subst hop
  rw [eventsOf_concat]
  have hterminal (h : e.isTerminal = true) :
      ∃ n, e.nodeId = some n ∧ runningAt c.1 run.id n = true := by
    rcases hfinds with hstart | ⟨-, hfinds⟩
    · rw [RuntimeEvent.not_terminal_of_start hstart] at h
      cases h
    · exact hfinds
  rcases hrow with ⟨inst, hholds, hbelongs, hstart, hsettled⟩ | ⟨hnone, hnot⟩
  · obtain ⟨inst', hholds', hbelongs', hstart', hsettled'⟩ :=
      settled_advance hholds hbelongs hsettled haddress hterminal (he e rfl)
    exact .inl ⟨inst', hholds', hbelongs', hstart'.trans hstart, hsettled'⟩
  · refine .inr ⟨(perform_absent env c.1 (.event e) run.id hnone).1, ?_⟩
    intro x hx
    rcases List.mem_append.mp hx with hx | hx
    · exact hnot x hx
    · rw [List.mem_singleton.mp hx, Bool.eq_false_iff]
      intro h
      obtain ⟨n, -, hrunning⟩ := hterminal h
      obtain ⟨err, herr⟩ := loadInstance_of_none hnone
      simp [runningAt, herr] at hrunning

end Runs

end MollisRuntime.Workflow
