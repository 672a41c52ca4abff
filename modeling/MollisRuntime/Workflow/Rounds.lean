import MollisRuntime.Workflow.Confluence

/-!
The event-driven orchestrator against the static plan. When events are
delivered in rounds, a round finishes exactly the nodes of one level of the
planner. Nodes of the next level may be dispatched before the round is over, but
at its end they are the RUNNING ones, as the planner's phases say.
-/
namespace MollisRuntime.Workflow

open Ordered Python Persistence Precedence

section Rounds
variable {d : WorkflowDefinition}

/-- One event for each node that is RUNNING when the round begins, in any order. -/
def IsRound (id : String) (o : Outcomes d) (c : Store × List Submission)
    (round : List (Env × Operation)) : Prop :=
  ∃ ns : List String, ns.Nodup ∧ (∀ n, n ∈ ns ↔ runningAt c.1 id n = true) ∧
    List.Forall₂ (Announces id o) round ns

def Rounds (id : String) (o : Outcomes d) :
    List (List (Env × Operation)) → Store × List Submission → Prop
  | [], _ => True
  | round :: rest, c =>
      IsRound id o c round ∧ Rounds id o rest (Machine.exec (Operation.step id) round c)

end Rounds

section Delivery
variable {d : WorkflowDefinition} {o : Outcomes d} {env : Env} {id n : String}
  {inst handled inst' : WorkflowInstance} {submitted : List Submission}

/-- A delivery finishes its node and no other. -/
theorem Delivery.doneAt_iff (h : Delivery id o env inst n handled inst' submitted) (v : String) :
    doneAt inst'.nodeStates v = true ↔ doneAt inst.nodeStates v = true ∨ v = n := by
  have hhandled : doneAt handled.nodeStates v = true ↔
      doneAt inst.nodeStates v = true ∨ v = n := by
    rw [h.spec.states, doneAt_set, (o.outcome n).isDone_state]
    by_cases hv : n = v
    · simp [hv]
    · simp [hv, Ne.symm hv]
  rw [← hhandled, ← nodeStates_completeIfDone env.now handled]
  cases h.passed with
  | idle _ => rfl
  | cut _ _ _ _ => rfl
  | through _ _ _ _ => rw [WorkflowInstance.doneAt_advanced]

/-- The other RUNNING nodes stay RUNNING. -/
theorem Delivery.running_of_ne (h : Delivery id o env inst n handled inst' submitted)
    {m : String} (hm : inst.nodeStates.get? m = some .running) (hne : m ≠ n) :
    inst'.nodeStates.get? m = some .running := by
  have hhandled : (completeIfDone env.now handled).nodeStates.get? m = some .running := by
    rw [nodeStates_completeIfDone, h.spec.states, Dict.get?_set_ne _ _ _ _ (Ne.symm hne)]
    exact hm
  cases h.passed with
  | idle _ => exact hhandled
  | cut _ _ _ _ => exact hhandled
  | through _ _ _ _ =>
    rw [WorkflowInstance.get?_advanced]
    split
    · rfl
    · exact hhandled

end Delivery

section Runs
variable {run : Run} {G : Dag String} {o : Outcomes run.definition}

/-- A round finishes the given nodes, which are RUNNING when it begins. -/
theorem finish_round (hG : GraphOf run.definition G) {round : List (Env × Operation)}
    {ns : List String} (hround : List.Forall₂ (Announces run.id o) round ns) (hnodup : ns.Nodup)
    {c : Store × List Submission} {inst : WorkflowInstance} (hholds : c.1.Holds inst)
    (hbelongs : Belongs run.definition run.id inst)
    (hinv : Delivered G o run.inputs inst (own run.id c.2))
    (hrunning : ∀ n ∈ ns, inst.nodeStates.get? n = some .running) :
    run.Has (fun inst' history => Delivered G o run.inputs inst' history ∧
      ∀ v, doneAt inst'.nodeStates v = true ↔ doneAt inst.nodeStates v = true ∨ v ∈ ns)
      (Machine.exec (Operation.step run.id) round c) := by
  induction hround generalizing c inst with
  | nil => exact ⟨inst, hholds, hbelongs, hinv, by simp⟩
  | @cons call n rest ns hcall _ ih =>
    obtain ⟨hn, hnodup'⟩ := List.nodup_cons.mp hnodup
    have hrunningAt : runningAt c.1 run.id n = true := by
      rw [← hbelongs.instanceId, runningAt_iff hholds]
      exact hrunning n (by simp)
    obtain ⟨handled, inst₁, hsaved, hbelongs₁, hdelivery, hinv₁⟩ :=
      Delivered.deliver hG hcall hrunningAt hholds hbelongs hinv
    have hrunning₁ : ∀ m ∈ ns, inst₁.nodeStates.get? m = some .running := by
      intro m hm
      exact hdelivery.running_of_ne (hrunning m (List.mem_cons_of_mem _ hm))
        (fun hmn => hn (hmn ▸ hm))
    rw [Machine.exec_cons]
    obtain ⟨inst', hholds', hbelongs', hinv', hdone'⟩ :=
      ih hnodup' (c := Machine.advance (Operation.step run.id) c call) hsaved hbelongs₁
        (by rw [Machine.advance, own_append]; exact hinv₁) hrunning₁
    refine ⟨inst', hholds', hbelongs', hinv', ?_⟩
    intro v
    rw [hdone' v, hdelivery.doneAt_iff v, List.mem_cons, or_assoc]

/-- After `k` rounds exactly the nodes below level `k` are done. -/
def LevelsDone (d : WorkflowDefinition) (levels : Dict String ℕ) (k : ℕ)
    (inst : WorkflowInstance) : Prop :=
  ∀ v ∈ d.graph.nodeIds, doneAt inst.nodeStates v = true ↔ Kahn.level levels v < k

/-- Then exactly the nodes of level `k` are RUNNING. -/
theorem running_iff_level (hG : GraphOf run.definition G) {levels : Dict String ℕ}
    (hlayers : Layering G (Kahn.level levels)) {k : ℕ} {inst : WorkflowInstance}
    {history : List Submission} (hbelongs : Belongs run.definition run.id inst)
    (hinv : Delivered G o run.inputs inst history) (hdone : LevelsDone run.definition levels k inst)
    {v : String} (hv : v ∈ run.definition.graph.nodeIds) :
    inst.nodeStates.get? v = some .running ↔ Kahn.level levels v = k := by
  obtain ⟨s, hs⟩ := (Dict.mem_keys_iff _ _).mp (hbelongs.tracked.covers v hv)
  rcases hinv.status with hrun | hsucceeded
  · have hlive := hinv.flowing (Or.inl hrun)
    have hactive := hlayers.active_iff G (marking inst.nodeStates) hlive.settled
      (hinv.disciplined.justified (Or.inl hrun)) k
      (fun u hu => by rw [marking_finished_iff]; exact hdone u (hG.nodes ▸ hu)) v (hG.nodes ▸ hv)
    rw [← hactive]
    have hhealthy := hlive.healthy v s hs
    unfold marking
    rw [hs]
    rcases hhealthy with rfl | rfl | hfinal
    · simp [NodeState.phase]
    · simp [NodeState.phase]
    · cases s <;> simp_all [NodeState.phase, NodeState.isDone]
  · have hfinal := hinv.sound.complete hsucceeded v s hs
    have hlt := (hdone v hv).mp (by rw [doneAt, hs]; exact hfinal)
    constructor
    · intro hrunning
      rw [hrunning] at hs
      cases hs
      simp [NodeState.isDone] at hfinal
    · intro heq
      omega

/-- A round moves the finished nodes up by one level. -/
theorem levels_done_round (hG : GraphOf run.definition G) {levels : Dict String ℕ}
    (hlayers : Layering G (Kahn.level levels)) {k : ℕ} {c : Store × List Submission}
    {round : List (Env × Operation)} (hround : IsRound run.id o c round)
    (h : run.Has (fun inst history => Delivered G o run.inputs inst history ∧
      LevelsDone run.definition levels k inst) c) :
    run.Has (fun inst history => Delivered G o run.inputs inst history ∧
      LevelsDone run.definition levels (k + 1) inst)
      (Machine.exec (Operation.step run.id) round c) := by
  obtain ⟨inst, hholds, hbelongs, hinv, hdone⟩ := h
  obtain ⟨ns, hnodup, hns, hevents⟩ := hround
  have hrunning : ∀ n, n ∈ ns ↔ inst.nodeStates.get? n = some .running := by
    intro n
    rw [hns n, ← hbelongs.instanceId, runningAt_iff hholds]
  obtain ⟨inst', hholds', hbelongs', hinv', hdone'⟩ :=
    finish_round hG hevents hnodup hholds hbelongs hinv (fun n hn => (hrunning n).mp hn)
  refine ⟨inst', hholds', hbelongs', hinv', ?_⟩
  intro v hv
  rw [hdone' v, hdone v hv, hrunning v, running_iff_level hG hlayers hbelongs hinv hdone hv]
  omega

theorem levels_done_rounds (hG : GraphOf run.definition G) {levels : Dict String ℕ}
    (hlayers : Layering G (Kahn.level levels)) {rounds : List (List (Env × Operation))}
    {k : ℕ} {c : Store × List Submission} (hrounds : Rounds run.id o rounds c)
    (h : run.Has (fun inst history => Delivered G o run.inputs inst history ∧
      LevelsDone run.definition levels k inst) c) :
    run.Has (fun inst history => Delivered G o run.inputs inst history ∧
      LevelsDone run.definition levels (k + rounds.length) inst)
      (Machine.exec (Operation.step run.id) rounds.flatten c) := by
  induction rounds generalizing k c with
  | nil => exact h
  | cons round rest ih =>
    rw [List.flatten_cons, Machine.exec_append, List.length_cons,
      show k + (rest.length + 1) = k + 1 + rest.length by omega]
    exact ih hrounds.2 (levels_done_round hG hlayers hrounds.1 h)

/-- Before the first round nothing is done. -/
theorem levels_done_started (hG : GraphOf run.definition G)
    (hne : run.definition.graph.nodeIds ≠ []) (hacc : run.env.Accepting)
    (hstarted : run.Started) (levels : Dict String ℕ) :
    run.Has (fun inst history => Delivered G o run.inputs inst history ∧
      LevelsDone run.definition levels 0 inst) run.started := by
  obtain ⟨inst, hload⟩ := hstarted
  refine (Run.keeps_started ?_).has hload
  intro p inst' submitted _ _ hpassed
  refine ⟨Delivered.start hpassed hacc hG hne, ?_⟩
  intro v _
  have hnot : doneAt inst'.nodeStates v = false := by
    cases hpassed with
    | idle _ => exact notDone_initial p v
    | cut _ _ _ _ => exact notDone_initial p v
    | through _ _ _ _ =>
      rw [WorkflowInstance.doneAt_advanced]
      exact notDone_initial p v
  simp [hnot]

/-- The instance has succeeded when the highest level is done. -/
theorem succeeded_iff_level {levels : Dict String ℕ}
    (hkeys : levels.keys = run.definition.graph.nodeIds)
    (hne : run.definition.graph.nodeIds ≠ []) {k : ℕ} {inst : WorkflowInstance}
    {history : List Submission} (hbelongs : Belongs run.definition run.id inst)
    (hinv : Delivered G o run.inputs inst history)
    (hdone : LevelsDone run.definition levels k inst) :
    inst.status = .succeeded ↔ WorkflowPlanner.maxLevel levels < k := by
  constructor
  · intro hs
    have hlevels : levels.keys ≠ [] := hkeys ▸ hne
    obtain ⟨v, hv, hlevel⟩ := WorkflowPlanner.exists_level_eq_max hlevels
    rw [hkeys] at hv
    obtain ⟨s, hget⟩ := (Dict.mem_keys_iff _ _).mp (hbelongs.tracked.covers v hv)
    have hlt := (hdone v hv).mp (by
      rw [doneAt, hget]
      exact hinv.sound.complete hs v s hget)
    omega
  · intro hle
    rcases hinv.status with hrun | hs
    · obtain ⟨v, hv, hnot⟩ := (hinv.flowing (Or.inl hrun)).unfinished
      have hbound := WorkflowPlanner.le_maxLevel levels v _
        (WorkflowPlanner.get_of_mem_keys (hkeys ▸ hv))
      rw [(hdone v hv).mpr (by omega)] at hnot
      contradiction
    · exact hs

/-- The nodes of phase `k` of the plan are those of level `k`. -/
theorem mem_phase_iff (levels : Dict String ℕ) (k : ℕ) (n : String) :
    (∃ phase, ((List.range (WorkflowPlanner.maxLevel levels + 1)).map fun l =>
        ({ nodeIds := WorkflowPlanner.levelNodes levels l, phaseIndex := l } :
          ExecutionPhase))[k]? = some phase ∧ n ∈ phase.nodeIds) ↔
      levels.get? n = some k := by
  constructor
  · rintro ⟨phase, hphase, hn⟩
    rw [List.getElem?_map, Option.map_eq_some_iff] at hphase
    obtain ⟨l, hl, rfl⟩ := hphase
    obtain ⟨_, hlk⟩ := List.getElem?_eq_some_iff.mp hl
    rw [List.getElem_range] at hlk
    subst hlk
    exact (WorkflowPlanner.mem_levelNodes _ _ _).mp hn
  · intro hn
    have hle := WorkflowPlanner.le_maxLevel levels n k hn
    refine ⟨{ nodeIds := WorkflowPlanner.levelNodes levels k, phaseIndex := k }, ?_,
      (WorkflowPlanner.mem_levelNodes _ _ _).mpr hn⟩
    rw [List.getElem?_map, List.getElem?_range (by omega)]
    rfl

end Runs

/-- After `k` rounds exactly the nodes of phase `k` of the plan are RUNNING,
and the instance has succeeded exactly when the last phase is completed. -/
theorem rounds_follow_plan (run : Run) (o : Outcomes run.definition)
    (hne : run.definition.graph.nodeIds ≠ []) (hacc : run.env.Accepting)
    (hstarted : run.Started) (rounds : List (List (Env × Operation)))
    (hcalls : run.calls = rounds.flatten) (hrounds : Rounds run.id o rounds run.started) :
    ∃ p inst, WorkflowPlanner.plan run.definition = .ok p ∧
      loadInstance run.final.1 run.id = .ok inst ∧
      (∀ n, inst.nodeStates.get? n = some .running ↔
        ∃ phase, p.phases[rounds.length]? = some phase ∧ n ∈ phase.nodeIds) ∧
      (inst.status = .succeeded ↔ p.phases.length ≤ rounds.length) ∧
      (inst.status = .running ↔ rounds.length < p.phases.length) := by
  obtain ⟨G, hG⟩ := run.accepted.exists_graph
  obtain ⟨levels, order, path, hleveled, hmem, hplan⟩ :=
    WorkflowPlanner.plan_ok run.accepted hne
  have hlayers := WorkflowPlanner.layering_of_leveled hG.nodes hG.edges hmem hleveled
  have hfinal := levels_done_rounds hG hlayers hrounds
    (levels_done_started hG hne hacc hstarted levels)
  rw [← hcalls, Nat.zero_add] at hfinal
  obtain ⟨inst, hload, hbelongs, hinv, hdone⟩ := Run.Has.load hfinal
  have hsucceeded := succeeded_iff_level hleveled.keys hne hbelongs hinv hdone
  refine ⟨_, inst, hplan, hload, ?_, ?_, ?_⟩
  · intro n
    rw [mem_phase_iff]
    by_cases hn : n ∈ run.definition.graph.nodeIds
    · rw [running_iff_level hG hlayers hbelongs hinv hdone hn,
        WorkflowPlanner.get_of_mem_keys (hleveled.keys ▸ hn), Option.some.injEq]
    · constructor
      · intro hrunning
        have hkey := (Dict.mem_keys_iff _ _).mpr ⟨_, hrunning⟩
        rw [hinv.reported.keys] at hkey
        exact absurd hkey hn
      · intro hlevel
        have hkey := (Dict.mem_keys_iff _ _).mpr ⟨_, hlevel⟩
        rw [hleveled.keys] at hkey
        exact absurd hkey hn
  · rw [hsucceeded, List.length_map, List.length_range]
    omega
  · rw [List.length_map, List.length_range]
    constructor
    · intro hrun
      by_contra hle
      rw [hsucceeded.mpr (by omega)] at hrun
      contradiction
    · intro hlt
      rcases hinv.status with hrun | hs
      · exact hrun
      · have hle := hsucceeded.mp hs
        omega

section Samples

theorem runningAt_of_entries {store : Store} {id : String} (entries : List (String × NodeState))
    (h : (loadInstance store id).toOption.map (fun i => i.nodeStates.entries) = some entries)
    (n : String) : runningAt store id n = true ↔ (n, .running) ∈ entries := by
  unfold runningAt
  cases hload : loadInstance store id with
  | error e => simp [hload, Except.toOption] at h
  | ok inst =>
    simp only [hload, Except.toOption, Option.map_some, Option.some.injEq] at h
    rw [decide_eq_true_eq, ← h, Dict.mem_entries_iff]

def chainCompleting : Run := completingRun chainDefinition chainDefinition_accepted ["A", "B"]

/-- A round of one completion, while its node is the only RUNNING one. -/
theorem isRound_completion {d : WorkflowDefinition} (c : Store × List Submission)
    (n : String) (hn : n ≠ "") (entries : List (String × NodeState))
    (h : (loadInstance c.1 "i1").toOption.map (fun i => i.nodeStates.entries) = some entries)
    (honly : ∀ m, (m, NodeState.running) ∈ entries ↔ m = n) :
    IsRound "i1" (allDone d) c [(laterEnv, .event (completion n))] := by
  refine ⟨[n], by simp, ?_, .cons ?_ .nil⟩
  · intro m
    rw [runningAt_of_entries entries h, honly, List.mem_singleton]
  · exact ⟨fun _ => rfl, completion n, rfl, nodeEvent_workflowInstanceId _ _ _ _ (by decide),
      nodeEvent_nodeId _ _ _ _ hn, rfl, nodeEvent_result _ _ _ _⟩

end Samples

/-- The chain in two rounds, one for each phase of its plan. -/
theorem chain_rounds :
    ∃ p inst, WorkflowPlanner.plan chainDefinition = .ok p ∧
      loadInstance chainCompleting.final.1 chainCompleting.id = .ok inst ∧
      (∀ n, inst.nodeStates.get? n = some .running ↔
        ∃ phase, p.phases[2]? = some phase ∧ n ∈ phase.nodeIds) ∧
      (inst.status = .succeeded ↔ p.phases.length ≤ 2) ∧
      (inst.status = .running ↔ 2 < p.phases.length) := by
  refine rounds_follow_plan chainCompleting (allDone chainDefinition) (by decide)
    (fun _ => rfl) ?_
    [[(laterEnv, .event (completion "A"))],
      [(laterEnv, .event (completion "B"))]] rfl ⟨?_, ?_, trivial⟩
  · exact Run.started_of_json (by decide +kernel) (by decide +kernel)
  · exact isRound_completion _ "A" (by decide) [("A", .running), ("B", .pending)]
      (by decide +kernel) (by simp)
  · exact isRound_completion _ "B" (by decide) [("A", .succeeded), ("B", .running)]
      (by decide +kernel) (by simp)

end MollisRuntime.Workflow
