import MollisRuntime.Workflow.Orchestrator

/-!
One dispatch pass. On a graph whose edges are closed, and with node states that
cover it, the loop submits the eligible nodes of the state it begins with, in
the order of the node states: marking a node RUNNING makes no other node
eligible. A pass that is not cut short leaves exactly those nodes RUNNING.
-/
namespace MollisRuntime.Workflow

open Ordered Python Persistence

section Rows

/-- The instance's row is its dump. -/
def Store.Holds (store : Store) (inst : WorkflowInstance) : Prop :=
  store.rows.get? inst.instanceId = some inst.toDict

/-- No row changed but the one of this id. -/
def Store.SameExcept (id : String) (store store' : Store) : Prop :=
  ∀ j, j ≠ id → store'.rows.get? j = store.rows.get? j

theorem Store.SameExcept.refl (id : String) (store : Store) : store.SameExcept id store :=
  fun _ _ => rfl

theorem Store.SameExcept.trans {id : String} {s₁ s₂ s₃ : Store} (h : s₁.SameExcept id s₂)
    (h' : s₂.SameExcept id s₃) : s₁.SameExcept id s₃ :=
  fun j hj => (h' j hj).trans (h j hj)

theorem loadInstance_eq_ok_iff (store : Store) (id : String) (inst : WorkflowInstance) :
    loadInstance store id = .ok inst ↔ store.Holds inst ∧ inst.instanceId = id := by
  unfold loadInstance Store.Holds
  constructor
  · intro h
    split at h
    · contradiction
    · rename_i row hrow
      obtain ⟨inst', hid, hdump⟩ := store.written id row hrow
      obtain ⟨_, rfl⟩ := (jsonPayload_eq_ok_iff _ _).mp hdump
      rw [inst'.decode_encode] at h
      cases h
      exact ⟨by rw [hid, hrow], hid⟩
  · rintro ⟨hrow, rfl⟩
    rw [hrow]
    exact inst.decode_encode

theorem Store.Holds.load {store : Store} {inst : WorkflowInstance} (h : store.Holds inst) :
    loadInstance store inst.instanceId = .ok inst :=
  (loadInstance_eq_ok_iff _ _ _).mpr ⟨h, rfl⟩

theorem Store.Holds.json {store : Store} {inst : WorkflowInstance} (h : store.Holds inst) :
    inst.toDict.isJson = true := by
  obtain ⟨inst', _, hdump⟩ := store.written _ _ h
  obtain ⟨hjson, hrow⟩ := (jsonPayload_eq_ok_iff _ _).mp hdump
  rw [hrow]
  exact hjson

theorem loadInstance_of_none {store : Store} {id : String} (h : store.rows.get? id = none) :
    ∃ e, loadInstance store id = .error e := by
  unfold loadInstance
  rw [h]
  exact ⟨_, rfl⟩

theorem checkpoint_ok (store : Store) {inst : WorkflowInstance}
    (h : inst.toDict.isJson = true) :
    ∃ store', checkpointWorkflow store inst = .ok store' ∧ store'.Holds inst ∧
      store.SameExcept inst.instanceId store' := by
  have hdump := jsonPayload_ok h
  refine ⟨store.replace inst inst.toDict hdump, ?_, ?_, ?_⟩
  · unfold checkpointWorkflow
    rw [jsonPayload_ok (inst.isJson_toDict_iff.mp h).1, ok_bind]
    split
    · rename_i e he
      rw [hdump] at he
      contradiction
    · rename_i row hrow
      have hsame : row = inst.toDict := ((jsonPayload_eq_ok_iff _ _).mp hrow).2
      subst hsame
      rfl
  · simp [Store.Holds, Store.replace]
  · intro j hj
    exact Dict.get?_set_ne _ _ _ _ (Ne.symm hj)

/-- A checkpoint is one write. -/
theorem checkpoint_rows {store store' : Store} {inst : WorkflowInstance}
    (h : checkpointWorkflow store inst = .ok store') :
    store'.rows = store.rows.set inst.instanceId inst.toDict := by
  unfold checkpointWorkflow at h
  cases hdef : jsonPayload inst.definition.toDict with
  | error e => simp [hdef] at h
  | ok _ =>
    rw [hdef, ok_bind] at h
    split at h
    · contradiction
    · rename_i row hrow
      cases h
      exact congrArg (store.rows.set inst.instanceId) ((jsonPayload_eq_ok_iff _ _).mp hrow).2

theorem checkpoint_error (store : Store) {inst : WorkflowInstance}
    (h : inst.toDict.isJson = false) : ∃ e, checkpointWorkflow store inst = .error e := by
  unfold checkpointWorkflow
  cases hdef : jsonPayload inst.definition.toDict with
  | error e => exact ⟨e, rfl⟩
  | ok _ =>
    rw [ok_bind]
    split
    · rename_i e _
      exact ⟨e, rfl⟩
    · rename_i row hrow
      have hjson := ((jsonPayload_eq_ok_iff _ _).mp hrow).1
      rw [h] at hjson
      contradiction

end Rows

section Inputs

theorem resolve_congr (input : NodeInput) {outputs outputs' : Dict String Attrs}
    (h : ∀ src, input.sourceNodeId = some src → src ≠ "" →
      outputs.get? src = outputs'.get? src) : input.resolve outputs = input.resolve outputs' := by
  unfold NodeInput.resolve
  cases hsrc : input.sourceNodeId with
  | none => rfl
  | some src =>
    by_cases hempty : src = ""
    · simp [hempty]
    · simp only [hempty, if_false, h src hsrc hempty]

/-- The resolved payload depends on the outputs of the mapped sources only. -/
theorem resolveNodeInputs_congr (node : GraphNode) {outputs outputs' : Dict String Attrs}
    (h : ∀ e ∈ node.dataMapping.inputMappings.entries, ∀ src, e.2.sourceNodeId = some src →
      src ≠ "" → outputs.get? src = outputs'.get? src) :
    resolveNodeInputs node outputs = resolveNodeInputs node outputs' := by
  unfold resolveNodeInputs
  generalize node.payload = resolved
  generalize node.dataMapping.inputMappings.entries = mappings at h
  induction mappings generalizing resolved with
  | nil => rfl
  | cons e rest ih =>
    rw [List.foldl_cons, List.foldl_cons, resolve_congr e.2 (h e (by simp))]
    exact ih _ (fun e' he' => h e' (List.mem_cons_of_mem _ he'))

/-- A task depends on the instance's id, its name and the mapped outputs. -/
theorem taskFor_congr {i j : WorkflowInstance} (hid : i.instanceId = j.instanceId)
    (hname : i.workflowName = j.workflowName)
    (houtputs : i.nodeOutputs.SameItems j.nodeOutputs) (n : String) (node : GraphNode) :
    taskFor i n node = taskFor j n node := by
  unfold taskFor
  rw [hid, hname, resolveNodeInputs_congr node (fun _ _ src _ _ => houtputs src)]

end Inputs

section Eligibility

/-- PENDING, with every parent SUCCEEDED or SKIPPED. -/
def eligible (graph : ExecutionGraph) (states : Dict String NodeState) (n : String) : Bool :=
  decide (states.get? n = some .pending) &&
    (Kahn.parents graph.edgePairs n).all (doneAt states)

def WorkflowInstance.eligibleNodes (inst : WorkflowInstance) : List String :=
  inst.nodeStates.keys.filter (eligible inst.definition.graph inst.nodeStates)

/-- The instance after a complete pass. -/
def WorkflowInstance.advanced (inst : WorkflowInstance) : WorkflowInstance :=
  { inst with
    nodeStates := inst.nodeStates.setAll (inst.eligibleNodes.map fun n => (n, .running)) }

/-- The node states cover the graph, and outside it nothing is open. -/
structure Tracked (graph : ExecutionGraph) (states : Dict String NodeState) : Prop where
  covers : ∀ n ∈ graph.nodeIds, n ∈ states.keys
  open_mem : ∀ n s, states.get? n = some s → s.isOpen = true → n ∈ graph.nodeIds

theorem Tracked.pending_mem {graph : ExecutionGraph} {states : Dict String NodeState}
    (h : Tracked graph states) (n : String) (hn : states.get? n = some .pending) :
    n ∈ graph.nodeIds :=
  h.open_mem n .pending hn rfl

theorem Tracked.set {graph : ExecutionGraph} {states : Dict String NodeState}
    (h : Tracked graph states) (n : String) (s : NodeState)
    (hs : s.isOpen = true → n ∈ graph.nodeIds) : Tracked graph (states.set n s) where
  covers m hm := (states.mem_keys_set n m s).mpr (Or.inr (h.covers m hm))
  open_mem m s' hm hopen := by
    rw [Dict.get?_set] at hm
    split at hm
    · rename_i hnm
      cases hm
      exact hnm ▸ hs hopen
    · exact h.open_mem m s' hm hopen

/-- The graph is closed and the node states cover it. -/
structure WorkflowInstance.WellFormed (inst : WorkflowInstance) : Prop where
  closed : inst.definition.graph.Closed
  tracked : Tracked inst.definition.graph inst.nodeStates

theorem eligible_iff (graph : ExecutionGraph) (states : Dict String NodeState) (n : String) :
    eligible graph states n = true ↔ states.get? n = some .pending ∧
      ∀ p, (p, n) ∈ graph.edgePairs → doneAt states p = true := by
  simp [eligible, Kahn.mem_parents]

theorem doneAt_set (states : Dict String NodeState) (n m : String) (s : NodeState) :
    doneAt (states.set n s) m = if n = m then s.isDone else doneAt states m := by
  unfold doneAt
  rw [Dict.get?_set]
  by_cases h : n = m
  · rw [if_pos h, if_pos h]
  · rw [if_neg h, if_neg h]

/-- Marking a PENDING node RUNNING finishes no node. -/
theorem doneAt_set_running {states : Dict String NodeState} {n : String}
    (h : states.get? n = some .pending) (m : String) :
    doneAt (states.set n .running) m = doneAt states m := by
  rw [doneAt_set]
  split
  · rename_i hnm
    subst hnm
    simp [doneAt, h, NodeState.isDone]
  · rfl

theorem eligible_set_running {graph : ExecutionGraph} {states : Dict String NodeState}
    {n m : String} (h : states.get? n = some .pending) (hne : n ≠ m) :
    eligible graph (states.set n .running) m = eligible graph states m := by
  have hdone : doneAt (states.set n .running) = doneAt states :=
    funext (doneAt_set_running h)
  unfold eligible
  rw [hdone, Dict.get?_set_ne _ _ _ _ hne]

theorem WorkflowInstance.mem_eligibleNodes (inst : WorkflowInstance) (n : String) :
    n ∈ inst.eligibleNodes ↔ eligible inst.definition.graph inst.nodeStates n = true := by
  unfold eligibleNodes
  rw [List.mem_filter]
  constructor
  · exact And.right
  · intro h
    exact ⟨(Dict.mem_keys_iff _ _).mpr ⟨_, ((eligible_iff _ _ _).mp h).1⟩, h⟩

theorem parentsReady_ok (states : Dict String NodeState) (ps : List String)
    (h : ∀ p ∈ ps, p ∈ states.keys) : parentsReady states ps = .ok (ps.all (doneAt states)) := by
  induction ps with
  | nil => rfl
  | cons p rest ih =>
    obtain ⟨s, hs⟩ := (states.mem_keys_iff p).mp (h p (by simp))
    have hrest := ih (fun q hq => h q (List.mem_cons_of_mem _ hq))
    have hdone : doneAt states p = s.isDone := by simp [doneAt, hs]
    cases hd : s.isDone <;> simp [parentsReady, hs, hd, hrest, hdone]

end Eligibility

section Loop

/-- What a pass over the given eligible nodes may hand to the scheduler: the
tasks of the first few of them, in order. -/
structure Handed (inst : WorkflowInstance) (nodes : List String)
    (submitted : List Submission) : Prop where
  order : submitted.map Submission.nodeId <+: nodes
  instanceId : ∀ s ∈ submitted, s.instanceId = inst.instanceId
  task : ∀ s ∈ submitted, ∃ node, inst.definition.graph.nodes.get? s.nodeId = some node ∧
    s.task = taskFor inst s.nodeId node
  doneAt : ∀ s ∈ submitted, ∀ n, doneAt s.nodeStates n = doneAt inst.nodeStates n

theorem Handed.nil (inst : WorkflowInstance) (nodes : List String) : Handed inst nodes [] where
  order := List.nil_prefix
  instanceId := by simp
  task := by simp
  doneAt := by simp

def WorkflowInstance.markRunning (inst : WorkflowInstance) (n : String) : WorkflowInstance :=
  { inst with nodeStates := inst.nodeStates.set n .running }

theorem WorkflowInstance.WellFormed.markRunning {inst : WorkflowInstance}
    (h : inst.WellFormed) {n : String} (hn : n ∈ inst.definition.graph.nodeIds) :
    (inst.markRunning n).WellFormed :=
  ⟨h.closed, h.tracked.set n .running fun _ => hn⟩

/-- The task of the visited node, before those of the later nodes. -/
theorem Handed.cons {inst : WorkflowInstance} {n : String} {node : GraphNode}
    {nodes : List String} {submitted : List Submission}
    (hpending : inst.nodeStates.get? n = some .pending)
    (hnode : inst.definition.graph.nodes.get? n = some node)
    (h : Handed (inst.markRunning n) nodes submitted) :
    Handed inst (n :: nodes)
      (⟨inst.instanceId, n, taskFor inst n node, (inst.markRunning n).nodeStates⟩ ::
        submitted) where
  order := by
    rw [List.map_cons]
    exact (List.prefix_cons_inj n).mpr h.order
  instanceId s hs := by
    rcases List.mem_cons.mp hs with rfl | hs
    · rfl
    · exact h.instanceId s hs
  task s hs := by
    rcases List.mem_cons.mp hs with rfl | hs
    · exact ⟨node, hnode, rfl⟩
    · exact h.task s hs
  doneAt s hs m := by
    rcases List.mem_cons.mp hs with rfl | hs
    · exact doneAt_set_running hpending m
    · rw [h.doneAt s hs m]
      exact doneAt_set_running hpending m

variable {env : Env} {deps : Dict String (List String)} {inst : WorkflowInstance}

/-- The dictionary of parents that the pass builds is right on the graph. -/
def DepsOf (graph : ExecutionGraph) (deps : Dict String (List String)) : Prop :=
  ∀ n ∈ graph.nodeIds, deps.get? n = some (Kahn.parents graph.edgePairs n)

theorem depsOf_closed {graph : ExecutionGraph} (h : graph.Closed) :
    ∃ deps, Kahn.parentsOf graph.emptyLists graph.edgePairs = .ok deps ∧ DepsOf graph deps := by
  obtain ⟨deps, hdeps, hget⟩ := Kahn.parentsOf_ok graph.edgePairs graph.emptyLists
    (fun u v huv => by rw [graph.keys_emptyLists]; exact (h u v huv).2)
  refine ⟨deps, hdeps, ?_⟩
  intro n hn
  simpa using hget n [] (Dict.get?_fromKeys graph.nodeIds [] graph.nodeIds_nodup n hn)

theorem parentsReady_parents (hwf : inst.WellFormed) (n : String) :
    parentsReady inst.nodeStates (Kahn.parents inst.definition.graph.edgePairs n) =
      .ok ((Kahn.parents inst.definition.graph.edgePairs n).all (doneAt inst.nodeStates)) := by
  apply parentsReady_ok
  intro p hp
  exact hwf.tracked.covers p (hwf.closed p n ((Kahn.mem_parents _ _ _).mp hp)).1

theorem dispatchLoop_skip (hwf : inst.WellFormed)
    (hdeps : DepsOf inst.definition.graph deps) (n : String) (rest : List String)
    (h : eligible inst.definition.graph inst.nodeStates n = false) :
    dispatchLoop env deps (n :: rest) inst = dispatchLoop env deps rest inst := by
  rw [dispatchLoop]
  split
  · rename_i hpending
    have hall : (Kahn.parents inst.definition.graph.edgePairs n).all
        (doneAt inst.nodeStates) = false := by
      simpa [eligible, hpending] using h
    rw [hdeps n (hwf.tracked.pending_mem n hpending)]
    simp only [parentsReady_parents hwf, hall]
  · rfl

theorem dispatchLoop_submit (hwf : inst.WellFormed)
    (hdeps : DepsOf inst.definition.graph deps) (n : String) (rest : List String)
    {node : GraphNode} (hnode : inst.definition.graph.nodes.get? n = some node)
    (h : eligible inst.definition.graph inst.nodeStates n = true) :
    dispatchLoop env deps (n :: rest) inst =
      match env.schedule (taskFor inst n node) with
      | .error e => ([], .error e)
      | .ok () =>
        let later := dispatchLoop env deps rest (inst.markRunning n)
        (⟨inst.instanceId, n, taskFor inst n node, (inst.markRunning n).nodeStates⟩ :: later.1,
          later.2) := by
  have hpending := ((eligible_iff _ _ _).mp h).1
  have hall : (Kahn.parents inst.definition.graph.edgePairs n).all
      (doneAt inst.nodeStates) = true := by
    simpa [eligible, hpending] using h
  rw [dispatchLoop]
  simp only [hpending, hdeps n (hwf.tracked.pending_mem n hpending), parentsReady_parents hwf,
    hall, hnode]
  rfl

theorem dispatchLoop_none (hwf : inst.WellFormed)
    (hdeps : DepsOf inst.definition.graph deps) (ns : List String)
    (h : ∀ n, eligible inst.definition.graph inst.nodeStates n = false) :
    dispatchLoop env deps ns inst = ([], .ok inst) := by
  induction ns with
  | nil => rfl
  | cons n rest ih => rw [dispatchLoop_skip hwf hdeps n rest (h n), ih]

/-- The whole loop: a first part of the eligible nodes is handed over, and all
of them unless the scheduler raises. -/
theorem dispatchLoop_spec (env : Env) (inst : WorkflowInstance)
    (hwf : inst.WellFormed)
    (hdeps : DepsOf inst.definition.graph deps) (ns : List String) (hnodup : ns.Nodup) :
    Handed inst (ns.filter (eligible inst.definition.graph inst.nodeStates))
        (dispatchLoop env deps ns inst).1 ∧
      ((∃ e, (dispatchLoop env deps ns inst).2 = .error e ∧ ¬ env.Accepting) ∨
        (dispatchLoop env deps ns inst).2 = .ok { inst with
            nodeStates := inst.nodeStates.setAll
              ((ns.filter (eligible inst.definition.graph inst.nodeStates)).map
                fun n => (n, .running)) } ∧
          (dispatchLoop env deps ns inst).1.map Submission.nodeId =
            ns.filter (eligible inst.definition.graph inst.nodeStates)) := by
  induction ns generalizing inst with
  | nil => exact ⟨Handed.nil _ _, Or.inr ⟨rfl, rfl⟩⟩
  | cons n rest ih =>
    obtain ⟨hn, hrest⟩ := List.nodup_cons.mp hnodup
    cases he : eligible inst.definition.graph inst.nodeStates n with
    | false =>
      rw [dispatchLoop_skip hwf hdeps n rest he, List.filter_cons_of_neg (by simp [he])]
      exact ih inst hwf hdeps hrest
    | true =>
      have hpending := ((eligible_iff _ _ _).mp he).1
      obtain ⟨node, hnode⟩ := (Dict.mem_keys_iff _ _).mp (hwf.tracked.pending_mem n hpending)
      rw [dispatchLoop_submit hwf hdeps n rest hnode he,
        List.filter_cons_of_pos (by simp [he])]
      cases hschedule : env.schedule (taskFor inst n node) with
      | error e =>
        refine ⟨Handed.nil _ _, Or.inl ⟨e, rfl, ?_⟩⟩
        intro hacc
        rw [hacc] at hschedule
        contradiction
      | ok _ =>
        have hfilter : rest.filter (eligible inst.definition.graph
            (inst.markRunning n).nodeStates) =
            rest.filter (eligible inst.definition.graph inst.nodeStates) := by
          apply List.filter_congr
          intro m hm
          exact eligible_set_running hpending (fun hnm => hn (hnm ▸ hm))
        obtain ⟨hhanded, hresult⟩ := ih (inst.markRunning n)
          (hwf.markRunning (hwf.tracked.pending_mem n hpending)) hdeps hrest
        rw [show (inst.markRunning n).definition.graph = inst.definition.graph from rfl,
          hfilter] at hhanded hresult
        refine ⟨hhanded.cons hpending hnode, ?_⟩
        rcases hresult with ⟨e, herr, hacc⟩ | ⟨hok, hall⟩
        · exact Or.inl ⟨e, herr, hacc⟩
        · refine Or.inr ⟨hok, ?_⟩
          rw [List.map_cons, hall]

/-- The loop ends without an exception if the scheduler takes all the tasks. -/
theorem dispatchLoop_ok_iff (env : Env) (inst : WorkflowInstance)
    (hwf : inst.WellFormed)
    (hdeps : DepsOf inst.definition.graph deps) (ns : List String) (hnodup : ns.Nodup) :
    (∃ inst', (dispatchLoop env deps ns inst).2 = .ok inst') ↔
      ∀ n ∈ ns, eligible inst.definition.graph inst.nodeStates n = true →
        ∀ node, inst.definition.graph.nodes.get? n = some node →
          env.schedule (taskFor inst n node) = .ok () := by
  induction ns generalizing inst with
  | nil => simp [dispatchLoop]
  | cons n rest ih =>
    obtain ⟨hn, hrest⟩ := List.nodup_cons.mp hnodup
    rw [List.forall_mem_cons]
    cases he : eligible inst.definition.graph inst.nodeStates n with
    | false =>
      rw [dispatchLoop_skip hwf hdeps n rest he, ih inst hwf hdeps hrest]
      simp
    | true =>
      have hpending := ((eligible_iff _ _ _).mp he).1
      obtain ⟨node, hnode⟩ := (Dict.mem_keys_iff _ _).mp (hwf.tracked.pending_mem n hpending)
      rw [dispatchLoop_submit hwf hdeps n rest hnode he]
      cases hschedule : env.schedule (taskFor inst n node) with
      | error e =>
        refine iff_of_false (by rintro ⟨_, h⟩; cases h) ?_
        intro hall
        rw [hall.1 rfl node hnode] at hschedule
        cases hschedule
      | ok _ =>
        have hlater := ih (inst.markRunning n)
          (hwf.markRunning (hwf.tracked.pending_mem n hpending)) hdeps hrest
        refine hlater.trans ?_
        have hfirst : ∀ node', inst.definition.graph.nodes.get? n = some node' →
            env.schedule (taskFor inst n node') = .ok () := by
          intro node' hnode'
          rw [hnode] at hnode'
          cases hnode'
          exact hschedule
        have hsame : ∀ m ∈ rest, eligible inst.definition.graph
            (inst.markRunning n).nodeStates m = eligible inst.definition.graph inst.nodeStates m :=
          fun m hm => eligible_set_running hpending (fun hnm => hn (hnm ▸ hm))
        constructor
        · intro hall
          exact ⟨fun _ => hfirst, fun m hm hem => hall m hm ((hsame m hm).trans hem)⟩
        · intro hall m hm hem
          exact hall.2 m hm ((hsame m hm).symm.trans hem)

end Loop

section Pass

variable (inst : WorkflowInstance)

theorem WorkflowInstance.get?_advanced (n : String) : inst.advanced.nodeStates.get? n =
    if eligible inst.definition.graph inst.nodeStates n then some .running
    else inst.nodeStates.get? n := by
  unfold advanced
  rw [Dict.get?_setAll_const]
  simp only [inst.mem_eligibleNodes]

/-- A pass only changes PENDING nodes. -/
theorem WorkflowInstance.get?_advanced_of_ne {n : String}
    (h : inst.nodeStates.get? n ≠ some .pending) :
    inst.advanced.nodeStates.get? n = inst.nodeStates.get? n := by
  rw [inst.get?_advanced, if_neg]
  intro he
  exact h ((eligible_iff _ _ _).mp he).1

theorem WorkflowInstance.keys_advanced : inst.advanced.nodeStates.keys = inst.nodeStates.keys := by
  apply Dict.keys_setAll_of_subset
  intro e he
  obtain ⟨n, hn, rfl⟩ := List.mem_map.mp he
  exact (List.mem_filter.mp hn).1

theorem WorkflowInstance.doneAt_advanced (n : String) :
    doneAt inst.advanced.nodeStates n = doneAt inst.nodeStates n := by
  unfold doneAt
  rw [inst.get?_advanced]
  by_cases h : eligible inst.definition.graph inst.nodeStates n
  · rw [if_pos h, ((eligible_iff _ _ _).mp h).1]
    rfl
  · rw [if_neg h]

/-- A pass leaves nothing to submit. -/
theorem WorkflowInstance.eligible_advanced (n : String) :
    eligible inst.definition.graph inst.advanced.nodeStates n = false := by
  rw [Bool.eq_false_iff]
  intro h
  obtain ⟨hpending, hparents⟩ := (eligible_iff _ _ _).mp h
  rw [inst.get?_advanced] at hpending
  split at hpending
  · cases hpending
  · rename_i hnot
    apply hnot
    apply (eligible_iff _ _ _).mpr
    exact ⟨hpending, fun p hp => by rw [← inst.doneAt_advanced]; exact hparents p hp⟩

theorem WorkflowInstance.tracked_advanced
    (h : Tracked inst.definition.graph inst.nodeStates) :
    Tracked inst.definition.graph inst.advanced.nodeStates where
  covers n hn := by
    rw [inst.keys_advanced]
    exact h.covers n hn
  open_mem n s hn hopen := by
    rw [inst.get?_advanced] at hn
    split at hn
    · rename_i he
      exact h.pending_mem n ((eligible_iff _ _ _).mp he).1
    · exact h.open_mem n s hn hopen

/-- Whether an instance can be saved does not depend on its states. -/
theorem isJson_toDict_congr {i j : WorkflowInstance} (hd : i.definition = j.definition)
    (ho : i.nodeOutputs = j.nodeOutputs) : i.toDict.isJson = j.toDict.isJson := by
  rw [Bool.eq_iff_iff, i.isJson_toDict_iff, j.isJson_toDict_iff, hd, ho]

theorem dispatch_idle (env : Env) (store : Store) {inst : WorkflowInstance}
    (h : inst.status ≠ .running) :
    dispatchEligibleNodes env store inst = { store, result := .ok inst } := by
  unfold dispatchEligibleNodes
  rw [if_pos h]

/-- A pass that finds nothing to submit only saves the instance again. -/
theorem dispatch_quiet (env : Env) {store store' : Store} {inst : WorkflowInstance}
    (hrun : inst.status = .running) (hwf : inst.WellFormed)
    (h : ∀ n, eligible inst.definition.graph inst.nodeStates n = false)
    (hstore : checkpointWorkflow store inst = .ok store') :
    dispatchEligibleNodes env store inst = { store := store', result := .ok inst } := by
  obtain ⟨deps, hdeps, hget⟩ := depsOf_closed hwf.closed
  unfold dispatchEligibleNodes
  simp only [hrun, ne_eq, not_true_eq_false, if_false, hdeps,
    dispatchLoop_none hwf hget _ h, hstore]

/-- The pass of a running instance. It is cut short by the scheduler or by a
checkpoint that cannot be written, or it saves the advanced instance. -/
theorem dispatch_spec (env : Env) (store : Store) {inst : WorkflowInstance}
    (hrun : inst.status = .running) (hwf : inst.WellFormed) :
    Handed inst inst.eligibleNodes (dispatchEligibleNodes env store inst).submitted ∧
      ((∃ e, (dispatchEligibleNodes env store inst).result = .error e ∧
          (dispatchEligibleNodes env store inst).store = store ∧
          (env.Accepting → inst.toDict.isJson = false)) ∨
        ((dispatchEligibleNodes env store inst).result = .ok inst.advanced ∧
          (dispatchEligibleNodes env store inst).store.Holds inst.advanced ∧
          store.SameExcept inst.instanceId (dispatchEligibleNodes env store inst).store ∧
          inst.toDict.isJson = true ∧
          (dispatchEligibleNodes env store inst).submitted.map Submission.nodeId =
            inst.eligibleNodes)) := by
  obtain ⟨deps, hdeps, hget⟩ := depsOf_closed hwf.closed
  obtain ⟨hhanded, hresult⟩ := dispatchLoop_spec env inst hwf hget
    inst.nodeStates.keys inst.nodeStates.nodup_keys'
  rw [← WorkflowInstance.eligibleNodes] at hhanded hresult
  rw [← WorkflowInstance.advanced] at hresult
  have hjson : inst.advanced.toDict.isJson = inst.toDict.isJson := isJson_toDict_congr rfl rfl
  unfold dispatchEligibleNodes
  simp only [hrun, ne_eq, not_true_eq_false, if_false, hdeps]
  cases hloop : dispatchLoop env deps inst.nodeStates.keys inst with
  | mk submitted result =>
    rw [hloop] at hhanded hresult
    rcases hresult with ⟨e, herr, hacc⟩ | ⟨hok, hall⟩
    · dsimp only at herr
      subst herr
      exact ⟨hhanded, Or.inl ⟨e, rfl, rfl, fun h => absurd h hacc⟩⟩
    · dsimp only at hok
      subst hok
      cases hj : inst.toDict.isJson with
      | false =>
        obtain ⟨e, he⟩ := checkpoint_error store (hjson.trans hj)
        simp only [he]
        exact ⟨hhanded, Or.inl ⟨e, by simp⟩⟩
      | true =>
        obtain ⟨store', hstore, hholds, hsame⟩ := checkpoint_ok store (hjson.trans hj)
        simp only [hstore]
        exact ⟨hhanded, Or.inr ⟨by simp, hholds, hsame, by simp, hall⟩⟩

/-- The scheduler takes the task of every eligible node. -/
def Env.Takes (env : Env) (inst : WorkflowInstance) : Prop :=
  ∀ n ∈ inst.eligibleNodes, ∀ node, inst.definition.graph.nodes.get? n = some node →
    env.schedule (taskFor inst n node) = .ok ()

/-- The pass of a running instance that can be saved returns exactly if the
scheduler takes its tasks. -/
theorem dispatch_isOk_iff (env : Env) (store : Store) {inst : WorkflowInstance}
    (hrun : inst.status = .running) (hwf : inst.WellFormed) (hjson : inst.toDict.isJson = true) :
    (dispatchEligibleNodes env store inst).result.isOk = true ↔ env.Takes inst := by
  obtain ⟨deps, hdeps, hget⟩ := depsOf_closed hwf.closed
  have hiff := dispatchLoop_ok_iff env inst hwf hget inst.nodeStates.keys
    inst.nodeStates.nodup_keys'
  have htakes : env.Takes inst ↔ ∀ n ∈ inst.nodeStates.keys,
      eligible inst.definition.graph inst.nodeStates n = true →
        ∀ node, inst.definition.graph.nodes.get? n = some node →
          env.schedule (taskFor inst n node) = .ok () := by
    unfold Env.Takes WorkflowInstance.eligibleNodes
    simp only [List.mem_filter, and_imp]
  rw [htakes, ← hiff]
  obtain ⟨_, hresult⟩ := dispatchLoop_spec env inst hwf hget
    inst.nodeStates.keys inst.nodeStates.nodup_keys'
  unfold dispatchEligibleNodes
  simp only [hrun, ne_eq, not_true_eq_false, if_false, hdeps]
  cases hloop : dispatchLoop env deps inst.nodeStates.keys inst with
  | mk submitted result =>
    cases result with
    | error e => simp [Except.isOk, Except.toBool]
    | ok inst' =>
      rw [hloop] at hresult
      rcases hresult with ⟨e, herr, _⟩ | ⟨hok, _⟩
      · cases herr
      · cases hok
        have hsaved : inst.advanced.toDict.isJson = inst.toDict.isJson :=
          isJson_toDict_congr rfl rfl
        obtain ⟨store', hstore, _⟩ := checkpoint_ok store (hsaved.trans hjson)
        unfold WorkflowInstance.advanced WorkflowInstance.eligibleNodes at hstore
        simp [hstore, Except.isOk, Except.toBool]

end Pass

end MollisRuntime.Workflow
