import MollisRuntime.Workflow.Recovery

/-!
Isolation of recovery. The replay does not ask which instance an event belongs
to. Two logs that differ in foreign events lead to the same recovery exactly
when the foreign events that come last for a node say the same in both.
-/
namespace MollisRuntime.Workflow

open Ordered Python Persistence

/-- The event names another instance. -/
def isForeign (id : String) (e : RuntimeEvent) : Bool :=
  match e.workflowInstanceId with
  | some j => decide (j ≠ id)
  | none => false

/-- The logs differ in events of other instances only. -/
def SameOwn (id : String) (log₁ log₂ : EventStore) : Prop :=
  log₁.events.filter (fun e => !isForeign id e) = log₂.events.filter (fun e => !isForeign id e)

/-- One fetch returns every event since the start. -/
def Fits (log : EventStore) (start : String) : Prop :=
  (log.events.filter fun e => start ≤ e.timestamp).length ≤ 100

/-- Same node states, outputs and status, and the same set of tasks. -/
def SameRecovery (o₁ o₂ : Outcome WorkflowInstance) : Prop :=
  (∀ task, (∃ s ∈ o₁.submitted, s.task = task) ↔ ∃ s ∈ o₂.submitted, s.task = task) ∧
    match o₁.result, o₂.result with
    | .ok inst₁, .ok inst₂ => inst₁.nodeStates.SameItems inst₂.nodeStates ∧
        inst₁.nodeOutputs.SameItems inst₂.nodeOutputs ∧ inst₁.status = inst₂.status
    | .error _, .error _ => True
    | _, _ => False

theorem SameRecovery.nodeState {o₁ o₂ : Outcome WorkflowInstance} (h : SameRecovery o₁ o₂)
    (n : String) : (o₁.result.toOption.map fun inst => inst.nodeStates.get? n) =
      o₂.result.toOption.map fun inst => inst.nodeStates.get? n := by
  obtain ⟨_, hresult⟩ := h
  cases h₁ : o₁.result with
  | error e₁ =>
    cases h₂ : o₂.result with
    | error e₂ => rfl
    | ok inst₂ =>
      rw [h₁, h₂] at hresult
      exact hresult.elim
  | ok inst₁ =>
    cases h₂ : o₂.result with
    | error e₂ =>
      rw [h₁, h₂] at hresult
      exact hresult.elim
    | ok inst₂ =>
      rw [h₁, h₂] at hresult
      exact congrArg some (hresult.1 n)

/-- The last event of the window with the property is foreign. -/
def lastForeign (id : String) (p : RuntimeEvent → Bool) (window : List RuntimeEvent) : Bool :=
  (lastWhere p window).any (isForeign id)

/-- Where a foreign event comes last for a node of the checkpoint in one of the
windows, both windows say the same about that node. -/
structure Undisturbed (inst : WorkflowInstance) (window₁ window₂ : List RuntimeEvent) :
    Prop where
  states : ∀ n ∈ inst.nodeStates.keys,
    lastForeign inst.instanceId (settles n) window₁ = true ∨
      lastForeign inst.instanceId (settles n) window₂ = true →
    replayedState inst window₁ n = replayedState inst window₂ n
  outputs : ∀ n ∈ inst.nodeStates.keys,
    lastForeign inst.instanceId (completes n) window₁ = true ∨
      lastForeign inst.instanceId (completes n) window₂ = true →
    replayedOutput inst window₁ n = replayedOutput inst window₂ n

/-- Some event of the window makes the replay raise. -/
def Raises (inst : WorkflowInstance) (window : List RuntimeEvent) : Prop :=
  ∃ e ∈ window, Unresolvable inst e

/-- The replay raises on both windows, or on neither and they are undisturbed. -/
structure Isolated (inst : WorkflowInstance) (window₁ window₂ : List RuntimeEvent) : Prop where
  raises : Raises inst window₁ ↔ Raises inst window₂
  undisturbed : ¬ Raises inst window₁ → Undisturbed inst window₁ window₂

section Windows

theorem fits_of_length {log : EventStore} (start : String) (h : log.events.length ≤ 100) :
    Fits log start :=
  (List.length_filter_le _ _).trans h

theorem streamFrom_of_fits {log : EventStore} {start : String} (h : Fits log start) :
    log.streamFrom start = log.events.filter fun e => start ≤ e.timestamp := by
  unfold EventStore.streamFrom
  rw [List.drop_zero, List.take_of_length_le h]

/-- The own events of the two windows are the same. -/
theorem windows_sameOwn {id start : String} {log₁ log₂ : EventStore}
    (hsame : SameOwn id log₁ log₂) (h₁ : Fits log₁ start) (h₂ : Fits log₂ start) :
    (log₁.streamFrom start).filter (fun e => !isForeign id e) =
      (log₂.streamFrom start).filter (fun e => !isForeign id e) := by
  unfold SameOwn at hsame
  rw [streamFrom_of_fits h₁, streamFrom_of_fits h₂, List.filter_comm, hsame, List.filter_comm]

/-- If no foreign event comes last, the last event is the same in both. -/
theorem lastWhere_eq_of_own {id : String} {p : RuntimeEvent → Bool}
    {window₁ window₂ : List RuntimeEvent}
    (hsame : window₁.filter (fun e => !isForeign id e) =
      window₂.filter (fun e => !isForeign id e))
    (h₁ : lastForeign id p window₁ = false) (h₂ : lastForeign id p window₂ = false) :
    lastWhere p window₁ = lastWhere p window₂ := by
  have hown : ∀ window, lastForeign id p window = false →
      ∀ e, lastWhere p window = some e → (!isForeign id e) = true := by
    intro window h e he
    unfold lastForeign at h
    rw [he, Option.any_some] at h
    simp [h]
  rw [← lastWhere_filter p _ window₁ (hown window₁ h₁),
    ← lastWhere_filter p _ window₂ (hown window₂ h₂), hsame]

/-- Undisturbed windows say the same about every node. -/
theorem Undisturbed.same {inst : WorkflowInstance} {window₁ window₂ : List RuntimeEvent}
    (hsame : window₁.filter (fun e => !isForeign inst.instanceId e) =
      window₂.filter (fun e => !isForeign inst.instanceId e))
    (h : Undisturbed inst window₁ window₂) (n : String) (hn : n ∈ inst.nodeStates.keys) :
    replayedState inst window₁ n = replayedState inst window₂ n ∧
      replayedOutput inst window₁ n = replayedOutput inst window₂ n := by
  constructor
  · by_cases hforeign : lastForeign inst.instanceId (settles n) window₁ = true ∨
        lastForeign inst.instanceId (settles n) window₂ = true
    · exact h.states n hn hforeign
    · simp only [not_or, Bool.not_eq_true] at hforeign
      unfold replayedState
      rw [lastWhere_eq_of_own hsame hforeign.1 hforeign.2]
  · by_cases hforeign : lastForeign inst.instanceId (completes n) window₁ = true ∨
        lastForeign inst.instanceId (completes n) window₂ = true
    · exact h.outputs n hn hforeign
    · simp only [not_or, Bool.not_eq_true] at hforeign
      unfold replayedOutput
      rw [lastWhere_eq_of_own hsame hforeign.1 hforeign.2]

end Windows

section Congruence

/-- Equal but for the order in which outputs were stored. -/
structure Alike (i j : WorkflowInstance) : Prop where
  definition : i.definition = j.definition
  instanceId : i.instanceId = j.instanceId
  workflowName : i.workflowName = j.workflowName
  status : i.status = j.status
  nodeStates : i.nodeStates = j.nodeStates
  nodeOutputs : i.nodeOutputs.SameItems j.nodeOutputs

theorem Alike.isJson {i j : WorkflowInstance} (h : Alike i j) :
    i.toDict.isJson = j.toDict.isJson := by
  have hentries : (∀ e ∈ i.nodeOutputs.entries, (encodeAttrs e.2).isJson = true) ↔
      ∀ e ∈ j.nodeOutputs.entries, (encodeAttrs e.2).isJson = true := by
    simp only [Prod.forall, Dict.mem_entries_iff, h.nodeOutputs _]
  rw [Bool.eq_iff_iff, i.isJson_toDict_iff, j.isJson_toDict_iff, h.definition, hentries]

theorem Alike.wellFormed {i j : WorkflowInstance} (h : Alike i j) (hwf : j.WellFormed) :
    i.WellFormed := by
  constructor
  · rw [h.definition]
    exact hwf.closed
  · rw [h.definition, h.nodeStates]
    exact hwf.tracked

theorem Alike.markRunning {i j : WorkflowInstance} (h : Alike i j) (n : String) :
    Alike (i.markRunning n) (j.markRunning n) where
  definition := h.definition
  instanceId := h.instanceId
  workflowName := h.workflowName
  status := h.status
  nodeStates := by
    unfold WorkflowInstance.markRunning
    rw [h.nodeStates]
  nodeOutputs := h.nodeOutputs

/-- Both raise, or both return and the values are alike. -/
def BothAlike (r₁ r₂ : Except PyError WorkflowInstance) : Prop :=
  (∃ e₁ e₂, r₁ = .error e₁ ∧ r₂ = .error e₂) ∨
    ∃ i j, r₁ = .ok i ∧ r₂ = .ok j ∧ Alike i j

/-- Alike instances are dispatched alike. -/
theorem dispatchLoop_alike (env : Env) {deps : Dict String (List String)} (ns : List String)
    {i j : WorkflowInstance} (h : Alike i j) (hwf : j.WellFormed)
    (hdeps : DepsOf j.definition.graph deps) :
    (dispatchLoop env deps ns i).1 = (dispatchLoop env deps ns j).1 ∧
      BothAlike (dispatchLoop env deps ns i).2 (dispatchLoop env deps ns j).2 := by
  induction ns generalizing i j with
  | nil => exact ⟨rfl, Or.inr ⟨i, j, rfl, rfl, h⟩⟩
  | cons n rest ih =>
    have hsame : eligible i.definition.graph i.nodeStates n =
        eligible j.definition.graph j.nodeStates n := by
      rw [h.definition, h.nodeStates]
    cases he : eligible j.definition.graph j.nodeStates n with
    | false =>
      rw [dispatchLoop_skip (h.wellFormed hwf) (by rw [h.definition]; exact hdeps) n rest
          (hsame.trans he),
        dispatchLoop_skip hwf hdeps n rest he]
      exact ih h hwf hdeps
    | true =>
      have hmem := hwf.tracked.pending_mem n ((eligible_iff _ _ _).mp he).1
      obtain ⟨node, hnode⟩ := (Dict.mem_keys_iff _ _).mp hmem
      rw [dispatchLoop_submit (h.wellFormed hwf) (by rw [h.definition]; exact hdeps) n rest
          (by rw [h.definition]; exact hnode) (hsame.trans he),
        dispatchLoop_submit hwf hdeps n rest hnode he,
        taskFor_congr h.instanceId h.workflowName h.nodeOutputs n node]
      cases env.schedule (taskFor j n node) with
      | error e => exact ⟨rfl, Or.inl ⟨e, e, rfl, rfl⟩⟩
      | ok _ =>
        have hmarked := h.markRunning n
        obtain ⟨hsubmitted, hresult⟩ := ih hmarked (hwf.markRunning hmem) hdeps
        refine ⟨?_, hresult⟩
        dsimp only
        rw [hsubmitted, h.instanceId, hmarked.nodeStates]

/-- The pass on alike instances: the same tasks, and alike results. -/
theorem dispatch_alike (env : Env) (store : Store) {i j : WorkflowInstance} (h : Alike i j)
    (hwf : j.WellFormed) :
    (dispatchEligibleNodes env store i).submitted =
        (dispatchEligibleNodes env store j).submitted ∧
      BothAlike (dispatchEligibleNodes env store i).result
        (dispatchEligibleNodes env store j).result := by
  by_cases hrun : j.status = .running
  · obtain ⟨deps, hdeps, hget⟩ := depsOf_closed hwf.closed
    obtain ⟨hsubmitted, hresult⟩ := dispatchLoop_alike env j.nodeStates.keys h hwf hget
    unfold dispatchEligibleNodes
    simp only [h.status, hrun, ne_eq, not_true_eq_false, if_false, h.definition, hdeps,
      h.nodeStates]
    cases hloop : dispatchLoop env deps j.nodeStates.keys i with
    | mk submitted₁ result₁ =>
      cases hloop' : dispatchLoop env deps j.nodeStates.keys j with
      | mk submitted₂ result₂ =>
        rw [hloop, hloop'] at hsubmitted hresult
        dsimp only at hsubmitted
        subst hsubmitted
        rcases hresult with ⟨e₁, e₂, herr₁, herr₂⟩ | ⟨i', j', hok₁, hok₂, halike⟩
        · dsimp only at herr₁ herr₂
          subst herr₁ herr₂
          exact ⟨rfl, Or.inl ⟨e₁, e₂, rfl, rfl⟩⟩
        · dsimp only at hok₁ hok₂
          subst hok₁ hok₂
          dsimp only
          cases hjson : j'.toDict.isJson with
          | false =>
            obtain ⟨e₁, he₁⟩ := checkpoint_error store (halike.isJson.trans hjson)
            obtain ⟨e₂, he₂⟩ := checkpoint_error store hjson
            rw [he₁, he₂]
            exact ⟨rfl, Or.inl ⟨e₁, e₂, rfl, rfl⟩⟩
          | true =>
            obtain ⟨store₁, hstore₁, _⟩ := checkpoint_ok store (halike.isJson.trans hjson)
            obtain ⟨store₂, hstore₂, _⟩ := checkpoint_ok store hjson
            rw [hstore₁, hstore₂]
            exact ⟨rfl, Or.inr ⟨i', j', rfl, rfl, halike⟩⟩
  · rw [dispatch_idle env store hrun, dispatch_idle env store (by rw [h.status]; exact hrun)]
    exact ⟨rfl, Or.inr ⟨i, j, rfl, rfl, h⟩⟩

end Congruence

section Recovering

variable {inst : WorkflowInstance} {window₁ window₂ : List RuntimeEvent}

theorem replayEvents_of_not_raises {window : List RuntimeEvent} (h : ¬ Raises inst window) :
    ∃ replayed, replayEvents inst window = .ok replayed :=
  (replayEvents_ok_iff inst window).mpr (fun e he hun => h ⟨e, he, hun⟩)

theorem replayEvents_of_raises {window : List RuntimeEvent} (h : Raises inst window) :
    ∃ err, replayEvents inst window = .error err := by
  cases hreplay : replayEvents inst window with
  | error err => exact ⟨err, rfl⟩
  | ok replayed =>
    obtain ⟨e, he, hun⟩ := h
    exact absurd hun ((replayEvents_ok_iff inst window).mp ⟨replayed, hreplay⟩ e he)

/-- Windows that say the same about every node are replayed alike. -/
theorem replayEvents_alike {replayed₁ replayed₂ : WorkflowInstance}
    (h₁ : replayEvents inst window₁ = .ok replayed₁)
    (h₂ : replayEvents inst window₂ = .ok replayed₂)
    (h : ∀ n ∈ inst.nodeStates.keys, replayedState inst window₁ n = replayedState inst window₂ n ∧
      replayedOutput inst window₁ n = replayedOutput inst window₂ n) :
    Alike replayed₁ replayed₂ := by
  obtain ⟨hframe₁, hstatus₁, hkeys₁, _⟩ := replayEvents_frame h₁
  obtain ⟨hframe₂, hstatus₂, hkeys₂, _⟩ := replayEvents_frame h₂
  refine ⟨hframe₁.definition.trans hframe₂.definition.symm,
    hframe₁.instanceId.trans hframe₂.instanceId.symm,
    hframe₁.workflowName.trans hframe₂.workflowName.symm, hstatus₁.trans hstatus₂.symm, ?_, ?_⟩
  · apply Dict.ext_get? (hkeys₁.trans hkeys₂.symm)
    intro n hn
    rw [hkeys₁] at hn
    rw [(replayEvents_get? h₁ n hn).1, (replayEvents_get? h₂ n hn).1, (h n hn).1]
  · intro n
    by_cases hn : n ∈ inst.nodeStates.keys
    · rw [(replayEvents_get? h₁ n hn).2, (replayEvents_get? h₂ n hn).2, (h n hn).2]
    · rw [replayEvents_output_of_notMem h₁ n hn, replayEvents_output_of_notMem h₂ n hn]

/-- Under a scheduler that never raises a replayed instance comes back, with
some PENDING nodes RUNNING and nothing else changed. -/
theorem recover_accepting {env : Env} (hacc : env.Accepting) {store : Store} {log : EventStore}
    (hholds : store.Holds inst) (hwf : inst.WellFormed) {replayed : WorkflowInstance}
    (h : replayEvents inst (log.streamFrom inst.startedAt) = .ok replayed) :
    ∃ back, (recoverWorkflow env log store inst.instanceId).result = .ok back ∧
      back.nodeOutputs = replayed.nodeOutputs ∧
      ∀ n, back.nodeStates.get? n = replayed.nodeStates.get? n ∨
        (back.nodeStates.get? n = some .running ∧
          replayed.nodeStates.get? n = some .pending) := by
  obtain ⟨hframe, _, _, htracked⟩ := replayEvents_frame h
  rw [recoverWorkflow_replayed env store log hholds h]
  by_cases hrun : replayed.status = .running
  · obtain ⟨_, ⟨e, _, _, hraised⟩ | ⟨hok, _⟩⟩ := dispatch_spec env store hrun
      (wellFormed_replayEvents h hwf)
    · have hjson := isJson_replayEvents h hholds.json
        (fun e he => EventStore.isJson_of_streamFrom he)
      rw [hraised hacc] at hjson
      contradiction
    · refine ⟨_, hok, rfl, ?_⟩
      intro n
      rw [replayed.get?_advanced]
      split
      · rename_i he
        exact Or.inr ⟨rfl, ((eligible_iff _ _ _).mp he).1⟩
      · exact Or.inl rfl
  · rw [dispatch_idle env store hrun]
    exact ⟨replayed, rfl, rfl, fun n => Or.inl rfl⟩

/-- What the pass does to the states does not hide a difference: a node is
PENDING or RUNNING after a replay only if it was so in the checkpoint. -/
theorem replayed_eq_of_back {replayed₁ replayed₂ : WorkflowInstance}
    (h₁ : replayEvents inst window₁ = .ok replayed₁)
    (h₂ : replayEvents inst window₂ = .ok replayed₂) {n : String} {s : Option NodeState}
    (hback₁ : s = replayed₁.nodeStates.get? n ∨
      (s = some .running ∧ replayed₁.nodeStates.get? n = some .pending))
    (hback₂ : s = replayed₂.nodeStates.get? n ∨
      (s = some .running ∧ replayed₂.nodeStates.get? n = some .pending)) :
    replayed₁.nodeStates.get? n = replayed₂.nodeStates.get? n := by
  have hclash : ∀ {wa wb : List RuntimeEvent} {ra rb : WorkflowInstance},
      replayEvents inst wa = .ok ra → replayEvents inst wb = .ok rb →
      ra.nodeStates.get? n = some .running → rb.nodeStates.get? n = some .pending → False := by
    intro wa wb ra rb ha hb hrunning hpending
    have hrun := ((replayEvents_open_iff ha n (Or.inr rfl)).mp hrunning).1
    rw [((replayEvents_open_iff hb n (Or.inl rfl)).mp hpending).1] at hrun
    cases hrun
  rcases hback₁ with hs₁ | ⟨hs₁, hpending₁⟩
  · rcases hback₂ with hs₂ | ⟨hs₂, hpending₂⟩
    · exact hs₁.symm.trans hs₂
    · exact (hclash h₁ h₂ (hs₁.symm.trans hs₂) hpending₂).elim
  · rcases hback₂ with hs₂ | ⟨hs₂, hpending₂⟩
    · exact (hclash h₂ h₁ (hs₂.symm.trans hs₁) hpending₁).elim
    · exact hpending₁.trans hpending₂.symm

end Recovering

section Recoveries

variable {inst : WorkflowInstance} {store : Store} {log₁ log₂ : EventStore}

/-- Isolated windows lead to the same recovery, whatever the scheduler does. -/
theorem sameRecovery_of_isolated (env : Env) (hholds : store.Holds inst)
    (hwf : inst.WellFormed)
    (hsame : (log₁.streamFrom inst.startedAt).filter (fun e => !isForeign inst.instanceId e) =
      (log₂.streamFrom inst.startedAt).filter (fun e => !isForeign inst.instanceId e))
    (h : Isolated inst (log₁.streamFrom inst.startedAt) (log₂.streamFrom inst.startedAt)) :
    SameRecovery (recoverWorkflow env log₁ store inst.instanceId)
      (recoverWorkflow env log₂ store inst.instanceId) := by
  by_cases hraise : Raises inst (log₁.streamFrom inst.startedAt)
  · obtain ⟨err₁, h₁⟩ := replayEvents_of_raises hraise
    obtain ⟨err₂, h₂⟩ := replayEvents_of_raises (h.raises.mp hraise)
    rw [recoverWorkflow_raised env store log₁ hholds h₁,
      recoverWorkflow_raised env store log₂ hholds h₂]
    exact ⟨fun task => Iff.rfl, trivial⟩
  · obtain ⟨replayed₁, h₁⟩ := replayEvents_of_not_raises hraise
    obtain ⟨replayed₂, h₂⟩ := replayEvents_of_not_raises (fun hr => hraise (h.raises.mpr hr))
    obtain ⟨hframe, _, _, htracked⟩ := replayEvents_frame h₂
    have halike := replayEvents_alike h₁ h₂ ((h.undisturbed hraise).same hsame)
    obtain ⟨hsubmitted, hresult⟩ := dispatch_alike env store halike
      (wellFormed_replayEvents h₂ hwf)
    rw [recoverWorkflow_replayed env store log₁ hholds h₁,
      recoverWorkflow_replayed env store log₂ hholds h₂]
    refine ⟨by rw [hsubmitted]; exact fun task => Iff.rfl, ?_⟩
    rcases hresult with ⟨e₁, e₂, herr₁, herr₂⟩ | ⟨back₁, back₂, hok₁, hok₂, hback⟩
    · rw [herr₁, herr₂]
      trivial
    · rw [hok₁, hok₂]
      exact ⟨by rw [hback.nodeStates]; exact Dict.SameItems.refl _, hback.nodeOutputs,
        hback.status⟩

/-- The same recovery under a scheduler that never raises comes from isolated
windows. -/
theorem isolated_of_sameRecovery {env : Env} (hacc : env.Accepting) (hholds : store.Holds inst)
    (hwf : inst.WellFormed)
    (h : SameRecovery (recoverWorkflow env log₁ store inst.instanceId)
      (recoverWorkflow env log₂ store inst.instanceId)) :
    Isolated inst (log₁.streamFrom inst.startedAt) (log₂.streamFrom inst.startedAt) := by
  have hresult := h.2
  have herror : ∀ log : EventStore, Raises inst (log.streamFrom inst.startedAt) →
      ∃ err, (recoverWorkflow env log store inst.instanceId).result = .error err := by
    intro log hr
    obtain ⟨err, hreplay⟩ := replayEvents_of_raises hr
    exact ⟨err, by rw [recoverWorkflow_raised env store log hholds hreplay]⟩
  by_cases hr₁ : Raises inst (log₁.streamFrom inst.startedAt)
  · by_cases hr₂ : Raises inst (log₂.streamFrom inst.startedAt)
    · exact ⟨iff_of_true hr₁ hr₂, fun hnot => absurd hr₁ hnot⟩
    · obtain ⟨replayed₂, h₂⟩ := replayEvents_of_not_raises hr₂
      obtain ⟨err, herr⟩ := herror log₁ hr₁
      obtain ⟨back, hok, _⟩ := recover_accepting hacc hholds hwf h₂
      rw [herr, hok] at hresult
      exact hresult.elim
  · obtain ⟨replayed₁, h₁⟩ := replayEvents_of_not_raises hr₁
    obtain ⟨back₁, hok₁, houtputs₁, hstates₁⟩ := recover_accepting hacc hholds hwf h₁
    by_cases hr₂ : Raises inst (log₂.streamFrom inst.startedAt)
    · obtain ⟨err, herr⟩ := herror log₂ hr₂
      rw [herr, hok₁] at hresult
      exact hresult.elim
    · obtain ⟨replayed₂, h₂⟩ := replayEvents_of_not_raises hr₂
      obtain ⟨back₂, hok₂, houtputs₂, hstates₂⟩ := recover_accepting hacc hholds hwf h₂
      rw [hok₁, hok₂] at hresult
      obtain ⟨hstates, houtputs, _⟩ := hresult
      refine ⟨iff_of_false hr₁ hr₂, fun _ => ⟨?_, ?_⟩⟩
      · intro n hn _
        rw [← (replayEvents_get? h₁ n hn).1, ← (replayEvents_get? h₂ n hn).1]
        exact replayed_eq_of_back h₁ h₂ (hstates₁ n) (by rw [hstates n]; exact hstates₂ n)
      · intro n hn _
        rw [← (replayEvents_get? h₁ n hn).2, ← (replayEvents_get? h₂ n hn).2, ← houtputs₁,
          ← houtputs₂]
        exact houtputs n

end Recoveries

section Samples

/-- The completion of A in one of two instances of the same definition. -/
def completedA (id : String) : RuntimeEvent := nodeEvent (.taskCompleted (id ++ "_A")) id "A"

def ownLog : EventStore := logOf (completedA "i1") (by decide)

def foreignLog : EventStore := logOf (completedA "i2") (by decide)

/-- The other instance's completion before the own one. -/
def interleavedLog : EventStore := ⟨[completedA "i2", completedA "i1"], by decide⟩

theorem streamFrom_interleavedLog :
    interleavedLog.streamFrom "2026-01-01T00:00:00" = [completedA "i2", completedA "i1"] := by
  apply EventStore.streamFrom_eq_events
  · intro e he
    simp only [interleavedLog, List.mem_cons, List.not_mem_nil, or_false] at he
    rcases he with rfl | rfl <;> exact nodeEvent_since _ _ _ _
  · simp [interleavedLog]

theorem not_raises_completedA {inst : WorkflowInstance} {window : List RuntimeEvent}
    (h : window ⊆ [completedA "i2", completedA "i1"]) : ¬ Raises inst window := by
  rintro ⟨e, he, n, _, _, hfailure, _⟩
  have hmem := h he
  simp only [List.mem_cons, List.not_mem_nil, or_false] at hmem
  rcases hmem with rfl | rfl <;> contradiction

end Samples

end MollisRuntime.Workflow
