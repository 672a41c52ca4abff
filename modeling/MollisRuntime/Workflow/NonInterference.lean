import MollisRuntime.Library.Projection
import MollisRuntime.Workflow.Cancellation

/-!
Many workflow instances in one store. Every operation addresses one instance,
an event the one of its metadata, and works on that instance's row alone. What
happens to an instance, and what its callers and the scheduler get from the
calls that address it, is therefore the same in every interleaving.
-/
namespace MollisRuntime.Workflow

open Ordered Python Persistence

/-- The instance a call is for. An event need not name one. -/
def DispatchCall.address : DispatchCall → Option String
  | .start uuid _ _ => some uuid.val
  | .operate _ (.event e) => e.workflowInstanceId
  | .operate instanceId _ => some instanceId

/-- What a call gives to the scheduler, to the queue and to its caller. -/
structure Reply where
  address : Option String
  submitted : List Submission
  queueCancels : List String
  result : Except PyError Unit

/-- Any call on any instance, as a step of a machine that emits the replies. -/
def serve (store : Store) (call : Env × DispatchCall) : Store × List Reply :=
  let out := call.2.perform call.1 store
  (out.store, [⟨call.2.address, out.submitted, out.queueCancels, out.result⟩])

def isFor (id : String) (call : Env × DispatchCall) : Bool := call.2.address = some id

def Reply.isFor (id : String) (reply : Reply) : Bool := reply.address = some id

/-- The same row and the same reply. -/
structure SameAt {α : Type} (id : String) (out out' : Outcome α) : Prop where
  row : out.store.rows.get? id = out'.store.rows.get? id
  submitted : out.submitted = out'.submitted
  queueCancels : out.queueCancels = out'.queueCancels
  result : out.result = out'.result

section Addressed

variable {env : Env} {s t : Store} {id : String}

theorem SameAt.of_row {α : Type} {submitted : List Submission} {queueCancels : List String}
    {result : Except PyError α} (h : s.rows.get? id = t.rows.get? id) :
    SameAt id (α := α) ⟨s, submitted, queueCancels, result⟩
      ⟨t, submitted, queueCancels, result⟩ :=
  ⟨h, rfl, rfl, rfl⟩

theorem SameAt.forget {out out' : Outcome WorkflowInstance} (h : SameAt id out out') :
    SameAt id (Operation.perform.forget out) (Operation.perform.forget out') :=
  ⟨h.row, h.submitted, h.queueCancels, congrArg (Except.map fun _ => ()) h.result⟩

theorem loadInstance_congr (h : s.rows.get? id = t.rows.get? id) :
    loadInstance s id = loadInstance t id := by
  unfold loadInstance
  rw [h]

/-- Whether a checkpoint raises is a matter of the instance alone. -/
theorem checkpoint_same (h : s.rows.get? id = t.rows.get? id) (inst : WorkflowInstance) :
    (∃ e, checkpointWorkflow s inst = .error e ∧ checkpointWorkflow t inst = .error e) ∨
      ∃ s' t', checkpointWorkflow s inst = .ok s' ∧ checkpointWorkflow t inst = .ok t' ∧
        s'.rows.get? id = t'.rows.get? id := by
  cases hjson : inst.toDict.isJson with
  | true =>
    obtain ⟨s', hs, -⟩ := checkpoint_ok s hjson
    obtain ⟨t', ht, -⟩ := checkpoint_ok t hjson
    refine Or.inr ⟨s', t', hs, ht, ?_⟩
    rw [checkpoint_rows hs, checkpoint_rows ht, Dict.get?_set, Dict.get?_set, h]
  | false =>
    left
    unfold checkpointWorkflow
    cases hdef : jsonPayload inst.definition.toDict with
    | error e => exact ⟨e, rfl, rfl⟩
    | ok _ =>
      rw [ok_bind, ok_bind]
      split
      · rename_i e _
        exact ⟨e, rfl, rfl⟩
      · rename_i row hrow
        have hrow' := ((jsonPayload_eq_ok_iff _ _).mp hrow).1
        rw [hjson] at hrow'
        contradiction

theorem dispatch_same (h : s.rows.get? id = t.rows.get? id) (inst : WorkflowInstance) :
    SameAt id (dispatchEligibleNodes env s inst) (dispatchEligibleNodes env t inst) := by
  unfold dispatchEligibleNodes
  split
  · exact SameAt.of_row h
  · dsimp only
    split
    · exact SameAt.of_row h
    · rename_i deps _
      cases dispatchLoop env deps inst.nodeStates.keys inst with
      | mk submitted result =>
        cases result with
        | error e => exact SameAt.of_row h
        | ok inst' =>
          dsimp only
          obtain ⟨e, hs, ht⟩ | ⟨s', t', hs, ht, hrow⟩ := checkpoint_same h inst'
          · rw [hs, ht]
            exact SameAt.of_row h
          · rw [hs, ht]
            exact SameAt.of_row hrow

theorem startWorkflow_same (h : s.rows.get? id = t.rows.get? id) (uuid : Uuid)
    (d : WorkflowDefinition) (inputs : Attrs) :
    SameAt id (startWorkflow env s uuid d inputs) (startWorkflow env t uuid d inputs) := by
  unfold startWorkflow
  split
  · exact SameAt.of_row h
  · rename_i plan _
    dsimp only
    obtain ⟨e, hs, ht⟩ | ⟨s', t', hs, ht, hrow⟩ :=
      checkpoint_same h (initialInstance env.now uuid d inputs plan)
    · rw [hs, ht]
      exact SameAt.of_row h
    · rw [hs, ht]
      exact dispatch_same hrow _

theorem pauseWorkflow_same (h : s.rows.get? id = t.rows.get? id) :
    SameAt id (pauseWorkflow s id) (pauseWorkflow t id) := by
  unfold pauseWorkflow
  rw [loadInstance_congr h]
  split
  · exact SameAt.of_row h
  · rename_i inst _
    split
    · dsimp only
      obtain ⟨e, hs, ht⟩ | ⟨s', t', hs, ht, hrow⟩ :=
        checkpoint_same h { inst with status := .paused }
      · rw [hs, ht]
        exact SameAt.of_row h
      · rw [hs, ht]
        exact SameAt.of_row hrow
    · exact SameAt.of_row h

theorem resumeWorkflow_same (h : s.rows.get? id = t.rows.get? id) :
    SameAt id (resumeWorkflow env s id) (resumeWorkflow env t id) := by
  unfold resumeWorkflow
  rw [loadInstance_congr h]
  split
  · exact SameAt.of_row h
  · rename_i inst _
    split
    · dsimp only
      obtain ⟨e, hs, ht⟩ | ⟨s', t', hs, ht, hrow⟩ :=
        checkpoint_same h { inst with status := .running }
      · rw [hs, ht]
        exact SameAt.of_row h
      · rw [hs, ht]
        exact dispatch_same hrow _
    · exact SameAt.of_row h

theorem cancelWorkflow_same (h : s.rows.get? id = t.rows.get? id) :
    SameAt id (cancelWorkflow env s id) (cancelWorkflow env t id) := by
  unfold cancelWorkflow
  rw [loadInstance_congr h]
  split
  · exact SameAt.of_row h
  · rename_i inst _
    split
    · dsimp only
      obtain ⟨e, hs, ht⟩ | ⟨s', t', hs, ht, hrow⟩ := checkpoint_same h (cancelNodes env.now inst)
      · rw [hs, ht]
        exact SameAt.of_row h
      · rw [hs, ht]
        exact SameAt.of_row hrow
    · exact SameAt.of_row h

theorem recoverWorkflow_same (h : s.rows.get? id = t.rows.get? id) (log : EventStore) :
    SameAt id (recoverWorkflow env log s id) (recoverWorkflow env log t id) := by
  unfold recoverWorkflow
  rw [loadInstance_congr h]
  split
  · exact SameAt.of_row h
  · split
    · exact SameAt.of_row h
    · exact dispatch_same h _

theorem onRuntimeEvent_same (h : s.rows.get? id = t.rows.get? id) {e : RuntimeEvent}
    (haddress : e.workflowInstanceId = some id) :
    SameAt id (onRuntimeEvent env s e) (onRuntimeEvent env t e) := by
  unfold onRuntimeEvent
  rw [haddress]
  cases e.nodeId with
  | none => exact SameAt.of_row h
  | some nid =>
    dsimp only
    rw [loadInstance_congr h]
    split
    · exact SameAt.of_row h
    · rename_i inst _
      split
      · exact SameAt.of_row h
      · split
        · exact SameAt.of_row h
        · rename_i handled _
          obtain ⟨err, hs, ht⟩ | ⟨s', t', hs, ht, hrow⟩ :=
            checkpoint_same h (completeIfDone env.now handled)
          · rw [hs, ht]
            exact SameAt.of_row h
          · rw [hs, ht]
            dsimp only
            split
            · exact (dispatch_same hrow _).forget
            · exact SameAt.of_row hrow

/-- A call sees of the store only the row it addresses. -/
theorem perform_same (h : s.rows.get? id = t.rows.get? id) {call : DispatchCall}
    (haddress : call.address = some id) :
    SameAt id (call.perform env s) (call.perform env t) := by
  cases call with
  | start uuid d inputs => exact (startWorkflow_same h uuid d inputs).forget
  | operate instanceId op =>
    cases op with
    | event e => exact onRuntimeEvent_same h haddress
    | pause =>
      obtain rfl := Option.some.inj haddress
      exact (pauseWorkflow_same h).forget
    | resume =>
      obtain rfl := Option.some.inj haddress
      exact (resumeWorkflow_same h).forget
    | cancel =>
      obtain rfl := Option.some.inj haddress
      exact (cancelWorkflow_same h).forget
    | recover log =>
      obtain rfl := Option.some.inj haddress
      exact (recoverWorkflow_same h log).forget

/-- A call on another instance. -/
theorem perform_untouched {call : DispatchCall} (haddress : call.address ≠ some id) :
    Untouched id s (call.perform env s) := by
  cases call with
  | start uuid d inputs => exact startWorkflow_frame fun h => haddress (congrArg some h)
  | operate instanceId op =>
    cases op with
    | event e =>
      obtain ⟨hrow, hsub⟩ := onRuntimeEvent_frame env s e id haddress
      exact ⟨hrow, hsub⟩
    | pause => exact pauseWorkflow_frame fun h => haddress (congrArg some h)
    | resume => exact resumeWorkflow_frame fun h => haddress (congrArg some h)
    | cancel => exact cancelWorkflow_frame fun h => haddress (congrArg some h)
    | recover log => exact recoverWorkflow_frame log fun h => haddress (congrArg some h)

end Addressed

/-- The row of an instance is a part of the store of its own. -/
theorem serve_separates (id : String) :
    Machine.Separates serve (fun store => store.rows.get? id) (isFor id) (Reply.isFor id) where
  quiet := by
    intro store call hcall
    have haddress : call.2.address ≠ some id := by simpa [isFor] using hcall
    refine ⟨(perform_untouched haddress).row, ?_⟩
    simp [serve, Reply.isFor, haddress]
  alone := by
    intro s t call hcall hrow
    have haddress : call.2.address = some id := by simpa [isFor] using hcall
    have hsame : SameAt id (call.2.perform call.1 s) (call.2.perform call.1 t) :=
      perform_same hrow haddress
    refine ⟨hsame.row, ?_⟩
    simp only [serve, hsame.submitted, hsame.queueCancels, hsame.result]

/-- Every accepted task is for the instance that the call addressed. -/
theorem submitted_addressed (env : Env) (store : Store) (call : DispatchCall) :
    ∀ s ∈ (call.perform env store).submitted, call.address = some s.instanceId := by
  intro s hs
  by_contra haddress
  exact (perform_untouched haddress).submitted s hs rfl

/-- The tasks of one instance are in the replies to the calls on it. -/
theorem own_replies (id : String) (replies : List Reply)
    (h : ∀ r ∈ replies, ∀ s ∈ r.submitted, r.address = some s.instanceId) :
    own id (replies.flatMap Reply.submitted) =
      (replies.filter (Reply.isFor id)).flatMap Reply.submitted := by
  induction replies with
  | nil => rfl
  | cons r rest ih =>
    obtain ⟨hfirst, hrest⟩ := List.forall_mem_cons.mp h
    rw [List.flatMap_cons, own_append, ih hrest]
    by_cases haddress : r.address = some id
    · have hown : ∀ s ∈ r.submitted, s.instanceId = id := by
        intro s hs
        exact (Option.some.inj (haddress.symm.trans (hfirst s hs))).symm
      rw [own_eq_self hown, List.filter_cons_of_pos (by simp [Reply.isFor, haddress]),
        List.flatMap_cons]
    · have hother : ∀ s ∈ r.submitted, s.instanceId ≠ id := by
        rintro s hs rfl
        exact haddress (hfirst s hs)
      rw [own_eq_nil hother, List.filter_cons_of_neg (by simp [Reply.isFor, haddress]),
        List.nil_append]

theorem serve_addressed (store : Store) (calls : List (Env × DispatchCall)) :
    ∀ r ∈ (Machine.exec serve calls (store, [])).2,
      ∀ s ∈ r.submitted, r.address = some s.instanceId := by
  refine Machine.exec_preserves (fun c : Store × List Reply =>
    ∀ r ∈ c.2, ∀ s ∈ r.submitted, r.address = some s.instanceId) ?_ (by simp) calls
  intro c call hkept r hr
  rcases List.mem_append.mp hr with hr | hr
  · exact hkept r hr
  · obtain rfl := List.mem_singleton.mp hr
    exact submitted_addressed call.1 c.1 call.2

/-- The completion of A reaches the first instance before or after a second one
is started and cancelled. -/
def completeFirst : Env × DispatchCall :=
  (laterEnv, .operate "i1" (.event (nodeEvent (.taskCompleted "i1_A") "i1" "A")))

def startSecond : Env × DispatchCall :=
  (fullAfterA, .start ⟨"i2", by decide⟩ pairDefinition .empty)

end MollisRuntime.Workflow
