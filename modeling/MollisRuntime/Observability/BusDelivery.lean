import MollisRuntime.Library.Machine
import MollisRuntime.Observability.BusProxy

/-!
What the event bus hands to whom. Subscribers come and go between the publications and
while one of them is under way, they may raise, and the set of them is listed in any
order. The trace keeps what happened: a subscriber gets the events that it was subscribed
for when their publication began.
-/
namespace MollisRuntime.Observability

open Persistence

/-- What a subscriber may do to the bus while it handles an event. -/
inductive Change (ι : Type)
  | subscribe (sub : ι)
  | unsubscribe (sub : ι)

inductive Moment (ι : Type)
  | subscribed (sub : ι)
  | unsubscribed (sub : ι)
  | published (e : EventRecord)
  | called (sub : ι) (e : EventRecord)

def Change.moment {ι : Type} : Change ι → Moment ι
  | .subscribe sub => .subscribed sub
  | .unsubscribe sub => .unsubscribed sub

namespace RuntimeEventBus

variable {ι : Type} [DecidableEq ι]

def empty : RuntimeEventBus ι := ⟨[], List.nodup_nil⟩

def subscribe (bus : RuntimeEventBus ι) (sub : ι) : RuntimeEventBus ι :=
  if h : sub ∈ bus.subscribers then bus
  else ⟨sub :: bus.subscribers, List.nodup_cons.mpr ⟨h, bus.nodup⟩⟩

def unsubscribe (bus : RuntimeEventBus ι) (sub : ι) : RuntimeEventBus ι :=
  ⟨bus.subscribers.erase sub, bus.nodup.erase sub⟩

def change (bus : RuntimeEventBus ι) : Change ι → RuntimeEventBus ι
  | .subscribe sub => bus.subscribe sub
  | .unsubscribe sub => bus.unsubscribe sub

theorem mem_subscribe (bus : RuntimeEventBus ι) (sub other : ι) :
    other ∈ (bus.subscribe sub).subscribers ↔ sub = other ∨ other ∈ bus.subscribers := by
  unfold subscribe
  split
  next hmem =>
    refine ⟨Or.inr, ?_⟩
    rintro (rfl | h)
    · exact hmem
    · exact h
  next =>
    rw [List.mem_cons]
    exact or_congr_left eq_comm

theorem mem_unsubscribe (bus : RuntimeEventBus ι) (sub other : ι) :
    other ∈ (bus.unsubscribe sub).subscribers ↔ sub ≠ other ∧ other ∈ bus.subscribers := by
  rw [unsubscribe, bus.nodup.mem_erase_iff, ne_comm]

end RuntimeEventBus

/-- The bus, what the subscribers work on, and what happened so far. -/
structure Delivery (ι σ : Type) where
  bus : RuntimeEventBus ι
  state : σ
  trace : List (Moment ι) := []

structure Reaction (ι σ ε : Type) where
  state : σ
  changes : List (Change ι)
  result : Except ε Unit

/-- What the subscribers do with an event, and the order in which their set is listed. -/
structure Audience (ι σ ε : Type) where
  handle : ι → EventRecord → Delivery ι σ → Reaction ι σ ε
  order : List (Moment ι) → List ι → List ι
  perm : ∀ trace subs, (order trace subs).Perm subs

/-- `try: ... except Exception`, of which the log gets what was raised. -/
def caught {τ ε : Type} : τ × Except ε Unit → τ × Except ε Unit
  | (s, .ok ()) => (s, .ok ())
  | (s, .error _) => (s, .ok ())

namespace Delivery

variable {ι σ ε : Type} [DecidableEq ι]

def change (s : Delivery ι σ) (c : Change ι) : Delivery ι σ :=
  { s with bus := s.bus.change c, trace := s.trace ++ [c.moment] }

variable (audience : Audience ι σ ε)

/-- `sub(event)` -/
def call (sub : ι) (e : EventRecord) (s : Delivery ι σ) : Delivery ι σ × Except ε Unit :=
  let reaction := audience.handle sub e s
  (reaction.changes.foldl change
    { s with state := reaction.state, trace := s.trace ++ [.called sub e] }, reaction.result)

def dispatch (e : EventRecord) : List ι → Delivery ι σ → Delivery ι σ × Except ε Unit
  | [], s => (s, .ok ())
  | sub :: rest, s =>
    match caught (s.call audience sub e) with
    | (s, .ok ()) => dispatch e rest s
    | (s, .error raised) => (s, .error raised)

/-- The subscribers are listed under the lock, which is free again when they are called. -/
def publish (e : EventRecord) (s : Delivery ι σ) : Delivery ι σ × Except ε Unit :=
  let subs := audience.order s.trace s.bus.subscribers
  dispatch audience e subs { s with trace := s.trace ++ [.published e] }

def batchPublish : List EventRecord → Delivery ι σ → Delivery ι σ × Except ε Unit
  | [], s => (s, .ok ())
  | e :: rest, s =>
    match s.publish audience e with
    | (s, .ok ()) => batchPublish rest s
    | (s, .error raised) => (s, .error raised)

end Delivery

inductive BusCall (ι : Type)
  | change (c : Change ι)
  | publish (e : EventRecord)
  | batchPublish (events : List EventRecord)

namespace Delivery

variable {ι σ ε : Type} [DecidableEq ι]

/-- A call answers with what reaches its caller. -/
def step (audience : Audience ι σ ε) (s : Delivery ι σ) :
    BusCall ι → Delivery ι σ × List (Except ε Unit)
  | .change c => (s.change c, [.ok ()])
  | .publish e => ((s.publish audience e).1, [(s.publish audience e).2])
  | .batchPublish events =>
    ((s.batchPublish audience events).1, [(s.batchPublish audience events).2])

def start (state : σ) : Delivery ι σ × List (Except ε Unit) := ({ bus := .empty, state }, [])

end Delivery

namespace Moment

variable {ι : Type} [DecidableEq ι] (sub : ι)

/-- Whether the subscriber is subscribed after a moment. -/
def after (subscribed : Bool) : Moment ι → Bool
  | .subscribed other => subscribed || decide (other = sub)
  | .unsubscribed other => subscribed && !decide (other = sub)
  | .published _ => subscribed
  | .called _ _ => subscribed

def subscribedAfter (subscribed : Bool) (trace : List (Moment ι)) : Bool :=
  trace.foldl (after sub) subscribed

/-- The events at whose publication the subscriber is subscribed. -/
def due (subscribed : Bool) : List (Moment ι) → List EventRecord
  | [] => []
  | m :: rest =>
    match m with
    | .published e =>
      if subscribed then e :: due subscribed rest else due subscribed rest
    | m => due (after sub subscribed m) rest

/-- The events that the subscriber is called with. -/
def received (trace : List (Moment ι)) : List EventRecord :=
  trace.filterMap fun
    | .called other e => if other = sub then some e else none
    | _ => none

theorem due_append (subscribed : Bool) (xs ys : List (Moment ι)) :
    due sub subscribed (xs ++ ys) =
      due sub subscribed xs ++ due sub (subscribedAfter sub subscribed xs) ys := by
  induction xs generalizing subscribed with
  | nil => rfl
  | cons m rest ih =>
    cases m with
    | published e =>
      cases subscribed with
      | true => exact congrArg (e :: ·) (ih true)
      | false => exact ih false
    | subscribed other => exact ih _
    | unsubscribed other => exact ih _
    | called other e => exact ih _

theorem subscribedAfter_append (subscribed : Bool) (xs ys : List (Moment ι)) :
    subscribedAfter sub subscribed (xs ++ ys) =
      subscribedAfter sub (subscribedAfter sub subscribed xs) ys := List.foldl_append

theorem received_append (xs ys : List (Moment ι)) :
    received sub (xs ++ ys) = received sub xs ++ received sub ys := List.filterMap_append

/-- Changes of the subscriptions hand out nothing, and nothing falls due. -/
theorem quiet_changes (subscribed : Bool) (changes : List (Change ι)) :
    received sub (changes.map Change.moment) = [] ∧
      due sub subscribed (changes.map Change.moment) = [] := by
  induction changes generalizing subscribed with
  | nil => exact ⟨rfl, rfl⟩
  | cons c rest ih =>
    cases c with
    | subscribe other => exact ih _
    | unsubscribe other => exact ih _

end Moment

namespace Delivery

open Moment

variable {ι σ ε : Type} [DecidableEq ι]

/-- The set has who is subscribed after what happened. -/
def Tracks (s : Delivery ι σ) : Prop :=
  ∀ sub, sub ∈ s.bus.subscribers ↔ subscribedAfter sub false s.trace = true

/-- Everyone was called with what was due. -/
structure Delivered (s : Delivery ι σ) : Prop where
  tracks : s.Tracks
  received : ∀ sub, received sub s.trace = due sub false s.trace

section Changes

theorem Tracks.change {s : Delivery ι σ} (h : s.Tracks) (c : Change ι) : (s.change c).Tracks := by
  intro sub
  rw [Delivery.change, subscribedAfter_append]
  cases c with
  | subscribe other =>
    have hmem := s.bus.mem_subscribe other sub
    simp only [RuntimeEventBus.change, hmem, h sub, Change.moment, subscribedAfter, List.foldl_cons,
      List.foldl_nil, after, Bool.or_eq_true, decide_eq_true_eq]
    exact or_comm
  | unsubscribe other =>
    have hmem := s.bus.mem_unsubscribe other sub
    simp only [RuntimeEventBus.change, hmem, h sub, Change.moment, subscribedAfter, List.foldl_cons,
      List.foldl_nil, after, Bool.and_eq_true, Bool.not_eq_true', decide_eq_false_iff_not]
    exact and_comm

theorem Tracks.changes {s : Delivery ι σ} (h : s.Tracks) (changes : List (Change ι)) :
    (changes.foldl Delivery.change s).Tracks := by
  induction changes generalizing s with
  | nil => exact h
  | cons c rest ih => exact ih (h.change c)

theorem trace_changes (s : Delivery ι σ) (changes : List (Change ι)) :
    (changes.foldl Delivery.change s).trace = s.trace ++ changes.map Change.moment := by
  induction changes generalizing s with
  | nil => exact (List.append_nil _).symm
  | cons c rest ih =>
    rw [List.foldl_cons, ih, Delivery.change, List.append_assoc]
    rfl

end Changes

section Calls

variable (audience : Audience ι σ ε) (sub : ι) (e : EventRecord)

theorem trace_call (s : Delivery ι σ) :
    (s.call audience sub e).1.trace =
      s.trace ++ .called sub e :: (audience.handle sub e s).changes.map Change.moment := by
  rw [call, trace_changes, List.append_assoc]
  rfl

theorem Tracks.call {s : Delivery ι σ} (h : s.Tracks) : (s.call audience sub e).1.Tracks := by
  refine Tracks.changes (s := { s with state := _, trace := s.trace ++ [.called sub e] }) ?_ _
  intro other
  rw [subscribedAfter_append]
  exact h other

theorem received_call (s : Delivery ι σ) (other : ι) :
    received other (s.call audience sub e).1.trace =
      received other s.trace ++ if sub = other then [e] else [] := by
  have hquiet := (quiet_changes other false (audience.handle sub e s).changes).1
  rw [trace_call, received_append, ← List.singleton_append, received_append, hquiet,
    List.append_nil]
  by_cases h : sub = other <;> simp [received, h]

theorem due_call (s : Delivery ι σ) (other : ι) :
    due other false (s.call audience sub e).1.trace = due other false s.trace := by
  rw [trace_call, due_append]
  exact (congrArg _ (quiet_changes other _ (audience.handle sub e s).changes).2).trans
    (List.append_nil _)

/-- What a subscriber raises ends nothing. -/
theorem dispatch_eq (subs : List ι) (s : Delivery ι σ) :
    dispatch audience e subs s =
      (subs.foldl (fun s sub => (s.call audience sub e).1) s, .ok ()) := by
  induction subs generalizing s with
  | nil => rfl
  | cons sub rest ih =>
    have hcaught : caught (s.call audience sub e) = ((s.call audience sub e).1, .ok ()) := by
      obtain ⟨s', _ | _⟩ := s.call audience sub e <;> rfl
    rw [dispatch, hcaught]
    exact ih _

/-- The subscribers that were listed are called once each, and no other. -/
theorem dispatch_calls {subs : List ι} (hnodup : subs.Nodup) {s : Delivery ι σ} (h : s.Tracks) :
    (dispatch audience e subs s).1.Tracks ∧ ∀ other,
      received other (dispatch audience e subs s).1.trace =
        received other s.trace ++ (if other ∈ subs then [e] else []) ∧
      due other false (dispatch audience e subs s).1.trace = due other false s.trace := by
  rw [dispatch_eq]
  induction subs generalizing s with
  | nil => exact ⟨h, fun other => ⟨by simp, rfl⟩⟩
  | cons sub rest ih =>
    obtain ⟨hnew, hrest⟩ := List.nodup_cons.mp hnodup
    obtain ⟨htracks, hcalls⟩ := ih hrest (h.call audience sub e)
    refine ⟨htracks, fun other => ⟨?_, (hcalls other).2.trans (due_call audience sub e s other)⟩⟩
    rw [List.foldl_cons, (hcalls other).1, received_call, List.append_assoc]
    by_cases hother : sub = other
    · subst hother
      simp [hnew]
    · simp [hother, Ne.symm hother]

end Calls

section Publications

variable (audience : Audience ι σ ε)

/-- A publication is that of the bus over the listed subscribers. -/
theorem publish_eq (e : EventRecord) (s : Delivery ι σ) :
    s.publish audience e =
      (RuntimeEventBus.publish
        (fun _ => ⟨audience.order s.trace s.bus.subscribers,
          (audience.perm _ _).nodup_iff.mpr s.bus.nodup⟩)
        (fun sub e s => s.call audience sub e) e { s with trace := s.trace ++ [.published e] },
        .ok ()) := dispatch_eq audience e _ _

theorem Delivered.publish {s : Delivery ι σ} (h : s.Delivered) (e : EventRecord) :
    (s.publish audience e).1.Delivered := by
  have hnodup := (audience.perm s.trace s.bus.subscribers).nodup_iff.mpr s.bus.nodup
  have hlisted (sub : ι) := (audience.perm s.trace s.bus.subscribers).mem_iff (a := sub)
  obtain ⟨htracks, hcalls⟩ := dispatch_calls audience e hnodup
    (s := { s with trace := s.trace ++ [.published e] }) fun sub => by
      rw [subscribedAfter_append]
      exact h.tracks sub
  refine ⟨htracks, fun sub => ?_⟩
  have hnone : Moment.received sub [.published e] = [] := rfl
  rw [Delivery.publish, (hcalls sub).1, (hcalls sub).2, received_append, due_append, h.received,
    hnone, List.append_nil]
  by_cases hsub : sub ∈ s.bus.subscribers
  · simp [hlisted, hsub, due, (h.tracks sub).mp hsub]
  · simp [hlisted, hsub, due, mt (h.tracks sub).mpr hsub]

theorem batchPublish_eq (events : List EventRecord) (s : Delivery ι σ) :
    s.batchPublish audience events =
      (events.foldl (fun s e => (s.publish audience e).1) s, .ok ()) := by
  induction events generalizing s with
  | nil => rfl
  | cons e rest ih =>
    have hpublish : s.publish audience e = ((s.publish audience e).1, .ok ()) := by
      rw [publish_eq]
    rw [batchPublish, hpublish]
    exact ih _

theorem Delivered.batchPublish {s : Delivery ι σ} (h : s.Delivered) (events : List EventRecord) :
    (s.batchPublish audience events).1.Delivered := by
  rw [batchPublish_eq]
  induction events generalizing s with
  | nil => exact h
  | cons e rest ih => exact ih (h.publish audience e)

theorem Delivered.change {s : Delivery ι σ} (h : s.Delivered) (c : Change ι) :
    (s.change c).Delivered := by
  refine ⟨h.tracks.change c, fun sub => ?_⟩
  have hquiet (subscribed : Bool) := quiet_changes sub subscribed [c]
  rw [Delivery.change, received_append, due_append, h.received]
  exact congrArg _ ((hquiet false).1.trans (hquiet _).2.symm)

theorem delivered_start (state : σ) : (start (ι := ι) (ε := ε) state).1.Delivered :=
  ⟨fun _ => ⟨fun h => absurd h List.not_mem_nil, fun h => by cases h⟩, fun _ => rfl⟩

theorem Delivered.step {s : Delivery ι σ} (h : s.Delivered) (call : BusCall ι) :
    (step audience s call).1.Delivered ∧ (step audience s call).2 = [.ok ()] := by
  cases call with
  | change c => exact ⟨h.change c, rfl⟩
  | publish e =>
    refine ⟨h.publish audience e, ?_⟩
    rw [Delivery.step, publish_eq]
  | batchPublish events =>
    refine ⟨h.batchPublish audience events, ?_⟩
    rw [Delivery.step, batchPublish_eq]

theorem delivered_exec (state : σ) (calls : List (BusCall ι)) :
    let run := Machine.exec (step audience) calls (start state)
    run.1.Delivered ∧ ∀ answer ∈ run.2, answer = .ok () := by
  refine Machine.exec_preserves (fun c : Delivery ι σ × List (Except ε Unit) =>
    c.1.Delivered ∧ ∀ answer ∈ c.2, answer = .ok ()) ?_
    ⟨delivered_start (ε := ε) state, fun _ h => absurd h List.not_mem_nil⟩ calls
  rintro ⟨s, answers⟩ call ⟨h, hok⟩
  obtain ⟨hdelivered, hanswer⟩ := h.step audience call
  refine ⟨hdelivered, ?_⟩
  rw [Machine.advance, hanswer]
  intro answer hmem
  rcases List.mem_append.mp hmem with hold | hnew
  · exact hok answer hold
  · exact List.mem_singleton.mp hnew

end Publications

end Delivery

end MollisRuntime.Observability
