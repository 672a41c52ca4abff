import MollisRuntime.Persistence.Recovery

/-!
A snapshot in the middle of a log. The state of the log so far is saved with a
timestamp between the past and the future events; the rest of the log follows,
and the whole is recovered from the snapshot and from genesis. Both recoveries
continue from the saved state: from genesis with the later events, from the
snapshot with the earlier events of the same stamp in front of them.
-/
namespace MollisRuntime.Persistence

open Ordered Python RecoveryManager

/-- A genesis recovery that is saved under a timestamp, and a log that goes on. -/
structure Checkpointing where
  store : StateStore
  clock : Clock
  state : RuntimeState
  recovered : recoveredState store .fromGenesis clock = .ok state
  stamp : Timestamp
  saved : StateStore
  saves : store.saveRuntimeState { state with timestamp := stamp.val } = .ok saved
  log : EventStore
  later : List RuntimeEvent
  continues : log.events = store.eventStore.events ++ later
  bounded : log.events.length ≤ 100000
  ordered : log.events.Pairwise fun d e => d.timestamp ≤ e.timestamp
  past : ∀ e ∈ store.eventStore.events, e.timestamp ≤ stamp.val
  future : ∀ e ∈ later, stamp.val ≤ e.timestamp
  window : (log.events.countP fun e => decide (stamp.val ≤ e.timestamp)) ≤ 100

namespace Checkpointing

variable (c : Checkpointing)

/-- The events that the snapshot contains. -/
def before : List RuntimeEvent := c.store.eventStore.events

/-- The store at the time of the recovery. -/
def reopened : StateStore := { c.saved with eventStore := c.log }

/-- The contained events that carry the snapshot's timestamp. -/
def boundary : List RuntimeEvent :=
  c.before.filter fun e => decide (c.stamp.val ≤ e.timestamp)

/-- The local variables after the contained events. -/
def reached : Reconstruction :=
  c.before.foldl Reconstruction.apply (.unpack (genesisState c.clock.starting))

end Checkpointing

section Keys

/-- The tasks and the workers stand under their own ids. -/
structure Reconstruction.Keyed (r : Reconstruction) : Prop where
  tasks : ∀ k t, r.tasks.get? k = some t → t.taskId = k
  workers : ∀ k w, r.workers.get? k = some w → w.workerId = k

theorem get?_replaceAt {α : Type} (d : Dict String α) (key k : String) (f : α → α) :
    (replaceAt d key f).get? k = if key = k then (d.get? key).map f else d.get? k := by
  unfold replaceAt
  split
  · rename_i a ha
    rw [Dict.get?_set, ha]
    rfl
  · rename_i hnone
    by_cases hk : key = k
    · subst hk
      simp [hnone]
    · simp [hk]

theorem keyed_set {α : Type} {id : α → String} {d : Dict String α}
    (h : ∀ k a, d.get? k = some a → id a = k) {key : String} {new : α} (hid : id new = key) :
    ∀ k a, (d.set key new).get? k = some a → id a = k := by
  intro k a ha
  rw [Dict.get?_set] at ha
  split at ha
  · rename_i hk
    cases ha
    exact hid.trans hk
  · exact h k a ha

theorem keyed_replaceAt {α : Type} {id : α → String} {d : Dict String α}
    (h : ∀ k a, d.get? k = some a → id a = k) (key : String) {f : α → α}
    (hf : ∀ a, id (f a) = id a) :
    ∀ k a, (replaceAt d key f).get? k = some a → id a = k := by
  intro k a ha
  rw [get?_replaceAt] at ha
  split at ha
  · rename_i hk
    obtain ⟨b, hb, rfl⟩ := Option.map_eq_some_iff.mp ha
    rw [hf]
    exact (h key b hb).trans hk
  · exact h k a ha

theorem Reconstruction.Keyed.apply {r : Reconstruction} (h : r.Keyed) (e : RuntimeEvent) :
    (r.apply e).Keyed := by
  unfold Reconstruction.apply
  split
  case h_1 => exact ⟨keyed_set h.tasks rfl, h.workers⟩
  case h_10 => exact ⟨h.tasks, keyed_set h.workers rfl⟩
  case h_2 | h_4 | h_5 | h_6 | h_7 | h_8 | h_9 =>
    exact ⟨keyed_replaceAt h.tasks _ fun _ => rfl, h.workers⟩
  case h_11 | h_12 | h_13 | h_14 =>
    exact ⟨h.tasks, keyed_replaceAt h.workers _ fun _ => rfl⟩
  case h_17 =>
    split
    · exact h
    · exact ⟨h.tasks, h.workers⟩
  all_goals exact ⟨h.tasks, h.workers⟩

theorem keyed_foldl {r : Reconstruction} (h : r.Keyed) (events : List RuntimeEvent) :
    (events.foldl Reconstruction.apply r).Keyed := by
  induction events generalizing r with
  | nil => exact h
  | cons e rest ih => exact ih (h.apply e)

theorem keyed_genesis (now : Timestamp) : (Reconstruction.unpack (genesisState now)).Keyed where
  tasks _ _ h := by cases h
  workers _ _ h := by cases h

end Keys

/-- In a list ordered by a key, what lies from a bound on stands at the end. -/
theorem exists_append_filter {α : Type} {stamp : α → String} {bound : String} (events : List α)
    (hordered : events.Pairwise fun d e => stamp d ≤ stamp e) :
    ∃ front, events = front ++ events.filter fun e => decide (bound ≤ stamp e) := by
  induction events with
  | nil => exact ⟨[], rfl⟩
  | cons e rest ih =>
    obtain ⟨hhead, htail⟩ := List.pairwise_cons.mp hordered
    by_cases he : bound ≤ stamp e
    · refine ⟨[], ?_⟩
      rw [List.nil_append, List.filter_eq_self.mpr]
      intro d hd
      rcases List.mem_cons.mp hd with rfl | hd
      · simpa using he
      · simpa using String.le_trans he (hhead d hd)
    · obtain ⟨front, hfront⟩ := ih htail
      refine ⟨e :: front, ?_⟩
      rw [List.filter_cons_of_neg (by simpa using he), List.cons_append, ← hfront]

namespace Checkpointing

variable (c : Checkpointing)

theorem before_bounded : c.before.length ≤ 100000 := by
  have hlength := congrArg List.length c.continues
  rw [List.length_append] at hlength
  have hbounded := c.bounded
  unfold before
  omega

/-- The saved state, packed from the variables it was rebuilt in. -/
theorem state_eq : c.state = c.reached.pack (genesisState c.clock.starting) c.clock.packing := by
  have hrecovered := c.recovered
  have hevents : c.store.eventStore.stream 100000 = c.before := by
    rw [EventStore.stream, List.drop_zero]
    exact List.take_of_length_le c.before_bounded
  rw [recoveredState_genesis, hevents] at hrecovered
  exact (Except.ok.inj hrecovered).symm

/-- The boundary events are the last ones before the snapshot. -/
theorem before_split : ∃ front, c.before = front ++ c.boundary := by
  have hordered := c.ordered
  rw [c.continues, List.pairwise_append] at hordered
  exact exists_append_filter c.before hordered.1

theorem keyed_reached : c.reached.Keyed := keyed_foldl (keyed_genesis c.clock.starting) c.before

/-- Loading the snapshot gives the variables back. -/
theorem unpack_reloaded (now : Timestamp) :
    Reconstruction.unpack (reloaded { c.state with timestamp := c.stamp.val } now) =
      c.reached := by
  have hkeyed := c.keyed_reached
  have htasks : savedTasks { c.state with timestamp := c.stamp.val } = c.reached.tasks := by
    rw [c.state_eq]
    exact Dict.rekey_of_keyed _ fun e he =>
      hkeyed.tasks e.1 e.2 ((Dict.mem_entries_iff _ _ _).mp he)
  have hworkers : savedWorkers { c.state with timestamp := c.stamp.val } =
      c.reached.workers := by
    rw [c.state_eq]
    exact Dict.rekey_of_keyed _ fun e he =>
      hkeyed.workers e.1 e.2 ((Dict.mem_entries_iff _ _ _).mp he)
  unfold Reconstruction.unpack reloaded
  rw [htasks, hworkers, c.state_eq]
  rfl

/-- What is read from the snapshot's timestamp on. -/
theorem streamFrom_stamp : c.log.streamFrom c.stamp.val = c.boundary ++ c.later := by
  have hfilter : c.log.events.filter (fun e => decide (c.stamp.val ≤ e.timestamp)) =
      c.boundary ++ c.later := by
    have hlater : c.later.filter (fun e => decide (c.stamp.val ≤ e.timestamp)) = c.later :=
      List.filter_eq_self.mpr fun e he => by simpa using c.future e he
    rw [c.continues, List.filter_append, hlater]
    rfl
  have hwindow := c.window
  rw [List.countP_eq_length_filter, hfilter] at hwindow
  rw [← List.take_of_length_le hwindow, ← hfilter]
  rfl

theorem recovered_snapshot (clock : Clock) :
    recoveredState c.reopened .fromLatestSnapshot clock =
      .ok ((c.later.foldl Reconstruction.apply
        (c.boundary.foldl Reconstruction.apply c.reached)).pack
          (reloaded { c.state with timestamp := c.stamp.val } clock.loading) clock.packing) := by
  have hstamp : ({ c.state with timestamp := c.stamp.val } : RuntimeState).stamp clock.loading =
      c.stamp.val := if_neg c.stamp.ne_empty
  rw [reopened, recoveredState_snapshot c.saves c.log clock, hstamp, c.streamFrom_stamp,
    c.unpack_reloaded, List.foldl_append]

theorem recovered_genesis (clock : Clock) :
    recoveredState c.reopened .fromGenesis clock =
      .ok ((c.later.foldl Reconstruction.apply c.reached).pack
        (genesisState clock.starting) clock.packing) := by
  have hevents : c.log.stream 100000 = c.before ++ c.later := by
    rw [EventStore.stream, List.drop_zero, List.take_of_length_le c.bounded]
    exact c.continues
  have hstart : Reconstruction.unpack (genesisState clock.starting) =
      Reconstruction.unpack (genesisState c.clock.starting) := rfl
  rw [recoveredState_genesis, reopened, hevents, List.foldl_append, hstart]
  rfl

end Checkpointing

end MollisRuntime.Persistence
