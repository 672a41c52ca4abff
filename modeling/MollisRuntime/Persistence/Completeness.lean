import Mathlib.Data.List.Range
import MollisRuntime.Persistence.Recovery

/-!
Which events a recovery applies. The log is ordered by sequence numbers, but
after a saved state the events are selected by timestamp and only the first
hundred are read. All events appended after the save are applied exactly if
none of them is stamped before the snapshot and the selection is not cut.
-/
namespace MollisRuntime.Persistence

open Ordered Python RecoveryManager

/-- The rows of the events table: the events and their sequence numbers. -/
def EventStore.rows (log : EventStore) : List (RuntimeEvent × ℕ) := log.events.zipIdx 1

/-- The rows whose events are replayed. -/
def rowsToReplay (log : EventStore) (loaded : Option RuntimeState) : List (RuntimeEvent × ℕ) :=
  match loaded with
  | some base =>
    if base.timestamp ≠ "" then
      (log.rows.filter fun row => base.timestamp ≤ row.1.timestamp).take 100
    else log.rows.take 100000
  | none => log.rows.take 100000

/-- Recovering from the latest snapshot applies the event with this number. -/
def AppliesRow (store : StateStore) (clock : Clock) (number : ℕ) : Prop :=
  ∃ loaded, store.loadRuntimeState clock.loading = .ok loaded ∧
    number ∈ (rowsToReplay store.eventStore loaded).map Prod.snd

section Rows

variable (log : EventStore)

theorem rows_events : log.rows.map Prod.fst = log.events := List.zipIdx_map_fst 1 log.events

theorem filter_rows_events (p : RuntimeEvent → Bool) :
    (log.rows.filter fun row => p row.1).map Prod.fst = log.events.filter p := by
  rw [← rows_events log, List.filter_map]
  rfl

/-- They are the rows of the events that `recover` folds over. -/
theorem rowsToReplay_events (loaded : Option RuntimeState) :
    (rowsToReplay log loaded).map Prod.fst = eventsToReplay log loaded := by
  have hall : (log.rows.take 100000).map Prod.fst = log.stream 100000 := by
    rw [List.map_take, rows_events]
    rfl
  cases loaded with
  | none => exact hall
  | some base =>
    by_cases hstamp : base.timestamp ≠ ""
    · simp only [rowsToReplay, eventsToReplay, if_pos hstamp]
      rw [List.map_take, filter_rows_events log fun e => decide (base.timestamp ≤ e.timestamp)]
      rfl
    · simp only [rowsToReplay, eventsToReplay, if_neg hstamp]
      exact hall

theorem rows_numbers : log.rows.map Prod.snd = List.range' 1 log.events.length :=
  List.zipIdx_map_snd 1 log.events

theorem rows_increasing : (log.rows.map Prod.snd).Pairwise (· < ·) := by
  rw [rows_numbers]
  exact List.pairwise_lt_range'

/-- A number belongs to one event only. -/
theorem eq_of_mem_rows {d e : RuntimeEvent} {number : ℕ} (hd : (d, number) ∈ log.rows)
    (he : (e, number) ∈ log.rows) : d = e := by
  have hnodup : (log.rows.map Prod.snd).Nodup := (rows_increasing log).imp fun h => Nat.ne_of_lt h
  exact (Prod.mk.inj (List.inj_on_of_nodup_map hnodup hd he rfl)).1

/-- The rows appended last. -/
theorem rows_append {before later : List RuntimeEvent} (hlog : log.events = before ++ later) :
    log.rows = before.zipIdx 1 ++ later.zipIdx (before.length + 1) := by
  rw [EventStore.rows, hlog, List.zipIdx_append, Nat.add_comm]

theorem exists_later_row {before later : List RuntimeEvent} (hlog : log.events = before ++ later)
    {number : ℕ} (hafter : before.length < number) (hbound : number ≤ log.events.length) :
    ∃ e ∈ later, (e, number) ∈ log.rows := by
  have hnumber : number ∈ (later.zipIdx (before.length + 1)).map Prod.snd := by
    rw [List.zipIdx_map_snd, List.mem_range'_1]
    have hlength := congrArg List.length hlog
    rw [List.length_append] at hlength
    omega
  obtain ⟨⟨e, number'⟩, hrow, rfl⟩ := List.mem_map.mp hnumber
  refine ⟨e, List.fst_mem_of_mem_zipIdx hrow, ?_⟩
  rw [rows_append log hlog]
  exact List.mem_append_right _ hrow

theorem exists_number {before later : List RuntimeEvent} (hlog : log.events = before ++ later)
    {e : RuntimeEvent} (he : e ∈ later) :
    ∃ number, before.length < number ∧ number ≤ log.events.length ∧ (e, number) ∈ log.rows := by
  rw [← List.zipIdx_map_fst (before.length + 1) later] at he
  obtain ⟨⟨e', number⟩, hrow, rfl⟩ := List.mem_map.mp he
  have hnumber : number ∈ (later.zipIdx (before.length + 1)).map Prod.snd :=
    List.mem_map_of_mem hrow
  rw [List.zipIdx_map_snd, List.mem_range'_1] at hnumber
  have hlength := congrArg List.length hlog
  rw [List.length_append] at hlength
  refine ⟨number, by omega, by omega, ?_⟩
  rw [rows_append log hlog]
  exact List.mem_append_right _ hrow

end Rows

section Selecting

variable (log : EventStore) (start : String)

/-- The rows stamped at the start or after it. -/
def rowsFrom : List (RuntimeEvent × ℕ) :=
  log.rows.filter fun row => start ≤ row.1.timestamp

theorem length_rowsFrom : (rowsFrom log start).length =
    log.events.countP fun e => decide (start ≤ e.timestamp) := by
  rw [List.countP_eq_length_filter,
    ← filter_rows_events log fun e => decide (start ≤ e.timestamp), List.length_map]
  rfl

/-- If the last number is among the first hundred, nothing is cut off. -/
theorem length_le_of_mem_take {number : ℕ}
    (hlast : number ∈ ((rowsFrom log start).take 100).map Prod.snd)
    (hmax : log.events.length ≤ number) : (rowsFrom log start).length ≤ 100 := by
  by_contra hlong
  have hincreasing : ((rowsFrom log start).map Prod.snd).Pairwise (· < ·) :=
    (rows_increasing log).sublist (List.filter_sublist.map Prod.snd)
  rw [← List.take_append_drop 100 (rowsFrom log start), List.map_append,
    List.pairwise_append] at hincreasing
  have hmore : (rowsFrom log start).drop 100 ≠ [] := by
    rw [Ne, List.drop_eq_nil_iff]
    exact hlong
  obtain ⟨row, hrow⟩ := List.exists_mem_of_ne_nil _ hmore
  have hgreater := hincreasing.2.2 number hlast row.2 (List.mem_map_of_mem hrow)
  have hbound : row.2 ∈ log.rows.map Prod.snd :=
    List.mem_map_of_mem (List.mem_of_mem_filter (List.mem_of_mem_drop hrow))
  rw [rows_numbers, List.mem_range'_1] at hbound
  omega

end Selecting

/-- After a save, the rows to replay are the first hundred from the snapshot's
timestamp on. -/
theorem appliesRow_iff {store saved : StateStore} {state : RuntimeState}
    (hsaved : store.saveRuntimeState state = .ok saved) (log : EventStore) (clock : Clock)
    (number : ℕ) :
    AppliesRow { saved with eventStore := log } clock number ↔
      number ∈ ((rowsFrom log (state.stamp clock.loading)).take 100).map Prod.snd := by
  have hload := loadRuntimeState_saved hsaved log clock.loading
  have hrows : rowsToReplay log (some (reloaded state clock.loading)) =
      (rowsFrom log (state.stamp clock.loading)).take 100 :=
    if_pos (state.stamp_ne_empty clock.loading)
  rw [← hrows]
  constructor
  · rintro ⟨loaded, hloaded, hnumber⟩
    rw [hload] at hloaded
    cases hloaded
    exact hnumber
  · intro hnumber
    exact ⟨_, hload, hnumber⟩

/-- Every event appended after the save is applied exactly if all of them carry
the snapshot's timestamp or a later one and the log has at most a hundred
events that do. -/
theorem snapshot_recovery_complete_iff (store saved : StateStore) (state : RuntimeState)
    (hsaved : store.saveRuntimeState state = .ok saved) (log : EventStore)
    (later : List RuntimeEvent) (hlog : log.events = store.eventStore.events ++ later)
    (clock : Clock) :
    (∀ number, store.eventStore.events.length < number → number ≤ log.events.length →
        AppliesRow { saved with eventStore := log } clock number) ↔
      later = [] ∨ (∀ e ∈ later, state.stamp clock.loading ≤ e.timestamp) ∧
        (log.events.countP fun e => decide (state.stamp clock.loading ≤ e.timestamp)) ≤ 100 := by
  simp only [appliesRow_iff hsaved]
  rw [← length_rowsFrom]
  constructor
  · intro happlies
    by_cases hlater : later = []
    · exact Or.inl hlater
    · refine Or.inr ⟨?_, ?_⟩
      · intro e he
        obtain ⟨number, hafter, hbound, hrow⟩ := exists_number log hlog he
        obtain ⟨⟨e', number'⟩, hmem, rfl⟩ := List.mem_map.mp (happlies number hafter hbound)
        have hselected := List.mem_filter.mp (List.mem_of_mem_take hmem)
        rw [eq_of_mem_rows log hrow hselected.1]
        simpa using hselected.2
      · have hlength := congrArg List.length hlog
        rw [List.length_append] at hlength
        have hpos := List.length_pos_of_ne_nil hlater
        exact length_le_of_mem_take log _ (happlies log.events.length (by omega) le_rfl) le_rfl
  · rintro (rfl | ⟨hstamps, hlength⟩) number hafter hbound
    · rw [hlog, List.append_nil] at hbound
      omega
    · obtain ⟨e, he, hrow⟩ := exists_later_row log hlog hafter hbound
      rw [List.take_of_length_le hlength]
      refine List.mem_map.mpr ⟨(e, number), ?_, rfl⟩
      exact List.mem_filter.mpr ⟨hrow, by simpa using hstamps e he⟩

section Samples

def snapshotTime : Timestamp := ⟨"2026-01-01T00:00:00", by decide⟩

def laterTime : Timestamp := ⟨"2026-01-01T00:00:10", by decide⟩

def sampleClock : Clock := ⟨laterTime, laterTime, laterTime, 0⟩

/-- A heartbeat that was appended after the snapshot. -/
def heartbeat : RuntimeEvent where
  kind := .workerHeartbeat "W-001" "2026-01-01T00:00:05"
  timestamp := "2026-01-01T00:00:05"

def heartbeats (count : ℕ) : EventStore where
  events := List.replicate count heartbeat
  serialisable e he := by
    rw [List.eq_of_mem_replicate he]
    rfl

theorem exists_saved :
    ∃ saved, ({} : StateStore).saveRuntimeState (genesisState snapshotTime) = .ok saved :=
  ⟨_, rfl⟩

/-- A hundred of them are applied. -/
theorem heartbeats_applied : ∃ saved,
    ({} : StateStore).saveRuntimeState (genesisState snapshotTime) = .ok saved ∧
    ∀ number, 0 < number → number ≤ 100 →
      AppliesRow { saved with eventStore := heartbeats 100 } sampleClock number := by
  obtain ⟨saved, hsaved⟩ := exists_saved
  refine ⟨saved, hsaved, ?_⟩
  have happlies := (snapshot_recovery_complete_iff {} saved _ hsaved (heartbeats 100)
    (List.replicate 100 heartbeat) rfl sampleClock).mpr (Or.inr ⟨?_, List.countP_le_length⟩)
  · intro number hpos hbound
    exact happlies number hpos (by simpa [heartbeats] using hbound)
  · intro e he
    rw [List.eq_of_mem_replicate he]
    decide

/-- The last of 101 is not. -/
theorem not_snapshot_recovery_complete : ¬ ∀ (store saved : StateStore) (state : RuntimeState),
    store.saveRuntimeState state = .ok saved → ∀ (log : EventStore) (later : List RuntimeEvent),
    log.events = store.eventStore.events ++ later → ∀ clock : Clock,
    ∀ number, store.eventStore.events.length < number → number ≤ log.events.length →
      AppliesRow { saved with eventStore := log } clock number := by
  intro h
  obtain ⟨saved, hsaved⟩ := exists_saved
  have happlies := h {} saved _ hsaved (heartbeats 101) (List.replicate 101 heartbeat) rfl
    sampleClock 101 (by decide) (by decide)
  rw [appliesRow_iff hsaved] at happlies
  have hlength := length_le_of_mem_take (heartbeats 101) _ happlies (by decide)
  -- All 101 are stamped after the snapshot.
  rw [length_rowsFrom, heartbeats, List.countP_replicate, if_pos (by decide)] at hlength
  omega

end Samples

end MollisRuntime.Persistence
