import MollisRuntime.Scheduling.Handlers

/-!
What is counted and logged for an attempt. A worker that ends an attempt counts
it once and logs at most one outcome. A timeout that fires counts and logs the
attempt as well, while the worker goes on with it.
-/
namespace MollisRuntime.Scheduling

open Ordered Python Persistence
open RuntimeEngine (step create run)

section Notes

/-- TaskCompleted and TaskTimedOut. -/
def isOutcome (event : RuntimeEvent) : Bool :=
  match event.kind with
  | .taskCompleted _ => true
  | .taskTimedOut _ => true
  | _ => false

/-- The attempt that a note counts. -/
def Note.counts : Note → Option ℕ
  | .counted attempt _ => some attempt
  | _ => none

def Note.ends : Note → Option ℕ
  | .ended attempt => some attempt
  | _ => none

/-- The attempt whose outcome a note tells. -/
def Note.reports : Note → Option ℕ
  | .logged event attempt => if isOutcome event then attempt else none
  | _ => none

/-- A note that neither counts, ends nor reports an attempt. -/
def Note.Incidental (note : Note) : Prop :=
  note.counts = none ∧ note.ends = none ∧ note.reports = none

theorem Note.incidental_logged (event : RuntimeEvent) : (Note.logged event none).Incidental := by
  refine ⟨rfl, rfl, ?_⟩
  dsimp only [reports]
  split <;> rfl

def counted (notes : List Note) : List ℕ := notes.filterMap Note.counts

def ended (notes : List Note) : List ℕ := notes.filterMap Note.ends

def reported (notes : List Note) : List ℕ := notes.filterMap Note.reports

theorem counted_append (notes more : List Note) :
    counted (notes ++ more) = counted notes ++ counted more := List.filterMap_append

theorem ended_append (notes more : List Note) :
    ended (notes ++ more) = ended notes ++ ended more := List.filterMap_append

theorem reported_append (notes more : List Note) :
    reported (notes ++ more) = reported notes ++ reported more := List.filterMap_append

theorem incidental_notes {notes : List Note} (h : ∀ note ∈ notes, note.Incidental) :
    counted notes = [] ∧ ended notes = [] ∧ reported notes = [] :=
  ⟨List.filterMap_eq_nil_iff.mpr fun note hnote => (h note hnote).1,
    List.filterMap_eq_nil_iff.mpr fun note hnote => (h note hnote).2.1,
    List.filterMap_eq_nil_iff.mpr fun note hnote => (h note hnote).2.2⟩

theorem mem_ended {notes : List Note} {attempt : ℕ} :
    attempt ∈ ended notes ↔ .ended attempt ∈ notes := by
  rw [ended, List.mem_filterMap]
  constructor
  · rintro ⟨note, hnote, hends⟩
    cases note with
    | ended other =>
      cases hends
      exact hnote
    | _ => cases hends
  · intro hnote
    exact ⟨_, hnote, rfl⟩

/-- How many attempts the notes add to one of the counters. -/
def tally (notes : List Note) (completed : Bool) : ℕ :=
  notes.countP fun note => match note with
    | .counted _ success => success == completed
    | _ => false

theorem tally_append (notes more : List Note) (completed : Bool) :
    tally (notes ++ more) completed = tally notes completed + tally more completed :=
  List.countP_append

theorem tally_eq_zero {notes : List Note} (h : ∀ note ∈ notes, note.counts = none)
    (completed : Bool) : tally notes completed = 0 := by
  refine List.countP_eq_zero.mpr ?_
  intro note hnote
  have hcounts := h note hnote
  cases note with
  | counted => cases hcounts
  | _ => exact Bool.false_ne_true

theorem length_counted (notes : List Note) :
    (counted notes).length = tally notes true + tally notes false := by
  induction notes with
  | nil => rfl
  | cons note rest ih =>
    rw [← List.singleton_append, counted_append, tally_append, tally_append, List.length_append, ih]
    cases note with
    | counted attempt completed => cases completed <;> simp [counted, tally, Note.counts] <;> omega
    | _ => simp [counted, tally, Note.counts]

end Notes

section Handlers

variable {P : Type}

/-- What a handler counts and reports of an attempt, and what it does to the
counters; the number of attempts that were started stays. -/
structure Outcome.Tells (o : Outcome P) (sys : RuntimeEngine P) (counts reports : List ℕ) :
    Prop where
  counted_eq : counted o.notes = counts
  ended_eq : ended o.notes = []
  reported_sublist : (reported o.notes).Sublist reports
  completed : o.system.tasksCompleted = sys.tasksCompleted + tally o.notes true
  failed : o.system.tasksFailed = sys.tasksFailed + tally o.notes false

/-- A handler whose notes are incidental and that leaves the counters alone. -/
theorem Outcome.tells_nothing {o : Outcome P} {sys : RuntimeEngine P}
    (hnotes : ∀ note ∈ o.notes, note.Incidental)
    (hcompleted : o.system.tasksCompleted = sys.tasksCompleted)
    (hfailed : o.system.tasksFailed = sys.tasksFailed) : o.Tells sys [] [] := by
  obtain ⟨hcounted, hended, hreported⟩ := incidental_notes hnotes
  refine ⟨hcounted, hended, hreported ▸ List.Sublist.refl [], ?_, ?_⟩
  · rw [hcompleted, tally_eq_zero fun note hnote => (hnotes note hnote).1]
    rfl
  · rw [hfailed, tally_eq_zero fun note hnote => (hnotes note hnote).1]
    rfl

variable [SchedulingPolicy P] [FloatArith] {sys : RuntimeEngine P} {env : StepEnv}

theorem tells_attemptFailed (sys : RuntimeEngine P) (env : StepEnv) (attempt : Attempt)
    (error : Raised) :
    (sys.attemptFailed env attempt error).Tells sys [attempt.number] [] := by
  have hincidental : ∀ note ∈ ((sys.settle attempt.task .failed).countFailed.handleTaskFailure env
      attempt.task error).notes, note.Incidental :=
    RuntimeEngine.forall_notes_handleTaskFailure Note.incidental_logged fun _ => ⟨rfl, rfl, rfl⟩
  obtain ⟨hcounted, hended, hreported⟩ := incidental_notes hincidental
  obtain ⟨object, queue, tracker, hsystem⟩ := sys.system_attemptFailed env attempt error
  have hnotes : (sys.attemptFailed env attempt error).notes =
      [.counted attempt.number false] ++ ((sys.settle attempt.task
        .failed).countFailed.handleTaskFailure env attempt.task error).notes := rfl
  constructor
  · rw [hnotes, counted_append, hcounted]
    rfl
  · rw [hnotes, ended_append, hended]
    rfl
  · rw [hnotes, reported_append, hreported]
    exact List.Sublist.refl []
  · rw [hnotes, tally_append, tally_eq_zero fun note hnote => (hincidental note hnote).1, hsystem]
    rfl
  · rw [hnotes, tally_append, tally_eq_zero fun note hnote => (hincidental note hnote).1, hsystem]
    rfl

theorem tells_attemptSucceeded (sys : RuntimeEngine P) (env : StepEnv) (attempt : Attempt) :
    (sys.attemptSucceeded env attempt).Tells sys [attempt.number] [attempt.number] := by
  obtain ⟨object, hsettled⟩ := sys.settle_eq attempt.task .completed
  obtain ⟨e, -, hraised⟩ | ⟨-, hdone⟩ := sys.system_attemptSucceeded env attempt
  · have htells := tells_attemptFailed (sys.settle attempt.task .completed) env attempt e
    rw [hraised]
    refine ⟨htells.counted_eq, htells.ended_eq,
      htells.reported_sublist.trans (List.nil_sublist _), ?_, ?_⟩
    · rw [htells.completed, hsettled]
      rfl
    · rw [htells.failed, hsettled]
      rfl
  · obtain hnone | hone := (sys.settle attempt.task .completed).notes_record env
      (.taskCompleted attempt.task.id) (some attempt.number) .empty
    · rw [hdone, hnone, hsettled]
      exact ⟨rfl, rfl, List.nil_sublist _, rfl, rfl⟩
    · rw [hdone, hone, hsettled]
      exact ⟨rfl, rfl, List.Sublist.refl _, rfl, rfl⟩

theorem tells_executed (sys : RuntimeEngine P) (env : StepEnv) (attempt : Attempt)
    (result : Except Raised Unit) :
    (sys.executed env attempt result).Tells sys [attempt.number] [attempt.number] := by
  cases result with
  | ok _ => exact tells_attemptSucceeded sys env attempt
  | error e =>
    have htells := tells_attemptFailed sys env attempt e
    exact { htells with reported_sublist := htells.reported_sublist.trans (List.nil_sublist _) }

/-- A timeout that fires counts the attempt as well. -/
theorem tells_timeout {workerId : String} {attempt : Attempt}
    (h : sys.firing env workerId = some attempt) :
    (sys.timeout env workerId).Tells sys [attempt.number]
      (reported (sys.timeout env workerId).notes) := by
  obtain ⟨object, queue, tracker, hsystem⟩ :=
    (sys.setStatus attempt.task .failed).system_handleTaskTimeout_frame env attempt
  have hnotes : (sys.timeout env workerId).notes = [.counted attempt.number false] ++
      (((sys.setStatus attempt.task .failed).countFailed.reportTimeout env attempt).andThen fun s =>
        s.handleTaskFailure env attempt.task .timeout).notes := by
    rw [RuntimeEngine.timeout, h]
    rfl
  have hrest : ∀ note ∈ (((sys.setStatus attempt.task .failed).countFailed.reportTimeout env
      attempt).andThen fun s => s.handleTaskFailure env attempt.task .timeout).notes,
      note.counts = none ∧ note.ends = none :=
    RuntimeEngine.forall_notes_andThen
      (RuntimeEngine.forall_notes_andThen (RuntimeEngine.forall_notes_record ⟨rfl, rfl⟩)
        fun _ => RuntimeEngine.forall_notes_record ⟨rfl, rfl⟩)
      fun _ => RuntimeEngine.forall_notes_handleTaskFailure (fun _ => ⟨rfl, rfl⟩)
        fun _ => ⟨rfl, rfl⟩
  have hcounters : (sys.timeout env workerId).system.tasksCompleted = sys.tasksCompleted ∧
      (sys.timeout env workerId).system.tasksFailed = sys.tasksFailed + 1 := by
    rw [RuntimeEngine.timeout, h]
    dsimp only
    rw [Outcome.system_caught, hsystem]
    exact ⟨rfl, rfl⟩
  refine ⟨?_, ?_, List.Sublist.refl _, ?_, ?_⟩
  · rw [hnotes, counted_append, counted, counted,
      List.filterMap_eq_nil_iff.mpr fun note hnote => (hrest note hnote).1]
    rfl
  · rw [hnotes, ended_append, ended, ended,
      List.filterMap_eq_nil_iff.mpr fun note hnote => (hrest note hnote).2]
    rfl
  · rw [hcounters.1, hnotes, tally_append, tally_eq_zero fun note hnote => (hrest note hnote).1]
    rfl
  · rw [hcounters.2, hnotes, tally_append, tally_eq_zero fun note hnote => (hrest note hnote).1]
    rfl

/-- No other action counts, ends or reports an attempt. -/
theorem tells_quiet (sys : RuntimeEngine P) (env : StepEnv) (action : Action)
    (hconclude : ∀ workerId result, action = .conclude workerId result →
      ∀ attempt, sys.workers.get? workerId ≠ some (.executing attempt))
    (htimeout : ∀ workerId, action = .timeout workerId → sys.firing env workerId = none) :
    (sys.perform env action).Tells sys [] [] := by
  cases action with
  | schedule task admission delay =>
    obtain ⟨queue, tracker, hsystem⟩ := sys.system_schedule env task admission delay
    refine Outcome.tells_nothing (RuntimeEngine.forall_notes_schedule Note.incidental_logged
      ⟨rfl, rfl, rfl⟩) ?_ ?_ <;> (rw [RuntimeEngine.perform, hsystem]; rfl)
  | submitTask task title taskType metadata admission delay =>
    have hincidental : ∀ note ∈ (sys.submitTask env task title taskType metadata admission
        delay).notes, note.Incidental :=
      RuntimeEngine.forall_notes_submitTask Note.incidental_logged ⟨rfl, rfl, rfl⟩
    obtain hsystem | ⟨-, object, queue, tracker, hsystem⟩ :=
      sys.system_submitTask env task title taskType metadata admission delay
    · refine Outcome.tells_nothing hincidental ?_ ?_ <;> rw [RuntimeEngine.perform, hsystem]
    · refine Outcome.tells_nothing hincidental ?_ ?_ <;>
        (rw [RuntimeEngine.perform, hsystem]; rfl)
  | release =>
    obtain ⟨queue, tracker, hsystem⟩ := sys.system_release env
    refine Outcome.tells_nothing (RuntimeEngine.forall_notes_release Note.incidental_logged) ?_ ?_
      <;> rw [RuntimeEngine.perform, hsystem]
  | dispatch =>
    obtain ⟨queue, pool, hsystem⟩ := sys.system_dispatch env
    refine Outcome.tells_nothing (RuntimeEngine.forall_notes_dispatch Note.incidental_logged) ?_ ?_
      <;> rw [RuntimeEngine.perform, hsystem]
  | start workerId =>
    obtain ⟨objects, pool, workers, attempts, hsystem, -⟩ := sys.system_start env workerId
    refine Outcome.tells_nothing (RuntimeEngine.forall_notes_start Note.incidental_logged
      fun _ => ⟨rfl, rfl, rfl⟩) ?_ ?_ <;> rw [RuntimeEngine.perform, hsystem]
  | conclude workerId result =>
    rw [RuntimeEngine.perform, RuntimeEngine.conclude]
    split
    · rename_i attempt hslot
      exact absurd hslot (hconclude workerId result rfl attempt)
    · exact Outcome.tells_nothing (by simp) rfl rfl
  | timeout workerId =>
    rw [RuntimeEngine.perform, RuntimeEngine.timeout, htimeout workerId rfl]
    exact Outcome.tells_nothing (by simp) rfl rfl
  | respawn workerId =>
    obtain ⟨workers, hsystem⟩ := sys.system_respawn env workerId
    refine Outcome.tells_nothing (RuntimeEngine.forall_notes_respawn Note.incidental_logged) ?_ ?_
      <;> rw [RuntimeEngine.perform, hsystem]

end Handlers

section Property

variable {P : Type}

/-- The counters are what the notes say. -/
structure Told (c : RuntimeEngine P × List Note) : Prop where
  completed : c.1.tasksCompleted = tally c.2 true
  failed : c.1.tasksFailed = tally c.2 false

/-- Every attempt that has ended was counted once and reported once at most, and
the counters add up to the number of ended attempts. -/
structure OneOutcomeEach (c : RuntimeEngine P × List Note) : Prop where
  outcome : ∀ attempt, .ended attempt ∈ c.2 →
    (counted c.2).count attempt = 1 ∧ (reported c.2).count attempt ≤ 1
  total : c.1.tasksCompleted + c.1.tasksFailed = (ended c.2).length

/-- The attempts in the order in which they ended are those that were counted;
an attempt that goes on is not among them. -/
structure Settled (c : RuntimeEngine P × List Note) : Prop where
  told : Told c
  counted_eq : counted c.2 = ended c.2
  reported_sublist : (reported c.2).Sublist (ended c.2)
  nodup : (ended c.2).Nodup
  past : ∀ attempt ∈ ended c.2, attempt < c.1.attempts
  open_attempts : ∀ workerId attempt, c.1.workers.get? workerId = some (.executing attempt) →
    attempt.number < c.1.attempts ∧ attempt.number ∉ ended c.2
  apart : ∀ workerId other attempt attempt', c.1.workers.get? workerId = some (.executing attempt) →
    c.1.workers.get? other = some (.executing attempt') → attempt.number = attempt'.number →
    workerId = other

theorem Told.total {c : RuntimeEngine P × List Note} (h : Told c) :
    c.1.tasksCompleted + c.1.tasksFailed = (counted c.2).length := by
  rw [length_counted, h.completed, h.failed]

theorem Settled.oneOutcomeEach {c : RuntimeEngine P × List Note} (h : Settled c) :
    OneOutcomeEach c := by
  refine ⟨?_, h.counted_eq ▸ h.told.total⟩
  intro attempt hended
  constructor
  · rw [h.counted_eq]
    exact List.count_eq_one_of_mem h.nodup (mem_ended.mpr hended)
  · exact List.nodup_iff_count_le_one.mp (h.nodup.sublist h.reported_sublist) attempt

end Property

section Runs

variable {P : Type} [SchedulingPolicy P] [FloatArith]

/-- Every step, also one that times an attempt out, adds to the counters what it
notes. -/
theorem Told.advance {c : RuntimeEngine P × List Note} (h : Told c) (a : StepEnv × Action) :
    Told (Machine.advance step c a) := by
  suffices hstep : (c.1.perform a.1 a.2).system.tasksCompleted =
        c.1.tasksCompleted + tally (c.1.perform a.1 a.2).notes true ∧
      (c.1.perform a.1 a.2).system.tasksFailed =
        c.1.tasksFailed + tally (c.1.perform a.1 a.2).notes false by
    constructor
    · rw [Machine.advance, tally_append, ← h.completed]
      exact hstep.1
    · rw [Machine.advance, tally_append, ← h.failed]
      exact hstep.2
  by_cases hends : ∃ workerId result attempt, a.2 = .conclude workerId result ∧
      c.1.workers.get? workerId = some (.executing attempt)
  · obtain ⟨workerId, result, attempt, haction, hslot⟩ := hends
    have htells := tells_executed c.1 a.1 attempt result
    rw [haction, RuntimeEngine.perform, RuntimeEngine.conclude_executing hslot]
    dsimp only [RuntimeEngine.finish]
    rw [tally_append, tally_append]
    exact ⟨htells.completed, htells.failed⟩
  by_cases hfires : ∃ workerId attempt, a.2 = .timeout workerId ∧
      c.1.firing a.1 workerId = some attempt
  · obtain ⟨workerId, attempt, haction, hfiring⟩ := hfires
    have htells := tells_timeout hfiring
    rw [haction]
    exact ⟨htells.completed, htells.failed⟩
  · have htells := tells_quiet c.1 a.1 a.2 ?_ ?_
    · exact ⟨htells.completed, htells.failed⟩
    · intro workerId result haction attempt hslot
      exact hends ⟨workerId, result, attempt, haction, hslot⟩
    · intro workerId haction
      refine Option.eq_none_iff_forall_ne_some.mpr ?_
      intro attempt hfiring
      exact hfires ⟨workerId, attempt, haction, hfiring⟩

/-- No timeout fires. -/
def NoTimeout (c : RuntimeEngine P × List Note) (a : StepEnv × Action) : Prop :=
  match a.2 with
  | .timeout workerId => c.1.firing a.1 workerId = none
  | _ => True

/-- Attempts that go on after a step in which no timeout fires. -/
theorem executing_advance {c : RuntimeEngine P × List Note} {a : StepEnv × Action}
    (ha : NoTimeout c a) {workerId : String} {attempt : Attempt}
    (hexecuting : (Machine.advance step c a).1.workers.get? workerId = some (.executing attempt)) :
    c.1.workers.get? workerId = some (.executing attempt) ∨
      (a.2 = .start workerId ∧ attempt.number = c.1.attempts ∧
        (Machine.advance step c a).1.attempts = c.1.attempts + 1) := by
  obtain hbefore | ⟨haction, hnumber, -, hattempts⟩ | ⟨old, haction, hfiring, -⟩ :=
    RuntimeEngine.executing_perform hexecuting
  · exact .inl hbefore
  · exact .inr ⟨haction, hnumber, hattempts⟩
  · have hnone : c.1.firing a.1 workerId = none := by
      rw [NoTimeout, haction] at ha
      exact ha
    cases hnone.symm.trans hfiring

/-- The attempts of different workers stay apart. -/
theorem Settled.apart_advance {c : RuntimeEngine P × List Note} (h : Settled c)
    (a : StepEnv × Action) (ha : NoTimeout c a) (workerId other : String)
    (attempt attempt' : Attempt)
    (hworker : (Machine.advance step c a).1.workers.get? workerId = some (.executing attempt))
    (hother : (Machine.advance step c a).1.workers.get? other = some (.executing attempt'))
    (hnumber : attempt.number = attempt'.number) : workerId = other := by
  obtain hworker | ⟨hstart, hfresh, -⟩ := executing_advance ha hworker
  · obtain hother | ⟨-, hfresh, -⟩ := executing_advance ha hother
    · exact h.apart workerId other attempt attempt' hworker hother hnumber
    · have hpast := (h.open_attempts workerId attempt hworker).1
      omega
  · obtain hother | ⟨hstart', -⟩ := executing_advance ha hother
    · have hpast := (h.open_attempts other attempt' hother).1
      omega
    · exact Action.start.inj (hstart.symm.trans hstart')

/-- A step that ends no attempt. -/
theorem Settled.advance_quiet {c : RuntimeEngine P × List Note} {a : StepEnv × Action}
    (h : Settled c) (ha : NoTimeout c a)
    (hconclude : ∀ workerId result, a.2 = .conclude workerId result →
      ∀ attempt, c.1.workers.get? workerId ≠ some (.executing attempt)) :
    Settled (Machine.advance step c a) := by
  have htells := tells_quiet c.1 a.1 a.2 hconclude fun workerId haction => by
    rw [NoTimeout, haction] at ha
    exact ha
  have hcounted : counted (Machine.advance step c a).2 = counted c.2 := by
    rw [Machine.advance, counted_append]
    exact (congrArg _ htells.counted_eq).trans (List.append_nil _)
  have hended : ended (Machine.advance step c a).2 = ended c.2 := by
    rw [Machine.advance, ended_append]
    exact (congrArg _ htells.ended_eq).trans (List.append_nil _)
  have hreported : reported (Machine.advance step c a).2 = reported c.2 := by
    rw [Machine.advance, reported_append]
    exact (congrArg _ (List.sublist_nil.mp htells.reported_sublist)).trans (List.append_nil _)
  have hattempts := c.1.attempts_perform a.1 a.2
  refine ⟨h.told.advance a, ?_, ?_, ?_, ?_, ?_, ?_⟩
  · rw [hcounted, hended, h.counted_eq]
  · rw [hreported, hended]
    exact h.reported_sublist
  · rw [hended]
    exact h.nodup
  · intro attempt hmem
    rw [hended] at hmem
    exact (h.past attempt hmem).trans_le hattempts
  · intro workerId attempt hexecuting
    rw [hended]
    obtain hbefore | ⟨-, hfresh, hmore⟩ := executing_advance ha hexecuting
    · obtain ⟨hpast, hopen⟩ := h.open_attempts workerId attempt hbefore
      exact ⟨hpast.trans_le hattempts, hopen⟩
    · refine ⟨by omega, fun hmem => ?_⟩
      have hpast := h.past attempt.number hmem
      omega
  · exact h.apart_advance a ha

/-- A worker ends its attempt. -/
theorem Settled.advance_conclude {c : RuntimeEngine P × List Note} {env : StepEnv}
    {workerId : String} {attempt : Attempt} (h : Settled c)
    (hslot : c.1.workers.get? workerId = some (.executing attempt))
    (result : Except Raised Unit) :
    Settled (Machine.advance step c (env, .conclude workerId result)) := by
  have htells := tells_executed c.1 env attempt result
  obtain ⟨hworkers, hattempts⟩ := c.1.workers_executed env attempt result
  obtain ⟨hpast, hopen⟩ := h.open_attempts workerId attempt hslot
  have hadvance : Machine.advance step c (env, .conclude workerId result) =
      ((c.1.executed env attempt result).system.setSlot workerId .idle,
        c.2 ++ (c.1.executed env attempt result).notes ++ [.ended attempt.number]) := by
    rw [Machine.advance, step, RuntimeEngine.perform, RuntimeEngine.conclude_executing hslot,
      List.append_assoc]
    rfl
  have hended : ended (c.2 ++ (c.1.executed env attempt result).notes ++
      [.ended attempt.number]) = ended c.2 ++ [attempt.number] := by
    rw [ended_append, ended_append, htells.ended_eq, List.append_nil]
    rfl
  have htold := h.told.advance (env, .conclude workerId result)
  have hapart := h.apart_advance (env, .conclude workerId result) trivial
  rw [hadvance] at htold hapart ⊢
  refine ⟨htold, ?_, ?_, ?_, ?_, ?_, hapart⟩
  · rw [hended, counted_append, counted_append, htells.counted_eq, h.counted_eq]
    exact List.append_nil _
  · have hnone : reported [.ended attempt.number] = [] := rfl
    rw [hended, reported_append, reported_append, hnone, List.append_nil]
    exact h.reported_sublist.append htells.reported_sublist
  · rw [hended]
    exact List.nodup_append.mpr ⟨h.nodup, List.nodup_singleton _, by
      intro number hmem other hother heq
      exact hopen (List.mem_singleton.mp hother ▸ heq ▸ hmem)⟩
  · intro number hmem
    rw [hended] at hmem
    change number < (c.1.executed env attempt result).system.attempts
    rw [hattempts]
    rcases List.mem_append.mp hmem with hmem | hmem
    · exact h.past number hmem
    · exact List.mem_singleton.mp hmem ▸ hpast
  · intro other going hexecuting
    rw [hended]
    change going.number < (c.1.executed env attempt result).system.attempts ∧ _
    change ((c.1.executed env attempt result).system.workers.set workerId .idle).get? other = _
      at hexecuting
    rw [hworkers, Dict.get?_set] at hexecuting
    rw [hattempts]
    split at hexecuting
    · cases hexecuting
    · rename_i hother
      obtain ⟨hgoing, hunended⟩ := h.open_attempts other going hexecuting
      refine ⟨hgoing, fun hmem => ?_⟩
      rcases List.mem_append.mp hmem with hmem | hmem
      · exact hunended hmem
      · exact hother (h.apart workerId other attempt going hslot hexecuting
          (List.mem_singleton.mp hmem).symm)

theorem Settled.advance {c : RuntimeEngine P × List Note} {a : StepEnv × Action}
    (h : Settled c) (ha : NoTimeout c a) : Settled (Machine.advance step c a) := by
  by_cases hends : ∃ workerId result attempt, a.2 = .conclude workerId result ∧
      c.1.workers.get? workerId = some (.executing attempt)
  · obtain ⟨env, action⟩ := a
    obtain ⟨workerId, result, attempt, haction, hslot⟩ := hends
    obtain rfl : action = .conclude workerId result := haction
    exact h.advance_conclude hslot result
  · refine h.advance_quiet ha ?_
    intro workerId result haction attempt hslot
    exact hends ⟨workerId, result, attempt, haction, hslot⟩

/-- After a timeout the counters are ahead of the ended attempts. -/
theorem Settled.noTimeout {c : RuntimeEngine P × List Note} {a : StepEnv × Action}
    (h : Settled c) (hafter : OneOutcomeEach (Machine.advance step c a)) : NoTimeout c a := by
  obtain ⟨env, action⟩ := a
  cases action with
  | timeout workerId =>
    refine Option.eq_none_iff_forall_ne_some.mpr ?_
    intro attempt hfiring
    have htells := tells_timeout hfiring
    have hcounted : (counted (Machine.advance step c (env, .timeout workerId)).2).length =
        (counted c.2).length + 1 := by
      rw [Machine.advance, counted_append, List.length_append]
      exact congrArg _ (congrArg List.length htells.counted_eq)
    have hended : (ended (Machine.advance step c (env, .timeout workerId)).2).length =
        (ended c.2).length := by
      rw [Machine.advance, ended_append, List.length_append]
      exact congrArg _ (congrArg List.length htells.ended_eq)
    have htotal := (h.told.advance (env, .timeout workerId)).total
    rw [hafter.total, hended, hcounted, h.counted_eq] at htotal
    omega
  | _ => trivial

omit [FloatArith] in
theorem settled_create (maxSize : Option ℤ) (poolSize : ℕ) (objects : ℕ → TaskObject) :
    Settled ((RuntimeEngine.create maxSize poolSize objects : RuntimeEngine P), []) := by
  refine ⟨⟨rfl, rfl⟩, rfl, List.Sublist.refl [], List.nodup_nil, List.forall_mem_nil _, ?_, ?_⟩
  · intro workerId attempt hexecuting
    cases RuntimeEngine.idle_of_create hexecuting
  · intro workerId other attempt attempt' hexecuting
    cases RuntimeEngine.idle_of_create hexecuting

end Runs

end MollisRuntime.Scheduling
