import MollisRuntime.Scheduling.Engine

/-!
The tracker of delayed tasks by itself, over any calls of add_delayed_task and
any turns of its loop. An addition is known by the number of delayed additions
before it. It waits until the first turn whose clock has reached the time it is
due, and the heap holds exactly the additions that wait. The callback may do
anything to the rest of the program, and it may raise.
-/
namespace MollisRuntime.Scheduling

open Ordered Python MinHeap

namespace DelayedTaskTracker

def size (tracker : DelayedTaskTracker) : ℕ := tracker.heap.entries.length

/-- `self._heap[0][0] <= now` -/
def isDue (now : ℚ) (e : Entry Number TaskHandle) : Bool := decide (e.key ≤ .finite now)

/-- The entries that one turn of the loop pops, and the tracker without them. -/
def popDue (tracker : DelayedTaskTracker) (now : ℚ) :
    List (Entry Number TaskHandle) × DelayedTaskTracker :=
  let popped := tracker.heap.popWhile (isDue now) tracker.size
  (popped.1, { tracker with heap := popped.2 })

section Push
variable [FloatArith]

def push (tracker : DelayedTaskTracker) (now : ℚ) (task : TaskHandle) (delay : Number) :
    DelayedTaskTracker where
  heap := tracker.heap.push ⟨FloatArith.add (.finite now) delay, tracker.counter, task⟩
  counter := tracker.counter + 1

/-- The engine pushes the same entry. -/
theorem tracker_pushDelayed {P : Type} (sys : RuntimeEngine P) (env : StepEnv)
    (task : TaskHandle) (delay : Number) :
    (sys.pushDelayed env task delay).tracker = sys.tracker.push env.time task delay := rfl

end Push

theorem popDue_entries (tracker : DelayedTaskTracker) (now : ℚ) :
    (tracker.popDue now).1 = tracker.heap.entries.filter (isDue now) ∧
      (tracker.popDue now).2.heap.entries =
        tracker.heap.entries.filter (fun e => decide (¬ e.key ≤ .finite now)) := by
  obtain ⟨htake, hdrop⟩ := tracker.heap.popWhile_spec (isDue now) tracker.size le_rfl
  obtain ⟨hfront, hback⟩ := tracker.heap.sorted.takeWhile_key (Number.finite now)
  exact ⟨htake.trans hfront, hdrop.trans hback⟩

theorem popDue_eq_takeWhile (tracker : DelayedTaskTracker) (now : ℚ) :
    (tracker.popDue now).1 = tracker.heap.entries.takeWhile (isDue now) :=
  (tracker.heap.popWhile_spec (isDue now) tracker.size le_rfl).1

section Release
variable {P : Type} [SchedulingPolicy P] {sys : RuntimeEngine P} {env : StepEnv}

/-- A step of the engine releases the first task that the loop would pop. -/
theorem release_nothing (h : (sys.tracker.popDue env.time).1 = []) :
    sys.release env = { system := sys } := by
  rw [popDue_eq_takeWhile] at h
  unfold RuntimeEngine.release
  cases hentries : sys.tracker.heap.entries with
  | nil => rfl
  | cons e rest =>
    rw [hentries] at h
    by_cases hdue : isDue env.time e = true
    · rw [List.takeWhile_cons_of_pos hdue] at h
      cases h
    · have hlate : ¬ e.key ≤ .finite env.time := by simpa [isDue] using hdue
      exact if_neg hlate

/-- The other tasks follow in the next steps. -/
theorem release_first {e : Entry Number TaskHandle} {due : List (Entry Number TaskHandle)}
    (h : (sys.tracker.popDue env.time).1 = e :: due) :
    sys.release env =
        ({ sys with tracker.heap := sys.tracker.heap.pop }).onDelayedTaskReady env e.item ∧
      (({ sys.tracker with heap := sys.tracker.heap.pop }).popDue env.time).1 = due := by
  rw [popDue_eq_takeWhile] at h ⊢
  rw [Heap.entries_pop]
  unfold RuntimeEngine.release
  cases hentries : sys.tracker.heap.entries with
  | nil =>
    rw [hentries] at h
    cases h
  | cons first rest =>
    rw [hentries] at h
    by_cases hdue : isDue env.time first = true
    · rw [List.takeWhile_cons_of_pos hdue] at h
      cases h
      have hkey : e.key ≤ .finite env.time := by simpa [isDue] using hdue
      exact ⟨if_pos hkey, rfl⟩
    · rw [List.takeWhile_cons_of_neg hdue] at h
      cases h

end Release

end DelayedTaskTracker

/-- A tracker, and the rest of the program as far as the callback reaches. -/
structure Tracked (σ : Type) where
  tracker : DelayedTaskTracker := {}
  world : σ

namespace Tracked

inductive Action
  | addDelayedTask (now : ℚ) (task : TaskHandle) (delay : Number)
  | poll (now : ℚ)

/-- The additions that go to the heap. -/
def Action.delayed : Action → Bool
  | .addDelayedTask _ _ delay => decide (.finite 0 < delay)
  | .poll _ => false

section Steps

variable {σ : Type} (onTaskReady : σ → TaskHandle → σ × Except Raised Unit)

/-- `try: self._on_task_ready(task)`; what it raises is logged. -/
def trigger (world : σ) (task : TaskHandle) : σ :=
  match onTaskReady world task with
  | (world, .ok ()) => world
  | (world, .error _) => world

/-- One turn of `_run_loop`. -/
def poll (s : Tracked σ) (now : ℚ) : Tracked σ :=
  let popped := s.tracker.popDue now
  let tasksToTrigger := popped.1.map Entry.item
  { tracker := popped.2, world := tasksToTrigger.foldl (trigger onTaskReady) s.world }

variable [FloatArith]

def addDelayedTask (s : Tracked σ) (now : ℚ) (task : TaskHandle) (delay : Number) :
    Tracked σ × Except Raised Unit :=
  if delay ≤ .finite 0 then
    let called := onTaskReady s.world task
    ({ s with world := called.1 }, called.2)
  else ({ s with tracker := s.tracker.push now task delay }, .ok ())

def step (s : Tracked σ) : Action → Tracked σ
  | .addDelayedTask now task delay => (s.addDelayedTask onTaskReady now task delay).1
  | .poll now => s.poll onTaskReady now

def run (world : σ) (actions : List Action) : Tracked σ :=
  actions.foldl (step onTaskReady) { world }

end Steps

variable [FloatArith]

/-- The entry of an addition: when it is due, how many delayed additions came
before it, and the task. -/
def entryOf (earlier : List Action) (now : ℚ) (task : TaskHandle) (delay : Number) :
    Entry Number TaskHandle :=
  ⟨FloatArith.add (.finite now) delay, earlier.countP Action.delayed, task⟩

/-- Added with a delay, and every turn of the loop since then was too early. -/
def Waiting (actions : List Action) (e : Entry Number TaskHandle) : Prop :=
  ∃ earlier now task delay later,
    actions = earlier ++ .addDelayedTask now task delay :: later ∧ .finite 0 < delay ∧
      e = entryOf earlier now task delay ∧
      ∀ time, Action.poll time ∈ later → .finite time < e.key

section Waits

theorem not_waiting_nil (e : Entry Number TaskHandle) : ¬ Waiting [] e := by
  rintro ⟨earlier, now, task, delay, later, h, -⟩
  simp at h

/-- A later action changes what waits only by adding to it or by being late enough. -/
theorem waiting_concat (actions : List Action) (a : Action) (e : Entry Number TaskHandle) :
    Waiting (actions ++ [a]) e ↔
      (Waiting actions e ∧ ∀ time, a = .poll time → .finite time < e.key) ∨
        ∃ now task delay, a = .addDelayedTask now task delay ∧ .finite 0 < delay ∧
          e = entryOf actions now task delay := by
  constructor
  · rintro ⟨earlier, now, task, delay, later, heq, hdelay, he, hlate⟩
    rcases List.eq_nil_or_concat' later with rfl | ⟨rest, b, rfl⟩
    · obtain ⟨rfl, hlast⟩ := List.append_inj' heq rfl
      cases hlast
      exact Or.inr ⟨now, task, delay, rfl, hdelay, he⟩
    · have heq' : actions ++ [a] =
          (earlier ++ .addDelayedTask now task delay :: rest) ++ [b] := by simpa using heq
      obtain ⟨rfl, hlast⟩ := List.append_inj' heq' rfl
      cases hlast
      refine Or.inl ⟨⟨earlier, now, task, delay, rest, rfl, hdelay, he, ?_⟩, ?_⟩
      · intro time htime
        exact hlate time (List.mem_append_left _ htime)
      · rintro time rfl
        exact hlate time (by simp)
  · rintro (⟨⟨earlier, now, task, delay, later, rfl, hdelay, he, hlate⟩, ha⟩ |
      ⟨now, task, delay, rfl, hdelay, he⟩)
    · refine ⟨earlier, now, task, delay, later ++ [a], by simp, hdelay, he, ?_⟩
      intro time htime
      rcases List.mem_append.mp htime with htime | htime
      · exact hlate time htime
      · exact ha time (List.mem_singleton.mp htime).symm
    · exact ⟨actions, now, task, delay, [], rfl, hdelay, he, by simp⟩

omit [FloatArith] in
theorem countP_lt_of_delayed (earlier later : List Action) {a : Action} (ha : a.delayed = true) :
    earlier.countP Action.delayed < (earlier ++ a :: later).countP Action.delayed := by
  rw [List.countP_append, List.countP_cons_of_pos ha]
  omega

omit [FloatArith] in
/-- An addition is known by the delayed additions before it. -/
theorem earlier_eq_of_split {earlier earlier' later later' : List Action} {a a' : Action}
    (h : earlier ++ a :: later = earlier' ++ a' :: later') (ha : a.delayed = true)
    (ha' : a'.delayed = true)
    (hcount : earlier.countP Action.delayed = earlier'.countP Action.delayed) :
    earlier = earlier' := by
  rcases List.append_eq_append_iff.mp h with ⟨between, hsplit, htail⟩ | ⟨between, hsplit, htail⟩
  · cases between with
    | nil => simpa using hsplit.symm
    | cons b between =>
      cases htail
      have hlt := countP_lt_of_delayed earlier between ha
      rw [← hsplit, hcount] at hlt
      exact absurd hlt (lt_irrefl _)
  · cases between with
    | nil => simpa using hsplit
    | cons b between =>
      cases htail
      have hlt := countP_lt_of_delayed earlier' between ha'
      rw [← hsplit, hcount] at hlt
      exact absurd hlt (lt_irrefl _)

theorem arrival_lt_of_waiting {actions : List Action} {e : Entry Number TaskHandle}
    (h : Waiting actions e) : e.arrival < actions.countP Action.delayed := by
  obtain ⟨earlier, now, task, delay, later, rfl, hdelay, rfl, -⟩ := h
  exact countP_lt_of_delayed earlier later (decide_eq_true hdelay)

/-- It waits as long as every turn since it was made came too early. -/
theorem waiting_iff {earlier later : List Action} {now : ℚ} {task : TaskHandle}
    {delay : Number} (hdelay : .finite 0 < delay) :
    Waiting (earlier ++ .addDelayedTask now task delay :: later)
        (entryOf earlier now task delay) ↔
      ∀ time, Action.poll time ∈ later →
        .finite time < (entryOf earlier now task delay).key := by
  constructor
  · rintro ⟨earlier', now', task', delay', later', heq, hdelay', he, hlate⟩
    have harrival := congrArg Entry.arrival he
    have hearlier := earlier_eq_of_split heq (decide_eq_true hdelay) (decide_eq_true hdelay')
      harrival
    subst hearlier
    cases List.append_cancel_left heq
    exact hlate
  · exact fun hlate => ⟨earlier, now, task, delay, later, rfl, hdelay, rfl, hlate⟩

end Waits

/-- The heap against the actions so far. -/
structure Tracks (actions : List Action) (tracker : DelayedTaskTracker) : Prop where
  counter : tracker.counter = actions.countP Action.delayed
  mem : ∀ e, e ∈ tracker.heap.entries ↔ Waiting actions e
  nodup : (tracker.heap.entries.map Entry.arrival).Nodup

section Runs

variable {σ : Type} (onTaskReady : σ → TaskHandle → σ × Except Raised Unit)
variable {actions : List Action} {tracker : DelayedTaskTracker}

theorem Tracks.push (h : Tracks actions tracker) (now : ℚ) (task : TaskHandle) {delay : Number}
    (hdelay : .finite 0 < delay) :
    Tracks (actions ++ [.addDelayedTask now task delay]) (tracker.push now task delay) where
  counter := by
    rw [DelayedTaskTracker.push, h.counter, List.countP_append]
    simp [Action.delayed, hdelay]
  mem e := by
    have hnew : e ∈ (tracker.push now task delay).heap.entries ↔
        e = entryOf actions now task delay ∨ e ∈ tracker.heap.entries := by
      rw [entryOf, ← h.counter]
      exact mem_file
    rw [hnew, waiting_concat, h.mem]
    constructor
    · rintro (he | hold)
      · exact Or.inr ⟨now, task, delay, rfl, hdelay, he⟩
      · exact Or.inl ⟨hold, fun time heq => by cases heq⟩
    · rintro (⟨hold, -⟩ | ⟨now', task', delay', heq, -, he⟩)
      · exact Or.inr hold
      · cases heq
        exact Or.inl he
  nodup := by
    have hperm := (file_perm (entryOf actions now task delay)
      tracker.heap.entries).map Entry.arrival
    rw [entryOf, ← h.counter] at hperm
    refine hperm.nodup_iff.mpr (List.nodup_cons.mpr ⟨?_, h.nodup⟩)
    intro hmem
    obtain ⟨e, he, harrival⟩ := List.mem_map.mp hmem
    have hlt := arrival_lt_of_waiting ((h.mem e).mp he)
    rw [← h.counter, harrival] at hlt
    exact lt_irrefl _ hlt

/-- Without a delay nothing is pushed. -/
theorem Tracks.immediate (h : Tracks actions tracker) (now : ℚ) (task : TaskHandle)
    {delay : Number} (hdelay : delay ≤ .finite 0) :
    Tracks (actions ++ [.addDelayedTask now task delay]) tracker where
  counter := by
    rw [h.counter, List.countP_append]
    simp [Action.delayed, hdelay]
  mem e := by
    rw [waiting_concat, h.mem]
    constructor
    · exact fun hold => Or.inl ⟨hold, fun time heq => by cases heq⟩
    · rintro (⟨hold, -⟩ | ⟨now', task', delay', heq, hpos, -⟩)
      · exact hold
      · cases heq
        exact absurd hpos (not_lt.mpr hdelay)
  nodup := h.nodup

/-- A turn of the loop takes away what is due. -/
theorem Tracks.poll (h : Tracks actions tracker) (now : ℚ) :
    Tracks (actions ++ [.poll now]) (tracker.popDue now).2 where
  counter := by
    rw [List.countP_append]
    exact h.counter
  mem e := by
    rw [(tracker.popDue_entries now).2, List.mem_filter, waiting_concat, h.mem,
      decide_eq_true_eq, not_le]
    constructor
    · rintro ⟨hold, hlate⟩
      exact Or.inl ⟨hold, fun time heq => by cases heq; exact hlate⟩
    · rintro (⟨hold, hlate⟩ | ⟨now', task', delay', heq, -⟩)
      · exact ⟨hold, hlate now rfl⟩
      · cases heq
  nodup := by
    rw [(tracker.popDue_entries now).2]
    exact h.nodup.sublist (List.filter_sublist.map Entry.arrival)

theorem tracks_step {s : Tracked σ} (h : Tracks actions s.tracker) (a : Action) :
    Tracks (actions ++ [a]) (s.step onTaskReady a).tracker := by
  cases a with
  | addDelayedTask now task delay =>
    by_cases hdelay : delay ≤ .finite 0
    · simp only [step, addDelayedTask, hdelay, if_true]
      exact h.immediate now task hdelay
    · simp only [step, addDelayedTask, hdelay, if_false]
      exact h.push now task (not_le.mp hdelay)
  | poll now => exact h.poll now

theorem tracks_run (world : σ) (actions : List Action) :
    Tracks actions (run onTaskReady world actions).tracker := by
  induction actions using List.reverseRecOn with
  | nil =>
    refine ⟨rfl, fun e => ?_, List.nodup_nil⟩
    exact ⟨fun h => absurd h List.not_mem_nil, fun h => absurd h (not_waiting_nil e)⟩
  | append_singleton actions a ih =>
    rw [run, List.foldl_concat]
    exact tracks_step onTaskReady ih a

theorem Tracks.due_ordered (h : Tracks actions tracker) (now : ℚ) :
    (tracker.popDue now).1.Pairwise fun a b =>
      a.key < b.key ∨ a.key = b.key ∧ a.arrival < b.arrival := by
  rw [(tracker.popDue_entries now).1]
  have hdistinct : tracker.heap.entries.Pairwise fun a b => a.arrival ≠ b.arrival :=
    List.pairwise_map.mp h.nodup
  refine ((tracker.heap.sorted.and hdistinct).sublist List.filter_sublist).imp ?_
  rintro a b ⟨hle, hne⟩
  rcases Prod.Lex.toLex_le_toLex.mp hle with hlt | ⟨heq, harrival⟩
  · exact Or.inl hlt
  · exact Or.inr ⟨heq, lt_of_le_of_ne harrival hne⟩

end Runs

omit [FloatArith] in
theorem foldl_trigger {σ : Type} (onTaskReady : σ → TaskHandle → σ × Except Raised Unit)
    (tasks : List TaskHandle) (world : σ) :
    tasks.foldl (trigger onTaskReady) world =
      tasks.foldl (fun w task => (onTaskReady w task).1) world := by
  congr 1
  funext w task
  unfold trigger
  split <;> rename_i heq <;> rw [heq]

end Tracked

end MollisRuntime.Scheduling
