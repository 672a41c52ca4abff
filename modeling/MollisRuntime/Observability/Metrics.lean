import Mathlib.Data.List.Sort
import Mathlib.Data.Prod.Lex
import Mathlib.Data.Rat.Defs
import Mathlib.Data.String.Basic
import MollisRuntime.Library.Machine
import MollisRuntime.Library.OrderedDict

/-!
MetricsRegistry. A family of metrics has a series for each set of labels, found under the
labels written as one text. The first operation on a name makes the family, and the first
one on a series the metric; every later operation writes to the metric that it finds. What
the registry holds is told by the list of all writes.
-/
namespace MollisRuntime.Observability

open Ordered

abbrev Labels := Dict String String

inductive MetricType
  | counter
  | gauge
  | histogram
  deriving DecidableEq, Repr

/-- The time of a point is the number of the reading of the clock. -/
structure MetricPoint (ν : Type) where
  value : ν
  timestamp : ℕ
  labels : Labels

/-- A CounterMetric, a GaugeMetric or a HistogramMetric. -/
structure Metric (ν : Type) where
  metricType : MetricType
  name : String
  points : List (MetricPoint ν) := []
  buckets : List ℚ := []

structure MetricFamily (ν : Type) where
  name : String
  helpText : String
  metricType : MetricType
  metrics : Dict String (Metric ν) := .empty

structure MetricsRegistry (ν : Type) where
  families : Dict String (MetricFamily ν) := .empty

/-- What an operation makes and how it writes. -/
structure Instrument where
  helpText : String
  buckets : List ℚ := []
  latestOnly : Bool := false

def MetricType.instrument : MetricType → Instrument
  | .counter => { helpText := "Count of occurrences" }
  | .gauge => { helpText := "Level measurements", latestOnly := true }
  | .histogram =>
    { helpText := "Value distribution analyses"
      buckets := [5 / 1000, 1 / 100, 5 / 100, 1 / 10, 5 / 10, 1, 5, 10, 60] }

/-- `points[:] = [pt]` or `points.append(pt)` -/
def MetricType.enter {α : Type} (t : MetricType) (points : List α) (pt : α) : List α :=
  if t.instrument.latestOnly then [pt] else points ++ [pt]

/-- `sorted(labels.items())` -/
def sortedItems (labels : Labels) : List (String × String) :=
  ((labels.entries.map toLex).insertionSort (· ≤ ·)).map ofLex

def item (e : String × String) : String := e.1 ++ "=" ++ e.2

def serializeLabels : Option Labels → String
  | none => "default"
  | some labels =>
    if labels.entries.isEmpty then "default"
    else ",".intercalate ((sortedItems labels).map item)

namespace MetricsRegistry

variable {ν : Type}

def getOrCreateFamily (r : MetricsRegistry ν) (name : String) (metricType : MetricType)
    (helpText : String) : MetricFamily ν :=
  (r.families.get? name).getD { name, helpText, metricType }

/-- The three operations: they differ in what they make and in how they write. -/
def write (metricType : MetricType) (name : String) (value : ν) (labels : Option Labels)
    (now : ℕ) (r : MetricsRegistry ν) : MetricsRegistry ν :=
  let family := r.getOrCreateFamily name metricType metricType.instrument.helpText
  let metricKey := serializeLabels labels
  let metric := (family.metrics.get? metricKey).getD
    { metricType, name, buckets := metricType.instrument.buckets }
  let pt := { value, timestamp := now, labels := labels.getD .empty }
  let written := { metric with points := metricType.enter metric.points pt }
  { families := r.families.set name
      { family with metrics := family.metrics.set metricKey written } }

def increment (name : String) (value : ν) (labels : Option Labels) (now : ℕ) :
    MetricsRegistry ν → MetricsRegistry ν := write .counter name value labels now

def setGauge (name : String) (value : ν) (labels : Option Labels) (now : ℕ) :
    MetricsRegistry ν → MetricsRegistry ν := write .gauge name value labels now

def observeHistogram (name : String) (value : ν) (labels : Option Labels) (now : ℕ) :
    MetricsRegistry ν → MetricsRegistry ν := write .histogram name value labels now

def series? (r : MetricsRegistry ν) (name key : String) : Option (Metric ν) :=
  (r.families.get? name).bind fun family => family.metrics.get? key

def familyType? (r : MetricsRegistry ν) (name : String) : Option MetricType :=
  (r.families.get? name).map MetricFamily.metricType

end MetricsRegistry

structure TimerContext (ν : Type) where
  name : String
  labels : Option Labels
  startTime : Option ν := none

/-- The registry, the timers that were handed out, and how often the two clocks were read. -/
structure Metering (ν : Type) where
  registry : MetricsRegistry ν := {}
  timers : List (TimerContext ν) := []
  now : ℕ := 0
  ticks : ℕ := 0

inductive MetricCall (ν : Type)
  | increment (name : String) (value : ν) (labels : Option Labels)
  | setGauge (name : String) (value : ν) (labels : Option Labels)
  | observeHistogram (name : String) (value : ν) (labels : Option Labels)
  | startTimer (name : String) (labels : Option Labels)
  | enter (timer : ℕ)
  | exit (timer : ℕ)

/-- One write of a point: by which operation and under which name. -/
structure Written (ν : Type) where
  metricType : MetricType
  name : String
  point : MetricPoint ν

namespace Metering

variable {ν : Type}

def wrote (s : Metering ν) (metricType : MetricType) (name : String) (value : ν)
    (labels : Option Labels) (registry : MetricsRegistry ν) : Metering ν × List (Written ν) :=
  ({ s with registry, now := s.now + 1 },
    [{ metricType, name, point := { value, timestamp := s.now, labels := labels.getD .empty } }])

/-- The calls of the registry and of its timers. A timer that was not entered writes
nothing when it is left. -/
def step [Sub ν] (perfCounter : ℕ → ν) (s : Metering ν) :
    MetricCall ν → Metering ν × List (Written ν)
  | .increment name value labels =>
    s.wrote .counter name value labels (s.registry.increment name value labels s.now)
  | .setGauge name value labels =>
    s.wrote .gauge name value labels (s.registry.setGauge name value labels s.now)
  | .observeHistogram name value labels =>
    s.wrote .histogram name value labels (s.registry.observeHistogram name value labels s.now)
  | .startTimer name labels => ({ s with timers := s.timers ++ [{ name, labels }] }, [])
  | .enter timer =>
    ({ s with
      timers := s.timers.modify timer fun t => { t with startTime := some (perfCounter s.ticks) }
      ticks := s.ticks + 1 }, [])
  | .exit timer =>
    match s.timers[timer]? with
    | some ⟨name, labels, some startTime⟩ =>
      let duration := perfCounter s.ticks - startTime
      let s := { s with ticks := s.ticks + 1 }
      s.wrote .histogram name duration labels
        (s.registry.observeHistogram name duration labels s.now)
    | _ => (s, [])

end Metering

section Labels

/-- The same labels with the same values, inserted in whatever order. -/
def SameLabels (d e : Labels) : Prop := ∀ k, d.get? k = e.get? k

theorem perm_sortedItems (d : Labels) : (sortedItems d).Perm d.entries := by
  have hperm := (List.perm_insertionSort (· ≤ ·) (d.entries.map toLex)).map ofLex
  rwa [List.map_map, Function.comp_def, List.map_congr_left fun e _ => ofLex_toLex e,
    List.map_id'] at hperm

theorem SameLabels.entries_perm {d e : Labels} (h : SameLabels d e) : d.entries.Perm e.entries := by
  rw [List.perm_ext_iff_of_nodup (List.Nodup.of_map _ d.nodup_keys)
    (List.Nodup.of_map _ e.nodup_keys)]
  rintro ⟨k, v⟩
  rw [Dict.mem_entries_iff, Dict.mem_entries_iff, h k]

theorem sameLabels_iff {d e : Labels} : SameLabels d e ↔ sortedItems d = sortedItems e := by
  constructor
  · intro h
    refine congrArg (List.map ofLex) (List.Perm.eq_of_pairwise' (r := (· ≤ ·))
      (List.pairwise_insertionSort _ _) (List.pairwise_insertionSort _ _) ?_)
    exact ((List.perm_insertionSort _ _).trans (h.entries_perm.map toLex)).trans
      (List.perm_insertionSort _ _).symm
  · intro h k
    have hentries : d.entries.Perm e.entries :=
      (perm_sortedItems d).symm.trans (h ▸ perm_sortedItems e)
    refine Option.ext fun v => ?_
    rw [← Dict.mem_entries_iff, ← Dict.mem_entries_iff, hentries.mem_iff]

instance : DecidableRel SameLabels := fun _ _ => decidable_of_iff _ sameLabels_iff.symm

theorem SameLabels.refl (d : Labels) : SameLabels d d := fun _ => rfl

theorem SameLabels.symm {d e : Labels} (h : SameLabels d e) : SameLabels e d := fun k => (h k).symm

theorem SameLabels.trans {d e f : Labels} (h : SameLabels d e) (h' : SameLabels e f) :
    SameLabels d f := fun k => (h k).trans (h' k)

/-- The text does not depend on the order of insertion. -/
theorem SameLabels.serialize {d e : Labels} (h : SameLabels d e) :
    serializeLabels (some d) = serializeLabels (some e) := by
  rw [serializeLabels, serializeLabels, sameLabels_iff.mp h, h.entries_perm.isEmpty_eq]

theorem serializeLabels_getD (labels : Option Labels) :
    serializeLabels (some (labels.getD .empty)) = serializeLabels labels := by
  cases labels <;> rfl

end Labels

section History

variable {ν : Type}

def Written.key (w : Written ν) : String := serializeLabels (some w.point.labels)

/-- The writes under a name. -/
def named (writes : List (Written ν)) (name : String) : List (Written ν) :=
  writes.filter fun w => w.name = name

/-- The writes to one series. -/
def inSeries (writes : List (Written ν)) (name key : String) : List (Written ν) :=
  writes.filter fun w => w.name = name ∧ w.key = key

/-- The points that the writes of a series leave. -/
def kept (writes : List (Written ν)) : List (MetricPoint ν) :=
  writes.foldl (fun points w => w.metricType.enter points w.point) []

theorem named_snoc (writes : List (Written ν)) (w : Written ν) (name : String) :
    named (writes ++ [w]) name =
      if w.name = name then named writes name ++ [w] else named writes name := by
  rw [named, List.filter_append]
  by_cases h : w.name = name <;> simp [h, named]

theorem inSeries_snoc (writes : List (Written ν)) (w : Written ν) (name key : String) :
    inSeries (writes ++ [w]) name key =
      if w.name = name ∧ w.key = key then inSeries writes name key ++ [w]
      else inSeries writes name key := by
  rw [inSeries, List.filter_append]
  by_cases h : w.name = name ∧ w.key = key <;> simp [h, inSeries]

theorem kept_snoc (writes : List (Written ν)) (w : Written ν) :
    kept (writes ++ [w]) = w.metricType.enter (kept writes) w.point := by
  rw [kept, List.foldl_append]
  rfl

/-- The registry holds what was written: a family is of the type of the first write under
its name, and a series of that of its first write. -/
structure Holds (r : MetricsRegistry ν) (writes : List (Written ν)) : Prop where
  family : ∀ name, r.familyType? name = (named writes name).head?.map Written.metricType
  metric : ∀ name key, (r.series? name key).map Metric.metricType =
    (inSeries writes name key).head?.map Written.metricType
  points : ∀ name key, ((r.series? name key).map Metric.points).getD [] =
    kept (inSeries writes name key)

theorem holds_empty : Holds ({} : MetricsRegistry ν) [] where
  family _ := rfl
  metric _ _ := rfl
  points _ _ := rfl

namespace MetricsRegistry

variable (r : MetricsRegistry ν) (metricType : MetricType) (name : String) (value : ν)
  (labels : Option Labels) (now : ℕ)

theorem familyType?_write (other : String) :
    (r.write metricType name value labels now).familyType? other =
      if name = other then some ((r.familyType? name).getD metricType)
      else r.familyType? other := by
  unfold familyType? write
  rw [Dict.get?_set]
  by_cases h : name = other
  · rw [if_pos h, if_pos h]
    cases hfamily : r.families.get? name <;> simp [getOrCreateFamily, hfamily]
  · rw [if_neg h, if_neg h]

theorem series?_write (other key : String) :
    (r.write metricType name value labels now).series? other key =
      if name = other ∧ serializeLabels labels = key then
        let metric := (r.series? name key).getD
          { metricType, name, buckets := metricType.instrument.buckets }
        some { metric with
          points := metricType.enter metric.points
            { value, timestamp := now, labels := labels.getD .empty } }
      else r.series? other key := by
  unfold series? write
  rw [Dict.get?_set]
  by_cases h : name = other
  · subst h
    have hfamily : (r.getOrCreateFamily name metricType metricType.instrument.helpText).metrics.get?
        key = (r.families.get? name).bind fun family => family.metrics.get? key := by
      cases hget : r.families.get? name <;> simp [getOrCreateFamily, hget]
    rw [if_pos rfl, Option.bind_some, Dict.get?_set]
    by_cases hkey : serializeLabels labels = key
    · subst hkey
      rw [if_pos rfl, if_pos ⟨rfl, rfl⟩, hfamily]
    · rw [if_neg hkey, if_neg fun h => hkey h.2, hfamily]
  · rw [if_neg h, if_neg fun h' => h h'.1]

end MetricsRegistry

theorem Holds.write {r : MetricsRegistry ν} {writes : List (Written ν)} (h : Holds r writes)
    (metricType : MetricType) (name : String) (value : ν) (labels : Option Labels) (now : ℕ) :
    Holds (r.write metricType name value labels now)
      (writes ++ [⟨metricType, name, value, now, labels.getD .empty⟩]) where
  family other := by
    rw [r.familyType?_write, named_snoc, h.family]
    by_cases hname : name = other
    · subst hname
      rw [if_pos rfl, if_pos rfl, List.head?_append]
      cases (named writes name).head? <;> rfl
    · rw [if_neg hname, if_neg hname, h.family]
  metric other key := by
    rw [r.series?_write, inSeries_snoc, Written.key, serializeLabels_getD]
    by_cases hseries : name = other ∧ serializeLabels labels = key
    · obtain ⟨rfl, rfl⟩ := hseries
      have hmetric := h.metric name (serializeLabels labels)
      rw [if_pos ⟨rfl, rfl⟩, if_pos ⟨rfl, rfl⟩, List.head?_append]
      cases hget : r.series? name (serializeLabels labels) with
      | none =>
        rw [hget, Option.map_none, eq_comm, Option.map_eq_none_iff] at hmetric
        rw [hmetric]
        rfl
      | some metric =>
        rw [hget, Option.map_some] at hmetric
        obtain ⟨first, hfirst, htype⟩ := Option.map_eq_some_iff.mp hmetric.symm
        rw [hfirst]
        exact congrArg some htype.symm
    · rw [if_neg hseries, if_neg hseries, h.metric]
  points other key := by
    rw [r.series?_write, inSeries_snoc, Written.key, serializeLabels_getD]
    by_cases hseries : name = other ∧ serializeLabels labels = key
    · obtain ⟨rfl, rfl⟩ := hseries
      rw [if_pos ⟨rfl, rfl⟩, if_pos ⟨rfl, rfl⟩, kept_snoc, ← h.points]
      cases r.series? name (serializeLabels labels) <;> rfl
    · rw [if_neg hseries, if_neg hseries, h.points]

end History

end MollisRuntime.Observability
