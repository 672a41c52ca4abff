import MollisRuntime.Observability.MetricSeries

/-!
What is lost of the counters. The operations do not look at the type of the family or of
the metric that they find under a name, and a gauge writes over what is there.
-/
namespace MollisRuntime.Observability

open Ordered

variable {ν : Type}

/-- The points of all increments that were made to a name and labels. -/
def increments (writes : List (Written ν)) (name : String) (labels : Labels) :
    List (MetricPoint ν) :=
  (writes.filter fun w =>
    w.metricType = .counter ∧ w.name = name ∧ SameLabels w.point.labels labels).map Written.point

/-- A series is of the type of its family, and the series of a counter has every increment
that was made to its name and labels, in order. -/
structure MetricsRegistry.CountersKept (r : MetricsRegistry ν) (writes : List (Written ν)) :
    Prop where
  typed : ∀ name family key metric, r.families.get? name = some family →
    family.metrics.get? key = some metric → metric.metricType = family.metricType
  counted : ∀ name key metric, r.series? name key = some metric → metric.metricType = .counter →
    ∀ labels, serializeLabels (some labels) = key →
      (increments writes name labels).Sublist metric.points

/-- A write under a used name is of the type of the first one, or its series is there; and no
gauge is set under a name that was first incremented. -/
def Compatible (before : List (Written ν)) (w : Written ν) : Prop :=
  ∀ first, (named before w.name).head? = some first →
    (inSeries before w.name w.key ≠ [] ∨ w.metricType = first.metricType) ∧
      ¬ (w.metricType = .gauge ∧ first.metricType = .counter)

section Counters

theorem head?_filter_snoc {α : Type} {p : α → Bool} {l : List α} {a x : α} :
    ((l ++ [a]).filter p).head? = some x ↔
      (l.filter p).head? = some x ∨ l.filter p = [] ∧ p a = true ∧ a = x := by
  rw [List.filter_append, List.head?_append, Option.or_eq_some_iff, List.head?_eq_none_iff]
  refine or_congr_right (and_congr_right fun _ => ?_)
  by_cases h : p a = true <;> simp [h]

theorem head?_named_snoc {writes : List (Written ν)} {w x : Written ν} {name : String} :
    (named (writes ++ [w]) name).head? = some x ↔
      (named writes name).head? = some x ∨ named writes name = [] ∧ w.name = name ∧ w = x := by
  rw [named, head?_filter_snoc, decide_eq_true_eq]
  rfl

theorem head?_inSeries_snoc {writes : List (Written ν)} {w x : Written ν} {name key : String} :
    (inSeries (writes ++ [w]) name key).head? = some x ↔
      (inSeries writes name key).head? = some x ∨
        inSeries writes name key = [] ∧ (w.name = name ∧ w.key = key) ∧ w = x := by
  rw [inSeries, head?_filter_snoc, decide_eq_true_eq]
  rfl

theorem increments_snoc (writes : List (Written ν)) (w : Written ν) (name : String)
    (labels : Labels) :
    increments (writes ++ [w]) name labels = increments writes name labels ++
      if w.metricType = .counter ∧ w.name = name ∧ SameLabels w.point.labels labels then [w.point]
      else [] := by
  rw [increments, List.filter_append, List.map_append]
  refine congrArg _ ?_
  by_cases h : w.metricType = .counter ∧ w.name = name ∧ SameLabels w.point.labels labels <;>
    simp [h]

/-- An increment is in the series of its name and labels. -/
theorem increments_of_empty {writes : List (Written ν)} {name : String} {labels : Labels}
    (h : inSeries writes name (serializeLabels (some labels)) = []) :
    increments writes name labels = [] := by
  rw [increments, List.map_eq_nil_iff, List.filter_eq_nil_iff]
  intro w hw hincrement
  obtain ⟨-, hname, hlabels⟩ := of_decide_eq_true hincrement
  have hmem : w ∈ inSeries writes name (serializeLabels (some labels)) :=
    mem_inSeries.mpr ⟨hw, hname, hlabels.serialize⟩
  rw [h] at hmem
  cases hmem

/-- A series has the type of the first write under its name, and a counter its increments. -/
structure Counted (writes : List (Written ν)) : Prop where
  typed : ∀ name key head first, (inSeries writes name key).head? = some head →
    (named writes name).head? = some first → head.metricType = first.metricType
  counted : ∀ name key head, (inSeries writes name key).head? = some head →
    head.metricType = .counter → ∀ labels, serializeLabels (some labels) = key →
      (increments writes name labels).Sublist (kept (inSeries writes name key))

variable {writes : List (Written ν)} {w : Written ν}

theorem exists_first {name key : String} {head : Written ν}
    (h : (inSeries writes name key).head? = some head) :
    ∃ first, (named writes name).head? = some first := by
  have hmem := mem_inSeries.mp (List.mem_of_mem_head? h)
  have hnamed : head ∈ named writes name := List.mem_filter.mpr ⟨hmem.1, by simp [hmem.2.1]⟩
  cases hhead : (named writes name).head? with
  | none =>
    rw [List.head?_eq_none_iff] at hhead
    rw [hhead] at hnamed
    cases hnamed
  | some first => exact ⟨first, rfl⟩

theorem counted_nil : Counted ([] : List (Written ν)) where
  typed _ _ _ _ h := by cases h
  counted _ _ _ h := by cases h

theorem Counted.snoc (h : Counted writes) (hw : Compatible writes w) : Counted (writes ++ [w]) where
  typed name key head first hhead hfirst := by
    rcases head?_inSeries_snoc.mp hhead with hhead | ⟨hnew, ⟨rfl, rfl⟩, rfl⟩
    · obtain ⟨old, hold⟩ := exists_first hhead
      rcases head?_named_snoc.mp hfirst with hfirst | ⟨hnone, -, -⟩
      · exact h.typed name key head first hhead hfirst
      · rw [hnone] at hold
        cases hold
    · rcases head?_named_snoc.mp hfirst with hfirst | ⟨-, -, rfl⟩
      · exact (hw first hfirst).1.resolve_left fun hne => hne hnew
      · rfl
  counted name key head hhead hcounter labels hlabels := by
    rw [increments_snoc, inSeries_snoc]
    rcases head?_inSeries_snoc.mp hhead with hhead | ⟨hnew, ⟨rfl, rfl⟩, rfl⟩
    · have hold := h.counted name key head hhead hcounter labels hlabels
      by_cases hseries : w.name = name ∧ w.key = key
      · obtain ⟨rfl, rfl⟩ := hseries
        obtain ⟨first, hfirst⟩ := exists_first hhead
        -- a gauge would be set under a name that was first incremented
        have hadds : w.metricType ≠ .gauge := fun hgauge =>
          (hw first hfirst).2 ⟨hgauge, (h.typed _ _ head first hhead hfirst).symm.trans hcounter⟩
        have hseries : w.name = w.name ∧ w.key = w.key := ⟨rfl, rfl⟩
        rw [if_pos hseries, kept_snoc, enter_of_ne_gauge hadds]
        refine hold.append ?_
        split
        · exact List.Sublist.refl _
        · exact List.nil_sublist _
      · rw [if_neg hseries, if_neg, List.append_nil]
        · exact hold
        · rintro ⟨-, hname, hsame⟩
          exact hseries ⟨hname, hsame.serialize.trans hlabels⟩
    · have hseries : w.name = w.name ∧ w.key = w.key := ⟨rfl, rfl⟩
      rw [if_pos hseries, hnew, increments_of_empty (hlabels ▸ hnew), List.nil_append,
        List.nil_append]
      have hkept : kept [w] = [w.point] := by
        rw [kept, List.foldl_cons, List.foldl_nil, hcounter]
        rfl
      rw [hkept]
      split
      · exact List.Sublist.refl _
      · exact List.nil_sublist _

theorem Counted.compatible (h : Counted writes) (h' : Counted (writes ++ [w]))
    (hpast : ∀ v ∈ writes, v.point.timestamp < w.point.timestamp) : Compatible writes w := by
  intro first hfirst
  have hsame : inSeries writes w.name w.key ≠ [] ∨ w.metricType = first.metricType := by
    by_cases hnew : inSeries writes w.name w.key = []
    · exact .inr (h'.typed w.name w.key w first
        (head?_inSeries_snoc.mpr (.inr ⟨hnew, ⟨rfl, rfl⟩, rfl⟩))
        (head?_named_snoc.mpr (.inl hfirst)))
    · exact .inl hnew
  refine ⟨hsame, ?_⟩
  rintro ⟨hgauge, hcounter⟩
  have hused : inSeries writes w.name w.key ≠ [] := by
    refine hsame.resolve_right fun htype => ?_
    rw [hgauge, hcounter] at htype
    cases htype
  have hhead := List.head?_eq_some_head hused
  obtain ⟨hmem, hname, hkey⟩ := mem_inSeries.mp (List.mem_of_mem_head? hhead)
  have htype := (h.typed w.name w.key _ first hhead hfirst).trans hcounter
  have hsub := h'.counted w.name w.key _ (head?_inSeries_snoc.mpr (.inl hhead)) htype _ hkey
  rw [inSeries_snoc, if_pos ⟨rfl, rfl⟩, kept_snoc, hgauge, increments_snoc] at hsub
  -- the first increment of the series would have to be the point of the gauge
  have hlost : ((inSeries writes w.name w.key).head hused).point ∈ [w.point] := by
    refine hsub.subset (List.mem_append_left _ (List.mem_map_of_mem (List.mem_filter.mpr
      ⟨hmem, decide_eq_true ⟨htype, hname, .refl _⟩⟩)))
  have htime := hpast _ hmem
  rw [List.mem_singleton.mp hlost] at htime
  exact lt_irrefl _ htime

variable {r : MetricsRegistry ν}

theorem Holds.head_of_series? (h : Holds r writes) {name key : String} {metric : Metric ν}
    (hget : r.series? name key = some metric) :
    ∃ head, (inSeries writes name key).head? = some head ∧ head.metricType = metric.metricType := by
  have hmetric := h.metric name key
  rw [hget, Option.map_some] at hmetric
  exact Option.map_eq_some_iff.mp hmetric.symm

theorem Holds.series?_of_head (h : Holds r writes) {name key : String} {head : Written ν}
    (hhead : (inSeries writes name key).head? = some head) :
    ∃ metric, r.series? name key = some metric ∧ metric.metricType = head.metricType := by
  have hmetric := h.metric name key
  rw [hhead, Option.map_some] at hmetric
  exact Option.map_eq_some_iff.mp hmetric

theorem Holds.countersKept_iff (h : Holds r writes) : r.CountersKept writes ↔ Counted writes := by
  constructor
  · intro hkept
    refine ⟨fun name key head first hhead hfirst => ?_,
      fun name key head hhead hcounter labels hlabels => ?_⟩
    · obtain ⟨metric, hget, htype⟩ := h.series?_of_head hhead
      obtain ⟨family, hfamily, hmetric⟩ := Option.bind_eq_some_iff.mp hget
      have hfirsttype := h.family name
      rw [MetricsRegistry.familyType?, hfamily, hfirst] at hfirsttype
      rw [← htype, hkept.typed name family key metric hfamily hmetric]
      exact Option.some.inj hfirsttype
    · obtain ⟨metric, hget, htype⟩ := h.series?_of_head hhead
      rw [← h.points_of_series? hget]
      exact hkept.counted name key metric hget (htype.trans hcounter) labels hlabels
  · intro hcounted
    refine ⟨fun name family key metric hfamily hmetric => ?_,
      fun name key metric hget hcounter labels hlabels => ?_⟩
    · obtain ⟨head, hhead, htype⟩ := h.head_of_series?
        (Option.bind_eq_some_iff.mpr ⟨family, hfamily, hmetric⟩)
      obtain ⟨first, hfirst⟩ := exists_first hhead
      have hfirsttype := h.family name
      rw [MetricsRegistry.familyType?, hfamily, hfirst] at hfirsttype
      rw [← htype, hcounted.typed name key head first hhead hfirst]
      exact (Option.some.inj hfirsttype).symm
    · obtain ⟨head, hhead, htype⟩ := h.head_of_series? hget
      rw [h.points_of_series? hget]
      exact hcounted.counted name key head hhead (htype.trans hcounter) labels hlabels

/-- In all states of a run the series have the types of their families and the counters
their increments exactly where all writes are compatible with those before them. -/
theorem counters_kept_iff [Sub ν] (perfCounter : ℕ → ν) (calls : List (MetricCall ν)) :
    (∀ before, before <+: calls →
        (metered perfCounter before).1.registry.CountersKept (metered perfCounter before).2) ↔
      Machine.Throughout Compatible (metered perfCounter calls).2 := by
  rw [← forall_prefix_iff_throughout perfCounter counted_nil fun _ _ hpast h =>
    ⟨fun h' => h.compatible h' hpast, h.snoc⟩]
  exact forall₂_congr fun before _ => (recorded_metered perfCounter before).holds.countersKept_iff

/-- A gauge is set under the name of a counter: the increment is gone. -/
theorem gauge_erases_counter :
    let calls : List (MetricCall ℚ) := [.increment "jobs" 1 none, .setGauge "jobs" 5 none]
    let run := metered (fun _ => 0) calls
    ¬ run.1.registry.CountersKept run.2 ∧
      ((run.1.registry.series? "jobs" "default").map fun metric =>
        (metric.metricType, metric.points.map MetricPoint.value)) = some (.counter, [5]) ∧
      (increments run.2 "jobs" .empty).map MetricPoint.value = [1] := by
  intro calls run
  have hseries : ((run.1.registry.series? "jobs" "default").map fun metric =>
      (metric.metricType, metric.points.map MetricPoint.value)) = some (.counter, [5]) := by
    decide +kernel
  have hmade : (increments run.2 "jobs" .empty).map MetricPoint.value = [1] := by decide +kernel
  refine ⟨fun hkept => ?_, hseries, hmade⟩
  obtain ⟨metric, hget, hpoints⟩ := Option.map_eq_some_iff.mp hseries
  have hsub := hkept.counted "jobs" "default" metric hget (Prod.mk.inj hpoints).1 .empty rfl
  have hvalues := hsub.map MetricPoint.value
  rw [hmade, (Prod.mk.inj hpoints).2] at hvalues
  exact absurd hvalues (by decide)

end Counters

end MollisRuntime.Observability
