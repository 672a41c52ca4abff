import MollisRuntime.Library.Outputs
import MollisRuntime.Observability.Metrics

/-!
What is mixed up in the series of the registry: two sets of labels may be written as one
text. Whether the points of a series belong together is settled by the list of the writes,
by what must hold of each one after those before it.
-/
namespace MollisRuntime.Observability

open Ordered

variable {ν : Type}

/-- The points of a series have the same labels, and points with the same name and the same
labels are in the same series. -/
structure MetricsRegistry.Separated (r : MetricsRegistry ν) : Prop where
  alike : ∀ name key metric, r.series? name key = some metric →
    ∀ p ∈ metric.points, ∀ q ∈ metric.points, SameLabels p.labels q.labels
  together : ∀ name key key' metric metric', r.series? name key = some metric →
    r.series? name key' = some metric' → ∀ p ∈ metric.points, ∀ q ∈ metric'.points,
      SameLabels p.labels q.labels → key = key'

/-- A write that adds a point has the labels of the last write to its series. -/
def Distinct (before : List (Written ν)) (w : Written ν) : Prop :=
  w.metricType ≠ .gauge → ∀ last, (inSeries before w.name w.key).getLast? = some last →
    SameLabels last.point.labels w.point.labels

/-- The registry holds what was written, and all of it was written before now. -/
structure Recorded (c : Metering ν × List (Written ν)) : Prop where
  holds : Holds c.1.registry c.2
  past : ∀ w ∈ c.2, w.point.timestamp < c.1.now

theorem recorded_new : Recorded (({}, []) : Metering ν × List (Written ν)) :=
  ⟨holds_empty, fun _ h => absurd h List.not_mem_nil⟩

section Runs

variable [Sub ν] (perfCounter : ℕ → ν)

/-- What a call writes: nothing, or one point that is read off the clock anew. -/
theorem step_cases (s : Metering ν) (call : MetricCall ν) :
    ((s.step perfCounter call).2 = [] ∧ (s.step perfCounter call).1.registry = s.registry ∧
      (s.step perfCounter call).1.now = s.now) ∨
    ∃ (metricType : MetricType) (name : String) (value : ν) (labels : Option Labels),
      (s.step perfCounter call).2 = [⟨metricType, name, value, s.now, labels.getD .empty⟩] ∧
      (s.step perfCounter call).1.registry =
        s.registry.write metricType name value labels s.now ∧
      (s.step perfCounter call).1.now = s.now + 1 := by
  cases call with
  | increment name value labels => exact .inr ⟨.counter, name, value, labels, rfl, rfl, rfl⟩
  | setGauge name value labels => exact .inr ⟨.gauge, name, value, labels, rfl, rfl, rfl⟩
  | observeHistogram name value labels =>
    exact .inr ⟨.histogram, name, value, labels, rfl, rfl, rfl⟩
  | startTimer name labels => exact .inl ⟨rfl, rfl, rfl⟩
  | enter timer => exact .inl ⟨rfl, rfl, rfl⟩
  | exit timer =>
    unfold Metering.step
    dsimp only
    split
    next name labels startTime _ => exact .inr ⟨.histogram, name, _, labels, rfl, rfl, rfl⟩
    next => exact .inl ⟨rfl, rfl, rfl⟩

theorem Recorded.step {c : Metering ν × List (Written ν)} (h : Recorded c) (call : MetricCall ν) :
    Recorded (Machine.advance (Metering.step perfCounter) c call) := by
  obtain ⟨s, writes⟩ := c
  rcases step_cases perfCounter s call with ⟨hnone, hregistry, hnow⟩ |
    ⟨metricType, name, value, labels, hone, hregistry, hnow⟩
  · constructor
    · rw [Machine.advance, hnone, hregistry, List.append_nil]
      exact h.holds
    · rw [Machine.advance, hnone, hnow, List.append_nil]
      exact h.past
  · constructor
    · rw [Machine.advance, hone, hregistry]
      exact h.holds.write metricType name value labels s.now
    · rw [Machine.advance, hone, hnow]
      intro w hw
      rcases List.mem_append.mp hw with hold | hnew
      · exact (h.past w hold).trans (Nat.lt_succ_self _)
      · rw [List.mem_singleton.mp hnew]
        exact Nat.lt_succ_self _

/-- The state after some calls, and all that they wrote. -/
def metered (calls : List (MetricCall ν)) : Metering ν × List (Written ν) :=
  Machine.exec (Metering.step perfCounter) calls ({}, [])

theorem recorded_metered (calls : List (MetricCall ν)) : Recorded (metered perfCounter calls) :=
  Machine.exec_preserves Recorded (fun _ call h => h.step perfCounter call) recorded_new calls

/-- A property of the writes that one more write keeps exactly when it meets a condition. -/
theorem forall_prefix_iff_throughout {Q : List (Written ν) → Prop}
    {G : List (Written ν) → Written ν → Prop} (hnil : Q [])
    (hsnoc : ∀ writes w, (∀ v ∈ writes, v.point.timestamp < w.point.timestamp) → Q writes →
      (Q (writes ++ [w]) ↔ G writes w)) (calls : List (MetricCall ν)) :
    (∀ before, before <+: calls → Q (metered perfCounter before).2) ↔
      Machine.Throughout G (metered perfCounter calls).2 := by
  refine Machine.forall_prefix_iff_throughout (I := Recorded)
    (fun _ call h => h.step perfCounter call) (fun c call h => ?_) recorded_new hnil calls
  rcases step_cases perfCounter c.1 call with ⟨hnone, -, -⟩ | ⟨_, _, _, _, hone, -, -⟩
  · exact .inl hnone
  · exact .inr ⟨_, hone, hsnoc _ _ h.past⟩

end Runs

section Separation

theorem mem_enter_self {α : Type} (t : MetricType) (points : List α) (pt : α) :
    pt ∈ t.enter points pt := by
  unfold MetricType.enter
  split <;> simp

theorem mem_of_mem_enter {α : Type} {t : MetricType} {points : List α} {pt p : α}
    (h : p ∈ t.enter points pt) : p ∈ points ∨ p = pt := by
  unfold MetricType.enter at h
  split at h
  · exact .inr (List.mem_singleton.mp h)
  · simpa using h

theorem enter_of_ne_gauge {α : Type} {t : MetricType} (h : t ≠ .gauge) (points : List α)
    (pt : α) : t.enter points pt = points ++ [pt] := by
  cases t with
  | gauge => exact absurd rfl h
  | _ => rfl

theorem mem_kept {writes : List (Written ν)} {p : MetricPoint ν} (h : p ∈ kept writes) :
    ∃ w ∈ writes, w.point = p := by
  induction writes using List.reverseRecOn with
  | nil => exact absurd h List.not_mem_nil
  | append_singleton rest w ih =>
    rw [kept_snoc] at h
    rcases mem_of_mem_enter h with hold | rfl
    · obtain ⟨v, hv, hpoint⟩ := ih hold
      exact ⟨v, List.mem_append_left _ hv, hpoint⟩
    · exact ⟨w, List.mem_append_right _ List.mem_cons_self, rfl⟩

/-- The last write to a series leaves its point there. -/
theorem last_mem_kept {writes : List (Written ν)} {last : Written ν}
    (h : writes.getLast? = some last) : last.point ∈ kept writes := by
  obtain ⟨rest, rfl⟩ := List.getLast?_eq_some_iff.mp h
  rw [kept_snoc]
  exact mem_enter_self _ _ _

theorem mem_inSeries {writes : List (Written ν)} {w : Written ν} {name key : String} :
    w ∈ inSeries writes name key ↔ w ∈ writes ∧ w.name = name ∧ w.key = key := by
  rw [inSeries, List.mem_filter, decide_eq_true_eq]

theorem key_of_mem_kept {writes : List (Written ν)} {p : MetricPoint ν} {name key : String}
    (h : p ∈ kept (inSeries writes name key)) : serializeLabels (some p.labels) = key := by
  obtain ⟨w, hw, rfl⟩ := mem_kept h
  exact (mem_inSeries.mp hw).2.2

/-- The points that are left in a series have the same labels. -/
def Alike (writes : List (Written ν)) : Prop :=
  ∀ name key, ∀ p ∈ kept (inSeries writes name key), ∀ q ∈ kept (inSeries writes name key),
    SameLabels p.labels q.labels

theorem alike_snoc {writes : List (Written ν)} (h : Alike writes) (w : Written ν) :
    Alike (writes ++ [w]) ↔ Distinct writes w := by
  constructor
  · intro h' hadds last hlast
    have hpoints := h' w.name w.key
    rw [inSeries_snoc, if_pos ⟨rfl, rfl⟩, kept_snoc, enter_of_ne_gauge hadds] at hpoints
    exact hpoints _ (List.mem_append_left _ (last_mem_kept hlast)) _
      (List.mem_append_right _ List.mem_cons_self)
  · intro hw name key p hp q hq
    rw [inSeries_snoc] at hp hq
    split at hp
    next hseries =>
      obtain ⟨rfl, rfl⟩ := hseries
      rw [if_pos ⟨rfl, rfl⟩] at hq
      rw [kept_snoc] at hp hq
      by_cases hgauge : w.metricType = .gauge
      · rw [hgauge] at hp hq
        obtain rfl := List.mem_singleton.mp hp
        obtain rfl := List.mem_singleton.mp hq
        exact .refl _
      · have hsame (p : MetricPoint ν) (hp : p ∈ kept (inSeries writes w.name w.key)) :
            SameLabels p.labels w.point.labels := by
          have hne : inSeries writes w.name w.key ≠ [] := by
            intro hnil
            rw [hnil] at hp
            cases hp
          have hlast := List.getLast?_eq_getLast_of_ne_nil hne
          exact (h _ _ p hp _ (last_mem_kept hlast)).trans (hw hgauge _ hlast)
        rcases mem_of_mem_enter hp with hp | rfl <;> rcases mem_of_mem_enter hq with hq | rfl
        · exact h _ _ p hp q hq
        · exact hsame p hp
        · exact (hsame q hq).symm
        · exact .refl _
    next hseries =>
      rw [if_neg hseries] at hq
      exact h name key p hp q hq

variable {r : MetricsRegistry ν} {writes : List (Written ν)}

theorem Holds.points_of_series? (h : Holds r writes) {name key : String} {metric : Metric ν}
    (hget : r.series? name key = some metric) :
    metric.points = kept (inSeries writes name key) := by
  have hpoints := h.points name key
  rwa [hget] at hpoints

theorem Holds.series?_of_mem (h : Holds r writes) {name key : String} {p : MetricPoint ν}
    (hp : p ∈ kept (inSeries writes name key)) : ∃ metric, r.series? name key = some metric := by
  rw [← h.points] at hp
  cases hget : r.series? name key with
  | none =>
    rw [hget] at hp
    cases hp
  | some metric => exact ⟨metric, rfl⟩

theorem Holds.separated_iff (h : Holds r writes) : r.Separated ↔ Alike writes := by
  constructor
  · intro hseparated name key p hp q hq
    obtain ⟨metric, hget⟩ := h.series?_of_mem hp
    have hpoints := h.points_of_series? hget
    exact hseparated.alike name key metric hget p (hpoints ▸ hp) q (hpoints ▸ hq)
  · intro halike
    refine ⟨fun name key metric hget p hp q hq => ?_,
      fun name key key' metric metric' hget hget' p hp q hq hlabels => ?_⟩
    · rw [h.points_of_series? hget] at hp hq
      exact halike name key p hp q hq
    · rw [h.points_of_series? hget] at hp
      rw [h.points_of_series? hget'] at hq
      rw [← key_of_mem_kept hp, hlabels.serialize, key_of_mem_kept hq]

/-- In all states of a run the series are separated exactly where each write that adds a
point has the labels of the last write to the series that it finds. -/
theorem series_separated_iff [Sub ν] (perfCounter : ℕ → ν) (calls : List (MetricCall ν)) :
    (∀ before, before <+: calls → (metered perfCounter before).1.registry.Separated) ↔
      Machine.Throughout Distinct (metered perfCounter calls).2 := by
  rw [← forall_prefix_iff_throughout perfCounter (Q := Alike)
    (fun _ _ p hp => absurd hp List.not_mem_nil) (fun _ w _ h => alike_snoc h w)]
  exact forall₂_congr fun before _ => (recorded_metered perfCounter before).holds.separated_iff

/-- The value of one label is written like the value and another label. -/
theorem labels_collide :
    let calls : List (MetricCall ℚ) :=
      [.increment "requests" 1 (some (.ofList [("a", "1,b=2")])),
        .increment "requests" 1 (some (.ofList [("a", "1"), ("b", "2")]))]
    ¬ (metered (fun _ => 0) calls).1.registry.Separated := by
  intro calls hseparated
  have hmixed : ¬ ∀ p ∈ kept (inSeries (metered (fun _ => 0) calls).2 "requests" "a=1,b=2"),
      ∀ q ∈ kept (inSeries (metered (fun _ => 0) calls).2 "requests" "a=1,b=2"),
        SameLabels p.labels q.labels := by decide +kernel
  exact hmixed ((recorded_metered _ calls).holds.separated_iff.mp hseparated _ _)

end Separation

section Plain

/-- Labels in which the separators do not occur where they would be taken for such. -/
def Plain (labels : Labels) : Prop :=
  ∀ e ∈ labels.entries, '=' ∉ e.1.toList ∧ ',' ∉ e.1.toList ∧ ',' ∉ e.2.toList

/-- The words that are joined. -/
def words (labels : Labels) : List String :=
  if labels.entries.isEmpty then ["default"] else (sortedItems labels).map item

theorem toList_item (e : String × String) :
    (item e).toList = e.1.toList ++ '=' :: e.2.toList := by
  simp [item]

theorem toList_serializeLabels (labels : Labels) :
    (serializeLabels (some labels)).toList =
      [','].intercalate ((words labels).map String.toList) := by
  rw [serializeLabels, words]
  split
  · simp
  · exact String.toList_intercalate

theorem words_ne_nil (labels : Labels) : words labels ≠ [] := by
  unfold words
  split
  · exact List.cons_ne_nil _ _
  next hentries =>
    intro hnil
    have hperm := perm_sortedItems labels
    rw [List.map_eq_nil_iff.mp hnil] at hperm
    rw [hperm.symm.eq_nil] at hentries
    exact hentries rfl

theorem Plain.words {labels : Labels} (h : Plain labels) :
    ∀ word ∈ (words labels).map String.toList, ',' ∉ word := by
  intro word hword
  obtain ⟨text, htext, rfl⟩ := List.mem_map.mp hword
  unfold Observability.words at htext
  split at htext
  · rw [List.mem_singleton.mp htext]
    decide
  · obtain ⟨e, he, rfl⟩ := List.mem_map.mp htext
    obtain ⟨-, hkey, hvalue⟩ := h e ((perm_sortedItems labels).mem_iff.mp he)
    rw [toList_item, List.mem_append, List.mem_cons]
    rintro (hc | hc | hc)
    · exact hkey hc
    · exact absurd hc (by decide)
    · exact hvalue hc

theorem item_injective {e f : String × String} (he : '=' ∉ e.1.toList) (hf : '=' ∉ f.1.toList)
    (h : item e = item f) : e = f := by
  have htext := congrArg String.toList h
  rw [toList_item, toList_item] at htext
  have hsplit := congrArg (List.splitOn '=') htext
  rw [List.splitOn_append_cons_self_of_not_mem he, List.splitOn_append_cons_self_of_not_mem hf]
    at hsplit
  have hkey := (List.cons.inj hsplit).1
  rw [hkey] at htext
  have hvalue := (List.cons.inj (List.append_cancel_left htext)).2
  exact Prod.ext (String.toList_inj.mp hkey) (String.toList_inj.mp hvalue)

theorem map_item_injective {xs ys : List (String × String)} (hx : ∀ e ∈ xs, '=' ∉ e.1.toList)
    (hy : ∀ e ∈ ys, '=' ∉ e.1.toList) (h : xs.map item = ys.map item) : xs = ys := by
  induction xs generalizing ys with
  | nil => exact (List.map_eq_nil_iff.mp h.symm).symm
  | cons x xs ih =>
    cases ys with
    | nil => cases h
    | cons y ys =>
      obtain ⟨hhead, htail⟩ := List.cons.inj h
      rw [item_injective (hx x List.mem_cons_self) (hy y List.mem_cons_self) hhead,
        ih (fun e he => hx e (List.mem_cons_of_mem _ he))
          (fun e he => hy e (List.mem_cons_of_mem _ he)) htail]

theorem default_ne_item (e : String × String) : item e ≠ "default" := by
  intro h
  have hmem : '=' ∈ (item e).toList := by
    rw [toList_item]
    simp
  rw [h] at hmem
  exact absurd hmem (by decide)

theorem words_injective {d e : Labels} (hd : Plain d) (he : Plain e) (h : words d = words e) :
    SameLabels d e := by
  have hkeys {labels : Labels} (hplain : Plain labels) :
      ∀ e ∈ sortedItems labels, '=' ∉ e.1.toList :=
    fun e he => (hplain e ((perm_sortedItems labels).mem_iff.mp he)).1
  have hdefault {items : List (String × String)} : ["default"] ≠ items.map item := by
    intro heq
    have hmem : "default" ∈ items.map item := heq ▸ List.mem_singleton.mpr rfl
    obtain ⟨e, -, he⟩ := List.mem_map.mp hmem
    exact default_ne_item e he
  unfold words at h
  split at h <;> split at h
  next hd' he' =>
    have hentries : d = e :=
      Dict.ext_entries ((List.isEmpty_iff.mp hd').trans (List.isEmpty_iff.mp he').symm)
    exact hentries ▸ .refl d
  next => exact absurd h hdefault
  next => exact absurd h.symm hdefault
  next => exact sameLabels_iff.mpr (map_item_injective (hkeys hd) (hkeys he) h)

/-- Plain labels are found again in their text. -/
theorem SameLabels.of_serialize {d e : Labels} (hd : Plain d) (he : Plain e)
    (h : serializeLabels (some d) = serializeLabels (some e)) : SameLabels d e := by
  have htexts := congrArg String.toList h
  rw [toList_serializeLabels, toList_serializeLabels] at htexts
  have hwords : words d = words e := by
    have hsplit := congrArg (List.splitOn ',') htexts
    rw [List.splitOn_intercalate _ hd.words (mt List.map_eq_nil_iff.mp (words_ne_nil d)),
      List.splitOn_intercalate _ he.words (mt List.map_eq_nil_iff.mp (words_ne_nil e))] at hsplit
    exact (List.map_injective_iff.mpr fun _ _ => String.toList_inj.mp) hsplit
  exact words_injective hd he hwords

/-- Where all labels are plain nothing is mixed up. -/
theorem distinct_of_plain {before : List (Written ν)} {w : Written ν}
    (hbefore : ∀ v ∈ before, Plain v.point.labels) (hw : Plain w.point.labels) :
    Distinct before w := by
  intro _ last hlast
  obtain ⟨hmem, -, hkey⟩ := mem_inSeries.mp (List.mem_of_getLast? hlast)
  exact .of_serialize (hbefore last hmem) hw hkey

end Plain

end MollisRuntime.Observability
