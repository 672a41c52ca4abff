import Mathlib.Data.List.Pairwise
import Mathlib.Data.String.Basic
import MollisRuntime.Executors.Lookup
import MollisRuntime.Library.TextOrder

/-!
Lookup without a version. The versions under a name are sorted as texts and the last
one is taken; a version such as 1.2.10 is a list of numbers, and the last text need
not be the greatest list.
-/
namespace MollisRuntime.Executors

open Ordered Python Scheduling TextOrder

/-- What stands between the dots. -/
def components (version : String) : List (List Char) := version.toList.splitOn '.'

def number (component : List Char) : ℕ := component.foldl (fun n c => 10 * n + (c.toNat - 48)) 0

/-- A version as numbers, compared from left to right. -/
def numbers (version : String) : List ℕ := (components version).map number

def Digits (component : List Char) : Prop := ∀ c ∈ component, c.isDigit = true

instance : DecidablePred Digits := fun component =>
  decidable_of_iff (component.all Char.isDigit = true) List.all_eq_true

/-- A dotted numeric string. -/
structure DottedVersion where
  text : String
  numeric : ∀ component ∈ components text, component ≠ [] ∧ Digits component

/-- Registering and unregistering under dotted versions. -/
inductive VersionCall (E : Type)
  | registerExecutor (executorType : String) (working : Working E) (version : DottedVersion)
  | unregisterExecutor (executorType : String) (version : DottedVersion)

def VersionCall.toCall {E : Type} : VersionCall E → RegistryCall E
  | .registerExecutor executorType working version =>
    .registerExecutor executorType working version.text
  | .unregisterExecutor executorType version => .unregisterExecutor executorType version.text

section Order

theorem digit_bounds {c : Char} (h : c.isDigit = true) : 48 ≤ c.toNat ∧ c.toNat ≤ 57 := by
  simp only [Char.isDigit, Bool.and_eq_true, decide_eq_true_eq] at h
  exact ⟨h.1, h.2⟩

theorem above_of_digits {component : List Char} (h : Digits component) : Above '.' component := by
  intro c hc
  have hbounds := digit_bounds (h c hc)
  change ('.' : Char).toNat < c.toNat
  have hdot : ('.' : Char).toNat = 46 := rfl
  omega

/-- Components of one length compare as numbers the way they compare as texts. -/
theorem foldl_lt_foldl {x y : List Char} (hx : Digits x) (hy : Digits y)
    (hlength : x.length = y.length) (n m : ℕ) :
    x.foldl (fun n c => 10 * n + (c.toNat - 48)) n <
        y.foldl (fun n c => 10 * n + (c.toNat - 48)) m ↔
      n < m ∨ n = m ∧ x < y := by
  induction x generalizing y n m with
  | nil =>
    obtain rfl := List.length_eq_zero_iff.mp hlength.symm
    simp
  | cons c x ih =>
    obtain ⟨d, y, rfl⟩ := List.exists_cons_of_length_eq_add_one hlength.symm
    have hc := digit_bounds (hx c List.mem_cons_self)
    have hd := digit_bounds (hy d List.mem_cons_self)
    have hlt : c < d ↔ c.toNat < d.toNat := Iff.rfl
    have heq : c = d ↔ c.toNat = d.toNat := Char.toNat_inj.symm
    rw [List.foldl_cons, List.foldl_cons, ih (fun a ha => hx a (List.mem_cons_of_mem _ ha))
      (fun a ha => hy a (List.mem_cons_of_mem _ ha)) (Nat.succ.inj hlength),
      List.cons_lt_cons_iff, hlt, heq]
    by_cases hrest : x < y
    · simp only [hrest, and_true]
      omega
    · simp only [hrest, and_false, or_false]
      omega

theorem number_lt_number {x y : List Char} (hx : Digits x) (hy : Digits y)
    (hlength : x.length = y.length) : number x < number y ↔ x < y := by
  rw [number, number, foldl_lt_foldl hx hy hlength]
  simp

/-- Versions whose components have the same widths compare as texts the way they
compare as numbers. -/
theorem text_lt_iff {v w : DottedVersion} {width : ℕ → ℕ}
    (hv : Padded width (components v.text)) (hw : Padded width (components w.text)) :
    v.text < w.text ↔ numbers v.text < numbers w.text := by
  have habove (version : DottedVersion) :
      ∀ component ∈ components version.text, Above '.' component :=
    fun component hmem => above_of_digits (version.numeric component hmem).2
  have hdigits (version : DottedVersion) :
      ∀ component ∈ components version.text, Digits component :=
    fun component hmem => (version.numeric component hmem).2
  rw [numbers, numbers, map_lt_map (fun _ _ => number_lt_number) (hdigits v) (hdigits w) hv hw,
    ← intercalate_lt_intercalate (habove v) (habove w) (List.splitOn_ne_nil _ _)
      (List.splitOn_ne_nil _ _),
    components, components, List.intercalate_splitOn, List.intercalate_splitOn,
    String.lt_iff_toList_lt]

end Order

section History

variable {E : Type} (calls : List (VersionCall E)) (executorType : String)

/-- What a call says about the executor under one name and version. -/
def VersionCall.record (executorType version : String) (last : Option E) :
    VersionCall E → Option E
  | .registerExecutor registeredType working registered =>
    if registeredType = executorType ∧ registered.text = version then some working.executor
    else last
  | .unregisterExecutor registeredType registered =>
    if registeredType = executorType ∧ registered.text = version then none else last

/-- The executor that was registered last under the name and version, unless it has
been unregistered since. -/
def registeredLast (version : String) : Option E :=
  calls.foldl (VersionCall.record executorType version) none

/-- Registered, and greatest in the given order of the versions. -/
structure Greatest (below : String → String → Prop) (version : String) : Prop where
  registered : registeredLast calls executorType version ≠ none
  above : ∀ other, registeredLast calls executorType other ≠ none → below other version

def NumericallyGreatest : String → Prop :=
  Greatest calls executorType fun other version => numbers other ≤ numbers version

/-- Last among the texts. -/
def TextuallyLast : String → Prop := Greatest calls executorType (· ≤ ·)

/-- The version that is last as a text is numerically greatest, or what is registered
under it is registered under a numerically greatest version too. -/
def OrdersAgree : Prop :=
  ∀ last, TextuallyLast calls executorType last →
    ∃ greatest, NumericallyGreatest calls executorType greatest ∧
      registeredLast calls executorType greatest = registeredLast calls executorType last

variable (B : Type)

def registryAfter : ExecutorRegistry B E := .after (calls.map VersionCall.toCall)

/-- With some version under the name, a lookup without a version returns what was
registered last under a numerically greatest one. -/
def SelectsGreatest : Prop :=
  (∃ version, registeredLast calls executorType version ≠ none) →
    ∃ version executor, NumericallyGreatest calls executorType version ∧
      registeredLast calls executorType version = some executor ∧
      ((registryAfter calls B).lookupExecutor ExecutorRegistry.recursionLimit executorType
        none).result = .ok executor

variable {calls executorType B}

theorem record_versions {registry : ExecutorRegistry B E} {version : String} {last : Option E}
    (h : ((registry.versions executorType).get? version).map Registration.instantiate =
      last.map .ok) (c : VersionCall E) :
    (((registry.call c.toCall).versions executorType).get? version).map Registration.instantiate =
      (c.record executorType version last).map .ok := by
  cases c with
  | registerExecutor registeredType working registered =>
    dsimp only [VersionCall.toCall, ExecutorRegistry.call, VersionCall.record]
    rw [ExecutorRegistry.versions_registerExecutor]
    by_cases htype : registeredType = executorType
    · subst htype
      rw [if_pos rfl, Dict.get?_set]
      by_cases hversion : registered.text = version
      · rw [if_pos hversion, if_pos ⟨rfl, hversion⟩, Option.map_some, Option.map_some,
          working.returns]
      · rw [if_neg hversion, if_neg (fun hboth => hversion hboth.2), h]
    · rw [if_neg htype, if_neg (fun hboth => htype hboth.1), h]
  | unregisterExecutor registeredType registered =>
    dsimp only [VersionCall.toCall, ExecutorRegistry.call, VersionCall.record]
    rw [ExecutorRegistry.versions_unregisterExecutor]
    by_cases htype : registeredType = executorType
    · subst htype
      rw [if_pos rfl, Dict.get?_erase]
      by_cases hversion : registered.text = version
      · rw [if_pos hversion, if_pos ⟨rfl, hversion⟩, Option.map_none, Option.map_none]
      · rw [if_neg hversion, if_neg (fun hboth => hversion hboth.2), h]
    · rw [if_neg htype, if_neg (fun hboth => htype hboth.1), h]

/-- The registry holds under each name and version what was registered there last. -/
theorem versions_registryAfter (calls : List (VersionCall E)) (executorType version : String) :
    (((registryAfter calls B).versions executorType).get? version).map Registration.instantiate =
      (registeredLast calls executorType version).map .ok := by
  have hfold : ∀ (registry : ExecutorRegistry B E) (last : Option E),
      ((registry.versions executorType).get? version).map Registration.instantiate =
        last.map .ok →
      ((((calls.map VersionCall.toCall).foldl ExecutorRegistry.call registry).versions
        executorType).get? version).map Registration.instantiate =
          (calls.foldl (VersionCall.record executorType version) last).map .ok := by
    induction calls with
    | nil => exact fun _ _ h => h
    | cons c rest ih => exact fun registry last h => ih _ _ (record_versions h c)
  exact hfold {} none rfl

theorem mem_keys_registryAfter {version : String} :
    version ∈ ((registryAfter calls B).versions executorType).keys ↔
      registeredLast calls executorType version ≠ none := by
  have hversions := versions_registryAfter (B := B) calls executorType version
  rw [Ne, ← Option.map_eq_none_iff (f := (Except.ok : E → Except Raised E)), ← hversions,
    Option.map_eq_none_iff, Dict.get?_eq_none_iff, not_not]

/-- The newest of some versions is the last of their texts. -/
theorem le_newest {versions : Dict String (Registration E)} {newest version : String}
    (hnewest : ExecutorRegistry.newest versions = some newest) (hmem : version ∈ versions.keys) :
    version ≤ newest := by
  have hsorted : (versions.keys.insertionSort (· ≤ ·)).Pairwise (· ≤ ·) :=
    List.pairwise_insertionSort _ _
  have hlast := List.getLast_of_getLast?_eq_some hnewest
  exact hlast ▸ hsorted.rel_getLast ((versions.keys.mem_insertionSort (· ≤ ·)).mpr hmem)

theorem newest_registryAfter {last : String} (hlast : TextuallyLast calls executorType last) :
    ExecutorRegistry.newest ((registryAfter calls B).versions executorType) = some last := by
  have hmem := mem_keys_registryAfter (B := B).mpr hlast.registered
  have hentries : ((registryAfter calls B).versions executorType).entries ≠ [] := by
    intro hnil
    rw [Dict.keys, hnil] at hmem
    exact List.not_mem_nil hmem
  obtain ⟨newest, _, hnewest, hget⟩ := ExecutorRegistry.newest_registered hentries
  have hregistered := mem_keys_registryAfter.mp ((Dict.mem_keys_iff _ _).mpr ⟨_, hget⟩)
  rw [hnewest, le_antisymm (hlast.above newest hregistered) (le_newest hnewest hmem)]

/-- The lookup returns what was registered last under the last text. -/
theorem lookup_textuallyLast {last : String} {executor : E}
    (hlast : TextuallyLast calls executorType last)
    (hexecutor : registeredLast calls executorType last = some executor) (depth : ℕ) :
    ((registryAfter calls B).lookupExecutor (depth + 1) executorType none).result =
      .ok executor := by
  have hversions := versions_registryAfter (B := B) calls executorType last
  rw [hexecutor] at hversions
  obtain ⟨registration, hget, hinstantiate⟩ := Option.map_eq_some_iff.mp hversions
  rw [ExecutorRegistry.lookup_registered depth (newest_registryAfter hlast) hget, hinstantiate]

theorem exists_textuallyLast (h : ∃ version, registeredLast calls executorType version ≠ none) :
    ∃ last, TextuallyLast calls executorType last := by
  obtain ⟨version, hregistered⟩ := h
  have hmem := mem_keys_registryAfter (B := Unit).mpr hregistered
  have hentries : ((registryAfter calls Unit).versions executorType).entries ≠ [] := by
    intro hnil
    rw [Dict.keys, hnil] at hmem
    exact List.not_mem_nil hmem
  obtain ⟨newest, _, hnewest, hget⟩ := ExecutorRegistry.newest_registered hentries
  refine ⟨newest, mem_keys_registryAfter.mp ((Dict.mem_keys_iff _ _).mpr ⟨_, hget⟩), ?_⟩
  intro other hother
  exact le_newest hnewest (mem_keys_registryAfter.mpr hother)

theorem selectsGreatest_of_agree (hagree : OrdersAgree calls executorType) :
    SelectsGreatest calls executorType B := by
  intro hsome
  obtain ⟨last, hlast⟩ := exists_textuallyLast hsome
  obtain ⟨executor, hexecutor⟩ := Option.ne_none_iff_exists'.mp hlast.registered
  obtain ⟨greatest, hgreatest, hsame⟩ := hagree last hlast
  exact ⟨greatest, executor, hgreatest, hsame.trans hexecutor,
    lookup_textuallyLast hlast hexecutor _⟩

/-- The greatest version is selected exactly when the orders of the texts and of the
numbers agree about what is registered last. -/
theorem selectsGreatest_iff (calls : List (VersionCall E)) (executorType : String) (B : Type) :
    SelectsGreatest calls executorType B ↔ OrdersAgree calls executorType := by
  constructor
  · intro hselects last hlast
    obtain ⟨executor, hexecutor⟩ := Option.ne_none_iff_exists'.mp hlast.registered
    obtain ⟨greatest, selected, hgreatest, hselected, hlookup⟩ :=
      hselects ⟨last, hlast.registered⟩
    rw [ExecutorRegistry.recursionLimit, lookup_textuallyLast hlast hexecutor] at hlookup
    obtain rfl := Except.ok.inj hlookup
    exact ⟨greatest, hgreatest, hselected.trans hexecutor.symm⟩
  · exact selectsGreatest_of_agree

/-- What is registered under a version was registered by one of the calls. -/
theorem exists_call_of_registeredLast {version : String}
    (h : registeredLast calls executorType version ≠ none) :
    ∃ working registered, VersionCall.registerExecutor executorType working registered ∈ calls ∧
      registered.text = version := by
  have hfold : ∀ last : Option E,
      calls.foldl (VersionCall.record executorType version) last ≠ none →
        last ≠ none ∨ ∃ working registered,
          VersionCall.registerExecutor executorType working registered ∈ calls ∧
            registered.text = version := by
    clear h
    induction calls with
    | nil => exact fun last hlast => .inl hlast
    | cons c rest ih =>
      intro last hlast
      rcases ih _ hlast with hrecorded | ⟨working, registered, hmem, htext⟩
      · cases c with
        | registerExecutor registeredType working registered =>
          by_cases hsame : registeredType = executorType ∧ registered.text = version
          · obtain ⟨rfl, htext⟩ := hsame
            exact .inr ⟨working, registered, List.mem_cons_self, htext⟩
          · rw [VersionCall.record, if_neg hsame] at hrecorded
            exact .inl hrecorded
        | unregisterExecutor registeredType registered =>
          rw [VersionCall.record] at hrecorded
          split at hrecorded
          · exact absurd rfl hrecorded
          · exact .inl hrecorded
      · exact .inr ⟨working, registered, List.mem_cons_of_mem _ hmem, htext⟩
  exact (hfold none h).resolve_left fun hnone => hnone rfl

/-- Versions whose components are padded to the same widths are selected as they should. -/
theorem selectsGreatest_of_padded {width : ℕ → ℕ}
    (h : ∀ version, registeredLast calls executorType version ≠ none →
      Padded width (components version)) :
    SelectsGreatest calls executorType B := by
  refine selectsGreatest_of_agree fun last hlast => ⟨last, ?_, rfl⟩
  refine ⟨hlast.registered, fun other hother => ?_⟩
  obtain ⟨_, v, _, rfl⟩ := exists_call_of_registeredLast hother
  obtain ⟨_, w, _, rfl⟩ := exists_call_of_registeredLast hlast.registered
  have hnot : ¬ w.text < v.text := not_lt.mpr (hlast.above v.text hother)
  exact not_lt.mp (mt (text_lt_iff (h _ hlast.registered) (h _ hother)).mpr hnot)

def nine : DottedVersion := ⟨"1.9.0", by decide +kernel⟩

def ten : DottedVersion := ⟨"1.10.0", by decide +kernel⟩

/-- Version 1.10.0 is registered after 1.9.0, and the lookup returns 1.9.0. -/
theorem lookup_nine_before_ten :
    let calls : List (VersionCall String) :=
      [.registerExecutor "python" (.ready "python 1.9.0") nine,
        .registerExecutor "python" (.ready "python 1.10.0") ten]
    numbers nine.text = [1, 9, 0] ∧ numbers ten.text = [1, 10, 0] ∧
      ((registryAfter calls Unit).lookupExecutor ExecutorRegistry.recursionLimit "python"
        none).result = .ok "python 1.9.0" ∧
      ¬ SelectsGreatest calls "python" Unit := by
  intro calls
  have hlookup : ((registryAfter calls Unit).lookupExecutor ExecutorRegistry.recursionLimit
      "python" none).result = .ok "python 1.9.0" := by decide +kernel
  refine ⟨by decide +kernel, by decide +kernel, hlookup, fun hselects => ?_⟩
  obtain ⟨version, executor, hgreatest, hexecutor, hreturned⟩ := hselects ⟨"1.9.0", by decide⟩
  obtain rfl := Except.ok.inj (hlookup.symm.trans hreturned)
  obtain ⟨working, registered, hmem, htext⟩ := exists_call_of_registeredLast hgreatest.registered
  have hten : numbers ten.text ≤ numbers version := hgreatest.above ten.text (by decide)
  rcases List.mem_cons.mp hmem with hnine | htail
  · obtain ⟨-, -, rfl⟩ := VersionCall.registerExecutor.inj hnine
    rw [← htext] at hten
    exact absurd hten (by decide +kernel)
  · obtain ⟨-, -, rfl⟩ := VersionCall.registerExecutor.inj (List.mem_singleton.mp htail)
    rw [← htext] at hexecutor
    exact absurd hexecutor (by decide +kernel)

end History

end MollisRuntime.Executors
