import Mathlib.Data.List.Nodup
import Mathlib.Data.Option.Basic

/-!
Insertion-ordered dictionaries over arbitrary keys and values. A dictionary is
its list of entries together with the fact that no key occurs twice, so a
malformed dictionary cannot be built. Writing an existing key keeps its place;
writing a new key appends it. Lookup, key and extensionality laws follow.
-/
namespace Ordered

universe u v w
variable {κ : Type u} {α : Type v} {β : Type w}

structure Dict (κ : Type u) (α : Type v) where
  entries : List (κ × α)
  nodup_keys : (entries.map Prod.fst).Nodup

section Entries
variable [DecidableEq κ]

def lookup (k : κ) : List (κ × α) → Option α
  | [] => none
  | (k', v) :: rest => if k' = k then some v else lookup k rest

def upsert (k : κ) (v : α) : List (κ × α) → List (κ × α)
  | [] => [(k, v)]
  | (k', v') :: rest =>
      if k' = k then (k', v) :: rest else (k', v') :: upsert k v rest

theorem lookup_upsert (k j : κ) (v : α) (entries : List (κ × α)) :
    lookup j (upsert k v entries) = if k = j then some v else lookup j entries := by
  induction entries with
  | nil => rfl
  | cons entry rest ih =>
    obtain ⟨k', v'⟩ := entry
    by_cases hk : k' = k
    · subst k'
      by_cases hj : k = j <;> simp [upsert, lookup, hj]
    · by_cases hj : k' = j
      · subst j
        simp [upsert, lookup, hk, Ne.symm hk]
      · simp [upsert, lookup, hk, hj, ih]

theorem keys_upsert_of_mem (k : κ) (v : α) (entries : List (κ × α))
    (h : k ∈ entries.map Prod.fst) :
    (upsert k v entries).map Prod.fst = entries.map Prod.fst := by
  induction entries with
  | nil => simp at h
  | cons entry rest ih =>
    obtain ⟨k', v'⟩ := entry
    by_cases hk : k' = k
    · simp [upsert, hk]
    · have hrest : k ∈ rest.map Prod.fst := by
        simpa [Ne.symm hk] using h
      simp [upsert, hk, ih hrest]

theorem upsert_of_notMem (k : κ) (v : α) (entries : List (κ × α))
    (h : k ∉ entries.map Prod.fst) : upsert k v entries = entries ++ [(k, v)] := by
  induction entries with
  | nil => rfl
  | cons entry rest ih =>
    obtain ⟨k', v'⟩ := entry
    simp only [List.map_cons, List.mem_cons, not_or] at h
    simp [upsert, Ne.symm h.1, ih h.2]

theorem upsert_nodup (k : κ) (v : α) (entries : List (κ × α))
    (h : (entries.map Prod.fst).Nodup) : ((upsert k v entries).map Prod.fst).Nodup := by
  by_cases hk : k ∈ entries.map Prod.fst
  · rwa [keys_upsert_of_mem k v entries hk]
  · rw [upsert_of_notMem k v entries hk, List.map_append]
    exact List.nodup_append.mpr ⟨h, by simp, by
      intro a ha b hb hab
      simp only [List.map_cons, List.map_nil, List.mem_singleton] at hb
      exact hk (hb ▸ hab ▸ ha)⟩

theorem mem_of_lookup (k : κ) (v : α) (entries : List (κ × α))
    (h : lookup k entries = some v) : (k, v) ∈ entries := by
  induction entries with
  | nil => simp [lookup] at h
  | cons entry rest ih =>
    obtain ⟨k', v'⟩ := entry
    by_cases hk : k' = k
    · simp only [lookup, if_pos hk, Option.some.injEq] at h
      simp [hk, h]
    · simp only [lookup, if_neg hk] at h
      exact List.mem_cons_of_mem _ (ih h)

theorem lookup_of_mem (k : κ) (v : α) (entries : List (κ × α))
    (hnodup : (entries.map Prod.fst).Nodup) (h : (k, v) ∈ entries) :
    lookup k entries = some v := by
  induction entries with
  | nil => simp at h
  | cons entry rest ih =>
    obtain ⟨k', v'⟩ := entry
    simp only [List.map_cons, List.nodup_cons] at hnodup
    rcases List.mem_cons.mp h with heq | hrest
    · simp only [Prod.mk.injEq] at heq
      simp [lookup, heq]
    · have hk : k' ≠ k := by
        intro heq
        exact hnodup.1 (heq ▸ List.mem_map_of_mem (f := Prod.fst) hrest)
      simp [lookup, hk, ih hnodup.2 hrest]

theorem lookup_map (k : κ) (f : α → β) (entries : List (κ × α)) :
    lookup k (entries.map fun e => (e.1, f e.2)) = (lookup k entries).map f := by
  induction entries with
  | nil => rfl
  | cons entry rest ih =>
    by_cases hk : entry.1 = k <;> simp [lookup, hk, ih]

theorem lookup_append_of_notMem {k : κ} {xs ys : List (κ × α)} (h : k ∉ xs.map Prod.fst) :
    lookup k (xs ++ ys) = lookup k ys := by
  induction xs with
  | nil => rfl
  | cons x xs ih =>
    rw [List.map_cons, List.mem_cons, not_or] at h
    rw [List.cons_append, lookup, if_neg (Ne.symm h.1), ih h.2]

/-- Values given for each of the keys. -/
theorem lookup_attach {keys : List κ} (value : {k // k ∈ keys} → α) (k : {k // k ∈ keys}) :
    lookup k.1 (keys.attach.map fun j => (j.1, value j)) = some (value k) := by
  have hmem : k ∈ keys.attach := List.mem_attach keys k
  generalize keys.attach = ks at hmem
  induction ks with
  | nil => exact absurd hmem List.not_mem_nil
  | cons j rest ih =>
    rw [List.map_cons, lookup]
    by_cases hj : j = k
    · rw [if_pos (congrArg Subtype.val hj), hj]
    · rw [if_neg fun heq => hj (Subtype.ext heq)]
      exact ih ((List.mem_cons.mp hmem).resolve_left (Ne.symm hj))

end Entries

namespace Dict

def keys (d : Dict κ α) : List κ := d.entries.map Prod.fst

def empty : Dict κ α := ⟨[], by simp⟩

/-- The values, in the order of the keys. -/
def values (d : Dict κ α) : List α := d.entries.map Prod.snd

@[simp] theorem values_empty : (empty : Dict κ α).values = [] := rfl

theorem length_values (d : Dict κ α) : d.values.length = d.entries.length := List.length_map _

/-- Replace every value, keeping keys and order. -/
def mapVal (f : α → β) (d : Dict κ α) : Dict κ β :=
  ⟨d.entries.map fun e => (e.1, f e.2), by
    have h : (fun e : κ × α => e.1) = Prod.fst := rfl
    simpa only [List.map_map, Function.comp_def, h] using d.nodup_keys⟩

theorem values_mapVal (f : α → β) (d : Dict κ α) : (d.mapVal f).values = d.values.map f := by
  simp only [values, mapVal, List.map_map, Function.comp_def]

theorem ext_entries {d e : Dict κ α} (h : d.entries = e.entries) : d = e := by
  obtain ⟨xs, hxs⟩ := d
  obtain ⟨ys, hys⟩ := e
  cases h
  rfl

theorem nodup_keys' (d : Dict κ α) : d.keys.Nodup := d.nodup_keys

@[simp] theorem keys_empty : (empty : Dict κ α).keys = [] := rfl

@[simp] theorem keys_mapVal (f : α → β) (d : Dict κ α) : (d.mapVal f).keys = d.keys := by
  simp [keys, mapVal, Function.comp_def]

variable [DecidableEq κ]

def get? (d : Dict κ α) (k : κ) : Option α := lookup k d.entries

def set (d : Dict κ α) (k : κ) (v : α) : Dict κ α :=
  ⟨upsert k v d.entries, upsert_nodup k v d.entries d.nodup_keys⟩

def contains (d : Dict κ α) (k : κ) : Bool := decide (k ∈ d.keys)

/-- Write the entries one after the other: a repeated key keeps its first
place and its last value. -/
def setAll (d : Dict κ α) (entries : List (κ × α)) : Dict κ α :=
  entries.foldl (fun acc e => acc.set e.1 e.2) d

def ofList (entries : List (κ × α)) : Dict κ α := empty.setAll entries

def fromKeys (ks : List κ) (v : α) : Dict κ α := ofList (ks.map fun k => (k, v))

@[simp] theorem contains_iff (d : Dict κ α) (k : κ) : d.contains k = true ↔ k ∈ d.keys := by
  simp [contains]

@[simp] theorem get?_empty (k : κ) : (empty : Dict κ α).get? k = none := rfl

theorem get?_set (d : Dict κ α) (k j : κ) (v : α) :
    (d.set k v).get? j = if k = j then some v else d.get? j :=
  lookup_upsert k j v d.entries

@[simp] theorem get?_set_self (d : Dict κ α) (k : κ) (v : α) :
    (d.set k v).get? k = some v := by
  simp [get?_set]

theorem get?_set_ne (d : Dict κ α) (k j : κ) (v : α) (h : k ≠ j) :
    (d.set k v).get? j = d.get? j := by
  simp [get?_set, h]

theorem mem_entries_iff (d : Dict κ α) (k : κ) (v : α) :
    (k, v) ∈ d.entries ↔ d.get? k = some v :=
  ⟨lookup_of_mem k v d.entries d.nodup_keys, mem_of_lookup k v d.entries⟩

theorem mem_values_iff {d : Dict κ α} {v : α} : v ∈ d.values ↔ ∃ k, d.get? k = some v := by
  rw [values, List.mem_map]
  constructor
  · rintro ⟨⟨k, _⟩, hentry, rfl⟩
    exact ⟨k, (d.mem_entries_iff k _).mp hentry⟩
  · rintro ⟨k, hget⟩
    exact ⟨(k, v), (d.mem_entries_iff k v).mpr hget, rfl⟩

theorem mem_keys_iff (d : Dict κ α) (k : κ) : k ∈ d.keys ↔ ∃ v, d.get? k = some v := by
  constructor
  · intro h
    obtain ⟨e, he, rfl⟩ := List.mem_map.mp h
    exact ⟨e.2, (d.mem_entries_iff e.1 e.2).mp he⟩
  · rintro ⟨v, hv⟩
    exact List.mem_map.mpr ⟨(k, v), (d.mem_entries_iff k v).mpr hv, rfl⟩

theorem get?_eq_none_iff (d : Dict κ α) (k : κ) : d.get? k = none ↔ k ∉ d.keys := by
  rw [mem_keys_iff]
  cases d.get? k <;> simp

theorem keys_set_of_mem (d : Dict κ α) (k : κ) (v : α) (h : k ∈ d.keys) :
    (d.set k v).keys = d.keys :=
  keys_upsert_of_mem k v d.entries h

theorem keys_set_of_notMem (d : Dict κ α) (k : κ) (v : α) (h : k ∉ d.keys) :
    (d.set k v).keys = d.keys ++ [k] := by
  simp only [keys, set, upsert_of_notMem k v d.entries h, List.map_append, List.map_cons,
    List.map_nil]

theorem mem_keys_set (d : Dict κ α) (k j : κ) (v : α) :
    j ∈ (d.set k v).keys ↔ j = k ∨ j ∈ d.keys := by
  by_cases h : k ∈ d.keys
  · rw [keys_set_of_mem d k v h]
    constructor
    · exact Or.inr
    · rintro (rfl | hj)
      · exact h
      · exact hj
  · rw [keys_set_of_notMem d k v h]
    simp [or_comm]

theorem get?_mapVal (f : α → β) (d : Dict κ α) (k : κ) :
    (d.mapVal f).get? k = (d.get? k).map f :=
  lookup_map k f d.entries

/-- Same keys in the same order and the same values: the same dictionary. -/
theorem ext_get? {d e : Dict κ α} (hkeys : d.keys = e.keys)
    (hget : ∀ k ∈ d.keys, d.get? k = e.get? k) : d = e := by
  obtain ⟨xs, hxs⟩ := d
  obtain ⟨ys, hys⟩ := e
  suffices h : xs = ys by subst h; rfl
  simp only [keys, get?] at hkeys hget
  induction xs generalizing ys with
  | nil => exact (List.map_eq_nil_iff.mp hkeys.symm).symm
  | cons x xs ih =>
    cases ys with
    | nil => simp at hkeys
    | cons y ys =>
      obtain ⟨k, v⟩ := x
      obtain ⟨j, w⟩ := y
      simp only [List.map_cons, List.cons.injEq] at hkeys
      obtain ⟨rfl, hrest⟩ := hkeys
      have hhead : some v = some w := by
        simpa [lookup] using hget k (by simp)
      have htail : xs = ys := by
        apply ih (List.nodup_cons.mp hxs).2 ys (List.nodup_cons.mp hys).2 hrest
        intro q hq
        have hne : k ≠ q := by
          rintro rfl
          exact (List.nodup_cons.mp hxs).1 hq
        simpa [lookup, hne] using hget q (List.mem_cons_of_mem _ hq)
      rw [Option.some.inj hhead, htail]

/-- Writing what is already there. -/
theorem set_of_get? {d : Dict κ α} {k : κ} {v : α} (h : d.get? k = some v) : d.set k v = d := by
  apply ext_get? (keys_set_of_mem d k v ((d.mem_keys_iff k).mpr ⟨v, h⟩))
  intro j _
  by_cases hj : k = j
  · subst hj
    rw [get?_set_self, h]
  · exact get?_set_ne d k j v hj

/-- The second write under a key hides the first. -/
theorem set_set (d : Dict κ α) (k : κ) (v w : α) : (d.set k v).set k w = d.set k w := by
  have hmem : k ∈ (d.set k v).keys := (d.mem_keys_set k k v).mpr (Or.inl rfl)
  have hkeys : (d.set k w).keys = (d.set k v).keys := by
    by_cases h : k ∈ d.keys
    · rw [keys_set_of_mem d k v h, keys_set_of_mem d k w h]
    · rw [keys_set_of_notMem d k v h, keys_set_of_notMem d k w h]
  apply ext_get? ((keys_set_of_mem _ k w hmem).trans hkeys.symm)
  intro j _
  rw [get?_set, get?_set, get?_set]
  by_cases hj : k = j
  · rw [if_pos hj, if_pos hj]
  · rw [if_neg hj, if_neg hj, if_neg hj]

/-- Removing a key that may be absent. -/
def erase (d : Dict κ α) (k : κ) : Dict κ α where
  entries := d.entries.filter fun e => decide (e.1 ≠ k)
  nodup_keys := d.nodup_keys.sublist (List.filter_sublist.map Prod.fst)

theorem get?_erase (d : Dict κ α) (k j : κ) :
    (d.erase k).get? j = if k = j then none else d.get? j := by
  by_cases hj : k = j
  · subst hj
    rw [if_pos rfl, get?_eq_none_iff]
    intro hk
    obtain ⟨e, he, rfl⟩ := List.mem_map.mp hk
    simpa using (List.mem_filter.mp he).2
  · rw [if_neg hj]
    have hiff : ∀ v, (d.erase k).get? j = some v ↔ d.get? j = some v := by
      intro v
      rw [← mem_entries_iff, ← mem_entries_iff, erase, List.mem_filter]
      simp [Ne.symm hj]
    exact Option.ext hiff

theorem mem_keys_erase (d : Dict κ α) (k j : κ) :
    j ∈ (d.erase k).keys ↔ j ∈ d.keys ∧ j ≠ k := by
  by_cases hk : k = j
  · simp [mem_keys_iff, get?_erase, hk]
  · simp [mem_keys_iff, get?_erase, hk, Ne.symm hk]

theorem keys_erase (d : Dict κ α) (k : κ) : (d.erase k).keys = d.keys.erase k := by
  rw [d.nodup_keys'.erase_eq_filter, keys, keys, List.filter_map]
  refine congrArg (List.map Prod.fst) (List.filter_congr ?_)
  intro e he
  simp [bne, Bool.beq_eq_decide_eq]

/-- Removing several keys. -/
theorem get?_foldl_erase (ks : List κ) (d : Dict κ α) (j : κ) :
    (ks.foldl erase d).get? j = if j ∈ ks then none else d.get? j := by
  induction ks generalizing d with
  | nil => simp
  | cons k rest ih =>
    rw [List.foldl_cons, ih, get?_erase]
    by_cases hrest : j ∈ rest
    · simp [hrest]
    · by_cases hk : k = j
      · simp [hk]
      · simp [hrest, hk, Ne.symm hk]

theorem erase_of_notMem (d : Dict κ α) (k : κ) (h : k ∉ d.keys) : d.erase k = d := by
  apply ext_entries
  apply List.filter_eq_self.mpr
  intro e he
  have hne : e.1 ≠ k := fun hk => h (hk ▸ List.mem_map_of_mem he)
  simpa using hne

theorem mapVal_erase (f : α → β) (d : Dict κ α) (k : κ) :
    (d.erase k).mapVal f = (d.mapVal f).erase k := by
  apply ext_entries
  simp [mapVal, erase, List.filter_map, Function.comp_def]

theorem mapVal_set (f : α → β) (d : Dict κ α) (k : κ) (v : α) :
    (d.set k v).mapVal f = (d.mapVal f).set k (f v) := by
  apply ext_entries
  change (upsert k v d.entries).map (fun e => (e.1, f e.2)) =
    upsert k (f v) (d.entries.map fun e => (e.1, f e.2))
  induction d.entries with
  | nil => rfl
  | cons e rest ih =>
    by_cases hk : e.1 = k <;> simp [upsert, hk, ih]

theorem entries_erase_perm {d : Dict κ α} {k : κ} {v : α} (h : d.get? k = some v) :
    d.entries.Perm ((k, v) :: (d.erase k).entries) := by
  have hnodup : d.entries.Nodup := List.Nodup.of_map _ d.nodup_keys
  have hrest : (d.erase k).entries.Nodup := hnodup.filter _
  refine (List.perm_ext_iff_of_nodup hnodup (List.nodup_cons.mpr ⟨?_, hrest⟩)).mpr ?_
  · simp [erase]
  · intro e
    rw [List.mem_cons, erase, List.mem_filter]
    by_cases he : e.1 = k
    · have hmem : e ∈ d.entries ↔ e = (k, v) := by
        obtain ⟨j, w⟩ := e
        obtain rfl : j = k := he
        rw [mem_entries_iff, h]
        simp [eq_comm]
      simp [hmem, he]
    · have hne : e ≠ (k, v) := fun heq => he (congrArg Prod.fst heq)
      simp [he, hne]

theorem values_erase_perm {d : Dict κ α} {k : κ} {v : α} (h : d.get? k = some v) :
    d.values.Perm (v :: (d.erase k).values) :=
  (entries_erase_perm h).map Prod.snd

theorem erase_set (d : Dict κ α) (k : κ) (v : α) : (d.set k v).erase k = d.erase k := by
  apply ext_entries
  change (upsert k v d.entries).filter (fun e => decide (e.1 ≠ k)) =
    d.entries.filter fun e => decide (e.1 ≠ k)
  induction d.entries with
  | nil => simp [upsert]
  | cons e rest ih =>
    by_cases hk : e.1 = k
    · simp [upsert, hk]
    · simpa [upsert, hk] using ih

theorem values_set_perm (d : Dict κ α) (k : κ) (v : α) :
    (d.set k v).values.Perm (v :: (d.erase k).values) := by
  have hset := values_erase_perm (d.get?_set_self k v)
  rwa [erase_set] at hset

theorem entries_set_of_notMem {d : Dict κ α} {k : κ} (v : α) (h : k ∉ d.keys) :
    (d.set k v).entries = d.entries ++ [(k, v)] :=
  upsert_of_notMem k v d.entries h

/-- Writing an entry behind all others. -/
def replace (d : Dict κ α) (k : κ) (v : α) : Dict κ α := (d.erase k).set k v

theorem mapVal_replace (f : α → β) (d : Dict κ α) (k : κ) (v : α) :
    (d.replace k v).mapVal f = (d.mapVal f).replace k (f v) := by
  rw [replace, mapVal_set, mapVal_erase, replace]

theorem get?_replace (d : Dict κ α) (k j : κ) (v : α) :
    (d.replace k v).get? j = if k = j then some v else d.get? j := by
  rw [replace, get?_set, get?_erase]
  split <;> rfl

/-- The values written one after the other, each under its own key. -/
def rekey (key : α → κ) (entries : List (κ × α)) (d : Dict κ α) : Dict κ α :=
  entries.foldl (fun acc e => acc.replace (key e.2) e.2) d

@[simp] theorem setAll_nil (d : Dict κ α) : d.setAll [] = d := rfl

@[simp] theorem setAll_cons (d : Dict κ α) (e : κ × α) (entries : List (κ × α)) :
    d.setAll (e :: entries) = (d.set e.1 e.2).setAll entries := rfl

theorem entries_setAll_of_fresh (entries : List (κ × α)) (d : Dict κ α)
    (h : (d.entries.map Prod.fst ++ entries.map Prod.fst).Nodup) :
    (d.setAll entries).entries = d.entries ++ entries := by
  induction entries generalizing d with
  | nil => simp
  | cons e rest ih =>
    have hfresh : e.1 ∉ d.entries.map Prod.fst := by
      intro hmem
      exact (List.nodup_append.mp h).2.2 e.1 hmem e.1 (by simp) rfl
    have hset : (d.set e.1 e.2).entries = d.entries ++ [e] :=
      upsert_of_notMem e.1 e.2 d.entries hfresh
    rw [setAll_cons, ih (d.set e.1 e.2), hset]
    · simp
    · simpa [hset] using h

/-- Rebuilding a dictionary from its own entries gives it back. -/
@[simp] theorem ofList_entries (d : Dict κ α) : ofList d.entries = d := by
  have h : (ofList d.entries).entries = d.entries := by
    simpa [ofList, empty] using entries_setAll_of_fresh d.entries empty (by
      simpa [empty] using d.nodup_keys)
  obtain ⟨entries, hnodup⟩ := d
  cases hd : ofList entries with
  | mk xs hxs =>
    simp only [hd] at h
    subst h
    rfl

theorem rekey_eq_setAll {key : α → κ} (entries : List (κ × α)) (d : Dict κ α)
    (hkey : ∀ e ∈ entries, key e.2 = e.1)
    (h : (d.keys ++ entries.map Prod.fst).Nodup) : rekey key entries d = d.setAll entries := by
  induction entries generalizing d with
  | nil => rfl
  | cons e rest ih =>
    have hfresh : e.1 ∉ d.keys := by
      intro hmem
      exact (List.nodup_append.mp h).2.2 e.1 hmem e.1 (by simp) rfl
    have hstep : d.replace (key e.2) e.2 = d.set e.1 e.2 := by
      rw [hkey e (by simp), replace, erase_of_notMem d e.1 hfresh]
    rw [setAll_cons, ← ih (d.set e.1 e.2) (fun f hf => hkey f (List.mem_cons_of_mem _ hf)),
      rekey, List.foldl_cons, hstep, rekey]
    rw [keys_set_of_notMem d e.1 e.2 hfresh]
    simpa using h

/-- Entries under their own keys stay as they are. -/
theorem rekey_of_keyed {key : α → κ} (d : Dict κ α) (h : ∀ e ∈ d.entries, key e.2 = e.1) :
    rekey key d.entries empty = d := by
  rw [rekey_eq_setAll d.entries empty h (by simpa using d.nodup_keys)]
  exact ofList_entries d

theorem keyed_rekey {key : α → κ} (entries : List (κ × α)) {d : Dict κ α}
    (h : ∀ e ∈ d.entries, key e.2 = e.1) :
    ∀ e ∈ (rekey key entries d).entries, key e.2 = e.1 := by
  induction entries generalizing d with
  | nil => exact h
  | cons e rest ih =>
    apply ih
    rintro ⟨k, v⟩ hv
    rw [mem_entries_iff, get?_replace] at hv
    split at hv
    · rename_i hk
      cases hv
      exact hk
    · exact h (k, v) ((mem_entries_iff _ _ _).mpr hv)

theorem keys_setAll_of_subset (entries : List (κ × α)) (d : Dict κ α)
    (h : ∀ e ∈ entries, e.1 ∈ d.keys) : (d.setAll entries).keys = d.keys := by
  induction entries generalizing d with
  | nil => rfl
  | cons e rest ih =>
    have hkeys := keys_set_of_mem d e.1 e.2 (h e (by simp))
    rw [setAll_cons, ih (d.set e.1 e.2), hkeys]
    intro e' he'
    rw [hkeys]
    exact h e' (List.mem_cons_of_mem _ he')

section FromKeys

/-- Under one key only what was there and what is written there matters. -/
theorem get?_setAll_congr (entries : List (κ × α)) {d e : Dict κ α} {k : κ}
    (h : d.get? k = e.get? k) : (d.setAll entries).get? k = (e.setAll entries).get? k := by
  induction entries generalizing d e with
  | nil => exact h
  | cons entry rest ih =>
    rw [setAll_cons, setAll_cons]
    apply ih
    rw [get?_set, get?_set, h]

/-- The same value written under several keys. -/
theorem get?_setAll_const (ks : List κ) (v : α) (d : Dict κ α) (k : κ) :
    (d.setAll (ks.map fun j => (j, v))).get? k = if k ∈ ks then some v else d.get? k := by
  induction ks generalizing d with
  | nil => simp [setAll]
  | cons j rest ih =>
    rw [List.map_cons, setAll_cons, ih, get?_set]
    by_cases hrest : k ∈ rest
    · simp [hrest]
    · by_cases hj : j = k
      · simp [hj]
      · simp [hrest, hj, Ne.symm hj]

theorem entries_fromKeys (ks : List κ) (v : α) (h : ks.Nodup) :
    (fromKeys ks v).entries = ks.map fun k => (k, v) := by
  have hkeys : (ks.map fun k => (k, v)).map Prod.fst = ks := by
    simp [Function.comp_def]
  simpa [fromKeys, ofList, empty] using
    entries_setAll_of_fresh (ks.map fun k => (k, v)) empty (by simpa [empty, hkeys] using h)

@[simp] theorem keys_fromKeys (ks : List κ) (v : α) (h : ks.Nodup) :
    (fromKeys ks v).keys = ks := by
  simp [keys, entries_fromKeys ks v h, Function.comp_def]

theorem get?_fromKeys (ks : List κ) (v : α) (h : ks.Nodup) (k : κ) (hk : k ∈ ks) :
    (fromKeys ks v).get? k = some v := by
  apply (mem_entries_iff _ _ _).mp
  rw [entries_fromKeys ks v h]
  exact List.mem_map.mpr ⟨k, hk, rfl⟩

theorem eq_of_get?_fromKeys {ks : List κ} {v w : α} {k : κ} (h : ks.Nodup)
    (hw : (fromKeys ks v).get? k = some w) : w = v := by
  have hk : k ∈ (fromKeys ks v).keys := ((fromKeys ks v).mem_keys_iff k).mpr ⟨w, hw⟩
  rw [keys_fromKeys ks v h] at hk
  rw [get?_fromKeys ks v h k hk] at hw
  exact (Option.some.inj hw).symm

end FromKeys

/-- Two dictionaries that hold the same value under every key, in any order. -/
def SameItems (d e : Dict κ α) : Prop := ∀ k, d.get? k = e.get? k

theorem SameItems.refl (d : Dict κ α) : d.SameItems d := fun _ => rfl

end Dict

end Ordered
