import Mathlib.Data.List.Lex
import Mathlib.Order.Lattice

/-!
Words joined by a separator that lies below all their letters. Joined words compare
as lists of words do, each word as its letters do; where the words at one position
all have one length, they compare as numbers of that many digits.
-/
namespace TextOrder

section Joined

variable {α : Type*}

/-- What follows the first of the joined words. -/
def follows (sep : α) (words : List (List α)) : List α := words.flatMap (sep :: ·)

theorem intercalate_cons (sep : α) (word : List α) (words : List (List α)) :
    [sep].intercalate (word :: words) = word ++ follows sep words := by
  induction words generalizing word with
  | nil => simp [follows]
  | cons next rest ih =>
    rw [List.intercalate_cons_cons, ih]
    simp [follows]

variable [LinearOrder α] {sep : α}

/-- The separator lies below all letters of the word. -/
def Above (sep : α) (word : List α) : Prop := ∀ a ∈ word, sep < a

/-- A word that ends first is the smaller one, whatever the separator leads to. -/
theorem append_lt_append {x y u v : List α} (hx : Above sep x) (hy : Above sep y)
    (hu : u = [] ∨ ∃ rest, u = sep :: rest) (hv : v = [] ∨ ∃ rest, v = sep :: rest) :
    x ++ u < y ++ v ↔ x < y ∨ x = y ∧ u < v := by
  induction x generalizing y with
  | nil =>
    cases y with
    | nil => simp
    | cons b y =>
      have hb : sep < b := hy b List.mem_cons_self
      rcases hu with rfl | ⟨rest, rfl⟩
      · simp
      · simp [List.cons_lt_cons_iff, hb]
  | cons a x ih =>
    have ha : sep < a := hx a List.mem_cons_self
    cases y with
    | nil =>
      rcases hv with rfl | ⟨rest, rfl⟩
      · simp
      · simp [List.cons_lt_cons_iff, ha.not_gt, ha.ne']
    | cons b y =>
      have hrest := ih (fun c hc => hx c (List.mem_cons_of_mem _ hc))
        (fun c hc => hy c (List.mem_cons_of_mem _ hc))
      simp only [List.cons_append, List.cons_lt_cons_iff, List.cons.injEq, hrest]
      tauto

theorem follows_lt_follows {xs ys : List (List α)} (hxs : ∀ x ∈ xs, Above sep x)
    (hys : ∀ y ∈ ys, Above sep y) : follows sep xs < follows sep ys ↔ xs < ys := by
  have hstart (words : List (List α)) :
      follows sep words = [] ∨ ∃ rest, follows sep words = sep :: rest := by
    cases words with
    | nil => exact .inl rfl
    | cons word words => exact .inr ⟨_, rfl⟩
  induction xs generalizing ys with
  | nil =>
    cases ys with
    | nil => simp [follows]
    | cons y ys => simp [follows]
  | cons x xs ih =>
    cases ys with
    | nil => simp [follows]
    | cons y ys =>
      have hrest : follows sep xs < follows sep ys ↔ xs < ys :=
        ih (fun z hz => hxs z (List.mem_cons_of_mem _ hz))
          fun z hz => hys z (List.mem_cons_of_mem _ hz)
      change sep :: (x ++ follows sep xs) < sep :: (y ++ follows sep ys) ↔ _
      rw [List.cons_lt_cons_iff, List.cons_lt_cons_iff,
        append_lt_append (hxs x List.mem_cons_self) (hys y List.mem_cons_self)
          (hstart xs) (hstart ys)]
      simp [hrest]

/-- Joined words compare as the lists of the words do. -/
theorem intercalate_lt_intercalate {xs ys : List (List α)} (hxs : ∀ x ∈ xs, Above sep x)
    (hys : ∀ y ∈ ys, Above sep y) (hx : xs ≠ []) (hy : ys ≠ []) :
    [sep].intercalate xs < [sep].intercalate ys ↔ xs < ys := by
  obtain ⟨x, xs, rfl⟩ := List.exists_cons_of_ne_nil hx
  obtain ⟨y, ys, rfl⟩ := List.exists_cons_of_ne_nil hy
  rw [intercalate_cons, intercalate_cons, ← follows_lt_follows hxs hys]
  simp [follows]

end Joined

section Padded

variable {α β : Type*}

/-- The words have the given widths, position by position. -/
def Padded (width : ℕ → ℕ) (words : List (List α)) : Prop :=
  ∀ i word, words[i]? = some word → word.length = width i

theorem Padded.tail {width : ℕ → ℕ} {word : List α} {words : List (List α)}
    (h : Padded width (word :: words)) : Padded (fun i => width (i + 1)) words :=
  fun i next hnext => h (i + 1) next hnext

variable [LinearOrder α] [LinearOrder β]

/-- A measure that compares words of one length as their letters do compares padded
lists of words as the words themselves do. -/
theorem map_lt_map {P : List α → Prop} {f : List α → β}
    (hf : ∀ x y, P x → P y → x.length = y.length → (f x < f y ↔ x < y)) {width : ℕ → ℕ}
    {xs ys : List (List α)} (hxs : ∀ x ∈ xs, P x) (hys : ∀ y ∈ ys, P y)
    (hwx : Padded width xs) (hwy : Padded width ys) : xs.map f < ys.map f ↔ xs < ys := by
  induction xs generalizing ys width with
  | nil => cases ys <;> simp
  | cons x xs ih =>
    cases ys with
    | nil => simp
    | cons y ys =>
      have hx := hxs x List.mem_cons_self
      have hy := hys y List.mem_cons_self
      have hlength : x.length = y.length := (hwx 0 x rfl).trans (hwy 0 y rfl).symm
      have hrest := ih (fun z hz => hxs z (List.mem_cons_of_mem _ hz))
        (fun z hz => hys z (List.mem_cons_of_mem _ hz)) hwx.tail hwy.tail
      have hlt := hf x y hx hy hlength
      have heq : f x = f y ↔ x = y := by
        constructor
        · intro h
          have hxy : ¬ x < y := fun hxy => (hlt.mpr hxy).ne h
          have hyx : ¬ y < x := fun hyx => ((hf y x hy hx hlength.symm).mpr hyx).ne' h
          exact le_antisymm (not_lt.mp hyx) (not_lt.mp hxy)
        · exact fun h => congrArg f h
      rw [List.map_cons, List.map_cons, List.cons_lt_cons_iff, List.cons_lt_cons_iff, hlt, heq,
        hrest]

end Padded

end TextOrder
