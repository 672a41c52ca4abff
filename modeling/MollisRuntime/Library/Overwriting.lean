import Mathlib.Data.List.Basic
import Mathlib.Logic.Function.Basic

/-!
Actions that overwrite. An action sets parts of the state to values of its own
and leaves the rest alone, so doing it earlier as well makes no difference: what
it set is set again, or was overwritten by others in between. A list of such
actions can be applied to a state that has seen any of them before.
-/
namespace Overwriting

variable {σ τ α β κ : Type*}

/-- Repeating an action changes nothing, and states that an action makes equal
stay so when another action comes first. -/
structure Overwrites (step : σ → α → σ) : Prop where
  idem : ∀ s a, step (step s a) a = step s a
  congr : ∀ {s s' : σ} {a : α}, step s a = step s' a →
    ∀ b, step (step s b) a = step (step s' b) a

section Replay

variable {step : σ → α → σ}

theorem Overwrites.congr_foldl (h : Overwrites step) (actions : List α) {s s' : σ} {a : α}
    (hsame : step s a = step s' a) :
    step (actions.foldl step s) a = step (actions.foldl step s') a := by
  induction actions generalizing s s' with
  | nil => exact hsame
  | cons b rest ih => exact ih (h.congr hsame b)

/-- An action is absorbed by a list in which it occurs. -/
theorem Overwrites.foldl_step (h : Overwrites step) {actions : List α} {a : α}
    (ha : a ∈ actions) (s : σ) :
    actions.foldl step (step s a) = actions.foldl step s := by
  obtain ⟨before, after, rfl⟩ := List.append_of_mem ha
  rw [List.foldl_append, List.foldl_append, List.foldl_cons, List.foldl_cons]
  have hsame := h.congr_foldl before (h.idem s a)
  rw [hsame]

theorem Overwrites.foldl_absorb (h : Overwrites step) {actions earlier : List α}
    (hmem : ∀ a ∈ earlier, a ∈ actions) (s : σ) :
    actions.foldl step (earlier.foldl step s) = actions.foldl step s := by
  induction earlier generalizing s with
  | nil => rfl
  | cons a rest ih =>
    have hrest := ih (fun b hb => hmem b (List.mem_cons_of_mem _ hb)) (step s a)
    exact hrest.trans (h.foldl_step (hmem a (by simp)) s)

/-- Applying the actions once more changes nothing. -/
theorem Overwrites.foldl_idem (h : Overwrites step) (actions : List α) (s : σ) :
    actions.foldl step (actions.foldl step s) = actions.foldl step s :=
  h.foldl_absorb (fun _ ha => ha) s

end Replay

section Constructions

/-- Setting the whole state. -/
theorem overwrites_const : Overwrites (fun (_ : σ) (v : σ) => v) where
  idem _ _ := rfl
  congr h _ := h

/-- Leaving the state alone. -/
theorem overwrites_skip : Overwrites (fun (s : σ) (_ : α) => s) where
  idem _ _ := rfl
  congr h _ := h

/-- Setting the whole state, or nothing. -/
theorem overwrites_getD : Overwrites (fun (s : σ) (o : Option σ) => o.getD s) where
  idem s o := by cases o <;> rfl
  congr hsame p := by
    cases p with
    | none => exact hsame
    | some v => rfl

/-- An action that may do nothing. -/
def maybe (step : σ → α → σ) (s : σ) : Option α → σ
  | none => s
  | some a => step s a

theorem Overwrites.maybe {step : σ → α → σ} (h : Overwrites step) :
    Overwrites (maybe step) where
  idem s a := by
    cases a with
    | none => rfl
    | some a => exact h.idem s a
  congr hsame b := by
    rename_i s s' a
    cases a with
    | none =>
      cases (show s = s' from hsame)
      rfl
    | some a =>
      cases b with
      | none => exact hsame
      | some b => exact h.congr hsame b

/-- An action given by something else. -/
theorem Overwrites.comap {step : σ → α → σ} (h : Overwrites step) (f : β → α) :
    Overwrites (fun s b => step s (f b)) where
  idem s b := h.idem s (f b)
  congr hsame b := h.congr hsame (f b)

theorem Overwrites.prod {step : σ → α → σ} {step' : τ → α → τ} (h : Overwrites step)
    (h' : Overwrites step') :
    Overwrites (fun (s : σ × τ) a => (step s.1 a, step' s.2 a)) where
  idem s a := by simp only [h.idem, h'.idem]
  congr hsame b := by
    obtain ⟨hfst, hsnd⟩ := Prod.mk.inj hsame
    simp only [h.congr hfst b, h'.congr hsnd b]

/-- A state that is determined by parts on which the actions overwrite. -/
theorem Overwrites.of_injective {step : σ → α → σ} {step' : τ → α → τ}
    (h : Overwrites step') (parts : σ → τ) (hinj : Function.Injective parts)
    (hparts : ∀ s a, parts (step s a) = step' (parts s) a) : Overwrites step where
  idem s a := by
    apply hinj
    rw [hparts, hparts, h.idem]
  congr hsame b := by
    rename_i s s' a
    apply hinj
    have hsame' : step' (parts s) a = step' (parts s') a := by
      rw [← hparts, ← hparts, hsame]
    rw [hparts, hparts, hparts, hparts, h.congr hsame' b]

/-- Acting on one entry of a map. -/
def keyed [DecidableEq κ] (step : σ → α → σ) (f : κ → σ) (ka : κ × α) : κ → σ :=
  Function.update f ka.1 (step (f ka.1) ka.2)

theorem Overwrites.keyed [DecidableEq κ] {step : σ → α → σ} (h : Overwrites step) :
    Overwrites (keyed (κ := κ) step) where
  idem f ka := by
    simp [Overwriting.keyed, h.idem]
  congr hsame kb := by
    rename_i f g ka
    obtain ⟨k, a⟩ := ka
    obtain ⟨j, b⟩ := kb
    have hkey : step (f k) a = step (g k) a := by
      simpa [Overwriting.keyed] using congrFun hsame k
    have hother : ∀ i, i ≠ k → f i = g i := by
      intro i hi
      simpa [Overwriting.keyed, hi] using congrFun hsame i
    funext i
    by_cases hi : i = k
    · subst hi
      by_cases hj : i = j
      · subst hj
        simpa [Overwriting.keyed] using h.congr hkey b
      · simpa [Overwriting.keyed, hj] using hkey
    · by_cases hj : i = j
      · subst hj
        simp [Overwriting.keyed, hi, hother i hi]
      · simp [Overwriting.keyed, hi, hj, hother i hi]

/-- Writing a new entry, or changing the one that is there. -/
inductive Change (σ α : Type*)
  | put (s : σ)
  | patch (a : α)

def change (step : σ → α → σ) (o : Option σ) : Change σ α → Option σ
  | .put s => some s
  | .patch a => o.map fun s => step s a

theorem Overwrites.change {step : σ → α → σ} (h : Overwrites step) :
    Overwrites (change step) where
  idem o c := by
    cases c with
    | put s => rfl
    | patch a => cases o <;> simp [Overwriting.change, h.idem]
  congr hsame d := by
    rename_i o o' c
    cases c with
    | put s => rfl
    | patch a =>
      cases d with
      | put s => rfl
      | patch b =>
        cases o with
        | none =>
          cases o' with
          | none => rfl
          | some s' => cases hsame
        | some s =>
          cases o' with
          | none => cases hsame
          | some s' =>
            have hstates : step s a = step s' a := Option.some.inj hsame
            exact congrArg some (h.congr hstates b)

end Constructions

section Entries

variable {step : σ → α → σ}

/-- One entry of a map sees the actions on it. -/
theorem foldl_keyed [DecidableEq κ] (actions : List (κ × α)) (f : κ → σ) (k : κ) :
    actions.foldl (keyed step) f k =
      (actions.filterMap fun ka => if ka.1 = k then some ka.2 else none).foldl step (f k) := by
  induction actions generalizing f with
  | nil => rfl
  | cons ka rest ih =>
    rw [List.foldl_cons, ih]
    by_cases hk : ka.1 = k
    · subst hk
      simp [keyed]
    · simp [keyed, hk, Function.update_of_ne (Ne.symm hk)]

/-- Writing a new entry forgets what was there. -/
theorem foldl_change_put {changes : List (Change σ α)} (h : ∃ s, Change.put s ∈ changes)
    (o o' : Option σ) :
    changes.foldl (change step) o = changes.foldl (change step) o' := by
  obtain ⟨s, hs⟩ := h
  obtain ⟨before, after, rfl⟩ := List.append_of_mem hs
  rw [List.foldl_append, List.foldl_append]
  rfl

/-- The actions on an entry that is there. -/
def patches (changes : List (Change σ α)) : List α :=
  changes.filterMap fun c => match c with
    | .put _ => none
    | .patch a => some a

theorem mem_patches {changes : List (Change σ α)} {a : α} :
    a ∈ patches changes ↔ Change.patch a ∈ changes := by
  unfold patches
  rw [List.mem_filterMap]
  constructor
  · rintro ⟨c, hc, hca⟩
    cases c with
    | put s => cases hca
    | patch b =>
      cases hca
      exact hc
  · intro ha
    exact ⟨_, ha, rfl⟩

theorem foldl_change_patches {changes : List (Change σ α)}
    (h : ∀ s, Change.put s ∉ changes) (o : Option σ) :
    changes.foldl (change step) o = o.map fun s => (patches changes).foldl step s := by
  induction changes generalizing o with
  | nil => simp [patches]
  | cons c rest ih =>
    cases c with
    | put s => exact absurd (List.mem_cons_self ..) (h s)
    | patch a =>
      rw [List.foldl_cons, ih fun s hs => h s (List.mem_cons_of_mem _ hs)]
      cases o <;> rfl

theorem isSome_foldl_change (changes : List (Change σ α)) (o : Option σ) :
    (changes.foldl (change step) o).isSome = true ↔
      o.isSome = true ∨ ∃ s, Change.put s ∈ changes := by
  by_cases hput : ∃ s, Change.put s ∈ changes
  · obtain ⟨s, hs⟩ := hput
    obtain ⟨before, after, rfl⟩ := List.append_of_mem hs
    have hkept : ∀ (cs : List (Change σ α)) (t : σ),
        (cs.foldl (change step) (some t)).isSome = true := by
      intro cs
      induction cs with
      | nil => intro t; rfl
      | cons c rest ih =>
        intro t
        cases c with
        | put u => exact ih u
        | patch a => exact ih (step t a)
    rw [List.foldl_append]
    exact ⟨fun _ => Or.inr ⟨s, hs⟩, fun _ => hkept after s⟩
  · rw [foldl_change_patches fun s hs => hput ⟨s, hs⟩]
    simp [hput]

end Entries

/-- Actions that come from other things, of which some say nothing. -/
theorem foldl_maybe (step : σ → α → σ) (f : β → Option α) (events : List β) (s : σ) :
    events.foldl (fun s e => maybe step s (f e)) s = (events.filterMap f).foldl step s := by
  rw [List.foldl_filterMap]
  refine List.foldl_ext _ _ _ fun s e _ => ?_
  cases f e <;> rfl

section Views

/-- A step that a view turns into another step, as long as an invariant holds. -/
theorem foldl_view {step : σ → α → σ} {step' : τ → α → τ} {view : σ → τ} {I : σ → Prop}
    (hinv : ∀ s a, I s → I (step s a))
    (hview : ∀ s a, I s → view (step s a) = step' (view s) a) (actions : List α) {s : σ}
    (hs : I s) :
    I (actions.foldl step s) ∧
      view (actions.foldl step s) = actions.foldl step' (view s) := by
  induction actions generalizing s with
  | nil => exact ⟨hs, rfl⟩
  | cons a rest ih =>
    obtain ⟨hI, hrest⟩ := ih (hinv s a hs)
    refine ⟨hI, ?_⟩
    rw [List.foldl_cons, List.foldl_cons, ← hview s a hs]
    exact hrest

end Views

end Overwriting
