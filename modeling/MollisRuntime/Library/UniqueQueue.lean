import Mathlib.Data.List.Induction
import Mathlib.Data.List.Perm.Basic
import MollisRuntime.Library.Overwriting

/-!
Queues without duplicates. Pushing an element that is waiting leaves it where it
is, dropping takes it out wherever it stands. Operations that a queue has been
through already leave its members alone when they run once more, but they move
the elements they drop behind the others.
-/
namespace UniqueQueue

open Overwriting

variable {κ : Type*} [DecidableEq κ]

inductive Op (κ : Type*)
  | push (k : κ)
  | drop (k : κ)
  deriving DecidableEq

def step (q : List κ) : Op κ → List κ
  | .push k => if k ∈ q then q else q ++ [k]
  | .drop k => q.erase k

def run (ops : List (Op κ)) (q : List κ) : List κ := ops.foldl step q

theorem run_append (ops more : List (Op κ)) (q : List κ) :
    run (ops ++ more) q = run more (run ops q) := List.foldl_append

theorem run_concat (ops : List (Op κ)) (op : Op κ) (q : List κ) :
    run (ops ++ [op]) q = step (run ops q) op := List.foldl_concat ..

theorem nodup_step {q : List κ} (h : q.Nodup) (op : Op κ) : (step q op).Nodup := by
  cases op with
  | push k =>
    dsimp only [step]
    split
    · exact h
    · rename_i hk
      rw [List.nodup_append]
      refine ⟨h, by simp, ?_⟩
      intro a ha b hb
      rw [List.mem_singleton.mp hb]
      rintro rfl
      exact hk ha
  | drop k => exact h.erase k

theorem mem_step_push {q : List κ} {j k : κ} : j ∈ step q (.push k) ↔ j = k ∨ j ∈ q := by
  dsimp only [step]
  split
  · rename_i hk
    exact ⟨.inr, fun h => h.elim (fun hj => hj ▸ hk) id⟩
  · rw [List.mem_append, List.mem_singleton]
    exact or_comm

theorem mem_step_drop {q : List κ} (h : q.Nodup) {j k : κ} :
    j ∈ step q (.drop k) ↔ j ≠ k ∧ j ∈ q :=
  h.mem_erase_iff

section Counts

/-- What an operation says about being a member. -/
def Op.membership : Op κ → κ × Prop
  | .push k => (k, True)
  | .drop k => (k, False)

theorem count_step_other (q : List κ) {op : Op κ} {k : κ} (h : op.membership.1 ≠ k) :
    (step q op).count k = q.count k := by
  cases op with
  | push j =>
    dsimp only [step]
    split
    · rfl
    · have hjk : ¬ j = k := h
      rw [List.count_append, List.count_singleton, if_neg (by simpa using hjk), Nat.add_zero]
  | drop j => exact List.count_erase_of_ne (Ne.symm h)

/-- The number of occurrences of one element depends on nothing else. -/
theorem count_step_congr {q r : List κ} {k : κ} (h : q.count k = r.count k) (op : Op κ) :
    (step q op).count k = (step r op).count k := by
  by_cases hk : op.membership.1 = k
  · cases op with
    | push j =>
      obtain rfl : j = k := hk
      have hmem : j ∈ q ↔ j ∈ r := by
        rw [← List.count_pos_iff, ← List.count_pos_iff, h]
      dsimp only [step]
      by_cases hj : j ∈ q
      · rw [if_pos hj, if_pos (hmem.mp hj), h]
      · rw [if_neg hj, if_neg fun hr => hj (hmem.mpr hr), List.count_append, List.count_append, h]
    | drop j =>
      obtain rfl : j = k := hk
      dsimp only [step]
      rw [List.count_erase_self, List.count_erase_self, h]
  · rw [count_step_other q hk, count_step_other r hk, h]

end Counts

section Members

def members (q : List κ) (k : κ) : Prop := k ∈ q

def memberStep (f : κ → Prop) (op : Op κ) : κ → Prop :=
  keyed (fun _ p => p) f op.membership

theorem memberStep_overwrites : Overwrites (memberStep (κ := κ)) :=
  (overwrites_const.keyed (κ := κ)).comap Op.membership

theorem members_step {q : List κ} (h : q.Nodup) (op : Op κ) :
    members (step q op) = memberStep (members q) op := by
  funext j
  cases op with
  | push k =>
    by_cases hj : j = k
    · subst hj
      by_cases hk : j ∈ q <;> simp [members, step, memberStep, Op.membership, keyed, hk]
    · by_cases hk : k ∈ q <;> simp [members, step, memberStep, Op.membership, keyed, hj, hk]
  | drop k =>
    by_cases hj : j = k
    · subst hj
      simp [members, step, memberStep, Op.membership, keyed, h.not_mem_erase]
    · simp [members, step, memberStep, Op.membership, keyed, hj, List.mem_erase_of_ne hj]

theorem run_members {q : List κ} (h : q.Nodup) (ops : List (Op κ)) :
    (run ops q).Nodup ∧ members (run ops q) = ops.foldl memberStep (members q) :=
  foldl_view (fun _ op hq => nodup_step hq op) (fun _ op hq => members_step hq op) ops h

theorem nodup_run {q : List κ} (h : q.Nodup) (ops : List (Op κ)) : (run ops q).Nodup :=
  (run_members h ops).1

theorem mem_run_congr {q q' : List κ} (h : q.Nodup) (h' : q'.Nodup)
    (hsame : ∀ k, k ∈ q ↔ k ∈ q') (ops : List (Op κ)) (k : κ) :
    k ∈ run ops q ↔ k ∈ run ops q' := by
  have hstart : members q = members q' := funext fun k => propext (hsame k)
  have hq := (run_members h ops).2
  have hq' := (run_members h' ops).2
  rw [hstart, ← hq'] at hq
  exact iff_of_eq (congrFun hq k)

/-- Running the operations once more keeps the members. -/
theorem mem_run_run {q : List κ} (h : q.Nodup) (ops : List (Op κ)) (k : κ) :
    k ∈ run ops (run ops q) ↔ k ∈ run ops q := by
  have htwice := (run_members (nodup_run h ops) ops).2
  rw [(run_members h ops).2, memberStep_overwrites.foldl_idem,
    ← (run_members h ops).2] at htwice
  exact iff_of_eq (congrFun htwice k)

end Members

section Order

/-- Dropped by one of the operations. -/
def dropped (ops : List (Op κ)) (k : κ) : Bool := decide (Op.drop k ∈ ops)

def kept (ops : List (Op κ)) (k : κ) : Bool := !dropped ops k

@[simp] theorem dropped_concat_push (ops : List (Op κ)) (j k : κ) :
    dropped (ops ++ [.push k]) j = dropped ops j := by
  simp [dropped]

@[simp] theorem dropped_concat_drop (ops : List (Op κ)) (j k : κ) :
    dropped (ops ++ [.drop k]) j = (dropped ops j || decide (j = k)) := by
  simp [dropped]

/-- What is never dropped stays in front in its order, and what is behind it
depends on the members only. -/
theorem run_eq_append {q q' : List κ} (h : q.Nodup) (h' : q'.Nodup)
    (hsame : ∀ k, k ∈ q ↔ k ∈ q') (ops : List (Op κ)) :
    ∃ rest, run ops q = q.filter (kept ops) ++ rest ∧
      run ops q' = q'.filter (kept ops) ++ rest := by
  induction ops using List.reverseRecOn with
  | nil =>
    have hall : ∀ l : List κ, l.filter (kept []) = l := fun l =>
      List.filter_eq_self.mpr fun k _ => by simp [kept, dropped]
    exact ⟨[], by simp [run, hall], by simp [run, hall]⟩
  | append_singleton ops op ih =>
    obtain ⟨rest, hq, hq'⟩ := ih
    have hmem := mem_run_congr h h' hsame ops
    cases op with
    | push k =>
      have hkept : kept (ops ++ [.push k]) = kept ops := by
        funext j
        simp [kept]
      rw [run_concat, run_concat, hkept]
      by_cases hk : k ∈ run ops q
      · refine ⟨rest, ?_, ?_⟩
        · rw [step, if_pos hk, hq]
        · rw [step, if_pos ((hmem k).mp hk), hq']
      · refine ⟨rest ++ [k], ?_, ?_⟩
        · rw [step, if_neg hk, hq, List.append_assoc]
        · rw [step, if_neg (fun hk' => hk ((hmem k).mpr hk')), hq', List.append_assoc]
    | drop k =>
      have hkept : ∀ l : List κ, l.filter (kept (ops ++ [.drop k])) =
          (l.filter (kept ops)).filter (fun j => decide (j ≠ k)) := by
        intro l
        rw [List.filter_filter]
        refine List.filter_congr fun j _ => ?_
        simp [kept, Bool.and_comm]
      have hstep : ∀ l : List κ, l.Nodup → step l (.drop k) =
          l.filter (fun j => decide (j ≠ k)) := by
        intro l hl
        rw [step, List.Nodup.erase_eq_filter hl]
        refine List.filter_congr fun j _ => ?_
        by_cases hj : j = k <;> simp [hj]
      refine ⟨rest.filter (fun j => decide (j ≠ k)), ?_, ?_⟩
      · rw [run_concat, hstep _ (nodup_run h ops), hq, hkept, List.filter_append]
      · rw [run_concat, hstep _ (nodup_run h' ops), hq', hkept, List.filter_append]

/-- The order among the dropped elements is the operations' own. -/
theorem filter_dropped_congr {q q' : List κ} (h : q.Nodup) (h' : q'.Nodup)
    (ops : List (Op κ)) :
    (run ops q).filter (dropped ops) = (run ops q').filter (dropped ops) := by
  induction ops using List.reverseRecOn with
  | nil =>
    have hnone : ∀ l : List κ, l.filter (dropped []) = [] := fun l =>
      List.filter_eq_nil_iff.mpr fun k _ => by simp [dropped]
    rw [hnone, hnone]
  | append_singleton ops op ih =>
    have hmem : ∀ k, dropped ops k = true → (k ∈ run ops q ↔ k ∈ run ops q') := by
      intro k hk
      have hfilter : k ∈ (run ops q).filter (dropped ops) ↔
          k ∈ (run ops q').filter (dropped ops) := by rw [ih]
      simpa [List.mem_filter, hk] using hfilter
    cases op with
    | push k =>
      have hpush : ∀ l : List κ, (step l (.push k)).filter (dropped ops) =
          if dropped ops k = true ∧ k ∉ l then l.filter (dropped ops) ++ [k]
          else l.filter (dropped ops) := by
        intro l
        by_cases hk : k ∈ l
        · simp [step, hk]
        · by_cases hd : dropped ops k = true <;> simp [step, hk, hd]
      have hsame : dropped (ops ++ [.push k]) = dropped ops := by
        funext j
        simp
      rw [run_concat, run_concat, hsame, hpush, hpush, ih]
      by_cases hd : dropped ops k = true
      · simp [hd, hmem k hd]
      · simp [hd]
    | drop k =>
      have hdrop : ∀ l : List κ, l.Nodup →
          (step l (.drop k)).filter (dropped (ops ++ [.drop k])) =
            (l.filter (dropped ops)).erase k := by
        intro l hl
        rw [step, List.Nodup.erase_eq_filter hl, List.Nodup.erase_eq_filter (hl.filter _),
          List.filter_filter, List.filter_filter]
        refine List.filter_congr fun j _ => ?_
        by_cases hj : j = k <;> simp [hj, Bool.and_comm]
      rw [run_concat, run_concat, hdrop _ (nodup_run h ops), hdrop _ (nodup_run h' ops), ih]

/-- A second run moves the dropped elements behind the others. -/
theorem run_run {q : List κ} (h : q.Nodup) (ops : List (Op κ)) :
    run ops (run ops q) =
      (run ops q).filter (kept ops) ++ (run ops q).filter (dropped ops) := by
  have hnodup := nodup_run h ops
  obtain ⟨rest, hagain, _⟩ := run_eq_append hnodup hnodup (fun _ => Iff.rfl) ops
  have hrest : rest.filter (dropped ops) = rest := by
    apply List.filter_eq_self.mpr
    intro k hk
    by_contra hkept
    have hmem : k ∈ run ops q := by
      rw [← mem_run_run h ops k, hagain]
      exact List.mem_append_right _ hk
    have hfront : k ∈ (run ops q).filter (kept ops) := by
      simpa [List.mem_filter, kept, hmem] using hkept
    have hdisjoint := nodup_run hnodup ops
    rw [hagain, List.nodup_append] at hdisjoint
    exact hdisjoint.2.2 k hfront k hk rfl
  have hdropped : (run ops (run ops q)).filter (dropped ops) = rest := by
    rw [hagain, List.filter_append, hrest, List.filter_filter]
    have hnone : (run ops q).filter (fun k => dropped ops k && kept ops k) = [] := by
      simp [kept]
    rw [hnone, List.nil_append]
  rw [hagain, ← hdropped, filter_dropped_congr hnodup h ops]

/-- Moving elements behind the others changes nothing if they stand there. -/
theorem filter_append_eq_iff {α : Type*} (l : List α) (p : α → Bool) :
    l.filter p ++ l.filter (fun k => !p k) = l ↔
      l.Pairwise fun a b => p b = true → p a = true := by
  constructor
  · intro heq
    rw [← heq, List.pairwise_append]
    refine ⟨?_, ?_, ?_⟩
    · rw [List.pairwise_filter]
      exact List.pairwise_of_forall fun _ _ ha _ _ => ha
    · rw [List.pairwise_filter]
      refine List.pairwise_of_forall fun _ b _ hb hfront => ?_
      simp [hfront] at hb
    · intro a ha b _ _
      exact (List.mem_filter.mp ha).2
  · intro hpairwise
    induction l with
    | nil => rfl
    | cons k rest ih =>
      obtain ⟨hhead, htail⟩ := List.pairwise_cons.mp hpairwise
      by_cases hk : p k = true
      · simpa [hk] using ih htail
      · have hnone : rest.filter p = [] := by
          apply List.filter_eq_nil_iff.mpr
          intro j hj hfront
          exact hk (hhead j hj hfront)
        have hrest := ih htail
        rw [hnone, List.nil_append] at hrest
        simp [hk, hnone, hrest]

/-- Operations that a queue has been through make no difference before others
exactly if these drop one of any two elements whose order was reversed. -/
theorem run_run_eq_iff {q : List κ} (h : q.Nodup) (ops later : List (Op κ)) :
    run later (run ops (run ops q)) = run later (run ops q) ↔
      (run ops q).Pairwise fun a b => dropped ops a = true → dropped ops b = false →
        dropped later a = true ∨ dropped later b = true := by
  have hnodup := nodup_run h ops
  obtain ⟨rest, hagain, honce⟩ := run_eq_append (nodup_run hnodup ops) hnodup
    (mem_run_run h ops) later
  rw [hagain, honce, List.append_cancel_right_eq, run_run h ops, List.filter_append]
  have hcomm : ∀ p : κ → Bool, ((run ops q).filter p).filter (kept later) =
      ((run ops q).filter (kept later)).filter p := by
    intro p
    rw [List.filter_filter, List.filter_filter]
    exact List.filter_congr fun k _ => Bool.and_comm _ _
  have hnot : dropped ops = fun k => !kept ops k := by
    funext k
    simp [kept]
  rw [hcomm, hcomm, hnot, filter_append_eq_iff, List.pairwise_filter]
  refine List.Pairwise.iff fun a b => ?_
  simp only [kept]
  cases dropped ops a <;> cases dropped ops b <;> cases dropped later a <;>
    cases dropped later b <;> simp

end Order

end UniqueQueue
