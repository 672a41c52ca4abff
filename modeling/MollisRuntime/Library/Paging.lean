import Mathlib.Data.List.Basic

/-!
Reading a growing list page by page. A page has at most n elements and starts
where the pages before it end; a shorter page is the last one. What has been read
is always an initial part of the list, and after the last page it has everything
that was there at the start.
-/
namespace Paging

variable {α : Type*}

structure Pager (α : Type*) where
  pages : List (List α) := []
  finished : Bool := false

namespace Pager

/-- Everything that was read. -/
def content (p : Pager α) : List α := p.pages.flatten

/-- Where the next page starts. -/
def offset (n : ℕ) (p : Pager α) : ℕ := p.pages.length * n

def push (n : ℕ) (page : List α) (p : Pager α) : Pager α where
  pages := p.pages ++ [page]
  finished := decide (page.length < n)

/-- The state of a reading that began with the list `first` and has come to `xs`. -/
structure Covers (n : ℕ) (first xs : List α) (p : Pager α) : Prop where
  grown : first <+: xs
  content : p.content <+: xs
  full : p.finished = false → p.content.length = p.offset n
  complete : p.finished = true → first <+: p.content

variable {n : ℕ} {first xs ys : List α} {p : Pager α}

theorem covers_empty (n : ℕ) (xs : List α) : Covers n xs xs {} :=
  ⟨List.prefix_rfl, List.nil_prefix, fun _ => (Nat.zero_mul n).symm, fun h => by cases h⟩

theorem Covers.grow (h : Covers n first xs p) (hgrown : xs <+: ys) : Covers n first ys p :=
  ⟨h.grown.trans hgrown, h.content.trans hgrown, h.full, h.complete⟩

/-- Before the last page the offset is within the list. -/
theorem Covers.offset_le (h : Covers n first xs p) (hreading : p.finished = false) :
    p.offset n ≤ xs.length := by
  rw [← h.full hreading]
  exact h.content.length_le

theorem content_push (page : List α) (p : Pager α) :
    (p.push n page).content = p.content ++ page := by
  simp [content, push]

theorem offset_push (page : List α) (p : Pager α) :
    (p.push n page).offset n = p.offset n + n := by
  simp [offset, push, Nat.succ_mul]

theorem Covers.push (h : Covers n first xs p) (hreading : p.finished = false) :
    Covers n first xs (p.push n ((xs.drop (p.offset n)).take n)) := by
  have hoffset := h.offset_le hreading
  have hcontent : p.content = xs.take (p.offset n) := by
    rw [← h.full hreading]
    exact List.prefix_iff_eq_take.mp h.content
  have hpushed : (p.push n ((xs.drop (p.offset n)).take n)).content = xs.take (p.offset n + n) := by
    rw [content_push, hcontent, List.take_add]
  have hlength : ((xs.drop (p.offset n)).take n).length = min n (xs.length - p.offset n) := by
    rw [List.length_take, List.length_drop]
  refine ⟨h.grown, ?_, ?_, ?_⟩
  · rw [hpushed]
    exact List.take_prefix _ _
  · intro hfull
    have hlong := of_decide_eq_false hfull
    rw [hpushed, offset_push, List.length_take]
    omega
  · intro hlast
    have hshort := of_decide_eq_true hlast
    rw [hpushed, List.take_of_length_le (by omega)]
    exact h.grown

/-- A reading that goes on has not read more full pages than the list has. -/
theorem Covers.length_pages_le (h : Covers n first xs p) (hn : 0 < n)
    (hreading : p.finished = false) : p.pages.length ≤ xs.length / n :=
  (Nat.le_div_iff_mul_le hn).mpr (h.offset_le hreading)

end Pager

end Paging
