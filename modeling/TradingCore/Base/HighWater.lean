import Mathlib.Data.List.Induction

/-!
# High-water marks

A meter is read again and again, and each reading is entered with what it adds to the
highest reading so far. Whatever the order of the readings, and however often one is taken
again, the entries sum up to the highest reading.
-/

namespace Base.HighWater

open List

def top (marks : List Int) : Int := marks.foldl max 0

@[simp] theorem top_nil : top [] = 0 := rfl

theorem top_append_singleton (marks : List Int) (mark : Int) :
    top (marks ++ [mark]) = max (top marks) mark := by
  unfold top
  rw [foldl_append]
  rfl

theorem top_nonneg (marks : List Int) : 0 ≤ top marks := by
  induction marks using reverseRecOn with
  | nil => exact Int.le_refl 0
  | append_singleton marks mark ih =>
    rw [top_append_singleton]
    omega

theorem top_append (marks more : List Int) : top (marks ++ more) = max (top marks) (top more) := by
  induction more using reverseRecOn with
  | nil =>
    have := top_nonneg marks
    rw [append_nil, top_nil]
    omega
  | append_singleton more mark ih =>
    rw [← append_assoc, top_append_singleton, top_append_singleton, ih]
    omega

variable {marks : List Int}

theorem le_top {mark : Int} (h : mark ∈ marks) : mark ≤ top marks := by
  induction marks using reverseRecOn with
  | nil => exact absurd h not_mem_nil
  | append_singleton marks last ih =>
    rw [top_append_singleton]
    rcases mem_append.mp h with hin | hlast
    · have := ih hin
      omega
    · rw [mem_singleton] at hlast
      omega

theorem top_le {bound : Int} (hzero : 0 ≤ bound) (h : ∀ mark ∈ marks, mark ≤ bound) :
    top marks ≤ bound := by
  induction marks using reverseRecOn with
  | nil => exact hzero
  | append_singleton marks last ih =>
    have hlast := h last (mem_append_right _ mem_cons_self)
    have hrest := ih fun mark hmark => h mark (mem_append_left _ hmark)
    rw [top_append_singleton]
    omega

theorem top_le_top {more : List Int} (h : ∀ mark ∈ marks, mark ∈ more) : top marks ≤ top more :=
  top_le (top_nonneg more) fun mark hmark => le_top (h mark hmark)

def rise (marks : List Int) (mark : Int) : Int := max 0 (mark - top marks)

theorem add_rise {total : Int} (h : total = top marks) (mark : Int) :
    total + rise marks mark = top (marks ++ [mark]) := by
  rw [top_append_singleton, rise, h]
  omega

end Base.HighWater
