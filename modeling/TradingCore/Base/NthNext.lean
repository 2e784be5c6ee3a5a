import Mathlib.Data.Nat.Nth

/-!
# Neighbours on a grid

A grid is a set of numbers, given by a predicate. `Nat.count` numbers its members and `Nat.nth`
finds them by their numbers, so the `n`-th one after a member is the one whose number is greater by
`n`, and the `n`-th one before it the one whose number is less by `n`.

* `nthNext_eq_iterate` — it is reached by `n` steps to the next one;
* `iterate_nthPrevious` — and these steps lead back from the `n`-th one before.
-/

namespace Base

variable (grid : ℕ → Prop) [DecidablePred grid]

/-- The `n`-th member of a grid after `g`. -/
noncomputable def nthNext (g n : ℕ) : ℕ := Nat.nth grid (Nat.count grid g + n)

/-- How many members of a grid are before `g`. -/
def countBefore (g : ℕ) : ℕ := Nat.count grid g

/-- The `n`-th member of a grid before `g`, where it has as many. -/
noncomputable def nthPrevious (g n : ℕ) : ℕ := Nat.nth grid (Nat.count grid g - n)

/-- The function steps from a member to the next one. -/
structure StepsTo (next : ℕ → ℕ) : Prop where
  mem : ∀ g, grid g → grid (next g)
  lt : ∀ g, grid g → g < next g
  none : ∀ g, grid g → ∀ x, g < x → x < next g → ¬ grid x

variable {grid} {next : ℕ → ℕ} {g h n : ℕ}

section

variable (hnext : StepsTo grid next)
include hnext

theorem StepsTo.count_next (hg : grid g) : Nat.count grid (next g) = Nat.count grid g + 1 := by
  have hlt := hnext.lt g hg
  have hskip : ∀ k, g + 1 + k ≤ next g →
      Nat.count grid (g + 1 + k) = Nat.count grid g + 1 := by
    intro k
    induction k with
    | zero =>
      intro _
      rw [Nat.add_zero, Nat.count_succ, if_pos hg]
    | succ k ih =>
      intro hle
      rw [← Nat.add_assoc, Nat.count_succ, ih (by omega),
        if_neg (hnext.none g hg _ (by omega) (by omega)), Nat.add_zero]
  have := hskip (next g - (g + 1)) (by omega)
  rwa [show g + 1 + (next g - (g + 1)) = next g by omega] at this

theorem StepsTo.iterate (hg : grid g) (n : ℕ) :
    grid (next^[n] g) ∧ Nat.count grid (next^[n] g) = Nat.count grid g + n := by
  induction n with
  | zero => exact ⟨hg, rfl⟩
  | succ n ih =>
    rw [Function.iterate_succ_apply']
    exact ⟨hnext.mem _ ih.1, by rw [hnext.count_next ih.1, ih.2, Nat.add_assoc]⟩

/-- Steps to the next one lead to the `n`-th one after. -/
theorem nthNext_eq_iterate (hg : grid g) (n : ℕ) : nthNext grid g n = next^[n] g := by
  obtain ⟨hmem, hcount⟩ := hnext.iterate hg n
  unfold nthNext
  rw [← hcount, Nat.nth_count hmem]

theorem StepsTo.infinite (hg : grid g) : (Set.ofPred grid).Infinite := by
  refine Set.infinite_of_not_bddAbove ?_
  rintro ⟨bound, hbound⟩
  have hgrows : ∀ n, n ≤ next^[n] g := by
    intro n
    induction n with
    | zero => exact Nat.zero_le _
    | succ n ih =>
      rw [Function.iterate_succ_apply']
      have := hnext.lt _ (hnext.iterate hg n).1
      omega
  have hle : next^[bound + 1] g ≤ bound := hbound (hnext.iterate hg (bound + 1)).1
  have := hgrows (bound + 1)
  omega

/-- The `n`-th one before is a member, and its number is less by `n`. -/
theorem StepsTo.nthPrevious_spec (hg : grid g) (hn : n ≤ countBefore grid g) :
    grid (nthPrevious grid g n) ∧ Nat.count grid (nthPrevious grid g n) + n = Nat.count grid g := by
  have hinfinite := hnext.infinite hg
  unfold countBefore at hn
  refine ⟨Nat.nth_mem_of_infinite hinfinite _, ?_⟩
  unfold nthPrevious
  rw [Nat.count_nth_of_infinite hinfinite]
  omega

theorem iterate_nthPrevious (hg : grid g) (hn : n ≤ countBefore grid g) :
    next^[n] (nthPrevious grid g n) = g := by
  obtain ⟨hmem, hcount⟩ := hnext.nthPrevious_spec hg hn
  rw [← nthNext_eq_iterate hnext hmem]
  unfold nthNext
  rw [hcount, Nat.nth_count hg]

theorem next_nthPrevious_succ (hg : grid g) (hn : n + 1 ≤ countBefore grid g) :
    next (nthPrevious grid g (n + 1)) = nthPrevious grid g n := by
  obtain ⟨hmem, hcount⟩ := hnext.nthPrevious_spec hg hn
  obtain ⟨hmem', hcount'⟩ := hnext.nthPrevious_spec hg (show n ≤ countBefore grid g by omega)
  refine Nat.count_injective (hnext.mem _ hmem) hmem' ?_
  rw [hnext.count_next hmem]
  omega

end

theorem nthPrevious_zero (hg : grid g) : nthPrevious grid g 0 = g := by
  unfold nthPrevious
  rw [Nat.sub_zero, Nat.nth_count hg]

/-- From the `n`-th one after, the member is the `n`-th one before. -/
theorem nthPrevious_nthNext (hnext : StepsTo grid next) (hg : grid g) (n : ℕ) :
    n ≤ countBefore grid (nthNext grid g n) ∧ nthPrevious grid (nthNext grid g n) n = g := by
  obtain ⟨-, hcount⟩ := hnext.iterate hg n
  rw [nthNext_eq_iterate hnext hg]
  unfold countBefore nthPrevious
  rw [hcount, Nat.add_sub_cancel, Nat.nth_count hg]
  exact ⟨Nat.le_add_left .., rfl⟩

end Base
