import Mathlib.Data.List.Sort

/-!
# Sorting is stable

Items that tie under the sorting relation stay in the order of the list. `pairwise_stable` says it
for any relation `s` that orders the list: a sorted list is in order under the sorting relation,
and where two items tie, under `s`. Sorting by a key is then sorting by the key and the place in
the list.
-/

namespace Base

open List

variable {α : Type} {r s : α → α → Prop} [DecidableRel r] [Std.Total r] [IsTrans α r]

/-- What `a` before `b` means after sorting: `a` is not after `b`, and at a tie it was first. -/
def Stable (r s : α → α → Prop) (a b : α) : Prop := r a b ∧ (r b a → s a b)

theorem stable_orderedInsert {a : α} {sorted : List α} (h : sorted.Pairwise (Stable r s))
    (hfirst : ∀ b ∈ sorted, s a b) : (sorted.orderedInsert r a).Pairwise (Stable r s) := by
  induction sorted with
  | nil => exact pairwise_singleton _ a
  | cons b rest ih =>
    obtain ⟨hb, hrest⟩ := pairwise_cons.mp h
    rw [orderedInsert_cons]
    by_cases hab : r a b
    · rw [if_pos hab]
      refine pairwise_cons.mpr ⟨fun c hc => ?_, h⟩
      refine ⟨?_, fun _ => hfirst c hc⟩
      rcases mem_cons.mp hc with rfl | hc
      · exact hab
      · exact IsTrans.trans a b c hab (hb c hc).1
    · rw [if_neg hab]
      have hrest' := ih hrest fun c hc => hfirst c (mem_cons_of_mem b hc)
      refine pairwise_cons.mpr ⟨fun c hc => ?_, hrest'⟩
      rcases (mem_orderedInsert r).mp hc with rfl | hc
      · exact ⟨(Std.Total.total b c).resolve_right hab, fun hcb => absurd hcb hab⟩
      · exact hb c hc

theorem pairwise_stable {items : List α} (h : items.Pairwise s) :
    (items.insertionSort r).Pairwise (Stable r s) := by
  induction items with
  | nil => exact Pairwise.nil
  | cons a rest ih =>
    obtain ⟨hfirst, hrest⟩ := pairwise_cons.mp h
    refine stable_orderedInsert (ih hrest) fun b hb => ?_
    exact hfirst b ((mem_insertionSort r).mp hb)

end Base
