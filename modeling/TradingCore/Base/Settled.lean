import Mathlib.Data.List.Basic

/-!
# Entries that have the last word

An entry of a list is settled if no entry behind it contradicts it. What happens in front of
it does not matter, nor what happens to the entries behind it as long as none of the new ones
contradicts it.

* `settled_concat`, `Settled.append`, `Settled.remove`, `Settled.replace` — the operations;
* `settled_filter_iff` — only the entries that could contradict it need to be looked at;
* `splitLast` — the last entry of a kind, with what stands in front of it and behind it.
-/

namespace Base

open List

variable {ε : Type} {contradicts : ε → Prop} {e : ε}

/-- `e` is in the list, and nothing behind it contradicts it. -/
def Settled (contradicts : ε → Prop) (e : ε) (l : List ε) : Prop :=
  ∃ front back, l = front ++ e :: back ∧ ∀ g ∈ back, ¬ contradicts g

theorem settled_concat (contradicts : ε → Prop) (e : ε) (l : List ε) :
    Settled contradicts e (l ++ [e]) :=
  ⟨l, [], rfl, fun _ hmem => absurd hmem not_mem_nil⟩

theorem Settled.append {l more : List ε} (h : Settled contradicts e l)
    (hmore : ∀ g ∈ more, ¬ contradicts g) : Settled contradicts e (l ++ more) := by
  obtain ⟨front, back, rfl, hback⟩ := h
  refine ⟨front, back ++ more, by simp, fun g hg => ?_⟩
  rcases mem_append.mp hg with hg | hg
  · exact hback g hg
  · exact hmore g hg

theorem Settled.splice (a old new b : List ε) (h : Settled contradicts e (a ++ old ++ b))
    (hold : e ∉ old) (hnew : ∀ g ∈ new, ¬ contradicts g) :
    Settled contradicts e (a ++ new ++ b) := by
  obtain ⟨front, back, hsplit, hback⟩ := h
  rw [append_assoc] at hsplit ⊢
  rcases append_eq_append_iff.mp hsplit with ⟨mid, rfl, hmid⟩ | ⟨mid, rfl, hmid⟩
  · -- `e` is behind `a`
    rcases append_eq_append_iff.mp hmid with ⟨rest, rfl, hrest⟩ | ⟨rest, rfl, hrest⟩
    · -- and behind `old` too
      rw [hrest]
      exact ⟨a ++ (new ++ rest), back, by simp, hback⟩
    · cases rest with
      | nil =>
        rw [nil_append] at hrest
        rw [← hrest]
        exact ⟨a ++ new, back, by simp, hback⟩
      | cons first rest =>
        injection hrest with hfirst _
        rw [← hfirst] at hold
        exact absurd (mem_append_right mid mem_cons_self) hold
  · -- `e` is in `a`
    cases mid with
    | nil =>
      rw [nil_append] at hmid
      cases old with
      | nil =>
        rw [nil_append] at hmid
        rw [← hmid]
        exact ⟨front ++ [] ++ new, back, by simp, hback⟩
      | cons first old =>
        injection hmid with hfirst _
        rw [← hfirst] at hold
        exact absurd mem_cons_self hold
    | cons first mid =>
      injection hmid with hfirst hrest
      subst hfirst
      refine ⟨front, mid ++ (new ++ b), by simp, fun g hg => ?_⟩
      rcases mem_append.mp hg with hg | hg
      · exact hback g (by rw [hrest]; exact mem_append_left _ hg)
      · rcases mem_append.mp hg with hg | hg
        · exact hnew g hg
        · exact hback g (by
            rw [hrest]
            exact mem_append_right _ (mem_append_right _ hg))

theorem Settled.remove {a b : List ε} {d : ε} (h : Settled contradicts e (a ++ d :: b))
    (hne : d ≠ e) : Settled contradicts e (a ++ b) := by
  have hsplice := Settled.splice a [d] [] b (by simpa using h)
    (fun hmem => hne (mem_singleton.mp hmem).symm) fun _ hmem => absurd hmem not_mem_nil
  simpa using hsplice

theorem Settled.replace {a b : List ε} {d d' : ε} (h : Settled contradicts e (a ++ d :: b))
    (hne : d ≠ e) (hnew : ¬ contradicts d') : Settled contradicts e (a ++ d' :: b) := by
  have hsplice := Settled.splice a [d] [d'] b (by simpa using h)
    (fun hmem => hne (mem_singleton.mp hmem).symm) fun g hmem => by
      rw [mem_singleton.mp hmem]
      exact hnew
  simpa using hsplice

theorem settled_filter_iff {kind : ε → Bool} (he : kind e = true)
    (hkind : ∀ g, contradicts g → kind g = true) {l : List ε} :
    Settled contradicts e (l.filter kind) ↔ Settled contradicts e l := by
  constructor
  · rintro ⟨front, back, hsplit, hback⟩
    obtain ⟨front', rest, rfl, -, hrest⟩ := filter_eq_append_iff.mp hsplit
    obtain ⟨mid, back', rfl, -, -, hback'⟩ := filter_eq_cons_iff.mp hrest
    refine ⟨front' ++ mid, back', by simp, fun g hg hcontra => ?_⟩
    refine hback g ?_ hcontra
    rw [← hback']
    exact mem_filter.mpr ⟨hg, hkind g hcontra⟩
  · rintro ⟨front, back, rfl, hback⟩
    refine ⟨front.filter kind, back.filter kind, ?_, fun g hg => ?_⟩
    · rw [filter_append, filter_cons_of_pos he]
    · exact hback g (mem_filter.mp hg).1

/-! ## The last entry of a kind -/

/-- The list around the last entry that satisfies `p`. -/
def splitLast (p : ε → Bool) : List ε → Option (List ε × ε × List ε)
  | [] => none
  | first :: rest =>
      match splitLast p rest with
      | some (front, found, back) => some (first :: front, found, back)
      | none => if p first then some ([], first, rest) else none

theorem splitLast_eq_none {p : ε → Bool} {l : List ε} (h : splitLast p l = none) :
    ∀ f ∈ l, p f = false := by
  induction l with
  | nil => exact fun _ hmem => absurd hmem not_mem_nil
  | cons first rest ih =>
    unfold splitLast at h
    cases hrest : splitLast p rest with
    | some found =>
      rw [hrest] at h
      cases h
    | none =>
      rw [hrest] at h
      simp only [ite_eq_right_iff, reduceCtorEq, imp_false, Bool.not_eq_true] at h
      intro f hmem
      rcases mem_cons.mp hmem with rfl | hmem
      · exact h
      · exact ih hrest f hmem

theorem splitLast_eq_some {p : ε → Bool} {l front back : List ε} {found : ε}
    (h : splitLast p l = some (front, found, back)) :
    l = front ++ found :: back ∧ p found = true ∧ ∀ f ∈ back, p f = false := by
  induction l generalizing front with
  | nil => cases h
  | cons first rest ih =>
    unfold splitLast at h
    cases hrest : splitLast p rest with
    | some inner =>
      obtain ⟨front', found', back'⟩ := inner
      rw [hrest] at h
      cases h
      obtain ⟨hsplit, hfound, hback⟩ := ih hrest
      exact ⟨by rw [hsplit]; rfl, hfound, hback⟩
    | none =>
      rw [hrest] at h
      simp only at h
      split at h
      · next hfirst =>
          cases h
          exact ⟨rfl, hfirst, splitLast_eq_none hrest⟩
      · cases h

end Base
