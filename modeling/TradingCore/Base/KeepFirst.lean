import Mathlib.Data.List.Nodup

/-!
# Keeping the first item of each key

A pass over a list that keeps an item unless one with its key was seen before.

* `keepFirst_keys_nodup` — no key is kept twice;
* `exists_keepFirst` — every key of the list is kept;
* `filter_keepFirst` — an item that is the only one of its key, and the only one that meets a
  condition, is all that meets the condition in the result.
-/

namespace Base

open List

variable {α κ : Type} [DecidableEq κ] (key : α → κ)

/-- The items whose key is neither in `seen` nor that of an earlier item. -/
def keepFirst (seen : List κ) : List α → List α
  | [] => []
  | item :: rest =>
      if key item ∈ seen then keepFirst seen rest
      else item :: keepFirst (key item :: seen) rest

variable {key} {seen : List κ} {items : List α} {item : α}

theorem keepFirst_sublist : (keepFirst key seen items).Sublist items := by
  induction items generalizing seen with
  | nil => exact Sublist.slnil
  | cons head tail ih =>
    unfold keepFirst
    by_cases hseen : key head ∈ seen
    · rw [if_pos hseen]
      exact ih.cons head
    · rw [if_neg hseen]
      exact ih.cons_cons head

theorem key_notMem_of_mem_keepFirst (h : item ∈ keepFirst key seen items) : key item ∉ seen := by
  induction items generalizing seen with
  | nil => cases h
  | cons head tail ih =>
    unfold keepFirst at h
    by_cases hseen : key head ∈ seen
    · rw [if_pos hseen] at h
      exact ih h
    · rw [if_neg hseen] at h
      rcases mem_cons.mp h with rfl | htail
      · exact hseen
      · exact fun hmem => ih htail (mem_cons_of_mem _ hmem)

theorem keepFirst_keys_nodup (key : α → κ) (seen : List κ) (items : List α) :
    ((keepFirst key seen items).map key).Nodup := by
  induction items generalizing seen with
  | nil => exact nodup_nil
  | cons head tail ih =>
    unfold keepFirst
    by_cases hseen : key head ∈ seen
    · rw [if_pos hseen]
      exact ih seen
    · rw [if_neg hseen, map_cons, nodup_cons]
      refine ⟨?_, ih _⟩
      intro hmem
      obtain ⟨other, hother, hkey⟩ := mem_map.mp hmem
      exact key_notMem_of_mem_keepFirst hother (hkey ▸ mem_cons_self)

theorem exists_keepFirst (key : α → κ) (seen : List κ) (hitem : item ∈ items)
    (hseen : key item ∉ seen) : ∃ first ∈ keepFirst key seen items, key first = key item := by
  induction items generalizing seen with
  | nil => cases hitem
  | cons head tail ih =>
    unfold keepFirst
    by_cases hhead : key head ∈ seen
    · rw [if_pos hhead]
      rcases mem_cons.mp hitem with rfl | htail
      · exact absurd hhead hseen
      · exact ih seen htail hseen
    · rw [if_neg hhead]
      by_cases hkey : key item = key head
      · exact ⟨head, mem_cons_self, hkey.symm⟩
      · have htail : item ∈ tail := by
          rcases mem_cons.mp hitem with rfl | htail
          · exact absurd rfl hkey
          · exact htail
        obtain ⟨first, hfirst, heq⟩ := ih (key head :: seen) htail (by simp [hkey, hseen])
        exact ⟨first, mem_cons_of_mem _ hfirst, heq⟩

theorem mem_keepFirst_append {more : List α} (h : item ∈ keepFirst key seen items) :
    item ∈ keepFirst key seen (items ++ more) := by
  induction items generalizing seen with
  | nil => cases h
  | cons head tail ih =>
    rw [cons_append]
    unfold keepFirst at h ⊢
    by_cases hseen : key head ∈ seen
    · rw [if_pos hseen] at h ⊢
      exact ih h
    · rw [if_neg hseen] at h ⊢
      rcases mem_cons.mp h with rfl | htail
      · exact mem_cons_self
      · exact mem_cons_of_mem _ (ih htail)

theorem eq_of_mem_keepFirst {first second : α} (hfirst : first ∈ keepFirst key seen items)
    (hsecond : second ∈ keepFirst key seen items) (hkey : key first = key second) :
    first = second :=
  inj_on_of_nodup_map (keepFirst_keys_nodup key seen items) hfirst hsecond hkey

theorem mem_keepFirst (hitem : item ∈ items) (honly : ∀ other ∈ items, key other = key item →
    other = item) : item ∈ keepFirst key [] items := by
  obtain ⟨first, hfirst, hkey⟩ := exists_keepFirst key [] hitem (by simp)
  exact honly first (keepFirst_sublist.mem hfirst) hkey ▸ hfirst

theorem filter_keepFirst {p : α → Bool} (hkept : item ∈ keepFirst key [] items)
    (hp : p item = true) (honly : ∀ other ∈ items, p other = true → other = item) :
    (keepFirst key [] items).filter p = [item] := by
  have hnodup : ((keepFirst key [] items).filter p).Nodup :=
    (keepFirst_keys_nodup key [] items).of_map.filter _
  have hmem : item ∈ (keepFirst key [] items).filter p := mem_filter.mpr ⟨hkept, hp⟩
  have hall : ∀ other ∈ (keepFirst key [] items).filter p, other = item := by
    intro other hother
    obtain ⟨hother, hpother⟩ := mem_filter.mp hother
    exact honly other (keepFirst_sublist.mem hother) hpother
  cases hfilter : (keepFirst key [] items).filter p with
  | nil => rw [hfilter] at hmem; cases hmem
  | cons head tail =>
    rw [hfilter] at hnodup hall
    have hhead := hall head mem_cons_self
    cases tail with
    | nil => rw [hhead]
    | cons next rest =>
      have hnext := hall next (mem_cons_of_mem _ mem_cons_self)
      rw [hhead, hnext] at hnodup
      exact absurd mem_cons_self (nodup_cons.mp hnodup).1

end Base
