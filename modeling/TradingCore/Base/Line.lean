import Mathlib.Data.List.Nodup

/-!
# Waiting lines

A line of different members, served from the front. A member that joins goes to the end, also where
it waits already, and so loses the place it had.

* `place_join_self` — who joins is last;
* `place_join_le` — and nobody else falls behind by it;
* `mem_serve_iff` — who is served is who has a place among the first.

A member of place `p` is therefore served once `p + 1` are, however many join, unless it joins again
itself.
-/

namespace Base

/-- Members in the order in which they are served. -/
@[ext]
structure Line (κ : Type) where
  order : List κ
  nodup : order.Nodup

namespace Line

variable {κ : Type} [DecidableEq κ]

def join (line : Line κ) (k : κ) : Line κ where
  order := line.order.filter (· ≠ k) ++ [k]
  nodup := by
    refine List.nodup_append.mpr ⟨line.nodup.filter _, List.nodup_singleton k, ?_⟩
    intro a ha b hb hab
    rw [List.mem_singleton] at hb
    have := (List.mem_filter.mp ha).2
    simp [hab, hb] at this

/-- Serve up to `n` from the front. -/
def serve (line : Line κ) (n : ℕ) : Line κ :=
  ⟨line.order.drop n, (List.drop_sublist n line.order).nodup line.nodup⟩

def place (line : Line κ) (k : κ) : ℕ := line.order.idxOf k

variable {line : Line κ} {k other : κ} {n : ℕ}

theorem place_lt (h : k ∈ line.order) : line.place k < line.order.length :=
  List.idxOf_lt_length_of_mem h

theorem mem_join : other ∈ (line.join k).order ↔ other = k ∨ other ∈ line.order := by
  show other ∈ line.order.filter (· ≠ k) ++ [k] ↔ _
  by_cases hother : other = k <;> simp [hother]

theorem notMem_filter_ne (k : κ) (order : List κ) : k ∉ order.filter (· ≠ k) := by
  simp

theorem place_join_self (line : Line κ) (k : κ) :
    (line.join k).place k + 1 = (line.join k).order.length := by
  show (line.order.filter (· ≠ k) ++ [k]).idxOf k + 1 = (line.order.filter (· ≠ k) ++ [k]).length
  rw [List.idxOf_append_of_notMem (notMem_filter_ne k line.order), List.idxOf_cons_self,
    List.length_append, List.length_singleton, Nat.add_zero]

theorem length_join_of_mem (h : k ∈ line.order) :
    (line.join k).order.length = line.order.length := by
  show (line.order.filter (· ≠ k) ++ [k]).length = _
  have herase : line.order.filter (· ≠ k) = line.order.erase k := by
    rw [line.nodup.erase_eq_filter]
    exact List.filter_congr fun other _ => by simp [bne, beq_eq_decide]
  have hpos := List.length_pos_of_mem h
  rw [herase, List.length_append, List.length_erase_of_mem h, List.length_singleton]
  omega

theorem length_le_join (line : Line κ) (k : κ) :
    line.order.length ≤ (line.join k).order.length := by
  by_cases h : k ∈ line.order
  · exact Nat.le_of_eq (length_join_of_mem h).symm
  · have hall : line.order.filter (· ≠ k) = line.order := by
      refine List.filter_eq_self.mpr fun other hother => decide_eq_true ?_
      exact fun heq => h (heq ▸ hother)
    show _ ≤ (line.order.filter (· ≠ k) ++ [k]).length
    rw [hall, List.length_append]
    exact Nat.le_add_right ..

theorem idxOf_filter_le (p : κ → Bool) (order : List κ) (hp : p k = true) :
    (order.filter p).idxOf k ≤ order.idxOf k := by
  induction order with
  | nil => exact Nat.le_refl _
  | cons head rest ih =>
    by_cases hhead : head = k
    · have hkept : (k :: rest).filter p = k :: rest.filter p := List.filter_cons_of_pos hp
      exact Nat.le_of_eq (by rw [hhead, hkept, List.idxOf_cons_self, List.idxOf_cons_self])
    · rw [List.idxOf_cons_ne rest hhead]
      cases hkeep : p head with
      | true =>
        rw [List.filter_cons_of_pos hkeep, List.idxOf_cons_ne _ hhead]
        omega
      | false =>
        rw [List.filter_cons_of_neg (by simp [hkeep])]
        omega

theorem place_join_le (hother : other ≠ k) (h : other ∈ line.order) :
    (line.join k).place other ≤ line.place other := by
  show (line.order.filter (· ≠ k) ++ [k]).idxOf other ≤ line.order.idxOf other
  rw [List.idxOf_append_of_mem (List.mem_filter.mpr ⟨h, by simpa using hother⟩)]
  exact idxOf_filter_le _ line.order (by simpa using hother)

theorem mem_serve_iff : k ∈ (line.serve n).order ↔ k ∈ line.order ∧ n ≤ line.place k := by
  show k ∈ line.order.drop n ↔ _
  have hdisjoint : k ∈ line.order.take n → k ∉ line.order.drop n := fun htake hdrop =>
    List.disjoint_take_drop line.nodup (Nat.le_refl n) htake hdrop
  constructor
  · intro hdrop
    have hmem := List.mem_of_mem_drop hdrop
    refine ⟨hmem, ?_⟩
    by_contra hlt
    exact hdisjoint ((List.mem_take_iff_idxOf_lt hmem).mpr (by unfold place at hlt; omega)) hdrop
  · rintro ⟨hmem, hle⟩
    rw [← List.take_append_drop n line.order, List.mem_append] at hmem
    rcases hmem with htake | hdrop
    · have := (List.mem_take_iff_idxOf_lt (List.mem_of_mem_take htake)).mp htake
      unfold place at hle
      omega
    · exact hdrop

theorem mem_take_iff (line : Line κ) : k ∈ line.order.take n ↔ k ∈ line.order ∧ k ∉ (line.serve n).order := by
  constructor
  · intro htake
    have hmem : k ∈ line.order := List.mem_of_mem_take htake
    refine ⟨hmem, fun hserve => ?_⟩
    have hlt : line.place k < n := (List.mem_take_iff_idxOf_lt hmem).mp htake
    exact absurd hlt (Nat.not_lt.mpr (mem_serve_iff.mp hserve).2)
  · rintro ⟨hmem, hserve⟩
    refine (List.mem_take_iff_idxOf_lt hmem).mpr ?_
    by_contra hlt
    exact hserve (mem_serve_iff.mpr ⟨hmem, Nat.not_lt.mp hlt⟩)

theorem place_serve (h : k ∈ (line.serve n).order) :
    (line.serve n).place k + n = line.place k := by
  obtain ⟨hmem, hle⟩ := mem_serve_iff.mp h
  have hnot : k ∉ line.order.take n := by
    rw [List.mem_take_iff_idxOf_lt hmem]
    unfold place at hle
    omega
  have hlen : n ≤ line.order.length := Nat.le_of_lt (Nat.lt_of_le_of_lt hle (place_lt hmem))
  show (line.order.drop n).idxOf k + n = line.order.idxOf k
  conv_rhs => rw [← List.take_append_drop n line.order]
  rw [List.idxOf_append_of_notMem hnot, List.length_take]
  omega

end Line

end Base
