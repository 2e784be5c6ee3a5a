import TradingCore.Base.Dict
import Mathlib.Data.List.Perm.Subperm

/-!
# Keys in slots

Keys are placed in slots, and each slot has a size. Where a key is placed is kept twice: under the
key, and in the list of the slot's members. `Mirrors` says that the two agree, and that no slot
lists a key twice.

* `Mirrors.join`, `Mirrors.leave` — a key may join a slot if it is placed there or nowhere, and
  leave the slot that it is placed in;
* `firstRoom_room` — the search for a slot with room finds one;
* `length_joinSlots_le` — a slot holds no more than any list that has all of its members.
-/

namespace Base

open List

variable {κ σ : Type} [DecidableEq κ] [DecidableEq σ]

def slotMembers (slots : Dict σ (List κ)) (slot : σ) : List κ := slots.getD slot []

def joinSlot (slots : Dict σ (List κ)) (slot : σ) (key : κ) : Dict σ (List κ) :=
  slots.upsert slot fun found =>
    let keys := found.getD []
    if key ∈ keys then keys else keys ++ [key]

/-- A key leaves the members of a slot; a slot without members goes. -/
def leaveSlot (slots : Dict σ (List κ)) (slot : σ) (key : κ) : Dict σ (List κ) :=
  match slots.get? slot with
  | none => slots
  | some keys =>
      let rest := keys.filter (· ≠ key)
      if rest = [] then slots.filter fun other _ => other ≠ slot else slots.set slot rest

def joinSlots (slots : Dict σ (List κ)) (entries : List (κ × σ)) : Dict σ (List κ) :=
  entries.foldl (fun slots entry => joinSlot slots entry.2 entry.1) slots

/-! ## What joining and leaving do to the members -/

theorem slotMembers_joinSlot_self (slots : Dict σ (List κ)) (slot : σ) (key : κ) :
    slotMembers (joinSlot slots slot key) slot =
      if key ∈ slotMembers slots slot then slotMembers slots slot
      else slotMembers slots slot ++ [key] := by
  unfold slotMembers joinSlot Dict.getD
  rw [Dict.get?_upsert_self]
  rfl

variable {slot : σ} {slots : Dict σ (List κ)} {entries : List (κ × σ)}

variable {other : σ}

theorem slotMembers_joinSlot_ne (slots : Dict σ (List κ)) (key : κ) (hother : other ≠ slot) :
    slotMembers (joinSlot slots slot key) other = slotMembers slots other := by
  unfold slotMembers joinSlot Dict.getD
  rw [Dict.get?_upsert_ne _ _ hother]

@[simp] theorem mem_slotMembers_joinSlot {key key' : κ} :
    key' ∈ slotMembers (joinSlot slots slot key) other ↔
      key' ∈ slotMembers slots other ∨ (key' = key ∧ other = slot) := by
  by_cases hother : other = slot
  · subst hother
    rw [slotMembers_joinSlot_self]
    by_cases hmem : key ∈ slotMembers slots other
    · rw [if_pos hmem]
      constructor
      · exact .inl
      · rintro (h | ⟨rfl, -⟩)
        · exact h
        · exact hmem
    · rw [if_neg hmem]
      simp
  · rw [slotMembers_joinSlot_ne slots key hother]
    simp [hother]

theorem nodup_slotMembers_joinSlot (h : ∀ other, (slotMembers slots other).Nodup) (key : κ)
    (other : σ) : (slotMembers (joinSlot slots slot key) other).Nodup := by
  by_cases hother : other = slot
  · subst hother
    rw [slotMembers_joinSlot_self]
    by_cases hmem : key ∈ slotMembers slots other
    · rw [if_pos hmem]
      exact h other
    · rw [if_neg hmem]
      refine nodup_append.mpr ⟨h other, nodup_singleton key, ?_⟩
      intro a ha b hb hab
      rw [mem_singleton.mp hb] at hab
      exact hmem (hab ▸ ha)
  · rw [slotMembers_joinSlot_ne slots key hother]
    exact h other

theorem slotMembers_leaveSlot_self (slots : Dict σ (List κ)) (slot : σ) (key : κ) :
    slotMembers (leaveSlot slots slot key) slot = (slotMembers slots slot).filter (· ≠ key) := by
  unfold slotMembers leaveSlot Dict.getD
  cases hslot : slots.get? slot with
  | none => simp [hslot]
  | some keys =>
    dsimp only
    by_cases hrest : keys.filter (· ≠ key) = []
    · rw [if_pos hrest, Dict.get?_filter, hslot]
      simpa using hrest.symm
    · rw [if_neg hrest, Dict.get?_set_self]
      rfl

theorem slotMembers_leaveSlot_ne (slots : Dict σ (List κ)) (key : κ) (hother : other ≠ slot) :
    slotMembers (leaveSlot slots slot key) other = slotMembers slots other := by
  unfold slotMembers leaveSlot Dict.getD
  cases hslot : slots.get? slot with
  | none => rfl
  | some keys =>
    dsimp only
    split
    · rw [Dict.get?_filter]
      cases slots.get? other with
      | none => rfl
      | some found => simp [Option.filter, hother]
    · rw [Dict.get?_set_ne _ _ hother]

@[simp] theorem mem_slotMembers_leaveSlot {key key' : κ} :
    key' ∈ slotMembers (leaveSlot slots slot key) other ↔
      key' ∈ slotMembers slots other ∧ ¬ (key' = key ∧ other = slot) := by
  by_cases hother : other = slot
  · subst hother
    rw [slotMembers_leaveSlot_self]
    simp
  · rw [slotMembers_leaveSlot_ne slots key hother]
    simp [hother]

theorem nodup_slotMembers_leaveSlot (h : ∀ other, (slotMembers slots other).Nodup) (key : κ)
    (other : σ) : (slotMembers (leaveSlot slots slot key) other).Nodup := by
  by_cases hother : other = slot
  · subst hother
    rw [slotMembers_leaveSlot_self]
    exact (h other).filter _
  · rw [slotMembers_leaveSlot_ne slots key hother]
    exact h other

theorem mem_slotMembers_joinSlots {key : κ} :
    key ∈ slotMembers (joinSlots slots entries) slot ↔
      key ∈ slotMembers slots slot ∨ (key, slot) ∈ entries := by
  induction entries generalizing slots with
  | nil => simp [joinSlots]
  | cons entry rest ih =>
    unfold joinSlots at ih ⊢
    rw [foldl_cons, ih, mem_slotMembers_joinSlot, mem_cons, Prod.ext_iff, or_assoc]

theorem nodup_slotMembers_joinSlots (h : ∀ slot, (slotMembers slots slot).Nodup) (slot : σ) :
    (slotMembers (joinSlots slots entries) slot).Nodup := by
  induction entries generalizing slots with
  | nil => exact h slot
  | cons entry rest ih => exact ih (nodup_slotMembers_joinSlot h entry.1)

theorem length_joinSlots_le (h : ∀ slot, (slotMembers slots slot).Nodup) {keys : List κ}
    (hkeys : ∀ key ∈ slotMembers (joinSlots slots entries) slot, key ∈ keys) :
    (slotMembers (joinSlots slots entries) slot).length ≤ keys.length :=
  (subperm_of_subset (nodup_slotMembers_joinSlots h slot) hkeys).length_le

/-! ## The two records of a place -/

/-- A key is placed in a slot exactly when it is among its members, and is listed once. -/
structure Mirrors (place : Dict κ σ) (slots : Dict σ (List κ)) : Prop where
  mem : ∀ key slot, place.get? key = some slot ↔ key ∈ slotMembers slots slot
  nodup : ∀ slot, (slotMembers slots slot).Nodup

namespace Mirrors

variable {place : Dict κ σ} {slots : Dict σ (List κ)}

theorem empty : Mirrors (.empty : Dict κ σ) .empty where
  mem := by simp [slotMembers, Dict.getD]
  nodup := by simp [slotMembers, Dict.getD]

variable {after : Dict κ σ}

theorem congr (h : Mirrors place slots) (hsame : ∀ key, after.get? key = place.get? key) :
    Mirrors after slots where
  mem := by
    intro key slot
    rw [hsame, h.mem]
  nodup := h.nodup

theorem join (h : Mirrors place slots) {key : κ} {slot : σ}
    (hfree : ∀ other, place.get? key = some other → other = slot)
    (hself : after.get? key = some slot)
    (hrest : ∀ other, other ≠ key → after.get? other = place.get? other) :
    Mirrors after (joinSlot slots slot key) where
  mem := by
    intro other slot'
    rw [mem_slotMembers_joinSlot, ← h.mem]
    by_cases hother : other = key
    · subst hother
      rw [hself, Option.some.injEq]
      constructor
      · rintro rfl
        exact .inr ⟨rfl, rfl⟩
      · rintro (hplaced | ⟨-, rfl⟩)
        · exact (hfree slot' hplaced).symm
        · rfl
    · rw [hrest other hother]
      simp [hother]
  nodup := nodup_slotMembers_joinSlot h.nodup key

theorem joinEach {slot : σ} {keys : List κ} : ∀ {place : Dict κ σ} {slots : Dict σ (List κ)},
    Mirrors place slots →
      (∀ key ∈ keys, ∀ other, place.get? key = some other → other = slot) →
        Mirrors (place.upsertAll keys fun _ _ => slot)
          (keys.foldl (fun slots key => joinSlot slots slot key) slots) := by
  induction keys with
  | nil => exact fun h _ => h
  | cons key rest ih =>
    intro place slots h hfree
    refine ih (h.join (hfree key mem_cons_self) (Dict.get?_upsert_self _ _ _)
      fun other hother => Dict.get?_upsert_ne _ _ hother) ?_
    intro other hother slot' hplaced
    by_cases hkey : other = key
    · subst hkey
      rw [Dict.get?_upsert_self, Option.some.injEq] at hplaced
      exact hplaced.symm
    · rw [Dict.get?_upsert_ne _ _ hkey] at hplaced
      exact hfree other (mem_cons_of_mem key hother) slot' hplaced

theorem leave (h : Mirrors place slots) {key : κ} {slot : σ} (hplaced : place.get? key = some slot)
    (hself : after.get? key = none)
    (hrest : ∀ other, other ≠ key → after.get? other = place.get? other) :
    Mirrors after (leaveSlot slots slot key) where
  mem := by
    intro other slot'
    rw [mem_slotMembers_leaveSlot, ← h.mem]
    by_cases hother : other = key
    · subst hother
      rw [hself, hplaced]
      simp [eq_comm]
    · rw [hrest other hother]
      simp [hother]
  nodup := nodup_slotMembers_leaveSlot h.nodup key

end Mirrors

/-! ## The search for room -/

/-- The first slot with room, among as many as have members and one more. -/
def firstRoom (base size : Nat) (slots : Dict Nat (List κ)) : Nat :=
  let candidates := (range (slots.entries.length + 1)).map (base + ·)
  (candidates.find? fun slot => ((slots.getD slot []).length < size)).getD
    (base + slots.entries.length)

omit [DecidableEq κ] in
theorem firstRoom_room {size : Nat} (hsize : 0 < size) (base : Nat) (slots : Dict Nat (List κ)) :
    (slotMembers slots (firstRoom base size slots)).length < size := by
  unfold firstRoom slotMembers
  dsimp only
  cases hfind : ((range (slots.entries.length + 1)).map (base + ·)).find?
      fun slot => decide ((slots.getD slot []).length < size) with
  | some slot =>
    rw [Option.getD_some]
    have hroom := find?_some hfind
    exact of_decide_eq_true hroom
  | none =>
    -- each of the candidates would have members
    have hfull := find?_eq_none.mp hfind
    have hsubset : (range (slots.entries.length + 1)).map (base + ·) ⊆ slots.keys := by
      intro slot hslot
      rw [Dict.mem_keys_iff]
      have hlong := hfull slot hslot
      cases hget : slots.get? slot with
      | some keys => exact ⟨keys, rfl⟩
      | none =>
        rw [Dict.getD, hget] at hlong
        simp [hsize] at hlong
    have hnodup : ((range (slots.entries.length + 1)).map (base + ·)).Nodup :=
      nodup_range.map fun a b hab => Nat.add_left_cancel hab
    have hlength := (subperm_of_subset hnodup hsubset).length_le
    unfold Dict.keys at hlength
    simp only [length_map, length_range] at hlength
    omega

end Base
