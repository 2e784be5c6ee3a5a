import Mathlib.Data.Finset.Erase
import Mathlib.Data.Finset.Insert
import TradingCore.Base.Dict

/-!
# The changes between two dictionaries

What takes one dictionary to the next: an entry that is new or has another value is put, an entry
whose key is gone is dropped. Someone who sees nothing but the changes, and keeps the keys that were
put and not dropped since, knows the keys of the dictionary (`mem_replay_changes`); and no change
tells of a key under which nothing has changed (`get?_ne_of_mem_changes`).
-/

namespace Base

open List

/-- A change of a dictionary, with the entry that is put or dropped. -/
inductive Change (κ υ : Type)
  | put (key : κ) (value : υ)
  | drop (key : κ) (value : υ)

namespace Change

variable {κ υ : Type} [DecidableEq κ]

def key : Change κ υ → κ
  | put key _ => key
  | drop key _ => key

def apply (keys : Finset κ) : Change κ υ → Finset κ
  | put key _ => insert key keys
  | drop key _ => keys.erase key

theorem mem_foldl_put (entries : List (κ × υ)) (keys : Finset κ) (key : κ) :
    key ∈ (entries.map fun e => put e.1 e.2).foldl apply keys ↔
      key ∈ keys ∨ key ∈ entries.map Prod.fst := by
  induction entries generalizing keys with
  | nil => simp
  | cons entry rest ih =>
    rw [map_cons, foldl_cons, ih, map_cons, mem_cons]
    show key ∈ insert entry.1 keys ∨ _ ↔ _
    rw [Finset.mem_insert]
    tauto

theorem mem_foldl_drop (entries : List (κ × υ)) (keys : Finset κ) (key : κ) :
    key ∈ (entries.map fun e => drop e.1 e.2).foldl apply keys ↔
      key ∈ keys ∧ key ∉ entries.map Prod.fst := by
  induction entries generalizing keys with
  | nil => simp
  | cons entry rest ih =>
    rw [map_cons, foldl_cons, ih, map_cons, mem_cons]
    show key ∈ keys.erase entry.1 ∧ _ ↔ _
    rw [Finset.mem_erase]
    tauto

end Change

namespace Dict

variable {κ υ : Type} [DecidableEq κ]

def dropsTo (old new : Dict κ υ) : List (κ × υ) :=
  old.entries.filter fun e => ¬ new.contains e.1

variable {old new : Dict κ υ}

theorem mem_dropsTo {entry : κ × υ} :
    entry ∈ old.dropsTo new ↔ old.get? entry.1 = some entry.2 ∧ new.get? entry.1 = none := by
  unfold dropsTo
  rw [mem_filter, decide_eq_true_iff, Bool.not_eq_true, contains_eq_false]
  exact and_congr_left' mem_entries_iff

variable [DecidableEq υ]

def putsTo (old new : Dict κ υ) : List (κ × υ) :=
  new.entries.filter fun e => old.get? e.1 ≠ some e.2

def changesTo (old new : Dict κ υ) : List (Change κ υ) :=
  (old.putsTo new).map (fun e => .put e.1 e.2) ++ (old.dropsTo new).map fun e => .drop e.1 e.2

theorem mem_putsTo {entry : κ × υ} :
    entry ∈ old.putsTo new ↔ new.get? entry.1 = some entry.2 ∧ old.get? entry.1 ≠ some entry.2 := by
  unfold putsTo
  rw [mem_filter, decide_eq_true_iff]
  exact and_congr_left' mem_entries_iff

theorem get?_ne_of_mem_changes {change : Change κ υ} (h : change ∈ old.changesTo new) :
    old.get? change.key ≠ new.get? change.key := by
  rcases mem_append.mp h with hput | hdrop
  · obtain ⟨entry, hentry, rfl⟩ := mem_map.mp hput
    obtain ⟨hnew, hold⟩ := mem_putsTo.mp hentry
    show old.get? entry.1 ≠ new.get? entry.1
    rw [hnew]
    exact hold
  · obtain ⟨entry, hentry, rfl⟩ := mem_map.mp hdrop
    obtain ⟨hold, hnew⟩ := mem_dropsTo.mp hentry
    show old.get? entry.1 ≠ new.get? entry.1
    rw [hold, hnew]
    exact Option.some_ne_none entry.2

theorem mem_replay_changes {keys : Finset κ} (h : ∀ key, key ∈ keys ↔ key ∈ old.keys) (key : κ) :
    key ∈ (old.changesTo new).foldl Change.apply keys ↔ key ∈ new.keys := by
  unfold changesTo
  rw [foldl_append, Change.mem_foldl_drop, Change.mem_foldl_put, h, mem_map, mem_map,
    mem_keys_iff, mem_keys_iff]
  constructor
  · rintro ⟨⟨value, hold⟩ | ⟨entry, hentry, rfl⟩, hkept⟩
    · -- an old key that was not dropped
      cases hnew : new.get? key with
      | some value' => exact ⟨value', rfl⟩
      | none => exact absurd ⟨(key, value), mem_dropsTo.mpr ⟨hold, hnew⟩, rfl⟩ hkept
    · exact ⟨entry.2, (mem_putsTo.mp hentry).1⟩
  · rintro ⟨value, hnew⟩
    refine ⟨?_, ?_⟩
    · by_cases hold : old.get? key = some value
      · exact .inl ⟨value, hold⟩
      · exact .inr ⟨(key, value), mem_putsTo.mpr ⟨hnew, hold⟩, rfl⟩
    · rintro ⟨entry, hentry, rfl⟩
      have := (mem_dropsTo.mp hentry).2
      rw [hnew] at this
      cases this

end Dict

end Base
