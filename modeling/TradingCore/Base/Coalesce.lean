import Mathlib.Data.List.Infix

/-!
# Coalescing buffers and last writes

A coalescing buffer takes entries one by one; an entry with the key of one that
is already there takes its place, any other is appended.

* `replaceLast`, `absorb`, `coalesce` — the buffer;
* `introducers` — the entries that opened a place of their own;
* `coalesce_map` — whatever the key of an entry tells about it reads the same off
  the buffer and off the introducers.

A sequence of writes to a table is known by the last write to each address
(`writeAll_eq_iff`).
-/

namespace Base

open List

section Buffer

variable {ε κ τ : Type}

/-- The last entry that satisfies `p` replaced by `new`, if there is one. -/
def replaceLast (p : ε → Bool) (new : ε) : List ε → Option (List ε)
  | [] => none
  | e :: rest =>
      match replaceLast p new rest with
      | some rest' => some (e :: rest')
      | none => if p e then some (new :: rest) else none

variable {p : ε → Bool} {buffer entries : List ε}

theorem replaceLast_eq_none {new : ε} {l : List ε} :
    replaceLast p new l = none ↔ ∀ e ∈ l, p e = false := by
  induction l with
  | nil => simp [replaceLast]
  | cons e rest ih =>
    cases hr : replaceLast p new rest with
    | some rest' =>
      have hsome : ¬ ∀ f ∈ rest, p f = false := fun h => by simp [ih.mpr h] at hr
      simp only [replaceLast, hr]
      refine ⟨fun h => ?_, fun h => absurd (fun f hf => h f (mem_cons_of_mem e hf)) hsome⟩
      cases h
    | none =>
      have hrest := ih.mp hr
      cases hp : p e with
      | true => simp [replaceLast, hr, hp]
      | false => simpa [replaceLast, hr, hp] using hrest

/-- The replaced entry is one that satisfies `p`, and nothing else changes. -/
theorem replaceLast_eq_some {new : ε} {l l' : List ε} (h : replaceLast p new l = some l') :
    ∃ front old back, l = front ++ old :: back ∧ p old = true ∧ l' = front ++ new :: back := by
  induction l generalizing l' with
  | nil => simp [replaceLast] at h
  | cons e rest ih =>
    cases hr : replaceLast p new rest with
    | some rest' =>
      simp only [replaceLast, hr, Option.some.injEq] at h
      obtain ⟨front, old, back, hl, hp, hl'⟩ := ih hr
      exact ⟨e :: front, old, back, by rw [hl]; rfl, hp, by rw [← h, hl']; rfl⟩
    | none =>
      simp only [replaceLast, hr] at h
      cases hp : p e with
      | true =>
        simp only [hp, if_true, Option.some.injEq] at h
        exact ⟨[], e, rest, rfl, hp, h.symm⟩
      | false => simp [hp] at h

variable [DecidableEq κ] (key : ε → Option κ)

/-- An entry takes the place of the last one with its key, or is appended. -/
def absorb (buffer : List ε) (e : ε) : List ε :=
  match key e with
  | none => buffer ++ [e]
  | some k => (replaceLast (fun f => key f = some k) e buffer).getD (buffer ++ [e])

def coalesce (entries : List ε) : List ε := entries.foldl (absorb key) []

/-- Does `e` open a place of its own after `earlier`? -/
def Fresh (earlier : List ε) (e : ε) : Prop := key e = none ∨ ∀ f ∈ earlier, key f ≠ key e

instance (earlier : List ε) (e : ε) : Decidable (Fresh key earlier e) :=
  inferInstanceAs (Decidable (_ ∨ _))

/-- The entries that open a place of their own, after `earlier`. -/
def introducersFrom : List ε → List ε → List ε
  | _, [] => []
  | earlier, e :: rest =>
      if Fresh key earlier e then e :: introducersFrom (earlier ++ [e]) rest
      else introducersFrom (earlier ++ [e]) rest

def introducers (entries : List ε) : List ε := introducersFrom key [] entries

variable {key}

theorem absorb_fresh {e : ε} (h : Fresh key buffer e) : absorb key buffer e = buffer ++ [e] := by
  cases hk : key e with
  | none => simp [absorb, hk]
  | some k =>
    have hnone : replaceLast (fun f => key f = some k) e buffer = none := by
      refine replaceLast_eq_none.mpr fun f hf => ?_
      rcases h with h' | h'
      · rw [hk] at h'
        cases h'
      · have hne := h' f hf
        rw [hk] at hne
        simp [hne]
    simp [absorb, hk, hnone]

theorem absorb_stale {e : ε} (h : ¬ Fresh key buffer e) :
    ∃ front old back k, buffer = front ++ old :: back ∧ key old = some k ∧ key e = some k ∧
      absorb key buffer e = front ++ e :: back := by
  cases hk : key e with
  | none => exact absurd (.inl hk) h
  | some k =>
    cases hr : replaceLast (fun f => key f = some k) e buffer with
    | none =>
      refine absurd (.inr fun f hf hsame => ?_) h
      have hno := replaceLast_eq_none.mp hr f hf
      simp [hsame, hk] at hno
    | some buffer' =>
      obtain ⟨front, old, back, hl, hp, hl'⟩ := replaceLast_eq_some hr
      exact ⟨front, old, back, k, hl, by simpa using hp, rfl, by simp [absorb, hk, hr, hl']⟩

omit [DecidableEq κ] in
theorem fresh_congr {a b : List ε} {e : ε} (h : ∀ k, (some k ∈ a.map key) ↔ some k ∈ b.map key) :
    Fresh key a e ↔ Fresh key b e := by
  have hall : ∀ l : List ε, (∀ f ∈ l, key f ≠ key e) ↔ key e ∉ l.map key := by
    intro l
    simp only [mem_map, not_exists, not_and]
  unfold Fresh
  rw [hall, hall]
  cases hk : key e with
  | none => simp
  | some k => rw [h k]

variable {tell : ε → τ}

section

variable (htell : ∀ e f k, key e = some k → key f = some k → tell e = tell f)
include htell

theorem foldl_absorb_map {earlier : List ε}
    (hkeys : ∀ k, (some k ∈ buffer.map key) ↔ some k ∈ earlier.map key) :
    (entries.foldl (absorb key) buffer).map tell
      = buffer.map tell ++ (introducersFrom key earlier entries).map tell := by
  induction entries generalizing buffer earlier with
  | nil => simp [introducersFrom]
  | cons e rest ih =>
    by_cases hf : Fresh key buffer e
    · have hf' : Fresh key earlier e := (fresh_congr hkeys).mp hf
      have hkeys' : ∀ k, (some k ∈ (buffer ++ [e]).map key) ↔
          some k ∈ (earlier ++ [e]).map key := by
        intro k
        simp only [map_append, mem_append, hkeys k, map_cons, map_nil]
      rw [foldl_cons, absorb_fresh hf, ih hkeys', introducersFrom, if_pos hf']
      simp
    · have hf' : ¬ Fresh key earlier e := fun h => hf ((fresh_congr hkeys).mpr h)
      obtain ⟨front, old, back, k₀, hl, hold, he, habs⟩ := absorb_stale hf
      -- the new entry has the key of the old one, so the buffer keeps its keys and what they tell
      have hsame : tell e = tell old := htell e old k₀ he hold
      have hkeys' : ∀ k, (some k ∈ (front ++ e :: back).map key) ↔
          some k ∈ (earlier ++ [e]).map key := by
        intro k
        have hk := hkeys k
        simp only [hl, map_append, map_cons, map_nil, mem_append,
          mem_cons, hold, he, not_mem_nil, or_false] at hk ⊢
        constructor
        · intro h
          exact .inl (hk.mp h)
        · intro h
          rcases h with h' | h'
          · exact hk.mpr h'
          · exact .inr (.inl h')
      rw [foldl_cons, habs, ih hkeys', introducersFrom, if_neg hf', hl]
      simp [hsame]

theorem coalesce_map (entries : List ε) :
    (coalesce key entries).map tell = (introducers key entries).map tell :=
  foldl_absorb_map htell fun _ => Iff.rfl

end

theorem mem_of_mem_foldl_absorb {f : ε} (h : f ∈ entries.foldl (absorb key) buffer) :
    f ∈ buffer ∨ f ∈ entries := by
  induction entries generalizing buffer with
  | nil => exact .inl h
  | cons e rest ih =>
    have habsorb : ∀ g ∈ absorb key buffer e, g ∈ buffer ∨ g = e := by
      intro g hg
      by_cases hfresh : Fresh key buffer e
      · rw [absorb_fresh hfresh] at hg
        simpa using hg
      · obtain ⟨front, old, back, k, hl, -, -, habs⟩ := absorb_stale hfresh
        rw [habs] at hg
        rw [hl]
        simp only [mem_append, mem_cons] at hg ⊢
        rcases hg with hg | rfl | hg
        · exact .inl (.inl hg)
        · exact .inr rfl
        · exact .inl (.inr (.inr hg))
    rcases ih h with hbuffer | hrest
    · rcases habsorb f hbuffer with hbuffer | rfl
      · exact .inl hbuffer
      · exact .inr mem_cons_self
    · exact .inr (mem_cons_of_mem e hrest)

theorem mem_of_mem_coalesce {f : ε} (h : f ∈ coalesce key entries) : f ∈ entries :=
  (mem_of_mem_foldl_absorb h).resolve_left not_mem_nil

theorem filter_foldl_absorb (hbuffer : ∀ f ∈ buffer, ∀ e ∈ entries, p f = true ∨ p e = true →
      key f = none ∨ key f ≠ key e)
    (hentries : entries.Pairwise fun f e => p f = true ∨ p e = true →
      key f = none ∨ key f ≠ key e) :
    (entries.foldl (absorb key) buffer).filter p = buffer.filter p ++ entries.filter p := by
  induction entries generalizing buffer with
  | nil => simp
  | cons e rest ih =>
    obtain ⟨hhead, hrest⟩ := pairwise_cons.mp hentries
    have hnext : ∀ f ∈ absorb key buffer e, ∀ g ∈ rest, p f = true ∨ p g = true →
        key f = none ∨ key f ≠ key g := by
      intro f hf g hg
      rcases mem_of_mem_foldl_absorb (show f ∈ [e].foldl (absorb key) buffer from hf) with hf | hf
      · exact hbuffer f hf g (mem_cons_of_mem e hg)
      · rw [mem_singleton.mp hf]
        exact hhead g hg
    rw [foldl_cons, ih hnext hrest]
    by_cases hfresh : Fresh key buffer e
    · rw [absorb_fresh hfresh, filter_append, append_assoc]
      cases hp : p e with
      | true => simp [hp]
      | false => simp [hp]
    · -- neither the old entry nor the new one satisfies `p`
      obtain ⟨front, old, back, k, hl, hold, hnew, habs⟩ := absorb_stale hfresh
      have hboth : ¬ (p old = true ∨ p e = true) := by
        intro hp
        have hmem : old ∈ buffer := by
          rw [hl]
          exact mem_append_right front mem_cons_self
        rcases hbuffer old hmem e mem_cons_self hp with hnone | hne
        · rw [hold] at hnone
          cases hnone
        · exact hne (hold.trans hnew.symm)
      rw [habs, hl]
      simp only [filter_append, filter_cons_of_neg (fun h => hboth (.inl h)),
        filter_cons_of_neg (fun h => hboth (.inr h))]

theorem filter_coalesce
    (h : entries.Pairwise fun f e => p f = true ∨ p e = true → key f = none ∨ key f ≠ key e) :
    (coalesce key entries).filter p = entries.filter p :=
  filter_foldl_absorb (fun _ hmem => absurd hmem not_mem_nil) h

end Buffer

section Writes

variable {α β : Type} [DecidableEq α]

def writeAll (table : α → β) (writes : List (α × β)) : α → β :=
  writes.foldl (fun t w => Function.update t w.1 w.2) table

def lastWrite : List (α × β) → α → Option β
  | [], _ => none
  | w :: rest, a =>
      match lastWrite rest a with
      | some b => some b
      | none => if w.1 = a then some w.2 else none

theorem lastWrite_append (writes more : List (α × β)) (a : α) :
    lastWrite (writes ++ more) a = (lastWrite more a).or (lastWrite writes a) := by
  induction writes with
  | nil =>
    show lastWrite more a = (lastWrite more a).or none
    rw [Option.or_none]
  | cons w rest ih =>
    show (match lastWrite (rest ++ more) a with
      | some b => some b
      | none => if w.1 = a then some w.2 else none) = _
    rw [ih]
    cases hmore : lastWrite more a with
    | some b => rfl
    | none => rfl

theorem mem_of_lastWrite {writes : List (α × β)} {a : α} {b : β}
    (h : lastWrite writes a = some b) : (a, b) ∈ writes := by
  induction writes with
  | nil => cases h
  | cons w rest ih =>
    unfold lastWrite at h
    cases hrest : lastWrite rest a with
    | some b' =>
      rw [hrest] at h
      exact mem_cons_of_mem w (ih (hrest.trans h))
    | none =>
      rw [hrest] at h
      simp only at h
      split at h
      · next ha =>
          cases h
          rw [← ha]
          exact mem_cons_self
      · cases h

theorem writeAll_apply (table : α → β) (writes : List (α × β)) (a : α) :
    writeAll table writes a = (lastWrite writes a).getD (table a) := by
  induction writes generalizing table with
  | nil => rfl
  | cons w rest ih =>
    show writeAll (Function.update table w.1 w.2) rest a = _
    rw [ih]
    cases hr : lastWrite rest a with
    | some b => simp [lastWrite, hr]
    | none =>
      by_cases hw : w.1 = a
      · simp [lastWrite, hr, hw]
      · simp [lastWrite, hr, hw, Function.update_of_ne (Ne.symm hw)]

theorem writeAll_eq_iff [Nontrivial β] {writes writes' : List (α × β)} :
    (∀ table, writeAll table writes = writeAll table writes') ↔
      ∀ a, lastWrite writes a = lastWrite writes' a := by
  constructor
  · intro h a
    have hat : ∀ b : β, (lastWrite writes a).getD b = (lastWrite writes' a).getD b := by
      intro b
      have hb := congrFun (h fun _ => b) a
      rwa [writeAll_apply, writeAll_apply] at hb
    obtain ⟨b, b', hne⟩ := exists_pair_ne β
    -- an address that only one of them writes shows on one of two constant tables
    cases hw : lastWrite writes a with
    | none =>
      cases hw' : lastWrite writes' a with
      | none => rfl
      | some v =>
        have hb : b = v := by simpa [hw, hw'] using hat b
        have hb' : b' = v := by simpa [hw, hw'] using hat b'
        exact absurd (hb.trans hb'.symm) hne
    | some v =>
      cases hw' : lastWrite writes' a with
      | some v' =>
        have hv : v = v' := by simpa [hw, hw'] using hat b
        rw [hv]
      | none =>
        have hb : v = b := by simpa [hw, hw'] using hat b
        have hb' : v = b' := by simpa [hw, hw'] using hat b'
        exact absurd (hb.symm.trans hb') hne
  · intro h table
    funext a
    rw [writeAll_apply, writeAll_apply, h a]

end Writes

end Base
