import Mathlib.Algebra.Ring.Int.Defs
import Mathlib.Data.List.Nodup
import Mathlib.Data.List.Induction

/-!
# Insertion-ordered dictionaries

A finite map that remembers the order in which its keys were first written:
rewriting a present key keeps its place, a new key goes to the end, and a filter
closes the gaps it makes. Uniqueness of the keys is a field, so every lookup has one
possible answer and `get?` determines membership (`mem_entries_iff`).

The file gives the map its update operations and, for each of them, the value
found under every key afterwards; later developments reason through `get?`
only.
-/

namespace Base

open List

/-- A dictionary from `κ` to `υ`: its entries in insertion order. -/
structure Dict (κ υ : Type) where
  entries : List (κ × υ)
  nodup : (entries.map Prod.fst).Nodup
deriving DecidableEq

namespace Dict

variable {κ υ ω : Type}

def empty : Dict κ υ := ⟨[], nodup_nil⟩

def keys (d : Dict κ υ) : List κ := d.entries.map Prod.fst

def values (d : Dict κ υ) : List υ := d.entries.map Prod.snd

def mapVals (f : κ → υ → ω) (d : Dict κ υ) : Dict κ ω where
  entries := d.entries.map fun e => (e.1, f e.1 e.2)
  nodup := by
    rw [map_map]
    exact d.nodup

/-- Keep the entries that satisfy `p`. -/
def filter (p : κ → υ → Bool) (d : Dict κ υ) : Dict κ υ where
  entries := d.entries.filter fun e => p e.1 e.2
  nodup := (filter_sublist.map Prod.fst).nodup d.nodup

variable [DecidableEq κ]

/-- First value filed under `k` in a list of entries. -/
def find (k : κ) : List (κ × υ) → Option υ
  | [] => none
  | e :: rest => if e.1 = k then some e.2 else find k rest

/-- The value under `k`. -/
def get? (d : Dict κ υ) (k : κ) : Option υ := find k d.entries

/-- The value under `k`, or a default. -/
def getD (d : Dict κ υ) (k : κ) (default : υ) : υ := (d.get? k).getD default

/-- Is `k` a key? -/
def contains (d : Dict κ υ) (k : κ) : Bool := (d.get? k).isSome

/-- Replace the value under `k` in place, or append a new entry. -/
def place (k : κ) (v : υ) : List (κ × υ) → List (κ × υ)
  | [] => [(k, v)]
  | e :: rest => if e.1 = k then (k, v) :: rest else e :: place k v rest

variable {k : κ} {v : υ} {l : List (κ × υ)} {d : Dict κ υ} {p : υ → Bool} {f : κ → Option υ → υ}

theorem place_keys_of_mem (h : k ∈ l.map Prod.fst) :
    (place k v l).map Prod.fst = l.map Prod.fst := by
  induction l with
  | nil => simp at h
  | cons e rest ih =>
    by_cases he : e.1 = k
    · simp [place, he]
    · have hk : k ∈ rest.map Prod.fst := by
        rcases mem_cons.mp h with h' | h'
        · exact absurd h'.symm he
        · exact h'
      simp [place, he, ih hk]

theorem place_keys_of_notMem (h : k ∉ l.map Prod.fst) :
    (place k v l).map Prod.fst = l.map Prod.fst ++ [k] := by
  induction l with
  | nil => rfl
  | cons e rest ih =>
    rw [map_cons, mem_cons, not_or] at h
    have he : ¬ e.1 = k := fun heq => h.1 heq.symm
    simp [place, he, ih h.2]

theorem place_nodup (h : (l.map Prod.fst).Nodup) : ((place k v l).map Prod.fst).Nodup := by
  by_cases hk : k ∈ l.map Prod.fst
  · rw [place_keys_of_mem hk]
    exact h
  · rw [place_keys_of_notMem hk]
    refine nodup_append.mpr ⟨h, nodup_singleton k, ?_⟩
    intro a ha b hb hab
    rw [mem_singleton] at hb
    exact hk (hb ▸ hab ▸ ha)

/-- Write `v` under `k`. -/
def set (d : Dict κ υ) (k : κ) (v : υ) : Dict κ υ :=
  ⟨place k v d.entries, place_nodup d.nodup⟩

def ofList (l : List (κ × υ)) : Dict κ υ :=
  l.foldl (fun d e => d.set e.1 e.2) empty

/-! ## Lookup and membership -/

@[simp] theorem get?_empty (k : κ) : (empty : Dict κ υ).get? k = none := rfl

theorem find_eq_none : find k l = none ↔ k ∉ l.map Prod.fst := by
  induction l with
  | nil => simp [find]
  | cons e rest ih =>
    by_cases he : e.1 = k
    · simp [find, he]
    · simp [find, he, ih, Ne.symm he]

theorem mem_of_find (h : find k l = some v) : (k, v) ∈ l := by
  induction l with
  | nil => simp [find] at h
  | cons e rest ih =>
    unfold find at h
    split at h
    · rename_i he
      injection h with hv
      rw [← he, ← hv]
      exact mem_cons_self
    · exact mem_cons_of_mem _ (ih h)

theorem find_of_mem (hnd : (l.map Prod.fst).Nodup) (h : (k, v) ∈ l) : find k l = some v := by
  induction l with
  | nil => exact absurd h not_mem_nil
  | cons e rest ih =>
    rw [map_cons, nodup_cons] at hnd
    rcases mem_cons.mp h with h' | h'
    · simp [find, ← h']
    · have he : ¬ e.1 = k := by
        intro heq
        exact hnd.1 (heq ▸ mem_map_of_mem (f := Prod.fst) h')
      simp only [find, he, if_false]
      exact ih hnd.2 h'

theorem mem_entries_iff : (k, v) ∈ d.entries ↔ d.get? k = some v :=
  ⟨find_of_mem d.nodup, mem_of_find⟩

theorem get?_eq_none : d.get? k = none ↔ k ∉ d.keys :=
  find_eq_none

theorem mem_values_iff : v ∈ d.values ↔ ∃ k, d.get? k = some v := by
  constructor
  · intro h
    obtain ⟨e, he, rfl⟩ := mem_map.mp h
    exact ⟨e.1, mem_entries_iff.mp he⟩
  · rintro ⟨k, hk⟩
    exact mem_map.mpr ⟨(k, v), mem_entries_iff.mpr hk, rfl⟩

theorem mem_keys_iff : k ∈ d.keys ↔ ∃ v, d.get? k = some v := by
  constructor
  · intro h
    obtain ⟨e, he, rfl⟩ := mem_map.mp h
    exact ⟨e.2, mem_entries_iff.mp he⟩
  · rintro ⟨v, hget⟩
    exact mem_map_of_mem (f := Prod.fst) (mem_entries_iff.mpr hget)

theorem contains_iff : d.contains k = true ↔ ∃ v, d.get? k = some v := by
  unfold contains
  exact Option.isSome_iff_exists

theorem contains_eq_false : d.contains k = false ↔ d.get? k = none := by
  unfold contains
  rw [Option.isSome_eq_false_iff, Option.isNone_iff_eq_none]

/-! ## What each operation leaves under a key -/

@[simp] theorem get?_set_self (d : Dict κ υ) (k : κ) (v : υ) :
    (d.set k v).get? k = some v := by
  show find k (place k v d.entries) = some v
  induction d.entries with
  | nil => simp [place, find]
  | cons e rest ih =>
    by_cases he : e.1 = k
    · simp [place, find, he]
    · simp [place, find, he, ih]

theorem get?_set_ne (d : Dict κ υ) {k' : κ} (v : υ) (h : k' ≠ k) :
    (d.set k v).get? k' = d.get? k' := by
  show find k' (place k v d.entries) = find k' d.entries
  induction d.entries with
  | nil => simp [place, find, Ne.symm h]
  | cons e rest ih =>
    by_cases he : e.1 = k
    · simp [place, find, he, Ne.symm h]
    · simp [place, find, he, ih]

theorem get?_set (d : Dict κ υ) (k k' : κ) (v : υ) :
    (d.set k v).get? k' = if k' = k then some v else d.get? k' := by
  by_cases h : k' = k
  · subst h
    simp
  · rw [if_neg h, get?_set_ne d v h]

@[simp] theorem get?_mapVals (f : κ → υ → ω) (d : Dict κ υ) (k : κ) :
    (d.mapVals f).get? k = (d.get? k).map (f k) := by
  show find k (d.entries.map fun e => (e.1, f e.1 e.2)) = (find k d.entries).map (f k)
  induction d.entries with
  | nil => rfl
  | cons e rest ih =>
    by_cases he : e.1 = k
    · simp [find, he]
    · simp [find, he, ih]

theorem get?_filter (p : κ → υ → Bool) (d : Dict κ υ) (k : κ) :
    (d.filter p).get? k = (d.get? k).filter (p k) := by
  cases h : d.get? k with
  | none =>
    rw [Option.filter_none, get?_eq_none]
    rw [get?_eq_none] at h
    intro hk
    obtain ⟨e, he, hek⟩ := mem_map.mp hk
    exact h (hek ▸ mem_map_of_mem (f := Prod.fst) (mem_filter.mp he).1)
  | some v =>
    have hmem : (k, v) ∈ d.entries := mem_entries_iff.mpr h
    by_cases hp : p k v = true
    · rw [Option.filter_some, if_pos hp]
      exact mem_entries_iff.mp (mem_filter.mpr ⟨hmem, hp⟩)
    · rw [Option.filter_some, if_neg hp, get?_eq_none]
      intro hk
      obtain ⟨⟨k', v'⟩, he, rfl⟩ := mem_map.mp hk
      obtain ⟨hmem', hp'⟩ := mem_filter.mp he
      have hv : d.get? k' = some v' := mem_entries_iff.mp hmem'
      rw [show d.get? k' = some v from h] at hv
      injection hv with hv
      exact hp (hv ▸ hp')

theorem get?_ofList (l : List (κ × υ)) (k : κ) :
    (ofList l).get? k = (l.reverse.find? fun e => e.1 = k).map Prod.snd := by
  induction l using reverseRecOn with
  | nil => rfl
  | append_singleton l e ih =>
    have hset : ofList (l ++ [e]) = (ofList l).set e.1 e.2 := by
      unfold ofList
      rw [foldl_append]
      rfl
    rw [hset, get?_set, reverse_append, reverse_singleton, singleton_append, find?_cons]
    by_cases hk : e.1 = k
    · simp [hk]
    · rw [if_neg (Ne.symm hk), ih]
      simp [hk]

theorem place_of_notMem (h : k ∉ l.map Prod.fst) : place k v l = l ++ [(k, v)] := by
  induction l with
  | nil => rfl
  | cons e rest ih =>
    rw [map_cons, mem_cons, not_or] at h
    rw [place, if_neg (Ne.symm h.1), ih h.2]
    rfl

theorem entries_ofList (h : (l.map Prod.fst).Nodup) : (ofList l).entries = l := by
  induction l using reverseRecOn with
  | nil => rfl
  | append_singleton l e ih =>
    rw [map_append, nodup_append] at h
    have hset : ofList (l ++ [e]) = (ofList l).set e.1 e.2 := by
      unfold ofList
      rw [foldl_append]
      rfl
    have hnew : e.1 ∉ l.map Prod.fst := fun hmem => h.2.2 e.1 hmem e.1 mem_cons_self rfl
    rw [hset]
    show place e.1 e.2 (ofList l).entries = _
    rw [ih h.1, place_of_notMem hnew]

theorem ofList_entries (d : Dict κ υ) : ofList d.entries = d := by
  cases d with
  | mk entries nodup =>
    have h := entries_ofList nodup
    cases hcopy : ofList entries with
    | mk entries' nodup' =>
      rw [hcopy] at h
      subst h
      rfl

theorem get?_ofList_map (key : υ → κ) (l : List υ) (k : κ) :
    (ofList (l.map fun v => (key v, v))).get? k = l.reverse.find? fun v => key v = k := by
  rw [get?_ofList, ← map_reverse, find?_map, Option.map_map]
  exact Option.map_id'

theorem filter_values (key : υ → κ) (h : ∀ k v, d.get? k = some v → key v = k) (k : κ) :
    d.values.filter (key · = k) = (d.get? k).toList := by
  have hentries : ∀ e ∈ d.entries, key e.2 = e.1 := fun e he => h e.1 e.2 (mem_entries_iff.mp he)
  have hnodup := d.nodup
  show (d.entries.map Prod.snd).filter (key · = k) = (find k d.entries).toList
  generalize d.entries = entries at hentries hnodup
  induction entries with
  | nil => rfl
  | cons e rest ih =>
    rw [map_cons, nodup_cons] at hnodup
    have hrest := ih (fun e' he' => hentries e' (mem_cons_of_mem _ he')) hnodup.2
    have hkey : key e.2 = e.1 := hentries e mem_cons_self
    rw [map_cons, find]
    by_cases he : e.1 = k
    · have hnone : find k rest = none := find_eq_none.mpr (he ▸ hnodup.1)
      rw [filter_cons_of_pos (by simp [hkey, he]), hrest, hnone, if_pos he]
      rfl
    · rw [filter_cons_of_neg (by simp [hkey, he]), hrest, if_neg he]

/-! ## The keys, in order -/

theorem keys_set_of_contains (d : Dict κ υ) (v : υ) (h : d.contains k = true) :
    (d.set k v).keys = d.keys := by
  obtain ⟨w, hw⟩ := contains_iff.mp h
  exact place_keys_of_mem (mem_map_of_mem (f := Prod.fst) (mem_entries_iff.mpr hw))

theorem keys_set_of_absent (d : Dict κ υ) (v : υ) (h : d.get? k = none) :
    (d.set k v).keys = d.keys ++ [k] :=
  place_keys_of_notMem (get?_eq_none.mp h)

omit [DecidableEq κ] in
@[simp] theorem keys_mapVals (f : κ → υ → ω) (d : Dict κ υ) :
    (d.mapVals f).keys = d.keys := by
  show (d.entries.map fun e => (e.1, f e.1 e.2)).map Prod.fst = d.entries.map Prod.fst
  rw [map_map]
  rfl

theorem keys_filter {p : κ → υ → Bool} {q : κ → Bool} (d : Dict κ υ)
    (h : ∀ k v, d.get? k = some v → q k = p k v) :
    (d.filter p).keys = d.keys.filter q := by
  show (d.entries.filter fun e => p e.1 e.2).map Prod.fst = (d.entries.map Prod.fst).filter q
  rw [filter_map]
  refine congrArg _ (filter_congr ?_)
  intro e he
  exact (h e.1 e.2 (mem_entries_iff.mp he)).symm

theorem keys_filterMap_get? (d : Dict κ υ) : d.keys.filterMap d.get? = d.values := by
  show (d.entries.map Prod.fst).filterMap d.get? = d.entries.map Prod.snd
  rw [filterMap_map, ← filterMap_eq_map]
  refine filterMap_congr ?_
  intro e he
  exact mem_entries_iff.mp he

/-! ## Writing twice -/

theorem set_eq_self (h : d.get? k = some v) : d.set k v = d := by
  have hplace : ∀ l : List (κ × υ), find k l = some v → place k v l = l := by
    intro l hl
    induction l with
    | nil => simp [find] at hl
    | cons e rest ih =>
      by_cases he : e.1 = k
      · rw [find, if_pos he, Option.some.injEq] at hl
        rw [place, if_pos he, ← he, ← hl]
      · rw [find, if_neg he] at hl
        rw [place, if_neg he, ih hl]
  cases d with
  | mk entries nodup => simp only [set, hplace entries h]

theorem place_place (k : κ) (v v' : υ) (l : List (κ × υ)) :
    place k v' (place k v l) = place k v' l := by
  induction l with
  | nil => simp [place]
  | cons e rest ih =>
    by_cases he : e.1 = k
    · simp [place, he]
    · simp [place, he, ih]

theorem set_set (d : Dict κ υ) (k : κ) (v v' : υ) : (d.set k v).set k v' = d.set k v' := by
  unfold set
  simp only [place_place]

theorem mapVals_place (f : κ → υ → ω) (k : κ) (v : υ) (l : List (κ × υ)) :
    (place k v l).map (fun e => (e.1, f e.1 e.2)) =
      place k (f k v) (l.map fun e => (e.1, f e.1 e.2)) := by
  induction l with
  | nil => rfl
  | cons e rest ih =>
    by_cases he : e.1 = k
    · simp [place, he]
    · simp [place, he, ih]

theorem mapVals_set (f : κ → υ → ω) (d : Dict κ υ) (k : κ) (v : υ) :
    (d.set k v).mapVals f = (d.mapVals f).set k (f k v) := by
  unfold set mapVals
  simp only [mapVals_place]

omit [DecidableEq κ] in
theorem ext_entries {d' : Dict κ υ} (h : d.entries = d'.entries) : d = d' := by
  cases d with
  | mk entries nodup =>
    cases d' with
    | mk entries' nodup' =>
      obtain rfl : entries = entries' := h
      rfl

theorem forall_set_iff {old : υ} {R : υ → υ → Prop} (h : d.get? k = some old) (hrefl : ∀ a, R a a) :
    (∀ k' a, d.get? k' = some a → ∃ b, (d.set k v).get? k' = some b ∧ R a b) ↔ R old v := by
  constructor
  · intro hall
    obtain ⟨b, hget, hrel⟩ := hall k old h
    rw [get?_set_self] at hget
    injection hget with hget
    rw [hget]
    exact hrel
  · intro hrel k' a hget
    by_cases hk : k' = k
    · subst hk
      rw [h] at hget
      injection hget with hget
      subst hget
      exact ⟨v, get?_set_self d k' v, hrel⟩
    · exact ⟨a, (get?_set_ne d v hk).trans hget, hrefl a⟩

theorem map_get?_set {old : υ} (f : υ → ω) (h : d.get? k = some old) (hf : f v = f old) (k' : κ) :
    ((d.set k v).get? k').map f = (d.get? k').map f := by
  rw [get?_set]
  split
  · rename_i hk
    rw [hk, h, Option.map_some, Option.map_some, hf]
  · rfl

theorem get?_eq_of_set_eq_self (h : d.set k v = d) : d.get? k = some v := by
  rw [← h]
  exact get?_set_self d k v

/-! ## Insert or update -/

/-- Insert a row, or update the row that is there: `f` computes the new row from the old
one. -/
def upsert (d : Dict κ υ) (k : κ) (f : Option υ → υ) : Dict κ υ := d.set k (f (d.get? k))

@[simp] theorem get?_upsert_self (d : Dict κ υ) (k : κ) (f : Option υ → υ) :
    (d.upsert k f).get? k = some (f (d.get? k)) :=
  get?_set_self d k _

theorem get?_upsert_ne (d : Dict κ υ) {k' : κ} (f : Option υ → υ) (h : k' ≠ k) :
    (d.upsert k f).get? k' = d.get? k' :=
  get?_set_ne d _ h

theorem upsert_upsert (d : Dict κ υ) (k : κ) {f : Option υ → υ}
    (hf : ∀ o, f (some (f o)) = f o) : (d.upsert k f).upsert k f = d.upsert k f := by
  apply set_eq_self
  rw [get?_upsert_self, hf]

def upsertAll (d : Dict κ υ) (ks : List κ) (f : κ → Option υ → υ) : Dict κ υ :=
  ks.foldl (fun d k => d.upsert k (f k)) d

/-- Each key of `e` updated by its value there, the other keys keep theirs. -/
theorem get?_foldl_upsert (d : Dict κ υ) (e : Dict κ ω) (f : κ → ω → Option υ → υ) (k : κ) :
    (e.entries.foldl (fun d x => d.upsert x.1 (f x.1 x.2)) d).get? k =
      match e.get? k with
      | some v => some (f k v (d.get? k))
      | none => d.get? k := by
  have hlist : ∀ (l : List (κ × ω)) (d : Dict κ υ), (l.map Prod.fst).Nodup →
      (l.foldl (fun d x => d.upsert x.1 (f x.1 x.2)) d).get? k =
        match find k l with
        | some v => some (f k v (d.get? k))
        | none => d.get? k := by
    intro l
    induction l with
    | nil => exact fun _ _ => rfl
    | cons x rest ih =>
      intro d hnodup
      obtain ⟨hfresh, hrest⟩ := nodup_cons.mp hnodup
      rw [foldl_cons, ih _ hrest, find]
      by_cases hkey : x.1 = k
      · have hnone : find k rest = none := find_eq_none.mpr (hkey ▸ hfresh)
        rw [if_pos hkey, hnone, hkey]
        exact get?_upsert_self d k _
      · rw [if_neg hkey, get?_upsert_ne d _ (Ne.symm hkey)]
  exact hlist e.entries d e.nodup

theorem upsertAll_keeps {R : Option υ → Prop} (hkeep : ∀ o, R o → R (some (f k o))) (ks : List κ)
    (d : Dict κ υ) (h : R (d.get? k)) : R ((d.upsertAll ks f).get? k) := by
  induction ks generalizing d with
  | nil => exact h
  | cons k' rest ih =>
    apply ih
    by_cases hk : k = k'
    · subst hk
      rw [get?_upsert_self]
      exact hkeep _ h
    · rw [get?_upsert_ne d _ hk]
      exact h

theorem get?_upsertAll_of_notMem {ks : List κ} (d : Dict κ υ) (hk : k ∉ ks) :
    (d.upsertAll ks f).get? k = d.get? k := by
  induction ks generalizing d with
  | nil => rfl
  | cons k' rest ih =>
    rw [mem_cons, not_or] at hk
    show ((d.upsert k' (f k')).upsertAll rest f).get? k = d.get? k
    rw [ih _ hk.2, get?_upsert_ne d _ hk.1]

theorem upsertAll_reaches {R Q : Option υ → Prop} (hstart : ∀ o, R o → Q (some (f k o)))
    (hkeep : ∀ o, Q o → Q (some (f k o))) {ks : List κ} (hk : k ∈ ks) (d : Dict κ υ)
    (h : R (d.get? k)) : Q ((d.upsertAll ks f).get? k) := by
  induction ks generalizing d with
  | nil => exact absurd hk not_mem_nil
  | cons k' rest ih =>
    by_cases heq : k = k'
    · subst heq
      show Q (((d.upsert k (f k)).upsertAll rest f).get? k)
      apply upsertAll_keeps hkeep
      rw [get?_upsert_self]
      exact hstart _ h
    · apply ih ((mem_cons.mp hk).resolve_left heq)
      rw [get?_upsert_ne d _ heq]
      exact h

theorem foldl_leaves {σ : Type} (view : σ → ω) {step : σ → κ → σ} {result : ω}
    (hstep : ∀ s k', view (step s k') = if k = k' then result else view s) (ks : List κ) (s : σ) :
    view (ks.foldl step s) = if k ∈ ks then result else view s := by
  induction ks generalizing s with
  | nil => simp
  | cons k' rest ih =>
    rw [foldl_cons, ih, hstep]
    by_cases hrest : k ∈ rest
    · simp [hrest]
    · by_cases hk : k = k'
      · simp [hk]
      · simp [hrest, hk]

/-! ## The latest entry with a property -/

/-- The last entry of a list whose value satisfies `p`. -/
def latestIn (p : υ → Bool) : List (κ × υ) → Option (κ × υ)
  | [] => none
  | e :: rest => (latestIn p rest).or (if p e.2 then some e else none)

/-- The entry inserted last among those whose value satisfies `p`. -/
def latest? (d : Dict κ υ) (p : υ → Bool) : Option (κ × υ) := latestIn p d.entries

omit [DecidableEq κ] in
theorem mem_of_latestIn {e : κ × υ} (h : latestIn p l = some e) : e ∈ l ∧ p e.2 = true := by
  induction l with
  | nil => simp [latestIn] at h
  | cons e' rest ih =>
    rw [latestIn] at h
    cases hrest : latestIn p rest with
    | some found =>
      rw [hrest, Option.some_or, ← hrest] at h
      exact ⟨mem_cons_of_mem _ (ih h).1, (ih h).2⟩
    | none =>
      rw [hrest, Option.none_or] at h
      split at h
      · rename_i hp
        injection h with h
        subst h
        exact ⟨mem_cons_self, hp⟩
      · exact absurd h (by simp)

theorem latest?_spec (h : d.latest? p = some (k, v)) : d.get? k = some v ∧ p v = true :=
  ⟨mem_entries_iff.mp (mem_of_latestIn h).1, (mem_of_latestIn h).2⟩

omit [DecidableEq κ] in
theorem latestIn_map (f : υ → ω) (p : ω → Bool) (l : List (κ × υ)) :
    latestIn p (l.map fun e => (e.1, f e.2)) =
      (latestIn (fun v => p (f v)) l).map fun e => (e.1, f e.2) := by
  induction l with
  | nil => rfl
  | cons e rest ih =>
    rw [map_cons, latestIn, latestIn, ih]
    cases latestIn (fun v => p (f v)) rest with
    | some found => rfl
    | none =>
      rw [Option.map_none, Option.none_or, Option.none_or]
      split <;> rfl

omit [DecidableEq κ] in
theorem latest?_mapVals (f : υ → ω) (p : ω → Bool) (d : Dict κ υ) :
    (d.mapVals fun _ => f).latest? p = (d.latest? fun v => p (f v)).map fun e => (e.1, f e.2) :=
  latestIn_map f p d.entries

theorem latestIn_place_of_neg (hnone : latestIn p l = none) (hv : p v = false) :
    latestIn p (place k v l) = none := by
  induction l with
  | nil => simp [place, latestIn, hv]
  | cons e rest ih =>
    rw [latestIn, Option.or_eq_none_iff] at hnone
    by_cases he : e.1 = k
    · simp [place, he, latestIn, hnone.1, hv]
    · rw [place, if_neg he, latestIn, ih hnone.1, hnone.2]
      rfl

theorem latest?_set_of_neg (hnone : d.latest? p = none) (hv : p v = false) :
    (d.set k v).latest? p = none :=
  latestIn_place_of_neg hnone hv

theorem latestIn_place_of_pos {v' : υ} (hnd : (l.map Prod.fst).Nodup) (hk : k ∈ l.map Prod.fst)
    (h : latestIn p l = some (k, v) ∨ latestIn p l = none) (hv' : p v' = true) :
    latestIn p (place k v' l) = some (k, v') := by
  induction l with
  | nil => simp at hk
  | cons e rest ih =>
    rw [map_cons, nodup_cons] at hnd
    by_cases he : e.1 = k
    · -- the rewritten row itself: no later row has the property
      have hrest : latestIn p rest = none := by
        cases hr : latestIn p rest with
        | none => rfl
        | some found =>
          rw [latestIn, hr, Option.some_or] at h
          rcases h with h | h
          · injection h with h
            have hmem := (mem_of_latestIn hr).1
            rw [h] at hmem
            rw [he] at hnd
            exact absurd (mem_map_of_mem (f := Prod.fst) hmem) hnd.1
          · exact absurd h (by simp)
      simp [place, he, latestIn, hrest, hv']
    · have hk' : k ∈ rest.map Prod.fst := by
        rcases mem_cons.mp hk with hk | hk
        · exact absurd hk.symm he
        · exact hk
      have hrest : latestIn p rest = some (k, v) ∨ latestIn p rest = none := by
        cases hr : latestIn p rest with
        | none => exact .inr rfl
        | some found =>
          rw [latestIn, hr, Option.some_or] at h
          rcases h with h | h
          · exact .inl h
          · exact absurd h (by simp)
      rw [place, if_neg he, latestIn, ih hnd.2 hk' hrest, Option.some_or]

theorem latest?_set_of_pos {v₀ v' : υ} (hk : d.get? k = some v₀)
    (h : d.latest? p = some (k, v) ∨ d.latest? p = none) (hv' : p v' = true) :
    (d.set k v').latest? p = some (k, v') := by
  refine latestIn_place_of_pos d.nodup ?_ h hv'
  exact mem_map_of_mem (f := Prod.fst) (mem_entries_iff.mpr hk)

omit [DecidableEq κ] in
theorem latestIn_eq_none (h : latestIn p l = none) : ∀ e ∈ l, p e.2 = false := by
  induction l with
  | nil => exact fun e he => absurd he not_mem_nil
  | cons e' rest ih =>
    rw [latestIn, Option.or_eq_none_iff] at h
    intro e he
    rcases mem_cons.mp he with rfl | he
    · exact Bool.eq_false_iff.mpr fun hp => by simp [hp] at h
    · exact ih h.1 e he

theorem latest?_eq_none {d : Dict κ υ} {p : υ → Bool} (h : d.latest? p = none) {k : κ} {v : υ}
    (hk : d.get? k = some v) : p v = false :=
  latestIn_eq_none h (k, v) (mem_entries_iff.mpr hk)

/-! ## Merging -/

/-- The entries of `e` written over those of `d`. -/
def merge (d e : Dict κ υ) : Dict κ υ := e.entries.foldl (fun d entry => d.set entry.1 entry.2) d

theorem get?_merge (d e : Dict κ υ) (k : κ) : (d.merge e).get? k = (e.get? k).or (d.get? k) := by
  have hfold : ∀ (l : List (κ × υ)) (d : Dict κ υ), (l.map Prod.fst).Nodup →
      (l.foldl (fun d entry => d.set entry.1 entry.2) d).get? k = (find k l).or (d.get? k) := by
    intro l
    induction l with
    | nil =>
      intro d _
      rfl
    | cons e rest ih =>
      intro d hnodup
      rw [map_cons, nodup_cons] at hnodup
      rw [foldl_cons, ih _ hnodup.2, get?_set]
      by_cases he : e.1 = k
      · subst he
        rw [find_eq_none.mpr hnodup.1]
        simp [find]
      · rw [if_neg (Ne.symm he), find, if_neg he]
  exact hfold e.entries d e.nodup

/-! ## Sums over the values -/

/-- The sum of `f` over the values. -/
def total (f : υ → Int) (d : Dict κ υ) : Int := (d.values.map f).sum

omit [DecidableEq κ] in
@[simp] theorem total_empty (f : υ → Int) : (empty : Dict κ υ).total f = 0 := rfl

def totalBy (f : κ → υ → Int) (d : Dict κ υ) : Int := (d.entries.map fun e => f e.1 e.2).sum

omit [DecidableEq κ] in
theorem total_eq_totalBy (f : υ → Int) (d : Dict κ υ) : d.total f = d.totalBy fun _ => f := by
  unfold total totalBy values
  rw [map_map]
  rfl

theorem totalBy_set (d : Dict κ υ) (k : κ) (v : υ) {f g : κ → υ → Int}
    (h : ∀ k', k' ≠ k → ∀ v', f k' v' = g k' v') :
    (d.set k v).totalBy f = d.totalBy g - ((d.get? k).map (g k)).getD 0 + f k v := by
  have hplace : ∀ l : List (κ × υ), (l.map Prod.fst).Nodup →
      ((place k v l).map fun e => f e.1 e.2).sum =
        (l.map fun e => g e.1 e.2).sum - ((find k l).map (g k)).getD 0 + f k v := by
    intro l hnodup
    induction l with
    | nil => simp [place, find]
    | cons e rest ih =>
      rw [map_cons, nodup_cons] at hnodup
      by_cases he : e.1 = k
      · have hrest : (rest.map fun e => f e.1 e.2) = rest.map fun e => g e.1 e.2 := by
          apply map_congr_left
          intro e' he'
          apply h
          intro heq
          exact hnodup.1 (he ▸ heq ▸ mem_map_of_mem he')
        simp only [place, find, he, if_true, map_cons, sum_cons, hrest,
          Option.map_some, Option.getD_some]
        omega
      · simp only [place, find, he, if_false, map_cons, sum_cons, ih hnodup.2,
          h e.1 he]
        omega
  exact hplace d.entries d.nodup

theorem total_set_new (f : υ → Int) (v : υ) (h : d.get? k = none) :
    (d.set k v).total f = d.total f + f v := by
  have hset := d.totalBy_set k v (f := fun _ => f) (g := fun _ => f) fun _ _ _ => rfl
  rw [h, Option.map_none, Option.getD_none] at hset
  rw [total_eq_totalBy, total_eq_totalBy]
  omega

theorem total_set_old {old : υ} (f : υ → Int) (v : υ) (h : d.get? k = some old) :
    (d.set k v).total f = d.total f - f old + f v := by
  have hset := d.totalBy_set k v (f := fun _ => f) (g := fun _ => f) fun _ _ _ => rfl
  rw [h, Option.map_some, Option.getD_some] at hset
  rw [total_eq_totalBy, total_eq_totalBy]
  exact hset

omit [DecidableEq κ] in
theorem totalBy_nonneg {f : κ → υ → Int} (h : ∀ k v, 0 ≤ f k v) (d : Dict κ υ) :
    0 ≤ d.totalBy f := by
  unfold totalBy
  induction d.entries with
  | nil => exact Int.le_refl 0
  | cons e rest ih =>
    have he := h e.1 e.2
    rw [map_cons, sum_cons]
    omega

omit [DecidableEq κ] in
theorem total_le_total {f g : υ → Int} (h : ∀ v, f v ≤ g v) (d : Dict κ υ) :
    d.total f ≤ d.total g := by
  unfold total
  induction d.values with
  | nil => exact Int.le_refl _
  | cons v rest ih =>
    have hv := h v
    rw [map_cons, map_cons, sum_cons, sum_cons]
    omega

omit [DecidableEq κ] in
theorem length_filter_eq_total (p : υ → Bool) (d : Dict κ υ) :
    ((d.values.filter p).length : Int) = d.total fun v => if p v then 1 else 0 := by
  unfold total
  induction d.values with
  | nil => rfl
  | cons v rest ih =>
    rw [filter_cons, map_cons, sum_cons, ← ih]
    split
    · rw [length_cons]
      omega
    · omega

end Dict

end Base
