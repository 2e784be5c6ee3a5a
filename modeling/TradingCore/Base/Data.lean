import TradingCore.Base.Numeral
import Mathlib.Data.List.Sort
import Mathlib.Data.String.Basic

/-!
# Trees of dynamically typed data

What a program passes on without looking inside: scalars, members of enumerations, lists and
dictionaries with text keys, nested at will. A text that is a JSON document is known by the
document.

* `induct` — induction over a tree, with the hypotheses over the members of its containers;
* `mapMembers`, `plain` — the tree with something else, or the values, for its enumeration members;
* `Plain` — there are no such members;
* `sortKeys`, `Same` — the tree with the keys of its dictionaries in order, and equality up to the
  order of the keys;
* `dumps`, `loadsMapping` — JSON texts and what is read from them.
-/

namespace Base

open List Dict

/-- Dynamically typed data. A member of an enumeration (one that is no text itself) is known by its
value, a JSON text by its document. -/
inductive Data
  | leaf (v : Value)
  | member (v : Value)
  | json (document : Data)
  | list (items : List Data)
  | dict (entries : List (String × Data))

abbrev Fields := Dict String Data

namespace Data

def str (s : String) : Data := .leaf (.str s)

def int (n : Int) : Data := .leaf (.int n)

def ofFields (fields : Fields) : Data := .dict fields.entries

theorem induct {P : Data → Prop} (leaf : ∀ v, P (.leaf v)) (member : ∀ v, P (.member v))
    (json : ∀ d, P d → P (.json d)) (list : ∀ items, (∀ d ∈ items, P d) → P (.list items))
    (dict : ∀ entries, (∀ e ∈ entries, P e.2) → P (.dict entries)) (d : Data) : P d := by
  refine @Data.rec P (fun items => ∀ d ∈ items, P d) (fun entries => ∀ e ∈ entries, P e.2)
    (fun e => P e.2) leaf member json list dict ?_ ?_ ?_ ?_ ?_ d
  · exact fun d hd => absurd hd not_mem_nil
  · intro d rest hd hrest d' hmem
    rcases mem_cons.mp hmem with rfl | hmem
    · exact hd
    · exact hrest d' hmem
  · exact fun e he => absurd he not_mem_nil
  · intro e rest he hrest e' hmem
    rcases mem_cons.mp hmem with rfl | hmem
    · exact he
    · exact hrest e' hmem
  · exact fun _ _ h => h

/-! ## Conditions and coercions -/

def truthy : Data → Bool
  | leaf v => v.truthy
  | member _ => true
  | json _ => true
  | list items => items ≠ []
  | dict entries => entries ≠ []

/-- `a or b`. -/
def or (a b : Data) : Data := if a.truthy then a else b

/-- `str(d)`, where `repr` prints what is not a scalar. -/
def text (repr : Data → String) : Data → String
  | leaf v => v.text
  | d => repr d

/-- `int(d)`, `none` if it raises an error. -/
def int? : Data → Option Int
  | leaf v => v.int?
  | _ => none

/-- `dict(d)` of a dictionary. -/
def fields? : Data → Option Fields
  | dict entries => some (ofList entries)
  | _ => none

/-- `list(d)` of a list. -/
def items? : Data → Option (List Data)
  | list items => some items
  | _ => none

/-! ## Enumeration members -/

section Members

variable (f : Value → Data)

mutual

/-- The tree with something else for its enumeration members. -/
def mapMembers : Data → Data
  | leaf v => leaf v
  | member v => f v
  | json document => json document
  | list items => list (mapItems items)
  | dict entries => dict (mapEntries entries)

def mapItems : List Data → List Data
  | [] => []
  | d :: rest => mapMembers d :: mapItems rest

def mapEntries : List (String × Data) → List (String × Data)
  | [] => []
  | (key, d) :: rest => (key, mapMembers d) :: mapEntries rest

end

theorem mapItems_eq (items : List Data) : mapItems f items = items.map (mapMembers f) := by
  induction items with
  | nil => rfl
  | cons d rest ih =>
    rw [mapItems, ih]
    rfl

theorem mapEntries_eq (entries : List (String × Data)) :
    mapEntries f entries = entries.map fun e => (e.1, e.2.mapMembers f) := by
  induction entries with
  | nil => rfl
  | cons e rest ih =>
    rw [mapEntries, ih]
    rfl

end Members

def plain (d : Data) : Data := d.mapMembers leaf

/-- There is no member of an enumeration in the tree. -/
inductive Plain : Data → Prop
  | leaf (v : Value) : Plain (.leaf v)
  | json (document : Data) : Plain (.json document)
  | list {items : List Data} (h : ∀ d ∈ items, Plain d) : Plain (.list items)
  | dict {entries : List (String × Data)} (h : ∀ e ∈ entries, Plain e.2) : Plain (.dict entries)

theorem map_eq_self_iff {α : Type} {f : α → α} {l : List α} :
    l.map f = l ↔ ∀ a ∈ l, f a = a := by
  induction l with
  | nil => simp
  | cons a rest ih => simp [ih]

theorem Plain.mapMembers {d : Data} (h : d.Plain) (f : Value → Data) : d.mapMembers f = d := by
  induction d using induct with
  | leaf v => rfl
  | member v => cases h
  | json document => rfl
  | list items ih =>
    cases h with
    | list h =>
      rw [Data.mapMembers, mapItems_eq, map_eq_self_iff.mpr fun d hd => ih d hd (h d hd)]
  | dict entries ih =>
    cases h with
    | dict h =>
      rw [Data.mapMembers, mapEntries_eq, map_eq_self_iff.mpr fun e he => by rw [ih e he (h e he)]]

theorem plain_eq_self_iff (d : Data) : d.plain = d ↔ d.Plain := by
  refine ⟨fun h => ?_, fun h => h.mapMembers leaf⟩
  induction d using induct with
  | leaf v => exact .leaf v
  | member v => cases h
  | json document => exact .json document
  | list items ih =>
    rw [plain, mapMembers, mapItems_eq, list.injEq, map_eq_self_iff] at h
    exact .list fun d hd => ih d hd (h d hd)
  | dict entries ih =>
    rw [plain, mapMembers, mapEntries_eq, dict.injEq, map_eq_self_iff] at h
    exact .dict fun e he => ih e he (congrArg Prod.snd (h e he))

/-! ## The order of keys -/

mutual

/-- The tree with the keys of its dictionaries in order. -/
def sortKeys : Data → Data
  | leaf v => leaf v
  | member v => member v
  | json document => json document
  | list items => list (sortItems items)
  | dict entries => dict ((sortEntries entries).insertionSort fun a b => a.1 ≤ b.1)

def sortItems : List Data → List Data
  | [] => []
  | d :: rest => d.sortKeys :: sortItems rest

def sortEntries : List (String × Data) → List (String × Data)
  | [] => []
  | (key, d) :: rest => (key, d.sortKeys) :: sortEntries rest

end

theorem sortItems_eq (items : List Data) : sortItems items = items.map sortKeys := by
  induction items with
  | nil => rfl
  | cons d rest ih =>
    rw [sortItems, ih]
    rfl

theorem sortEntries_eq (entries : List (String × Data)) :
    sortEntries entries = entries.map fun e => (e.1, e.2.sortKeys) := by
  induction entries with
  | nil => rfl
  | cons e rest ih =>
    rw [sortEntries, ih]
    rfl

instance : IsTrans (String × Data) fun a b => a.1 ≤ b.1 := ⟨fun _ _ _ => le_trans⟩

instance : Std.Total fun a b : String × Data => a.1 ≤ b.1 := ⟨fun a b => le_total a.1 b.1⟩

theorem sortKeys_sortKeys (d : Data) : d.sortKeys.sortKeys = d.sortKeys := by
  induction d using induct with
  | leaf v => rfl
  | member v => rfl
  | json document => rfl
  | list items ih =>
    rw [sortKeys, sortItems_eq, sortKeys, sortItems_eq, list.injEq, map_eq_self_iff]
    intro d hd
    obtain ⟨d', hd', rfl⟩ := mem_map.mp hd
    exact ih d' hd'
  | dict entries ih =>
    have hvalues : ∀ e ∈ (sortEntries entries).insertionSort fun a b => a.1 ≤ b.1,
        (e.1, e.2.sortKeys) = e := by
      intro e he
      rw [mem_insertionSort, sortEntries_eq] at he
      obtain ⟨e', he', rfl⟩ := mem_map.mp he
      rw [ih e' he']
    rw [sortKeys, sortKeys, sortEntries_eq ((sortEntries entries).insertionSort _),
      map_eq_self_iff.mpr hvalues]
    exact congrArg dict (pairwise_insertionSort _ _).insertionSort_eq

def Same (d d' : Data) : Prop := d.sortKeys = d'.sortKeys

/-! ## JSON texts -/

/-- `json.dumps(d, sort_keys=True, default=str)`, where `repr` prints what JSON does not have. -/
def dumps (repr : Data → String) (d : Data) : Data :=
  .json (d.mapMembers fun v => .str (repr (.member v))).sortKeys

def loadsMapping : Data → Fields
  | dict entries => ofList entries
  | json (dict entries) => ofList entries
  | _ => empty

end Data

namespace Fields

/-- The data under a key, and `None` where there is none. -/
def item (fields : Fields) (key : String) : Data := fields.getD key (.leaf .none)

@[simp] theorem getD_nil {key : String} {default : Data}
    (h : (([] : List (String × Data)).map Prod.fst).Nodup) :
    getD ⟨[], h⟩ key default = default := rfl

@[simp] theorem getD_cons {key key' : String} {d default : Data} {rest : List (String × Data)}
    (h : (((key, d) :: rest).map Prod.fst).Nodup) :
    getD ⟨(key, d) :: rest, h⟩ key' default =
      if key = key' then d else getD ⟨rest, (nodup_cons.mp h).2⟩ key' default := by
  show (find key' ((key, d) :: rest)).getD default = _
  rw [find]
  split <;> rfl

def plain (fields : Fields) : Fields := fields.mapVals fun _ d => d.plain

def Plain (fields : Fields) : Prop := ∀ e ∈ fields.entries, e.2.Plain

variable (fields : Fields)

theorem plain_eq_self_iff : fields.plain = fields ↔ fields.Plain := by
  cases fields with
  | mk entries nodup =>
    show (⟨entries.map fun e => (e.1, e.2.plain), _⟩ : Fields) = _ ↔ ∀ e ∈ entries, e.2.Plain
    rw [mk.injEq, Data.map_eq_self_iff]
    refine forall₂_congr fun e _ => ?_
    rw [← Data.plain_eq_self_iff]
    constructor
    · exact congrArg Prod.snd
    · intro h
      rw [h]

theorem ofFields_mapMembers (f : Value → Data) (fields : Fields) :
    (Data.ofFields fields).mapMembers f =
      Data.ofFields (fields.mapVals fun _ d => d.mapMembers f) := by
  rw [Data.ofFields, Data.mapMembers, Data.mapEntries_eq]
  rfl

theorem fields?_plain : (Data.ofFields fields).plain.fields? = some fields.plain := by
  rw [Data.plain, ofFields_mapMembers]
  exact congrArg some (ofList_entries fields.plain)

/-- A dictionary with its keys in order, and those of what it holds. -/
def sortKeys (fields : Fields) : Fields where
  entries := (fields.entries.map fun e => (e.1, e.2.sortKeys)).insertionSort fun a b => a.1 ≤ b.1
  nodup := by
    have hperm := (perm_insertionSort (fun a b : String × Data => a.1 ≤ b.1)
      (fields.entries.map fun e => (e.1, e.2.sortKeys))).map Prod.fst
    rw [hperm.nodup_iff, map_map]
    exact fields.nodup

theorem ofFields_sortKeys : (Data.ofFields fields).sortKeys = Data.ofFields fields.sortKeys := by
  rw [Data.ofFields, Data.sortKeys, Data.sortEntries_eq]
  rfl

theorem ofFields_inj {fields fields' : Fields} (h : Data.ofFields fields = Data.ofFields fields') :
    fields = fields' := by
  cases fields
  cases fields'
  cases h
  rfl

theorem sortKeys_sortKeys : fields.sortKeys.sortKeys = fields.sortKeys := by
  apply ofFields_inj
  rw [← ofFields_sortKeys, ← ofFields_sortKeys, Data.sortKeys_sortKeys]

theorem get?_sortKeys (key : String) :
    fields.sortKeys.get? key = (fields.get? key).map Data.sortKeys := by
  refine Option.ext fun d => ?_
  rw [← mem_entries_iff, Option.map_eq_some_iff]
  show (key, d) ∈ insertionSort _ _ ↔ _
  rw [mem_insertionSort, mem_map]
  constructor
  · rintro ⟨⟨key', d'⟩, hmem, heq⟩
    cases heq
    exact ⟨d', mem_entries_iff.mp hmem, rfl⟩
  · rintro ⟨d', hget, rfl⟩
    exact ⟨(key, d'), mem_entries_iff.mpr hget, rfl⟩

theorem item_sortKeys (key : String) : fields.sortKeys.item key = (fields.item key).sortKeys := by
  unfold item Dict.getD
  rw [get?_sortKeys]
  cases fields.get? key <;> rfl

end Fields

end Base
