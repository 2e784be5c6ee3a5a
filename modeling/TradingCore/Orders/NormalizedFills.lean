import TradingCore.Orders.FillDecoders

/-!
# What is read of a normalised payload

`_normalized_payload` takes six keys from the request of an order result where the payload lacks
them, finds the order number under three names and puts the side in capitals. It gives up with an
error if one of the six values cannot be looked up in a set (`normalizedPayload_eq_none`); what the
reconciler reads of its result is told in terms of the payload it was given.
-/

namespace TradingCore.Orders

open Base Broker List Dict Wire Option Fields

/-! ## What normalising brings -/

/-- Is the value under a key missing, `None` or an empty text? -/
def lacks (payload : Fields) (key : String) : Bool :=
  match payload.get? key with
  | none => true
  | some value => blank value

def hashableUnder (payload : Fields) (key : String) : Bool :=
  match payload.get? key with
  | none => true
  | some value => hashable value

/-- What is under a key once it is taken from a request. -/
def taken (request payload : Fields) (key : String) : Data :=
  match payload.get? key with
  | none => request.getD key (.str "")
  | some value => if blank value then request.getD key value else value

theorem takeKey_eq (request payload : Fields) (key : String) :
    (takeKey request payload key = none ↔ hashableUnder payload key = false) ∧
      ∀ data, takeKey request payload key = some data →
        ∀ k, data.get? k =
          if k = key then some (taken request payload key) else payload.get? k := by
  unfold takeKey hashableUnder taken
  cases hget : payload.get? key with
  | none =>
    refine ⟨by simp, ?_⟩
    intro data hdata k
    obtain rfl := some.inj hdata
    exact get?_set payload key k _
  | some value =>
    by_cases hhash : hashable value = true
    · refine ⟨by simp [hhash], ?_⟩
      intro data hdata k
      simp only [hhash, if_true] at hdata
      obtain rfl := some.inj hdata
      by_cases hblank : blank value = true
      · simp only [hblank, if_true]
        exact get?_set payload key k _
      · simp only [hblank]
        by_cases hk : k = key
        · rw [if_pos hk, hk]
          exact hget
        · rw [if_neg hk]
          rfl
    · simp [hhash]

/-- The loop of `_normalized_payload` ends unless a value cannot be looked up, and takes each of
its keys from the request. -/
theorem takeKeys_eq (request : Fields) {keys : List String} (hnodup : keys.Nodup)
    (payload : Fields) :
    (keys.foldlM (takeKey request) payload = none ↔
        ∃ key ∈ keys, hashableUnder payload key = false) ∧
      ∀ data, keys.foldlM (takeKey request) payload = some data →
        ∀ k, data.get? k = if k ∈ keys then some (taken request payload k) else payload.get? k := by
  induction keys generalizing payload with
  | nil =>
    refine ⟨by simp, ?_⟩
    intro data hdata k
    obtain rfl := some.inj hdata
    rfl
  | cons key rest ih =>
    obtain ⟨hfresh, hrest⟩ := nodup_cons.mp hnodup
    rw [foldlM_cons]
    cases hkey : takeKey request payload key with
    | none =>
      have hhash := (takeKey_eq request payload key).1.mp hkey
      refine ⟨⟨fun _ => ⟨key, mem_cons_self, hhash⟩, fun _ => rfl⟩, ?_⟩
      intro data hdata
      cases hdata
    | some next =>
      have hnext := (takeKey_eq request payload key).2 next hkey
      have hsame : ∀ k ∈ rest, next.get? k = payload.get? k := by
        intro k hk
        rw [hnext, if_neg fun heq : k = key => hfresh (heq ▸ hk)]
      have hhash : hashableUnder payload key = true :=
        Bool.not_eq_false _ ▸ fun hfalse =>
          absurd ((takeKey_eq request payload key).1.mpr hfalse) (by rw [hkey]; simp)
      show (rest.foldlM (takeKey request) next = none ↔ _) ∧ ∀ data,
        rest.foldlM (takeKey request) next = some data → _
      constructor
      · rw [(ih hrest next).1]
        constructor
        · rintro ⟨k, hk, hfalse⟩
          refine ⟨k, mem_cons_of_mem key hk, ?_⟩
          rw [← hfalse, hashableUnder, hashableUnder, hsame k hk]
        · rintro ⟨k, hk, hfalse⟩
          rcases mem_cons.mp hk with rfl | hk
          · rw [hhash] at hfalse
            cases hfalse
          · refine ⟨k, hk, ?_⟩
            rw [← hfalse, hashableUnder, hashableUnder, hsame k hk]
      · intro data hdata k
        rw [(ih hrest next).2 data hdata k]
        by_cases hk : k ∈ rest
        · rw [if_pos hk, if_pos (mem_cons_of_mem key hk), taken, taken, hsame k hk]
        · rw [if_neg hk, hnext]
          by_cases heq : k = key
          · rw [if_pos heq, heq, if_pos mem_cons_self]
          · rw [if_neg heq, if_neg fun hmem => (mem_cons.mp hmem).elim heq hk]

section Normalised

variable {rt : Runtime} {payload data : Fields}

theorem get?_identified {key : String}
    (h : key ∉ ["order_no", "original_order_no", "execution_id"]) :
    (identified rt data).get? key = data.get? key := by
  simp only [mem_cons, not_mem_nil, or_false, not_or] at h
  unfold identified
  dsimp only
  rw [get?_set, if_neg h.2.2, get?_set, if_neg h.2.1, get?_set, if_neg h.1]

theorem get?_identified_order_no :
    (identified rt data).get? "order_no" = some (.str (orderNo rt data)) := by
  unfold identified
  dsimp only
  rw [get?_set, if_neg (by decide), get?_set, if_neg (by decide), get?_set, if_pos rfl]

theorem get?_sided {key : String} (h : key ≠ "side") :
    (sided rt data).get? key = data.get? key := by
  unfold sided
  split
  · rw [get?_set, if_neg h]
  · rfl

theorem str_or (s : String) : ((Data.str s).or (.str "")).text rt.repr = s := by
  unfold Data.or
  split
  · rfl
  · next hfalsy =>
      have hempty : s = "" := by simpa [Data.str, Data.truthy, Value.truthy] using hfalsy
      rw [hempty]
      rfl

theorem textOr_sided :
    textOr rt (sided rt data) "side" = Text.upper (textOr rt data "side") := by
  unfold sided
  split
  · rw [textOr, item, Dict.getD, Dict.get?_set_self]
    exact str_or _
  · next hfalsy =>
      rw [textOr, Data.or, if_neg hfalsy]
      rfl

end Normalised

theorem or_of_blank {value : Data} (h : blank value = true) (d : Data) : value.or d = d := by
  have hfalsy : value.truthy = false := by
    cases value with
    | leaf v =>
      cases v with
      | none => rfl
      | str s => simpa [blank, Data.truthy, Value.truthy] using h
      | bool b => cases h
      | int n => cases h
      | other t b => cases h
    | member v => cases h
    | json document => cases h
    | list items => cases h
    | dict entries => cases h
  rw [Data.or, if_neg (by rw [hfalsy]; exact Bool.false_ne_true)]

theorem or_of_lacks {payload : Fields} {key : String} (h : lacks payload key = true) (d : Data) :
    (payload.item key).or d = d := by
  unfold lacks at h
  unfold item Dict.getD
  cases hget : payload.get? key with
  | none => rfl
  | some value =>
    rw [hget] at h
    exact or_of_blank h d

theorem taken_or (request payload : Fields) (key : String) (d : Data) :
    (taken request payload key).or d =
      if lacks payload key then (request.item key).or d else (payload.item key).or d := by
  have hrequest : ∀ default : Data, blank default = true →
      (request.getD key default).or d = (request.item key).or d := by
    intro default hdefault
    unfold item Dict.getD
    cases request.get? key with
    | none => exact or_of_blank hdefault d
    | some value => rfl
  unfold taken lacks
  cases hget : payload.get? key with
  | none => exact hrequest _ rfl
  | some value =>
    by_cases hblank : blank value = true
    · simp only [hblank, if_true]
      exact hrequest value hblank
    · have hitem : payload.item key = value := by
        rw [item, Dict.getD, hget]
        rfl
      rw [hitem]
      simp only [hblank]
      rfl

/-! ## What is read of a normalised payload -/

section Normalised

variable {rt : Runtime} {payload data : Fields}

theorem normalizedPayload_eq_none :
    normalizedPayload rt payload = none ↔
      ∃ key ∈ requestKeys, hashableUnder payload key = false := by
  rw [normalizedPayload, map_eq_none_iff]
  exact (takeKeys_eq (requestOf payload) (by decide) payload).1

theorem item_congr {a b : Fields} {key : String} (h : a.get? key = b.get? key) :
    a.item key = b.item key := by
  rw [item, item, Dict.getD, Dict.getD, h]

section

variable (h : normalizedPayload rt payload = some data)
include h

theorem normalized_or {key : String} (hkey : key ∈ requestKeys) (hside : key ≠ "side") (d : Data) :
    (data.item key).or d =
      if lacks payload key then ((requestOf payload).item key).or d
      else (payload.item key).or d := by
  obtain ⟨loop, hloop, rfl⟩ := map_eq_some_iff.mp h
  have hget := (takeKeys_eq (requestOf payload) (by decide) payload).2 loop hloop key
  have hidentified : key ∉ ["order_no", "original_order_no", "execution_id"] := by
    revert hkey
    simp only [requestKeys, mem_cons, not_mem_nil, or_false]
    rintro (rfl | rfl | rfl | rfl | rfl | rfl) <;> decide
  have hitem : (sided rt (identified rt loop)).item key =
      taken (requestOf payload) payload key := by
    rw [item, Dict.getD, get?_sided hside, get?_identified hidentified, hget, if_pos hkey]
    rfl
  rw [hitem, taken_or]

theorem normalized_item {key : String} (hkey : key ∉ requestKeys)
    (hidentified : key ∉ ["order_no", "original_order_no", "execution_id"]) :
    data.item key = payload.item key := by
  obtain ⟨loop, hloop, rfl⟩ := map_eq_some_iff.mp h
  have hget := (takeKeys_eq (requestOf payload) (by decide) payload).2 loop hloop key
  have hside : key ≠ "side" := fun heq => hkey (heq ▸ by decide)
  refine item_congr ?_
  rw [get?_sided hside, get?_identified hidentified, hget, if_neg hkey]

theorem normalized_side :
    textOr rt data "side" =
      Text.upper (if lacks payload "side" then textOr rt (requestOf payload) "side"
        else textOr rt payload "side") := by
  obtain ⟨loop, hloop, rfl⟩ := map_eq_some_iff.mp h
  have hget := (takeKeys_eq (requestOf payload) (by decide) payload).2 loop hloop "side"
  have hitem : (identified rt loop).item "side" = taken (requestOf payload) payload "side" := by
    rw [item, Dict.getD, get?_identified (by decide), hget, if_pos (by decide)]
    rfl
  rw [textOr_sided, textOr, hitem, taken_or]
  split
  · rfl
  · rfl

theorem normalized_orderNo : textOr rt data "order_no" = orderNo rt payload := by
  obtain ⟨loop, hloop, rfl⟩ := map_eq_some_iff.mp h
  have hget := (takeKeys_eq (requestOf payload) (by decide) payload).2 loop hloop
  have hkept : ∀ key, key ∉ requestKeys → loop.item key = payload.item key := by
    intro key hkey
    exact item_congr (by rw [hget, if_neg hkey])
  have hitem : (sided rt (identified rt loop)).item "order_no" = .str (orderNo rt loop) := by
    rw [item, Dict.getD, get?_sided (by decide), get?_identified_order_no]
    rfl
  rw [textOr, hitem, str_or, orderNo, orderNo, mappingUnder, mappingUnder,
    hkept _ (by decide), hkept _ (by decide), hkept _ (by decide)]

end

end Normalised

/-! ## The executions of the two paths -/

section Executions

variable {rt : Runtime} {payload : Fields}

/-- What `from_dict` reads of a payload. -/
structure Reads (rt : Runtime) (payload : Fields) (e : BrokerExecutionEvent) : Prop where
  quantity : intOr payload "quantity" = some e.quantity
  price : intOr payload "price" = some e.price
  filledQuantity : intOr payload "filled_quantity" = some e.filledQuantity
  remainingQuantity : intOr payload "remaining_quantity" = some e.remainingQuantity
  raw : fieldsOr payload "raw" ≠ none
  code : e.code = textOr rt payload "code"
  orderNo : e.orderNo = textOr rt payload "order_no"
  side : e.side = textOr rt payload "side"
  commandId : e.commandId = textOr rt payload "command_id"
  idempotencyKey : e.idempotencyKey = textOr rt payload "idempotency_key"

theorem reads_of_some {e : BrokerExecutionEvent} (h : executionOf rt payload = some e) :
    Reads rt payload e := by
  unfold executionOf Wire.BrokerExecutionEvent.fromDict at h
  obtain ⟨wire, hwire, rfl⟩ := map_eq_some_iff.mp h
  obtain ⟨quantity, hquantity, hwire⟩ := bind_eq_some_iff.mp hwire
  obtain ⟨price, hprice, hwire⟩ := bind_eq_some_iff.mp hwire
  obtain ⟨filled, hfilled, hwire⟩ := bind_eq_some_iff.mp hwire
  obtain ⟨remaining, hremaining, hwire⟩ := bind_eq_some_iff.mp hwire
  obtain ⟨raw, hraw, hwire⟩ := bind_eq_some_iff.mp hwire
  obtain rfl := some.inj hwire
  exact ⟨hquantity, hprice, hfilled, hremaining, by rw [hraw]; simp, rfl, rfl, rfl, rfl, rfl⟩

theorem some_of_reads {quantity price filled remaining : Int}
    (hquantity : intOr payload "quantity" = some quantity)
    (hprice : intOr payload "price" = some price)
    (hfilled : intOr payload "filled_quantity" = some filled)
    (hremaining : intOr payload "remaining_quantity" = some remaining)
    (hraw : fieldsOr payload "raw" ≠ none) : ∃ e, executionOf rt payload = some e := by
  obtain ⟨raw, hraw⟩ := ne_none_iff_exists'.mp hraw
  unfold executionOf Wire.BrokerExecutionEvent.fromDict
  rw [hquantity, hprice, hfilled, hremaining, hraw]
  exact ⟨_, rfl⟩

end Executions

end TradingCore.Orders
