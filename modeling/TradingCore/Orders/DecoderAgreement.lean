import TradingCore.Orders.ExecutionSearch
import TradingCore.Orders.NormalizedFills

/-!
# When the two decoders of a fill agree

The direct path hands the payload of an event to the reconciler as it is, the codec hands it the
normalised one. On the types of fills the two paths lead to the same fills exactly if normalising
brings the reconciler nothing that it looks at; the message of the broker is a fill to the codec
alone (`decoders_agree_iff`).
-/

namespace TradingCore.Orders

open Base Broker ManagedOrderStatus Dict Text
open Wire hiding GatewayEvent

/-! ## Events that report a fill -/

/-- An event that reports an execution: of a type of fills, or a message of the broker that the
codec takes for one; a positive quantity, and of it from one share to all filled. -/
structure ReportsFill (rt : Runtime) (event : Wire.GatewayEvent) (quantity filled : Int) :
    Prop where
  type : event.type ∈ fillEventTypes ∨
    event.type = "kiwoom_order_chejan" ∧ isFillChejan rt (commandPayload event) = true
  ordered : intOr event.payload "quantity" = some quantity
  executed : intOr event.payload "filled_quantity" = some filled
  ordered_pos : 0 < quantity
  executed_pos : 1 ≤ filled
  executed_le : filled ≤ quantity

/-- Normalising the payload of an event brings nothing that the reconciler looks at: its values can
be looked up, it has its order number and its command unless there are none, and the request has no
code, side, key and price where it lacks them. -/
structure NothingTaken (rt : Runtime) (event : Wire.GatewayEvent) : Prop where
  hashable : ∀ key ∈ requestKeys, hashableUnder event.payload key = true
  orderNo : (event.payload.item "order_no").truthy = true ∨
    firstText rt [event.payload.item "broker_order_id",
      (mappingUnder event.payload "order_result").item "order_no"] = ""
  commandId : (event.payload.item "command_id").truthy = true ∨ event.commandId = ""
  text : ∀ key ∈ ["code", "side", "idempotency_key"], lacks event.payload key = true →
    textOr rt (requestOf event.payload) key = ""
  price : lacks event.payload "price" = true → intOr (requestOf event.payload) "price" = some 0

/-- The events on which the decoders agree. One of a type of fills must not be for the broker
reconciliation, which only the codec leaves alone, and normalising it must bring nothing, unless
the reconciler cannot read its payload anyway. A message of the broker is no fill to the direct
path, so it must be none to the codec, or one that cannot be read. -/
def DecodersAgree (rt : Runtime) (event : Wire.GatewayEvent) : Prop :=
  if event.type ∈ fillEventTypes then
    executionOf rt event.payload = none ∨
      textOr rt event.payload "purpose" ≠ "broker_reconcile" ∧ NothingTaken rt event
  else
    textOr rt event.payload "purpose" = "broker_reconcile" ∨
      (normalizedPayload rt (commandPayload event)).bind (executionOf rt) = none

section Events

variable {rt : Runtime} {event : Wire.GatewayEvent}

variable {key : String} {quantity filled : Int} {data : Fields} {e : BrokerExecutionEvent}

theorem item_commandPayload (h : key ≠ "command_id") :
    (commandPayload event).item key = event.payload.item key := by
  refine item_congr ?_
  unfold commandPayload
  split
  · rw [get?_set, if_neg h]
  · rfl

theorem get?_commandPayload (h : key ≠ "command_id") :
    (commandPayload event).get? key = event.payload.get? key := by
  unfold commandPayload
  split
  · rw [get?_set, if_neg h]
  · rfl

theorem requestOf_commandPayload : requestOf (commandPayload event) = requestOf event.payload := by
  rw [requestOf, requestOf, mappingUnder, mappingUnder, mappingUnder,
    item_commandPayload (by decide), mappingUnder]

theorem lacks_commandPayload (h : key ≠ "command_id") :
    lacks (commandPayload event) key = lacks event.payload key := by
  rw [lacks, lacks, get?_commandPayload h]

theorem textOr_commandPayload :
    textOr rt (commandPayload event) "command_id" =
      if event.commandId ≠ "" ∧ ¬ (event.payload.item "command_id").truthy = true then
        event.commandId
      else textOr rt event.payload "command_id" := by
  unfold commandPayload
  split
  · rw [textOr, Fields.item, getD, get?_set_self]
    exact str_or _
  · rfl

theorem appliedFill_fillType (remaining : Int) (payload : Fields) :
    appliedFill rt (fillType remaining, payload) = executionOf rt payload := by
  unfold fillType
  split
  · rfl
  · rfl

theorem directExecution_eq :
    directExecution rt event =
      if event.type ∈ fillEventTypes then executionOf rt event.payload else none := by
  unfold directExecution mappedFill
  cases hremaining : intOr event.payload "remaining_quantity" with
  | none =>
    have hnone : executionOf rt event.payload = none := by
      cases hexecution : executionOf rt event.payload with
      | none => rfl
      | some e =>
        rw [(reads_of_some hexecution).remainingQuantity] at hremaining
        cases hremaining
    rw [hnone]
    split
    · rfl
    · rfl
  | some remaining =>
    show (if event.type ∈ fillEventTypes then _ else none).bind _ = _
    split
    · exact appliedFill_fillType remaining event.payload
    · rfl

theorem codecExecution_eq (h : ReportsFill rt event quantity filled) :
    codecExecution rt event =
      if textOr rt event.payload "purpose" = "broker_reconcile" then none
      else (normalizedPayload rt (commandPayload event)).bind (executionOf rt) := by
  have hpurpose : textOr rt (commandPayload event) "purpose" =
      textOr rt event.payload "purpose" := by
    rw [textOr, item_commandPayload (by decide), textOr]
  have happly : ((normalizedPayload rt (commandPayload event)).map fun data =>
      (fillType (remainingQuantity (commandPayload event)), data)).bind (appliedFill rt) =
        (normalizedPayload rt (commandPayload event)).bind (executionOf rt) := by
    cases normalizedPayload rt (commandPayload event) with
    | none => rfl
    | some data => exact appliedFill_fillType _ data
  unfold codecExecution decodedFill
  dsimp only
  rw [hpurpose]
  split
  · rfl
  · rcases h.type with hfill | ⟨hchejan, hparsed⟩
    · have hother : event.type ≠ "kiwoom_order_chejan" := fun heq => by
        rw [heq] at hfill
        exact absurd hfill (by decide)
      rw [if_neg hother, if_pos hfill, happly]
    · rw [if_pos hchejan, if_pos hparsed, happly]

/-! ## When the paths agree -/

/-- The payload of the codec is read wherever the payload of the event is, but for the price. -/
theorem reads_normalized (h : ReportsFill rt event quantity filled)
    (hdata : normalizedPayload rt (commandPayload event) = some data) :
    intOr data "quantity" = some quantity ∧ intOr data "filled_quantity" = some filled ∧
      intOr data "remaining_quantity" = intOr event.payload "remaining_quantity" ∧
      fieldsOr data "raw" = fieldsOr event.payload "raw" ∧
      intOr data "price" =
        if lacks event.payload "price" then intOr (requestOf event.payload) "price"
        else intOr event.payload "price" := by
  have hquantity : lacks event.payload "quantity" = false := by
    cases hlack : lacks event.payload "quantity" with
    | false => rfl
    | true =>
      have hzero := h.ordered
      rw [intOr, or_of_lacks hlack] at hzero
      have hpos := h.ordered_pos
      have heq : (0 : Int) = quantity := Option.some.inj hzero
      omega
  refine ⟨?_, ?_, ?_, ?_, ?_⟩
  · rw [intOr, normalized_or hdata (by decide) (by decide), lacks_commandPayload (by decide),
      hquantity, item_commandPayload (by decide)]
    exact h.ordered
  · rw [intOr, normalized_item hdata (by decide) (by decide), item_commandPayload (by decide)]
    exact h.executed
  · rw [intOr, normalized_item hdata (by decide) (by decide), item_commandPayload (by decide)]
    rfl
  · rw [fieldsOr, normalized_item hdata (by decide) (by decide),
      item_commandPayload (by decide)]
    rfl
  · rw [intOr, normalized_or hdata (by decide) (by decide), lacks_commandPayload (by decide),
      requestOf_commandPayload, item_commandPayload (by decide), intOr, intOr]
    split
    · rfl
    · rfl

theorem firstText_cons (candidate : Data) (rest : List Data) :
    firstText rt (candidate :: rest) =
      if candidate.truthy then candidate.text rt.repr else firstText rt rest := by
  show (candidate.or _).text rt.repr = _
  rw [Data.or]
  split
  · rfl
  · rfl

theorem codeColumn_eq_iff (code : String) : codeColumn code = codeColumn "" ↔ code = "" := by
  have hempty : codeColumn "" = "" := by decide +kernel
  rw [hempty]
  refine ⟨fun h => ?_, fun h => by rw [h, hempty]⟩
  rw [codeColumn, orText] at h
  split at h
  · exact h
  · next hclean => exact absurd h hclean

theorem textOr_of_lacks {payload : Fields} (h : lacks payload key = true) :
    textOr rt payload key = "" := by
  rw [textOr, or_of_lacks h]
  rfl

theorem text_same_iff {payload request : Fields} {read : String → String}
    (hread : ∀ s, read s = read "" ↔ s = "") :
    read (textOr rt payload key) = read (if lacks payload key then textOr rt request key
        else textOr rt payload key) ↔
      (lacks payload key = true → textOr rt request key = "") := by
  by_cases hlacks : lacks payload key = true
  · rw [if_pos hlacks, textOr_of_lacks hlacks, eq_comm, hread]
    exact ⟨fun h _ => h, fun h => h hlacks⟩
  · rw [if_neg hlacks]
    exact ⟨fun _ h => absurd h hlacks, fun _ => rfl⟩

theorem orderNo_same_iff (payload : Fields) :
    textOr rt payload "order_no" = orderNo rt payload ↔
      (payload.item "order_no").truthy = true ∨
        firstText rt [payload.item "broker_order_id",
          (mappingUnder payload "order_result").item "order_no"] = "" := by
  rw [orderNo, firstText_cons, textOr, Data.or]
  by_cases htruthy : (payload.item "order_no").truthy = true
  · rw [if_pos htruthy, if_pos htruthy]
    exact ⟨fun _ => Or.inl htruthy, fun _ => rfl⟩
  · rw [if_neg htruthy, if_neg htruthy, eq_comm]
    exact ⟨Or.inr, fun h => h.resolve_left htruthy⟩

theorem commandId_same_iff :
    textOr rt event.payload "command_id" =
        textOr rt (commandPayload event) "command_id" ↔
      (event.payload.item "command_id").truthy = true ∨ event.commandId = "" := by
  rw [textOr_commandPayload]
  by_cases htruthy : (event.payload.item "command_id").truthy = true
  · rw [if_neg fun h => h.2 htruthy]
    exact ⟨fun _ => Or.inl htruthy, fun _ => rfl⟩
  · by_cases hcommand : event.commandId = ""
    · rw [if_neg fun h => h.1 hcommand]
      exact ⟨fun _ => Or.inr hcommand, fun _ => rfl⟩
    · rw [if_pos ⟨hcommand, htruthy⟩, textOr, Data.or, if_neg htruthy]
      exact ⟨fun h => Or.inr h.symm, fun h => (h.resolve_left htruthy).symm⟩

theorem normalizedPayload_commandPayload_eq_none :
    normalizedPayload rt (commandPayload event) = none ↔
      ∃ key ∈ requestKeys, hashableUnder event.payload key = false := by
  rw [normalizedPayload_eq_none]
  have hsame : ∀ key ∈ requestKeys,
      hashableUnder (commandPayload event) key = hashableUnder event.payload key := by
    intro key hkey
    have hne : key ≠ "command_id" := fun heq => by
      rw [heq] at hkey
      exact absurd hkey (by decide)
    rw [hashableUnder, get?_commandPayload hne, hashableUnder]
  constructor
  · rintro ⟨key, hkey, hfalse⟩
    exact ⟨key, hkey, (hsame key hkey).symm.trans hfalse⟩
  · rintro ⟨key, hkey, hfalse⟩
    exact ⟨key, hkey, (hsame key hkey).trans hfalse⟩

section

variable (hdata : normalizedPayload rt (commandPayload event) = some data)
include hdata

theorem textOr_normalized (hkey : key ∈ requestKeys) (hside : key ≠ "side")
    (hcommand : key ≠ "command_id") :
    textOr rt data key =
      if lacks event.payload key then textOr rt (requestOf event.payload) key
      else textOr rt event.payload key := by
  rw [textOr, normalized_or hdata hkey hside, lacks_commandPayload hcommand,
    requestOf_commandPayload, item_commandPayload hcommand]
  split
  · rfl
  · rfl

theorem side_same_iff :
    upper (textOr rt event.payload "side") = upper (textOr rt data "side") ↔
      (lacks event.payload "side" = true → textOr rt (requestOf event.payload) "side" = "") := by
  have hsame : textOr rt (commandPayload event) "side" =
      textOr rt event.payload "side" := by
    rw [textOr, item_commandPayload (by decide), textOr]
  rw [normalized_side hdata, lacks_commandPayload (by decide), requestOf_commandPayload, hsame,
    upper_upper]
  exact text_same_iff fun s => upper_eq_empty

end

theorem price_same_iff (h : ReportsFill rt event quantity filled)
    (hdata : normalizedPayload rt (commandPayload event) = some data) {e' : BrokerExecutionEvent}
    (he : Reads rt event.payload e) (he' : Reads rt data e') :
    e.price = e'.price ↔ (lacks event.payload "price" = true →
      intOr (requestOf event.payload) "price" = some 0) := by
  have hdirect := he.price
  have hcodec := he'.price
  rw [(reads_normalized h hdata).2.2.2.2] at hcodec
  by_cases hlack : lacks event.payload "price" = true
  · rw [if_pos hlack] at hcodec
    rw [intOr, or_of_lacks hlack] at hdirect
    have hzero : (0 : Int) = e.price := Option.some.inj hdirect
    rw [hcodec, Option.some.injEq, ← hzero, eq_comm]
    exact ⟨fun heq _ => heq, fun heq => heq hlack⟩
  · rw [if_neg hlack, hdirect, Option.some.injEq] at hcodec
    exact ⟨fun _ hlack' => absurd hlack' hlack, fun _ => hcodec⟩

theorem sameSearch_normalized (h : ReportsFill rt event quantity filled)
    (hdata : normalizedPayload rt (commandPayload event) = some data) {e' : BrokerExecutionEvent}
    (he : Reads rt event.payload e) (he' : Reads rt data e') :
    SameSearch e e' ∧ e.price = e'.price ↔ NothingTaken rt event := by
  have hhashable : ∀ key ∈ requestKeys, hashableUnder event.payload key = true := by
    intro key hkey
    by_contra hfalse
    have hnone : normalizedPayload rt (commandPayload event) = none :=
      normalizedPayload_commandPayload_eq_none.mpr ⟨key, hkey, Bool.not_eq_true _ ▸ hfalse⟩
    rw [hnone] at hdata
    cases hdata
  have horder : e.orderNo = e'.orderNo ↔ (event.payload.item "order_no").truthy = true ∨
      firstText rt [event.payload.item "broker_order_id",
        (mappingUnder event.payload "order_result").item "order_no"] = "" := by
    rw [he.orderNo, he'.orderNo, normalized_orderNo hdata, ← orderNo_same_iff, orderNo, orderNo,
      mappingUnder, mappingUnder, item_commandPayload (by decide), item_commandPayload (by decide),
      item_commandPayload (by decide)]
  have hcommand : e.commandId = e'.commandId ↔
      (event.payload.item "command_id").truthy = true ∨ event.commandId = "" := by
    have hsame : textOr rt data "command_id" =
        textOr rt (commandPayload event) "command_id" :=
      congrArg (fun d : Data => (d.or (.str "")).text rt.repr)
        (normalized_item hdata (by decide) (by decide))
    rw [he.commandId, he'.commandId, hsame, commandId_same_iff]
  have hside : upper e.side = upper e'.side ↔
      (lacks event.payload "side" = true → textOr rt (requestOf event.payload) "side" = "") := by
    rw [he.side, he'.side]
    exact side_same_iff hdata
  have hcode : codeColumn e.code = codeColumn e'.code ↔
      (lacks event.payload "code" = true → textOr rt (requestOf event.payload) "code" = "") := by
    rw [he.code, he'.code, textOr_normalized hdata (by decide) (by decide) (by decide)]
    exact text_same_iff codeColumn_eq_iff
  have hkey : e.idempotencyKey = e'.idempotencyKey ↔
      (lacks event.payload "idempotency_key" = true →
        textOr rt (requestOf event.payload) "idempotency_key" = "") := by
    rw [he.idempotencyKey, he'.idempotencyKey,
      textOr_normalized hdata (by decide) (by decide) (by decide)]
    exact text_same_iff fun s => Iff.rfl
  have hprice := price_same_iff h hdata he he'
  constructor
  · rintro ⟨hsearch, hsame⟩
    refine ⟨hhashable, horder.mp hsearch.orderNo, hcommand.mp hsearch.commandId, ?_,
      hprice.mp hsame⟩
    intro key hmem
    simp only [List.mem_cons, List.not_mem_nil, or_false] at hmem
    rcases hmem with rfl | rfl | rfl
    · exact hcode.mp hsearch.code
    · exact hside.mp hsearch.side
    · exact hkey.mp hsearch.idempotencyKey
  · intro hnothing
    exact ⟨⟨horder.mpr hnothing.orderNo, hcommand.mpr hnothing.commandId,
      hkey.mpr (hnothing.text _ (by simp)), hcode.mpr (hnothing.text _ (by simp)),
      hside.mpr (hnothing.text _ (by simp))⟩, hprice.mpr hnothing.price⟩

theorem Reads.executes {payload : Fields} (he : Reads rt payload e)
    (hfilled : intOr payload "filled_quantity" = some filled) (hpos : 1 ≤ filled) :
    1 ≤ orInt e.filledQuantity e.quantity := by
  have hsame : e.filledQuantity = filled :=
    Option.some.inj (he.filledQuantity.symm.trans hfilled)
  rw [orInt, if_neg (by omega)]
  omega

theorem execution_shows (he : 1 ≤ orInt e.filledQuantity e.quantity) :
    ∃ (l : Ledger) (id : Nat), (l.afterFill (some e)).fillState id ≠
      (l.afterFill none).fillState id := by
  refine ⟨oneOrder (lookedFor "" "" "" e.code e.side 0 ackedByGateway), 0, ?_⟩
  exact fillState_changes rfl he ((finds_code e _ _ 0).mpr ⟨rfl, Or.inr rfl⟩)

theorem execution_of_normalized (h : ReportsFill rt event quantity filled)
    (hdata : normalizedPayload rt (commandPayload event) = some data)
    (he : executionOf rt data = some e) : ∃ e', executionOf rt event.payload = some e' := by
  obtain ⟨-, -, hremaining, hraw, hprice⟩ := reads_normalized h hdata
  have hreads := reads_of_some he
  rw [hreads.remainingQuantity] at hremaining
  have hraw' : fieldsOr event.payload "raw" ≠ none := hraw ▸ hreads.raw
  by_cases hlack : lacks event.payload "price" = true
  · have hzero : intOr event.payload "price" = some 0 := by
      rw [intOr, or_of_lacks hlack]
      rfl
    exact some_of_reads h.ordered hzero h.executed hremaining.symm hraw'
  · rw [if_neg hlack, hreads.price] at hprice
    exact some_of_reads h.ordered hprice.symm h.executed hremaining.symm hraw'

theorem normalized_of_execution (h : ReportsFill rt event quantity filled)
    (hnothing : NothingTaken rt event) (he : executionOf rt event.payload = some e) :
    ∃ data e', normalizedPayload rt (commandPayload event) = some data ∧
      executionOf rt data = some e' := by
  cases hdata : normalizedPayload rt (commandPayload event) with
  | none =>
    obtain ⟨key, hkey, hfalse⟩ := normalizedPayload_commandPayload_eq_none.mp hdata
    rw [hnothing.hashable key hkey] at hfalse
    cases hfalse
  | some data =>
    obtain ⟨hquantity, hfilled, hremaining, hraw, hprice⟩ := reads_normalized h hdata
    have hreads := reads_of_some he
    rw [hreads.remainingQuantity] at hremaining
    have hraw' : fieldsOr data "raw" ≠ none := hraw ▸ hreads.raw
    obtain ⟨price, hread⟩ : ∃ price, intOr data "price" = some price := by
      rw [hprice]
      by_cases hlack : lacks event.payload "price" = true
      · exact ⟨0, by rw [if_pos hlack, hnothing.price hlack]⟩
      · exact ⟨e.price, by rw [if_neg hlack, hreads.price]⟩
    obtain ⟨e', he'⟩ := some_of_reads hquantity hread hfilled hremaining hraw'
    exact ⟨data, e', rfl, he'⟩

end Events

/-- Do the two paths lead every ledger to the same fills? -/
def SameFills (rt : Runtime) (event : Wire.GatewayEvent) : Prop :=
  ∀ (l : Ledger) (id : Nat), (l.afterFill (codecExecution rt event)).fillState id =
    (l.afterFill (directExecution rt event)).fillState id

section Paths

variable {rt : Runtime} {event : Wire.GatewayEvent} {quantity filled : Int}

section

variable (h : ReportsFill rt event quantity filled)
include h

theorem same_fills_of_executions {data : Fields}
    (hdata : normalizedPayload rt (commandPayload event) = some data) {e e' : BrokerExecutionEvent}
    (he : executionOf rt event.payload = some e) (he' : executionOf rt data = some e') :
    (∀ (l : Ledger) (id : Nat), (l.afterFill (some e')).fillState id =
      (l.afterFill (some e)).fillState id) ↔ NothingTaken rt event := by
  have hreads := reads_of_some he
  have hreads' := reads_of_some he'
  obtain ⟨hquantity, hfilled, hremaining, -, -⟩ := reads_normalized h hdata
  rw [← sameSearch_normalized h hdata hreads hreads']
  constructor
  · intro hsame
    exact sameSearch_of_fills (hreads.executes h.executed h.executed_pos)
      (hreads'.executes hfilled h.executed_pos) fun l id => (hsame l id).symm
  · rintro ⟨hsearch, hprice⟩ l id
    refine (hsearch.fillState hprice ?_ ?_ ?_ l id).symm
    · exact Option.some.inj (hreads.quantity.symm.trans
        (h.ordered.trans (hquantity.symm.trans hreads'.quantity)))
    · exact Option.some.inj (hreads.filledQuantity.symm.trans
        (h.executed.trans (hfilled.symm.trans hreads'.filledQuantity)))
    · exact Option.some.inj (hreads.remainingQuantity.symm.trans
        (hremaining.symm.trans hreads'.remainingQuantity))

theorem same_fills_of_type (htype : event.type ∈ fillEventTypes) :
    SameFills rt event ↔ executionOf rt event.payload = none ∨
      textOr rt event.payload "purpose" ≠ "broker_reconcile" ∧ NothingTaken rt event := by
  rw [SameFills, codecExecution_eq h, directExecution_eq, if_pos htype]
  cases hdirect : executionOf rt event.payload with
  | none =>
    -- what the reconciler cannot read as it is, it cannot read normalised
    refine ⟨fun _ => Or.inl rfl, fun _ l id => ?_⟩
    split
    · rfl
    · cases hcodec : (normalizedPayload rt (commandPayload event)).bind (executionOf rt) with
      | none => rfl
      | some e =>
        obtain ⟨data, hdata, he⟩ := Option.bind_eq_some_iff.mp hcodec
        obtain ⟨e', he'⟩ := execution_of_normalized h hdata he
        rw [hdirect] at he'
        cases he'
  | some e =>
    obtain ⟨l, id, hne⟩ :=
      execution_shows ((reads_of_some hdirect).executes h.executed h.executed_pos)
    by_cases hpurpose : textOr rt event.payload "purpose" = "broker_reconcile"
    · rw [if_pos hpurpose]
      refine ⟨fun hsame => absurd (hsame l id).symm hne, ?_⟩
      rintro (hnone | ⟨hother, -⟩)
      · cases hnone
      · exact absurd hpurpose hother
    · rw [if_neg hpurpose]
      cases hcodec : (normalizedPayload rt (commandPayload event)).bind (executionOf rt) with
      | none =>
        refine ⟨fun hsame => absurd (hsame l id).symm hne, ?_⟩
        rintro (hnone | ⟨-, hnothing⟩)
        · cases hnone
        · obtain ⟨data, e', hdata, he'⟩ := normalized_of_execution h hnothing hdirect
          rw [hdata, Option.bind_some, he'] at hcodec
          cases hcodec
      | some e' =>
        obtain ⟨data, hdata, he'⟩ := Option.bind_eq_some_iff.mp hcodec
        rw [same_fills_of_executions h hdata hdirect he']
        refine ⟨fun hnothing => Or.inr ⟨hpurpose, hnothing⟩, ?_⟩
        rintro (hnone | ⟨-, hnothing⟩)
        · cases hnone
        · exact hnothing

theorem same_fills_of_chejan (htype : event.type ∉ fillEventTypes) :
    SameFills rt event ↔ textOr rt event.payload "purpose" = "broker_reconcile" ∨
      (normalizedPayload rt (commandPayload event)).bind (executionOf rt) = none := by
  rw [SameFills, codecExecution_eq h, directExecution_eq, if_neg htype]
  by_cases hpurpose : textOr rt event.payload "purpose" = "broker_reconcile"
  · rw [if_pos hpurpose]
    exact ⟨fun _ => Or.inl hpurpose, fun _ _ _ => rfl⟩
  · rw [if_neg hpurpose]
    cases hcodec : (normalizedPayload rt (commandPayload event)).bind (executionOf rt) with
    | none => exact ⟨fun _ => Or.inr rfl, fun _ _ _ => rfl⟩
    | some e =>
      obtain ⟨data, hdata, he⟩ := Option.bind_eq_some_iff.mp hcodec
      obtain ⟨l, id, hne⟩ := execution_shows
        ((reads_of_some he).executes (reads_normalized h hdata).2.1 h.executed_pos)
      refine ⟨fun hsame => absurd (hsame l id) hne, ?_⟩
      rintro (hreconcile | hnone)
      · exact absurd hreconcile hpurpose
      · cases hnone

end

end Paths

/-- For every event that reports an execution, the canonical event of the codec and the direct path
lead the reconciler from every ledger to the same status, filled and remaining quantity and price
of every managed order if and only if the decoders agree on the event. -/
theorem decoders_agree_iff (rt : Runtime) (event : Wire.GatewayEvent) (quantity filled : Int)
    (h : ReportsFill rt event quantity filled) :
    (∀ (l : Ledger) (id : Nat), (l.afterFill (codecExecution rt event)).fillState id =
        (l.afterFill (directExecution rt event)).fillState id) ↔
      DecodersAgree rt event := by
  rw [DecodersAgree]
  by_cases htype : event.type ∈ fillEventTypes
  · rw [if_pos htype]
    exact same_fills_of_type h htype
  · rw [if_neg htype]
    exact same_fills_of_chejan h htype

/-! ## Fixed events -/

def quietRuntime : Runtime where
  repr := fun _ => "…"
  newMessageId := fun kind => kind
  utcTimestamp := "1970-01-01T00:00:00+00:00"

def reportedFill : Wire.GatewayEvent where
  type := "execution_event"
  eventId := "evt_1"
  timestamp := "1970-01-01T00:00:00+00:00"
  payload := ofList
    [("code", .str "005930"), ("order_no", .str "M1"), ("side", .str "buy"), ("quantity", .int 10),
     ("price", .int 70000), ("filled_quantity", .int 4)]

def aliasedFill : Wire.GatewayEvent :=
  { reportedFill with
    payload := ofList
      [("broker_order_id", .str "M1"), ("quantity", .int 10), ("price", .int 70000),
       ("filled_quantity", .int 4)] }

def chejanFill : Wire.GatewayEvent :=
  { reportedFill with
    type := "kiwoom_order_chejan"
    payload := ofList
      [("code", .str "005930"), ("order_no", .str "M1"), ("side", .str "buy"),
       ("quantity", .int 10), ("price", .int 70000), ("filled_quantity", .int 4),
       ("remaining_quantity", .int 6), ("event_kind", .str "order_fill"),
       ("execution_id", .str "1")] }

def orderedShares : Ledger :=
  oneOrder
    { lookedFor "M1" "cmd_1" "key" "005930" "buy" 70000 ackedByGateway with
      quantity := 10
      quantity_pos := by decide }

/-- Both decoders lead to the fill of a payload that says all. -/
theorem decoders_agree_on_reported_fill :
    (orderedShares.afterFill (codecExecution quietRuntime reportedFill)).fillState 0 =
      (orderedShares.afterFill (directExecution quietRuntime reportedFill)).fillState 0 := by
  have hreports : ReportsFill quietRuntime reportedFill 10 4 :=
    ⟨Or.inl (by decide), rfl, rfl, by decide, by decide, by decide⟩
  refine (decoders_agree_iff quietRuntime reportedFill 10 4 hreports).mpr ?_ orderedShares 0
  rw [DecodersAgree, if_pos (by decide)]
  refine Or.inr ⟨by decide +kernel, ⟨by decide +kernel, Or.inl (by decide +kernel),
    Or.inr rfl, by decide +kernel, ?_⟩⟩
  intro hlacks
  exact absurd hlacks (by decide +kernel)

/-- The direct path passes over the message of the broker, and does not know the other name of an
order number. -/
theorem direct_path_misses_fills :
    ReportsFill quietRuntime chejanFill 10 4 ∧
      (orderedShares.afterFill (codecExecution quietRuntime chejanFill)).fillState 0 ≠
        (orderedShares.afterFill (directExecution quietRuntime chejanFill)).fillState 0 ∧
      ReportsFill quietRuntime aliasedFill 10 4 ∧
      (orderedShares.afterFill (codecExecution quietRuntime aliasedFill)).fillState 0 ≠
        (orderedShares.afterFill (directExecution quietRuntime aliasedFill)).fillState 0 := by
  refine ⟨⟨Or.inr ⟨rfl, by decide +kernel⟩, rfl, rfl, by decide, by decide, by decide⟩, ?_,
    ⟨Or.inl (by decide), rfl, rfl, by decide, by decide, by decide⟩, ?_⟩
  · decide +kernel
  · decide +kernel

end TradingCore.Orders
