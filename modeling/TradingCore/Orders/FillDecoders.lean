import TradingCore.Broker.WireModels
import TradingCore.Orders.Pipeline

/-!
# The two decoders of a fill

What `GatewayEventCodec` (`trading_app/gateway_event_consumer.py`) and
`OrderManagerRuntimePipeline.apply_gateway_event` (`trading/strategy/order_manager.py`) make of an
event that reports an execution, and the execution that either of them hands to
`ManagedOrderReconciler.handle_execution`. Both read the same payload, a dictionary in which any key
may be missing and any value of any kind; `none` stands for an error, and for an event that is no
fill to the decoder.
-/

namespace TradingCore.Orders

open Base Broker

/-! ## Reading a payload -/

def fillEventTypes : List String := ["order_fill", "execution", "execution_event", "fill"]

def hashable : Data → Bool
  | .list _ | .dict _ => false
  | _ => true

/-- `value in {None, ""}`, for a value that can be looked up. -/
def blank : Data → Bool
  | .leaf .none => true
  | .leaf (.str s) => s = ""
  | _ => false

/-- `_safe_int` with the default nought. -/
def safeInt : Data → Int
  | .leaf v => if blank (.leaf v) then 0 else (v.float?.map truncate).getD 0
  | _ => 0

def mappingUnder (payload : Fields) (key : String) : Fields :=
  (payload.item key).fields?.getD Dict.empty

section Payload

variable (rt : Wire.Runtime) (payload : Fields)

/-- `str(payload.get(key) or payload.get(key') or … or "")`. -/
def firstText (candidates : List Data) : String :=
  (candidates.foldr Data.or (.str "")).text rt.repr

def orderNo : String :=
  firstText rt [payload.item "order_no", payload.item "broker_order_id",
    (mappingUnder payload "order_result").item "order_no"]

def executionId : String :=
  firstText rt [payload.item "execution_id", payload.item "fill_id", payload.item "chejan_id",
    payload.item "execution_no", payload.item "체결번호"]

def remainingQuantity : Int :=
  if payload.contains "remaining_quantity" then max 0 (safeInt (payload.item "remaining_quantity"))
  else if payload.contains "remaining_qty" then max 0 (safeInt (payload.item "remaining_qty"))
  else
    let quantity := safeInt ((payload.item "quantity").or (payload.item "order_qty"))
    let filled := safeInt ((payload.item "filled_quantity").or (payload.item "filled_qty"))
    if 0 < quantity then max 0 (quantity - filled) else 0

/-! ## Normalising -/

/-- The keys that `_normalized_payload` takes from the request of an order result. -/
def requestKeys : List String := ["account", "code", "side", "quantity", "price", "idempotency_key"]

def takeKey (request payload : Fields) (key : String) : Option Fields :=
  match payload.get? key with
  | none => some (payload.set key (request.getD key (.str "")))
  | some value =>
      if hashable value then
        some (if blank value then payload.set key (request.getD key value) else payload)
      else none

/-- `order_result.request`. -/
def requestOf : Fields := mappingUnder (mappingUnder payload "order_result") "request"

/-- The order numbers and the execution that `_normalized_payload` writes behind its loop. -/
def identified (data : Fields) : Fields :=
  let data : Fields := data.set "order_no" (.str (orderNo rt data))
  let data : Fields := data.set "original_order_no"
    (.str (firstText rt [data.item "original_order_no", data.item "orig_order_no"]))
  data.set "execution_id" (.str (executionId rt data))

/-- The side that `_normalized_payload` writes last. -/
def sided (data : Fields) : Fields :=
  if (data.item "side").truthy then
    data.set "side" (.str (Text.upper (Wire.textOr rt data "side")))
  else data

def normalizedPayload : Option Fields :=
  (requestKeys.foldlM (takeKey (requestOf payload)) payload).map fun data =>
    sided rt (identified rt data)

/-! ## The codec -/

/-- The branch of `_decode_kiwoom_order_chejan` that makes a fill of the message. -/
def isFillChejan : Bool :=
  let filled := safeInt ((payload.item "incremental_execution_quantity").or
    (payload.item "execution_quantity"))
  Text.upper (Wire.textOr rt payload "parser_status") ≠ "INVALID" ∧
    Text.lower (Wire.textOr rt payload "event_kind") = "order_fill" ∧
    ((payload.item "execution_id").truthy ∨ 0 < filled)

def fillType (remaining : Int) : CanonicalType :=
  if remaining ≤ 0 then .orderFilled else .orderPartiallyFilled

end Payload

section Events

variable (rt : Wire.Runtime) (event : Wire.GatewayEvent)

/-- The payload with the command of the event, if it names none. -/
def commandPayload : Fields :=
  if event.commandId ≠ "" ∧ ¬ (event.payload.item "command_id").truthy then
    event.payload.set "command_id" (.str event.commandId)
  else event.payload

/-- `GatewayEventCodec.decode` of a fill: its canonical type and its payload. -/
def decodedFill : Option (CanonicalType × Fields) :=
  let payload := commandPayload event
  let fill := (normalizedPayload rt payload).map fun data =>
    (fillType (remainingQuantity payload), data)
  if Wire.textOr rt payload "purpose" = "broker_reconcile" then none
  else if event.type = "kiwoom_order_chejan" then if isFillChejan rt payload then fill else none
  else if event.type ∈ fillEventTypes then fill
  else none

/-! ## The direct path -/

/-- `apply_gateway_event` of a fill: its canonical type and its payload. -/
def mappedFill : Option (CanonicalType × Fields) :=
  -- the table of types is made for every event, and asks for the remaining quantity
  (Wire.intOr event.payload "remaining_quantity").bind fun remaining =>
    if event.type ∈ fillEventTypes then some (fillType remaining, event.payload) else none

/-! ## The reconciler -/

/-- The execution that `handle_execution` makes of a payload. -/
def executionOf (payload : Fields) : Option BrokerExecutionEvent :=
  (Wire.BrokerExecutionEvent.fromDict rt payload).map fun e =>
    { code := e.code
      orderNo := e.orderNo
      side := e.side
      quantity := e.quantity
      price := e.price
      filledQuantity := e.filledQuantity
      remainingQuantity := e.remainingQuantity
      tag := e.tag
      account := e.account
      executionId := e.executionId
      commandId := e.commandId
      idempotencyKey := e.idempotencyKey }

/-- The branch of `apply_canonical_order_event` for a fill: the execution for the reconciler. -/
def appliedFill : CanonicalType × Fields → Option BrokerExecutionEvent
  | (.orderPartiallyFilled, payload) | (.orderFilled, payload) => executionOf rt payload
  | _ => none

def codecExecution : Option BrokerExecutionEvent := (decodedFill rt event).bind (appliedFill rt)

def directExecution : Option BrokerExecutionEvent := (mappedFill event).bind (appliedFill rt)

end Events

/-- The ledger after `handle_execution`, if it is given an execution. -/
def Ledger.afterFill (l : Ledger) : Option BrokerExecutionEvent → Ledger
  | none => l
  | some execution => (l.handleExecution execution).2.foldl (fun l write => write.onLedger l) l

structure FillState where
  status : ManagedOrderStatus
  filledQuantity : Int
  remainingQuantity : Int
  avgFillPrice : Rat
deriving DecidableEq

def Ledger.fillState (l : Ledger) (id : Nat) : Option FillState :=
  (l.managedOrders.get? id).map fun order =>
    { status := order.status
      filledQuantity := order.filledQuantity
      remainingQuantity := order.remainingQuantity
      avgFillPrice := order.avgFillPrice }

end TradingCore.Orders
