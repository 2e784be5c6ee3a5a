import TradingCore.Base.Data

/-!
# Wire models

The messages between Core and the Gateway with all their fields, and their `to_dict` and
`from_dict` (`trading/broker/models.py`). `from_dict` is `none` where the code raises an error: a
number that `int` does not read, a dictionary that is none.
-/

namespace TradingCore.Broker.Wire

open Base Dict Data

/-- What the models take from their surroundings: how containers are printed, a new message id for
a prefix, and the current time. -/
structure Runtime where
  repr : Data → String
  newMessageId : String → String
  utcTimestamp : String

/-! ## Reading fields -/

section Reading

variable (rt : Runtime) (data : Fields)

/-- `str(data.get(key) or default)`. -/
def textOr (key : String) (default : String := "") : String :=
  ((data.item key).or (.str default)).text rt.repr

/-- `int(data.get(key) or 0)`. -/
def intOr (key : String) : Option Int := ((data.item key).or (.int 0)).int?

/-- `dict(data.get(key) or {})`. -/
def fieldsOr (key : String) : Option Fields := ((data.item key).or (.dict [])).fields?

end Reading

/-! ## Orders -/

structure BrokerOrderRequest where
  account : String
  code : String
  quantity : Int
  price : Int
  side : String
  tag : String := ""
  orderType : Int := 0
  hoga : String := "00"
  originalOrderNo : String := ""
  commandId : String := ""
  idempotencyKey : String := ""
  metadata : Fields := empty

def BrokerOrderRequest.fromDict (rt : Runtime) (data : Fields) : Option BrokerOrderRequest := do
  let quantity ← intOr data "quantity"
  let price ← intOr data "price"
  let orderType ← intOr data "order_type"
  let metadata ← fieldsOr data "metadata"
  some
    { account := textOr rt data "account"
      code := textOr rt data "code"
      quantity, price
      side := textOr rt data "side"
      tag := textOr rt data "tag"
      orderType
      hoga := textOr rt data "hoga" "00"
      originalOrderNo := textOr rt data "original_order_no"
      commandId := textOr rt data "command_id"
      idempotencyKey := textOr rt data "idempotency_key"
      metadata }

def BrokerOrderRequest.toDict (m : BrokerOrderRequest) : Fields where
  entries :=
    [("account", .str m.account), ("code", .str m.code), ("quantity", .int m.quantity),
     ("price", .int m.price), ("side", .str m.side), ("tag", .str m.tag),
     ("order_type", .int m.orderType), ("hoga", .str m.hoga),
     ("original_order_no", .str m.originalOrderNo), ("command_id", .str m.commandId),
     ("idempotency_key", .str m.idempotencyKey), ("metadata", (ofFields m.metadata).plain)]
  nodup := by simp

structure BrokerOrderResult where
  ok : Bool
  code : Int
  message : String
  request : BrokerOrderRequest
  orderNo : String := ""
  commandId : String := ""
  idempotencyKey : String := ""
  raw : Fields := empty

def BrokerOrderResult.fromDict (rt : Runtime) (data : Fields) : Option BrokerOrderResult := do
  let request ← BrokerOrderRequest.fromDict rt (← fieldsOr data "request")
  let code ← ((data.getD "code" (data.getD "result_code" (.int 0))).or (.int 0)).int?
  let raw ← fieldsOr data "raw"
  some
    { ok := (data.item "ok").truthy
      code
      message := textOr rt data "message"
      request
      orderNo := textOr rt data "order_no"
      commandId := textOr rt data "command_id" request.commandId
      idempotencyKey := textOr rt data "idempotency_key" request.idempotencyKey
      raw }

def BrokerOrderResult.toDict (m : BrokerOrderResult) : Fields where
  entries :=
    [("ok", .leaf (.bool m.ok)), ("code", .int m.code), ("message", .str m.message),
     ("request", .ofFields m.request.toDict), ("order_no", .str m.orderNo),
     ("command_id", .str m.commandId), ("idempotency_key", .str m.idempotencyKey),
     ("raw", (ofFields m.raw).plain)]
  nodup := by simp

structure BrokerExecutionEvent where
  code : String
  orderNo : String
  side : String
  quantity : Int
  price : Int
  filledQuantity : Int
  remainingQuantity : Int
  tag : String := ""
  account : String := ""
  executionId : String := ""
  commandId : String := ""
  idempotencyKey : String := ""
  timestamp : String
  raw : Fields := empty

def BrokerExecutionEvent.fromDict (rt : Runtime) (data : Fields) : Option BrokerExecutionEvent := do
  let quantity ← intOr data "quantity"
  let price ← intOr data "price"
  let filledQuantity ← intOr data "filled_quantity"
  let remainingQuantity ← intOr data "remaining_quantity"
  let raw ← fieldsOr data "raw"
  some
    { code := textOr rt data "code"
      orderNo := textOr rt data "order_no"
      side := textOr rt data "side"
      quantity, price, filledQuantity, remainingQuantity
      tag := textOr rt data "tag"
      account := textOr rt data "account"
      executionId := textOr rt data "execution_id"
      commandId := textOr rt data "command_id"
      idempotencyKey := textOr rt data "idempotency_key"
      timestamp := textOr rt data "timestamp" rt.utcTimestamp
      raw }

def BrokerExecutionEvent.toDict (m : BrokerExecutionEvent) : Fields where
  entries :=
    [("code", .str m.code), ("order_no", .str m.orderNo), ("side", .str m.side),
     ("quantity", .int m.quantity), ("price", .int m.price),
     ("filled_quantity", .int m.filledQuantity), ("remaining_quantity", .int m.remainingQuantity),
     ("tag", .str m.tag), ("account", .str m.account), ("execution_id", .str m.executionId),
     ("command_id", .str m.commandId), ("idempotency_key", .str m.idempotencyKey),
     ("timestamp", .str m.timestamp), ("raw", (ofFields m.raw).plain)]
  nodup := by simp

/-! ## Conditions -/

structure BrokerConditionEvent where
  conditionName : String
  code : String
  conditionIndex : Int := -1
  eventType : String := "include"
  source : String := "condition"
  strategyProfile : String := ""
  purpose : String := ""
  timestamp : String := ""

def BrokerConditionEvent.fromDict (rt : Runtime) (data : Fields) : Option BrokerConditionEvent := do
  let conditionIndex ← ((data.getD "condition_index" (.int (-1))).or (.int (-1))).int?
  some
    { conditionName := textOr rt data "condition_name"
      code := textOr rt data "code"
      conditionIndex
      eventType := textOr rt data "event_type" "include"
      source := textOr rt data "source" "condition"
      strategyProfile := textOr rt data "strategy_profile"
      purpose := textOr rt data "purpose"
      timestamp := textOr rt data "timestamp" rt.utcTimestamp }

def BrokerConditionEvent.toDict (m : BrokerConditionEvent) : Fields where
  entries :=
    [("condition_name", .str m.conditionName), ("code", .str m.code),
     ("condition_index", .int m.conditionIndex), ("event_type", .str m.eventType),
     ("source", .str m.source), ("strategy_profile", .str m.strategyProfile),
     ("purpose", .str m.purpose), ("timestamp", .str m.timestamp)]
  nodup := by simp

/-! ## Inquiries -/

structure BrokerTrRequest where
  rqName : String
  trCode : String
  screenNo : String
  inputs : Dict String String := empty
  prevNext : Int := 0
  requestId : String := ""
  commandId : String := ""

def BrokerTrRequest.fromDict (rt : Runtime) (data : Fields) : Option BrokerTrRequest := do
  let inputs ← fieldsOr data "inputs"
  let prevNext ← intOr data "prev_next"
  some
    { rqName := textOr rt data "rq_name"
      trCode := textOr rt data "tr_code"
      screenNo := textOr rt data "screen_no"
      inputs := inputs.mapVals fun _ value => value.text rt.repr
      prevNext
      requestId := textOr rt data "request_id"
      commandId := textOr rt data "command_id" }

def BrokerTrRequest.toDict (m : BrokerTrRequest) : Fields where
  entries :=
    [("rq_name", .str m.rqName), ("tr_code", .str m.trCode), ("screen_no", .str m.screenNo),
     ("inputs", .ofFields (m.inputs.mapVals fun _ => str)), ("prev_next", .int m.prevNext),
     ("request_id", .str m.requestId), ("command_id", .str m.commandId)]
  nodup := by simp

structure BrokerTrResponse where
  rqName : String
  trCode : String
  recordName : String := ""
  prevNext : String := ""
  rows : List Fields := []
  errorCode : String := ""
  message : String := ""
  requestId : String := ""
  timestamp : String

def BrokerTrResponse.fromDict (rt : Runtime) (data : Fields) : Option BrokerTrResponse := do
  let items ← ((data.item "rows").or (.list [])).items?
  let rows ← items.mapM fields?
  some
    { rqName := textOr rt data "rq_name"
      trCode := textOr rt data "tr_code"
      recordName := textOr rt data "record_name"
      prevNext := textOr rt data "prev_next"
      rows
      errorCode := textOr rt data "error_code"
      message := textOr rt data "message"
      requestId := textOr rt data "request_id"
      timestamp := textOr rt data "timestamp" rt.utcTimestamp }

def BrokerTrResponse.toDict (m : BrokerTrResponse) : Fields where
  entries :=
    [("rq_name", .str m.rqName), ("tr_code", .str m.trCode), ("record_name", .str m.recordName),
     ("prev_next", .str m.prevNext), ("rows", (list (m.rows.map ofFields)).plain),
     ("error_code", .str m.errorCode), ("message", .str m.message),
     ("request_id", .str m.requestId), ("timestamp", .str m.timestamp)]
  nodup := by simp

/-! ## Envelopes -/

structure GatewayEvent where
  type : String
  payload : Fields := empty
  eventId : String
  requestId : String := ""
  timestamp : String
  source : String := "kiwoom_gateway"
  commandId : String := ""
  idempotencyKey : String := ""

def GatewayEvent.fromDict (rt : Runtime) (data : Fields) : Option GatewayEvent := do
  let payload ← fieldsOr data "payload"
  some
    { type := textOr rt data "type"
      payload
      eventId := textOr rt data "event_id" (rt.newMessageId "evt")
      requestId := textOr rt data "request_id"
      timestamp := textOr rt data "timestamp" rt.utcTimestamp
      source := textOr rt data "source" "kiwoom_gateway"
      commandId := textOr rt data "command_id"
      idempotencyKey := textOr rt data "idempotency_key" }

def GatewayEvent.toDict (m : GatewayEvent) : Fields where
  entries :=
    [("type", .str m.type), ("payload", (ofFields m.payload).plain),
     ("event_id", .str m.eventId), ("request_id", .str m.requestId),
     ("timestamp", .str m.timestamp), ("source", .str m.source), ("command_id", .str m.commandId),
     ("idempotency_key", .str m.idempotencyKey)]
  nodup := by simp

structure GatewayCommand where
  type : String
  payload : Fields := empty
  commandId : String
  requestId : String := ""
  timestamp : String
  source : String := "core"
  idempotencyKey : String := ""

def GatewayCommand.fromDict (rt : Runtime) (data : Fields) : Option GatewayCommand := do
  let payload ← fieldsOr data "payload"
  some
    { type := textOr rt data "type"
      payload
      commandId := textOr rt data "command_id" (rt.newMessageId "cmd")
      requestId := textOr rt data "request_id"
      timestamp := textOr rt data "timestamp" rt.utcTimestamp
      source := textOr rt data "source" "core"
      idempotencyKey := textOr rt data "idempotency_key" }

def GatewayCommand.toDict (m : GatewayCommand) : Fields where
  entries :=
    [("type", .str m.type), ("payload", (ofFields m.payload).plain),
     ("command_id", .str m.commandId), ("request_id", .str m.requestId),
     ("timestamp", .str m.timestamp), ("source", .str m.source),
     ("idempotency_key", .str m.idempotencyKey)]
  nodup := by simp

end TradingCore.Broker.Wire
