import TradingCore.LiveSim.CommandAnswers
import TradingCore.Orders.EventWrites

/-!
# The two paths of an order event

The Gateway's executions, order results and answers to commands reach the order tables on two
paths. The direct one, `_persist_gateway_event` of `trading_app/api.py`, books an execution or a
result in the LIVE_SIM ledger and calls the reconciler itself. The other one reads the event back
from the event log, decodes it with `GatewayEventCodec` and hands it to
`OrderLifecycleEventConsumer.dispatch` (`trading_app/gateway_event_consumer.py`).

Both work on one database; the positions of the reconciler and of the LIVE_SIM ledger are rows of
one table. What the command queue and the audit rows record of an answer is left out, but for the
status that the audit writes to an order of the LIVE_SIM ledger.
-/

namespace TradingCore.Orders

open Base

/-! ## The event -/

/-- The types of an order event. -/
inductive OrderEventType
  | executionEvent
  | orderResult
  | commandAck
  | commandFailed
deriving DecidableEq

/-- `order_result.request`, as far as the codec reads it. -/
structure OrderRequest where
  account : String := ""
  code : String := ""
  side : String := ""
  quantity : Int := 0
  price : Int := 0
  idempotencyKey : String := ""

/-- The payload of an order event as it arrives. The inherited keys are those that a
normalised payload has; a text that is missing is empty. -/
structure GatewayPayload extends OrderPayload where
  /-- Are `quantity` and `price` missing or empty? -/
  lacksQuantity : Bool := false
  lacksPrice : Bool := false
  /-- Are the keys `remaining_quantity` and `remaining_qty` there? -/
  hasRemainingQuantity : Bool := false
  hasRemainingQty : Bool := false
  brokerOrderId : String := ""
  origOrderNo : String := ""
  fillId : String := ""
  chejanId : String := ""
  executionNo : String := ""
  /-- the key `체결번호` -/
  executionNumber : String := ""
  brokerEventKey : String := ""
  purpose : String := ""
  /-- `result_code` of the payload itself -/
  ownResultCode : Int := 0
  request : OrderRequest := {}
  timestamp : String := ""
  /-- the account that `raw` names -/
  rawAccount : String := ""
  orderMode : Option String := none
  originalOrderId : Option String := none
  /-- What `BrokerOrderResult.from_dict` reads: the payload of a result, the `order_result`
  of an acknowledgement if it is a mapping. -/
  submission : Option LiveSim.BrokerOrderResult := none

/-- `GatewayEvent`. Its id is never empty: one that has none is given a new one. -/
structure GatewayOrderEvent where
  type : OrderEventType
  eventId : String
  commandId : String := ""
  payload : GatewayPayload := {}
  eventId_ne : eventId ≠ "" := by decide

/-! ## The codec -/

namespace GatewayPayload

variable (payload : GatewayPayload)

/-- `_execution_id`. -/
def executionIdText : String :=
  orText payload.executionId (orText payload.fillId (orText payload.chejanId
    (orText payload.executionNo payload.executionNumber)))

/-- `_order_no`. -/
def orderNoText : String :=
  orText payload.orderNo (orText payload.brokerOrderId payload.orderResult.orderNo)

/-- `_remaining_quantity`. -/
def remainingText : Int :=
  if payload.hasRemainingQuantity then max 0 payload.remainingQuantity
  else if payload.hasRemainingQty then max 0 payload.remainingQty
  else
    let quantity := orInt payload.quantity payload.orderQty
    if 0 < quantity then max 0 (quantity - orInt payload.filledQuantity payload.filledQty)
    else 0

/-- `_normalized_payload`. -/
def normalized : OrderPayload :=
  { payload.toOrderPayload with
    account := orText payload.account payload.request.account
    code := orText payload.code payload.request.code
    side := Text.upper (orText payload.side payload.request.side)
    quantity := if payload.lacksQuantity then payload.request.quantity else payload.quantity
    price := if payload.lacksPrice then payload.request.price else payload.price
    idempotencyKey := orText payload.idempotencyKey payload.request.idempotencyKey
    orderNo := payload.orderNoText
    originalOrderNo := orText payload.originalOrderNo payload.origOrderNo
    executionId := payload.executionIdText }

end GatewayPayload

def orderCommandTypes : List String := ["send_order", "cancel_order", "modify_order"]

/-- The text of a canonical type, as far as a key names it. -/
def CanonicalType.text : CanonicalType → String
  | .commandAck => "COMMAND_ACK"
  | .commandFailed => "COMMAND_FAILED"
  | .orderAccepted => "ORDER_ACCEPTED"
  | .orderRejected => "ORDER_REJECTED"
  | .orderCancelAccepted => "ORDER_CANCEL_ACCEPTED"
  | .orderCancelled => "ORDER_CANCELLED"
  | _ => ""

namespace GatewayOrderEvent

variable (event : GatewayOrderEvent)

def commandPayload : GatewayPayload :=
  { event.payload with commandId := orText event.payload.commandId event.commandId }

/-- The canonical type of `_decode_command_event`. -/
def commandType : CanonicalType :=
  let payload := event.commandPayload
  let resultCode := orInt payload.ownResultCode (payload.orderResult.resultCode.getD 0)
  if event.type ≠ .commandAck then .commandFailed
  else if Text.upper payload.status = "FAILED" ∨ Text.upper payload.status = "REJECTED" ∨
      resultCode ≠ 0 then
    if payload.commandType ∈ orderCommandTypes then .orderRejected else .commandFailed
  else if payload.commandType = "cancel_order" ∧ payload.orderNoText ≠ "" then
    .orderCancelAccepted
  else if (payload.commandType = "send_order" ∨ payload.commandType = "modify_order") ∧
      payload.orderNoText ≠ "" then .orderAccepted
  else .commandAck

/-- The canonical type of `decode`. -/
def canonicalType : CanonicalType :=
  if event.payload.purpose = "broker_reconcile" then .ignored
  else
    match event.type with
    | .commandAck | .commandFailed => event.commandType
    | .executionEvent =>
        if event.commandPayload.remainingText ≤ 0 then .orderFilled else .orderPartiallyFilled
    | .orderResult => .ignored

def canonicalDedupeKey (canonicalType : CanonicalType) (sourceEventId : String) : String :=
  let payload := event.commandPayload.normalized
  let brokerEventKey := event.payload.brokerEventKey
  if canonicalType ∈ fillTypes ∧ brokerEventKey ≠ "" then "kiwoom-fill:" ++ brokerEventKey
  else if canonicalType ∈ fillTypes ∧ payload.executionId ≠ "" then
    "fill:" ++ payload.account ++ ":" ++ payload.orderNo ++ ":" ++ payload.executionId
  else if canonicalType ∉ fillTypes ∧ brokerEventKey ≠ "" then
    "kiwoom-order:" ++ brokerEventKey
  else if canonicalType ∉ fillTypes ∧ payload.commandId ≠ "" then
    "order-command:" ++ payload.commandId ++ ":" ++
      orText payload.status canonicalType.text ++ ":" ++ payload.orderNo
  else "source:" ++ sourceEventId

/-- `GatewayEventCodec.decode`. The event log knows the event as `sourceEventId`. -/
def decode (sourceEventId : String) : CanonicalGatewayEvent where
  canonicalType := event.canonicalType
  payload := event.commandPayload.normalized
  sourceEventId := orText sourceEventId event.eventId
  dedupeKey := event.canonicalDedupeKey event.canonicalType (orText sourceEventId event.eventId)

end GatewayOrderEvent

/-! ## The tables -/

/-- The values of `OrderIntentStatus`. -/
inductive OrderIntentStatus
  | created
  | intentCreated
  | riskApproved
  | riskRejected
  | localOrderCreated
  | commandBlockedObserveOnly
  | commandQueued
  | commandAcked
  | commandRejected
  | partiallyFilled
  | filled
  | cancelRequested
  | cancelled
  | expired
  | failed

/-- The status that the reconciler gives to the intent of an order that it saves. -/
def ManagedOrderStatus.ofIntent : ManagedOrderStatus → OrderIntentStatus
  | .cancelled => .cancelled
  | .reconcileRequired => .failed
  | .rejectedByGateway => .commandRejected
  | .filled => .filled
  | .partiallyFilled => .partiallyFilled
  | _ => .commandAcked

/-- The columns of `live_sim_positions` that the LIVE_SIM ledger tells apart more finely than
the reconciler. -/
structure PositionColumns where
  candidateInstanceId : String := ""
  status : LiveSim.LiveSimPositionStatus := .opened

/-- The tables behind both paths. `intents` holds the status of the intents, the only column
that changes here besides the copy of the last message; `intentIds` is the column `intent_id`
of the managed orders. The rows of `live_sim_positions` are `liveSimPositions`, with their
other columns in `columns`. -/
structure GatewayStore extends Database where
  intentIds : Dict Nat Nat := Dict.empty
  intents : Dict Nat OrderIntentStatus := Dict.empty
  columns : Dict String PositionColumns := Dict.empty
  liveSimOrders : Dict String LiveSim.LiveSimOrder := Dict.empty
  fills : List LiveSim.LiveSimFill := []

namespace GatewayStore

variable (s : GatewayStore)

/-! ## What the reconciler writes -/

/-- `_update_intent_status` for the intent of an order. -/
def updateIntentStatus (intentIds : Dict Nat Nat) (intents : Dict Nat OrderIntentStatus)
    (id : Nat) (status : OrderIntentStatus) : Dict Nat OrderIntentStatus :=
  match intentIds.get? id with
  | none => intents
  | some intentId => if intents.contains intentId then intents.set intentId status else intents

/-- The other columns of the position row that the reconciler saves. -/
def savedColumns (record : LiveSimPosition) (old : Option PositionColumns) : PositionColumns where
  candidateInstanceId :=
    (old.map (·.candidateInstanceId)).getD
      (match record.candidateInstanceId with
        | none | some 0 => ""
        | some id => toString id)
  status := if record.status = .closed then .closed else .opened

/-- Carry out a write of the reconciler: the order with its intent, or the position. -/
def commit (write : Write) : GatewayStore :=
  { s with
    toDatabase := s.toDatabase.commit write
    intents :=
      match write with
      | .managedOrder id order =>
          updateIntentStatus s.intentIds s.intents id order.status.ofIntent
      | _ => s.intents
    columns :=
      match write with
      | .liveSimPosition positionId record => s.columns.upsert positionId (savedColumns record)
      | _ => s.columns }

def commitAll (writes : List Write) : GatewayStore := writes.foldl commit s

/-! ## What the LIVE_SIM ledger writes -/

def book : LiveSim.Ledger where
  orders := s.liveSimOrders
  fills := s.fills
  positions := s.liveSimPositions.mapVals fun positionId row =>
    { candidateInstanceId := (s.columns.getD positionId {}).candidateInstanceId
      code := row.code
      accountIdMasked := LiveSim.maskAccount row.account
      entryQty := row.entryQty
      currentQty := row.currentQty
      realizedQty := row.realizedQty
      status := (s.columns.getD positionId {}).status }

/-- `round` of a quotient of integers, to the even one of two equally near. -/
def roundDiv (a b : Int) : Int :=
  let q := a / b
  let r := 2 * (a % b)
  if r < b ∨ (r = b ∧ q % 2 = 0) then q else q + 1

/-- The position row that the LIVE_SIM ledger saves, at the price of the fill. -/
def bookedRow (fillPrice : Int) (record : LiveSim.LiveSimPosition) (old : Option LiveSimPosition) :
    LiveSimPosition :=
  let before := old.getD
    { candidateInstanceId := none, code := record.code, name := "",
      account := record.accountIdMasked, entryQty := 0, entryAvgPrice := 0, currentQty := 0,
      realizedQty := 0, status := .opened, themeId := "", themeName := "", lastOrderId := 0 }
  { before with
    entryQty := record.entryQty
    currentQty := record.currentQty
    realizedQty := record.realizedQty
    status := if record.status = .closed then .closed else .opened
    entryAvgPrice :=
      if before.currentQty < record.currentQty then
        if before.currentQty = 0 then fillPrice
        else roundDiv (before.entryAvgPrice * before.currentQty +
          fillPrice * (record.currentQty - before.currentQty)) record.currentQty
      else before.entryAvgPrice }

def commitBook (fillPrice : Int) (s : GatewayStore) (write : LiveSim.Write) : GatewayStore :=
  match write with
  | .fill _ => { s with fills := (s.book.commit write).fills }
  | .order orderIntentId order =>
      { s with liveSimOrders := s.liveSimOrders.set orderIntentId order }
  | .position positionId record =>
      { s with
        liveSimPositions := s.liveSimPositions.upsert positionId (bookedRow fillPrice record)
        columns := s.columns.set positionId
          { candidateInstanceId := record.candidateInstanceId, status := record.status } }
  | .audit => s

/-- `save_execution`, as far as these tables are concerned. -/
def saveExecution (execution : LiveSim.ExecutionEvent) : GatewayStore :=
  (s.book.executionWrites execution).foldl (commitBook (max 0 execution.price)) s

/-- `save_order_result`, as far as these tables are concerned. -/
def saveOrderResult (result : LiveSim.BrokerOrderResult) : GatewayStore :=
  (s.book.resultWrites result).foldl (commitBook 0) s

/-! ## The two paths -/

def handleCommandAck (payload : OrderPayload) : GatewayStore :=
  s.commitAll (s.toLedger.handleCommandAck payload).2

def handleExecution (execution : BrokerExecutionEvent) : GatewayStore :=
  s.commitAll (s.toLedger.handleExecution execution).2

/-- The execution that `save_execution` is given. A message without a time is given the
time `now`. -/
def executionOf (payload : GatewayPayload) (now : String) : LiveSim.ExecutionEvent where
  toBrokerExecutionEvent := .fromDict payload.toOrderPayload
  timestamp := orText payload.timestamp now
  rawAccount := payload.rawAccount

/-- The answer that the audit is given for an event. `known` is what the command queue has of
the command. -/
def answerOf (event : GatewayOrderEvent) (known : Option LiveSim.KnownCommand) :
    LiveSim.CommandAnswer where
  type := if event.type = .commandAck then .commandAck else .commandFailed
  commandId := event.commandId
  payload :=
    { commandId := event.payload.commandId
      commandType := event.payload.commandType
      status := event.payload.status
      orderMode := event.payload.orderMode
      originalOrderId := event.payload.originalOrderId
      orderResult := event.payload.submission }
  known := known

/-- `_append_live_sim_command_audit_event`, as far as these tables are concerned. -/
def auditAnswer (answer : LiveSim.CommandAnswer) : GatewayStore :=
  (s.book.auditWrites answer).foldl (commitBook 0) s

def failure (event : GatewayOrderEvent) : OrderPayload :=
  { event.commandPayload.toOrderPayload with status := "FAILED" }

def persistGatewayEvent (event : GatewayOrderEvent) (now : String)
    (known : Option LiveSim.KnownCommand) : GatewayStore :=
  let payload := event.payload
  match event.type with
  | .executionEvent =>
      (s.saveExecution (executionOf payload now)).handleExecution (.fromDict payload.toOrderPayload)
  | .orderResult =>
      match payload.submission with
      | some result => s.saveOrderResult result
      | none => s
  | .commandAck =>
      let audited := s.auditAnswer (answerOf event known)
      let saved := match payload.submission with
        | some result =>
            if payload.commandType = "send_order" then audited.saveOrderResult result
            else audited
        | none => audited
      saved.handleCommandAck payload.toOrderPayload
  | .commandFailed =>
      if event.commandPayload.commandId = "" then s else s.handleCommandAck (failure event)

/-- `OrderLifecycleEventConsumer.dispatch` of the event. -/
def dispatch (config : OrderConsumerConfig) (event : GatewayOrderEvent)
    (sourceEventId today : String) : GatewayStore :=
  s.commitAll (s.toDatabase.dispatchWrites config (event.decode sourceEventId) today)

end GatewayStore

/-! ## Deliveries -/

/-- How an event is applied. -/
inductive Route
  | direct
  | consumer
  | directThenConsumer
  | consumerThenDirect
deriving DecidableEq

def Route.single (route : Route) : Bool := route = .direct ∨ route = .consumer

/-- An event, the route it takes, its id in the event log, the clock, and what the command
queue has of the command that it answers. -/
structure Delivery where
  event : GatewayOrderEvent
  route : Route
  sourceEventId : String := ""
  now : String := ""
  today : String := ""
  known : Option LiveSim.KnownCommand := none

namespace GatewayStore

variable (config : OrderConsumerConfig) (s : GatewayStore)

def direct (delivery : Delivery) : GatewayStore :=
  s.persistGatewayEvent delivery.event delivery.now delivery.known

def consume (delivery : Delivery) : GatewayStore :=
  s.dispatch config delivery.event delivery.sourceEventId delivery.today

def deliver (delivery : Delivery) : GatewayStore :=
  match delivery.route with
  | .direct => s.direct delivery
  | .consumer => s.consume config delivery
  | .directThenConsumer => (s.direct delivery).consume config delivery
  | .consumerThenDirect => (s.consume config delivery).direct delivery

def machine : Machine GatewayStore Delivery Unit where
  step s delivery := (s.deliver config delivery, ())

end GatewayStore

end TradingCore.Orders
