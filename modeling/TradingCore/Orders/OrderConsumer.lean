import TradingCore.Base.Replay
import TradingCore.Orders.Pipeline

/-!
# The consumer of order lifecycle events

`OrderLifecycleEventConsumer.dispatch` (`trading_app/gateway_event_consumer.py`) on a
decoded event. It looks for the receipt of the event, applies the event through the
pipeline, updates the broker projections and saves the receipt last. Every one of these
writes is committed on its own, so an attempt can end after any number of them.
-/

namespace TradingCore.Orders

open Base

/-- The fields of `GatewayEventConsumerConfig` that `dispatch` and `_fail_closed` read. -/
structure OrderConsumerConfig where
  orderEnabled : Bool := true
  receiptEnabled : Bool := true
  failClosed : Bool := true

/-- Canonical types that update `broker_order_state`. -/
def projectedTypes : List CanonicalType :=
  [.orderAccepted, .orderPartiallyFilled, .orderFilled, .orderCancelAccepted, .orderCancelled,
    .orderStatusSnapshot]

/-- The row that `_update_projection` hands to `upsert_broker_order_state`. -/
def CanonicalGatewayEvent.orderState (event : CanonicalGatewayEvent) (result : ApplyResult) :
    BrokerOrderState :=
  let payload := event.payload
  { originalOrderNo := payload.originalOrderNo
    commandId := payload.commandId
    code := payload.code
    side := payload.side
    orderQty := orInt payload.orderQty payload.quantity
    filledQty := orInt payload.filledQty (orInt payload.filledQuantity result.filledQuantity)
    remainingQty :=
      orInt payload.remainingQty (orInt payload.remainingQuantity result.remainingQuantity)
    avgFillPrice := orRat payload.avgFillPrice payload.price
    brokerStatus := event.canonicalType
    lastEventId := event.sourceEventId
    details := (payload, result) }

/-- The row that `_update_projection` hands to `upsert_broker_position_state` for one
holding. -/
def CanonicalGatewayEvent.positionState (event : CanonicalGatewayEvent) (item : PositionItem) :
    Write :=
  .brokerPositionState (orText item.account event.payload.account)
    (orText item.code event.payload.code)
    { quantity := orInt item.quantity item.qty
      availableQuantity := orInt item.availableQuantity item.availableQty
      avgPrice := orRat item.avgPrice item.averagePrice
      lastSnapshotId := event.sourceEventId }

def CanonicalGatewayEvent.updateProjection (event : CanonicalGatewayEvent)
    (result : ApplyResult) : List Write :=
  (if event.canonicalType ∈ projectedTypes ∧ event.payload.orderNo ≠ "" then
    [.brokerOrderState event.payload.account event.payload.orderNo (event.orderState result)]
  else []) ++
  (if event.canonicalType ∈ [.balanceSnapshot, .positionSnapshot] then
    (event.payload.positions.getD [event.payload.toPositionItem]).map event.positionState
  else [])

/-- `_result_reconcile_required`. -/
def ApplyResult.needsReconcile (result : ApplyResult) : Bool :=
  result.status = some .reconcileRequired ∨ result.reconcileRequired ∨ ¬ result.matched

def CanonicalGatewayEvent.saveReceipt (event : CanonicalGatewayEvent) (result : ApplyResult) :
    Write :=
  .receipt
    { sourceEventId := event.sourceEventId
      dedupeKey := event.dedupeKey
      canonicalType := event.canonicalType
      managedOrderId := result.orderId
      reconcileRequired := result.needsReconcile }

def Database.hasReceipt (db : Database) (event : CanonicalGatewayEvent) : Bool :=
  (db.findOrderGatewayEventReceipt event.sourceEventId event.dedupeKey).isSome

/-- Does `dispatch` return before it applies the event? -/
def Database.skips (db : Database) (config : OrderConsumerConfig)
    (event : CanonicalGatewayEvent) : Bool :=
  event.isIgnored ∨ ¬ config.orderEnabled ∨ config.receiptEnabled ∧ db.hasReceipt event

def Ledger.applicationWrites (l : Ledger) (event : CanonicalGatewayEvent) (today : String) :
    List Write :=
  let applied := l.applyCanonicalOrderEvent event.canonicalType event.payload today
  applied.2 ++ event.updateProjection applied.1 ++ [event.saveReceipt applied.1]

/-- The writes of `dispatch`. -/
def Database.dispatchWrites (config : OrderConsumerConfig) (event : CanonicalGatewayEvent)
    (today : String) (db : Database) : List Write :=
  if db.skips config event then [] else db.toLedger.applicationWrites event today

/-- `dispatch` of one event as a procedure. Its environment is the date of the attempt. -/
def dispatcher (config : OrderConsumerConfig) (event : CanonicalGatewayEvent) :
    Procedure String Database Write where
  plan := Database.dispatchWrites config event
  commit := Database.commit

def Database.dispatch (db : Database) (config : OrderConsumerConfig)
    (event : CanonicalGatewayEvent) (today : String) : Database :=
  (dispatcher config event).whole today db

def Database.failClosed (db : Database) (config : OrderConsumerConfig) (reason today : String) :
    Database :=
  if config.failClosed then
    db.commit (.killSwitchState
      { tradeDate := today, state := .stopNewBuy, reasonCodes := [reason] })
  else db

end TradingCore.Orders
