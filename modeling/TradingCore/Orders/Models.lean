import TradingCore.Base.Dict
import TradingCore.Base.Text

/-!
# Managed orders, broker events and the order tables

The records that the order lifecycle reads and writes (`trading/strategy/order_models.py`,
`trading/broker/models.py`, the tables of `storage/db.py`). A row is the record that `save_…`
stored, under its primary key or its unique column.

Columns that only receive the time of a write (`updated_at`, `acked_at`, `opened_at`, `closed_at`,
`last_event_at`, …) are left out, and so are the tables of intents and of order events, which no
function here reads back.
-/

namespace TradingCore.Orders

open Base

inductive ManagedOrderStatus
  | intentCreated
  | riskApproved
  | riskRejected
  | localOrderCreated
  | commandBlockedObserveOnly
  | pendingLocal
  | queuedToGateway
  | ackedByGateway
  | rejectedByGateway
  | partiallyFilled
  | filled
  | cancelPending
  | cancelled
  | expired
  | reconcileRequired
deriving DecidableEq

/-- The canonical types of a broker event. `unsupported` is any other type. -/
inductive CanonicalType
  | ignored
  | commandAck
  | commandFailed
  | orderRejected
  | orderAccepted
  | orderCancelAccepted
  | orderPartiallyFilled
  | orderFilled
  | orderCancelled
  | balanceSnapshot
  | positionSnapshot
  | orderStatusSnapshot
  | reconcileSnapshot
  | unsupported
deriving DecidableEq

/-- `order_result` of an acknowledgement. -/
structure OrderResult where
  code : Option Int := none
  resultCode : Option Int := none
  orderNo : String := ""
  message : String := ""
deriving DecidableEq

/-- One holding of a balance or position snapshot. -/
structure PositionItem where
  account : String := ""
  code : String := ""
  quantity : Int := 0
  qty : Int := 0
  availableQuantity : Int := 0
  availableQty : Int := 0
  avgPrice : Rat := 0
  averagePrice : Rat := 0
deriving DecidableEq

/-- The normalised payload of a broker event. A key that is missing holds the empty
text or zero. -/
structure OrderPayload extends PositionItem where
  commandId : String := ""
  commandType : String := ""
  status : String := ""
  orderNo : String := ""
  originalOrderNo : String := ""
  orderResult : OrderResult := {}
  message : String := ""
  error : String := ""
  side : String := ""
  price : Int := 0
  filledQuantity : Int := 0
  filledQty : Int := 0
  remainingQuantity : Int := 0
  remainingQty : Int := 0
  orderQty : Int := 0
  avgFillPrice : Rat := 0
  tag : String := ""
  executionId : String := ""
  idempotencyKey : String := ""
  tradeDate : String := ""
  mismatch : Bool := false
  localPositionMismatch : Bool := false
  positions : Option (List PositionItem) := none
deriving DecidableEq

structure CanonicalGatewayEvent where
  canonicalType : CanonicalType
  payload : OrderPayload
  sourceEventId : String
  dedupeKey : String

/-- `CanonicalGatewayEvent.ignored`. -/
def CanonicalGatewayEvent.isIgnored (event : CanonicalGatewayEvent) : Bool :=
  event.canonicalType = .ignored

structure BrokerExecutionEvent where
  code : String
  orderNo : String
  side : String
  quantity : Int
  price : Int
  filledQuantity : Int
  remainingQuantity : Int
  tag : String := ""
  account : String := ""
  executionId : String := ""
  commandId : String := ""
  idempotencyKey : String := ""
deriving DecidableEq

def BrokerExecutionEvent.fromDict (data : OrderPayload) : BrokerExecutionEvent where
  code := data.code
  orderNo := data.orderNo
  side := data.side
  quantity := data.quantity
  price := data.price
  filledQuantity := data.filledQuantity
  remainingQuantity := data.remainingQuantity
  tag := data.tag
  account := data.account
  executionId := data.executionId
  commandId := data.commandId
  idempotencyKey := data.idempotencyKey

/-- The keys of `details` of a managed order that this component reads or writes. -/
structure OrderDetails where
  positionId : String := ""
  name : String := ""
  themeId : String := ""
  themeName : String := ""
  lastExecution : Option BrokerExecutionEvent := none
  lastCommandAck : Option OrderPayload := none
  lastError : String := ""

/-- A row of `managed_orders`. `sentAt` is the second of `sent_at`, or of `created_at`
when the order was never sent; `none` where neither parses. The risk check lets only
orders of a positive quantity through (`QUANTITY_INVALID`), and what remains of one is
never negative. -/
structure ManagedOrder where
  tradeDate : String
  side : String
  code : String
  account : String := ""
  quantity : Int
  price : Int
  status : ManagedOrderStatus := .pendingLocal
  candidateId : Option Nat := none
  positionId : String := ""
  commandId : String := ""
  orderNo : String := ""
  filledQuantity : Int := 0
  remainingQuantity : Int := 0
  avgFillPrice : Rat := 0
  idempotencyKey : String
  sentAt : Option Int := none
  details : OrderDetails := {}
  quantity_pos : 0 < quantity := by decide
  remaining_nonneg : 0 ≤ remainingQuantity := by decide

/-- What applying an event returns to the consumer (the dictionaries of the `apply_…`
methods). -/
structure ApplyResult where
  matched : Bool
  orderId : Option Nat := none
  status : Option ManagedOrderStatus := none
  orderNo : String := ""
  filledQuantity : Int := 0
  remainingQuantity : Int := 0
  reason : String := ""
  reconcileRequired : Bool := false

/-- A row of `broker_order_state`, kept under its account and order number. -/
structure BrokerOrderState where
  originalOrderNo : String
  commandId : String
  code : String
  side : String
  orderQty : Int
  filledQty : Int
  remainingQty : Int
  avgFillPrice : Rat
  brokerStatus : CanonicalType
  lastEventId : String
  details : OrderPayload × ApplyResult

/-- A row of `broker_position_state`, kept under its account and code. -/
structure BrokerPositionState where
  quantity : Int
  availableQuantity : Int
  avgPrice : Rat
  lastSnapshotId : String

/-- `status` of a simulated position. -/
inductive PositionStatus
  | opened
  | closed
deriving DecidableEq

/-- A row of `live_sim_positions`, kept under its `position_id`. `lastOrderId` and the
theme are the keys of `details` that a fill writes. -/
structure LiveSimPosition where
  candidateInstanceId : Option Nat
  code : String
  name : String
  account : String
  entryQty : Int
  entryAvgPrice : Int
  currentQty : Int
  realizedQty : Int
  status : PositionStatus
  themeId : String
  themeName : String
  lastOrderId : Nat

/-- A row of `order_gateway_event_receipts`. -/
structure OrderGatewayEventReceipt where
  sourceEventId : String
  dedupeKey : String
  canonicalType : CanonicalType
  managedOrderId : Option Nat
  reconcileRequired : Bool

/-- `OrderKillSwitchState`, from the least to the most severe. -/
inductive KillSwitchState
  | normal
  | stopNewBuy
  | reduceOnly
  | killSwitchActive
deriving DecidableEq

def KillSwitchState.severity : KillSwitchState → Nat
  | .normal => 0
  | .stopNewBuy => 1
  | .reduceOnly => 2
  | .killSwitchActive => 3

/-- A row of `order_kill_switch_state`. Keys that a writer leaves out are read back with
the defaults given here. -/
structure KillSwitchRow where
  tradeDate : String
  state : KillSwitchState
  reasonCodes : List String := []
  manualActive : Bool := false
  consecutiveLossCount : Int := 0
  dailyRealizedPnlPct : Rat := 0
  dailyRealizedPnlKrw : Rat := 0
deriving DecidableEq

end TradingCore.Orders
