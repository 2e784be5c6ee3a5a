import TradingCore.Orders.Tables

/-!
# Rows of the LIVE_SIM ledger

The tables `live_sim_orders`, `live_sim_fill_events` and `live_sim_positions` of
`storage/db.py`, and the lifecycle that `trading/live_sim/lifecycle.py` declares for an
order. Accounts are masked before they are saved, so the account columns hold masked texts.
Prices, profits and the texts for the operator, which decide nothing here, are left out.
-/

namespace TradingCore.LiveSim

open Base
open Orders (BrokerExecutionEvent orText orInt)

/-! ## The lifecycle of an order -/

/-- `LIVE_SIM_ORDER_STATUSES`. -/
inductive LiveSimOrderStatus
  | created
  | blocked
  | duplicate
  | submitted
  | unknownSubmit
  | accepted
  | partialFilled
  | filled
  | cancelRequested
  | cancelled
  | rejected
  | failed
  | expired
  | reconcileRequired
deriving DecidableEq

namespace LiveSimOrderStatus

/-- `LIVE_SIM_TERMINAL_ORDER_STATUSES`. -/
def terminal (status : LiveSimOrderStatus) : Bool :=
  status ∈ [blocked, duplicate, filled, cancelled, rejected, failed, expired]

/-- `LIVE_SIM_ALLOWED_TRANSITIONS`. -/
def allowedTransitions : List (LiveSimOrderStatus × LiveSimOrderStatus) :=
  [(created, blocked), (created, duplicate), (created, submitted),
   (submitted, unknownSubmit), (submitted, accepted), (submitted, rejected),
   (submitted, failed), (submitted, expired),
   (accepted, partialFilled), (accepted, filled), (accepted, cancelRequested),
   (partialFilled, filled), (partialFilled, cancelRequested),
   (unknownSubmit, accepted), (unknownSubmit, partialFilled), (unknownSubmit, filled),
   (unknownSubmit, reconcileRequired),
   (cancelRequested, cancelled), (cancelRequested, partialFilled), (cancelRequested, filled),
   (cancelRequested, reconcileRequired),
   (reconcileRequired, accepted), (reconcileRequired, partialFilled),
   (reconcileRequired, filled), (reconcileRequired, cancelled)]

/-- The `ok` of `validate_live_sim_transition`, for a row that has a status. -/
def validTransition (statusFrom statusTo : LiveSimOrderStatus) : Bool :=
  statusFrom = statusTo ∨
    (statusTo = reconcileRequired ∧ ¬ statusFrom.terminal) ∨
    (statusFrom, statusTo) ∈ allowedTransitions

/-- The statuses in which `find_live_sim_order_by_idempotency` looks for an order. Nothing
writes the `SUBMITTING` that its query names as well. -/
def sought (status : LiveSimOrderStatus) : Bool :=
  status ∈ [created, submitted, accepted, partialFilled, unknownSubmit, cancelRequested]

def matchable (status : LiveSimOrderStatus) : Bool :=
  status ∈ [submitted, unknownSubmit, accepted, partialFilled]

end LiveSimOrderStatus

/-! ## Rows -/

/-- A row of `live_sim_fill_events`. -/
structure LiveSimFill where
  orderIntentId : String
  brokerOrderId : String
  fillId : String
  code : String
  side : String
  fillQty : Int
  cumulativeFillQty : Int
  remainingQty : Int
  eventTime : String
deriving DecidableEq

/-- A row of `live_sim_orders`. `lastFill` is `details.last_fill`; `positionId` is the
`position_id` that the metadata of the request names. -/
structure LiveSimOrder where
  commandId : String := ""
  candidateInstanceId : String := ""
  code : String
  accountIdMasked : String := ""
  side : String
  requestedQty : Int
  submittedQty : Int
  submittedPrice : Int := 0
  brokerOrderId : String := ""
  orderStatus : LiveSimOrderStatus := .created
  submittedAt : String := ""
  acceptedAt : String := ""
  createdAt : String := ""
  firstFillAt : String := ""
  lastFillAt : String := ""
  idempotencyKey : String := ""
  positionId : String := ""
  lastFill : Option LiveSimFill := none
deriving DecidableEq

/-- The statuses of a position. -/
inductive LiveSimPositionStatus
  | opened
  | partlyOpen
  | exitOrdered
  | reconcileRequired
  | closed
deriving DecidableEq

/-- A row of `live_sim_positions`. -/
structure LiveSimPosition where
  candidateInstanceId : String := ""
  code : String
  accountIdMasked : String := ""
  entryQty : Int := 0
  currentQty : Int := 0
  realizedQty : Int := 0
  status : LiveSimPositionStatus := .opened
deriving DecidableEq

/-! ## Messages of the broker -/

/-- An execution with the fields that its sync reads besides. `rawAccount` is the account
that the raw message names. -/
structure ExecutionEvent extends BrokerExecutionEvent where
  timestamp : String := ""
  rawAccount : String := ""

/-- `BrokerOrderResult`. The key of the request stands in for a missing `idempotency_key`;
`receivedAt` is the time of the message. -/
structure BrokerOrderResult where
  ok : Bool
  orderNo : String := ""
  commandId : String := ""
  idempotencyKey : String := ""
  requestIdempotencyKey : String := ""
  receivedAt : String := ""

namespace ExecutionEvent

variable (event : ExecutionEvent)

/-- `max(0, int(event.remaining_quantity or 0))`. -/
def remainingQty : Int := max 0 event.remainingQuantity

/-- `_execution_cumulative_fill_qty`. -/
def cumulativeFillQty : Int :=
  let orderQty := max 0 event.quantity
  let reportedFillQty := max 0 event.filledQuantity
  if 0 < orderQty ∧ (0 < event.remainingQty ∨ 0 < reportedFillQty) then
    max 0 (min orderQty (orderQty - event.remainingQty))
  else reportedFillQty

theorem cumulativeFillQty_nonneg : 0 ≤ event.cumulativeFillQty := by
  unfold cumulativeFillQty
  simp only
  split <;> omega

/-- The `fill_id` of an execution. -/
def fillId : String :=
  orText event.executionId
    (event.orderNo ++ ":" ++ toString event.filledQuantity ++ ":" ++
      toString event.remainingQuantity ++ ":" ++ toString event.price ++ ":" ++ event.timestamp)

end ExecutionEvent

def maskAccount (account : String) : String :=
  if account = "" then ""
  else if account.toList.contains '*' then account
  else if account.length ≤ 4 then .ofList (List.replicate account.length '*')
  else .ofList (account.toList.take 2 ++ List.replicate (max 2 (account.length - 4)) '*' ++
    account.toList.drop (account.length - 2))

/-- The `position_id` of a fill. -/
def positionIdFor (accountIdMasked code candidateInstanceId : String) : String :=
  "LIVE_SIM:" ++ accountIdMasked ++ ":" ++ code ++ ":" ++ orText candidateInstanceId "no_ci"

end TradingCore.LiveSim
