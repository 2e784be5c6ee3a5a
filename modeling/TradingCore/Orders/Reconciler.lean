import TradingCore.Orders.Tables

/-!
# The reconciler of managed orders

`ManagedOrderReconciler` (`trading/strategy/order_reconcile.py`): how an acknowledgement
and an execution change the managed order they belong to, and how an execution moves the
simulated position. Each handler finds its order first and then makes its writes; it
returns them with its result.
-/

namespace TradingCore.Orders

open Base ManagedOrderStatus

/-! ## Acknowledgements -/

def OrderPayload.resultCode (payload : OrderPayload) : Int :=
  payload.orderResult.code.getD (payload.orderResult.resultCode.getD 0)

def OrderPayload.ackStatus (payload : OrderPayload) : String :=
  Text.upper (orText payload.status "ACKED")

def OrderPayload.ackedStatus (payload : OrderPayload) : ManagedOrderStatus :=
  let failed := payload.ackStatus = "FAILED" ∨ payload.ackStatus = "REJECTED"
  if payload.commandType = "cancel_order" ∨ payload.ackStatus = "CANCELLED" then
    if payload.resultCode = 0 ∧ ¬ failed then cancelled else reconcileRequired
  else if failed ∨ payload.resultCode ≠ 0 then rejectedByGateway
  else ackedByGateway

/-- The status after an acknowledgement: a late one does not take a fill or a
cancellation back. -/
def ManagedOrder.statusAfterAck (order : ManagedOrder) (payload : OrderPayload) :
    ManagedOrderStatus :=
  if payload.ackedStatus = ackedByGateway ∧
      order.status ∈ [partiallyFilled, filled, cancelled] then order.status
  else payload.ackedStatus

/-- The order that `handle_command_ack` saves. -/
def ManagedOrder.acked (order : ManagedOrder) (payload : OrderPayload) : ManagedOrder :=
  { order with
    status := order.statusAfterAck payload
    orderNo := orText payload.orderNo (orText payload.orderResult.orderNo order.orderNo)
    details := { order.details with
      lastCommandAck := some payload
      lastError := orText payload.message (orText payload.error payload.orderResult.message) } }

def Ledger.handleCommandAck (l : Ledger) (payload : OrderPayload) : ApplyResult × List Write :=
  if payload.commandId = "" then ({ matched := false, reason := "COMMAND_ID_MISSING" }, [])
  else
    match l.findManagedOrderByCommandId payload.commandId with
    | none => ({ matched := false, reason := "MANAGED_ORDER_NOT_FOUND" }, [])
    | some (id, order) =>
        let updated := order.acked payload
        ({ matched := true
           orderId := some id
           status := some updated.status
           orderNo := updated.orderNo },
          [.managedOrder id updated])

/-! ## Executions -/

def Ledger.findExecutionOrder (l : Ledger) (execution : BrokerExecutionEvent) :
    Option (Nat × ManagedOrder) :=
  ((if execution.orderNo = "" then none else l.findManagedOrderByOrderNo execution.orderNo).or
    (if execution.commandId = "" then none
      else l.findManagedOrderByCommandId execution.commandId)).or
    (l.findManagedOrderForExecution execution.code execution.side execution.idempotencyKey)

namespace ManagedOrder

variable (order : ManagedOrder) (execution : BrokerExecutionEvent)

def filledAfter : Int :=
  max order.filledQuantity (orInt execution.filledQuantity execution.quantity)

def remainingAfter : Int :=
  let previousRemaining := orInt order.remainingQuantity
    (max 0 (order.quantity - order.filledQuantity))
  let open_ := max 0 (order.quantity - order.filledAfter execution)
  let reported :=
    if execution.remainingQuantity ≤ 0 then open_ else execution.remainingQuantity
  let shrinking :=
    if 0 < order.filledQuantity ∨ order.status = partiallyFilled then
      min (max 0 previousRemaining) (max 0 reported)
    else reported
  if 0 < order.quantity then min shrinking open_ else shrinking

theorem remainingAfter_nonneg : 0 ≤ order.remainingAfter execution := by
  have hreported : 0 ≤ (if execution.remainingQuantity ≤ 0 then
      max 0 (order.quantity - order.filledAfter execution)
      else execution.remainingQuantity) := by
    split <;> omega
  unfold remainingAfter
  simp only
  split <;> split <;> omega

def statusAfterFill : ManagedOrderStatus :=
  if order.remainingAfter execution ≤ 0 then filled else partiallyFilled

/-- The order that `handle_execution` saves. -/
def executed : ManagedOrder :=
  { order with
    status := order.statusAfterFill execution
    orderNo := orText execution.orderNo order.orderNo
    filledQuantity := order.filledAfter execution
    remainingQuantity := order.remainingAfter execution
    avgFillPrice := orRat execution.price (orRat order.avgFillPrice order.price)
    details := { order.details with lastExecution := some execution }
    remaining_nonneg := order.remainingAfter_nonneg execution }

def positionSide : String := Text.upper (orText order.side execution.side)

/-- The `position_id` of `_sync_live_sim_position`. -/
def positionKey : String :=
  orText order.positionId (orText order.details.positionId
    ("REBOOT_LIVE_SIM:" ++ orText execution.account order.account ++ ":" ++ execution.code))

/-- `filled_delta`: the quantity by which an execution moves the position. -/
def filledDelta : Int :=
  orInt execution.filledQuantity (orInt execution.quantity order.filledQuantity)

/-- `next_qty`: the position after an execution. A purchase reports a total, a sale is
subtracted from what is held. -/
def nextQuantity (currentQty : Int) : Int :=
  if order.positionSide execution = "BUY" then max currentQty (order.filledDelta execution)
  else max 0 (currentQty - order.filledDelta execution)

/-- `entry_qty` after an execution. -/
def entryQuantity (entryQty currentQty : Int) : Int :=
  if order.positionSide execution = "BUY" then
    max entryQty (order.nextQuantity execution currentQty)
  else orInt entryQty (orInt currentQty (order.filledDelta execution))

/-- The record that `_sync_live_sim_position` saves for the saved order `order` with the
given id, when `current` is the position found. -/
def positionRecord (id : Nat) (current : Option LiveSimPosition) : LiveSimPosition where
  candidateInstanceId := order.candidateId
  code := orText execution.code order.code
  name := order.details.name
  account := orText execution.account order.account
  entryQty := order.entryQuantity execution ((current.map (·.entryQty)).getD 0)
    ((current.map (·.currentQty)).getD 0)
  entryAvgPrice := orInt execution.price order.price
  currentQty := order.nextQuantity execution ((current.map (·.currentQty)).getD 0)
  realizedQty :=
    if order.positionSide execution = "BUY" then 0 else order.filledDelta execution
  status :=
    if order.nextQuantity execution ((current.map (·.currentQty)).getD 0) ≤ 0 then .closed
    else .opened
  themeId := order.details.themeId
  themeName := order.details.themeName
  lastOrderId := id

@[simp] theorem positionRecord_currentQty (id : Nat) (current : Option LiveSimPosition) :
    (order.positionRecord execution id current).currentQty =
      order.nextQuantity execution ((current.map (·.currentQty)).getD 0) := by
  unfold positionRecord
  rfl

@[simp] theorem positionRecord_entryQty (id : Nat) (current : Option LiveSimPosition) :
    (order.positionRecord execution id current).entryQty =
      order.entryQuantity execution ((current.map (·.entryQty)).getD 0)
        ((current.map (·.currentQty)).getD 0) := by
  unfold positionRecord
  rfl

end ManagedOrder

/-- `_sync_live_sim_position`, for the saved order. -/
def Ledger.syncLiveSimPosition (l : Ledger) (id : Nat) (order : ManagedOrder)
    (execution : BrokerExecutionEvent) : Write :=
  let positionId := order.positionKey execution
  .liveSimPosition positionId (order.positionRecord execution id (l.getLiveSimPosition positionId))

def Ledger.handleExecution (l : Ledger) (execution : BrokerExecutionEvent) :
    ApplyResult × List Write :=
  match l.findExecutionOrder execution with
  | none =>
      ({ matched := false
         status := some reconcileRequired
         reason := "UNMATCHED_EXECUTION" }, [])
  | some (id, order) =>
      let updated := order.executed execution
      ({ matched := true
         orderId := some id
         status := some updated.status
         filledQuantity := updated.filledQuantity
         remainingQuantity := updated.remainingQuantity },
        [.managedOrder id updated, l.syncLiveSimPosition id updated execution])

end TradingCore.Orders
