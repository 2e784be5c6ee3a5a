import TradingCore.Base.HighWater
import TradingCore.Base.Machine
import TradingCore.Base.Replay
import TradingCore.LiveSim.Models

/-!
# The sync of the LIVE_SIM ledger

How `storage/db.py` carries the broker's messages into the ledger: `_sync_live_sim_order_result`
and `_sync_live_sim_execution`. Each looks its order up by several ids, decides on its writes
and commits them one by one.
-/

namespace TradingCore.LiveSim

open Base LiveSimOrderStatus Text
open Orders (orText orInt)

/-- The tables of the ledger. Orders are filed by their `order_intent_id`; every table is in
the order of insertion. -/
structure Ledger where
  orders : Dict String LiveSimOrder := Dict.empty
  fills : List LiveSimFill := []
  positions : Dict String LiveSimPosition := Dict.empty

/-! ## Queries -/

/-- The time by which `find_live_sim_order_by_execution_fingerprint` orders its matches. -/
def LiveSimOrder.matchTime (order : LiveSimOrder) : String :=
  orText order.acceptedAt (orText order.submittedAt order.createdAt)

def LiveSimOrder.fits (order : LiveSimOrder) (event : ExecutionEvent) : Bool :=
  order.brokerOrderId = "" ∧ order.code = event.code ∧
    lower order.side = lower event.side ∧ order.submittedQty = event.quantity ∧
    order.submittedPrice = event.price ∧ order.orderStatus.matchable

/-- Does a fill row bear one of the ids that are there? -/
def LiveSimFill.bears (fill : LiveSimFill) (orderIntentId brokerOrderId : String) : Bool :=
  (orderIntentId ≠ "" ∧ fill.orderIntentId = orderIntentId) ∨
    (brokerOrderId ≠ "" ∧ fill.brokerOrderId = brokerOrderId)

namespace Ledger

variable (l : Ledger)

/-- `find_live_sim_order_by_idempotency`: the oldest that is under way. -/
def findByIdempotency (idempotencyKey : String) : Option (String × LiveSimOrder) :=
  if idempotencyKey = "" then none
  else l.orders.entries.find? fun e => e.2.idempotencyKey = idempotencyKey ∧ e.2.orderStatus.sought

/-- `find_live_sim_order_by_command_id`. -/
def findByCommandId (commandId : String) : Option (String × LiveSimOrder) :=
  if commandId = "" then none else l.orders.latest? fun order => order.commandId = commandId

/-- `find_live_sim_order_by_broker_order_id`. -/
def findByBrokerOrderId (brokerOrderId : String) : Option (String × LiveSimOrder) :=
  if brokerOrderId = "" then none
  else l.orders.latest? fun order => order.brokerOrderId = brokerOrderId

/-- `find_live_sim_order_by_execution_fingerprint`: the newest of the latest. -/
def findByFingerprint (event : ExecutionEvent) : Option (String × LiveSimOrder) :=
  if event.orderNo = "" then none
  else (l.orders.entries.filter fun e => e.2.fits event).foldl
    (fun best e =>
      match best with
      | none => some e
      | some b => if b.2.matchTime ≤ e.2.matchTime then some e else some b)
    none

def executionOrder (event : ExecutionEvent) : Option (String × LiveSimOrder) :=
  (((l.findByBrokerOrderId event.orderNo).or (l.findByCommandId event.commandId)).or
    (l.findByIdempotency event.idempotencyKey)).or (l.findByFingerprint event)

def resultOrder (result : BrokerOrderResult) : Option (String × LiveSimOrder) :=
  (l.findByIdempotency (orText result.idempotencyKey result.requestIdempotencyKey)).or
    (l.findByCommandId result.commandId)

/-- `_previous_live_sim_cumulative_fill_qty`: the highest of the rows that bear one of the
ids. -/
def previousCumulativeFillQty (orderIntentId brokerOrderId : String) : Int :=
  HighWater.top ((l.fills.filter (·.bears orderIntentId brokerOrderId)).map (·.cumulativeFillQty))

def recorded (brokerOrderId fillId : String) : Bool :=
  l.fills.any fun fill => fill.brokerOrderId = brokerOrderId ∧ fill.fillId = fillId

/-- `_find_live_sim_position_for_manual_execution`: the only open position of the code. -/
def manualPosition (event : ExecutionEvent) (accountIdMasked : String) :
    Option LiveSimPosition :=
  let ofCode := l.positions.entries.reverse.filter fun e =>
    e.2.code = event.code ∧ (accountIdMasked = "" ∨ e.2.accountIdMasked = accountIdMasked)
  let «open» := (ofCode.take 50).filter fun e =>
    e.2.status ∈ [.opened, .partlyOpen, .exitOrdered, .reconcileRequired] ∧ 0 < e.2.currentQty
  match event.code, «open» with
  | "", _ => none
  | _, [e] => some e.2
  | _, _ => none

end Ledger

/-! ## Writes -/

/-- A committed write. `audit` stands for the rows of `live_sim_order_events` and of
`live_sim_runtime_health`, which are not kept. -/
inductive Write
  /-- `save_live_sim_fill_event` -/
  | fill (fill : LiveSimFill)
  /-- `upsert_live_sim_position_from_fill`, `save_live_sim_position` -/
  | position (positionId : String) (record : LiveSimPosition)
  /-- `update_live_sim_order` -/
  | order (orderIntentId : String) (order : LiveSimOrder)
  | audit

/-- Carry out a write. The insertion of a fill row is ignored when its ids are there. -/
def Ledger.commit (l : Ledger) : Write → Ledger
  | .fill fill =>
      if l.recorded fill.brokerOrderId fill.fillId then l
      else { l with fills := l.fills ++ [fill] }
  | .position positionId record => { l with positions := l.positions.set positionId record }
  | .order orderIntentId order => { l with orders := l.orders.set orderIntentId order }
  | .audit => l

/-! ## Results -/

def LiveSimOrder.statusAfterResult (order : LiveSimOrder) (result : BrokerOrderResult) :
    LiveSimOrderStatus :=
  if result.ok then
    if orText result.orderNo order.brokerOrderId ≠ "" then accepted else unknownSubmit
  else rejected

/-- The order that `_sync_live_sim_order_result` saves. -/
def LiveSimOrder.afterResult (order : LiveSimOrder) (result : BrokerOrderResult) : LiveSimOrder :=
  { order with
    commandId := orText result.commandId order.commandId
    brokerOrderId :=
      if result.ok then orText result.orderNo order.brokerOrderId else order.brokerOrderId
    orderStatus := order.statusAfterResult result
    acceptedAt :=
      if order.statusAfterResult result = accepted then result.receivedAt else order.acceptedAt }

/-- The writes of `_sync_live_sim_order_result`. -/
def Ledger.resultWrites (l : Ledger) (result : BrokerOrderResult) : List Write :=
  match l.resultOrder result with
  | none => []
  | some (id, order) => [.order id (order.afterResult result), .audit]

/-! ## Executions -/

/-- The position that `upsert_live_sim_position_from_fill` saves. -/
def LiveSimPosition.afterFill (position : LiveSimPosition) (side : String) (fillQty : Int) :
    LiveSimPosition :=
  if side = "buy" then
    { position with
      entryQty := position.entryQty + fillQty
      currentQty := position.currentQty + fillQty
      status := .opened }
  else if side = "sell" then
    let sellQty := min fillQty position.currentQty
    { position with
      currentQty := max 0 (position.currentQty - sellQty)
      realizedQty := position.realizedQty + sellQty
      status := if max 0 (position.currentQty - sellQty) ≤ 0 then .closed else position.status }
  else position

namespace Ledger

variable (l : Ledger)

def positionBefore (accountIdMasked code candidateInstanceId : String) : LiveSimPosition :=
  (l.positions.get? (positionIdFor accountIdMasked code candidateInstanceId)).getD
    { candidateInstanceId, code, accountIdMasked }

/-- `upsert_live_sim_position_from_fill`. -/
def upsertPosition (accountIdMasked code candidateInstanceId side : String) (fillQty : Int) :
    Write :=
  .position (positionIdFor accountIdMasked code candidateInstanceId)
    ((l.positionBefore accountIdMasked code candidateInstanceId).afterFill side fillQty)

/-- The fill row of an execution of an order, or of none (`""`). -/
def fillOf (event : ExecutionEvent) (orderIntentId brokerOrderId code side : String) :
    LiveSimFill where
  orderIntentId := orderIntentId
  brokerOrderId := brokerOrderId
  fillId := event.fillId
  code := code
  side := side
  fillQty := max 0
    (event.cumulativeFillQty - l.previousCumulativeFillQty orderIntentId brokerOrderId)
  cumulativeFillQty := event.cumulativeFillQty
  remainingQty := event.remainingQty
  eventTime := event.timestamp

def orderFill (id : String) (order : LiveSimOrder) (event : ExecutionEvent) : LiveSimFill :=
  l.fillOf event id (orText event.orderNo order.brokerOrderId) (orText event.code order.code)
    (orText event.side order.side)

/-- The quantity that the position of an order holds; `none` when there is no position. -/
def openQty (order : LiveSimOrder) (event : ExecutionEvent) : Option Int :=
  (l.positions.get? (positionIdFor order.accountIdMasked (orText order.code event.code)
    order.candidateInstanceId)).map (·.currentQty)

/-- Does the audit of an execution find something that calls for reconciliation? -/
def auditFails (id : String) (order : LiveSimOrder) (event : ExecutionEvent) : Bool :=
  let fill := l.orderFill id order event
  event.remainingQuantity < 0 ∨
    fill.cumulativeFillQty < l.previousCumulativeFillQty id fill.brokerOrderId ∨
    (0 < fill.fillQty ∧ lower fill.side = "sell" ∧ (l.openQty order event).all (· < fill.fillQty))

def statusAfterExecution (id : String) (order : LiveSimOrder) (event : ExecutionEvent) :
    LiveSimOrderStatus :=
  let fill := l.orderFill id order event
  if l.auditFails id order event then reconcileRequired
  else if fill.fillQty ≤ 0 ∧ fill.cumulativeFillQty ≤ 0 then order.orderStatus
  else if 0 < fill.remainingQty ∧ order.orderStatus ≠ filled then partialFilled
  else filled

/-- The order that `_sync_live_sim_execution` saves. -/
def orderAfterExecution (id : String) (order : LiveSimOrder) (event : ExecutionEvent) :
    LiveSimOrder :=
  let fill := l.orderFill id order event
  { order with
    brokerOrderId := fill.brokerOrderId
    orderStatus := l.statusAfterExecution id order event
    firstFillAt :=
      orText order.firstFillAt (if 0 < fill.fillQty then event.timestamp else "")
    lastFillAt := event.timestamp
    lastFill := some fill }

/-- The writes of `_sync_live_sim_execution` for an execution of an order. -/
def orderExecutionWrites (id : String) (order : LiveSimOrder) (event : ExecutionEvent) :
    List Write :=
  let fill := l.orderFill id order event
  let code := orText order.code fill.code
  if l.recorded fill.brokerOrderId fill.fillId then []
  else
    [.fill fill] ++
      (if 0 < fill.fillQty then
        [l.upsertPosition order.accountIdMasked code order.candidateInstanceId
          (lower fill.side) fill.fillQty]
      else []) ++
      [.order id (l.orderAfterExecution id order event), .audit] ++
      (if 0 < fill.fillQty then [.audit] else [])

/-- The account of an execution that belongs to no order. -/
def manualAccount (event : ExecutionEvent) : String :=
  let accountIdMasked := maskAccount (orText event.account event.rawAccount)
  match l.manualPosition event accountIdMasked with
  | some position => orText accountIdMasked position.accountIdMasked
  | none => accountIdMasked

def manualFill (event : ExecutionEvent) : LiveSimFill :=
  l.fillOf event "" event.orderNo event.code event.side

/-- The position writes of `_sync_manual_live_sim_execution`. -/
def manualPositionWrites (event : ExecutionEvent) (fillQty : Int) : List Write :=
  let account := l.manualAccount event
  match l.manualPosition event (maskAccount (orText event.account event.rawAccount)) with
  | some position =>
      let write := l.upsertPosition account (orText position.code event.code)
        position.candidateInstanceId (lower event.side) fillQty
      -- the second write only adds details
      [write, write]
  | none =>
      if lower event.side = "buy" then
        let bought :=
          (l.positionBefore account event.code "MANUAL_INTERVENTION").afterFill "buy" fillQty
        [.position (positionIdFor account event.code "MANUAL_INTERVENTION") bought,
          .position (positionIdFor account event.code "MANUAL_INTERVENTION")
            { bought with status := .reconcileRequired }]
      else []

/-- `_sync_manual_live_sim_execution`. -/
def manualExecutionWrites (event : ExecutionEvent) : List Write :=
  let fill := l.manualFill event
  if fill.fillQty ≤ 0 ∧ fill.cumulativeFillQty ≤ 0 then []
  else if l.recorded fill.brokerOrderId fill.fillId then []
  else
    [.fill fill] ++
      (if 0 < fill.fillQty then l.manualPositionWrites event fill.fillQty else []) ++ [.audit]

/-- The writes of `_sync_live_sim_execution`. -/
def executionWrites (event : ExecutionEvent) : List Write :=
  match l.executionOrder event with
  | none => l.manualExecutionWrites event
  | some (id, order) => l.orderExecutionWrites id order event

end Ledger

/-- `_sync_live_sim_execution` as a procedure that commits one write after another. -/
def syncExecution : Procedure ExecutionEvent Ledger Write where
  plan event l := l.executionWrites event
  commit := Ledger.commit

/-! ## The ledger as a machine -/

/-- What happens to the ledger. -/
inductive Action
  /-- Every other writer of `live_sim_orders`; `details.last_fill` is not theirs. -/
  | saveOrder (orderIntentId : String) (order : LiveSimOrder)
  /-- Every other writer of `live_sim_positions`. -/
  | savePosition (positionId : String) (record : LiveSimPosition)
  /-- `_sync_live_sim_order_result` -/
  | orderResult (result : BrokerOrderResult)
  /-- `_sync_live_sim_execution` -/
  | execution (event : ExecutionEvent)

/-- What an execution comes to: the fill row that it asks for, whether the row is new, and
the position on which it is booked. -/
structure ExecutionReport where
  fill : LiveSimFill
  inserted : Bool
  positionId : Option String

namespace Ledger

variable (l : Ledger)

/-- The position on which an execution of no order is booked. -/
def manualPositionId (event : ExecutionEvent) : Option String :=
  match l.manualPosition event (maskAccount (orText event.account event.rawAccount)) with
  | some position =>
      some (positionIdFor (l.manualAccount event) (orText position.code event.code)
        position.candidateInstanceId)
  | none =>
      if lower event.side = "buy" then
        some (positionIdFor (l.manualAccount event) event.code "MANUAL_INTERVENTION")
      else none

def report (event : ExecutionEvent) : ExecutionReport :=
  match l.executionOrder event with
  | none =>
      let fill := l.manualFill event
      { fill
        inserted := ¬ (fill.fillQty ≤ 0 ∧ fill.cumulativeFillQty ≤ 0) ∧
          ¬ l.recorded fill.brokerOrderId fill.fillId
        positionId := if 0 < fill.fillQty then l.manualPositionId event else none }
  | some (id, order) =>
      let fill := l.orderFill id order event
      { fill
        inserted := ¬ l.recorded fill.brokerOrderId fill.fillId
        positionId :=
          if 0 < fill.fillQty then
            some (positionIdFor order.accountIdMasked (orText order.code fill.code)
              order.candidateInstanceId)
          else none }

def act (l : Ledger) : Action → Ledger
  | .saveOrder id order =>
      l.commit (.order id { order with lastFill := (l.orders.get? id).bind (·.lastFill) })
  | .savePosition id record => l.commit (.position id record)
  | .orderResult result => (l.resultWrites result).foldl Ledger.commit l
  | .execution event => syncExecution.whole event l

/-- The ledger as a machine that tells what an execution comes to. -/
def machine : Machine Ledger Action (Option ExecutionReport) where
  step l action :=
    (l.act action, match action with
      | .execution event => some (l.report event)
      | _ => none)

end Ledger

end TradingCore.LiveSim
