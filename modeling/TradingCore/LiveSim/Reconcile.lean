import TradingCore.LiveSim.CashExposure

/-!
# The LIVE_SIM reconcile

`run_live_sim_reconcile` of `trading_app/order_enqueue_service.py`: it carries the fills and
cancellations of a broker snapshot into the ledger and then compares the positions of the
snapshot with the open positions of the ledger. The comparison runs in one direction: it asks
of each position of the broker which position of the ledger it is.
-/

namespace TradingCore.LiveSim

open Base LiveSimOrderStatus
open Orders (orText orInt)

/-! ## Snapshots -/

/-- An entry of `fills`, with the first of its names for a field that is there. -/
structure SnapshotFill where
  brokerOrderId : String
  code : String := ""
  side : String := ""
  quantity : Int := 0
  price : Int := 0
  filledQuantity : Int := 0
  fillQty : Int := 0
  remainingQuantity : Int := 0
  executionId : String := ""

/-- An entry of `positions`. -/
structure SnapshotPosition where
  code : String
  account : String := ""
  quantity : Int

/-- A `broker_snapshot`. -/
structure BrokerSnapshot where
  fills : List SnapshotFill := []
  cancelledOrders : List String := []
  positions : List SnapshotPosition := []

/-- The code and the masked account under which a position is looked up. -/
structure PositionKey where
  code : String
  accountIdMasked : String
deriving DecidableEq

def SnapshotPosition.key (entry : SnapshotPosition) : PositionKey where
  code := entry.code
  accountIdMasked := maskAccount entry.account

def LiveSimPosition.key (position : LiveSimPosition) : PositionKey where
  code := position.code
  accountIdMasked := position.accountIdMasked

/-- The execution that a fill of an order is carried in as. -/
def SnapshotFill.event (fill : SnapshotFill) (order : LiveSimOrder) (now : String) :
    ExecutionEvent where
  code := orText fill.code order.code
  orderNo := fill.brokerOrderId
  side := orText fill.side order.side
  quantity := orInt fill.quantity (orInt fill.filledQuantity order.requestedQty)
  price := orInt fill.price order.submittedPrice
  filledQuantity := orInt fill.filledQuantity (orInt fill.fillQty fill.quantity)
  remainingQuantity := fill.remainingQuantity
  executionId := orText fill.executionId ("reconcile:" ++ fill.brokerOrderId)
  commandId := order.commandId
  idempotencyKey := order.idempotencyKey
  timestamp := now

/-- The positions that the broker holds: the entries that are compared. -/
def BrokerSnapshot.holdings (snapshot : BrokerSnapshot) : List SnapshotPosition :=
  snapshot.positions.filter fun entry => 0 < entry.quantity ∧ entry.code ≠ ""

def externalPositionId (key : PositionKey) : String :=
  "EXTERNAL:" ++ key.accountIdMasked ++ ":" ++ key.code

/-! ## Fills and cancellations -/

namespace Ledger

def reconcileFill (now : String) (l : Ledger) (fill : SnapshotFill) : Ledger :=
  match l.findByBrokerOrderId fill.brokerOrderId with
  | none => l
  | some (_, order) => l.act (.execution (fill.event order now))

def reconcileCancelled (l : Ledger) (brokerOrderId : String) : Ledger :=
  match l.findByBrokerOrderId brokerOrderId with
  | none => l
  | some (id, order) => l.commit (.order id { order with orderStatus := cancelled })

/-- The ledger with the fills and the cancellations of the snapshot. -/
def afterMessages (l : Ledger) (snapshot : BrokerSnapshot) (now : String) : Ledger :=
  snapshot.cancelledOrders.foldl reconcileCancelled (snapshot.fills.foldl (reconcileFill now) l)

/-! ## Positions -/

variable (l : Ledger)

/-- `open_positions`: the open ones among the newest thousand. -/
def reconcilePositions : List (String × LiveSimPosition) :=
  (l.positions.entries.reverse.take 1000).filter fun e => e.2.status.isOpen

end Ledger

/-- The entry of `open_by_key`: none, the only position of the key, or `None` for several. -/
inductive KeyMatch
  | absent
  | only (positionId : String) (position : LiveSimPosition)
  | ambiguous
deriving DecidableEq

namespace Ledger

variable (l : Ledger)

def openByKey (key : PositionKey) : KeyMatch :=
  match l.reconcilePositions.filter fun e => e.2.key = key with
  | [] => .absent
  | [e] => .only e.1 e.2
  | _ => .ambiguous

/-- `save_live_sim_position`: the candidate, the code and the account of a row stay. -/
def savePosition (positions : Dict String LiveSimPosition) (positionId : String)
    (record : LiveSimPosition) : Dict String LiveSimPosition :=
  match positions.get? positionId with
  | none => positions.set positionId record
  | some old =>
      positions.set positionId { record with
        candidateInstanceId := old.candidateInstanceId
        code := old.code
        accountIdMasked := old.accountIdMasked }

end Ledger

structure PositionSync where
  positions : Dict String LiveSimPosition
  externalPositions : Nat := 0
  positionReconcileRequired : Bool := false

def LiveSimPosition.synced (position : LiveSimPosition) (qty : Int) : LiveSimPosition :=
  { position with
    currentQty := qty
    entryQty := max position.entryQty qty
    status := .opened }

def LiveSimPosition.needsSync (position : LiveSimPosition) (qty : Int) : Bool :=
  position.currentQty ≠ qty ∨ position.status = .reconcileRequired

/-- The position that is recorded for one that only the broker knows. -/
def externalPosition (key : PositionKey) (qty : Int) : LiveSimPosition where
  candidateInstanceId := "EXTERNAL_POSITION_DETECTED"
  code := key.code
  accountIdMasked := key.accountIdMasked
  entryQty := qty
  currentQty := qty
  status := .reconcileRequired

namespace Ledger

variable (l : Ledger)

/-- A position of the broker is compared. The positions of the ledger are those that were read
before the loop. -/
def syncHolding (sync : PositionSync) (entry : SnapshotPosition) : PositionSync :=
  match l.openByKey entry.key with
  | .ambiguous => { sync with positionReconcileRequired := true }
  | .only positionId position =>
      if position.needsSync entry.quantity then
        { sync with
          positions :=
            savePosition sync.positions positionId (position.synced entry.quantity) }
      else sync
  | .absent =>
      { sync with
        externalPositions := sync.externalPositions + 1
        positions := savePosition sync.positions (externalPositionId entry.key)
          (externalPosition entry.key entry.quantity) }

def syncPositions (snapshot : BrokerSnapshot) : PositionSync :=
  snapshot.holdings.foldl l.syncHolding { positions := l.positions }

end Ledger

/-- The status of the component `reconcile` in `live_sim_runtime_health`. -/
inductive ReconcileHealth
  | healthy
  | reconcileRequired
deriving DecidableEq

/-- `run_live_sim_reconcile`, when it is completed. -/
def runLiveSimReconcile (l : Ledger) (snapshot : BrokerSnapshot) (now : String) :
    Ledger × ReconcileHealth :=
  let l := l.afterMessages snapshot now
  let sync := l.syncPositions snapshot
  ({ l with positions := sync.positions },
    if 0 < sync.externalPositions ∨ sync.positionReconcileRequired = true then .reconcileRequired
    else .healthy)

end TradingCore.LiveSim
