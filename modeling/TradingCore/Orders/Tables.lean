import TradingCore.Orders.Models

/-!
# The order tables

The queries and the writes of `TradingDatabase` (`storage/db.py`) that the order
lifecycle uses. Every write is one committed transaction, so a component that makes
several of them can stop between any two. Ids are given out in increasing order, and a
table keeps its rows in the order of their insertion.
-/

namespace TradingCore.Orders

open Base Dict Text

/-- The tables that say what became of the orders. -/
structure Ledger where
  managedOrders : Dict Nat ManagedOrder := empty
  brokerOrderStates : Dict (String × String) BrokerOrderState := empty
  liveSimPositions : Dict String LiveSimPosition := empty

/-- The tables of the order lifecycle. The rows of `killSwitchStates` and `receipts` are in
the order of their insertion. -/
structure Database extends Ledger where
  brokerPositionStates : Dict (String × String) BrokerPositionState := empty
  receipts : List OrderGatewayEventReceipt := []
  killSwitchStates : List KillSwitchRow := []

def cleanStockCode (value : String) : String :=
  let text := upper (strip value)
  let text := if text.toList.head? = some 'A' ∧ text.length = 7 then
    String.ofList (text.toList.drop 1) else text
  let digits := text.toList.filter Char.isDigit
  if digits.isEmpty then "" else zfill 6 (String.ofList digits)

/-- `a or b` of two texts. -/
def orText (a b : String) : String := if a = "" then b else a

/-- `a or b` of two numbers. -/
def orInt (a b : Int) : Int := if a = 0 then b else a

/-- `a or b` of two prices. -/
def orRat (a b : Rat) : Rat := if a = 0 then b else a

/-- The text of a `code` column. -/
def codeColumn (code : String) : String := orText (cleanStockCode code) code

/-! ## Queries -/

namespace Ledger

variable (l : Ledger)

def findManagedOrderByCommandId (commandId : String) : Option (Nat × ManagedOrder) :=
  l.managedOrders.latest? fun row => row.commandId = commandId

def findManagedOrderByOrderNo (orderNo : String) : Option (Nat × ManagedOrder) :=
  l.managedOrders.latest? fun row => row.orderNo = orderNo

/-- The first query of `find_managed_order_for_execution`. -/
def findManagedOrderByIdempotency (idempotencyKey : String) : Option (Nat × ManagedOrder) :=
  l.managedOrders.latest? fun row => row.idempotencyKey = idempotencyKey

/-- Statuses in which `find_managed_order_for_execution` takes an order by code and side. -/
def awaitsExecution (status : ManagedOrderStatus) : Bool :=
  status ∈ [.ackedByGateway, .partiallyFilled, .queuedToGateway]

/-- The second query of `find_managed_order_for_execution`. -/
def findManagedOrderByCode (code side : String) : Option (Nat × ManagedOrder) :=
  l.managedOrders.latest? fun row =>
    codeColumn row.code = codeColumn code ∧ (side = "" ∨ upper row.side = upper side) ∧
      awaitsExecution row.status

def findManagedOrderForExecution (code side idempotencyKey : String) :
    Option (Nat × ManagedOrder) :=
  (if idempotencyKey = "" then none else l.findManagedOrderByIdempotency idempotencyKey).or
    (l.findManagedOrderByCode code side)

def getLiveSimPosition (positionId : String) : Option LiveSimPosition :=
  l.liveSimPositions.get? positionId

end Ledger

namespace Database

variable (db : Database)

def findOrderGatewayEventReceipt (sourceEventId dedupeKey : String) :
    Option OrderGatewayEventReceipt :=
  (if sourceEventId = "" then none
    else db.receipts.find? fun row => row.sourceEventId = sourceEventId).or
    (if dedupeKey = "" then none else db.receipts.find? fun row => row.dedupeKey = dedupeKey)

def latestOrderKillSwitchState (tradeDate : String) : Option KillSwitchRow :=
  db.killSwitchStates.reverse.find? fun row => tradeDate = "" ∨ row.tradeDate = tradeDate

end Database

/-! ## Writes -/

/-- The row of `save_live_sim_position` when a row with its `position_id` is there: the
columns named in `DO UPDATE SET` are overwritten. -/
def LiveSimPosition.onConflict (record : LiveSimPosition) :
    Option LiveSimPosition → LiveSimPosition
  | none => record
  | some old => { record with
      candidateInstanceId := old.candidateInstanceId
      code := old.code
      name := old.name
      account := old.account }

/-- The columns that `upsert_broker_order_state` computes from its argument. -/
def BrokerOrderState.params (state : BrokerOrderState) : BrokerOrderState :=
  { state with
    code := codeColumn state.code
    side := upper state.side
    remainingQty := max 0 state.remainingQty }

/-- The row of `upsert_broker_order_state` when a row of the order is there. -/
def BrokerOrderState.onConflict (state : BrokerOrderState) :
    Option BrokerOrderState → BrokerOrderState
  | none => state
  | some old => { state with
      commandId := orText state.commandId old.commandId
      code := orText state.code old.code
      side := orText state.side old.side
      orderQty := max old.orderQty state.orderQty
      filledQty := max old.filledQty state.filledQty
      avgFillPrice := if 0 < state.avgFillPrice then state.avgFillPrice else old.avgFillPrice }

/-- `save_order_gateway_event_receipt`. A row with another `source_event_id` but the same
`dedupe_key` breaks a uniqueness constraint: the insertion raises and nothing is written. -/
def OrderGatewayEventReceipt.insertInto (receipt : OrderGatewayEventReceipt)
    (rows : List OrderGatewayEventReceipt) : List OrderGatewayEventReceipt :=
  let row := { receipt with
    sourceEventId := orText receipt.sourceEventId receipt.dedupeKey
    dedupeKey := orText receipt.dedupeKey receipt.sourceEventId }
  if rows.any fun old => old.sourceEventId = row.sourceEventId then
    rows.map fun old => if old.sourceEventId = row.sourceEventId then
      { old with reconcileRequired := row.reconcileRequired } else old
  else if rows.any fun old => old.dedupeKey = row.dedupeKey then rows
  else rows ++ [row]

/-- A committed write. -/
inductive Write
  /-- `save_managed_order` -/
  | managedOrder (id : Nat) (order : ManagedOrder)
  /-- `save_live_sim_position` -/
  | liveSimPosition (positionId : String) (record : LiveSimPosition)
  /-- `upsert_broker_order_state` -/
  | brokerOrderState (account orderNo : String) (state : BrokerOrderState)
  /-- `upsert_broker_position_state` -/
  | brokerPositionState (account code : String) (state : BrokerPositionState)
  /-- `save_order_kill_switch_state` -/
  | killSwitchState (row : KillSwitchRow)
  /-- `save_order_gateway_event_receipt` -/
  | receipt (receipt : OrderGatewayEventReceipt)

def Write.onLedger (write : Write) (l : Ledger) : Ledger :=
  match write with
  | .managedOrder id order => { l with managedOrders := l.managedOrders.set id order }
  | .liveSimPosition positionId record =>
      { l with liveSimPositions := l.liveSimPositions.upsert positionId record.onConflict }
  | .brokerOrderState account orderNo state =>
      if orderNo = "" then l
      else { l with brokerOrderStates :=
        l.brokerOrderStates.upsert (account, orderNo) state.params.onConflict }
  | .brokerPositionState .. | .killSwitchState _ | .receipt _ => l

def Database.commit (db : Database) (write : Write) : Database :=
  { db with
    toLedger := write.onLedger db.toLedger
    brokerPositionStates :=
      match write with
      | .brokerPositionState account code state =>
          if account = "" ∨ codeColumn code = "" then db.brokerPositionStates
          else db.brokerPositionStates.set (account, codeColumn code) state
      | _ => db.brokerPositionStates
    receipts :=
      match write with
      | .receipt receipt => receipt.insertInto db.receipts
      | _ => db.receipts
    killSwitchStates :=
      match write with
      | .killSwitchState row => db.killSwitchStates ++ [row]
      | _ => db.killSwitchStates }

@[simp] theorem Database.commit_toLedger (db : Database) (write : Write) :
    (db.commit write).toLedger = write.onLedger db.toLedger := rfl

/-! ## Repeating a write -/

theorem orText_orText (a b : String) : orText a (orText a b) = orText a b := by
  unfold orText
  split <;> rfl

variable (record : LiveSimPosition)

@[simp] theorem LiveSimPosition.onConflict_currentQty (old : Option LiveSimPosition) :
    (record.onConflict old).currentQty = record.currentQty := by
  cases old <;> rfl

@[simp] theorem LiveSimPosition.onConflict_entryQty (old : Option LiveSimPosition) :
    (record.onConflict old).entryQty = record.entryQty := by
  cases old <;> rfl

@[simp] theorem LiveSimPosition.onConflict_lastOrderId (old : Option LiveSimPosition) :
    (record.onConflict old).lastOrderId = record.lastOrderId := by
  cases old <;> rfl

theorem LiveSimPosition.onConflict_idem (old : Option LiveSimPosition) :
    record.onConflict (some (record.onConflict old)) = record.onConflict old := by
  cases old <;> rfl

theorem BrokerOrderState.onConflict_idem (state : BrokerOrderState)
    (old : Option BrokerOrderState) :
    state.onConflict (some (state.onConflict old)) = state.onConflict old := by
  cases old with
  | none =>
    have hself : ∀ a : String, orText a a = a := by
      intro a
      unfold orText
      split <;> rfl
    simp [onConflict, hself]
  | some old =>
    have hmax : ∀ a b : Int, max (max a b) b = max a b := fun a b => by omega
    simp only [onConflict, orText_orText, hmax]
    congr 1
    split <;> rfl

theorem Write.onLedger_idem (write : Write) (l : Ledger) :
    write.onLedger (write.onLedger l) = write.onLedger l := by
  cases write with
  | managedOrder id order =>
    simp only [onLedger, set_eq_self (get?_set_self _ _ _)]
  | liveSimPosition positionId record =>
    simp only [onLedger, upsert_upsert _ _ record.onConflict_idem]
  | brokerOrderState account orderNo state =>
    by_cases h : orderNo = ""
    · simp only [onLedger, h, if_true]
    · simp only [onLedger, h, if_false, upsert_upsert _ _ state.params.onConflict_idem]
  | _ => rfl

/-- The tables of the ledger. -/
inductive LedgerTable
  | managedOrders
  | liveSimPositions
  | brokerOrderStates
deriving DecidableEq

def Write.table : Write → Option LedgerTable
  | .managedOrder .. => some .managedOrders
  | .liveSimPosition .. => some .liveSimPositions
  | .brokerOrderState .. => some .brokerOrderStates
  | .brokerPositionState .. | .killSwitchState _ | .receipt _ => none

theorem Write.onLedger_comm {v w : Write} (h : v.table ≠ w.table ∨ v.table = none) (l : Ledger) :
    v.onLedger (w.onLedger l) = w.onLedger (v.onLedger l) := by
  cases v <;> cases w <;> simp only [onLedger] <;> first
    | rfl
    | (split <;> rfl)
    | simp [table] at h

end TradingCore.Orders
