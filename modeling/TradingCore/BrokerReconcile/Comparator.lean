import TradingCore.BrokerReconcile.Models

/-!
# Comparing a snapshot with the projection

Three loops: over the local orders, for those that the snapshot lacks; over the open orders of
the snapshot and over its positions, each against the newest local row of its number or code.
-/

namespace TradingCore.BrokerReconcile

open Base

namespace BrokerTables

variable (tables : BrokerTables)

/-- The newest order with a number, of whichever account. -/
def brokerOrderByOrderNo (orderNo : String) : Option ((String × String) × BrokerOrderState) :=
  tables.orders.entries.reverse.find? fun entry => entry.1.2 = orderNo

/-- The newest position of a code, of whichever account. -/
def brokerPositionByCode (code : String) : Option ((String × String) × BrokerPositionState) :=
  tables.positions.entries.reverse.find? fun entry => entry.1.2 = code

end BrokerTables

/-- A local order that is still pending and that the snapshot does not list. -/
def localOnlyPendingOrder (tr : TrSnapshot) (accountTokenValue : String)
    (entry : (String × String) × BrokerOrderState) : Option BrokerReconcileDiscrepancy :=
  if entry.1.2 = "" then none
  else if tr.openOrders.contains entry.1.2 = false ∧ 0 < entry.2.remainingQty then
    some
      { category := .localOnlyPendingOrder
        severity := .stopNewBuy
        entityType := "order"
        entityKey := entry.1.2
        accountToken := accountTokenValue
        code := entry.2.code
        orderNo := entry.1.2
        localRow := some (.order entry.1 entry.2)
        trSnapshot := none
        reasonCodes := ["ORDER_NOT_PRESENT_IN_TR_OPEN_ORDERS"] }
  else none

/-- An open order of the snapshot against the newest local order with its number. -/
def compareOpenOrder (tables : BrokerTables) (accountTokenValue : String)
    (entry : String × TrOpenOrder) : Option BrokerReconcileDiscrepancy :=
  if entry.1 = "" then none
  else
    match tables.brokerOrderByOrderNo entry.1 with
    | none =>
        some
          { category := .brokerOnlyOpenOrder
            severity := .stopNewBuy
            entityType := "order"
            entityKey := entry.1
            accountToken := accountTokenValue
            code := entry.2.code
            orderNo := entry.1
            localRow := none
            trSnapshot := some (.order entry.1 entry.2)
            reasonCodes := ["TR_OPEN_ORDER_NOT_LINKED_TO_LOCAL_PROJECTION"] }
    | some (key, brokerOrder) =>
        if brokerOrder.remainingQty ≠ entry.2.remainingQuantity then
          some
            { category := .remainingQuantityMismatch
              severity := .stopNewBuy
              entityType := "order"
              entityKey := entry.1
              accountToken := accountTokenValue
              code := if entry.2.code = "" then brokerOrder.code else entry.2.code
              orderNo := entry.1
              localRow := some (.order key brokerOrder)
              trSnapshot := some (.order entry.1 entry.2)
              reasonCodes := ["BROKER_ORDER_REMAINING_DIFFERS_FROM_TR"] }
        else none

/-- A position of the snapshot against the newest local position of its code. -/
def comparePosition (tables : BrokerTables) (accountTokenValue : String)
    (entry : String × TrPosition) : Option BrokerReconcileDiscrepancy :=
  if entry.1 = "" then none
  else
    match tables.brokerPositionByCode entry.1 with
    | none =>
        if 0 < entry.2.quantity then
          some
            { category := .brokerOnlyPosition
              severity := .reduceOnly
              entityType := "position"
              entityKey := entry.1
              accountToken := accountTokenValue
              code := entry.1
              orderNo := ""
              localRow := none
              trSnapshot := some (.position entry.1 entry.2)
              reasonCodes := ["TR_POSITION_NOT_LINKED_TO_LOCAL_PROJECTION"] }
        else none
    | some (key, brokerPosition) =>
        if brokerPosition.quantity ≠ entry.2.quantity then
          some
            { category := .positionQuantityMismatch
              severity := .reduceOnly
              entityType := "position"
              entityKey := entry.1
              accountToken := accountTokenValue
              code := entry.1
              orderNo := ""
              localRow := some (.position key brokerPosition)
              trSnapshot := some (.position entry.1 entry.2)
              reasonCodes := ["BROKER_POSITION_QUANTITY_DIFFERS_FROM_TR"] }
        else none

def compareSnapshots (tables : BrokerTables) (tr : TrSnapshot) (accountTokenValue : String) :
    List BrokerReconcileDiscrepancy :=
  tables.orders.entries.filterMap (localOnlyPendingOrder tr accountTokenValue) ++
    tr.openOrders.entries.filterMap (compareOpenOrder tables accountTokenValue) ++
      tr.positions.entries.filterMap (comparePosition tables accountTokenValue)

/-- `finalize_run`: the run is clean iff the comparison finds nothing. -/
def finalizeRun (tables : BrokerTables) (tr : TrSnapshot) (run : ReconcileRun) : ReconcileRun :=
  let discrepancies := compareSnapshots tables tr run.accountToken
  let clean := discrepancies.isEmpty
  { run with
    status := if clean then .clean else .reconcileRequired
    snapshotComplete := true
    brokerTruthReady := clean
    reconcileClean := clean
    discrepancyCount := discrepancies.length
    criticalDiscrepancyCount := (discrepancies.filter fun d => d.severity.critical).length }

@[simp] theorem finalizeRun_requiredSources (tables : BrokerTables) (tr : TrSnapshot)
    (run : ReconcileRun) : (finalizeRun tables tr run).requiredSources = run.requiredSources :=
  rfl

@[simp] theorem finalizeRun_completedSources (tables : BrokerTables) (tr : TrSnapshot)
    (run : ReconcileRun) : (finalizeRun tables tr run).completedSources = run.completedSources :=
  rfl

theorem finalizeRun_clean_iff {tables : BrokerTables} {tr : TrSnapshot} {run : ReconcileRun} :
    ((finalizeRun tables tr run).status = .clean ∧
        (finalizeRun tables tr run).brokerTruthReady = true) ↔
      compareSnapshots tables tr run.accountToken = [] := by
  unfold finalizeRun
  cases h : compareSnapshots tables tr run.accountToken with
  | nil => simp
  | cons d rest => simp

end TradingCore.BrokerReconcile
