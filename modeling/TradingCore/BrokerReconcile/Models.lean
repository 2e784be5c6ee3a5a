import TradingCore.Base.Dict

/-!
# The tables of the broker reconcile

What the reconcile compares: the local projection of the broker's orders and positions, kept
from its events, and the snapshot that the read-only requests of one run staged.
-/

namespace TradingCore.BrokerReconcile

open Base

/-! ## The local projection -/

/-- A row of `broker_order_state`. -/
structure BrokerOrderState where
  code : String
  remainingQty : Nat

/-- A row of `broker_position_state`. -/
structure BrokerPositionState where
  quantity : Int

/-- The projection: an order under its account and number, a position under its account and
code, in the order of their ids. An update keeps the id. -/
structure BrokerTables where
  orders : Dict (String × String) BrokerOrderState
  positions : Dict (String × String) BrokerPositionState

/-! ## The staged snapshot -/

/-- A row of `broker_reconcile_open_orders`. -/
structure TrOpenOrder where
  code : String
  remainingQuantity : Nat

/-- A row of `broker_reconcile_positions`. -/
structure TrPosition where
  quantity : Int

/-- What one run has staged for its account: the open orders under their numbers and the
positions under their codes. A text that the parser did not find is an empty key. -/
structure TrSnapshot where
  openOrders : Dict String TrOpenOrder
  positions : Dict String TrPosition

/-! ## Discrepancies -/

inductive ReconcileDiscrepancySeverity where
  | info
  | warning
  | stopNewBuy
  | reduceOnly
  | killSwitchRecommended

/-- `CRITICAL_SEVERITIES`. -/
def ReconcileDiscrepancySeverity.critical : ReconcileDiscrepancySeverity → Bool
  | .stopNewBuy | .reduceOnly | .killSwitchRecommended => true
  | .info | .warning => false

inductive ReconcileDiscrepancyCategory where
  | localOnlyPendingOrder
  | brokerOnlyOpenOrder
  | remainingQuantityMismatch
  | brokerOnlyPosition
  | positionQuantityMismatch

/-- A row of the local projection that a discrepancy quotes. -/
inductive LocalRow where
  | order (key : String × String) (row : BrokerOrderState)
  | position (key : String × String) (row : BrokerPositionState)

/-- A row of the snapshot that a discrepancy quotes. -/
inductive TrRow where
  | order (orderNo : String) (row : TrOpenOrder)
  | position (code : String) (row : TrPosition)

structure BrokerReconcileDiscrepancy where
  category : ReconcileDiscrepancyCategory
  severity : ReconcileDiscrepancySeverity
  entityType : String
  entityKey : String
  accountToken : String
  code : String
  orderNo : String
  localRow : Option LocalRow
  trSnapshot : Option TrRow
  reasonCodes : List String
  operatorActionRequired : Bool := true

/-! ## Runs -/

inductive ReconcileRunStatus where
  | waitGateway
  | queued
  | running
  | partialResult
  | complete
  | clean
  | reconcileRequired
  | failed
  | stale
  | cancelled
deriving DecidableEq

/-- A row of `broker_reconcile_runs`. -/
structure ReconcileRun where
  accountToken : String
  status : ReconcileRunStatus
  requiredSources : List String
  completedSources : List String
  snapshotComplete : Bool
  brokerTruthReady : Bool
  reconcileClean : Bool
  discrepancyCount : Nat
  criticalDiscrepancyCount : Nat
  warnings : List String
  errors : List String
deriving DecidableEq

end TradingCore.BrokerReconcile
