import TradingCore.Base.Machine
import TradingCore.Orders.Tables
import TradingCore.BrokerReconcile.Comparator
import TradingCore.BrokerReconcile.TrParser

/-!
# A reconcile run

A run starts with the sources that it requires. Each answer is recorded as its source's
result, replaces what is staged of that source, and may complete the source; once all required
sources are complete every further answer compares the snapshot and finishes the run again.
Answers of other runs go to other rows.
-/

namespace TradingCore.BrokerReconcile

open Base Orders

/-! ## Starting a run -/

/-- `BrokerReconcileConfig`, with the flags that a start reads. -/
structure BrokerReconcileConfig where
  serviceEnabled : Bool := true
  dispatchEnabled : Bool := false
  simulationOnly : Bool := true
  cashRequired : Bool := false

/-- The outcome of `_dispatch_reconcile_commands`. -/
structure DispatchSummary where
  enqueuedCount : Nat := 0
  warnings : List String := []
  errors : List String := []

def requiredSources (config : BrokerReconcileConfig) (sources : List String) : List String :=
  let required := if sources = [] then ["OPEN_ORDERS", "ACCOUNT_POSITIONS"] else sources
  if config.cashRequired ∧ "ACCOUNT_CASH" ∉ required then required ++ ["ACCOUNT_CASH"]
  else required

/-- `_start_run`: the row that it saves, if it starts one. -/
def startRun (config : BrokerReconcileConfig) (digest : String → String)
    (account brokerEnv : String) (sources : List String) (dispatch : DispatchSummary) :
    Option ReconcileRun :=
  let token := accountToken digest account
  let required := requiredSources config sources
  if config.serviceEnabled = false then none
  else if config.simulationOnly ∧ Text.upper brokerEnv = "REAL" then none
  else if token = "" then none
  else
    some
      { accountToken := token
        status :=
          if config.dispatchEnabled = false then .waitGateway
          else if dispatch.enqueuedCount = required.length ∧ dispatch.errors = [] then .running
          else .failed
        requiredSources := required
        completedSources := []
        snapshotComplete := false
        brokerTruthReady := false
        reconcileClean := false
        discrepancyCount := 0
        criticalDiscrepancyCount := 0
        warnings :=
          if config.dispatchEnabled then dispatch.warnings else ["RECONCILE_TR_DISPATCH_DISABLED"]
        errors := if config.dispatchEnabled then dispatch.errors else [] }

/-! ## Staging -/

/-- `INSERT OR REPLACE`: the row gets a new id. -/
def insertOrReplace {υ : Type} (rows : Dict String υ) (key : String) (row : υ) :
    Dict String υ :=
  (rows.filter fun key' _ => key' ≠ key).set key row

/-- `replace_broker_reconcile_snapshots` of the open orders. -/
def stageOpenOrders (orders : List BrokerOpenOrderSnapshot) : Dict String TrOpenOrder :=
  orders.foldl
    (fun rows order =>
      insertOrReplace rows order.orderNo
        { code := codeColumn order.code
          remainingQuantity := order.remainingQuantity })
    .empty

/-- `replace_broker_reconcile_snapshots` of the positions. -/
def stagePositions (positions : List BrokerPositionSnapshot) : Dict String TrPosition :=
  positions.foldl
    (fun rows position =>
      insertOrReplace rows (codeColumn position.code) { quantity := position.quantity })
    .empty

/-! ## Source results -/

/-- One run, what its answers staged, and the local projection that it is compared with. -/
structure ReconcileDesk where
  tables : BrokerTables
  run : ReconcileRun
  snapshot : TrSnapshot
  cash : Option BrokerCashSnapshot
  /-- `broker_reconcile_source_results`: the last result of each source. -/
  sourceResults : Dict String ReconcileTrParseResult

def ReconcileDesk.start (tables : BrokerTables) (run : ReconcileRun) : ReconcileDesk where
  tables := tables
  run := run
  snapshot := ⟨.empty, .empty⟩
  cash := none
  sourceResults := .empty

/-- The texts of `new` that are not blank and not yet there, appended. -/
def appendTexts (texts new : List String) : List String :=
  new.foldl (fun acc text => if text ≠ "" ∧ text ∉ acc then acc ++ [text] else acc) texts

def ReconcileRun.completedAfter (run : ReconcileRun) (result : ReconcileTrParseResult) :
    List String :=
  if result.Completes ∧ result.logicalSource ∉ run.completedSources then
    run.completedSources ++ [result.logicalSource]
  else run.completedSources

/-- All required sources are among the completed ones. -/
def ReconcileRun.AllRequired (run : ReconcileRun) (completed : List String) : Prop :=
  run.requiredSources ≠ [] ∧ ∀ source ∈ run.requiredSources, source ∈ completed
deriving Decidable

namespace ReconcileDesk

def updateRunAfterSourceResult (d : ReconcileDesk) (result : ReconcileTrParseResult) :
    ReconcileDesk :=
  let completed := d.run.completedAfter result
  let run : ReconcileRun :=
    { d.run with
      status := if d.run.AllRequired completed then .complete else .partialResult
      completedSources := completed
      warnings := appendTexts d.run.warnings (result.warnings.map (·.text))
      errors := appendTexts d.run.errors result.errors }
  if d.run.AllRequired completed then
    { d with run := finalizeRun d.tables d.snapshot run }
  else { d with run := run }

def stage (d : ReconcileDesk) (result : ReconcileTrParseResult) : ReconcileDesk :=
  if result.logicalSource = "OPEN_ORDERS" then
    { d with snapshot := { d.snapshot with openOrders := stageOpenOrders result.openOrders } }
  else if result.logicalSource = "ACCOUNT_POSITIONS" then
    { d with snapshot := { d.snapshot with positions := stagePositions result.positions } }
  else if result.logicalSource = "ACCOUNT_CASH" ∧ result.cash.isSome then
    { d with cash := result.cash }
  else d

def applySourceResult (d : ReconcileDesk) (result : ReconcileTrParseResult) : ReconcileDesk :=
  let recorded : ReconcileDesk :=
    { d with sourceResults := d.sourceResults.set result.logicalSource result }
  (recorded.stage result).updateRunAfterSourceResult result

end ReconcileDesk

/-! ## Runs -/

inductive ReconcileAction where
  /-- `handle_gateway_event`: an answer of the run's own requests arrives. -/
  | sourceAck (ack : ReconcileAck)
  /-- `mark_stale` while the run is the current one. -/
  | markStale
  /-- `cancel_pending_run` while the run is the current one. -/
  | cancelPendingRun (reason : String)
  /-- The broker's events change the local projection. -/
  | projectionChanged (tables : BrokerTables)

def ReconcileAction.stops : ReconcileAction → Bool
  | .markStale | .cancelPendingRun _ => true
  | .sourceAck _ | .projectionChanged _ => false

section

variable (readNumber : String → NumberText) (digest : String → String)

def ReconcileDesk.perform (d : ReconcileDesk) : ReconcileAction → ReconcileDesk
  | .sourceAck ack =>
      match parseCommandAck readNumber digest ack with
      | none => d
      | some result => d.applySourceResult result
  | .markStale => { d with run := { d.run with status := .stale, brokerTruthReady := false } }
  | .cancelPendingRun reason =>
      { d with run := { d.run with status := .cancelled, errors := [reason] } }
  | .projectionChanged tables => { d with tables := tables }

/-- A run together with what its operator has done to it. -/
structure WatchedRun where
  desk : ReconcileDesk
  stopped : Bool := false

def machine : Machine WatchedRun ReconcileAction Unit where
  step s action :=
    ({ desk := s.desk.perform readNumber digest action
       stopped := s.stopped || action.stops }, ())

end

end TradingCore.BrokerReconcile
