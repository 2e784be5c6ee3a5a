import TradingCore.Orders.Reconciler

/-!
# The order manager pipeline

The parts of `OrderManagerRuntimePipeline` (`trading/strategy/order_manager.py`) that apply
broker events and look after open orders, and `OrderKillSwitchManager`
(`trading/strategy/kill_switch.py`). `today` is the UTC date of the call.
-/

namespace TradingCore.Orders

open Base ManagedOrderStatus

/-- The fields of `OrderManagerConfig` that this component reads. -/
structure OrderManagerConfig where
  enabled : Bool := false
  dailyLossLimitPct : Rat := -2
  dailyLossLimitKrw : Rat := 50000
  consecutiveLossLimit : Int := 2
  killSwitchEnabled : Bool := true
  ackTimeoutSec : Int := 30

/-! ## Applying events -/

/-- The date under which `_record_reconcile_required` files its row. -/
def reconcileDate (tradeDate today : String) : String := orText tradeDate today

def recordReconcileRequired (reason tradeDate today : String) : Write :=
  .killSwitchState
    { tradeDate := reconcileDate tradeDate today
      state := .stopNewBuy
      reasonCodes := [reason] }

def Ledger.applyOrderAck (l : Ledger) (payload : OrderPayload) (today : String) :
    ApplyResult × List Write :=
  let (result, writes) := l.handleCommandAck payload
  if result.matched then (result, writes)
  else (result, writes ++ [recordReconcileRequired "ORDER_ACK_UNMATCHED" payload.tradeDate today])

def Ledger.applyOrderReject (l : Ledger) (payload : OrderPayload) (today : String) :
    ApplyResult × List Write :=
  l.applyOrderAck { payload with status := "REJECTED" } today

def Ledger.applyOrderFill (l : Ledger) (payload : OrderPayload) (today : String) :
    ApplyResult × List Write :=
  let (result, writes) := l.handleExecution (.fromDict payload)
  if result.matched then (result, writes)
  else (result,
    writes ++ [recordReconcileRequired "FILL_WITHOUT_LOCAL_ORDER" payload.tradeDate today])

def applyBalanceSnapshot (payload : OrderPayload) (today : String) : ApplyResult × List Write :=
  if payload.mismatch ∨ payload.localPositionMismatch then
    ({ matched := false, status := some reconcileRequired, reason := "BALANCE_MISMATCH" },
      [recordReconcileRequired "BALANCE_MISMATCH" payload.tradeDate today])
  else ({ matched := true }, [])

/-- `apply_order_status_snapshot`: nothing is changed. -/
def applyOrderStatusSnapshot : ApplyResult × List Write := ({ matched := true }, [])

/-- The result of an event that the pipeline hands to reconciliation. -/
def reconcileResult (reason : String) : ApplyResult :=
  { matched := false
    status := some reconcileRequired
    reason := reason
    reconcileRequired := true }

/-- `apply_canonical_order_event`: the result, and the writes it commits in this order. -/
def Ledger.applyCanonicalOrderEvent (l : Ledger) (canonicalType : CanonicalType)
    (payload : OrderPayload) (today : String) : ApplyResult × List Write :=
  match canonicalType with
  | .ignored => ({ matched := true, reason := "NON_ORDER_EVENT" }, [])
  | .commandAck =>
      if payload.commandType ∈ ["send_order", "cancel_order", "modify_order"] then
        (reconcileResult "ORDER_SUBMIT_UNKNOWN_NO_ORDER_NO",
          [recordReconcileRequired "ORDER_SUBMIT_UNKNOWN_NO_ORDER_NO" payload.tradeDate today])
      else ({ matched := true }, [])
  | .commandFailed | .orderRejected => l.applyOrderReject payload today
  | .orderAccepted | .orderCancelAccepted => l.applyOrderAck payload today
  | .orderPartiallyFilled | .orderFilled => l.applyOrderFill payload today
  | .orderCancelled =>
      if payload.commandId = "" then applyOrderStatusSnapshot
      else l.applyOrderAck { payload with status := "CANCELLED" } today
  | .balanceSnapshot => applyBalanceSnapshot payload today
  | .positionSnapshot => ({ matched := true }, [])
  | .orderStatusSnapshot | .reconcileSnapshot => applyOrderStatusSnapshot
  | .unsupported =>
      (reconcileResult "UNSUPPORTED_ORDER_EVENT",
        [recordReconcileRequired "UNSUPPORTED_ORDER_EVENT" payload.tradeDate today])

def markReconcileRequired (reason : String) (payload : OrderPayload) (today : String) : Write :=
  recordReconcileRequired (orText reason "RECONCILE_REQUIRED") payload.tradeDate today

/-! ## Open orders -/

/-- `_age_sec` of the time an order was sent. -/
def ManagedOrder.ageSec (order : ManagedOrder) (now : Int) : Int :=
  match order.sentAt with
  | none => 0
  | some sent => max 0 (now - sent)

/-- Orders that `reconcile_open_orders` gives up on. -/
def OrderManagerConfig.overdue (config : OrderManagerConfig) (now : Int) (order : ManagedOrder) :
    Bool :=
  order.status = queuedToGateway ∧ config.ackTimeoutSec < order.ageSec now

/-- The newest 500 orders that wait for the Gateway, newest first. -/
def Ledger.queuedOrders (l : Ledger) : List (Nat × ManagedOrder) :=
  (l.managedOrders.entries.reverse.filter fun e => e.2.status = queuedToGateway).take 500

def Ledger.reconcileOpenOrders (l : Ledger) (config : OrderManagerConfig) (today : String)
    (now : Int) : List Write :=
  (l.queuedOrders.filter fun e => config.overdue now e.2).flatMap fun e =>
    [.managedOrder e.1 { e.2 with status := reconcileRequired },
      recordReconcileRequired "ORDER_ACK_TIMEOUT" e.2.tradeDate today]

/-! ## The kill switch -/

/-- `latest_portfolio_risk_snapshot`, as far as `evaluate` reads it. A missing snapshot
holds the defaults. -/
structure PortfolioRisk where
  killSwitchRecommended : Bool := false
  stopNewEntryRecommended : Bool := false
  dailyRealizedPnlPct : Rat := 0
  /-- `details.daily_realized_pnl_krw` -/
  dailyRealizedPnlKrw : Rat := 0
  /-- `details.daily_realized_pnl` -/
  dailyRealizedPnl : Rat := 0

def Database.latestState (db : Database) (tradeDate : String) : KillSwitchRow :=
  (db.latestOrderKillSwitchState tradeDate).getD { tradeDate := tradeDate, state := .normal }

/-- `abs` of an amount. -/
def absRat (a : Rat) : Rat := if a < 0 then -a else a

/-- The automatic part of `evaluate`: the state and the reasons that the portfolio and the
losses call for. A later rule overwrites the state of an earlier one. -/
def OrderManagerConfig.automaticState (config : OrderManagerConfig) (portfolio : PortfolioRisk)
    (consecutiveLossCount : Int) : KillSwitchState × List String :=
  let recommended : KillSwitchState × List String :=
    if portfolio.killSwitchRecommended then
      (.killSwitchActive, ["POSITION_RISK_KILL_SWITCH_RECOMMENDED"])
    else if portfolio.stopNewEntryRecommended then
      (.stopNewBuy, ["POSITION_RISK_STOP_NEW_ENTRY"])
    else (.normal, [])
  let afterPct :=
    if portfolio.dailyRealizedPnlPct ≤ config.dailyLossLimitPct then
      (.killSwitchActive, recommended.2 ++ ["DAILY_LOSS_LIMIT_PCT"])
    else recommended
  let afterKrw :=
    if orRat portfolio.dailyRealizedPnlKrw portfolio.dailyRealizedPnl ≤
        -absRat config.dailyLossLimitKrw then
      (.killSwitchActive, afterPct.2 ++ ["DAILY_LOSS_LIMIT_KRW"])
    else afterPct
  if config.consecutiveLossLimit ≤ consecutiveLossCount then
    (.reduceOnly, afterKrw.2 ++ ["CONSECUTIVE_LOSS_LIMIT"])
  else afterKrw

/-- `evaluate`: the state it returns, which is the row it saves. -/
def Database.evaluate (db : Database) (config : OrderManagerConfig) (portfolio : PortfolioRisk)
    (tradeDate : String) : KillSwitchRow :=
  let previous := db.latestState tradeDate
  let verdict : KillSwitchState × List String :=
    if ¬ config.killSwitchEnabled then (.normal, ["KILL_SWITCH_DISABLED"])
    else if previous.manualActive then (.killSwitchActive, ["MANUAL_KILL_SWITCH_ACTIVE"])
    else config.automaticState portfolio previous.consecutiveLossCount
  { tradeDate := tradeDate
    state := verdict.1
    reasonCodes := verdict.2
    manualActive := previous.manualActive
    consecutiveLossCount := previous.consecutiveLossCount
    dailyRealizedPnlPct := portfolio.dailyRealizedPnlPct
    dailyRealizedPnlKrw := portfolio.dailyRealizedPnlKrw }

/-- The first half of `run`: the evaluation of the kill switch and the care of the open
orders. The other half makes its decisions from here on and reaches these tables only by
saving managed orders. `tradeDate` is the date of the cycle's own time, `today` that of the
clock. -/
def Database.run (db : Database) (config : OrderManagerConfig) (portfolio : PortfolioRisk)
    (tradeDate today : String) (now : Int) : Database :=
  if config.enabled then
    let evaluated := db.commit (.killSwitchState (db.evaluate config portfolio tradeDate))
    (evaluated.reconcileOpenOrders config today now).foldl Database.commit evaluated
  else db

end TradingCore.Orders
