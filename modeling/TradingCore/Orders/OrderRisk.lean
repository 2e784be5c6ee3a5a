import TradingCore.Orders.OrderIntents

/-!
# The risk check of an intent

`OrderRiskManager` (`trading/strategy/order_risk.py`) and the queries of `storage/db.py` that
it counts with. A check is a condition with the reason code it gives; an intent is approved
iff none of its conditions holds (`approved_iff`).
-/

namespace TradingCore.Orders

open Base Text List OrderManagerSettings

/-! ## Reason codes -/

abbrev Check := Bool × String

def reasonsOf (checks : List Check) : List String :=
  checks.filterMap fun check => if check.1 then some check.2 else none

theorem reasonsOf_eq_nil {checks : List Check} :
    reasonsOf checks = [] ↔ ∀ check ∈ checks, check.1 = false := by
  unfold reasonsOf
  rw [filterMap_eq_nil_iff]
  constructor
  · intro h check hcheck
    have := h check hcheck
    cases hcond : check.1 with
    | false => rfl
    | true => simp [hcond] at this
  · intro h check hcheck
    simp [h check hcheck]

/-- `_dedupe`: the first of equal codes, without the empty one. -/
def dedupe (codes : List String) : List String :=
  codes.foldl (fun seen code => if code = "" ∨ code ∈ seen then seen else seen ++ [code]) []

/-! ## Queries -/

/-- The side of the `side` column. -/
def ManagedOrder.hasSide (order : ManagedOrder) (side : OrderSide) : Bool :=
  upper order.side = side.text

/-- The statuses of `find_active_managed_order_by_code`. -/
def ManagedOrderStatus.active (status : ManagedOrderStatus) : Bool :=
  status ∈ [.pendingLocal, .queuedToGateway, .ackedByGateway, .partiallyFilled, .cancelPending]

namespace Ledger

variable (l : Ledger)

/-- The rows of a trade date; the empty date is all of them. -/
def ofDate (tradeDate : String) : List ManagedOrder :=
  l.managedOrders.values.filter fun order => tradeDate = "" ∨ order.tradeDate = tradeDate

/-- A side count of `managed_order_summary`. -/
def todayOrderCount (tradeDate : String) (side : OrderSide) : Int :=
  ((l.ofDate tradeDate).filter fun order => order.hasSide side).length

/-- `_daily_code_order_count`, over the newest 500 rows. -/
def dailyCodeOrderCount (tradeDate code : String) : Int :=
  ((((l.ofDate tradeDate).reverse.filter fun order =>
      code = "" ∨ codeColumn order.code = codeColumn code).take 500).filter fun order =>
    order.hasSide .buy ∨ order.hasSide .sell).length

/-- `list_live_sim_positions` with `status="OPEN"`, newest first. -/
def openPositions (limit : Nat) : List (String × LiveSimPosition) :=
  (l.liveSimPositions.entries.reverse.filter fun e => e.2.status = .opened).take limit

def openPositionCount : Int := (l.openPositions 1000).length

def hasOpenPosition (code : String) : Bool :=
  l.liveSimPositions.entries.any fun e => e.2.status = .opened ∧ (code = "" ∨ e.2.code = code)

def hasPendingOrder (code : String) : Bool :=
  l.managedOrders.values.any fun order =>
    codeColumn order.code = codeColumn code ∧ order.status.active

def hasReconcileRequiredOrder : Bool :=
  l.managedOrders.values.any fun order => order.status = .reconcileRequired

def themeExposureCount (themeId : String) : Int :=
  ((l.openPositions 1000).filter fun e => e.2.themeId = themeId).length

end Ledger

/-! ## The broker -/

def realEnvValues : List String :=
  ["REAL", "PROD", "PRODUCTION", "LIVE", "LIVE_REAL", "REAL_BROKER", "0"]

def simulationEnvValues : List String :=
  ["SIM", "SIMULATION", "MOCK", "PAPER", "DEMO", "LIVE_SIM", "1"]

/-- The answers of `broker_environment_state`. -/
inductive BrokerEnvironment
  | real
  | simulation
  | unknown
deriving DecidableEq

def brokerEnvironmentState (broker : BrokerReport) : BrokerEnvironment :=
  let normalized := broker.environmentTexts.map fun text => upper (strip text)
  if normalized.any fun text => text ∈ realEnvValues then .real
  else if normalized.any fun text => text ∈ simulationEnvValues then .simulation
  else .unknown

namespace OrderManagerSettings

variable (config : OrderManagerSettings)

/-- `_broker_guard`. `queued` is the number of commands that wait in the queue. -/
def brokerGuard (broker : BrokerReport) (queued : Nat) : List Check :=
  [(¬ broker.kiwoomLoggedIn, "BROKER_NOT_LOGGED_IN"),
   (¬ broker.orderable, "BROKER_NOT_ORDERABLE"),
   (broker.account = "", "ACCOUNT_NOT_CONFIGURED"),
   (config.liveSimAccountWhitelist ≠ [] ∧ broker.account ∉ config.liveSimAccountWhitelist,
    "ACCOUNT_NOT_WHITELISTED"),
   (¬ broker.heartbeatOk, "GATEWAY_HEARTBEAT_STALE"),
   (config.blockRealBroker ∧ brokerEnvironmentState broker = .real, "REAL_BROKER_BLOCKED"),
   (config.requireSimulationBroker ∧ brokerEnvironmentState broker = .unknown,
    "BROKER_ENV_UNKNOWN"),
   (config.requireSimulationBroker ∧ brokerEnvironmentState broker = .real, "REAL_BROKER_BLOCKED"),
   (1000 ≤ queued, "COMMAND_QUEUE_UNHEALTHY")]

/-- The gates of `evaluate` that depend on the configuration alone. -/
def riskGates : List Check :=
  [(¬ config.enabled, "ORDER_MANAGER_DISABLED"),
   (config.mode ≠ "LIVE_SIM", "ORDER_MANAGER_NOT_LIVE_SIM_MODE"),
   (¬ config.allowLiveSimOrders, "LIVE_SIM_FLAG_DISABLED")]

/-! ## The budget of a market side -/

def normalizedSide (value : String) : Option MarketSide :=
  let text := upper (strip value)
  if text ∈ ["KOSPI", "STK", "001", "0", "KRX"] then some .kospi
  else if text ∈ ["KOSDAQ", "KSQ", "101", "10", "KQ"] then some .kosdaq
  else none

/-- `_resolve_market_side`. An intent has no `market_side` of its own. -/
def resolveMarketSide (details : IntentDetails) : Option MarketSide :=
  ((normalizedSide (details.contextMarketSide.getD "")).or
    (normalizedSide (details.marketSide.getD ""))).or
    (normalizedSide (details.market.getD ""))

/-- The amount of an order in `_market_side_budget_reasons`. -/
def orderAmount (intent : ManagedOrderIntent) : Int :=
  max 0 (orInt intent.price (intent.details.currentPrice.getD 0)) * max 0 intent.quantity

/-- The checks of `_market_side_budget_reasons` against a snapshot. -/
def marketSideChecks (intent : ManagedOrderIntent) (portfolio : PortfolioSnapshot)
    (budget : MarketSideBudget) (now : Int) : List Check :=
  let action := upper budget.budgetAction
  [(match portfolio.calculatedAt.ageSec now with
      | none => true
      | some age => config.marketSideBudgetMaxAgeSec < age, "MARKET_SIDE_BUDGET_DATA_WAIT"),
   (action = "STOP_NEW_ENTRY" ∨ action = "MARKET_CLOSED", "MARKET_SIDE_STOP_NEW_ENTRY"),
   (action = "DATA_WAIT", "MARKET_SIDE_BUDGET_DATA_WAIT"),
   (0 < budget.effectiveExposureLimitKrw ∧
      budget.effectiveExposureLimitKrw < budget.reservedExposureKrw + orderAmount intent,
    "MARKET_SIDE_EXPOSURE_LIMIT"),
   (0 < portfolio.grossExposureLimitKrw ∧
      portfolio.grossExposureLimitKrw <
        orInt portfolio.grossReservedExposureKrw portfolio.totalExposure + orderAmount intent,
    "PORTFOLIO_GROSS_EXPOSURE_LIMIT"),
   (0 < budget.maxOpenPositions ∧ budget.availablePositionSlots ≤ 0, "MARKET_SIDE_POSITION_LIMIT")]

/-- The reason codes of `_market_side_budget_reasons`, as checks. -/
def marketSideBudgetReasons (intent : ManagedOrderIntent)
    (portfolio : Option PortfolioSnapshot) (now : Int) : List Check :=
  if ¬ config.marketSidePortfolioEnabled then []
  else
    match resolveMarketSide intent.details, portfolio with
    | none, _ => [(true, "MARKET_SIDE_UNKNOWN_BUY_BLOCK")]
    | some _, none => [(true, "MARKET_SIDE_BUDGET_DATA_WAIT")]
    | some side, some portfolio =>
        ((portfolio.budget side).isNone, "MARKET_SIDE_BUDGET_DATA_WAIT") ::
          config.marketSideChecks intent portfolio ((portfolio.budget side).getD {}) now

/-! ## Limits -/

def buyLimits (l : Ledger) (intent : ManagedOrderIntent) (portfolio : Option PortfolioSnapshot)
    (now : Int) : List Check :=
  let risk := (portfolio.map (·.toPortfolioRisk)).getD {}
  ([(config.maxDailyBuyOrders ≤ l.todayOrderCount intent.tradeDate .buy,
    "DAILY_BUY_ORDER_LIMIT"),
   (config.maxDailyOrdersPerCode ≤ l.dailyCodeOrderCount intent.tradeDate intent.code,
    "DAILY_CODE_ORDER_LIMIT"),
   (config.maxOpenPositions ≤ l.openPositionCount, "MAX_OPEN_POSITIONS"),
   (config.blockPyramiding ∧ l.hasOpenPosition intent.code, "DUPLICATE_OPEN_POSITION"),
   (l.hasPendingOrder intent.code, "DUPLICATE_PENDING_ORDER"),
   (config.reconcileRequiredBlocksBuy ∧ l.hasReconcileRequiredOrder,
    "RECONCILE_REQUIRED_BLOCKS_BUY"),
   (intent.themeId ≠ "" ∧ config.maxThemeExposureCount ≤ l.themeExposureCount intent.themeId,
    "MAX_THEME_EXPOSURE"),
   (upper (intent.details.marketStatus.getD "") = "RISK_OFF" ∨
      upper (intent.details.marketAction.getD "") = "BLOCK_NEW_ENTRY",
    "MARKET_RISK_OFF_NEW_BUY_BLOCK"),
   (risk.stopNewEntryRecommended, "POSITION_RISK_STOP_NEW_ENTRY"),
   (risk.killSwitchRecommended, "POSITION_RISK_KILL_SWITCH_RECOMMENDED")] : List Check) ++
  (if config.marketSidePortfolioEnforceBuyLimits then
    config.marketSideBudgetReasons intent portfolio now
  else [])

def commonOrderChecks (intent : ManagedOrderIntent) (now : Int) : List Check :=
  let details := intent.details
  let calculatedAt := details.calculatedAt.getD .empty
  let quoteAt := (details.lastTickAt.getD .empty).or (details.tickTimestamp.getD .empty)
  [(intent.quantity ≤ 0, "QUANTITY_INVALID"),
   (config.maxOrderQuantity < intent.quantity, "MAX_ORDER_QUANTITY"),
   (intent.price ≤ 0 ∧ config.useLimitPrice, "PRICE_INVALID"),
   (intent.price ≤ 0 ∧ ¬ config.allowMarketOrder, "MARKET_ORDER_FORBIDDEN"),
   (0 < intent.price ∧ 0 < intent.quantity ∧
      config.maxOrderAmount < intent.price * intent.quantity, "MAX_ORDER_AMOUNT"),
   (config.maxSpreadTicks < details.spreadTicks.getD 0, "SPREAD_TOO_WIDE"),
   (intent.side = .buy ∧ details.viActive.getD false, "VI_ACTIVE_BUY_BLOCK"),
   (intent.side = .buy ∧ details.upperLimitNear.getD false, "UPPER_LIMIT_NEAR_BUY_BLOCK"),
   (0 < config.decisionStaleAfterSec ∧
      calculatedAt.olderThan now config.decisionStaleAfterSec,
    if intent.side = .buy then "STALE_ENTRY_DECISION" else "STALE_EXIT_DECISION"),
   (0 < config.quoteStaleAfterSec ∧ quoteAt.olderThan now config.quoteStaleAfterSec, "STALE_QUOTE"),
   (0 < config.staleTickSec ∧ quoteAt.olderThan now config.staleTickSec, "STALE_TICK")]

end OrderManagerSettings

/-! ## The decision -/

inductive OrderRiskResult
  | pass
  | reject
  | wait
  | killSwitch
deriving DecidableEq

structure OrderRiskDecision where
  decision : OrderRiskResult
  side : OrderSide
  code : String
  idempotencyKey : String
  reasonCodes : List String
  operatorMessageKo : String

def OrderRiskDecision.approved (decision : OrderRiskDecision) : Bool :=
  decision.decision = .pass

def riskResult (reasons : List String) : OrderRiskResult :=
  if reasons.any fun code =>
      code ∈ ["KILL_SWITCH_BLOCKS_BUY", "POSITION_RISK_KILL_SWITCH_RECOMMENDED"] then
    .killSwitch
  else if reasons.any fun code =>
      code ∈ ["STALE_ENTRY_DECISION", "STALE_EXIT_DECISION", "STALE_QUOTE", "STALE_TICK"] then
    .wait
  else if reasons ≠ [] then .reject
  else .pass

def OrderRiskResult.operatorMessage : OrderRiskResult → String
  | .pass => "Order risk passed for LIVE_SIM."
  | .wait => "Order waits for fresh data."
  | .killSwitch => "Kill switch blocks new buy orders."
  | .reject => "Order rejected by LIVE_SIM risk guard."

def KillSwitchState.blocksBuy (state : KillSwitchState) : Bool :=
  state ∈ [.stopNewBuy, .reduceOnly, .killSwitchActive]

namespace OrderManagerSettings

variable (config : OrderManagerSettings)

/-- The checks of `evaluate`, in the order in which their reason codes are collected. -/
def riskChecks (l : Ledger) (queued : Nat) (cycle : Cycle) (killSwitchState : KillSwitchState)
    (intent : ManagedOrderIntent) : List Check :=
  config.brokerGuard cycle.broker queued ++ config.riskGates ++
    ([(intent.side = .buy ∧ killSwitchState.blocksBuy, "KILL_SWITCH_BLOCKS_BUY")] : List Check) ++
    (if intent.side = .buy then config.buyLimits l intent cycle.portfolio cycle.now else []) ++
    config.commonOrderChecks intent cycle.now

/-- `evaluate` of `OrderRiskManager`. -/
def riskDecision (l : Ledger) (queued : Nat) (cycle : Cycle)
    (killSwitchState : KillSwitchState) (intent : ManagedOrderIntent) : OrderRiskDecision :=
  let reasons := reasonsOf (config.riskChecks l queued cycle killSwitchState intent)
  { decision := riskResult reasons
    side := intent.side
    code := intent.code
    idempotencyKey := intent.idempotencyKey
    reasonCodes := dedupe reasons
    operatorMessageKo := (riskResult reasons).operatorMessage }

end OrderManagerSettings

theorem riskResult_eq_pass {reasons : List String} : riskResult reasons = .pass ↔ reasons = [] := by
  constructor
  · intro h
    unfold riskResult at h
    split at h
    · cases h
    · split at h
      · cases h
      · split at h
        · cases h
        · rename_i hne
          exact not_not.mp hne
  · intro h
    rw [h]
    rfl

/-! ## What an approved intent has passed -/

section Approved

variable {config : OrderManagerSettings} {l : Ledger} {queued : Nat} {cycle : Cycle}
  {killSwitchState : KillSwitchState} {intent : ManagedOrderIntent}

theorem approved_iff :
    (config.riskDecision l queued cycle killSwitchState intent).approved = true ↔
      ∀ check ∈ config.riskChecks l queued cycle killSwitchState intent, check.1 = false := by
  rw [← reasonsOf_eq_nil, ← riskResult_eq_pass]
  exact decide_eq_true_iff

variable {check : Check}

theorem mem_riskChecks_gate (h : check ∈ config.riskGates) :
    check ∈ config.riskChecks l queued cycle killSwitchState intent := by
  simp [riskChecks, h]

theorem mem_riskChecks_buy (hbuy : intent.side = .buy)
    (h : check ∈ config.buyLimits l intent cycle.portfolio cycle.now) :
    check ∈ config.riskChecks l queued cycle killSwitchState intent := by
  simp [riskChecks, hbuy, h]

theorem mem_riskChecks_common (h : check ∈ config.commonOrderChecks intent cycle.now) :
    check ∈ config.riskChecks l queued cycle killSwitchState intent := by
  simp [riskChecks, h]

variable (h : (config.riskDecision l queued cycle killSwitchState intent).approved = true)
include h

theorem approved_gates :
    config.enabled = true ∧ config.mode = "LIVE_SIM" ∧ config.allowLiveSimOrders = true := by
  have hchecks := fun check hcheck => approved_iff.mp h check (mem_riskChecks_gate hcheck)
  simpa [riskGates] using hchecks

theorem approved_quantity : 0 < intent.quantity ∧ intent.quantity ≤ config.maxOrderQuantity := by
  have hcommon := fun check hcheck => approved_iff.mp h check (mem_riskChecks_common hcheck)
  have hpos := hcommon (intent.quantity ≤ 0, "QUANTITY_INVALID") mem_cons_self
  have hmax := hcommon (config.maxOrderQuantity < intent.quantity, "MAX_ORDER_QUANTITY")
    (mem_cons_of_mem _ mem_cons_self)
  have h1 := of_decide_eq_false hpos
  have h2 := of_decide_eq_false hmax
  omega

theorem approved_killSwitch (hbuy : intent.side = .buy) : killSwitchState.blocksBuy = false := by
  have hcheck := approved_iff.mp h
    (intent.side = .buy ∧ killSwitchState.blocksBuy, "KILL_SWITCH_BLOCKS_BUY")
    (by simp [riskChecks])
  simpa [hbuy] using hcheck

theorem approved_buyLimits (hbuy : intent.side = .buy) :
    l.todayOrderCount intent.tradeDate .buy < config.maxDailyBuyOrders ∧
      l.dailyCodeOrderCount intent.tradeDate intent.code < config.maxDailyOrdersPerCode ∧
      l.hasPendingOrder intent.code = false ∧
      (config.reconcileRequiredBlocksBuy = true → l.hasReconcileRequiredOrder = false) := by
  have hlimits := fun check hcheck => approved_iff.mp h check (mem_riskChecks_buy hbuy hcheck)
  simp only [buyLimits, mem_append, mem_cons, or_imp,
    forall_and, forall_eq, decide_eq_false_iff_not, not_and, Bool.not_eq_true] at hlimits
  obtain ⟨⟨hbuys, hcode, _, _, hpending, hreconcile, _⟩, _⟩ := hlimits
  refine ⟨by omega, by omega, ?_, ?_⟩
  · simpa using hpending
  · simpa using hreconcile

end Approved

end TradingCore.Orders
