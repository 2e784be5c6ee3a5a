import TradingCore.Base.Numeral
import TradingCore.LiveSim.CashExposure

/-!
# The amount of a LIVE_SIM order

How `enqueue_live_sim_order` of `trading_app/order_enqueue_service.py` sizes a request and
measures it: `_apply_live_sim_cash_sizing`, `_live_sim_pre_submit_block_reason` and the safety
guard of `trading/risk/safety_guard.py`, each with the limit that
`_live_sim_order_amount_limit` derives from `trading_app/cash_risk_limits.py`. What the checks
say that do not look at amounts is input. `none` is a call that raises an error or saves an
order that is not submitted.
-/

namespace TradingCore.LiveSim.Sizing

open Base Text
open Orders (orText orInt)

/-! ## Requests -/

/-- What the sizing reads of the settings of the service. -/
structure CoreSettings where
  maxOrderAmount : Int := 3000000
  maxDailyOrdersPerCode : Int := 5
  runtimeDryRunAccount : String := ""

/-- What the sizing reads of a request. `reasonCodes` is the entry of that name of the
metadata. -/
structure RuntimeOrderIntentRequest where
  account : String := ""
  code : String := ""
  side : String := "buy"
  quantity : Int := 0
  price : Int := 0
  hoga : String := "00"
  orderPhase : String := "entry"
  gateReason : String := ""
  metadata : Mapping := Dict.empty
  reasonCodes : List Value := []

/-- A `BrokerOrderRequest`. -/
structure BrokerOrderRequest where
  account : String
  code : String
  quantity : Int
  price : Int
  side : String
  hoga : String
deriving DecidableEq

structure GatewayStatus where
  values : Mapping := Dict.empty
  lastHeartbeatPayload : Mapping := Dict.empty

/-- What the checks say that do not look at amounts: those of
`_live_sim_pre_submit_block_reason` in front of the amounts and behind them, the position of a
sale, the orders so far, and the Gateway. -/
structure OrderAnswers where
  blockedBefore : Bool := false
  blockedAfter : Bool := false
  exitQuantity : Option Int := none
  duplicate : Bool := false
  duplicateCommand : Bool := false
  existingOrderCommandCount : Int := 0
  accepted : Bool := true

/-! ## Cash limits -/

def cashCandidateKeys : List String :=
  ["available_cash_krw", "orderable_cash_krw", "buying_power_krw", "cash_balance_krw",
    "deposit_krw", "d2_deposit_krw", "d_plus_2_deposit_krw"]

/-- `_int(value, 0)`. -/
def cashInt (value : Value) : Int :=
  ((decimal? (.ofList (value.text.toList.filter (· ≠ ',')))).map truncate).getD 0

def firstCash (payload : Mapping) : Option Int :=
  cashCandidateKeys.findSome? fun key =>
    if 0 < cashInt (payload.value key) then some (cashInt (payload.value key)) else none

def resolveAvailableCash (execution : Mapping) (gatewayStatus : GatewayStatus) : Int :=
  (((firstCash execution).or (firstCash gatewayStatus.values)).or
    (firstCash gatewayStatus.lastHeartbeatPayload)).getD 0

def ratio (value : Value) (default : Rat) : Rat :=
  let parsed := value.float?.getD default
  max 0 (if 1 < parsed then parsed / 100 else parsed)

/-- `_bool`, and `_boolish`. -/
def boolish (value : Value) (default : Bool) : Bool :=
  match value with
  | .none => default
  | .bool b => b
  | value =>
      let text := lower (strip value.text)
      if text ∈ ["1", "true", "yes", "y", "on"] then true
      else if text ∈ ["0", "false", "no", "n", "off"] then false
      else default

/-- What the sizing reads of the limits that the cash sets. -/
structure CashLimits where
  enabled : Bool
  perOrderAmount : Int := 0
  minLotExceptionEnabled : Bool := false
  minLotExceptionAmount : Int := 0

def resolveLiveSimCashLimits (execution : Mapping) (gatewayStatus : GatewayStatus) : CashLimits :=
  let cash := resolveAvailableCash execution gatewayStatus
  let limit := fun (share : Rat) (absoluteCap : Int) =>
    limitFromRatio (truncate ((cash : Rat) * max 0 share)) absoluteCap
  if boolish (execution.value "cash_based_limits_enabled") true = false ∨ cash ≤ 0 then
    { enabled := false }
  else
    { enabled := true
      perOrderAmount := limit (ratio (execution.value "per_order_limit_pct") (5 / 100))
        (cashInt (execution.value "per_order_absolute_cap_krw"))
      minLotExceptionEnabled := boolish (execution.value "min_lot_exception_enabled") true
      minLotExceptionAmount := limit (ratio (execution.value "min_lot_exception_pct") (6 / 100))
        (cashInt (execution.value "min_lot_exception_absolute_cap_krw")) }

/-! ## The limit of an order -/

namespace RuntimeOrderIntentRequest

variable (request : RuntimeOrderIntentRequest)

/-- The texts among which `_is_ready_early_small` and `_is_ready_shadow_small_entry` look. -/
def readyTexts (keys : List String) : List String :=
  upper request.gateReason :: keys.map (fun key => upper (request.metadata.textOr key)) ++
    request.reasonCodes.map fun code => upper (code.or (.str "")).text

def isReadyEarlySmall : Bool :=
  "READY_EARLY_SMALL" ∈ request.readyTexts ["ready_type", "final_status", "final_gate_status"]

def isReadyShadowSmallEntry : Bool :=
  let values := request.readyTexts ["ready_type", "final_status", "final_gate_status",
    "order_eligibility", "shadow_small_entry_promotion_status"]
  "READY_SHADOW_SMALL_ENTRY" ∈ values ∨
    "BUY_ELIGIBLE_SHADOW_SMALL_ENTRY_GUARDED" ∈ values ∨ "PROMOTED" ∈ values

end RuntimeOrderIntentRequest

/-- The limit of an order, with the cash limits behind it. -/
structure AmountLimit where
  maxOrderAmount : Int
  cashLimits : CashLimits

/-- The multiplier of `_live_sim_order_amount_limit` for a small entry. -/
def smallEntryMultiplier (request : RuntimeOrderIntentRequest) (execution : Mapping) :
    Option Rat := do
  let early ← ((execution.value "early_small_max_order_amount_multiplier").or
    (.other "0.5" true)).float?
  let multiplier ←
    if request.isReadyShadowSmallEntry then
      let own := (request.metadata.value "shadow_small_entry_position_size_multiplier").or
        (execution.value "shadow_small_entry_max_order_amount_multiplier")
      if own.truthy then own.float? else some early
    else some early
  some (min 1 (max 0 multiplier))

def liveSimOrderAmountLimit (settings : CoreSettings) (request : RuntimeOrderIntentRequest)
    (side : String) (execution : Mapping) (gatewayStatus : GatewayStatus) : Option AmountLimit := do
  let cashLimits := resolveLiveSimCashLimits execution gatewayStatus
  let maxAmount ←
    if cashLimits.enabled ∧ 0 < cashLimits.perOrderAmount then some cashLimits.perOrderAmount
    else ((execution.value "max_order_amount_krw").or (.int settings.maxOrderAmount)).int?
  if side = "buy" ∧ (request.isReadyEarlySmall ∨ request.isReadyShadowSmallEntry) then
    let multiplier ← smallEntryMultiplier request execution
    some ⟨max 1 (truncate (maxAmount * multiplier)), cashLimits⟩
  else some ⟨maxAmount, cashLimits⟩

namespace AmountLimit

variable (limit : AmountLimit)

/-- `_live_sim_min_lot_exception_allowed`. -/
def minLotExceptionAllowed (price : Int) : Bool :=
  limit.cashLimits.enabled ∧ limit.cashLimits.minLotExceptionEnabled ∧ 0 < price ∧
    price ≤ limit.cashLimits.minLotExceptionAmount

/-- `_live_sim_min_lot_exception_applies`. -/
def minLotExceptionApplies (order : BrokerOrderRequest) : Bool :=
  lower order.side = "buy" ∧ order.quantity = 1 ∧ limit.minLotExceptionAllowed order.price

/-- The quantity that `_apply_live_sim_cash_sizing` aims at. -/
def targetQuantity (price : Int) : Int :=
  let target := if 0 < limit.maxOrderAmount then limit.maxOrderAmount / price else 0
  if target < 1 ∧ limit.minLotExceptionAllowed price then 1 else target

end AmountLimit

/-- `int(request.quantity) * max(0, int(request.price))`. -/
def BrokerOrderRequest.amount (order : BrokerOrderRequest) : Int :=
  order.quantity * max 0 order.price

/-! ## Sizing -/

def brokerRequestFromRuntimeLiveSim (settings : CoreSettings)
    (request : RuntimeOrderIntentRequest) (gatewayStatus : GatewayStatus) : BrokerOrderRequest where
  account := orText request.account
    (orText (gatewayStatus.values.textOr "account") settings.runtimeDryRunAccount)
  code := request.code
  quantity := request.quantity
  price := request.price
  side := lower request.side
  hoga := request.hoga

def applyLiveSimCashSizing (settings : CoreSettings) (request : RuntimeOrderIntentRequest)
    (order : BrokerOrderRequest) (execution : Mapping) (gatewayStatus : GatewayStatus) :
    Option BrokerOrderRequest :=
  if lower order.side ≠ "buy" then some order
  else do
    let limit ← liveSimOrderAmountLimit settings request order.side execution gatewayStatus
    if limit.cashLimits.enabled = false ∨
        boolish (execution.value "cash_based_auto_size_enabled") true = false then some order
    else if order.quantity ≤ 0 ∨ max 0 order.price ≤ 0 then some order
    else
      let target := limit.targetQuantity (max 0 order.price)
      if target ≤ 0 ∨ order.quantity ≤ target then some order
      else some { order with quantity := target }

/-- `_apply_live_sim_exit_position_quantity`, which looks at sales only. -/
def applyLiveSimExitPositionQuantity (request : RuntimeOrderIntentRequest)
    (order : BrokerOrderRequest) (answers : OrderAnswers) : Option BrokerOrderRequest :=
  if lower order.side ≠ "sell" then some order
  else if lower request.orderPhase ≠ "exit" then some order
  else answers.exitQuantity.map fun quantity => { order with quantity := quantity }

/-! ## Checks -/

def orderPriceTypeAllowed (order : BrokerOrderRequest) (execution : Mapping) : Bool :=
  0 < order.quantity ∧ 0 < order.price ∧
    ((execution.value "allow_market_order").truthy ∨ order.hoga ∈ ["00", "0", ""])

/-- Do the amounts let the order pass in `_live_sim_pre_submit_block_reason`? -/
def amountAllowed (settings : CoreSettings) (request : RuntimeOrderIntentRequest)
    (order : BrokerOrderRequest) (execution : Mapping) (gatewayStatus : GatewayStatus) :
    Option Bool := do
  let minAmount ← ((execution.value "min_order_amount_krw").or (.int 0)).int?
  let limit ← liveSimOrderAmountLimit settings request order.side execution gatewayStatus
  if order.side = "buy" ∧ 0 < minAmount ∧ order.amount < minAmount then some false
  else if order.side = "buy" ∧ limit.maxOrderAmount < order.amount then
    some (limit.minLotExceptionApplies order)
  else some true

/-- Does `_live_sim_pre_submit_block_reason` let the order pass? -/
def preSubmitAllowed (settings : CoreSettings) (request : RuntimeOrderIntentRequest)
    (order : BrokerOrderRequest) (execution : Mapping) (gatewayStatus : GatewayStatus)
    (answers : OrderAnswers) : Option Bool :=
  if answers.blockedBefore then some false
  else if ¬ orderPriceTypeAllowed order execution then some false
  else (amountAllowed settings request order execution gatewayStatus).map fun allowed =>
    allowed && !answers.blockedAfter

def liveSimSafetyMaxOrderAmount (settings : CoreSettings) (request : RuntimeOrderIntentRequest)
    (order : BrokerOrderRequest) (execution : Mapping) (gatewayStatus : GatewayStatus) :
    Option Int :=
  (liveSimOrderAmountLimit settings request order.side execution gatewayStatus).map fun limit =>
    if limit.maxOrderAmount < order.amount ∧ limit.minLotExceptionApplies order then order.amount
    else limit.maxOrderAmount

structure OrderSafetyConfig where
  mode : String := "OBSERVE"
  liveOrderEnabled : Bool := false
  maxOrderAmount : Int := 3000000
  maxDailyOrdersPerCode : Int := 5
  allowZeroPrice : Bool := false
  limitSellAmount : Bool := true

def liveSimGuard (settings : CoreSettings) (execution : Mapping) (maxOrderAmount : Int) :
    Option OrderSafetyConfig := do
  let maxAmount ← ((Value.int maxOrderAmount).or
    ((execution.value "max_order_amount_krw").or (.int settings.maxOrderAmount))).int?
  let maxDaily ←
    ((execution.value "max_orders_per_day").or (.int settings.maxDailyOrdersPerCode)).int?
  some
    { mode := "LIVE"
      liveOrderEnabled := true
      maxOrderAmount := maxAmount
      maxDailyOrdersPerCode := maxDaily
      allowZeroPrice := false
      limitSellAmount := false }

/-- `OrderCommandSafetyGuard.validate`: the checks, each with its name. -/
def OrderSafetyConfig.validate (config : OrderSafetyConfig) (order : BrokerOrderRequest)
    (gatewayStatus : GatewayStatus) (answers : OrderAnswers) : List (String × Bool) :=
  let status := fun key => (gatewayStatus.values.value key).truthy
  [("mode_live_enabled", config.mode = "LIVE" && config.liveOrderEnabled),
    ("account_present", order.account ≠ ""),
    ("code_present", order.code ≠ ""),
    ("side_valid", order.side ∈ ["buy", "sell"]),
    ("quantity_positive", 0 < order.quantity),
    ("price_valid", 0 ≤ order.price && (config.allowZeroPrice || 0 < order.price)),
    ("order_amount_limit", (order.side = "sell" && !config.limitSellAmount) ||
      order.amount ≤ config.maxOrderAmount),
    ("daily_code_order_limit", answers.existingOrderCommandCount < config.maxDailyOrdersPerCode),
    ("dedupe", !answers.duplicateCommand),
    ("gateway_connected", status "connected"),
    ("gateway_heartbeat", status "heartbeat_ok"),
    ("gateway_logged_in", status "kiwoom_logged_in"),
    ("gateway_orderable", status "orderable"),
    ("gateway_account_match", !status "account" ||
      (gatewayStatus.values.value "account").text = order.account)]

/-! ## `enqueue_live_sim_order` -/

/-- The order that `enqueue_live_sim_order` submits. -/
def enqueueLiveSimOrder (settings : CoreSettings) (request : RuntimeOrderIntentRequest)
    (execution : Mapping) (gatewayStatus : GatewayStatus) (answers : OrderAnswers) :
    Option BrokerOrderRequest := do
  let sized ← applyLiveSimCashSizing settings request
    (brokerRequestFromRuntimeLiveSim settings request gatewayStatus) execution gatewayStatus
  let order ← applyLiveSimExitPositionQuantity request sized answers
  let allowed ← preSubmitAllowed settings request order execution gatewayStatus answers
  guard (¬ answers.duplicate ∧ allowed)
  let maxAmount ← liveSimSafetyMaxOrderAmount settings request order execution gatewayStatus
  let config ← liveSimGuard settings execution maxAmount
  guard ((config.validate order gatewayStatus answers).all (·.2) ∧ answers.accepted)
  some order

end TradingCore.LiveSim.Sizing
