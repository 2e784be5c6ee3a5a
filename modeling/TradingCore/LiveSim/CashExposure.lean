import TradingCore.LiveSim.NoOversell

/-!
# Cash limits of the LIVE_SIM purchases

How `trading_app/order_enqueue_service.py` measures a purchase against the limits that
`trading_app/cash_risk_limits.py` derives from the available cash, and how a fill changes the
average price of its position. The ledger is extended by the column `entry_avg_price`.
-/

namespace TradingCore.LiveSim

open Base LiveSimOrderStatus
open Orders (orText orInt)

/-! ## Limits -/

/-- What the configuration and the Gateway say about the cash. The products are
`int(cash * ratio)`, as the floats of the configuration give them. -/
structure CashConfig where
  cashBasedLimitsEnabled : Bool := true
  availableCash : Int
  totalExposureProduct : Int
  totalExposureAbsoluteCap : Int := 0
  perSymbolExposureProduct : Int
  perSymbolExposureAbsoluteCap : Int := 0

structure CashLimits where
  enabled : Bool
  totalExposureAmount : Int := 0
  perSymbolExposureAmount : Int := 0

def limitFromRatio (product absoluteCap : Int) : Int :=
  if 0 < absoluteCap then min (max 0 product) absoluteCap else max 0 product

def resolveLiveSimCashLimits (config : CashConfig) : CashLimits :=
  if config.cashBasedLimitsEnabled = false ∨ config.availableCash ≤ 0 then { enabled := false }
  else
    { enabled := true
      totalExposureAmount :=
        limitFromRatio config.totalExposureProduct config.totalExposureAbsoluteCap
      perSymbolExposureAmount :=
        limitFromRatio config.perSymbolExposureProduct config.perSymbolExposureAbsoluteCap }

/-! ## Average prices -/

/-- `int(round(n / d))` for a positive `d`: to the nearest, and a half to the even. -/
def roundHalfEven (n d : Int) : Int :=
  if 2 * (n % d) < d then n / d
  else if d < 2 * (n % d) then n / d + 1
  else if (n / d) % 2 = 0 then n / d
  else n / d + 1

theorem le_roundHalfEven {n d m : Int} (hd : 0 < d) (h : m * d ≤ n) : m ≤ roundHalfEven n d := by
  have hquotient : m ≤ n / d := (Int.le_ediv_iff_mul_le hd).mpr h
  unfold roundHalfEven
  split_ifs <;> omega

theorem roundHalfEven_le {n d m : Int} (hd : 0 < d) (h : n ≤ m * d) : roundHalfEven n d ≤ m := by
  have hquotient : n / d ≤ m := Int.ediv_le_of_le_mul hd h
  have hdivision := Int.mul_ediv_add_emod n d
  have hrest := Int.emod_nonneg n (Int.ne_of_gt hd)
  by_cases hequal : n / d = m
  · -- then there is no remainder
    have hzero : n % d = 0 := by
      rw [hequal, Int.mul_comm] at hdivision
      omega
    unfold roundHalfEven
    rw [hzero, if_pos (by omega)]
    exact hquotient
  · unfold roundHalfEven
    split_ifs <;> omega

theorem two_mul_roundHalfEven_sub {n d : Int} (hd : 0 < d) :
    2 * (roundHalfEven n d * d - n) ≤ d ∧ -d ≤ 2 * (roundHalfEven n d * d - n) := by
  have hdivision := Int.mul_ediv_add_emod n d
  have hrest := Int.emod_nonneg n (Int.ne_of_gt hd)
  have hless := Int.emod_lt_of_pos n hd
  have hup : (n / d + 1) * d = d * (n / d) + d := by
    rw [Int.add_mul, Int.one_mul, Int.mul_comm]
  have hdown : n / d * d = d * (n / d) := Int.mul_comm ..
  unfold roundHalfEven
  split_ifs
  · rw [hdown]
    omega
  · rw [hup]
    omega
  · rw [hdown]
    omega
  · rw [hup]
    omega

/-- The `entry_avg_price` that a purchase leaves. -/
def averageAfterBuy (oldAvg oldQty fillPrice fillQty : Int) : Int :=
  if 0 < oldQty + fillQty then
    if oldQty = 0 then fillPrice
    else roundHalfEven (oldAvg * oldQty + fillPrice * fillQty) (oldQty + fillQty)
  else oldAvg

/-- The ledger with the column `entry_avg_price` of `live_sim_positions`. -/
structure PricedLedger where
  ledger : Ledger := {}
  entryAvgPrice : Dict String Int := Dict.empty

namespace PricedLedger

variable (b : PricedLedger)

/-- The `entry_avg_price` of a position. -/
def averageOf (positionId : String) : Int := b.entryAvgPrice.getD positionId 0

/-- `_live_sim_position_notional`. -/
def notional (positionId : String) (position : LiveSimPosition) : Int :=
  max 0 position.currentQty * max 0 (b.averageOf positionId)

/-- The average prices after an execution: a purchase that is booked changes that of its
position. -/
def pricesAfter (event : ExecutionEvent) : Dict String Int :=
  let fill := (b.ledger.report event).fill
  match (b.ledger.report event).positionId with
  | none => b.entryAvgPrice
  | some p =>
      if (b.ledger.report event).inserted = true ∧ Text.lower fill.side = "buy" then
        b.entryAvgPrice.set p
          (averageAfterBuy (b.averageOf p) (b.ledger.held p) (max 0 event.price) fill.fillQty)
      else b.entryAvgPrice

end PricedLedger

/-! ## Purchases -/

/-- A `RuntimeOrderIntentRequest` to buy, with the quantity that the cash sizing leaves and the
key that `_live_sim_idempotency_key` gives it. `account` is the account of the request or else
of the Gateway. -/
structure BuyRequest where
  account : String := ""
  code : String
  quantity : Int
  price : Int
  candidateInstanceId : String := ""
  idempotencyKey : String := ""

/-- The statuses of the open positions. Nothing writes `EXIT_SUBMITTING`. -/
def LiveSimPositionStatus.isOpen (status : LiveSimPositionStatus) : Bool :=
  status ∈ [opened, partlyOpen, exitOrdered, reconcileRequired]

namespace PricedLedger

variable (b : PricedLedger)

/-- The open positions of the account that `_live_sim_cash_exposure_block` adds up. -/
def exposurePositions (request : BuyRequest) : List (String × LiveSimPosition) :=
  (b.ledger.positions.entries.reverse.take 1000).filter fun e =>
    e.2.status.isOpen ∧
      (maskAccount request.account = "" ∨ e.2.accountIdMasked = maskAccount request.account)

/-- Does `_live_sim_cash_exposure_block` block the purchase? A limit of nought is no limit. -/
def cashExposureBlock (limits : CashLimits) (request : BuyRequest) : Bool :=
  let orderAmount := request.quantity * max 0 request.price
  let positions := b.exposurePositions request
  let totalExposure := (positions.map fun e => b.notional e.1 e.2).sum
  let symbolExposure :=
    ((positions.filter fun e => e.2.code = request.code).map fun e => b.notional e.1 e.2).sum
  limits.enabled = true ∧ 0 < orderAmount ∧
    ((0 < limits.totalExposureAmount ∧
        limits.totalExposureAmount < totalExposure + orderAmount) ∨
      (0 < limits.perSymbolExposureAmount ∧
        limits.perSymbolExposureAmount < symbolExposure + orderAmount))

/-- The orders in a status that `list_live_sim_orders` finds for the code. -/
def ordersOfCode (code : String) (status : LiveSimOrderStatus) (side : Option String) :
    List (String × LiveSimOrder) :=
  (b.ledger.orders.entries.reverse.filter fun e =>
    e.2.orderStatus = status ∧ (code = "" ∨ e.2.code = code) ∧
      side.all fun side => e.2.side = side).take 50

/-- Do the orders and positions of the code block the purchase
(`_live_sim_buy_lifecycle_block`)? A purchase of another candidate does not. -/
def buyLifecycleBlock (request : BuyRequest) : Bool :=
  let account := maskAccount request.account
  ([submitted, accepted, partialFilled].any fun status =>
      (b.ordersOfCode request.code status (some "buy")).any fun e =>
        e.2.accountIdMasked = account ∧
          (request.candidateInstanceId = "" ∨
            e.2.candidateInstanceId ∈ ["", request.candidateInstanceId])) ∨
    ([unknownSubmit, reconcileRequired].any fun status =>
      (b.ordersOfCode request.code status none).any fun e => e.2.accountIdMasked = account) ∨
    ((b.ledger.positions.entries.reverse.filter fun e =>
        (request.code = "" ∨ e.2.code = request.code) ∧
          (account = "" ∨ e.2.accountIdMasked = account)).take 50).any fun e =>
      e.2.status = .reconcileRequired

/-- The status of the order that `enqueue_live_sim_order` saves for a purchase. -/
def enqueuedBuyStatus (limits : CashLimits) (request : BuyRequest) (answers : EnqueueAnswers) :
    LiveSimOrderStatus :=
  if (b.ledger.findByIdempotency request.idempotencyKey).isSome then duplicate
  else if answers.blocked ∨ b.cashExposureBlock limits request ∨ b.buyLifecycleBlock request then
    blocked
  else if ¬ answers.liveSafetyOk then blocked
  else if answers.accepted then submitted
  else if answers.rejectReason ∈ ["TIMEOUT", "UNKNOWN"] then unknownSubmit
  else blocked

/-- Does the purchase get as far as the Gateway's queue? -/
def buyReachesGateway (limits : CashLimits) (request : BuyRequest) (answers : EnqueueAnswers) :
    Bool :=
  (b.ledger.findByIdempotency request.idempotencyKey).isNone ∧ answers.blocked = false ∧
    b.cashExposureBlock limits request = false ∧ b.buyLifecycleBlock request = false ∧
    answers.liveSafetyOk = true

/-- The order that `enqueue_live_sim_order` saves for a purchase. -/
def enqueuedBuy (limits : CashLimits) (request : BuyRequest) (answers : EnqueueAnswers) :
    LiveSimOrder :=
  let status := b.enqueuedBuyStatus limits request answers
  { commandId := if b.buyReachesGateway limits request answers then answers.commandId else ""
    candidateInstanceId := request.candidateInstanceId
    code := request.code
    accountIdMasked := maskAccount request.account
    side := "buy"
    requestedQty := request.quantity
    submittedQty := request.quantity
    submittedPrice := request.price
    orderStatus := status
    submittedAt := if status ∈ [submitted, unknownSubmit] then answers.now else ""
    createdAt := answers.now
    idempotencyKey := request.idempotencyKey }

end PricedLedger

/-! ## The machine -/

/-- The steps that change what the account has at stake. -/
inductive ExposureAction
  /-- `enqueue_live_sim_order` of a purchase -/
  | buy (orderIntentId : String) (request : BuyRequest) (answers : EnqueueAnswers)
  /-- `enqueue_live_sim_order` of a sale -/
  | sell (orderIntentId : String) (request : SellRequest) (answers : EnqueueAnswers)
  /-- a position in `run_live_sim_exit_monitor` -/
  | exitMonitor (positionId : String) (trigger : ExitTrigger)
  /-- an order in `run_live_sim_order_lifecycle` -/
  | lifecycle (orderIntentId : String) (answers : CancelAnswers)
  /-- `_sync_live_sim_order_result` -/
  | orderResult (result : BrokerOrderResult)
  /-- `_sync_live_sim_execution` -/
  | execution (event : ExecutionEvent)

namespace PricedLedger

def perform (limits : CashLimits) (b : PricedLedger) : ExposureAction → PricedLedger
  | .buy id request answers =>
      { b with ledger := b.ledger.commit (.order id (b.enqueuedBuy limits request answers)) }
  | .sell id request answers => { b with ledger := b.ledger.enqueueLiveSimOrder id request answers }
  | .exitMonitor positionId trigger =>
      { b with ledger := b.ledger.exitMonitorStep positionId trigger }
  | .lifecycle id answers => { b with ledger := b.ledger.lifecycleStep id answers }
  | .orderResult result => { b with ledger := b.ledger.act (.orderResult result) }
  | .execution event =>
      { ledger := b.ledger.act (.execution event), entryAvgPrice := b.pricesAfter event }

def machine (limits : CashLimits) : Machine PricedLedger ExposureAction Unit where
  step b action := (b.perform limits action, ())

end PricedLedger
end TradingCore.LiveSim
