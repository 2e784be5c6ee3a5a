import TradingCore.LiveSim.BuySizing
import TradingCore.LiveSim.ExitTriggers

/-!
# Trade dates and daily limits

What `trading_app/order_enqueue_service.py` counts before it submits a LIVE_SIM order or
accepts a dry-run intent, and the trade dates that it writes and counts under: `_trade_date`
cuts a text, `_kst_trade_date` converts an instant. What the checks of a LIVE_SIM order say
that do not count is input; the decision guard of a dry run is the safety guard of
`BuySizing`.

The clock is read anew for every date, so a call has several texts of the clock.
-/

namespace TradingCore.LiveSim.Daily

open Base LiveSimOrderStatus Sizing
open Orders (orText)

/-! ## Trade dates -/

/-- A request with what its dates, keys and counts read. `keyRest` is what a generated key
says behind the trade date. -/
structure DatedRequest extends RuntimeOrderIntentRequest where
  tag : String := ""
  idempotencyKey : String := ""
  runtimeCycleAt : String := ""
  keyRest : String := ""

/-- `text[:10]`. -/
def datePart (text : String) : String := .ofList (text.toList.take 10)

def tradeDate (request : DatedRequest) (now : String) : String :=
  datePart (orText request.runtimeCycleAt now)

/-- `_kst_trade_date` of a text of the clock, `none` if the calendar has no such date. -/
def kstTradeDate (timestamp : String) : Option String :=
  match parseIso timestamp with
  | none => some (datePart timestamp)
  | some time => localDate? koreanOffset time.instant

/-! ## Dry runs -/

/-- What the service reads of its settings for a dry run. -/
structure DryRunSettings extends CoreSettings where
  runtimeDryRunRequireAccount : Bool := false

/-- A row of `runtime_order_intents`. A command with an idempotency key has it as its dedupe
key, so the two keys of a row are one. -/
structure DryRunIntent where
  tradeDate : String
  code : String
  side : String
  tag : String
  idempotencyKey : String
  accepted : Bool

def brokerRequestFromRuntime (settings : DryRunSettings) (request : DatedRequest) :
    BrokerOrderRequest :=
  let account := orText request.account settings.runtimeDryRunAccount
  { account :=
      if account = "" ∧ ¬ settings.runtimeDryRunRequireAccount then "dryrun-account" else account
    code := request.code
    quantity := request.quantity
    price := request.price
    side := request.side
    hoga := request.hoga }

def applyDryRunSizingCap (settings : DryRunSettings) (order : BrokerOrderRequest) :
    BrokerOrderRequest :=
  let adjusted := settings.maxOrderAmount / max 0 order.price
  if Text.lower order.side ≠ "buy" then order
  else if order.quantity ≤ 0 ∨ max 0 order.price ≤ 0 ∨ settings.maxOrderAmount ≤ 0 then order
  else if order.amount ≤ settings.maxOrderAmount then order
  else if adjusted ≤ 0 ∨ order.quantity ≤ adjusted then order
  else { order with quantity := adjusted }

/-- `_runtime_idempotency_key`, or the key that the request brings along. -/
def idempotencyKey (request : DatedRequest) (now : String) : String :=
  orText request.idempotencyKey
    ((if request.side = "sell" then "runtime:dryrun:exit:" else "runtime:dryrun:entry:") ++
      tradeDate request now ++ ":" ++ request.keyRest)

/-- `_dry_run_intent_count`: of the last 500 intents of the code. -/
def dryRunIntentCount (intents : List DryRunIntent) (code side tag : String) : Nat :=
  ((intents.filter fun row => code = "" ∨ row.code = code).reverse.take 500).countP fun row =>
    row.side = side ∧ (tag = "" ∨ row.tag = tag)

def syntheticGatewayStatus (order : BrokerOrderRequest) : GatewayStatus where
  values := Dict.ofList [("connected", .bool true), ("heartbeat_ok", .bool true),
    ("kiwoom_logged_in", .bool true), ("orderable", .bool true), ("account", .str order.account)]

/-- Does the decision guard let the order pass after so many intents? -/
def decisionSafetyOk (settings : DryRunSettings) (order : BrokerOrderRequest) (count : Nat) :
    Bool :=
  let config : OrderSafetyConfig :=
    { mode := "LIVE"
      liveOrderEnabled := true
      maxOrderAmount := settings.maxOrderAmount
      maxDailyOrdersPerCode := settings.maxDailyOrdersPerCode
      allowZeroPrice := false }
  (config.validate order (syntheticGatewayStatus order)
    { existingOrderCommandCount := count }).all (·.2)

/-- The intent that `enqueue_dry_run_order` saves, unless its key is there already. -/
def dryRunIntent (settings : DryRunSettings) (intents : List DryRunIntent)
    (request : DatedRequest) (now keyNow : String) : Option DryRunIntent :=
  let order := applyDryRunSizingCap settings (brokerRequestFromRuntime settings request)
  let key := idempotencyKey request keyNow
  if intents.any fun row => row.idempotencyKey = key then none
  else some
    { tradeDate := tradeDate request now
      code := order.code
      side := order.side
      tag := request.tag
      idempotencyKey := key
      accepted := decisionSafetyOk settings order
        (dryRunIntentCount intents order.code order.side request.tag) }

def dryRunAccepted (settings : DryRunSettings) (intents : List DryRunIntent)
    (request : DatedRequest) (now keyNow : String) : Bool :=
  (dryRunIntent settings intents request now keyNow).any (·.accepted)

/-! ## LIVE_SIM orders -/

/-- A row of `live_sim_orders`, with the text of the clock at the call that saved it. -/
structure LiveSimRow where
  tradeDate : String
  calledAt : String
  status : LiveSimOrderStatus

/-- What the checks of an order say that do not count, and the Gateway. -/
structure LiveSimAnswers where
  blockedBefore : Bool := false
  blockedAfter : Bool := false
  duplicate : Bool := false
  accepted : Bool := true
  rejectReason : String := ""

/-- `submitted_order_count` of `live_sim_summary`. -/
def submittedOrderCount (orders : List LiveSimRow) (date : String) : Nat :=
  orders.countP fun row => (date = "" ∨ row.tradeDate = date) ∧ row.status ∈ [submitted, accepted]

/-- Is `LIVE_SIM_MAX_ORDERS_HIT`, or does a check in front of it block the order? -/
def maxOrdersHit (orders : List LiveSimRow) (maxOrdersPerDay : Int) (guardNow : String)
    (answers : LiveSimAnswers) : Option Bool :=
  if answers.blockedBefore then some true
  else (kstTradeDate guardNow).map fun date =>
    decide (0 < maxOrdersPerDay ∧ maxOrdersPerDay ≤ submittedOrderCount orders date)

/-- The row that `enqueue_live_sim_order` saves, `none` if it raises an error. -/
def liveSimRow (orders : List LiveSimRow) (maxOrdersPerDay : Int) (request : DatedRequest)
    (now guardNow : String) (answers : LiveSimAnswers) : Option LiveSimRow :=
  (maxOrdersHit orders maxOrdersPerDay guardNow answers).map fun (hit : Bool) =>
    { tradeDate := tradeDate request now
      calledAt := now
      status :=
        if answers.duplicate then duplicate
        else if hit ∨ answers.blockedAfter then blocked
        else if answers.accepted then submitted
        else if answers.rejectReason ∈ ["TIMEOUT", "UNKNOWN"] then unknownSubmit
        else blocked }

/-! ## The service -/

structure DailyConfig where
  settings : DryRunSettings := {}
  maxOrdersPerDay : Int

structure DailyDatabase where
  intents : List DryRunIntent := []
  orders : List LiveSimRow := []

/-- A call of the service. -/
inductive DailyCall
  /-- `enqueue_live_sim_order`, with the clock at its start and at its count -/
  | liveSim (request : DatedRequest) (now guardNow : String) (answers : LiveSimAnswers)
  /-- `enqueue_dry_run_order`, with the clock for its row and for its key -/
  | dryRun (request : DatedRequest) (now keyNow : String)

namespace DailyDatabase

def call (config : DailyConfig) (db : DailyDatabase) : DailyCall → DailyDatabase
  | .liveSim request now guardNow answers =>
      { db with orders := db.orders ++
          (liveSimRow db.orders config.maxOrdersPerDay request now guardNow answers).toList }
  | .dryRun request now keyNow =>
      { db with intents := db.intents ++
          (dryRunIntent config.settings db.intents request now keyNow).toList }

def machine (config : DailyConfig) : Machine DailyDatabase DailyCall Unit where
  step db call := (db.call config call, ())

end DailyDatabase

end TradingCore.LiveSim.Daily
