import TradingCore.Base.Data
import TradingCore.Base.IsoTime
import TradingCore.LiveSim.PositionRuntime
import TradingCore.Prices.PriceGrid
import TradingCore.Themes.StateMachine

/-!
# The fill simulator

`simulate_fill` of `trading_app/fill_simulator.py`: what an order would have got from the ticks of
its code. The tick that counts is the first one from the order's time on, latency included, or
else the last one before. A limit order is filled at the quote, rounded away from the order, within
its limit, rounded towards it.

* Times are read without their offset and without the fraction of the second.
* An order without a price is measured against the quote, or else the last price, as it stands.

Prices and ratios are exact numbers.
-/

namespace TradingCore.Simulation

open Base Prices Text
open LiveSim (roundInt)
open Themes (round4)

/-! ## Orders, ticks and results -/

inductive OrderStyle
  | limit | limitConservative | market
deriving DecidableEq

structure FillSimulationConfig where
  staleTickAgeSec : Rat := 3
  defaultLimitLatencyMs : Int := 150
  defaultMarketLatencyMs : Int := 250
  conservativeMissingLiquidityFillRatio : Rat := 1 / 2

def nestedKeys : List String := ["metadata", "request", "response"]

/-- An order as `simulate_fill` reads it: the scalars under its own keys (`None` where there is
none), and what else there is, where a latency may be found at any depth. -/
structure Order where
  side : Value := .none
  hoga : Value := .none
  createdAt : Value := .none
  updatedAt : Value := .none
  decisionAt : Value := .none
  price : Value := .none
  orderAmount : Value := .none
  quantity : Value := .none
  others : Fields := Dict.empty
  nested : ∀ key ∈ nestedKeys, (others.item key).truthy → ∃ e, others.item key = .dict e := by
    intro key _ h
    cases h

/-- A tick, `None` where it has no such entry. -/
structure Tick where
  timestamp : Value := .none
  receivedAt : Value := .none
  createdAt : Value := .none
  price : Value := .none
  bestBid : Value := .none
  bestAsk : Value := .none
  spreadTicks : Value := .none
  tradeValue : Value := .none
  executionStrength : Value := .none
  eventId : Value := .none
  id : Value := .none
deriving DecidableEq

structure FillSimulationResult where
  side : Side
  orderStyle : OrderStyle
  requestedPrice : Option Rat := none
  requestPriceRaw : Option Rat := none
  roundedRequestedPrice : Option Int := none
  fillPrice : Option Rat := none
  slippageBps : Option Rat := none
  fillRatio : Rat := 0
  partialFill : Bool := false
  simulatedLatencyMs : Int := 0
  rejectOrSkipReason : String := ""
  staleTick : Bool := false
  tickSize : Option Int := none
  limitPriceHit : Option Bool := none
  dataStatus : String := "OK"
  observedPrice : Option Rat := none
  bestBid : Option Rat := none
  bestAsk : Option Rat := none
  spreadTicks : Option Int := none
  tradeValue : Option Rat := none
  executionStrength : Option Rat := none
  orderAmount : Option Rat := none
  tickTimestamp : String := ""
  tickAgeSec : Option Rat := none
  observedTickId : String := ""
  fallbackReasons : List String := []
  optionalDataMissing : List String := []

/-! ## What an order asks for -/

/-- `_side`. -/
def sideOf (order : Order) : Side :=
  if lower (strip (order.side.or (.str "")).text) = "sell" then .sell else .buy

def orderStyle (order : Order) : OrderStyle :=
  let hoga := strip (order.hoga.or (.str "")).text
  if hoga ∈ ["03", "3"] then .market
  else if hoga ∈ ["", "0", "00"] then .limit
  else .limitConservative

/-- Is the data `None` or the empty text? -/
def blank : Data → Bool
  | .leaf .none => true
  | .leaf (.str s) => s = ""
  | _ => false

mutual

def recursiveFirst (key : String) : Data → Data
  | .dict entries =>
      let own := (Dict.find key entries).getD (.leaf .none)
      if blank own then firstInEntries key entries else own
  | .list items => firstInItems key items
  | _ => .leaf .none

def firstInEntries (key : String) : List (String × Data) → Data
  | [] => .leaf .none
  | (_, value) :: rest =>
      let found := recursiveFirst key value
      if blank found then firstInEntries key rest else found

def firstInItems (key : String) : List Data → Data
  | [] => .leaf .none
  | value :: rest =>
      let found := recursiveFirst key value
      if blank found then firstInItems key rest else found

end

/-- `dict(order.get(key) or {})`. -/
def Order.nestedData (order : Order) (key : String) : Data :=
  match order.others.item key with
  | .dict entries => .dict entries
  | _ => .dict []

/-- `_float` of data: what is no scalar is no number. -/
def float? : Data → Option Rat
  | .leaf v => v.float?
  | _ => none

/-- `_simulated_latency_ms`. The scalars of the order hold no latency. -/
def simulatedLatencyMs (order : Order) (style : OrderStyle) (config : FillSimulationConfig) : Int :=
  let sources := .ofFields order.others :: nestedKeys.map order.nestedData
  let keys := ["simulated_latency_ms", "gateway_command_latency_ms", "command_latency_ms"]
  match (keys.flatMap fun key => sources.map (recursiveFirst key)).findSome? float? with
  | some value => max 0 (roundInt value)
  | none =>
      if style = .market then config.defaultMarketLatencyMs else config.defaultLimitLatencyMs

def positive? (x : Option Rat) : Option Rat := x.filter (0 < ·)

def orderAmount (order : Order) (requestedPrice : Option Rat) : Option Rat :=
  match positive? order.orderAmount.float? with
  | some amount => some amount
  | none =>
      match positive? order.quantity.float?, positive? requestedPrice with
      | some quantity, some price => some (quantity * price)
      | _, _ => none

/-! ## The tick that counts -/

def wallSecond (d : DateTime) : Int := { d with microsecond := 0, offset := none }.instant

def dateTime? (text : String) : Option DateTime :=
  if strip text = "" then none else parseIso (strip text)

def parseTime (text : String) : Option Int := (dateTime? text).map wallSecond

/-- `_first_text` of scalars. -/
def firstText (values : List Value) : String :=
  ((values.find? fun v => v ≠ .none ∧ v ≠ .str "").map Value.text).getD ""

def Order.dated (order : Order) : String :=
  firstText [order.createdAt, order.updatedAt, order.decisionAt]

def tickTimestamp (tick : Tick) : String :=
  (tick.timestamp.or (tick.receivedAt.or (tick.createdAt.or (.str "")))).text

def tickTime (tick : Tick) : Option Int := parseTime (tickTimestamp tick)

/-- A time later by milliseconds, `none` if it raises `OverflowError`. -/
def addMilliseconds? (time milliseconds : Int) : Option Int :=
  if hasDate (time + milliseconds * 1000) then some (time + milliseconds * 1000) else none

def sortedTicks (ticks : List Tick) : List Tick :=
  ticks.insertionSort fun a b => (tickTime a).getD 0 ≤ (tickTime b).getD 0

def firstTickAtOrAfter (ticks : List Tick) (target : Int) : Option Tick :=
  ticks.find? fun tick => (tickTime tick).any (target ≤ ·)

def latestTickAtOrBefore (ticks : List Tick) (target : Int) : Option Tick :=
  (ticks.filter fun tick => (tickTime tick).any (· ≤ target)).getLast?

/-- The tick that `simulate_fill` looks at. -/
def observedTick (ticks : List Tick) (target : Int) : Option Tick :=
  (firstTickAtOrAfter (sortedTicks ticks) target).or
    (latestTickAtOrBefore (sortedTicks ticks) target)

def tickAgeSec (target : Int) (tick : Tick) : Option Rat :=
  (tickTime tick).map fun time => if time ≤ target then ((target - time : Int) : Rat) / 1000000 else 0

/-! ## Filling -/

def quoteOf (side : Side) (bestBid bestAsk : Option Rat) : Option Rat :=
  match side with
  | .buy => bestAsk
  | .sell => bestBid

def limitPriceHit (side : Side) (requestedPrice observedPrice bestBid bestAsk : Option Rat) :
    Option Bool :=
  match positive? requestedPrice with
  | none => none
  | some requested =>
      ((quoteOf side bestBid bestAsk).or observedPrice).map fun reference =>
        match side with
        | .sell => decide (requested ≤ reference)
        | .buy => decide (reference ≤ requested)

/-- What stands in for a missing quote: the last price, a tick away from the order. -/
def quoteFallback (side : Side) (requestedPrice : Option Rat) (observed : Rat) : Rat :=
  let tick := ((krxStockTickSize observed).or (requestedPrice.bind krxStockTickSize)).getD 1
  match side with
  | .buy => observed + tick
  | .sell => observed - tick

def fillPrice (side : Side) (style : OrderStyle)
    (requestedPrice observedPrice bestBid bestAsk : Option Rat) : Option Rat × String :=
  let (reference, fallback) :=
    match quoteOf side bestBid bestAsk with
    | some quote => (some quote, "")
    | none =>
        match observedPrice with
        | none => (none, "QUOTE_AND_PRICE_MISSING")
        | some observed =>
            (some (quoteFallback side requestedPrice observed),
              "BEST_QUOTE_MISSING_USED_CONSERVATIVE_LAST_PLUS_TICK")
  match reference.bind (roundPriceToTick · side .aggressive) with
  | none => (none, fallback)
  | some rounded =>
      match requestedPrice.filter (style ≠ .market ∧ · ≠ 0) with
      | none => (some rounded, fallback)
      | some requested =>
          match side with
          | .buy => (some (min (rounded : Rat) requested), fallback)
          | .sell => (some (max (rounded : Rat) requested), fallback)

/-- The share that is filled at a pressure of the order on the value traded. -/
def pressureRatio (pressure : Rat) : Rat :=
  if pressure ≤ 1 / 200 then 1
  else if pressure ≤ 1 / 100 then 19 / 20
  else if pressure ≤ 3 / 100 then 3 / 4
  else if pressure ≤ 1 / 10 then 7 / 20
  else 1 / 10

/-- `reason or text`. -/
def orReason (reason text : String) : String := if reason = "" then text else reason

def fillRatio (orderAmount tradeValue executionStrength : Option Rat) (spreadTicks : Option Int)
    (style : OrderStyle) (config : FillSimulationConfig) : Rat × String :=
  match positive? orderAmount with
  | none => (0, "ORDER_AMOUNT_MISSING")
  | some amount =>
      let (ratio, reason) : Rat × String :=
        match positive? tradeValue with
        | none =>
            (config.conservativeMissingLiquidityFillRatio, "TRADE_VALUE_MISSING_CONSERVATIVE_FILL")
        | some value => (pressureRatio (amount / value), "")
      let (ratio, reason) : Rat × String :=
        match executionStrength with
        | none => (ratio, orReason reason "EXECUTION_STRENGTH_MISSING")
        | some strength =>
            (if 150 ≤ strength then ratio + 1 / 20
              else if strength < 80 then ratio - 3 / 20 else ratio, reason)
      let (ratio, reason) : Rat × String :=
        match spreadTicks with
        | none => (ratio, orReason reason "SPREAD_TICKS_MISSING")
        | some ticks =>
            (if 6 ≤ ticks then ratio - 1 / 4 else if 4 ≤ ticks then ratio - 3 / 20 else ratio,
              reason)
      let ratio := if style = .market then ratio + 1 / 20 else ratio
      (round4 (max (1 / 20) (min 1 ratio)), reason)

def slippageBps (side : Side) (requestedPrice : Option Rat) (fillPrice : Rat) : Option Rat :=
  (positive? requestedPrice).map fun requested =>
    match side with
    | .sell => round4 ((requested - fillPrice) / requested * 10000)
    | .buy => round4 ((fillPrice - requested) / requested * 10000)

def reasons (text : String) : List String := if text = "" then [] else [text]

/-- The `base_result` of an order and the tick that counts, if there is one; `target` is the order's
time, latency included. -/
def baseResult (order : Order) (target : Option Int) (observed : Option Tick)
    (config : FillSimulationConfig) (orderbookDepth viEvent : Option Fields) :
    FillSimulationResult :=
  let side := sideOf order
  let style := orderStyle order
  let observedPrice := observed.bind (·.price.float?)
  let bestBid := observed.bind (·.bestBid.float?)
  let bestAsk := observed.bind (·.bestAsk.float?)
  let requestPriceRaw := order.price.float?
  let benchmark := ((positive? requestPriceRaw).or (quoteOf side bestBid bestAsk)).or observedPrice
  let rounded := (positive? requestPriceRaw).bind (roundPriceToTick · side .passive)
  let requestedPrice := (rounded.map (Int.cast : Int → Rat)).or benchmark
  { side := side
    orderStyle := style
    requestedPrice := requestedPrice
    requestPriceRaw := requestPriceRaw
    roundedRequestedPrice := rounded
    simulatedLatencyMs := simulatedLatencyMs order style config
    tickSize := benchmark.bind krxStockTickSize
    observedPrice := observedPrice
    bestBid := bestBid
    bestAsk := bestAsk
    spreadTicks := (observed.bind (·.spreadTicks.float?)).map truncate
    tradeValue := observed.bind (·.tradeValue.float?)
    executionStrength := observed.bind (·.executionStrength.float?)
    orderAmount := orderAmount order requestedPrice
    tickTimestamp := (observed.map tickTimestamp).getD ""
    tickAgeSec := target.bind fun target => observed.bind (tickAgeSec target)
    observedTickId :=
      (observed.map fun tick => (tick.eventId.or (tick.id.or (.str ""))).text).getD ""
    fallbackReasons :=
      if style = .limitConservative then ["HOGA_UNSUPPORTED_LIMIT_CONSERVATIVE"] else []
    optionalDataMissing :=
      (if orderbookDepth.isNone then ["ORDERBOOK_DEPTH_MISSING"] else []) ++
        if viEvent.isNone then ["VI_EVENT_MISSING"] else [] }

def FillSimulationResult.skipped (base : FillSimulationResult) (reason : String) :
    FillSimulationResult :=
  { base with rejectOrSkipReason := reason, dataStatus := "SKIPPED" }

/-- What `simulate_fill` makes of the `base_result` where there is a tick. -/
def resultOf (base : FillSimulationResult) (config : FillSimulationConfig) :
    FillSimulationResult :=
  if base.tickAgeSec.any (config.staleTickAgeSec < ·) then
    { base.skipped "STALE_TICK" with staleTick := true }
  else if base.orderStyle ≠ .market ∧ base.requestedPrice.getD 0 = 0 then
    base.skipped "PRICE_MISSING_FOR_LIMIT"
  else
    let hit :=
      limitPriceHit base.side base.requestedPrice base.observedPrice base.bestBid base.bestAsk
    if base.orderStyle ≠ .market ∧ hit = some false then
      { base.skipped "LIMIT_PRICE_NOT_MARKETABLE" with limitPriceHit := hit }
    else
      let (price, fallback) := fillPrice base.side base.orderStyle base.requestedPrice
        base.observedPrice base.bestBid base.bestAsk
      let fallbackReasons := base.fallbackReasons ++ reasons fallback
      match positive? price with
      | none =>
          { base.skipped "FILL_PRICE_UNAVAILABLE" with
            limitPriceHit := hit, fallbackReasons := fallbackReasons }
      | some price =>
          let (ratio, liquidity) := fillRatio base.orderAmount base.tradeValue
            base.executionStrength base.spreadTicks base.orderStyle config
          let partialFill := decide (0 < ratio ∧ ratio < 9999 / 10000)
          { base with
            fallbackReasons := fallbackReasons ++ reasons liquidity
            fillPrice := some (round4 price)
            slippageBps := slippageBps base.side base.requestedPrice price
            fillRatio := ratio
            partialFill := partialFill
            limitPriceHit := hit
            rejectOrSkipReason := if partialFill then "PARTIAL_FILL_CONSERVATIVE" else "OK" }

/-- What `simulate_fill` makes of an order and the tick that counts. -/
def fillAt (order : Order) (target : Option Int) (observed : Option Tick)
    (config : FillSimulationConfig) (orderbookDepth viEvent : Option Fields) :
    FillSimulationResult :=
  let base := baseResult order target observed config orderbookDepth viEvent
  if observed = none then base.skipped "TICK_MISSING" else resultOf base config

/-- `simulate_fill`, `none` if it raises `OverflowError`. -/
def simulateFill (order : Order) (ticks : List Tick) (config : FillSimulationConfig)
    (orderbookDepth viEvent : Option Fields) : Option FillSimulationResult :=
  match parseTime order.dated with
  | none => some (fillAt order none none config orderbookDepth viEvent)
  | some time =>
      (addMilliseconds? time (simulatedLatencyMs order (orderStyle order) config)).map
        fun target =>
          fillAt order (some target) (observedTick ticks target) config orderbookDepth viEvent

end TradingCore.Simulation
