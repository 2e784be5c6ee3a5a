import TradingCore.Base.IsoTime
import TradingCore.LiveSim.CashExposure

/-!
# When the exit monitor sells

What `run_live_sim_exit_monitor` of `trading_app/order_enqueue_service.py` decides about one
position: `_normalize_tick`, `_tick_is_stale` and `_exit_trigger` with its two times. Times are
texts; `none` is a decision that ends in an error, as when a time has no date in Greenwich.
Percentages are exact.

`exitDecisionAt` is the decision that the instant of the clock asks for, with the market close
in Korean time.
-/

namespace TradingCore.LiveSim

open Base Orders

/-! ## What is decided upon -/

/-- A time of the day, `HH:MM`. -/
structure CloseTime where
  minute : Nat
  isTime : minute < 1440

/-- What the monitor reads of its configuration. Where a number is nought, the source takes its
own. -/
structure ExitGuard where
  maxExitTickAgeSec : Int := 0
  stopLossPct : Rat := 0
  takeProfitPct : Rat := 0
  marketCloseLiquidationEnabled : Bool := true
  marketCloseLiquidationTime : CloseTime

structure MonitoredPosition where
  status : LiveSimPositionStatus := .opened
  entryAvgPrice : Int
  stopLossPrice : Int := 0
  takeProfitPrice : Int := 0
  maxHoldExitAt : String := ""

/-- The latest tick of a code: a price alone (nought if there is none), or a mapping with its
two prices and three times. -/
inductive RawTick
  | bare (price : Int)
  | fields (price currentPrice : Int) (timestamp tradeTime createdAt : String)

namespace RawTick

def price : RawTick → Int
  | bare price => price
  | fields price currentPrice _ _ _ => orInt price currentPrice

/-- The time that the tick brings along, the empty text if it has none. -/
def time : RawTick → String
  | bare _ => ""
  | fields _ _ timestamp tradeTime createdAt =>
      orText timestamp (orText tradeTime createdAt)

/-- The time that `_normalize_tick` gives it. A price alone has the time of the clock. -/
def normalizedTime (now : String) : RawTick → String
  | bare price => if 0 < price then now else ""
  | tick@(fields ..) => orText tick.time now

end RawTick

namespace ExitGuard

variable (guard : ExitGuard)

def maxAge : Int := orInt guard.maxExitTickAgeSec 10 * 1000000

/-- `int(round(entry * (1.0 + pct / 100.0)))`. -/
def priceAt (entry : Int) (pct default : Rat) : Int :=
  let price := (entry : Rat) * (1 + (if pct = 0 then default else pct) / 100)
  roundHalfEven price.num price.den

def stopPrice (position : MonitoredPosition) : Int :=
  orInt position.stopLossPrice (priceAt position.entryAvgPrice guard.stopLossPct (-2))

def takePrice (position : MonitoredPosition) : Int :=
  orInt position.takeProfitPrice (priceAt position.entryAvgPrice guard.takeProfitPct 5)

end ExitGuard

/-! ## The decision -/

def tickIsStale (raw : RawTick) (guard : ExitGuard) (now : String) : Option Bool :=
  if raw.price ≤ 0 then some true
  else if raw.normalizedTime now = "" then some true
  else
    match parseIso (raw.normalizedTime now), parseIso now with
    | some parsed, some current => do
        let current ← utc? current.instant
        let parsed ← utc? parsed.instant
        some (guard.maxAge < current - parsed)
    | _, _ => some true

def timeReached (target now : String) : Option Bool :=
  match parseIso target, parseIso now with
  | some target, some current => do
      let current ← utc? current.instant
      let target ← utc? target.instant
      some (target ≤ current)
  | _, _ => some false

/-- The five characters behind the first `T`. -/
def shownTime (text : String) : List Char := ((text.toList.dropWhile (· ≠ 'T')).drop 1).take 5

def marketCloseReached (closeTime : CloseTime) (now : String) : Bool :=
  'T' ∈ now.toList ∧ textLe (clockText closeTime.minute) (shownTime now)

/-- `_exit_trigger`, from whether the position has been held too long and whether the market
close is reached: the reason to sell. -/
def exitReason (position : MonitoredPosition) (price : Int) (guard : ExitGuard)
    (held : Option Bool) (closed : Bool) : Option (Option String) :=
  if price ≤ 0 ∨ position.entryAvgPrice ≤ 0 then some none
  else if 0 < guard.stopPrice position ∧ price ≤ guard.stopPrice position then
    some (some "stop_loss")
  else if 0 < guard.takePrice position ∧ guard.takePrice position ≤ price then
    some (some "take_profit")
  else do
    let held ← if position.maxHoldExitAt = "" then some false else held
    if held then some (some "max_hold")
    else if guard.marketCloseLiquidationEnabled ∧ closed then
      some (some "market_close_liquidation")
    else some none

/-- What `run_live_sim_exit_monitor` decides about a position. -/
def exitDecision (position : MonitoredPosition) (raw : RawTick) (guard : ExitGuard)
    (now : String) : Option (Option String) :=
  if position.status ∉ [.opened, .partlyOpen] then some none
  else do
    let stale ← tickIsStale raw guard now
    let reason := exitReason position raw.price guard (timeReached position.maxHoldExitAt now)
      (marketCloseReached guard.marketCloseLiquidationTime now)
    if stale then some none else reason

/-! ## The decision that the instant asks for -/

def koreanOffset : Int := 9 * 3600 * 1000000

def koreanMinute (instant : Int) : Nat := minuteOfDay (instant + koreanOffset)

def tickIsStaleAt (raw : RawTick) (guard : ExitGuard) (instant : Int) : Option Bool :=
  if raw.price ≤ 0 then some true
  else
    let told := if raw.time = "" then some instant else (parseIso raw.time).map DateTime.instant
    match told with
    | none => some true
    | some told => do
        let current ← utc? instant
        let told ← utc? told
        some (guard.maxAge < current - told)

def timeReachedAt (target : String) (instant : Int) : Option Bool :=
  match parseIso target with
  | none => some false
  | some target => do
      let current ← utc? instant
      let target ← utc? target.instant
      some (target ≤ current)

def exitDecisionAt (position : MonitoredPosition) (raw : RawTick) (guard : ExitGuard)
    (instant : Int) : Option (Option String) :=
  if position.status ∉ [.opened, .partlyOpen] then some none
  else do
    let stale ← tickIsStaleAt raw guard instant
    let reason := exitReason position raw.price guard (timeReachedAt position.maxHoldExitAt instant)
      (guard.marketCloseLiquidationTime.minute ≤ koreanMinute instant)
    if stale then some none else reason

end TradingCore.LiveSim
