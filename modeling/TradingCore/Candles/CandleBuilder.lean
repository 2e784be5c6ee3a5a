import TradingCore.Base.Bars
import TradingCore.Base.Dict
import TradingCore.Base.Machine
import TradingCore.Candidates.Codes

/-!
# The candle builder

Ticks are put into one-minute candles as they come. The candle of a code that still takes ticks is
the active one; it is completed by the first tick of a later minute, or by a flush. Completed
one-minute candles are rolled up into candles of three and of five minutes. Instants are in
seconds.
-/

namespace TradingCore.Candles

open Base Candidates

/-- A tick of a code, with the volume of the day so far. -/
structure StrategyTick where
  code : String
  price : Int
  cumVolume : Int
  timestamp : Int
deriving DecidableEq

structure Candle extends Bar where
  code : String
  intervalMin : Nat
deriving DecidableEq

def Candle.withTick (candle : Candle) (tick : StrategyTick) (volumeDelta : Int) : Candle where
  code := candle.code
  intervalMin := candle.intervalMin
  startAt := candle.startAt
  openPrice := candle.openPrice
  high := max candle.high tick.price
  low := min candle.low tick.price
  close := tick.price
  volume := candle.volume + max 0 volumeDelta

def minuteStart (value : Int) : Int := value - value % 60

/-- `interval_start`, within the hour. -/
def intervalStart (value : Int) (intervalMin : Nat) : Int :=
  let start := minuteStart value
  start - 60 * (start / 60 % 60 % intervalMin)

def addMinutes (value : Int) (minutes : Nat) : Int := value + 60 * minutes

structure CandleBuilder where
  active1m : Dict String Candle
  completed : Dict (String × Nat) (List Candle)
  lastTickTimestamp : Dict String Int
  lastCumVolume : Dict String Int
  completed1mKeys : List (String × Int)

namespace CandleBuilder

def new : CandleBuilder where
  active1m := .empty
  completed := .empty
  lastTickTimestamp := .empty
  lastCumVolume := .empty
  completed1mKeys := []

/-- `_volume_delta`: by how much the cumulative volume rose; the new one is remembered. -/
def volumeDelta (b : CandleBuilder) (tick : StrategyTick) : CandleBuilder × Int :=
  let remembered := { b with lastCumVolume := b.lastCumVolume.set tick.code tick.cumVolume }
  match b.lastCumVolume.get? tick.code with
  | none => (remembered, 0)
  | some previous =>
      if tick.cumVolume < previous then (remembered, 0)
      else (remembered, tick.cumVolume - previous)

def newCandle (tick : StrategyTick) (startAt volumeDelta : Int) : Candle where
  code := tick.code
  intervalMin := 1
  startAt := startAt
  openPrice := tick.price
  high := tick.price
  low := tick.price
  close := tick.price
  volume := max 0 volumeDelta

def completedOf (b : CandleBuilder) (code : String) (intervalMin : Nat) : List Candle :=
  b.completed.getD (code, intervalMin) []

def appendCompleted (b : CandleBuilder) (candle : Candle) : CandleBuilder :=
  { b with
    completed := b.completed.set (candle.code, candle.intervalMin)
      (b.completedOf candle.code candle.intervalMin ++ [candle]) }

def rollUp (code : String) (intervalMin : Nat) (bucketStart : Int) (first : Candle)
    (rest : List Candle) : Candle where
  code := code
  intervalMin := intervalMin
  startAt := bucketStart
  openPrice := first.openPrice
  high := (rest.map (·.high)).foldl max first.high
  low := (rest.map (·.low)).foldl min first.low
  close := (rest.getLast?.getD first).close
  volume := ((first :: rest).map (·.volume)).sum

/-- `_aggregate_completed`: roll up the bucket of the newest one-minute candle once it is full. -/
def aggregateCompleted (b : CandleBuilder) (code : String) (intervalMin : Nat) : CandleBuilder :=
  let oneMinute := b.completedOf code 1
  match oneMinute.getLast? with
  | none => b
  | some newest =>
      let bucketStart := intervalStart newest.startAt intervalMin
      let bucket := oneMinute.filter fun candle =>
        bucketStart ≤ candle.startAt ∧ candle.startAt < addMinutes bucketStart intervalMin
      if bucket.length ≠ intervalMin then b
      else if (b.completedOf code intervalMin).getLast?.map (·.startAt) = some bucketStart then b
      else
        match bucket with
        | [] => b
        | first :: rest => b.appendCompleted (rollUp code intervalMin bucketStart first rest)

/-- `_complete_1m`: complete a one-minute candle, unless its minute is completed already. -/
def complete1m (b : CandleBuilder) (candle : Candle) : CandleBuilder :=
  let key := (candle.code, candle.startAt)
  if key ∈ b.completed1mKeys then b
  else
    ((({ b with completed1mKeys := b.completed1mKeys ++ [key] }).appendCompleted
      candle).aggregateCompleted candle.code 3).aggregateCompleted candle.code 5

def activate (b : CandleBuilder) (code : String) (candle : Candle) : CandleBuilder :=
  { b with active1m := b.active1m.set code candle }

def stamp (b : CandleBuilder) (tick : StrategyTick) : CandleBuilder :=
  { b with lastTickTimestamp := b.lastTickTimestamp.set tick.code tick.timestamp }

/-- A tick that is not older than the last one is put into its candle. -/
def place (b : CandleBuilder) (tick : StrategyTick) : CandleBuilder × Bool :=
  let (b, delta) := b.volumeDelta tick
  let startAt := minuteStart tick.timestamp
  match b.active1m.get? tick.code with
  | none => ((b.activate tick.code (newCandle tick startAt 0)).stamp tick, true)
  | some active =>
      if active.startAt = startAt then
        ((b.activate tick.code (active.withTick tick delta)).stamp tick, true)
      else if active.startAt < startAt then
        (((b.complete1m active).activate tick.code (newCandle tick startAt delta)).stamp tick, true)
      else (b, false)

def update (b : CandleBuilder) (tick : StrategyTick) : CandleBuilder × Bool :=
  match b.lastTickTimestamp.get? tick.code with
  | none => b.place tick
  | some lastTimestamp => if tick.timestamp < lastTimestamp then (b, false) else b.place tick

/-- `flush`: complete the active candle of a code when its minute is over. -/
def flush (b : CandleBuilder) (code : String) (now : Int) : CandleBuilder × Option Candle :=
  let cleanCode := normalizeCode code
  match b.active1m.get? cleanCode with
  | none => (b, none)
  | some active =>
      if minuteStart now ≤ active.startAt then (b, none)
      else
        (({ b with active1m := b.active1m.filter fun c _ => c ≠ cleanCode }).complete1m active,
          some active)

def candles (b : CandleBuilder) (code : String) : List Candle :=
  b.completedOf code 1 ++ (b.active1m.get? code).toList

end CandleBuilder

/-! ## Calls -/

/-- A call of the builder. -/
inductive Call
  | update (tick : StrategyTick)
  | flush (code : String) (now : Int)

/-- What a call returns. -/
inductive Answer
  | accepted (value : Bool)
  | flushed (candle : Option Candle)

def builder : Machine CandleBuilder Call Answer where
  step b call :=
    match call with
    | .update tick => ((b.update tick).1, .accepted (b.update tick).2)
    | .flush code now => ((b.flush code now).1, .flushed (b.flush code now).2)

/-- The tick of a code that a call brought and the builder accepted. -/
def acceptedTick (code : String) : Call × Answer → Option StrategyTick
  | (.update tick, .accepted true) => if tick.code = code then some tick else none
  | _ => none

def acceptedTicks (calls : List Call) (code : String) : List StrategyTick :=
  (calls.zip (builder.outputs .new calls)).filterMap (acceptedTick code)

def Call.isUpdate : Call → Bool
  | .update _ => true
  | .flush .. => false

def withoutFlushes (calls : List Call) : List Call := calls.filter (·.isUpdate)

end TradingCore.Candles
