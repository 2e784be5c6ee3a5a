import TradingCore.Base.Numeral
import TradingCore.Candidates.Models
import TradingCore.Candles.CandleBuilder
import TradingCore.Evaluation.DirtyCodeQueue

/-!
# The market data service

`MarketDataService` of `trading/strategy/market_data_service.py`, with the store of ticks
(`market_data.py`) and the bridge that feeds it (`bridge.py`): a price tick is dated by the clock,
kept, put into its candle, and made into the snapshot that others read later. The age of the tick
and the quality of the data are judged then, with the time of the tick itself for the present.

A payload is known by the numbers read from it. Ticks of indices, names, day ranges, open prices,
the other features of a tick and the batches for the database are left out. Times of the clock are
in microseconds, those of ticks in whole seconds.
-/

namespace TradingCore.MarketData

open Base Candidates Evaluation

/-! ## Ticks -/

structure MarketDataServiceConfig where
  enabled : Bool := true
  dirtyQueueEnabled : Bool := true
  maxTickAgeSec : Int := 10
  dirtyDebounceMs : Int := 200

/-- The payload of a price tick of a stock. The sources are those of its metadata, blank if there
are none. -/
structure PriceTick where
  code : String
  price : Nat
  cumVolume : Nat
  tradeValue : Rat
  spreadTicks : Nat
  priceSource : String := ""
  backfillSource : String := ""

structure StrategyTick extends Candles.StrategyTick where
  tradeValue : Rat
  spreadTicks : Int
  priceSource : String
  backfillSource : String

def orText (text other : String) : String := if text = "" then other else text

def mergeMissingPriceTick (previous tick : StrategyTick) : StrategyTick :=
  { tick with
    price := previous.price
    cumVolume := if tick.cumVolume ≠ 0 then tick.cumVolume else previous.cumVolume
    tradeValue := if tick.tradeValue ≠ 0 then tick.tradeValue else previous.tradeValue
    spreadTicks := if tick.spreadTicks ≠ 0 then tick.spreadTicks else previous.spreadTicks
    priceSource := orText tick.priceSource previous.priceSource
    backfillSource := orText tick.backfillSource previous.backfillSource }

/-! ## The store -/

structure MarketDataStore where
  latestTicks : Dict String StrategyTick := .empty
  lastTimestamps : Dict String Int := .empty

/-- What `apply_theme_backfill` is given, its numbers read. -/
structure ThemeBackfill where
  code : String
  currentPrice : Nat
  turnover : Rat
  volume : Nat

namespace MarketDataStore

def latestTick (store : MarketDataStore) (code : String) : Option StrategyTick :=
  store.latestTicks.get? (normalizeCode code)

def keep (store : MarketDataStore) (tick : StrategyTick) : MarketDataStore where
  latestTicks := store.latestTicks.set tick.code tick
  lastTimestamps := store.lastTimestamps.set tick.code tick.timestamp

/-- `update_tick`: a tick that is older than the last one is refused. -/
def updateTick (store : MarketDataStore) (tick : StrategyTick) : MarketDataStore × Bool :=
  if (store.lastTimestamps.get? tick.code).any (tick.timestamp < ·) then (store, false)
  else
    match store.latestTicks.get? tick.code with
    | none => (store.keep tick, true)
    | some previous =>
        if tick.price ≤ 0 ∧ 0 < previous.price then
          (store.keep (mergeMissingPriceTick previous tick), true)
        else (store.keep tick, true)

/-- `apply_theme_backfill` at a time of the clock. -/
def applyThemeBackfill (store : MarketDataStore) (payload : ThemeBackfill) (clock : Int) :
    MarketDataStore × Bool :=
  let code := normalizeCode payload.code
  if code = "" then (store, false)
  else
    match store.latestTick code with
    | some existing =>
        let merged : StrategyTick :=
          { existing with
            price := if 0 < existing.price then existing.price else payload.currentPrice
            tradeValue :=
              if existing.tradeValue ≤ 0 ∧ 0 < payload.turnover then payload.turnover
              else existing.tradeValue
            backfillSource := orText existing.backfillSource "theme_data_backfill" }
        ({ store with latestTicks := store.latestTicks.set code merged }, true)
    | none =>
        if payload.currentPrice = 0 then (store, false)
        else
          let tick : StrategyTick :=
            { code := normalizeCode code
              price := payload.currentPrice
              cumVolume := payload.volume
              timestamp := cleanTime clock
              tradeValue := max 0 payload.turnover
              spreadTicks := 0
              priceSource := "TR_BACKFILL"
              backfillSource := "theme_data_backfill" }
          ({ latestTicks := store.latestTicks.set code tick
             lastTimestamps := store.lastTimestamps.set code tick.timestamp }, true)

end MarketDataStore

/-! ## Snapshots -/

structure MarketDataSnapshot where
  code : String
  price : Int
  tradeValue : Rat
  cumVolume : Int
  spreadTicks : Int
  tickAt : Int
  receivedAt : Int
  tickAgeSec : Int
  freshnessStatus : String
  isFresh : Bool
  dataQuality : String
  reasonCodes : List String
  sourceEventId : String
  priceSource : String

/-- The reasons that `_data_quality` finds. -/
def qualityReasons (config : MarketDataServiceConfig) (tick : StrategyTick) (ageSec : Int) :
    List String :=
  (if config.maxTickAgeSec < ageSec then ["STALE_TICK"] else []) ++
  (if tick.price ≤ 0 then ["MISSING_PRICE"] else []) ++
  (if tick.tradeValue ≤ 0 ∧ tick.cumVolume ≤ 0 then ["TURNOVER_MISSING"] else []) ++
  (if Text.upper tick.priceSource = "TR_BACKFILL" then ["TR_BACKFILL_PRICE_ONLY"] else [])

def dataQuality (config : MarketDataServiceConfig) (tick : StrategyTick) (ageSec : Int) :
    String × List String :=
  let reasons := qualityReasons config tick ageSec
  if reasons = [] then ("OK", ["DATA_READY"])
  else if reasons.any (· ∈ ["STALE_TICK", "MISSING_PRICE", "TR_BACKFILL_PRICE_ONLY"]) then
    ("DATA_WAIT", reasons)
  else ("WARN", reasons)

/-- `_snapshot_from_tick` at a present in whole seconds. -/
def snapshotFromTick (config : MarketDataServiceConfig) (tick : StrategyTick)
    (sourceEventId : String) (now : Int) : MarketDataSnapshot :=
  let ageSec := max 0 (now - tick.timestamp)
  let quality := dataQuality config tick ageSec
  let freshness := if ageSec ≤ config.maxTickAgeSec then "FRESH" else "STALE_TICK"
  { code := tick.code
    price := tick.price
    tradeValue := tick.tradeValue
    cumVolume := tick.cumVolume
    spreadTicks := tick.spreadTicks
    tickAt := tick.timestamp
    receivedAt := now
    tickAgeSec := ageSec
    freshnessStatus := freshness
    isFresh := freshness = "FRESH"
    dataQuality := quality.1
    reasonCodes := quality.2
    sourceEventId := sourceEventId
    priceSource := orText tick.priceSource (orText tick.backfillSource "REALTIME") }

/-! ## The service -/

/-- `MarketDataService`, with the store and the candles of its bridge. -/
structure MarketDataService where
  marketData : MarketDataStore := {}
  candles : Candles.CandleBuilder := .new
  latestSnapshots : Dict String MarketDataSnapshot := .empty
  lastQuality : Dict String String := .empty
  lastSpread : Dict String Int := .empty
  dirtyQueue : DirtyCodeQueue := {}

namespace MarketDataService

/-- The tick that the bridge makes of a payload: a missing price is that of the last tick, and a
missing turnover is estimated. -/
def strategyTick (service : MarketDataService) (payload : PriceTick) (code : String)
    (clock : Int) : StrategyTick :=
  let previousPrice := (service.marketData.latestTick code).elim 0 (·.price)
  let price : Int := if payload.price = 0 ∧ 0 < previousPrice then previousPrice else payload.price
  let tradeValue := max 0 payload.tradeValue
  { code := normalizeCode code
    price := price
    cumVolume := payload.cumVolume
    timestamp := cleanTime clock
    tradeValue :=
      if tradeValue ≤ 0 ∧ 0 < price ∧ 0 < payload.cumVolume then price * payload.cumVolume
      else tradeValue
    spreadTicks := payload.spreadTicks
    priceSource := payload.priceSource
    backfillSource := payload.backfillSource }

/-- `on_realtime_tick` of the bridge. -/
def onRealtimeTick (service : MarketDataService) (payload : PriceTick) (code : String)
    (clock : Int) : MarketDataService × Bool :=
  let tick := service.strategyTick payload code clock
  let updated := service.marketData.updateTick tick
  if updated.2 = false then (service, false)
  else
    let placed := service.candles.update tick.toStrategyTick
    ({ service with marketData := updated.1, candles := placed.1 }, placed.2)

def completedCandleCounts (service : MarketDataService) (code : String) : List Nat :=
  [1, 3, 5].map fun interval => (service.candles.completedOf (normalizeCode code) interval).length

/-- `_mark_dirty` at a whole second. -/
def markDirty (config : MarketDataServiceConfig) (service : MarketDataService) (code : String)
    (reason : DirtyReason) (sourceEventId : String) (markedAt : Int) : MarketDataService :=
  if config.dirtyQueueEnabled then
    { service with
      dirtyQueue := (service.dirtyQueue.markDirty config.dirtyDebounceMs code reason sourceEventId
        (markedAt * 1000000)).1 }
  else service

/-- `_mark_dirty` under a condition. -/
def markDirtyIf (config : MarketDataServiceConfig) (condition : Bool) (service : MarketDataService)
    (code : String) (reason : DirtyReason) (sourceEventId : String) (markedAt : Int) :
    MarketDataService :=
  if condition then service.markDirty config code reason sourceEventId markedAt else service

/-- The snapshot of a tick is kept, and the code is marked with what it changes. -/
def publish (config : MarketDataServiceConfig) (service : MarketDataService) (code : String)
    (tick : StrategyTick) (sourceEventId : String) (boundary : Bool) : MarketDataService :=
  let snapshot := snapshotFromTick config tick sourceEventId tick.timestamp
  let kept := { service with latestSnapshots := service.latestSnapshots.set code snapshot }
  let marked := ((kept.markDirty config code .priceTick sourceEventId tick.timestamp).markDirtyIf
    config boundary code .candleBoundary sourceEventId tick.timestamp).markDirtyIf config
      ((service.lastQuality.get? code).any (· ≠ snapshot.dataQuality)) code .dataQualityChanged
      sourceEventId tick.timestamp
  let noted := { marked with lastQuality := service.lastQuality.set code snapshot.dataQuality }
  let marked := noted.markDirtyIf config
    ((service.lastSpread.get? code).any (· ≠ snapshot.spreadTicks)) code .spreadChanged
    sourceEventId tick.timestamp
  { marked with lastSpread := service.lastSpread.set code snapshot.spreadTicks }

def handlePriceTick (config : MarketDataServiceConfig) (service : MarketDataService)
    (payload : PriceTick) (sourceEventId : String) (clock : Int) : MarketDataService × Bool :=
  let code := cleanCode payload.code
  if config.enabled = false ∨ code = "" then (service, false)
  else
    let before := service.completedCandleCounts code
    let routed := service.onRealtimeTick payload code clock
    if routed.2 = false then routed
    else
      match routed.1.marketData.latestTick code with
      | none => (routed.1, false)
      | some tick =>
          let boundary := (before.zip (routed.1.completedCandleCounts code)).any fun n => n.1 < n.2
          (routed.1.publish config code tick sourceEventId boundary, true)

def latestSnapshot (service : MarketDataService) (code : String) : Option MarketDataSnapshot :=
  service.latestSnapshots.get? (cleanCode code)

end MarketDataService

/-! ## Evaluation -/

inductive EntryCheckStatus
  | pass | wait | block | dataWait
deriving DecidableEq

/-- `EntryDecision`, as far as its stage depends on it. -/
structure EntryDecision where
  code : String
  observeReady : Bool := false
  dataReady : EntryCheckStatus := .wait
  themeReady : EntryCheckStatus := .wait
  marketReady : EntryCheckStatus := .wait
  roleReady : EntryCheckStatus := .wait
  priceTiming : EntryCheckStatus := .wait
  reasonCodes : List String := []

def primaryReason (decision : EntryDecision) (default : String) : String :=
  (decision.reasonCodes.find? fun text =>
    text ≠ "" ∧ ¬ "_READY".toList.isSuffixOf text.toList).getD default

def snapshotIsNotFreshRealtime : Option MarketDataSnapshot → Bool
  | none => true
  | some snapshot =>
      ¬ snapshot.isFresh ∨ Text.upper (orText snapshot.priceSource "REALTIME") = "TR_BACKFILL"

/-- `_fsm_target`: the stage that blocks a candidate, the reason, and its state if it is
promoted. -/
def fsmTarget (decision : EntryDecision) (snapshot : Option MarketDataSnapshot) :
    CandidateBlockingStage × String × Option CandidateRuntimeState :=
  if snapshotIsNotFreshRealtime snapshot then (.data, "LATEST_TICK_MISSING", none)
  else if decision.dataReady ≠ .pass then
    (.data, primaryReason decision "LATEST_TICK_MISSING", none)
  else if decision.themeReady ≠ .pass then
    (.theme, primaryReason decision "THEME_NOT_READY", none)
  else if decision.marketReady ≠ .pass then
    (.market, primaryReason decision "MARKET_RISK_OFF", none)
  else if decision.roleReady ≠ .pass then
    (.role, primaryReason decision "ROLE_NOT_ALLOWED", none)
  else if decision.priceTiming ≠ .pass then
    (.price, primaryReason decision "PRICE_TIMING_NOT_READY", some .setupReady)
  else if decision.observeReady then
    (.none, "OBSERVE_READY_ORDER_DISABLED", some .timingReady)
  else (.price, primaryReason decision "PRICE_TIMING_NOT_READY", none)

/-! ## Steps -/

/-- A step: a price tick or a backfill at a time of the clock, codes taken out of the queue, or the
snapshot of a code read at a time, alone or for a decision. -/
inductive MarketStep
  | priceTick (payload : PriceTick) (sourceEventId : String) (clock : Int)
  | themeBackfill (payload : ThemeBackfill) (clock : Int)
  | popDirty (limit : Int)
  | latestSnapshot (code : String) (now : Int)
  | fsmTarget (decision : EntryDecision) (now : Int)

/-- The answer to a step. -/
inductive MarketAnswer
  | handled (value : Bool)
  | backfilled (value : Bool)
  | popped (events : List DirtyCodeEvent)
  | snapshot (found : Option MarketDataSnapshot)
  | target (stage : CandidateBlockingStage) (reason : String)
      (state : Option CandidateRuntimeState)

def marketDataService (config : MarketDataServiceConfig) :
    Machine MarketDataService MarketStep MarketAnswer where
  step
    | service, .priceTick payload sourceEventId clock =>
        let handled := service.handlePriceTick config payload sourceEventId clock
        (handled.1, .handled handled.2)
    | service, .themeBackfill payload clock =>
        let applied := service.marketData.applyThemeBackfill payload clock
        ({ service with marketData := applied.1 }, .backfilled applied.2)
    | service, .popDirty limit =>
        let popped := service.dirtyQueue.popDirty limit
        ({ service with dirtyQueue := popped.1 }, .popped popped.2)
    | service, .latestSnapshot code _ => (service, .snapshot (service.latestSnapshot code))
    | service, .fsmTarget decision _ =>
        let target := MarketData.fsmTarget decision (service.latestSnapshot decision.code)
        (service, .target target.1 target.2.1 target.2.2)

end TradingCore.MarketData
