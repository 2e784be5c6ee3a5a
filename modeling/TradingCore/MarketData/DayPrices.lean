import TradingCore.Base.Machine
import TradingCore.Base.Value
import TradingCore.Candidates.Codes

/-!
# The store of ticks: prices, their marks and the extremes of the day

`MarketDataStore` of `trading/strategy/market_data.py` with what it keeps of prices: the latest
tick of a code with its metadata, the time of the last one, and the highest and the lowest price.
Realtime ticks come through `update_tick`, prices of TR answers through `apply_theme_backfill`.

The other numbers of a tick, which are merged like its price, and the counts of ticks are left
out; a payload is known by the price read from it. Times are whole seconds.
-/

namespace TradingCore.DayPrices

open Base Candidates

structure StrategyTick where
  code : String
  price : Int
  timestamp : Int
  metadata : Mapping := .empty

structure MarketDataStore where
  latestTicks : Dict String StrategyTick := .empty
  lastTimestamps : Dict String Int := .empty
  dayHighs : Dict String Int := .empty
  dayLows : Dict String Int := .empty

/-- A payload of the theme backfill: its `current_price`, and the payload itself. -/
structure ThemeBackfill where
  code : String
  currentPrice : Nat
  payload : Mapping := .empty

def mergeMissingPriceTick (previous tick : StrategyTick) : StrategyTick :=
  { tick with
    price := previous.price
    metadata :=
      (previous.metadata.merge tick.metadata).set "merged_from_previous_price_tick" (.bool true) }

/-- The keys of a payload that `_backfill_metadata` takes over. -/
def backfillKeys : List String :=
  ["stock_name", "prev_close", "previous_close", "prev_close_source", "session_high",
   "session_low", "open_price"]

def backfillMetadata (payload : Mapping) : Mapping :=
  let taken := backfillKeys.foldl
    (fun metadata key =>
      if (payload.value key).truthy then metadata.set key (payload.value key) else metadata)
    (.ofList [("backfill_source", .str "theme_data_backfill"), ("tr_backfill_applied", .bool true)])
  if (payload.value "prev_close").truthy ∧ ¬ taken.contains "prev_close_source" then
    taken.set "prev_close_source" (.str "TR_BACKFILL")
  else taken

/-- The metadata of a tick that is there, with what is missing in it. -/
def fillMetadata (metadata updates : Mapping) : Mapping :=
  updates.entries.foldl
    (fun metadata entry =>
      if entry.2.truthy ∧ ¬ (metadata.value entry.1).truthy then metadata.set entry.1 entry.2
      else metadata)
    metadata

namespace MarketDataStore

def latestTick (store : MarketDataStore) (code : String) : Option StrategyTick :=
  store.latestTicks.get? (normalizeCode code)

/-- The tick is older than the last one of its code. -/
def Outdated (store : MarketDataStore) (tick : StrategyTick) : Prop :=
  ∃ last ∈ store.lastTimestamps.get? tick.code, tick.timestamp < last
deriving Decidable

/-- The tick as it is kept: a missing price is that of the previous tick. -/
def kept (store : MarketDataStore) (tick : StrategyTick) : StrategyTick :=
  match store.latestTicks.get? tick.code with
  | none => tick
  | some previous =>
      if tick.price ≤ 0 ∧ 0 < previous.price then mergeMissingPriceTick previous tick else tick

def updateTick (store : MarketDataStore) (tick : StrategyTick) : MarketDataStore × Bool :=
  if store.Outdated tick then (store, false)
  else
    let tick := store.kept tick
    ({ latestTicks := store.latestTicks.set tick.code tick
       lastTimestamps := store.lastTimestamps.set tick.code tick.timestamp
       dayHighs :=
         if 0 < tick.price then
           store.dayHighs.set tick.code (max (store.dayHighs.getD tick.code tick.price) tick.price)
         else store.dayHighs
       dayLows :=
         if 0 < tick.price then
           store.dayLows.set tick.code (min (store.dayLows.getD tick.code tick.price) tick.price)
         else store.dayLows }, true)

def dayHighLow (store : MarketDataStore) (code : String) : Int × Int :=
  (store.dayHighs.getD (normalizeCode code) 0, store.dayLows.getD (normalizeCode code) 0)

/-- `apply_theme_backfill` at a time. A recent price is guarded, and so is every other one. -/
def applyThemeBackfill (store : MarketDataStore) (backfill : ThemeBackfill) (now : Int) :
    MarketDataStore × Bool :=
  let code := normalizeCode backfill.code
  if code = "" then (store, false)
  else
    match store.latestTick code with
    | some existing =>
        let merged : StrategyTick :=
          { existing with
            price := if 0 < existing.price then existing.price else backfill.currentPrice
            metadata := fillMetadata existing.metadata (backfillMetadata backfill.payload) }
        ({ store with latestTicks := store.latestTicks.set code merged }, true)
    | none =>
        if backfill.currentPrice = 0 then (store, false)
        else
          let metadata := ((backfillMetadata backfill.payload).set "price_source"
            (.str "TR_BACKFILL")).set "gate_usable" (.bool false)
          let tick : StrategyTick :=
            { code := normalizeCode code
              price := backfill.currentPrice
              timestamp := now
              metadata }
          ({ store with
             latestTicks := store.latestTicks.set code tick
             lastTimestamps := store.lastTimestamps.set code tick.timestamp }, true)

end MarketDataStore

end TradingCore.DayPrices
