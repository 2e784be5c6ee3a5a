import TradingCore.Base.KeepFirst
import TradingCore.LiveSim.CashExposure

/-!
# The runtime snapshots of the open positions

`PositionRuntimeService.build` (`trading/strategy/position_risk.py`) turns the open positions into
the snapshots that the risk and exit engines read: the virtual positions, and the rows of
`live_sim_positions` as `upsert_live_sim_position_from_fill` leaves them (`storage/db.py`).

* The loader of the rows is called with a keyword that it does not have. The fallback calls it
  without, and gets the newest 100 rows of any status.
* The entry price of a row is looked for under names that no column has.
* `_optional_int` ends after its first test, so the candidate of a row is always `None`.
* Of the snapshots with one candidate and code the first is kept.

Prices, returns and rounding are exact. What no stage reads is left out.
-/

namespace TradingCore.LiveSim

open Base
open Orders (orText)

/-! ## The rows -/

/-- The columns of an order that `upsert_live_sim_position_from_fill` reads. -/
structure PositionOrder where
  code : String
  name : String := ""
  accountIdMasked : String := ""
  candidateInstanceId : String := ""
  side : String := ""

structure PositionFill where
  side : String := ""
  code : String := ""
  accountIdMasked : String := ""
  fillQty : Int
  fillPrice : Int
  eventTime : String := ""

/-- A row of `live_sim_positions`, kept under its `position_id`. -/
structure PositionRow where
  candidateInstanceId : String
  code : String
  name : String
  accountIdMasked : String
  openedAt : String
  closedAt : String := ""
  entryQty : Int := 0
  entryAvgPrice : Int := 0
  currentQty : Int := 0
  realizedQty : Int := 0
  status : LiveSimPositionStatus := .opened
deriving DecidableEq

namespace PositionRow

variable (row : PositionRow)

def afterBuy (fillQty fillPrice : Int) : PositionRow :=
  { row with
    entryAvgPrice := averageAfterBuy row.entryAvgPrice row.currentQty fillPrice fillQty
    entryQty := row.entryQty + fillQty
    currentQty := row.currentQty + fillQty
    status := .opened }

def afterSell (fillQty : Int) (now : String) : PositionRow :=
  let sellQty := min fillQty row.currentQty
  let currentQty := max 0 (row.currentQty - sellQty)
  { row with
    currentQty := currentQty
    realizedQty := row.realizedQty + sellQty
    status := if currentQty ≤ 0 then .closed else row.status
    closedAt := if currentQty ≤ 0 then now else row.closedAt }

end PositionRow

abbrev PositionTable := Dict String PositionRow

def upsertLiveSimPositionFromFill (table : PositionTable) (order : PositionOrder)
    (fill : PositionFill) : PositionTable :=
  let side := Text.lower (orText fill.side order.side)
  let code := orText order.code fill.code
  let account := orText order.accountIdMasked fill.accountIdMasked
  let positionId := positionIdFor account code order.candidateInstanceId
  let current := (table.get? positionId).getD
    { candidateInstanceId := order.candidateInstanceId, code, name := order.name
      accountIdMasked := maskAccount account, openedAt := fill.eventTime }
  let fillQty := max 0 fill.fillQty
  let fillPrice := max 0 fill.fillPrice
  table.set positionId
    (if side = "buy" then current.afterBuy fillQty fillPrice
    else if side = "sell" then current.afterSell fillQty fill.eventTime
    else current)

def positionsAfter (fills : List (PositionOrder × PositionFill)) : PositionTable :=
  fills.foldl (fun table entry => upsertLiveSimPositionFromFill table entry.1 entry.2) .empty

/-- The newest rows, `list_live_sim_positions` without a filter. -/
def listLiveSimPositions (table : PositionTable) (limit : Nat := 100) :
    List (String × PositionRow) :=
  table.entries.reverse.take limit

def LiveSimPositionStatus.inRuntime (status : LiveSimPositionStatus) : Bool :=
  status ∈ [.opened, .partlyOpen]

/-! ## Snapshots -/

/-- The settings that a snapshot is made with. -/
structure PositionRiskConfig where
  maxTickAgeSec : Rat := 10
  stopLossPct : Rat := -2
  takeProfit1Pct : Rat := 5
  trailingGapPct : Rat := 6 / 5

/-- The latest tick of a code; the age is that at the time of the build. -/
structure RuntimeTick where
  price : Int
  ageSec : Rat

/-- The `details` of a position that a snapshot is made from. -/
structure PositionDetails where
  highestPriceSinceEntry : Int := 0
  lowestPriceSinceEntry : Int := 0
  trailingActive : Bool := false
  trailingStopPrice : Int := 0
  firstProfitTaken : Bool := false

/-- `PositionRiskStatus`, as far as a snapshot has it. -/
inductive PositionRiskStatus
  | opened
  | dataWait
  | staleDataRisk

structure PositionRuntimeSnapshot where
  positionId : String
  candidateId : Option Int
  code : String
  sourceType : String
  entryPrice : Int
  quantity : Int
  remainingQuantity : Int
  currentPrice : Int
  currentReturnPct : Rat
  maxReturnPct : Rat
  maxDrawdownPct : Rat
  highestPriceSinceEntry : Int
  lowestPriceSinceEntry : Int
  stopLossPrice : Int
  takeProfitPrice : Int
  trailingStopPrice : Int
  trailingActive : Bool
  firstProfitTaken : Bool
  dataQualityFlags : List String
  riskStatus : PositionRiskStatus

/-- `int(round(x))`. -/
def roundInt (x : Rat) : Int := roundHalfEven x.num x.den

/-- `round(x, 6)`. -/
def roundSix (x : Rat) : Rat := (roundInt (x * 10 ^ 6) : Rat) / 10 ^ 6

def returnPct (price base : Int) : Rat :=
  if price ≤ 0 ∨ base ≤ 0 then 0 else ((price : Rat) - base) / base * 100

/-- The price that lies `pct` percent above an entry price. -/
def targetPrice (entryPrice : Int) (pct : Rat) : Int :=
  if 0 < entryPrice then roundInt (entryPrice * (1 + pct / 100)) else 0

def firstNumber (values : List Int) : Int := (values.find? (· ≠ 0)).getD 0

structure RawPosition where
  positionId : String
  candidateId : Option Int
  code : String
  sourceType : String
  entryPrice : Int
  quantity : Int
  remainingQuantity : Int
  existingMaxReturnPct : Rat := 0
  existingMaxDrawdownPct : Rat := 0
  details : PositionDetails := {}

def snapshotFromRaw (config : PositionRiskConfig) (latestTick : String → Option RuntimeTick)
    (raw : RawPosition) : PositionRuntimeSnapshot :=
  let tick := if raw.code = "" then none else latestTick raw.code
  let currentPrice := (tick.map (·.price)).getD 0
  let ageFlags := match tick with
    | none => ["LATEST_TICK_MISSING"]
    | some t => if config.maxTickAgeSec < t.ageSec then ["LATEST_TICK_STALE"] else []
  let flags := ageFlags ++ (if currentPrice ≤ 0 then ["CURRENT_PRICE_MISSING"] else [])
  let current := returnPct currentPrice raw.entryPrice
  let highest := max (max raw.details.highestPriceSinceEntry raw.entryPrice) currentPrice
  let lowestCandidates :=
    [raw.details.lowestPriceSinceEntry, raw.entryPrice, currentPrice].filter (0 < ·)
  let lowest := (lowestCandidates.min?).getD 0
  let trailing := raw.details.trailingStopPrice
  { positionId := raw.positionId
    candidateId := raw.candidateId
    code := raw.code
    sourceType := raw.sourceType
    entryPrice := raw.entryPrice
    quantity := raw.quantity
    remainingQuantity := raw.remainingQuantity
    currentPrice
    currentReturnPct := roundSix current
    maxReturnPct :=
      roundSix (max (max raw.existingMaxReturnPct (returnPct highest raw.entryPrice)) current)
    maxDrawdownPct :=
      roundSix (min (min raw.existingMaxDrawdownPct (returnPct lowest raw.entryPrice)) current)
    highestPriceSinceEntry := highest
    lowestPriceSinceEntry := lowest
    stopLossPrice := targetPrice raw.entryPrice config.stopLossPct
    takeProfitPrice := targetPrice raw.entryPrice config.takeProfit1Pct
    trailingStopPrice :=
      if raw.details.trailingActive ∧ 0 < highest then
        max trailing (roundInt (highest * (1 - config.trailingGapPct / 100)))
      else trailing
    trailingActive := raw.details.trailingActive
    firstProfitTaken := raw.details.firstProfitTaken
    dataQualityFlags := flags
    riskStatus :=
      if "CURRENT_PRICE_MISSING" ∈ flags ∨ "LATEST_TICK_MISSING" ∈ flags then .dataWait
      else if "LATEST_TICK_STALE" ∈ flags then .staleDataRisk
      else .opened }

/-! ## The service -/

/-- A candidate, as far as the service reads it. -/
structure RuntimeCandidate where
  tradeDate : String
  code : String

/-- An open virtual position. `positionSource` is the source that its details name, `detailsCode`
their code and `detailsRemaining` their remaining quantity. -/
structure VirtualPosition where
  id : Option Nat := none
  virtualOrderId : Nat
  candidateId : Option Int := none
  entryPrice : Int
  quantity : Int
  maxReturnPct : Rat := 0
  maxDrawdownPct : Rat := 0
  positionSource : String := ""
  detailsCode : String := ""
  detailsRemaining : Int := 0
  details : PositionDetails := {}

/-- `_optional_int`: the function has no further branch. -/
def optionalInt (_ : String) : Option Int := none

structure PositionRuntimeService where
  config : PositionRiskConfig := {}
  latestTick : String → Option RuntimeTick := fun _ => none
  loadCandidateById : Int → Option RuntimeCandidate := fun _ => none

namespace PositionRuntimeService

variable (service : PositionRuntimeService)

def candidate (candidateId : Option Int) : Option RuntimeCandidate :=
  candidateId.bind service.loadCandidateById

def ofTradeDate (tradeDate : String) (position : VirtualPosition) : Bool :=
  match service.candidate position.candidateId with
  | some candidate => candidate.tradeDate ∈ ["", tradeDate]
  | none => true

def virtualCode (position : VirtualPosition) : String :=
  orText (((service.candidate position.candidateId).map (·.code)).getD "") position.detailsCode

def virtualSnapshot (position : VirtualPosition) : PositionRuntimeSnapshot :=
  let source := Text.upper (orText position.positionSource "VIRTUAL")
  let remaining :=
    if position.detailsRemaining ≠ 0 then position.detailsRemaining else position.quantity
  snapshotFromRaw service.config service.latestTick
    { positionId := "virtual:" ++ (match position.id with
        | some id => if id = 0 then toString position.virtualOrderId else toString id
        | none => toString position.virtualOrderId)
      candidateId := position.candidateId
      code := service.virtualCode position
      sourceType :=
        if source ∈ ["DRY_RUN", "VIRTUAL", "LIVE_SIM_OBSERVED", "MANUAL"] then source
        else "VIRTUAL"
      entryPrice := position.entryPrice
      quantity := position.quantity
      remainingQuantity := max 0 remaining
      existingMaxReturnPct := position.maxReturnPct
      existingMaxDrawdownPct := position.maxDrawdownPct
      details := position.details }

/-- `_virtual_positions`: those of another trade date are left out. -/
def virtualPositions (tradeDate : String) (positions : List VirtualPosition) :
    List PositionRuntimeSnapshot :=
  (positions.filter fun position => service.ofTradeDate tradeDate position).map
    service.virtualSnapshot

/-- The snapshot of a row. No column is named `avg_price`, `avg_entry_price` or `entry_price`. -/
def liveSimSnapshot (entry : String × PositionRow) : PositionRuntimeSnapshot :=
  let candidateId := optionalInt entry.2.candidateInstanceId
  let code := orText entry.2.code (((service.candidate candidateId).map (·.code)).getD "")
  let quantity := firstNumber [entry.2.currentQty]
  snapshotFromRaw service.config service.latestTick
    { positionId := orText entry.1 ("live_sim:" ++ code)
      candidateId := candidateId
      code := code
      sourceType := "LIVE_SIM_OBSERVED"
      entryPrice := firstNumber []
      quantity := quantity
      remainingQuantity := quantity }

/-- `_live_sim_positions`. The loader raises a `TypeError` for the keyword `statuses`, so the rows
are those of the fallback. -/
def liveSimPositions (table : PositionTable) : List PositionRuntimeSnapshot :=
  ((listLiveSimPositions table).filter fun entry => entry.2.status.inRuntime).map
    service.liveSimSnapshot

/-- The key of `_dedupe_positions`. -/
def dedupeKey (snapshot : PositionRuntimeSnapshot) : String × String :=
  (match snapshot.candidateId with
    | some id => if id = 0 then "" else toString id
    | none => "", snapshot.code)

def dedupePositions (snapshots : List PositionRuntimeSnapshot) : List PositionRuntimeSnapshot :=
  keepFirst dedupeKey [] snapshots

/-- The positions of `build`. -/
def build (tradeDate : String) (positions : List VirtualPosition) (table : PositionTable) :
    List PositionRuntimeSnapshot :=
  dedupePositions (service.virtualPositions tradeDate positions ++ service.liveSimPositions table)

end PositionRuntimeService

end TradingCore.LiveSim
