import TradingCore.Candidates.Models
import TradingCore.LiveSim.PositionRuntime
import TradingCore.Themes.StateMachine

/-!
# Turnover flows

`TurnoverFlowTracker` of `trading/theme_engine/turnover_flow.py`: the turnover of a stock over the
last minutes is read off the tail of its observations, stocks are ranked by it, and the themes
share the market's. What a text denotes in seconds is a parameter; turnovers are exact numbers.
-/

namespace TradingCore.Themes

open Base Candidates

structure TurnoverObservation where
  code : String
  observedAt : String
  cumulativeTurnoverKrw : ℚ := 0
  reasonCodes : List String := []
deriving DecidableEq

structure StockTurnoverFlow where
  code : String
  observedAt : String
  cumulativeTurnoverKrw : ℚ := 0
  turnoverDelta1m : ℚ := 0
  turnoverDelta3m : ℚ := 0
  turnoverDelta5m : ℚ := 0
  turnoverSpeed1m : ℚ := 0
  turnoverSpeed3m : ℚ := 0
  turnoverAcceleration : ℚ := 0
  turnoverFlowPercentile : ℚ := 0
  flowFreshness : String := "FRESH"
  reasonCodes : List String := []

structure TurnoverFlowTracker where
  maxHistory : ℕ
  history : Dict String (List TurnoverObservation) := .empty
  latestStockFlow : Dict String StockTurnoverFlow := .empty
  previousThemeShare : Dict String ℚ := .empty

/-- `_rank_percentiles`: the keys with positive values, in the order of the values. -/
def rankPercentiles (values : Dict String ℚ) : Dict String ℚ :=
  let positives := (values.entries.filter (0 < ·.2)).mergeSort (·.2 ≤ ·.2)
  if positives.length ≤ 0 then values.mapVals fun _ _ => 0
  else .ofList (positives.zipIdx.map fun entry =>
    (entry.1.1, ((entry.2 : ℚ) + 1) / positives.length * 100))

def observation (value : TurnoverObservation) : TurnoverObservation :=
  { value with code := normalizeCode value.code }

/-- The reason that an observation leaves on the flow of its code when it is not appended. -/
def StockTurnoverFlow.marked (previous : StockTurnoverFlow) (reason : String) :
    StockTurnoverFlow :=
  { previous with
    reasonCodes := dedupe (previous.reasonCodes ++ [reason])
    flowFreshness := if reason = "TURNOVER_TIMESTAMP_OUT_OF_ORDER" then "STALE"
      else previous.flowFreshness }

def filed (history : List TurnoverObservation) (item : TurnoverObservation) :
    TurnoverObservation :=
  if history.getLast?.any (item.cumulativeTurnoverKrw < ·.cumulativeTurnoverKrw) then
    { item with reasonCodes := dedupe (item.reasonCodes ++ ["TURNOVER_CUMULATIVE_RESET"]) }
  else item

/-- `del history[:-n]` leaves the last `n` observations. -/
def lastOf (n : ℕ) (items : List TurnoverObservation) : List TurnoverObservation :=
  items.drop (items.length - n)

section Observations

variable (parseTime : String → Option ℚ)

def isOutOfOrder (previous current : TurnoverObservation) : Bool :=
  match parseTime previous.observedAt, parseTime current.observedAt with
  | some earlier, some later => later < earlier
  | _, _ => false

/-- Why `observe` does not append an observation. -/
def staleReason (last item : TurnoverObservation) : Option String :=
  if item.observedAt = last.observedAt then some "TURNOVER_DUPLICATE_OBSERVATION"
  else if isOutOfOrder parseTime last item then some "TURNOVER_TIMESTAMP_OUT_OF_ORDER"
  else none

/-- The baseline of `_delta_since`: the latest of the observations before the last one that is old
enough, and else the first of all. -/
def baselineOf (latestTime seconds : ℚ) (latest : TurnoverObservation)
    (history : List TurnoverObservation) : TurnoverObservation :=
  (history.dropLast.reverse.find? fun item =>
    (parseTime item.observedAt).any (seconds ≤ latestTime - ·)).getD (history.headD latest)

def deltaSince (history : List TurnoverObservation) (latest : TurnoverObservation) (seconds : ℚ) :
    ℚ :=
  match parseTime latest.observedAt with
  | none =>
      let previous := history.dropLast.getLastD latest
      max 0 (latest.cumulativeTurnoverKrw - previous.cumulativeTurnoverKrw)
  | some latestTime =>
      let baseline := baselineOf parseTime latestTime seconds latest history
      let delta := latest.cumulativeTurnoverKrw - baseline.cumulativeTurnoverKrw
      if delta < 0 then 0 else delta

/-- `_stock_flow`, of a history that ends with `latest`. -/
def stockFlow (history : List TurnoverObservation) (latest : TurnoverObservation) :
    StockTurnoverFlow :=
  let delta1m := deltaSince parseTime history latest 60
  let delta3m := deltaSince parseTime history latest 180
  let delta5m := deltaSince parseTime history latest 300
  let reset := (history.drop (history.length - 2)).any fun item =>
    "TURNOVER_CUMULATIVE_RESET" ∈ item.reasonCodes ∨ "TURNOVER_RESET" ∈ item.reasonCodes
  let reasons := latest.reasonCodes ++ if reset then ["TURNOVER_RESET_DETECTED"] else []
  { code := latest.code
    observedAt := latest.observedAt
    cumulativeTurnoverKrw := latest.cumulativeTurnoverKrw
    turnoverDelta1m := round4 delta1m
    turnoverDelta3m := round4 delta3m
    turnoverDelta5m := round4 delta5m
    turnoverSpeed1m := round4 delta1m
    turnoverSpeed3m := round4 (delta3m / 3)
    turnoverAcceleration := round4 (delta1m - delta3m / 3)
    flowFreshness := if "TURNOVER_TIMESTAMP_OUT_OF_ORDER" ∈ reasons ∨
      "TURNOVER_STALE_OBSERVATION" ∈ reasons then "STALE" else "FRESH"
    reasonCodes := dedupe reasons }

namespace TurnoverFlowTracker

variable (tracker : TurnoverFlowTracker)

/-- `TurnoverFlowTracker()`. -/
def new (maxHistory : Int := 20) : TurnoverFlowTracker :=
  { maxHistory := (max 2 (if maxHistory = 0 then 20 else maxHistory)).toNat }

def recomputePercentiles (flows : Dict String StockTurnoverFlow) : Dict String StockTurnoverFlow :=
  let percentiles := rankPercentiles (flows.mapVals fun _ flow => flow.turnoverDelta1m)
  flows.mapVals fun code flow =>
    { flow with turnoverFlowPercentile := round4 (percentiles.getD code 0) }

/-- `observe`, when it appends the observation. -/
def append (item : TurnoverObservation) : TurnoverFlowTracker :=
  let history := tracker.history.getD item.code []
  let kept := lastOf tracker.maxHistory (history ++ [filed history item])
  { tracker with
    history := tracker.history.set item.code kept
    latestStockFlow := recomputePercentiles
      (tracker.latestStockFlow.set item.code (stockFlow parseTime kept (filed history item))) }

/-- `observe`; the flow that it returns is the one that it files. -/
def observe (value : TurnoverObservation) : TurnoverFlowTracker :=
  let item := observation value
  if item.code = "" then tracker
  else
    match (tracker.history.getD item.code []).getLast?, tracker.latestStockFlow.get? item.code with
    | some last, some previous =>
        match staleReason parseTime last item with
        | some reason => { tracker with
            latestStockFlow := tracker.latestStockFlow.set item.code (previous.marked reason) }
        | none => tracker.append parseTime item
    | _, _ => tracker.append parseTime item

end TurnoverFlowTracker

end Observations

/-! ## Themes -/

/-- What `theme_flows` reads of a `ThemeCohortSnapshot`: its theme and the codes of its signals. -/
structure SignalCohort where
  themeId : String
  signals : List String

structure ThemeTurnoverFlow where
  themeId : String
  themeTurnoverDelta1m : ℚ
  themeTurnoverDelta3m : ℚ
  themeTurnoverDelta5m : ℚ
  themeTurnoverAcceleration : ℚ
  themeFlowShare : ℚ
  themeFlowShareDelta : ℚ
  themeFlowPercentile : ℚ
  freshFlowMemberCount : ℕ
  freshFlowCoverageRatio : ℚ

namespace TurnoverFlowTracker

variable (tracker : TurnoverFlowTracker) (cohorts : List SignalCohort)

def flowsOf (cohort : SignalCohort) : List StockTurnoverFlow :=
  cohort.signals.filterMap fun code => tracker.latestStockFlow.get? (normalizeCode code)

def cohortTotal (cohort : SignalCohort) : ℚ :=
  ((tracker.flowsOf cohort).map fun flow => max 0 flow.turnoverDelta1m).sum

/-- `totals` of `theme_flows`. -/
def themeTotals : Dict String ℚ :=
  .ofList ((cohorts.filter (·.themeId ≠ "")).map fun cohort =>
    (cohort.themeId, tracker.cohortTotal cohort))

def themeShare (total : ℚ) : ℚ :=
  let marketTotal := (tracker.themeTotals cohorts).values.sum
  if 0 < marketTotal then total / marketTotal else 0

def themeSum (value : StockTurnoverFlow → ℚ) (themeId : String) : ℚ :=
  round4 (((cohorts.filter (·.themeId = themeId)).flatMap tracker.flowsOf).map value).sum

def themeFlow (themeId : String) (delta1m : ℚ) : ThemeTurnoverFlow :=
  let cohort := (cohorts.reverse.find? (·.themeId = themeId)).getD ⟨themeId, []⟩
  let share := tracker.themeShare cohorts delta1m
  let fresh := (tracker.flowsOf cohort).countP (·.flowFreshness = "FRESH")
  { themeId
    themeTurnoverDelta1m := round4 delta1m
    themeTurnoverDelta3m := tracker.themeSum cohorts (max 0 ·.turnoverDelta3m) themeId
    themeTurnoverDelta5m := tracker.themeSum cohorts (max 0 ·.turnoverDelta5m) themeId
    themeTurnoverAcceleration := tracker.themeSum cohorts (·.turnoverAcceleration) themeId
    themeFlowShare := LiveSim.roundSix share
    themeFlowShareDelta := LiveSim.roundSix (share - tracker.previousThemeShare.getD themeId 0)
    themeFlowPercentile :=
      round4 ((rankPercentiles (tracker.themeTotals cohorts)).getD themeId 0)
    freshFlowMemberCount := fresh
    freshFlowCoverageRatio := round4 (fresh / max 1 cohort.signals.length) }

/-- `theme_flows`: the flows, and the tracker that keeps the shares. -/
def themeFlows : Dict String ThemeTurnoverFlow × TurnoverFlowTracker :=
  let totals := tracker.themeTotals cohorts
  (totals.mapVals (tracker.themeFlow cohorts),
    { tracker with
      previousThemeShare := tracker.previousThemeShare.merge
        (totals.mapVals fun _ => tracker.themeShare cohorts) })

end TurnoverFlowTracker

end TradingCore.Themes
