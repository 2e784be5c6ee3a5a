import TradingCore.Candidates.Models
import Mathlib.Algebra.Order.Field.Rat

/-!
# Market regimes

The two market sides are classified from their index and the breadth of the candidates, and the
candidates of a side get a policy from the states of both (`trading/strategy/market_regime.py`).
Percentages and multipliers are exact numbers. How a candidate's side is resolved is a parameter;
the snapshots, the overlay and the dashboard decide nothing here and are left out.
-/

namespace TradingCore.Market

open Base Candidates

inductive MarketRegimeStatus
  | expansion | selective | choppy | weak | riskOff | dataWait | marketClosed
deriving DecidableEq

def MarketRegimeStatus.value : MarketRegimeStatus → String
  | .expansion => "EXPANSION"
  | .selective => "SELECTIVE"
  | .choppy => "CHOPPY"
  | .weak => "WEAK"
  | .riskOff => "RISK_OFF"
  | .dataWait => "DATA_WAIT"
  | .marketClosed => "MARKET_CLOSED"

inductive MarketSide
  | kospi | kosdaq | unknown
deriving DecidableEq

inductive CandidateMarketAction
  | allowNormal | allowReduced | waitMarket | blockNewEntry | dataWait | marketClosed
deriving DecidableEq

/-- The thresholds of `MarketRegimeConfig`. -/
structure MarketRegimeConfig where
  weakKospiPct : ℚ := -8 / 10
  weakKosdaqPct : ℚ := -1
  riskOffKospiPct : ℚ := -2
  riskOffKosdaqPct : ℚ := -25 / 10
  breadthExpansionPct : ℚ := 58 / 100
  breadthWeakPct : ℚ := 38 / 100
  breadthRiskOffPct : ℚ := 28 / 100

/-- What `_classify_side` reads of a `MarketBreadthSnapshot`. -/
structure MarketBreadthSnapshot where
  validQuoteCount : Int := 0
  breadthPct : ℚ := 0
  strongCount : Int := 0
  dataQualityFlags : List String := []

/-- The inputs of `_classify_side` for one side. -/
structure SideInputs where
  indexReturnPct : ℚ
  slope5mPct : Option ℚ := none
  lowBreakRecent : Bool := false
  breadth : MarketBreadthSnapshot := {}

def SideInputs.trustedBreadth (inputs : SideInputs) : Bool :=
  "LOW_TRUST_BREADTH" ∉ inputs.breadth.dataQualityFlags

/-! ## The status of a side -/

namespace MarketRegimeConfig

variable (config : MarketRegimeConfig) (side : MarketSide) (inputs : SideInputs)

def weakThreshold : ℚ := if side = .kospi then config.weakKospiPct else config.weakKosdaqPct

def riskOffThreshold : ℚ :=
  if side = .kospi then config.riskOffKospiPct else config.riskOffKosdaqPct

/-- The reasons and scores that come before the test for a status: the one of each rule that
applies. -/
def scored (rules : List (Bool × String × ℚ)) : List String × ℚ :=
  let applied := (rules.filter (·.1)).map (·.2)
  (applied.map (·.1), (applied.map (·.2)).sum)

/-- The first two rules of `_classify_side`. -/
def riskOffRules : List (Bool × String × ℚ) :=
  [(inputs.indexReturnPct ≤ config.riskOffThreshold side, "INDEX_RISK_OFF", 75),
    (inputs.trustedBreadth ∧ inputs.indexReturnPct ≤ config.weakThreshold side ∧
      0 < inputs.breadth.validQuoteCount ∧
        inputs.breadth.breadthPct ≤ config.breadthRiskOffPct, "BREADTH_RISK_OFF", 25)]

def weakRules : List (Bool × String × ℚ) :=
  [(inputs.indexReturnPct ≤ config.weakThreshold side, "INDEX_WEAK", 45),
    (inputs.lowBreakRecent, "INDEX_LOW_BREAK", 25),
    (inputs.trustedBreadth ∧ inputs.indexReturnPct < 0 ∧ 0 < inputs.breadth.validQuoteCount ∧
      inputs.breadth.breadthPct ≤ config.breadthWeakPct, "BREADTH_WEAK", 20)]

/-- The end of `_classify_side`, for a side that is neither risk-off nor weak. -/
def calmSide : MarketRegimeStatus × List String × ℚ :=
  if 1 / 2 ≤ inputs.indexReturnPct ∧ (∀ slope ∈ inputs.slope5mPct, 0 ≤ slope) ∧
      (inputs.trustedBreadth = false ∨ config.breadthExpansionPct ≤ inputs.breadth.breadthPct) then
    (.expansion, ["INDEX_UP", "BREADTH_EXPANSION"], 0)
  else if config.weakThreshold side ≤ inputs.indexReturnPct ∧ 0 < inputs.breadth.strongCount then
    (.selective, ["SELECTIVE_LEADERSHIP"], 15)
  else if config.weakThreshold side ≤ inputs.indexReturnPct ∧ inputs.trustedBreadth = false then
    (.selective, ["INDEX_OK_BREADTH_DIAGNOSTIC"], 20)
  else (.choppy, ["MIXED_MARKET"], 30)

/-- `_classify_side`: the status, its reasons and the risk score. -/
def classifySide (dataWait : Bool) : MarketRegimeStatus × List String × ℚ :=
  if dataWait then (.dataWait, ["INDEX_DATA_WAIT"], 100)
  else
    let first := scored (config.riskOffRules side inputs)
    if 55 ≤ first.2 then (.riskOff, first.1, min 100 first.2)
    else
      let both := scored (config.riskOffRules side inputs ++ config.weakRules side inputs)
      if 35 ≤ both.2 then (.weak, both.1, min 100 both.2)
      else config.calmSide side inputs

end MarketRegimeConfig

/-! ## Both sides -/

def systemicRiskOffState (kospi kosdaq : MarketRegimeStatus) (marketOpen : Bool) :
    Bool × List String :=
  if marketOpen = false then (false, [])
  else if kospi = .riskOff ∧ kosdaq = .riskOff then
    (true, ["SYSTEMIC_RISK_OFF_BLOCK", "BOTH_MARKETS_RISK_OFF"])
  else if kospi = .riskOff ∧ kosdaq = .weak then
    (true, ["SYSTEMIC_RISK_OFF_BLOCK", "KOSPI_RISK_OFF_KOSDAQ_WEAK"])
  else if kosdaq = .riskOff ∧ kospi = .weak then
    (true, ["SYSTEMIC_RISK_OFF_BLOCK", "KOSDAQ_RISK_OFF_KOSPI_WEAK"])
  else (false, [])

/-- The result of `market_policy_for_side`. -/
structure SidePolicy where
  action : CandidateMarketAction
  multiplier : ℚ
  block : Bool
  waitReason : String
  reasons : List String

def marketPolicyForSide (status counterpart : MarketRegimeStatus)
    (marketOpen systemicRiskOff marketSideKnown : Bool) : SidePolicy :=
  if marketOpen = false ∨ status = .marketClosed then
    ⟨.marketClosed, 0, true, "MARKET_CLOSED", ["MARKET_CLOSED"]⟩
  else if systemicRiskOff then
    ⟨.blockNewEntry, 0, true, "SYSTEMIC_RISK_OFF", ["SYSTEMIC_RISK_OFF_BLOCK"]⟩
  else if marketSideKnown = false then
    ⟨.dataWait, 0, true, "MARKET_SIDE_UNRESOLVED",
      ["MARKET_SIDE_UNKNOWN", "MARKET_SIDE_UNRESOLVED"]⟩
  else match status with
  | .riskOff => ⟨.blockNewEntry, 0, true, "RISK_OFF", ["SIDE_MARKET_RISK_OFF_BLOCK"]⟩
  | .weak => ⟨.waitMarket, 0, true, "WEAK_MARKET", ["SIDE_MARKET_WEAK_WAIT"]⟩
  | .choppy => ⟨.waitMarket, 35 / 100, false, "CHOPPY_MARKET", ["SIDE_MARKET_CHOPPY_WAIT"]⟩
  | .dataWait | .marketClosed => ⟨.dataWait, 0, true, "DATA_WAIT", ["MARKET_DATA_WAIT"]⟩
  | .selective =>
      ⟨.allowReduced, 6 / 10, false, "SELECTIVE_MARKET", ["SIDE_MARKET_SELECTIVE_REDUCED"]⟩
  | .expansion =>
      if counterpart = .dataWait then
        ⟨.allowReduced, 6 / 10, false, "COUNTERPART_MARKET_DATA_WAIT",
          ["COUNTERPART_MARKET_DATA_WAIT_REDUCED"]⟩
      else if counterpart ∈ [.weak, .riskOff, .choppy] then
        ⟨.allowReduced, 6 / 10, false, "SPLIT_MARKET_REDUCED",
          ["SPLIT_MARKET_HEALTHY_SIDE_REDUCED"]⟩
      else ⟨.allowNormal, 1, false, "", ["MARKET_EXPANSION_ALLOW"]⟩

/-! ## The policies of the candidates -/

/-- What a policy keeps of a `MarketSideResolution`. -/
structure MarketSideResolution where
  side : MarketSide := .unknown
  source : String := "unknown"
  status : String := "UNRESOLVED"
  reasonCodes : List String := []

structure CandidateMarketPolicy where
  code : String
  marketSide : MarketSide
  marketSideSource : String
  marketSideResolutionStatus : String
  marketStatus : MarketRegimeStatus
  globalMarketStatus : MarketRegimeStatus
  marketAction : CandidateMarketAction
  positionSizeMultiplierHint : ℚ
  blockNewEntry : Bool
  waitReason : String
  recheckAfterSec : Nat
  reasonCodes : List String

def counterpartSide : MarketSide → MarketSide
  | .kospi => .kosdaq
  | .kosdaq => .kospi
  | .unknown => .unknown

/-- The status of a side, `DATA_WAIT` where there is none. -/
def sideStatus (kospi kosdaq : MarketRegimeStatus) : MarketSide → MarketRegimeStatus
  | .kospi => kospi
  | .kosdaq => kosdaq
  | .unknown => .dataWait

def MarketSide.value : MarketSide → String
  | .kospi => "KOSPI"
  | .kosdaq => "KOSDAQ"
  | .unknown => "UNKNOWN"

section Policies

variable (resolution : Candidate → MarketSideResolution) (kospi kosdaq : MarketRegimeStatus)
  (globalStatus : MarketRegimeStatus) (marketOpen : Bool)

/-- One turn of the loop of `_candidate_policies`. -/
def candidatePolicy (candidate : Candidate) : CandidateMarketPolicy :=
  let resolved := resolution candidate
  let policy := marketPolicyForSide (sideStatus kospi kosdaq resolved.side)
    (sideStatus kospi kosdaq (counterpartSide resolved.side)) marketOpen
    (systemicRiskOffState kospi kosdaq marketOpen).1 (resolved.side ≠ .unknown)
  { code := candidate.code
    marketSide := resolved.side
    marketSideSource := resolved.source
    marketSideResolutionStatus := resolved.status
    marketStatus := sideStatus kospi kosdaq resolved.side
    globalMarketStatus := globalStatus
    marketAction := policy.action
    positionSizeMultiplierHint := policy.multiplier
    blockNewEntry := policy.block
    waitReason := policy.waitReason
    recheckAfterSec := if policy.action = .dataWait ∨ policy.action = .waitMarket then 5 else 0
    reasonCodes := dedupe ((if resolved.side = .unknown then [] else
      ["MARKET_SIDE_" ++ resolved.side.value]) ++ resolved.reasonCodes ++ policy.reasons) }

/-- `_candidate_policies`, over the statuses of the two sides. -/
def candidatePolicies (candidates : List Candidate) : Dict String CandidateMarketPolicy :=
  .ofList ((candidates.filter (·.state ∈ [.watching, .waitData])).map fun candidate =>
    (candidate.code, candidatePolicy resolution kospi kosdaq globalStatus marketOpen candidate))

end Policies

end TradingCore.Market
