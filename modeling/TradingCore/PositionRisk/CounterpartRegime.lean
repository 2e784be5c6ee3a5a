import TradingCore.Market.MarketRegime

/-!
# The other side's regime and a position

`PositionRuntimeService._position_market_context` and `PositionRiskManager._position_market_action`
(`trading/strategy/position_risk.py`), with the part of `_position_risk` that sets the market risk
level. The systemic flag of a position takes in `risk_off_detected`, which either side sets: the
regime of the other side, which the action is to ignore, liquidates the position.

The side of the position, what older contexts and details say of a systemic risk, and what its
structure flags and prices come to are given; the data and theme levels are left out.
-/

namespace TradingCore.PositionRisk

open Market

inductive PositionMarketAction
  | hold
  | tightenStop
  | scaleOut
  | exitIfLoser
  | exitNow
  | dataWait
deriving DecidableEq

inductive MarketRiskLevel
  | normal
  | caution
  | reduce
deriving DecidableEq

def MarketRiskLevel.order : MarketRiskLevel → Nat
  | normal => 0
  | caution => 1
  | reduce => 2

/-- `_max_risk_level` of two levels. -/
def maxRiskLevel (a b : MarketRiskLevel) : MarketRiskLevel := if a.order < b.order then b else a

structure LatestRegime where
  kospiStatus : MarketRegimeStatus
  kosdaqStatus : MarketRegimeStatus
  marketOpen : Bool := true

namespace LatestRegime

variable (regime : LatestRegime)

def systemicRiskOff : Bool :=
  (systemicRiskOffState regime.kospiStatus regime.kosdaqStatus regime.marketOpen).1

def riskOffDetected : Bool := .riskOff ∈ [regime.kospiStatus, regime.kosdaqStatus]

def status (side : MarketSide) : MarketRegimeStatus :=
  sideStatus regime.kospiStatus regime.kosdaqStatus side

end LatestRegime

structure RuntimePosition where
  marketSide : MarketSide
  /-- `risk_status` is neither `DATA_WAIT` nor `STALE_DATA_RISK`. -/
  dataFresh : Bool := true
  contextFresh : Bool := true
  /-- `systemic_risk_off` of the strategy context or of the details. -/
  staleSystemic : Bool := false
  currentReturnPct : ℚ := 0
  (supportBroken vwapBroken themeWeak leaderCollapsed : Bool := false)

structure PositionMarketContext where
  sideMarketRegime : MarketRegimeStatus
  counterpartMarketRegime : MarketRegimeStatus
  systemicRiskOff : Bool
  fresh : Bool

/-- `_position_market_context`. -/
def positionMarketContext (regime : LatestRegime) (position : RuntimePosition) :
    PositionMarketContext :=
  let fresh := position.contextFresh && decide (position.marketSide ≠ .unknown)
  { sideMarketRegime := if fresh then regime.status position.marketSide else .dataWait
    counterpartMarketRegime :=
      if fresh then regime.status (counterpartSide position.marketSide) else .dataWait
    systemicRiskOff :=
      regime.systemicRiskOff || regime.riskOffDetected || position.staleSystemic
    fresh }

namespace RuntimePosition

variable (position : RuntimePosition)

def damaged : Bool :=
  position.supportBroken || position.vwapBroken || position.themeWeak || position.leaderCollapsed

def profitable : Bool := 0 ≤ position.currentReturnPct

/-- `_position_market_action`: the action, the exit ratio, the trailing gap and the reasons. -/
def positionMarketAction (context : PositionMarketContext) (tightGap : ℚ) :
    PositionMarketAction × ℚ × ℚ × List String :=
  if ¬ position.dataFresh then (.dataWait, 0, 0, ["POSITION_MARKET_DATA_WAIT"])
  else if ¬ context.fresh then (.dataWait, 0, 0, ["POSITION_MARKET_CONTEXT_STALE"])
  else if position.marketSide = .unknown then
    (.dataWait, 0, 0, ["POSITION_MARKET_SIDE_UNRESOLVED"])
  else if context.systemicRiskOff then
    if ¬ position.profitable ∨ position.damaged then
      (.exitNow, 1, 0, ["SYSTEMIC_RISK_OFF_POSITION_RISK", "POSITION_MARKET_EXIT_NOW"])
    else
      (.scaleOut, 1 / 2, tightGap, ["SYSTEMIC_RISK_OFF_POSITION_RISK", "POSITION_MARKET_SCALE_OUT"])
  else
    match context.sideMarketRegime with
    | .expansion | .selective =>
        (.hold, 0, 0, "POSITION_MARKET_HOLD" ::
          if context.counterpartMarketRegime ∈ [.weak, .riskOff] then
            ["COUNTERPART_MARKET_RISK_IGNORED"]
          else [])
    | .choppy =>
        if position.supportBroken ∨ position.vwapBroken then
          (.exitNow, 1, 0, ["POSITION_MARKET_EXIT_NOW"])
        else (.tightenStop, 0, tightGap, ["POSITION_MARKET_TIGHTEN_STOP"])
    | .weak =>
        if ¬ position.profitable ∧ position.damaged then
          (.exitNow, 1, 0, ["SIDE_MARKET_WEAK_POSITION_RISK", "POSITION_MARKET_EXIT_NOW"])
        else if ¬ position.profitable then
          (.exitIfLoser, 0, tightGap,
            ["SIDE_MARKET_WEAK_POSITION_RISK", "POSITION_MARKET_EXIT_IF_LOSER"])
        else if position.damaged then
          (.scaleOut, 1 / 2, tightGap,
            ["SIDE_MARKET_WEAK_POSITION_RISK", "POSITION_MARKET_SCALE_OUT"])
        else
          (.tightenStop, 0, tightGap,
            ["SIDE_MARKET_WEAK_POSITION_RISK", "POSITION_MARKET_TIGHTEN_STOP"])
    | .riskOff =>
        if ¬ position.profitable ∨ position.damaged then
          (.exitNow, 1, 0, ["SIDE_MARKET_RISK_OFF_POSITION_RISK", "POSITION_MARKET_EXIT_NOW"])
        else
          (.scaleOut, 1 / 2, tightGap,
            ["SIDE_MARKET_RISK_OFF_POSITION_RISK", "POSITION_MARKET_SCALE_OUT"])
    | .dataWait | .marketClosed => (.dataWait, 0, 0, ["POSITION_MARKET_DATA_WAIT"])

/-- The market part of `_position_risk`. -/
def marketRiskLevel (context : PositionMarketContext) (tightGap : ℚ) : MarketRiskLevel :=
  let level : MarketRiskLevel :=
    if context.sideMarketRegime = .riskOff ∨ context.systemicRiskOff then .reduce
    else if context.sideMarketRegime = .weak then .caution
    else .normal
  let action := (position.positionMarketAction context tightGap).1
  if action ∈ [.exitNow, .scaleOut] then maxRiskLevel level .reduce
  else if action ∈ [.tightenStop, .exitIfLoser, .dataWait] then maxRiskLevel level .caution
  else level

/-- What a regime makes of the position: its action, the exit ratio and the market risk level. -/
def outcome (tightGap : ℚ) (regime : LatestRegime) :
    PositionMarketAction × ℚ × MarketRiskLevel :=
  let context := positionMarketContext regime position
  let action := position.positionMarketAction context tightGap
  (action.1, action.2.1, position.marketRiskLevel context tightGap)

def Healthy (status : MarketRegimeStatus) : Prop := status ∈ [.expansion, .selective]
deriving Decidable

/-- The other side's regime, as it is in `regime'` rather than in `regime`, leaves the position
alone; and the position is held while its own side is healthy. -/
def Independent (tightGap : ℚ) (regime regime' : LatestRegime) : Prop :=
  position.outcome tightGap regime = position.outcome tightGap regime' ∧
    (Healthy (regime.status position.marketSide) →
      (position.outcome tightGap regime).1 = .hold ∧ (position.outcome tightGap regime').1 = .hold)

/-- A systemic risk would make the same of the position. -/
def ExitsAnyway (status : MarketRegimeStatus) : Prop :=
  status = .riskOff ∨ (status = .choppy ∧ (position.supportBroken ∨ position.vwapBroken)) ∨
    (status = .weak ∧ position.profitable = false ∧ position.damaged)

/-- Nothing leaks into the position: its side is healthy, the other one in no risk-off and nothing
left over; or it is not, and the other side's risk-off is in both regimes or in none, or there is
a leftover, or the position exits anyway. -/
def Shielded (regime regime' : LatestRegime) : Prop :=
  let other := counterpartSide position.marketSide
  if Healthy (regime.status position.marketSide) then
    position.staleSystemic = false ∧ regime.status other ≠ .riskOff ∧
      regime'.status other ≠ .riskOff
  else
    position.staleSystemic ∨ position.ExitsAnyway (regime.status position.marketSide) ∨
      (regime.status other = .riskOff ↔ regime'.status other = .riskOff)

/-! ## One regime -/

variable {position} {tightGap : ℚ} {regime regime' : LatestRegime}

/-- The outcome as a function of the systemic flag and of the own side. -/
def outcomeOf (position : RuntimePosition) (systemic : Bool) (status : MarketRegimeStatus) :
    PositionMarketAction × ℚ × MarketRiskLevel :=
  if systemic ∨ status = .riskOff then
    if ¬ position.profitable ∨ position.damaged then (.exitNow, 1, .reduce)
    else (.scaleOut, 1 / 2, .reduce)
  else
    match status with
    | .expansion | .selective => (.hold, 0, .normal)
    | .choppy =>
        if position.supportBroken ∨ position.vwapBroken then (.exitNow, 1, .reduce)
        else (.tightenStop, 0, .caution)
    | .weak =>
        if ¬ position.profitable ∧ position.damaged then (.exitNow, 1, .reduce)
        else if ¬ position.profitable then (.exitIfLoser, 0, .caution)
        else if position.damaged then (.scaleOut, 1 / 2, .reduce)
        else (.tightenStop, 0, .caution)
    | .dataWait | .marketClosed | .riskOff => (.dataWait, 0, .caution)

theorem outcome_eq (hside : position.marketSide ≠ .unknown) (hdata : position.dataFresh = true)
    (hfresh : position.contextFresh = true) :
    position.outcome tightGap regime =
      position.outcomeOf (positionMarketContext regime position).systemicRiskOff
        (regime.status position.marketSide) := by
  have hstatus : (positionMarketContext regime position).sideMarketRegime =
      regime.status position.marketSide := by simp [positionMarketContext, hside, hfresh]
  have hcontext : (positionMarketContext regime position).fresh = true := by
    simp [positionMarketContext, hside, hfresh]
  unfold outcome marketRiskLevel positionMarketAction outcomeOf
  simp only [hstatus, hcontext, hdata, hside]
  cases (positionMarketContext regime position).systemicRiskOff with
  | true =>
      by_cases hexit : position.profitable = false ∨ position.damaged = true <;>
        simp [hexit, maxRiskLevel, MarketRiskLevel.order]
  | false =>
      cases regime.status position.marketSide <;>
        simp [maxRiskLevel, MarketRiskLevel.order] <;> split_ifs <;> simp_all

theorem systemicRiskOff_eq (hside : position.marketSide ≠ .unknown)
    (hcalm : regime.systemicRiskOff = false) :
    (positionMarketContext regime position).systemicRiskOff = true ↔
      regime.status position.marketSide = .riskOff ∨
        regime.status (counterpartSide position.marketSide) = .riskOff ∨
          position.staleSystemic = true := by
  simp only [positionMarketContext, hcalm, LatestRegime.riskOffDetected, LatestRegime.status]
  cases h : position.marketSide with
  | unknown => exact absurd h hside
  | kospi =>
      simp only [sideStatus, counterpartSide, Bool.or_eq_true, decide_eq_true_eq, List.mem_cons]
      grind
  | kosdaq =>
      simp only [sideStatus, counterpartSide, Bool.or_eq_true, decide_eq_true_eq, List.mem_cons]
      grind

/-! ## Two regimes -/

theorem outcomeOf_flag (status : MarketRegimeStatus) :
    position.outcomeOf true status = position.outcomeOf false status ↔
      position.ExitsAnyway status := by
  unfold outcomeOf ExitsAnyway
  cases hp : position.profitable <;> cases hd : position.damaged <;>
    simp only [damaged, Bool.or_eq_false_iff, Bool.or_eq_true] at hd <;>
      cases status <;> simp <;> grind

theorem outcomeOf_eq_iff (status : MarketRegimeStatus) (systemic systemic' : Bool) :
    position.outcomeOf systemic status = position.outcomeOf systemic' status ↔
      systemic = systemic' ∨ position.ExitsAnyway status := by
  cases systemic <;> cases systemic'
  · simp
  · rw [eq_comm, outcomeOf_flag]
    simp
  · simp [outcomeOf_flag]
  · simp

theorem outcomeOf_hold {status : MarketRegimeStatus} (hhealthy : Healthy status)
    (systemic : Bool) : (position.outcomeOf systemic status).1 = .hold ↔ systemic = false := by
  rcases List.mem_pair.mp hhealthy with h | h <;> subst h <;> cases systemic <;>
    simp [outcomeOf] <;> split_ifs <;> simp

/-- **What the other side's regime does.** Of two regimes that are not systemic and agree on the
position's own side, the outcome is the same exactly when the position is shielded: it follows
the other side's risk-off otherwise, on a healthy side too. -/
theorem counterpart_ignored (hside : position.marketSide ≠ .unknown)
    (hdata : position.dataFresh = true) (hfresh : position.contextFresh = true)
    (hsame : regime'.status position.marketSide = regime.status position.marketSide)
    (hcalm : regime.systemicRiskOff = false) (hcalm' : regime'.systemicRiskOff = false) :
    position.Independent tightGap regime regime' ↔ position.Shielded regime regime' := by
  have hflag := systemicRiskOff_eq hside hcalm
  have hflag' := systemicRiskOff_eq hside hcalm'
  rw [hsame] at hflag'
  simp only [Independent, Shielded, outcome_eq hside hdata hfresh, hsame, outcomeOf_eq_iff]
  by_cases hhealthy : Healthy (regime.status position.marketSide)
  · have hown : regime.status position.marketSide ≠ .riskOff := by
      rcases List.mem_pair.mp hhealthy with h | h <;> simp [h]
    simp only [outcomeOf_hold hhealthy, hhealthy]
    grind
  · -- on the other sides a flag that both regimes raise, or a position that exits, hides it
    simp only [hhealthy, ExitsAnyway]
    grind

/-! ## Fixed regimes -/

/-- A losing KOSPI position in an expanding KOSPI is sold when the KOSDAQ turns risk-off. -/
theorem counterpart_not_ignored :
    ¬ ∀ (position : RuntimePosition) (tightGap : ℚ) (regime regime' : LatestRegime),
      position.marketSide ≠ .unknown → position.dataFresh = true → position.contextFresh = true →
        regime'.status position.marketSide = regime.status position.marketSide →
          regime.systemicRiskOff = false → regime'.systemicRiskOff = false →
            position.Independent tightGap regime regime' := by
  intro h
  have hhold := (h ⟨.kospi, true, true, false, -1, false, false, false, false⟩ (1 / 2)
    ⟨.expansion, .selective, true⟩ ⟨.expansion, .riskOff, true⟩
    (by decide) rfl rfl rfl rfl rfl).2 (by decide)
  exact absurd hhold.2 (by decide +kernel)

/-- A weakening KOSDAQ, no risk-off yet, leaves it alone. -/
theorem weak_counterpart_ignored :
    RuntimePosition.Independent ⟨.kospi, true, true, false, -1, false, false, false, false⟩ (1 / 2)
      ⟨.expansion, .selective, true⟩ ⟨.expansion, .weak, true⟩ :=
  (counterpart_ignored (by decide) rfl rfl (by decide) (by decide) (by decide)).2
    (by simp [Shielded, Healthy, LatestRegime.status, sideStatus, counterpartSide])

end RuntimePosition

end TradingCore.PositionRisk
