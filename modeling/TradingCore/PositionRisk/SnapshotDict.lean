import TradingCore.Broker.WireRoundTrip

/-!
# The dictionary of a position snapshot

`PositionRuntimeSnapshot.to_dict` and `_position_snapshot_from` of
`trading/strategy/position_risk.py`. The candidate id is lost, since `_optional_int` ends after its
first test, and an empty or false field of the market context is looked for in the details.

A float is known by the text that `repr` prints, from which `float` makes it again; other texts
are read by a parameter.
-/

namespace TradingCore.PositionRisk

open Base Broker.Wire Data

inductive PositionRiskStatus
  | opened
  | scaleOutPending
  | exitPending
  | closed
  | dataWait
  | staleDataRisk
deriving DecidableEq

def PositionRiskStatus.value : PositionRiskStatus → String
  | opened => "OPEN"
  | scaleOutPending => "SCALE_OUT_PENDING"
  | exitPending => "EXIT_PENDING"
  | closed => "CLOSED"
  | dataWait => "DATA_WAIT"
  | staleDataRisk => "STALE_DATA_RISK"

/-- `PositionRiskStatus(value)`. -/
def PositionRiskStatus.ofValue? (value : String) : Option PositionRiskStatus :=
  [opened, scaleOutPending, exitPending, closed, dataWait, staleDataRisk].find? (·.value = value)

/-- A float: its text, and whether it counts as true. -/
structure PyFloat where
  text : String := "0.0"
  truthy : Bool := false

def PyFloat.data (x : PyFloat) : Data := .leaf (.other x.text x.truthy)

structure PositionRuntimeSnapshot where
  (tradeDate calculatedAt positionId : String)
  candidateId : Option Int
  code : String
  (name themeId themeName : String := "")
  sourceType : String := "VIRTUAL"
  (entryPrice quantity remainingQuantity : Int := 0)
  avgEntryPrice : PyFloat := {}
  openedAt : String := ""
  (holdingMinutes currentPrice : Int := 0)
  (currentReturnPct maxReturnPct maxDrawdownPct : PyFloat := {})
  (highestPriceSinceEntry lowestPriceSinceEntry : Int := 0)
  (realizedReturnPct unrealizedReturnPct : PyFloat := {})
  (stopLossPrice takeProfitPrice trailingStopPrice : Int := 0)
  (trailingActive firstProfitTaken : Bool := false)
  lastTickAt : String := ""
  dataQualityFlags : List String := []
  riskStatus : PositionRiskStatus := .opened
  marketSide : String := "UNKNOWN"
  marketSideSource : String := ""
  marketSideResolutionStatus : String := "UNRESOLVED"
  (sideMarketRegime counterpartMarketRegime : String := "DATA_WAIT")
  compositeMarketMode : String := "DATA_DEGRADED"
  systemicRiskOff : Bool := false
  marketContextCalculatedAt : String := ""
  marketContextFresh : Bool := false
  candidateMarketAction : String := "DATA_WAIT"
  strategyContextId : String := ""
  details : Fields := .empty

namespace PositionRuntimeSnapshot

def toDict (p : PositionRuntimeSnapshot) : Fields where
  entries :=
    [("trade_date", .str p.tradeDate), ("calculated_at", .str p.calculatedAt),
     ("position_id", .str p.positionId),
     ("candidate_id", p.candidateId.elim (.leaf .none) .int), ("code", .str p.code),
     ("name", .str p.name), ("theme_id", .str p.themeId), ("theme_name", .str p.themeName),
     ("source_type", .str p.sourceType), ("entry_price", .int p.entryPrice),
     ("quantity", .int p.quantity), ("remaining_quantity", .int p.remainingQuantity),
     ("avg_entry_price", p.avgEntryPrice.data), ("opened_at", .str p.openedAt),
     ("holding_minutes", .int p.holdingMinutes), ("current_price", .int p.currentPrice),
     ("current_return_pct", p.currentReturnPct.data), ("max_return_pct", p.maxReturnPct.data),
     ("max_drawdown_pct", p.maxDrawdownPct.data),
     ("highest_price_since_entry", .int p.highestPriceSinceEntry),
     ("lowest_price_since_entry", .int p.lowestPriceSinceEntry),
     ("realized_return_pct", p.realizedReturnPct.data),
     ("unrealized_return_pct", p.unrealizedReturnPct.data),
     ("stop_loss_price", .int p.stopLossPrice), ("take_profit_price", .int p.takeProfitPrice),
     ("trailing_stop_price", .int p.trailingStopPrice),
     ("trailing_active", .leaf (.bool p.trailingActive)),
     ("first_profit_taken", .leaf (.bool p.firstProfitTaken)),
     ("last_tick_at", .str p.lastTickAt),
     ("data_quality_flags", .list (p.dataQualityFlags.map str)),
     ("risk_status", .str p.riskStatus.value), ("market_side", .str p.marketSide),
     ("market_side_source", .str p.marketSideSource),
     ("market_side_resolution_status", .str p.marketSideResolutionStatus),
     ("side_market_regime", .str p.sideMarketRegime),
     ("counterpart_market_regime", .str p.counterpartMarketRegime),
     ("composite_market_mode", .str p.compositeMarketMode),
     ("systemic_risk_off", .leaf (.bool p.systemicRiskOff)),
     ("market_context_calculated_at", .str p.marketContextCalculatedAt),
     ("market_context_fresh", .leaf (.bool p.marketContextFresh)),
     ("candidate_market_action", .str p.candidateMarketAction),
     ("strategy_context_id", .str p.strategyContextId),
     ("details", (ofFields p.details).plain)]
  nodup := by simp

end PositionRuntimeSnapshot

/-! ## Reading a dictionary -/

section Reading

variable (rt : Runtime) (parseFloat : String → Option PyFloat)

/-- `_optional_int`: there is no further branch. -/
def optionalInt (value : Data) : Option Int :=
  match value with
  | .leaf .none => none
  | .leaf (.str "") => none
  | _ => none

/-- `_float`. -/
def toFloat : Data → PyFloat
  | .leaf .none => {}
  | .leaf (.str "") => {}
  | .leaf (.other text truthy) => { text, truthy }
  | value => (parseFloat (value.text rt.repr)).getD {}

/-- `str(data.get(key) or details.get(key) or default)`. -/
def marketText (data details : Fields) (key default : String) : String :=
  (((data.item key).or (details.item key)).or (.str default)).text rt.repr

/-- `bool(data.get(key) or details.get(key))`. -/
def marketFlag (data details : Fields) (key : String) : Bool :=
  ((data.item key).or (details.item key)).truthy

/-- `_position_snapshot_from` of a dictionary; `none` where it raises an error. -/
def positionSnapshotFrom (data : Fields) : Option PositionRuntimeSnapshot := do
  let details ← fieldsOr data "details"
  let flags ← ((data.item "data_quality_flags").or (.list [])).items?
  some
    { tradeDate := textOr rt data "trade_date"
      calculatedAt := textOr rt data "calculated_at"
      positionId := textOr rt data "position_id"
      candidateId := optionalInt (data.item "candidate_id")
      code := textOr rt data "code"
      name := textOr rt data "name"
      themeId := textOr rt data "theme_id"
      themeName := textOr rt data "theme_name"
      sourceType := textOr rt data "source_type" "VIRTUAL"
      entryPrice := ← intOr data "entry_price"
      quantity := ← intOr data "quantity"
      remainingQuantity := ← intOr data "remaining_quantity"
      avgEntryPrice := toFloat rt parseFloat (data.item "avg_entry_price")
      openedAt := textOr rt data "opened_at"
      holdingMinutes := ← intOr data "holding_minutes"
      currentPrice := ← intOr data "current_price"
      currentReturnPct := toFloat rt parseFloat (data.item "current_return_pct")
      maxReturnPct := toFloat rt parseFloat (data.item "max_return_pct")
      maxDrawdownPct := toFloat rt parseFloat (data.item "max_drawdown_pct")
      highestPriceSinceEntry := ← intOr data "highest_price_since_entry"
      lowestPriceSinceEntry := ← intOr data "lowest_price_since_entry"
      realizedReturnPct := toFloat rt parseFloat (data.item "realized_return_pct")
      unrealizedReturnPct := toFloat rt parseFloat (data.item "unrealized_return_pct")
      stopLossPrice := ← intOr data "stop_loss_price"
      takeProfitPrice := ← intOr data "take_profit_price"
      trailingStopPrice := ← intOr data "trailing_stop_price"
      trailingActive := (data.item "trailing_active").truthy
      firstProfitTaken := (data.item "first_profit_taken").truthy
      lastTickAt := textOr rt data "last_tick_at"
      dataQualityFlags := flags.map (·.text rt.repr)
      riskStatus := ← PositionRiskStatus.ofValue? (textOr rt data "risk_status" "OPEN")
      marketSide := marketText rt data details "market_side" "UNKNOWN"
      marketSideSource := marketText rt data details "market_side_source" ""
      marketSideResolutionStatus :=
        marketText rt data details "market_side_resolution_status" "UNRESOLVED"
      sideMarketRegime := marketText rt data details "side_market_regime" "DATA_WAIT"
      counterpartMarketRegime :=
        marketText rt data details "counterpart_market_regime" "DATA_WAIT"
      compositeMarketMode := marketText rt data details "composite_market_mode" "DATA_DEGRADED"
      systemicRiskOff := marketFlag data details "systemic_risk_off"
      marketContextCalculatedAt := marketText rt data details "market_context_calculated_at" ""
      marketContextFresh := marketFlag data details "market_context_fresh"
      candidateMarketAction := marketText rt data details "candidate_market_action" "DATA_WAIT"
      strategyContextId := marketText rt data details "strategy_context_id" ""
      details }

end Reading

/-! ## The round trip -/

variable {rt : Runtime} {parseFloat : String → Option PyFloat}

@[simp] theorem toFloat_data (x : PyFloat) : toFloat rt parseFloat x.data = x := rfl

@[simp] theorem optionalInt_eq_none (value : Data) : optionalInt value = none := by
  unfold optionalInt
  split <;> rfl

@[simp] theorem ofValue?_value (status : PositionRiskStatus) :
    PositionRiskStatus.ofValue? (if status.value = "" then "OPEN" else status.value) =
      some status := by
  cases status <;> decide

@[simp] theorem items?_or_flags (flags : List String) :
    ((list (flags.map str)).or (.list [])).items? = some (flags.map str) := by
  cases flags <;> rfl

@[simp] theorem map_text_str (flags : List String) :
    flags.map ((·.text rt.repr) ∘ str) = flags := List.map_id _

theorem or_or_text (s default : String) (d : Data) :
    (((Data.str s).or d).or (.str default)).text rt.repr =
      if s = "" then (d.or (.str default)).text rt.repr else s := by
  by_cases hs : s = "" <;> simp [Data.or, Data.str, Data.truthy, Value.truthy, Data.text,
    Value.text, hs]

theorem or_truthy (flag : Bool) (d : Data) :
    ((leaf (.bool flag)).or d).truthy = (flag || d.truthy) := by
  cases flag <;> rfl

theorem truthy_bool (flag : Bool) : (leaf (.bool flag)).truthy = flag := rfl

theorem text_kept_iff {s read : String} : (s = "" → read = s) ↔ (s = "" → read = "") :=
  forall_congr' fun hs => by rw [hs]

namespace PositionRuntimeSnapshot

/-- The texts of the market context with their keys and defaults. -/
def marketTexts (p : PositionRuntimeSnapshot) : List (String × String × String) :=
  [("market_side", p.marketSide, "UNKNOWN"), ("market_side_source", p.marketSideSource, ""),
   ("market_side_resolution_status", p.marketSideResolutionStatus, "UNRESOLVED"),
   ("side_market_regime", p.sideMarketRegime, "DATA_WAIT"),
   ("counterpart_market_regime", p.counterpartMarketRegime, "DATA_WAIT"),
   ("composite_market_mode", p.compositeMarketMode, "DATA_DEGRADED"),
   ("market_context_calculated_at", p.marketContextCalculatedAt, ""),
   ("candidate_market_action", p.candidateMarketAction, "DATA_WAIT"),
   ("strategy_context_id", p.strategyContextId, "")]

/-- Nothing in the snapshot is lost: it has no candidate, JSON details and a source, and where the
market context is empty or false, the details and the defaults say the same. -/
structure Survives (rt : Runtime) (p : PositionRuntimeSnapshot) : Prop where
  detached : p.candidateId = none
  json : p.details.Plain
  sourced : p.sourceType ≠ ""
  texts : ∀ e ∈ p.marketTexts, e.2.1 = "" → ((p.details.item e.1).or (.str e.2.2)).text rt.repr = ""
  flags : ∀ e ∈ [("systemic_risk_off", p.systemicRiskOff),
    ("market_context_fresh", p.marketContextFresh)], (p.details.item e.1).truthy = true → e.2 = true

/-- For every snapshot: it comes back from its dictionary as it was, iff nothing in it is lost. -/
theorem position_snapshot_round_trip (rt : Runtime) (parseFloat : String → Option PyFloat)
    (p : PositionRuntimeSnapshot) :
    positionSnapshotFrom rt parseFloat p.toDict = some p ↔ p.Survives rt := by
  have hsurvives : p.Survives rt ↔ p.candidateId = none ∧ p.details.plain = p.details ∧
      p.sourceType ≠ "" ∧
      (∀ e ∈ p.marketTexts, e.2.1 = "" → ((p.details.item e.1).or (.str e.2.2)).text rt.repr = "") ∧
      ∀ e ∈ [("systemic_risk_off", p.systemicRiskOff),
        ("market_context_fresh", p.marketContextFresh)],
          (p.details.item e.1).truthy = true → e.2 = true := by
    rw [Fields.plain_eq_self_iff]
    exact ⟨fun h => ⟨h.1, h.2, h.3, h.4, h.5⟩, fun ⟨h1, h2, h3, h4, h5⟩ => ⟨h1, h2, h3, h4, h5⟩⟩
  rw [hsurvives]
  cases p with
  | mk =>
    rename_i details
    by_cases hplain : details.plain = details
    · simp [positionSnapshotFrom, toDict, marketTexts, textOr, intOr, fieldsOr, Fields.item,
        marketText, marketFlag, or_or_text, or_truthy, truthy_bool, text_kept_iff, hplain,
        @eq_comm _ none]
      tauto
    · simp [positionSnapshotFrom, toDict, textOr, intOr, fieldsOr, Fields.item, hplain]

/-- A snapshot with a candidate comes back without it. -/
theorem candidate_detached : ¬ ∀ (rt : Runtime) (parseFloat : String → Option PyFloat)
    (p : PositionRuntimeSnapshot), p.details.Plain →
      positionSnapshotFrom rt parseFloat p.toDict = some p := by
  intro h
  have hback := h ⟨fun _ => "", id, ""⟩ (fun _ => none)
    { tradeDate := "2026-01-05", calculatedAt := "2026-01-05T09:10:00", positionId := "1"
      candidateId := some 7, code := "005930" } (fun e he => absurd he List.not_mem_nil)
  have hcandidate := congrArg (Option.map (·.candidateId)) hback
  revert hcandidate
  decide +kernel

end PositionRuntimeSnapshot

end TradingCore.PositionRisk
