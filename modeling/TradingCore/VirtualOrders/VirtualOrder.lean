import TradingCore.Candles.CandleBuilder
import TradingCore.Prices.TickSizes

/-!
# Virtual orders

An entry plan is split into legs. The service submits a virtual order for one leg at a time, fills
it when a completed candle reaches its price, and gives it up at its timeout. The orders of a plan
are those the service holds and those of the database. Instants are in seconds; the diagnostics of
the second fill model, which decide nothing unless they are applied, are left out.
-/

namespace TradingCore.VirtualOrders

open Base Candidates Candles Prices

inductive VirtualOrderStatus
  | planned | submitted | filled | unfilled | cancelled
deriving DecidableEq

inductive FillPolicy
  | optimistic | normal | conservative
deriving DecidableEq

/-- A leg of a `split_plan`, by the keys it has. -/
structure SplitLeg where
  leg : Option Int
  limitPrice : Option Int
  weightPct : Option Rat
  submittable : Option Bool
  requiresPreviousLeg : Option Bool
deriving DecidableEq

/-- The `cancel_condition` of a plan. -/
structure CancelCondition where
  code : String
  themeId : Option String
  submittable : Option Bool
  reason : String

structure EntryPlan where
  id : Option Int
  candidateId : Option Int
  entryType : String
  limitPrice : Int
  splitPlan : List SplitLeg
  orderTimeoutSec : Int
  cancelCondition : CancelCondition
  fillPolicy : FillPolicy

structure VirtualOrder where
  id : Option Int
  candidateId : Option Int
  entryPlanId : Option Int
  legIndex : Int
  weightPct : Rat
  status : VirtualOrderStatus
  limitPrice : Int
  virtualFillPrice : Int
  fillPolicy : FillPolicy
  submittedAt : Option Int
  filledAt : Option Int
  cancelledAt : Option Int
  unfilledReason : String
deriving DecidableEq

def finalStatuses : List VirtualOrderStatus := [.filled, .unfilled, .cancelled]

/-! ## Evaluating and cancelling an order -/

/-- `datetime.min`, which stands for an order without a time. -/
def datetimeMin : Int := -62135596800

/-- `_parse_time` of an order's time. -/
def parseTime (value : Option Int) : Int := value.getD datetimeMin

def timeoutAt (order : VirtualOrder) (plan : EntryPlan) : Int :=
  parseTime order.submittedAt + max 0 plan.orderTimeoutSec

def fillThreshold (provider : TickSizeProvider) (order : VirtualOrder) (plan : EntryPlan) : Int :=
  match plan.fillPolicy with
  | .optimistic => order.limitPrice
  | .conservative => provider.subtractTicks order.limitPrice 2
  | .normal => provider.subtractTicks order.limitPrice 1

/-- Does a candle fill the order? It starts within the order's time and reaches its threshold. -/
def Touches (provider : TickSizeProvider) (order : VirtualOrder) (plan : EntryPlan)
    (candle : Candle) : Prop :=
  parseTime order.submittedAt ≤ candle.startAt ∧ candle.startAt ≤ timeoutAt order plan ∧
    candle.low ≤ fillThreshold provider order plan
deriving Decidable

/-- The result of evaluating or cancelling an order. -/
structure EvaluationResult where
  order : VirtualOrder
  changed : Bool
  filled : Bool
  timedOut : Bool
  cancelled : Bool

def EvaluationResult.unchanged (order : VirtualOrder) : EvaluationResult :=
  { order, changed := false, filled := false, timedOut := false, cancelled := false }

/-- `evaluate_fill`, with `v2_apply` off. -/
def evaluateFill (provider : TickSizeProvider) (order : VirtualOrder) (plan : EntryPlan)
    (candleBuilder : CandleBuilder) (now : Int) : EvaluationResult :=
  if order.status ∈ finalStatuses then .unchanged order
  else if order.status ≠ .submitted then .unchanged order
  else
    let completed := candleBuilder.completedOf (normalizeCode plan.cancelCondition.code) 1
    match completed.find? (Touches provider order plan ·) with
    | some candle =>
        { order :=
            { order with
              status := .filled
              virtualFillPrice := order.limitPrice
              filledAt := some candle.startAt }
          changed := true, filled := true, timedOut := false, cancelled := false }
    | none =>
        if timeoutAt order plan ≤ now then
          { order := { order with status := .unfilled, unfilledReason := "TIMEOUT" }
            changed := true, filled := false, timedOut := true, cancelled := false }
        else .unchanged order

def cancelVirtualOrder (order : VirtualOrder) (reason : String) (now : Int) : EvaluationResult :=
  if order.status ∈ finalStatuses then .unchanged order
  else if order.status ≠ .submitted then .unchanged order
  else
    { order :=
        { order with status := .cancelled, cancelledAt := some now, unfilledReason := reason }
      changed := true, filled := false, timedOut := false, cancelled := true }

end TradingCore.VirtualOrders
