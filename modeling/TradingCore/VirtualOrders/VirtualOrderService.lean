import Mathlib.Data.List.Sort
import TradingCore.VirtualOrders.VirtualOrder

/-!
# The virtual order service

The service keeps the orders it submitted; the database has those that were saved, and the plans
they belong to. A caller that saves an order goes on with its row, as the strategy runtime does,
and the order that the service keeps is never touched again. A caller that does not works on the
kept order in place. The table of submitted keys, which nothing reads, and the details of orders
are left out.
-/

namespace TradingCore.VirtualOrders

open Base Candles Prices

namespace SplitLeg

/-- `int(leg.get("leg") or 0)`. -/
def index (leg : SplitLeg) : Int := leg.leg.getD 0

/-- `float(leg.get("weight_pct") or 0.0)`. -/
def weight (leg : SplitLeg) : Rat := leg.weightPct.getD 0

end SplitLeg

/-- `int(order.leg_index or 1)`. -/
def VirtualOrder.leg (order : VirtualOrder) : Int :=
  if order.legIndex = 0 then 1 else order.legIndex

/-- An order that the service keeps, and the row it was saved to. -/
structure KeptOrder where
  order : VirtualOrder
  row : Option Nat

/-- The orders of the service and of its database. A row is known by its place. -/
structure VirtualOrderService where
  submittedOrders : List KeptOrder
  rows : List VirtualOrder
  entryPlans : List EntryPlan

namespace VirtualOrderService

/-! ## Finding the orders of a plan -/

def listVirtualOrders (s : VirtualOrderService) (candidateId : Int) : List VirtualOrder :=
  s.rows.filter (·.candidateId = some candidateId)

/-- Does the filter of a plan let an order pass? -/
def OfPlan (plan : EntryPlan) (order : VirtualOrder) : Prop :=
  order.candidateId = plan.candidateId ∧ (plan.id = none ∨ order.entryPlanId = plan.id)
deriving Decidable

/-- `_plan_orders`: the orders of the database, then those kept that are not among them. -/
def planOrders (s : VirtualOrderService) (plan : EntryPlan) : List VirtualOrder :=
  let stored := match plan.candidateId with
    | none => []
    | some candidateId =>
        (s.listVirtualOrders candidateId).filter fun order =>
          plan.id = none ∨ order.entryPlanId = plan.id
  (s.submittedOrders.map (·.order)).foldl (fun orders order =>
    if OfPlan plan order ∧ order ∉ orders then orders ++ [order] else orders) stored

/-- `find_active_virtual_order`: the newest submitted order of a candidate whose plan has the theme
and the entry type. -/
def findActiveVirtualOrder (s : VirtualOrderService) (candidateId : Int)
    (themeId entryType : String) : Option VirtualOrder :=
  s.rows.reverse.find? fun order =>
    order.candidateId = some candidateId ∧ order.status = .submitted ∧
      ∃ plan ∈ s.entryPlans, plan.id ≠ none ∧ plan.id = order.entryPlanId ∧
        plan.cancelCondition.themeId = some themeId ∧ plan.entryType = entryType

def findSubmittedOrder (s : VirtualOrderService) (plan : EntryPlan) : Option VirtualOrder :=
  match (s.planOrders plan).find? (·.status = .submitted) with
  | some order => some order
  | none =>
      match plan.candidateId with
      | none => none
      | some candidateId =>
          s.findActiveVirtualOrder candidateId (plan.cancelCondition.themeId.getD "") plan.entryType

/-- May a leg be submitted after these orders of its plan? -/
def Submittable (orders : List VirtualOrder) (leg : SplitLeg) : Prop :=
  0 < leg.index ∧ leg.index ∉ orders.map (·.leg) ∧ leg.submittable.getD true = true ∧
    0 < leg.limitPrice.getD 0 ∧
    (leg.requiresPreviousLeg.getD false = true →
      leg.index - 1 ∈ (orders.filter (·.status = .filled)).map (·.leg))
deriving Decidable

/-- `_next_submittable_leg`: the first one in the order of the legs' numbers. -/
def nextSubmittableLeg (s : VirtualOrderService) (plan : EntryPlan) : Option SplitLeg :=
  let orders := s.planOrders plan
  if orders.any (·.status = .submitted) then none
  else (plan.splitPlan.insertionSort (·.index ≤ ·.index)).find? (Submittable orders ·)

/-! ## Submitting an order -/

structure SubmissionResult where
  order : Option VirtualOrder
  submitted : Bool
  duplicate : Bool
  rejectedReason : String

def SubmissionResult.rejected (reason : String) : SubmissionResult :=
  { order := none, submitted := false, duplicate := false, rejectedReason := reason }

def orderOfLeg (plan : EntryPlan) (leg : SplitLeg) (now : Int) : VirtualOrder where
  id := none
  candidateId := plan.candidateId
  entryPlanId := plan.id
  legIndex := if leg.leg.getD 0 = 0 then 1 else leg.leg.getD 0
  weightPct := leg.weight
  status := .submitted
  limitPrice := if leg.limitPrice.getD 0 = 0 then plan.limitPrice else leg.limitPrice.getD 0
  virtualFillPrice := 0
  fillPolicy := plan.fillPolicy
  submittedAt := some now
  filledAt := none
  cancelledAt := none
  unfilledReason := ""

def submitVirtualOrder (s : VirtualOrderService) (plan : EntryPlan) (now : Int) :
    VirtualOrderService × SubmissionResult :=
  if plan.cancelCondition.submittable.getD true = false then
    (s, .rejected (if plan.cancelCondition.reason = "" then "not_submittable"
      else plan.cancelCondition.reason))
  else
    match s.findSubmittedOrder plan with
    | some existing =>
        (s, { order := some existing, submitted := false, duplicate := true
              rejectedReason := "duplicate_submitted" })
    | none =>
        match s.nextSubmittableLeg plan with
        | none => (s, .rejected "no_submittable_leg")
        | some leg =>
            let order := orderOfLeg plan leg now
            ({ s with submittedOrders := s.submittedOrders ++ [⟨order, none⟩] },
              { order := some order, submitted := true, duplicate := false, rejectedReason := "" })

/-- `save_virtual_order` of the newest kept order: it gets a row of its own. -/
def saveNewest (s : VirtualOrderService) : VirtualOrderService :=
  match s.submittedOrders.getLast? with
  | none => s
  | some newest =>
      { s with
        submittedOrders := s.submittedOrders.dropLast ++ [⟨newest.order, some s.rows.length⟩]
        rows := s.rows ++ [{ newest.order with id := some (s.rows.length + 1) }] }

end VirtualOrderService

/-! ## Calls -/

/-- The order that a caller works on: a kept one that was not saved, or a row. -/
inductive Place
  | kept (i : Nat)
  | row (i : Nat)

/-- A call of the service. The caller of a submission saves the order, or does not; the order of an
evaluation or a cancellation is saved again where it has a row. -/
inductive ServiceCall
  | submit (plan : EntryPlan) (now : Int) (save : Bool)
  | evaluate (place : Place) (plan : EntryPlan) (candleBuilder : CandleBuilder) (now : Int)
  | cancel (place : Place) (reason : String) (now : Int)

/-- What a call returns. -/
inductive ServiceAnswer
  | submission (result : VirtualOrderService.SubmissionResult)
  | evaluation (result : Option EvaluationResult)

namespace VirtualOrderService

def workOn (s : VirtualOrderService) (place : Place) (work : VirtualOrder → EvaluationResult) :
    VirtualOrderService × ServiceAnswer :=
  match place with
  | .kept i =>
      match s.submittedOrders[i]? with
      | some ⟨order, none⟩ =>
          ({ s with submittedOrders := s.submittedOrders.set i ⟨(work order).order, none⟩ },
            .evaluation (work order))
      | _ => (s, .evaluation none)
  | .row i =>
      match s.rows[i]? with
      | some order =>
          ({ s with rows := s.rows.set i (work order).order }, .evaluation (work order))
      | none => (s, .evaluation none)

end VirtualOrderService

def virtualOrderService (provider : TickSizeProvider) :
    Machine VirtualOrderService ServiceCall ServiceAnswer where
  step s call :=
    match call with
    | .submit plan now save =>
        let (after, result) := s.submitVirtualOrder plan now
        (if result.submitted ∧ save then after.saveNewest else after, .submission result)
    | .evaluate place plan candleBuilder now =>
        s.workOn place fun order => evaluateFill provider order plan candleBuilder now
    | .cancel place reason now => s.workOn place fun order => cancelVirtualOrder order reason now

end TradingCore.VirtualOrders
