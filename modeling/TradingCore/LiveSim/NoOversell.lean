import TradingCore.LiveSim.LedgerLemmas
import TradingCore.LiveSim.OrderEnqueue

/-!
# Pending sales and what a position holds

A request to sell is measured against what its position holds, and not against what the
pending sales of the position will take from it. Another exit is only noticed when it has the
same key or, by the exit monitor, when it names the position and no cancellation of it is
under way.

`never_oversells_of_fit`: in every history in which each new sale fits into what the position
holds beside its pending sales, and each message about a sale finds it pending or still
fitting, no position is ever oversold.
-/

namespace TradingCore.LiveSim

open Base LiveSimOrderStatus List Text
open Orders (orText orInt)

/-- The statuses in which an order can still fill at the broker. -/
def LiveSimOrderStatus.canStillFill (status : LiveSimOrderStatus) : Bool :=
  status ∈ [submitted, accepted, partialFilled, cancelRequested, unknownSubmit]

namespace LiveSimOrder

variable (order : LiveSimOrder)

def isSale : Bool := lower order.side = "sell"

def ownPosition : String :=
  positionIdFor order.accountIdMasked order.code order.candidateInstanceId

end LiveSimOrder

namespace Ledger

variable (l : Ledger)

def unfilled (id : String) (order : LiveSimOrder) : Int :=
  max 0 (order.submittedQty - l.previousCumulativeFillQty id "")

def pendingOf (p : String) (id : String) (order : LiveSimOrder) : Int :=
  if order.isSale ∧ order.ownPosition = p ∧ order.orderStatus.canStillFill then
    l.unfilled id order
  else 0

def pendingSales (p : String) : Int := l.orders.totalBy (l.pendingOf p)

def NeverOversells : Prop := ∀ p, l.pendingSales p ≤ l.held p

/-! ## When a step fits -/

def RoomFor (p : String) (qty : Int) : Prop := l.pendingSales p + qty ≤ l.held p
deriving Decidable

/-- A new sale that can fill finds room in its position. -/
def SaleFits (order : LiveSimOrder) : Prop :=
  order.orderStatus.canStillFill = true → l.RoomFor order.ownPosition order.submittedQty
deriving Decidable

/-- A sale is pending, or what it has not filled finds room in its position. -/
def StillFits (id : String) (order : LiveSimOrder) : Prop :=
  order.orderStatus.canStillFill = true ∨ l.RoomFor order.ownPosition (l.unfilled id order)
deriving Decidable

/-- A sale that is booked on a position finds room there. -/
def BookingFits (event : ExecutionEvent) : Prop :=
  ∀ p ∈ (l.report event).positionId,
    lower (l.report event).fill.side = "sell" → l.RoomFor p (l.report event).fill.fillQty
deriving Decidable

/-- A new execution of a sale finds it pending or still fitting, and reports no more than was
submitted; what another execution books as a sale finds room. -/
def ExecutionFits (event : ExecutionEvent) : Prop :=
  (l.report event).inserted = true →
    (∀ found ∈ l.executionOrder event, found.2.isSale = true →
      found.1 ≠ "" ∧ found.2.code ≠ "" ∧ event.cumulativeFillQty ≤ found.2.submittedQty ∧
        l.StillFits found.1 found.2) ∧
    ((∀ found ∈ l.executionOrder event, ¬ found.2.isSale = true) → l.BookingFits event)
deriving Decidable

/-- The step fits: a new sale finds room, and a message about a sale finds it pending or still
fitting. -/
def SalesFit (l : Ledger) : ServiceAction → Prop
  | .enqueue _ request answers => l.SaleFits (l.enqueuedOrder request answers)
  | .exitMonitor positionId trigger =>
      ∀ position ∈ l.positions.get? positionId, position.status ∈ [.opened, .partlyOpen] →
        l.hasActiveExitOrder positionId position.code = false →
        l.SaleFits (l.enqueuedOrder (position.exitRequest positionId trigger) trigger.answers)
  | .orderResult result =>
      result.ok = true → ∀ found ∈ l.resultOrder result, found.2.isSale = true →
        l.StillFits found.1 found.2
  | .execution event => l.ExecutionFits event
  | .purchase _ _ => True
  | .lifecycle _ _ => True

instance (l : Ledger) : ∀ action, Decidable (SalesFit l action)
  | .enqueue _ request answers =>
      inferInstanceAs (Decidable (l.SaleFits (l.enqueuedOrder request answers)))
  | .exitMonitor positionId _ =>
      inferInstanceAs (Decidable (∀ position ∈ l.positions.get? positionId, _ → _ → _))
  | .orderResult result =>
      inferInstanceAs (Decidable (result.ok = true → ∀ found ∈ l.resultOrder result, _ → _))
  | .execution event => inferInstanceAs (Decidable (l.ExecutionFits event))
  | .purchase _ _ => .isTrue trivial
  | .lifecycle _ _ => .isTrue trivial

/-! ## Shares -/

variable {l} {p : String}

theorem unfilled_nonneg (id : String) (order : LiveSimOrder) : 0 ≤ l.unfilled id order :=
  Int.le_max_left _ _

theorem unfilled_le (id : String) (order : LiveSimOrder) :
    l.unfilled id order ≤ max 0 order.submittedQty := by
  have hprevious : 0 ≤ l.previousCumulativeFillQty id "" := HighWater.top_nonneg _
  unfold unfilled
  omega

theorem pendingOf_nonneg (id : String) (order : LiveSimOrder) : 0 ≤ l.pendingOf p id order := by
  have hunfilled : 0 ≤ l.unfilled id order := unfilled_nonneg id order
  unfold pendingOf
  split
  · exact hunfilled
  · exact Int.le_refl 0

theorem pendingOf_le (id : String) (order : LiveSimOrder) :
    l.pendingOf p id order ≤ l.unfilled id order := by
  have hunfilled : 0 ≤ l.unfilled id order := unfilled_nonneg id order
  unfold pendingOf
  split
  · exact Int.le_refl _
  · exact hunfilled

variable {id positionId : String} {order : LiveSimOrder} {event : ExecutionEvent}

theorem pendingOf_eq_zero
    (h : ¬ (order.isSale = true ∧ order.ownPosition = p ∧ order.orderStatus.canStillFill = true)) :
    l.pendingOf p id order = 0 :=
  if_neg h

variable {l' : Ledger}

theorem pendingSales_set {order' : LiveSimOrder} (horders : l'.orders = l.orders.set id order')
    (hothers : ∀ j, j ≠ id → ∀ order, l'.unfilled j order = l.unfilled j order) :
    l'.pendingSales p = l.pendingSales p -
      ((l.orders.get? id).map (l.pendingOf p id)).getD 0 + l'.pendingOf p id order' := by
  unfold pendingSales
  rw [horders]
  apply Dict.totalBy_set
  intro j hj order
  unfold pendingOf
  rw [hothers j hj order]

theorem unfilled_congr (h : l'.fills = l.fills) (id : String) (order : LiveSimOrder) :
    l'.unfilled id order = l.unfilled id order := by
  unfold unfilled previousCumulativeFillQty
  rw [h]

theorem pendingOf_congr (h : l'.fills = l.fills) (id : String) (order : LiveSimOrder) :
    l'.pendingOf p id order = l.pendingOf p id order := by
  unfold pendingOf
  rw [unfilled_congr h]

/-! ## Steps that write one order -/

theorem pendingBefore_nonneg (id : String) :
    0 ≤ ((l.orders.get? id).map (l.pendingOf p id)).getD 0 := by
  cases l.orders.get? id with
  | none => exact Int.le_refl 0
  | some order => exact pendingOf_nonneg id order

theorem neverOversells_order (h : l.NeverOversells) {order' : LiveSimOrder}
    (hnew : ∀ p, l.pendingOf p id order' ≤ ((l.orders.get? id).map (l.pendingOf p id)).getD 0 ∨
      l.RoomFor p (l.pendingOf p id order')) : (l.commit (.order id order')).NeverOversells := by
  intro p
  have hset : (l.commit (.order id order')).pendingSales p = l.pendingSales p -
      ((l.orders.get? id).map (l.pendingOf p id)).getD 0 +
        (l.commit (.order id order')).pendingOf p id order' :=
    pendingSales_set rfl fun j _ order => unfilled_congr rfl j order
  have hbefore : 0 ≤ ((l.orders.get? id).map (l.pendingOf p id)).getD 0 := pendingBefore_nonneg id
  have hshare : (l.commit (.order id order')).pendingOf p id order' = l.pendingOf p id order' :=
    pendingOf_congr rfl id order'
  have hp := h p
  show (l.commit (.order id order')).pendingSales p ≤ l.held p
  rcases hnew p with hless | hroom
  · omega
  · unfold RoomFor at hroom
    omega

theorem neverOversells_enqueue (h : l.NeverOversells) (hfits : l.SaleFits order) (id : String) :
    (l.commit (.order id order)).NeverOversells := by
  apply neverOversells_order h
  intro p
  right
  have hp := h p
  by_cases hshare : order.isSale = true ∧ order.ownPosition = p ∧
      order.orderStatus.canStillFill = true
  · obtain ⟨-, hown, hfill⟩ := hshare
    have hroom := hfits hfill
    have hle : l.pendingOf p id order ≤ max 0 order.submittedQty :=
      Int.le_trans (pendingOf_le id order) (unfilled_le id order)
    rw [hown] at hroom
    unfold RoomFor at hroom ⊢
    omega
  · rw [pendingOf_eq_zero hshare]
    unfold RoomFor
    omega

theorem held_exitOrdered {position : LiveSimPosition}
    (hget : l.positions.get? positionId = some position) (status : LiveSimPositionStatus)
    (p : String) :
    (l.commit (.position positionId { position with status })).held p = l.held p := by
  show (((l.positions.set positionId { position with status }).get? p).map
    (·.currentQty)).getD 0 = l.held p
  rw [held_set]
  split
  · rename_i hp
    unfold held
    rw [hp, hget]
    rfl
  · rfl

section

variable (h : l.NeverOversells)
include h

theorem neverOversells_position {position : LiveSimPosition}
    (hget : l.positions.get? positionId = some position) (status : LiveSimPositionStatus) :
    (l.commit (.position positionId { position with status })).NeverOversells := by
  intro p
  rw [held_exitOrdered hget]
  exact h p

theorem neverOversells_exitMonitor {trigger : ExitTrigger}
    (hfits : l.SalesFit (.exitMonitor positionId trigger)) :
    (l.exitMonitorStep positionId trigger).NeverOversells := by
  unfold exitMonitorStep
  cases hget : l.positions.get? positionId with
  | none => exact h
  | some position =>
    simp only
    by_cases hstatus : position.status ∈ [LiveSimPositionStatus.opened, .partlyOpen]
    · rw [if_neg (not_not.mpr hstatus)]
      cases hactive : l.hasActiveExitOrder positionId position.code with
      | true => exact h
      | false =>
        have hsale := neverOversells_enqueue h (hfits position hget hstatus hactive)
          trigger.orderIntentId
        rw [if_neg Bool.false_ne_true]
        split
        · exact neverOversells_position hsale hget _
        · exact hsale
    · rw [if_pos hstatus]
      exact h

theorem neverOversells_lifecycle (id : String) (answers : CancelAnswers) :
    (l.lifecycleStep id answers).NeverOversells := by
  unfold lifecycleStep
  cases hget : l.orders.get? id with
  | none => exact h
  | some order =>
    simp only
    by_cases hstatus : order.orderStatus ∈ [submitted, accepted, partialFilled]
    · rw [if_neg (not_not.mpr hstatus)]
      cases hcancel : order.cancelStatus answers with
      | none => exact h
      | some status =>
        show (l.commit (.order id { order with orderStatus := status })).NeverOversells
        apply neverOversells_order h
        intro p
        left
        rw [hget, Option.map_some, Option.getD_some]
        have hbefore : order.orderStatus.canStillFill = true := by
          unfold LiveSimOrderStatus.canStillFill
          simp only [mem_cons, not_mem_nil, or_false] at hstatus
          rcases hstatus with heq | heq | heq <;> rw [heq] <;> rfl
        -- the order was pending before, whatever it is now
        by_cases hshare : order.isSale = true ∧ order.ownPosition = p
        · have hold : l.pendingOf p id order = l.unfilled id order :=
            if_pos ⟨hshare.1, hshare.2, hbefore⟩
          rw [hold]
          exact pendingOf_le id { order with orderStatus := status }
        · have hzero : l.pendingOf p id { order with orderStatus := status } = 0 :=
            pendingOf_eq_zero fun hnew => hshare ⟨hnew.1, hnew.2.1⟩
          rw [hzero]
          exact pendingOf_nonneg id order
    · rw [if_pos hstatus]
      exact h

theorem neverOversells_orderResult {result : BrokerOrderResult}
    (hfits : l.SalesFit (.orderResult result)) : (l.act (.orderResult result)).NeverOversells := by
  rw [act_orderResult]
  cases horder : l.resultOrder result with
  | none => exact h
  | some found =>
    obtain ⟨id, order⟩ := found
    show (l.commit (.order id (order.afterResult result))).NeverOversells
    apply neverOversells_order h
    intro p
    rw [get?_of_resultOrder horder, Option.map_some, Option.getD_some]
    by_cases hshare : (order.afterResult result).isSale = true ∧
        (order.afterResult result).ownPosition = p ∧
          (order.afterResult result).orderStatus.canStillFill = true
    · obtain ⟨hsale, hown, hfill⟩ := hshare
      have hok : result.ok = true := by
        by_contra hfailed
        have hrejected : (order.afterResult result).orderStatus = rejected := by
          show order.statusAfterResult result = rejected
          exact if_neg hfailed
        rw [hrejected] at hfill
        cases hfill
      have hle : l.pendingOf p id (order.afterResult result) ≤ l.unfilled id order :=
        pendingOf_le id (order.afterResult result)
      have hstill : l.StillFits id order := hfits hok (id, order) horder hsale
      rcases hstill with hbefore | hroom
      · left
        have hold : l.pendingOf p id order = l.unfilled id order :=
          if_pos ⟨hsale, hown, hbefore⟩
        rw [hold]
        exact hle
      · right
        have hown' : order.ownPosition = p := hown
        rw [hown'] at hroom
        unfold RoomFor at hroom ⊢
        omega
    · left
      rw [pendingOf_eq_zero hshare]
      exact pendingOf_nonneg id order

end

/-! ## Executions -/

theorem heldAfter_ge {side : String} {fillQty : Int} (hqty : 0 ≤ fillQty) (held : Int) :
    held - fillQty ≤ heldAfter side fillQty held := by
  unfold heldAfter
  split_ifs <;> omega

theorem heldAfter_ge_of_not_sale {side : String} {fillQty : Int} (hqty : 0 ≤ fillQty)
    (hside : side ≠ "sell") (held : Int) : held ≤ heldAfter side fillQty held := by
  unfold heldAfter
  rw [if_neg hside]
  split_ifs <;> omega

theorem previous_act_execution (event : ExecutionEvent) (id : String) :
    (l.act (.execution event)).previousCumulativeFillQty id "" =
      if (l.report event).inserted = true ∧ (l.report event).fill.bears id "" = true then
        max (l.previousCumulativeFillQty id "") (l.report event).fill.cumulativeFillQty
      else l.previousCumulativeFillQty id "" := by
  unfold previousCumulativeFillQty
  rw [l.filter_fills_act_execution (fun row => row.bears id "")]
  split
  · rw [map_append, map_singleton, HighWater.top_append_singleton]
  · rfl

theorem previous_le (id brokerOrderId : String) :
    l.previousCumulativeFillQty id "" ≤ l.previousCumulativeFillQty id brokerOrderId := by
  apply HighWater.top_le_top
  intro mark hmark
  obtain ⟨row, hrow, rfl⟩ := mem_map.mp hmark
  obtain ⟨hmem, hbears⟩ := mem_filter.mp hrow
  refine mem_map.mpr ⟨row, mem_filter.mpr ⟨hmem, ?_⟩, rfl⟩
  rcases of_decide_eq_true hbears with hid | ⟨hempty, -⟩
  · exact decide_eq_true (Or.inl hid)
  · exact absurd rfl hempty

theorem bears_report_none (hnone : l.executionOrder event = none) (id : String) :
    ¬ (l.report event).fill.bears id "" = true := by
  intro hbears
  have hintent : (l.report event).fill.orderIntentId = "" := by
    rw [l.fill_report_manual hnone]
    rfl
  rcases of_decide_eq_true hbears with ⟨hid, heq⟩ | ⟨hempty, -⟩
  · exact hid (heq.symm.trans hintent)
  · exact absurd rfl hempty

theorem bears_report_some (horder : l.executionOrder event = some (id, order)) (j : String) :
    (l.report event).fill.bears j "" = true ↔ j ≠ "" ∧ id = j := by
  have hintent : (l.report event).fill.orderIntentId = id := by
    rw [l.fill_report_order horder]
    rfl
  unfold LiveSimFill.bears
  rw [decide_eq_true_iff, hintent]
  constructor
  · rintro (h | ⟨hempty, -⟩)
    · exact h
    · exact absurd rfl hempty
  · exact Or.inl

theorem held_of_bookingFits (h : l.NeverOversells) (hfits : l.BookingFits event) (p : String) :
    l.pendingSales p ≤ (l.act (.execution event)).held p := by
  have hp := h p
  have hqty : 0 ≤ (l.report event).fill.fillQty := l.fillQty_report_nonneg event
  rw [held_act_execution]
  split
  · rename_i hbooked
    by_cases hside : lower (l.report event).fill.side = "sell"
    · have hroom := hfits p hbooked.2 hside
      have hle : l.held p - (l.report event).fill.fillQty ≤ heldAfter
          (lower (l.report event).fill.side) (l.report event).fill.fillQty (l.held p) :=
        heldAfter_ge hqty (l.held p)
      unfold RoomFor at hroom
      omega
    · have hle := heldAfter_ge_of_not_sale hqty hside (l.held p)
      omega
  · exact hp

theorem neverOversells_manual (h : l.NeverOversells) (hnone : l.executionOrder event = none)
    (hfits : l.BookingFits event) : (l.act (.execution event)).NeverOversells := by
  intro p
  have hunfilled : ∀ id order, (l.act (.execution event)).unfilled id order =
      l.unfilled id order := by
    intro id order
    unfold unfilled
    rw [previous_act_execution, if_neg fun hboth => bears_report_none hnone id hboth.2]
  have hsame : (l.act (.execution event)).pendingSales p = l.pendingSales p := by
    have hshare : (l.act (.execution event)).pendingOf p = l.pendingOf p := by
      funext id order
      unfold pendingOf
      rw [hunfilled]
    unfold pendingSales
    rw [hshare, orders_act_execution, hnone]
  rw [hsame]
  exact held_of_bookingFits h hfits p

theorem pendingSales_act_execution (horder : l.executionOrder event = some (id, order))
    (hnew : (l.report event).inserted = true) (p : String) :
    (l.act (.execution event)).pendingSales p = l.pendingSales p - l.pendingOf p id order +
      (l.act (.execution event)).pendingOf p id (l.orderAfterExecution id order event) := by
  have hset : (l.act (.execution event)).orders =
      l.orders.set id (l.orderAfterExecution id order event) := by
    rw [orders_act_execution, horder]
    exact if_pos hnew
  have hothers : ∀ j, j ≠ id → ∀ order', (l.act (.execution event)).unfilled j order' =
      l.unfilled j order' := by
    intro j hj order'
    unfold unfilled
    rw [previous_act_execution,
      if_neg fun hboth => hj ((bears_report_some horder j).mp hboth.2).2.symm]
  rw [pendingSales_set hset hothers, get?_of_executionOrder horder, Option.map_some,
    Option.getD_some]

theorem neverOversells_purchaseExecution (h : l.NeverOversells)
    (horder : l.executionOrder event = some (id, order)) (hnew : (l.report event).inserted = true)
    (hsale : ¬ order.isSale = true) (hfits : l.BookingFits event) :
    (l.act (.execution event)).NeverOversells := by
  intro p
  have hbefore : l.pendingOf p id order = 0 := pendingOf_eq_zero fun hshare => hsale hshare.1
  have hafter : (l.act (.execution event)).pendingOf p id
      (l.orderAfterExecution id order event) = 0 :=
    pendingOf_eq_zero fun hshare => hsale hshare.1
  have hheld := held_of_bookingFits h hfits p
  rw [pendingSales_act_execution horder hnew, hbefore, hafter]
  omega

theorem unfilled_act_execution_le (horder : l.executionOrder event = some (id, order))
    (hnew : (l.report event).inserted = true) (hid : id ≠ "")
    (hreported : event.cumulativeFillQty ≤ order.submittedQty) :
    (l.act (.execution event)).unfilled id (l.orderAfterExecution id order event) +
      (l.report event).fill.fillQty ≤ l.unfilled id order := by
  have hreport : (l.report event).fill = l.orderFill id order event :=
    l.fill_report_order horder
  -- the new fill is no more than what the report takes off the order
  have hqty : (l.report event).fill.fillQty ≤
      max 0 (event.cumulativeFillQty - l.previousCumulativeFillQty id "") := by
    have hle := l.previous_le id (orText event.orderNo order.brokerOrderId)
    rw [hreport]
    show max 0 (event.cumulativeFillQty -
      l.previousCumulativeFillQty id (orText event.orderNo order.brokerOrderId)) ≤ _
    omega
  have hcum : (l.report event).fill.cumulativeFillQty = event.cumulativeFillQty := by
    rw [hreport]
    rfl
  have hbears := (bears_report_some horder id).mpr ⟨hid, rfl⟩
  unfold unfilled
  rw [previous_act_execution, if_pos ⟨hnew, hbears⟩, hcum]
  show max 0 (order.submittedQty - _) + _ ≤ _
  omega

theorem neverOversells_saleExecution (h : l.NeverOversells)
    (horder : l.executionOrder event = some (id, order)) (hnew : (l.report event).inserted = true)
    (hsale : order.isSale = true) (hid : id ≠ "") (hcode : order.code ≠ "")
    (hreported : event.cumulativeFillQty ≤ order.submittedQty) (hfits : l.StillFits id order) :
    (l.act (.execution event)).NeverOversells := by
  have hposition : ∀ p, (l.report event).positionId = some p → order.ownPosition = p := by
    intro p hp
    unfold report at hp
    simp only [horder] at hp
    split at hp
    · injection hp with hp
      unfold orText at hp
      rw [if_neg hcode] at hp
      exact hp
    · cases hp
  have hnonneg : 0 ≤ (l.report event).fill.fillQty := l.fillQty_report_nonneg event
  have hless := unfilled_act_execution_le horder hnew hid hreported
  intro p
  have hp := h p
  rw [pendingSales_act_execution horder hnew]
  by_cases hown : order.ownPosition = p
  · have hafter : (l.act (.execution event)).pendingOf p id
        (l.orderAfterExecution id order event) ≤
          (l.act (.execution event)).unfilled id (l.orderAfterExecution id order event) :=
      pendingOf_le _ _
    have hheld : l.held p - (l.report event).fill.fillQty ≤
        (l.act (.execution event)).held p := by
      rw [held_act_execution]
      split
      · exact heldAfter_ge hnonneg (l.held p)
      · omega
    by_cases hfill : order.orderStatus.canStillFill = true
    · have hbefore : l.pendingOf p id order = l.unfilled id order := if_pos ⟨hsale, hown, hfill⟩
      omega
    · have hbefore : 0 ≤ l.pendingOf p id order := pendingOf_nonneg id order
      have hroom := hfits.resolve_left hfill
      rw [hown] at hroom
      unfold RoomFor at hroom
      omega
  · have hbefore : l.pendingOf p id order = 0 := pendingOf_eq_zero fun hshare => hown hshare.2.1
    have hafter : (l.act (.execution event)).pendingOf p id
        (l.orderAfterExecution id order event) = 0 :=
      pendingOf_eq_zero fun hshare => hown hshare.2.1
    have hheld : (l.act (.execution event)).held p = l.held p := by
      rw [held_act_execution, if_neg fun hbooked => hown (hposition p hbooked.2)]
    omega

theorem neverOversells_execution (h : l.NeverOversells) (hfits : l.ExecutionFits event) :
    (l.act (.execution event)).NeverOversells := by
  by_cases hnew : (l.report event).inserted = true
  · obtain ⟨hsales, hothers⟩ := hfits hnew
    cases horder : l.executionOrder event with
    | none =>
      apply neverOversells_manual h horder (hothers _)
      intro found hfound
      rw [horder] at hfound
      cases hfound
    | some found =>
      obtain ⟨id, order⟩ := found
      by_cases hsale : order.isSale = true
      · obtain ⟨hid, hcode, hreported, hstill⟩ := hsales (id, order) horder hsale
        exact neverOversells_saleExecution h horder hnew hsale hid hcode hreported hstill
      · apply neverOversells_purchaseExecution h horder hnew hsale (hothers _)
        intro found hfound
        rw [horder] at hfound
        injection hfound with hfound
        rw [← hfound]
        exact hsale
  · -- nothing is written
    have hidle : l.act (.execution event) = l := by
      show (l.executionWrites event).foldl commit l = l
      rw [executionWrites_eq, if_neg hnew]
      rfl
    rw [hidle]
    exact h

/-! ## Whole runs -/

theorem neverOversells_step (h : l.NeverOversells) {action : ServiceAction}
    (hfits : l.SalesFit action) : (l.serve action).NeverOversells := by
  cases action with
  | purchase id order =>
    apply neverOversells_order h
    intro p
    left
    have hbuy : ¬ lower "buy" = "sell" := by decide
    have hzero : l.pendingOf p id { order with side := "buy" } = 0 :=
      pendingOf_eq_zero fun hshare => hbuy (of_decide_eq_true hshare.1)
    rw [hzero]
    exact pendingBefore_nonneg id
  | enqueue id request answers => exact neverOversells_enqueue h hfits id
  | exitMonitor positionId trigger => exact neverOversells_exitMonitor h hfits
  | lifecycle id answers => exact neverOversells_lifecycle h id answers
  | orderResult result => exact neverOversells_orderResult h hfits
  | execution event => exact neverOversells_execution h hfits

/-- Every position is filed under the id of its account, code and candidate. -/
def Filed (positions : Dict String LiveSimPosition) : Prop :=
  ∀ positionId position, positions.get? positionId = some position →
    positionId = positionIdFor position.accountIdMasked position.code position.candidateInstanceId

theorem filed_set {positions : Dict String LiveSimPosition} (h : Filed positions)
    {record : LiveSimPosition}
    (hrecord : positionId = positionIdFor record.accountIdMasked record.code
      record.candidateInstanceId) : Filed (positions.set positionId record) := by
  intro id position hget
  rw [Dict.get?_set] at hget
  by_cases hid : id = positionId
  · rw [if_pos hid] at hget
    injection hget with hget
    rw [hid, ← hget]
    exact hrecord
  · rw [if_neg hid] at hget
    exact h id position hget

section

variable (h : Filed l.positions)
include h

theorem filed_afterFill (accountIdMasked code candidateInstanceId side : String) (fillQty : Int) :
    positionIdFor accountIdMasked code candidateInstanceId =
      positionIdFor
        ((l.positionBefore accountIdMasked code candidateInstanceId).afterFill side
          fillQty).accountIdMasked
        ((l.positionBefore accountIdMasked code candidateInstanceId).afterFill side fillQty).code
        ((l.positionBefore accountIdMasked code candidateInstanceId).afterFill side
          fillQty).candidateInstanceId := by
  have hbefore : positionIdFor accountIdMasked code candidateInstanceId =
      positionIdFor (l.positionBefore accountIdMasked code candidateInstanceId).accountIdMasked
        (l.positionBefore accountIdMasked code candidateInstanceId).code
        (l.positionBefore accountIdMasked code candidateInstanceId).candidateInstanceId := by
    unfold positionBefore
    cases hget : l.positions.get? (positionIdFor accountIdMasked code candidateInstanceId) with
    | none => rfl
    | some position => exact h _ position hget
  generalize l.positionBefore accountIdMasked code candidateInstanceId = before at hbefore ⊢
  rw [hbefore]
  unfold LiveSimPosition.afterFill
  split_ifs <;> rfl

theorem filed_manualPositionWrites (event : ExecutionEvent) (fillQty : Int) :
    Filed ((l.manualPositionWrites event fillQty).foldl
      (fun positions w => w.onPositions positions) l.positions) := by
  unfold manualPositionWrites
  split
  · apply filed_set (filed_set h _)
    · exact filed_afterFill h _ _ _ _ _
    · exact filed_afterFill h _ _ _ _ _
  · split
    · apply filed_set (filed_set h _)
      · exact filed_afterFill h _ _ _ _ _
      · exact filed_afterFill h _ _ _ _ _
    · exact h

theorem filed_act_execution (event : ExecutionEvent) :
    Filed (l.act (.execution event)).positions := by
  rw [positions_act_execution]
  split
  · unfold executionEffects
    split
    · rw [foldl_append]
      split
      · exact filed_manualPositionWrites h event _
      · exact h
    · rw [foldl_append, foldl_append]
      split
      · exact filed_set h (filed_afterFill h _ _ _ _ _)
      · exact h
  · exact h

theorem filed_step (action : ServiceAction) : Filed (l.serve action).positions := by
  cases action with
  | purchase id order => exact h
  | enqueue id request answers => exact h
  | exitMonitor positionId trigger =>
    show Filed (l.exitMonitorStep positionId trigger).positions
    unfold exitMonitorStep
    cases hget : l.positions.get? positionId with
    | none => exact h
    | some position =>
      simp only
      split
      · exact h
      · split
        · exact h
        · split
          · exact filed_set h (h positionId position hget)
          · exact h
  | lifecycle id answers =>
    show Filed (l.lifecycleStep id answers).positions
    unfold lifecycleStep
    cases l.orders.get? id with
    | none => exact h
    | some order =>
      simp only
      split
      · exact h
      · cases order.cancelStatus answers with
        | none => exact h
        | some status => exact h
  | orderResult result =>
    show Filed (l.act (.orderResult result)).positions
    rw [positions_act_orderResult]
    exact h
  | execution event => exact filed_act_execution h event

end

/-! ## Whole calls -/

/-- A call as Core makes it: one step, a pass over the open positions, or one over the orders
under way. -/
inductive ServiceCall
  | step (action : ServiceAction)
  | runLiveSimExitMonitor (triggers : String → Option ExitTrigger)
  | runLiveSimOrderLifecycle (due : String → Option CancelAnswers)

def call (l : Ledger) : ServiceCall → Ledger
  | .step action => l.serve action
  | .runLiveSimExitMonitor triggers => l.runLiveSimExitMonitor triggers
  | .runLiveSimOrderLifecycle due => l.runLiveSimOrderLifecycle due

theorem call_eq_run (l : Ledger) (c : ServiceCall) : ∃ steps, l.call c = service.run l steps := by
  cases c with
  | step action => exact ⟨[action], rfl⟩
  | runLiveSimExitMonitor triggers => exact ⟨_, l.runLiveSimExitMonitor_eq_run triggers⟩
  | runLiveSimOrderLifecycle due =>
    obtain ⟨steps, -, hrun⟩ := l.runLiveSimOrderLifecycle_eq_run due
    exact ⟨steps, hrun⟩

/-- Whatever calls are made in whatever order, they come to a run of single steps, and every
position stays under the id of its account, code and candidate. -/
theorem calls_refine_steps (calls : List ServiceCall) :
    (∃ steps, calls.foldl call {} = service.run {} steps) ∧
      Filed (calls.foldl call {}).positions := by
  have hrun : ∀ l : Ledger, ∃ steps, calls.foldl call l = service.run l steps := by
    induction calls with
    | nil => exact fun l => ⟨[], rfl⟩
    | cons c rest ih =>
      intro l
      obtain ⟨first, hfirst⟩ := l.call_eq_run c
      obtain ⟨later, hlater⟩ := ih (l.call c)
      refine ⟨first ++ later, ?_⟩
      rw [Machine.run_append, ← hfirst]
      exact hlater
  obtain ⟨steps, hsteps⟩ := hrun {}
  refine ⟨⟨steps, hsteps⟩, ?_⟩
  rw [hsteps]
  have hstep : ∀ l action, Filed l.positions → Filed (service.next l action).positions :=
    fun l action h => filed_step h action
  exact Machine.run_preserves hstep (fun p position hget => by cases hget) steps

/-! ## Fixed runs -/

def tenShares : LiveSimOrder where
  code := "005930"
  accountIdMasked := "12******90"
  side := "buy"
  requestedQty := 10
  submittedQty := 10
  submittedPrice := 100
  brokerOrderId := "7"
  orderStatus := .accepted

def tenSharesFill (orderNo side : String) (filled : Int) : ExecutionEvent where
  code := "005930"
  orderNo := orderNo
  side := side
  quantity := 10
  price := 100
  filledQuantity := filled
  remainingQuantity := 10 - filled

def tenSharesExit (exitDecisionType : String) : SellRequest where
  account := "1234567890"
  code := "005930"
  quantity := 10
  price := 100
  exitDecisionType := exitDecisionType

/-- The shares are bought and sold once: the sale is accepted, fills in part, its rest is to be
cancelled, and fills after all. -/
def soldOnce : List ServiceAction :=
  [.purchase "O1" tenShares,
   .execution (tenSharesFill "7" "buy" 10),
   .enqueue "S1" (tenSharesExit "STOP_LOSS") { commandId := "C1" },
   .orderResult { ok := true, orderNo := "8", commandId := "C1" },
   .execution (tenSharesFill "8" "sell" 4),
   .lifecycle "S1" {},
   .execution (tenSharesFill "8" "sell" 10)]

def soldTwice : List ServiceAction :=
  [.purchase "O1" tenShares,
   .execution (tenSharesFill "7" "buy" 10),
   .enqueue "S1" (tenSharesExit "STOP_LOSS") { commandId := "C1" },
   .enqueue "S2" (tenSharesExit "TAKE_PROFIT") { commandId := "C2" }]

end Ledger
end TradingCore.LiveSim
