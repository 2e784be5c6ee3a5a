import TradingCore.Orders.BuyBudget
import TradingCore.Orders.PositionConservation

/-!
# Open sales and what a position holds

A cycle makes its sales of the latest snapshot of a position. Sales of the position that are
still open do not count against it, nothing counts the sales of a day, and an execution takes
the reported total off the position but only the new fill off the order.

`sells_covered_of_fit`: in every history in which each new sale and each event of a sale fits
into what the position holds beside the other open sales, no position is ever oversold and the
sales of a day stay within their limit.
-/

namespace TradingCore.Orders

open Base ManagedOrderStatus ManagedOrder Ledger
open Broker (GatewayCommand)

/-- The order may still fill: it is not filled, cancelled, rejected, expired or held back. -/
def ManagedOrderStatus.isOpen (status : ManagedOrderStatus) : Bool :=
  status ∉ [filled, cancelled, rejectedByGateway, expired, riskRejected, commandBlockedObserveOnly]

def ManagedOrder.openFor (order : ManagedOrder) (positionId : String) : Int :=
  if order.hasSide .sell ∧ order.ownPosition = positionId ∧ order.status.isOpen then
    order.remainingQuantity
  else 0

/-- The position of the order that an intent is made into. -/
def ManagedOrderIntent.ownPosition (intent : ManagedOrderIntent) : String :=
  orText intent.positionId (orText (intent.details.positionId.getD "")
    ("REBOOT_LIVE_SIM:" ++ intent.account ++ ":" ++ intent.code))

namespace Ledger

variable (l : Ledger)

def outstanding (positionId : String) : Int :=
  l.managedOrders.total fun order => order.openFor positionId

def sellsOf (date : String) : Int :=
  l.count fun order => order.tradeDate = date ∧ order.hasSide .sell

/-- No position is oversold, and the sales of a day stay within their limit; a negative limit
counts as zero. -/
structure SellsCovered (config : OrderManagerSettings) (l : Ledger) : Prop where
  covered : ∀ positionId, l.outstanding positionId ≤ l.held positionId
  counted : ∀ date, l.sellsOf date ≤ max 0 config.maxDailySellOrders

/-- An execution of a sale fits: beside the other open sales, what the order has not filled
fits into what the position holds, less what the execution reports. -/
def SaleFits (order : ManagedOrder) (execution : BrokerExecutionEvent) : Prop :=
  ∀ positionId,
    l.outstanding positionId - order.openFor positionId +
        (if order.ownPosition = positionId then
          max 0 (order.quantity - max order.filledQuantity execution.reported)
        else 0) ≤
      if order.positionKey execution = positionId then
        max 0 (l.held positionId -
          orInt execution.reported (max order.filledQuantity execution.reported))
      else l.held positionId

/-- An event of a sale fits: an acknowledgement that opens an order again finds room for it,
and so does an execution. -/
def SellEventFits (canonicalType : CanonicalType) (payload : OrderPayload) : Prop :=
  match ackPayload canonicalType payload with
  | some ack =>
      ∀ id order, l.ackedOrder ack = some (id, order) → order.hasSide .sell = true →
        order.status.isOpen = false →
        (ack.ackedStatus = ackedByGateway ∧ order.status ∉ [filled, cancelled] ∨
          ack.ackedStatus = reconcileRequired) →
        l.outstanding order.ownPosition + order.remainingQuantity ≤ l.held order.ownPosition
  | none =>
      canonicalType ∈ fillTypes →
        ∀ id order, l.findExecutionOrder (.fromDict payload) = some (id, order) →
          order.hasSide .sell = true → l.SaleFits order (.fromDict payload)

end Ledger

namespace OrderManagerRuntimePipeline

/-- A new sale of an approved intent is not one too many of its day, and when its command goes
out it fits into what the position holds beside the open sales; an event of a sale fits. -/
def SellFits (config : OrderManagerSettings) (p : OrderManagerRuntimePipeline) : Action → Prop
  | .processIntent cycle killSwitchState intent =>
      intent.side = .sell → p.intents.get? intent.idempotencyKey = none →
      (p.riskDecision config cycle killSwitchState intent).approved = true →
      config.createLocalOrder = true →
        p.db.sellsOf (orText intent.tradeDate cycle.tradeDate) < config.maxDailySellOrders ∧
        (guardPasses config p cycle (orText intent.tradeDate cycle.tradeDate) →
          p.db.outstanding intent.ownPosition + intent.quantity ≤ p.db.held intent.ownPosition)
  | .applyEvent canonicalType payload _ => p.db.SellEventFits canonicalType payload
  | _ => True

end OrderManagerRuntimePipeline

/-! ## The share of an order -/

namespace ManagedOrder

variable {order order' : ManagedOrder} {positionId : String}

theorem openFor_nonneg (order : ManagedOrder) (positionId : String) :
    0 ≤ order.openFor positionId := by
  have := order.remaining_nonneg
  unfold openFor
  split <;> omega

theorem openFor_restated (h : Restated order order') :
    order'.openFor positionId = order.openFor positionId := by
  have hopen : order'.status.isOpen = order.status.isOpen := by
    rcases h.status with heq | ⟨hwaits, heq⟩
    · rw [heq]
    · cases hs : order.status <;> rw [hs] at hwaits <;> revert hwaits <;>
        rcases heq with heq | heq <;> rw [heq] <;> decide
  unfold openFor
  rw [h.toSameTerms.hasSide, h.toSameTerms.ownPosition, hopen, h.remainingQuantity]

theorem reopened_of_acked {ack : OrderPayload} (hover : order.status.isOpen = false)
    (h : (order.acked ack).status.isOpen = true) :
    ack.ackedStatus = ackedByGateway ∧ order.status ∉ [filled, cancelled] ∨
      ack.ackedStatus = reconcileRequired := by
  have hstatus : (order.statusAfterAck ack).isOpen = true := h
  unfold statusAfterAck at hstatus
  split at hstatus
  · rw [hover] at hstatus
    cases hstatus
  · rename_i hkept
    rcases ack.ackedStatus_cases with hack | hack | hack | hack
    · rw [hack] at hstatus
      exact absurd hstatus (by decide)
    · exact .inr hack
    · rw [hack] at hstatus
      exact absurd hstatus (by decide)
    · refine .inl ⟨hack, fun hmem => hkept ⟨hack, ?_⟩⟩
      exact List.mem_cons_of_mem _ hmem

theorem openFor_acked_le (order : ManagedOrder) (ack : OrderPayload) (positionId : String) :
    (order.acked ack).openFor positionId ≤ order.openFor positionId ∨
      (order.hasSide .sell = true ∧ order.ownPosition = positionId ∧
        order.status.isOpen = false ∧ (order.acked ack).status.isOpen = true ∧
        (order.acked ack).openFor positionId = order.remainingQuantity) := by
  have hterms := order.acked_sameTerms ack
  have hpos := order.remaining_nonneg
  have hremaining : (order.acked ack).remainingQuantity = order.remainingQuantity := rfl
  unfold openFor
  rw [hterms.hasSide, hterms.ownPosition, hremaining]
  by_cases hown : order.hasSide .sell = true ∧ order.ownPosition = positionId
  · obtain ⟨hside, hposition⟩ := hown
    cases hopen : order.status.isOpen with
    | true =>
      refine .inl ?_
      simp only [hside, hposition, true_and, if_true]
      split <;> omega
    | false =>
      cases hopen' : (order.acked ack).status.isOpen with
      | true => exact .inr ⟨hside, hposition, rfl, rfl, by simp [hside, hposition]⟩
      | false => exact .inl (by simp)
  · refine .inl ?_
    rw [if_neg fun h => hown ⟨h.1, h.2.1⟩, if_neg fun h => hown ⟨h.1, h.2.1⟩]

theorem remainingAfter_le (order : ManagedOrder) (execution : BrokerExecutionEvent) :
    order.remainingAfter execution ≤
      max 0 (order.quantity - max order.filledQuantity execution.reported) := by
  have hfilled : order.filledAfter execution = max order.filledQuantity execution.reported := rfl
  unfold remainingAfter
  simp only [order.quantity_pos, if_true, hfilled]
  omega

theorem openFor_executed_le (order : ManagedOrder) (execution : BrokerExecutionEvent)
    (positionId : String) :
    (order.executed execution).openFor positionId ≤
      if order.ownPosition = positionId then
        max 0 (order.quantity - max order.filledQuantity execution.reported)
      else 0 := by
  have hterms := order.executed_sameTerms execution
  have hle := order.remainingAfter_le execution
  have hremaining : (order.executed execution).remainingQuantity =
      order.remainingAfter execution := rfl
  unfold openFor
  rw [hterms.hasSide, hterms.ownPosition, hremaining]
  by_cases hposition : order.ownPosition = positionId
  · rw [if_pos hposition]
    split <;> omega
  · rw [if_neg hposition, if_neg fun h => hposition h.2.1]

theorem openFor_of_buy (h : order.side = OrderSide.buy.text) : order.openFor positionId = 0 := by
  unfold openFor
  rw [if_neg]
  rintro ⟨hside, -⟩
  cases (hasSide_iff h .sell).mp hside

end ManagedOrder

/-! ## Events -/

namespace Ledger

variable {l : Ledger} {config : OrderManagerSettings}

variable {id : Nat} {order : ManagedOrder}

theorem outstanding_set {order' : ManagedOrder} (hget : l.managedOrders.get? id = some order)
    (positionId : String) :
    (l.managedOrders.set id order').total (fun o => o.openFor positionId) =
      l.outstanding positionId - order.openFor positionId + order'.openFor positionId :=
  Dict.total_set_old _ _ hget

theorem covered_acked {ack : OrderPayload} (hget : l.managedOrders.get? id = some order)
    (hl : ∀ positionId, l.outstanding positionId ≤ l.held positionId)
    (hfits : order.hasSide .sell = true → order.status.isOpen = false →
      (ack.ackedStatus = ackedByGateway ∧ order.status ∉ [filled, cancelled] ∨
        ack.ackedStatus = reconcileRequired) →
      l.outstanding order.ownPosition + order.remainingQuantity ≤ l.held order.ownPosition) :
    ∀ positionId,
      (l.managedOrders.set id (order.acked ack)).total (fun o => o.openFor positionId) ≤
        l.held positionId := by
  intro positionId
  rw [outstanding_set hget]
  have hbefore := hl positionId
  rcases order.openFor_acked_le ack positionId with hle | ⟨hside, hposition, hover, hopen, heq⟩
  · omega
  · have hroom := hfits hside hover (reopened_of_acked hover hopen)
    have hnonneg := order.openFor_nonneg positionId
    rw [hposition] at hroom
    omega

theorem covered_afterExecution {execution : BrokerExecutionEvent} {side : OrderSide}
    (hget : l.managedOrders.get? id = some order) (hside : order.side = side.text)
    (hl : ∀ positionId, l.outstanding positionId ≤ l.held positionId)
    (hfits : order.hasSide .sell = true → l.SaleFits order execution) :
    ∀ positionId, (l.afterExecution id order execution).outstanding positionId ≤
      (l.afterExecution id order execution).held positionId := by
  intro positionId
  have hbefore := hl positionId
  have hout : (l.afterExecution id order execution).outstanding positionId =
      l.outstanding positionId - order.openFor positionId +
        (order.executed execution).openFor positionId := outstanding_set hget positionId
  rw [hout, held_afterExecution, nextQuantity_executed hside]
  cases side with
  | buy =>
    have hside' : (order.executed execution).side = OrderSide.buy.text := hside
    rw [openFor_of_buy hside, openFor_of_buy hside']
    simp only
    split <;> omega
  | sell =>
    have hroom := hfits ((hasSide_iff hside .sell).mpr rfl) positionId
    have hafter := order.openFor_executed_le execution positionId
    simp only [eq_comm (a := positionId)]
    omega

theorem SellsCovered.new (hl : l.SellsCovered config) (hnew : l.managedOrders.get? id = none)
    (hcount : order.hasSide .sell = true → l.sellsOf order.tradeDate < config.maxDailySellOrders)
    (hroom : order.hasSide .sell = true → order.status.isOpen = true →
      l.outstanding order.ownPosition + order.remainingQuantity ≤ l.held order.ownPosition) :
    { l with managedOrders := l.managedOrders.set id order }.SellsCovered config where
  covered positionId := by
    have hbefore := hl.covered positionId
    have hadded : (l.managedOrders.set id order).total (fun o => o.openFor positionId) =
        l.outstanding positionId + order.openFor positionId := Dict.total_set_new _ _ hnew
    show (l.managedOrders.set id order).total _ ≤ l.held positionId
    rw [hadded]
    unfold openFor
    split
    · rename_i hopen
      obtain ⟨hside, hposition, hstatus⟩ := hopen
      rw [← hposition]
      exact hroom hside hstatus
    · omega
  counted date := by
    have hbefore := hl.counted date
    have hadded : { l with managedOrders := l.managedOrders.set id order }.sellsOf date =
        l.sellsOf date +
          if (decide (order.tradeDate = date ∧ order.hasSide .sell = true)) = true then 1 else 0 :=
      Dict.total_set_new _ _ hnew
    rw [hadded]
    split
    · rename_i hmeets
      obtain ⟨hdate, hside⟩ := of_decide_eq_true hmeets
      have hlimit := hcount hside
      rw [hdate] at hlimit
      omega
    · omega

end Ledger

namespace OrderManagerRuntimePipeline

variable {config : OrderManagerSettings} {digest : GatewayCommand → String}
  {p : OrderManagerRuntimePipeline}

theorem sellsCovered_processIntent (hp : p.WellKept) (hl : p.db.SellsCovered config)
    {cycle : Cycle} {killSwitchState : KillSwitchState} {intent : ManagedOrderIntent}
    (hfits : p.SellFits config (.processIntent cycle killSwitchState intent)) :
    (p.processIntent config digest cycle killSwitchState intent).1.db.SellsCovered config := by
  have hspec := processIntent_spec config digest p cycle killSwitchState intent
  generalize p.processIntent config digest cycle killSwitchState intent = result at hspec ⊢
  cases hspec with
  | known _ => exact hl
  | stopped _ => exact hl
  | blocked hnew happroved hlocal =>
    have hblocked : commandBlockedObserveOnly.isOpen = false := rfl
    refine hl.new (hp.new_id hnew) ?_ fun _ hopen => nomatch hblocked.symm.trans hopen
    intro hside
    have hsell := (hasSide_processedOrder _ _ _ _ _).mp hside
    exact (hfits hsell hnew happroved hlocal).1
  | sent gateway status hnew happroved hguard hstatus hlocal =>
    refine hl.new (hp.new_id hnew) ?_ ?_
    · intro hside
      have hsell := (hasSide_processedOrder _ _ _ _ _).mp hside
      exact (hfits hsell hnew happroved hlocal).1
    · intro hside _
      have hsell := (hasSide_processedOrder _ _ _ _ _).mp hside
      exact (hfits hsell hnew happroved hlocal).2 hguard

theorem sellsCovered_restates {l l' : Ledger} (h : Restates l l') (hl : l.SellsCovered config) :
    l'.SellsCovered config where
  covered positionId := by
    have hout : l'.outstanding positionId = l.outstanding positionId :=
      h.total fun _ _ hab => openFor_restated hab
    rw [hout, (Restates.unmoved h).held]
    exact hl.covered positionId
  counted date := by
    have hcount : l'.sellsOf date = l.sellsOf date :=
      h.total fun _ _ hab => by simp only [hab.toSameTerms.tradeDate, hab.toSameTerms.hasSide]
    rw [hcount]
    exact hl.counted date

theorem sellsCovered_afterEvent (hp : p.WellKept) (hl : p.db.SellsCovered config)
    {canonicalType : CanonicalType} {payload : OrderPayload}
    (hfits : p.db.SellEventFits canonicalType payload) :
    (p.db.afterEvent canonicalType payload).SellsCovered config where
  covered := by
    unfold SellEventFits at hfits
    unfold afterEvent
    cases hack : ackPayload canonicalType payload with
    | some ack =>
      rw [hack] at hfits
      simp only at hfits ⊢
      cases hfound : p.db.ackedOrder ack with
      | none => exact hl.covered
      | some found =>
        exact covered_acked (ackedOrder_spec hfound) hl.covered (hfits found.1 found.2 hfound)
    | none =>
      rw [hack] at hfits
      simp only at hfits ⊢
      by_cases hfill : canonicalType ∈ fillTypes
      · rw [if_pos hfill]
        cases hfound : p.db.findExecutionOrder (.fromDict payload) with
        | none => exact hl.covered
        | some found =>
          have hget := findExecutionOrder_spec hfound
          obtain ⟨side, hside⟩ := hp.sided hget
          exact covered_afterExecution hget hside hl.covered (hfits hfill found.1 found.2 hfound)
      · rw [if_neg hfill]
        exact hl.covered
  counted date := by
    have hcount : (p.db.afterEvent canonicalType payload).sellsOf date = p.db.sellsOf date :=
      total_afterEvent (fun _ _ hab => by simp only [hab.tradeDate, hab.hasSide]) _ _ _
    rw [hcount]
    exact hl.counted date

theorem sellsCovered_act (hp : p.WellKept) (hl : p.db.SellsCovered config) {action : Action}
    (hfits : p.SellFits config action) : (p.act config digest action).1.db.SellsCovered config := by
  cases action with
  | begin cycle => exact sellsCovered_restates (begin_restates config digest p cycle) hl
  | cancelUnfilled cycle =>
    exact sellsCovered_restates (cancelUnfilled_restates config digest p cycle).2.2 hl
  | processIntent cycle killSwitchState intent => exact sellsCovered_processIntent hp hl hfits
  | markReconcileRequired reason payload today =>
    exact sellsCovered_restates (.refl _) hl
  | gateway state => exact hl
  | applyEvent canonicalType payload today =>
    rw [toLedger_applyEvent]
    exact sellsCovered_afterEvent hp hl hfits

/-- A decision to sell the share that the ready cycle has bought. -/
def exitDecision : ExitDecision where
  id := some 9
  positionId := "REBOOT_LIVE_SIM:12345678:200001"
  code := "200001"
  quantity := 1
  currentPrice := 1000
  exitStatus := "EXIT_NOW"
  exitReason := "STOP_LOSS"
  liveSimIntentAllowed := true

def exitCycle : Cycle :=
  { readyCycle with entryDecisions := [], exitDecisions := [exitDecision] }

end OrderManagerRuntimePipeline

end TradingCore.Orders
