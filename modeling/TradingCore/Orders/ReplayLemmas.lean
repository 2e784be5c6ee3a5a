import TradingCore.Orders.OrderConsumer

/-!
# Handling an event a second time

What the handlers of the reconciler find and compute when the same event reaches them
again: an order that has taken an acknowledgement or an execution is not changed by it
again, and the lookups lead back to that order.
-/

namespace TradingCore.Orders

open Base ManagedOrderStatus Dict Option

/-! ## The order -/

namespace ManagedOrder

variable (order : ManagedOrder)

theorem filledAfter_executed (execution : BrokerExecutionEvent) :
    (order.executed execution).filledAfter execution = order.filledAfter execution := by
  show max (max order.filledQuantity _) _ = max order.filledQuantity _
  omega

theorem remainingAfter_executed (execution : BrokerExecutionEvent) :
    (order.executed execution).remainingAfter execution = order.remainingAfter execution := by
  have hpos := order.quantity_pos
  have hnonneg := order.remaining_nonneg
  have hR := order.remainingAfter_nonneg execution
  have hle : order.filledQuantity ≤ order.filledAfter execution := by
    unfold filledAfter
    omega
  have hstatus : (order.executed execution).status = partiallyFilled ↔
      0 < order.remainingAfter execution := by
    show (if order.remainingAfter execution ≤ 0 then filled else partiallyFilled) = _ ↔ _
    split
    · constructor
      · intro h
        cases h
      · intro h
        omega
    · constructor
      · intro _
        omega
      · intro _
        rfl
  -- the definition on both sides, with the first result as a number
  have hfilled := order.filledAfter_executed execution
  have hq : (order.executed execution).quantity = order.quantity := rfl
  have hf : (order.executed execution).filledQuantity = order.filledAfter execution := rfl
  have hr : (order.executed execution).remainingQuantity = order.remainingAfter execution := rfl
  have hdef : order.remainingAfter execution = order.remainingAfter execution := rfl
  conv at hdef => rhs; unfold remainingAfter
  conv => lhs; unfold remainingAfter
  rw [hfilled, hq, hf, hr]
  simp only [hstatus]
  generalize order.remainingAfter execution = r at hdef hR
  generalize order.filledAfter execution = f at hle hdef
  simp only [orInt, hpos, if_true] at hdef ⊢
  have hreported : 0 ≤ (if execution.remainingQuantity ≤ 0 then max 0 (order.quantity - f)
        else execution.remainingQuantity) ∧
      ((if execution.remainingQuantity ≤ 0 then max 0 (order.quantity - f)
        else execution.remainingQuantity) = 0 → max 0 (order.quantity - f) = 0) := by
    split <;> omega
  generalize (if execution.remainingQuantity ≤ 0 then max 0 (order.quantity - f)
    else execution.remainingQuantity) = reported at hdef hreported ⊢
  by_cases hshrinks : 0 < order.filledQuantity ∨ order.status = partiallyFilled
  · rw [if_pos hshrinks] at hdef
    by_cases hzero : order.remainingQuantity = 0
    · rw [if_pos hzero] at hdef
      split_ifs <;> omega
    · rw [if_neg hzero] at hdef
      split_ifs <;> omega
  · rw [if_neg hshrinks] at hdef
    split_ifs <;> omega

theorem executed_executed (execution : BrokerExecutionEvent) :
    (order.executed execution).executed execution = order.executed execution := by
  have hfilled := order.filledAfter_executed execution
  have hremaining := order.remainingAfter_executed execution
  have havg : orRat execution.price (orRat (orRat execution.price
      (orRat order.avgFillPrice order.price)) order.price) =
      orRat execution.price (orRat order.avgFillPrice order.price) := by
    unfold orRat
    by_cases hprice : (execution.price : Rat) = 0
    · by_cases havg : order.avgFillPrice = 0
      · by_cases hp : (order.price : Rat) = 0
        · simp [hprice, havg, hp]
        · simp [hprice, havg, hp]
      · simp [hprice, havg]
    · simp [hprice]
  show ({ order.executed execution with
    status := (order.executed execution).statusAfterFill execution
    orderNo := orText execution.orderNo (orText execution.orderNo order.orderNo)
    filledQuantity := (order.executed execution).filledAfter execution
    remainingQuantity := (order.executed execution).remainingAfter execution
    avgFillPrice := orRat execution.price (orRat (orRat execution.price
      (orRat order.avgFillPrice order.price)) order.price)
    details := { (order.executed execution).details with lastExecution := some execution }
    remaining_nonneg := _ } : ManagedOrder) = order.executed execution
  simp only [statusAfterFill, hfilled, hremaining, havg, orText_orText]
  rfl

theorem statusAfterAck_acked (payload : OrderPayload) :
    (order.acked payload).statusAfterAck payload = order.statusAfterAck payload := by
  show (if payload.ackedStatus = ackedByGateway ∧
      order.statusAfterAck payload ∈ [partiallyFilled, filled, cancelled] then
      order.statusAfterAck payload else payload.ackedStatus) = order.statusAfterAck payload
  split
  · rfl
  · rename_i h
    unfold statusAfterAck at h ⊢
    split
    · rename_i hkept
      rw [if_pos hkept] at h
      exact absurd hkept h
    · rfl

theorem acked_acked (payload : OrderPayload) :
    (order.acked payload).acked payload = order.acked payload := by
  have hno : ∀ a b c : String, orText a (orText b (orText a (orText b c))) =
      orText a (orText b c) := by
    intro a b c
    unfold orText
    by_cases ha : a = ""
    · by_cases hb : b = ""
      · simp [ha, hb]
      · simp [ha, hb]
    · simp [ha]
  show ({ order.acked payload with
    status := (order.acked payload).statusAfterAck payload
    orderNo := orText payload.orderNo (orText payload.orderResult.orderNo
      (orText payload.orderNo (orText payload.orderResult.orderNo order.orderNo)))
    details := { (order.acked payload).details with
      lastCommandAck := some payload
      lastError := orText payload.message
        (orText payload.error payload.orderResult.message) } } : ManagedOrder) =
    order.acked payload
  rw [statusAfterAck_acked, hno]
  rfl

end ManagedOrder

/-! ## The lookups -/

namespace Ledger

variable {l l' : Ledger}

theorem findExecutionOrder_congr (h : l'.managedOrders = l.managedOrders)
    (execution : BrokerExecutionEvent) :
    l'.findExecutionOrder execution = l.findExecutionOrder execution := by
  unfold findExecutionOrder findManagedOrderByOrderNo findManagedOrderByCommandId
    findManagedOrderForExecution findManagedOrderByIdempotency findManagedOrderByCode
  rw [h]

theorem findManagedOrderByCommandId_congr (h : l'.managedOrders = l.managedOrders)
    (commandId : String) :
    l'.findManagedOrderByCommandId commandId = l.findManagedOrderByCommandId commandId := by
  unfold findManagedOrderByCommandId
  rw [h]

variable {orders : Dict Nat ManagedOrder} {id : Nat} {order : ManagedOrder}
  {execution : BrokerExecutionEvent}

theorem guarded_spec {c : Prop} [Decidable c] {p : ManagedOrder → Bool}
    (h : (if c then none else orders.latest? p) = some (id, order)) :
    orders.get? id = some order := by
  split at h
  · cases h
  · exact (latest?_spec h).1

theorem findExecutionOrder_spec (h : l.findExecutionOrder execution = some (id, order)) :
    l.managedOrders.get? id = some order := by
  unfold findExecutionOrder findManagedOrderForExecution at h
  rcases or_eq_some_iff.mp h with h | ⟨_, h⟩
  · rcases or_eq_some_iff.mp h with h | ⟨_, h⟩
    · exact guarded_spec h
    · exact guarded_spec h
  · rcases or_eq_some_iff.mp h with h | ⟨_, h⟩
    · exact guarded_spec h
    · exact (latest?_spec h).1

/-- Does the execution name its order: by the broker's number, or by a command or an
idempotency key that the table knows? Otherwise the order is searched by code and side. -/
def Names (l : Ledger) (execution : BrokerExecutionEvent) : Prop :=
  execution.orderNo ≠ "" ∨
    execution.commandId ≠ "" ∧ (l.findManagedOrderByCommandId execution.commandId).isSome ∨
    execution.idempotencyKey ≠ "" ∧
      (l.findManagedOrderByIdempotency execution.idempotencyKey).isSome

theorem latest_rewrite (p : ManagedOrder → Bool) (updated : ManagedOrder)
    (hrow : orders.get? id = some order) (hkeeps : p updated = p order) :
    (orders.latest? p = some (id, order) → (orders.set id updated).latest? p = some (id, updated)) ∧
    (orders.latest? p = none → (orders.set id updated).latest? p = none) := by
  constructor
  · intro h
    exact latest?_set_of_pos hrow (.inl h) (hkeeps.trans (latest?_spec h).2)
  · intro h
    exact latest?_set_of_neg h (hkeeps.trans (latest?_eq_none h hrow))

theorem guarded_rewrite (c : Prop) [Decidable c] (p : ManagedOrder → Bool) (updated : ManagedOrder)
    (hrow : orders.get? id = some order) (hkeeps : p updated = p order) :
    ((if c then none else orders.latest? p) = some (id, order) →
      (if c then none else (orders.set id updated).latest? p) = some (id, updated)) ∧
    ((if c then none else orders.latest? p) = none →
      (if c then none else (orders.set id updated).latest? p) = none) := by
  split
  · exact ⟨fun h => absurd h (by simp), fun _ => rfl⟩
  · exact latest_rewrite p updated hrow hkeeps

theorem findExecutionOrder_again (hfound : l.findExecutionOrder execution = some (id, order))
    (hsaved : l'.managedOrders = l.managedOrders.set id (order.executed execution))
    (hopen : l.Names execution ∨ order.statusAfterFill execution ≠ filled) :
    l'.findExecutionOrder execution = some (id, order.executed execution) := by
  have hrow := findExecutionOrder_spec hfound
  have hno : (order.executed execution).orderNo = orText execution.orderNo order.orderNo := rfl
  unfold findExecutionOrder findManagedOrderForExecution at hfound ⊢
  unfold findManagedOrderByOrderNo findManagedOrderByCommandId findManagedOrderByIdempotency
    findManagedOrderByCode at hfound ⊢
  rw [hsaved]
  by_cases hnumber : execution.orderNo = ""
  · -- no number: the command, then the key, then code and side
    rw [if_pos hnumber, none_or] at hfound ⊢
    have hcommand := guarded_rewrite (execution.commandId = "")
      (fun row => row.commandId = execution.commandId) (order.executed execution) hrow rfl
    have hkey := guarded_rewrite (execution.idempotencyKey = "")
      (fun row => row.idempotencyKey = execution.idempotencyKey) (order.executed execution)
      hrow rfl
    rcases or_eq_some_iff.mp hfound with h | ⟨hnone, h⟩
    · rw [hcommand.1 h, some_or]
    · rw [hcommand.2 hnone, none_or]
      rcases or_eq_some_iff.mp h with h | ⟨hnone', h⟩
      · rw [hkey.1 h, some_or]
      · rw [hkey.2 hnone', none_or]
        have hstatus : order.statusAfterFill execution ≠ filled := by
          rcases hopen with (h | ⟨h, hsome⟩ | ⟨h, hsome⟩) | h
          · exact absurd hnumber h
          · rw [if_neg h] at hnone
            rw [findManagedOrderByCommandId, hnone] at hsome
            cases hsome
          · rw [if_neg h] at hnone'
            rw [findManagedOrderByIdempotency, hnone'] at hsome
            cases hsome
          · exact h
        have hstill : (order.executed execution).status = partiallyFilled := by
          show order.statusAfterFill execution = partiallyFilled
          unfold ManagedOrder.statusAfterFill at hstatus ⊢
          split at hstatus
          · exact absurd rfl hstatus
          · rename_i hpos
            rw [if_neg hpos]
        refine latest?_set_of_pos hrow (.inl h) ?_
        have hp := (latest?_spec h).2
        rw [decide_eq_true_iff] at hp ⊢
        refine ⟨hp.1, hp.2.1, ?_⟩
        rw [hstill]
        rfl
  · -- the number: this order has it now, and no later one does
    rw [if_neg hnumber] at hfound ⊢
    have hlatest : l.managedOrders.latest? (fun row => row.orderNo = execution.orderNo) =
          some (id, order) ∨
        l.managedOrders.latest? (fun row => row.orderNo = execution.orderNo) = none := by
      cases h : l.managedOrders.latest? (fun row => row.orderNo = execution.orderNo) with
      | none => exact .inr rfl
      | some found =>
        rw [h, some_or, some_or] at hfound
        exact .inl hfound
    rw [latest?_set_of_pos hrow hlatest, some_or, some_or]
    rw [decide_eq_true_iff, hno, orText, if_neg hnumber]

theorem findExecutionOrder_other {id' : Nat} {order' : ManagedOrder}
    (hfound : l.findExecutionOrder execution = some (id, order))
    (hsaved : l'.managedOrders = l.managedOrders.set id (order.executed execution))
    (hnames : ¬ l.Names execution) (hfilled : order.statusAfterFill execution = filled)
    (hfound' : l'.findExecutionOrder execution = some (id', order')) : id' ≠ id := by
  have hrow := findExecutionOrder_spec hfound
  have hrow' := findExecutionOrder_spec hfound'
  obtain ⟨hnumber, hcommand, hkey⟩ : execution.orderNo = "" ∧
      (execution.commandId ≠ "" → l.findManagedOrderByCommandId execution.commandId = none) ∧
      (execution.idempotencyKey ≠ "" →
        l.findManagedOrderByIdempotency execution.idempotencyKey = none) := by
    unfold Names at hnames
    refine ⟨by_contra fun h => hnames (.inl h), ?_, ?_⟩
    · intro h
      exact not_isSome_iff_eq_none.mp fun hs => hnames (.inr (.inl ⟨h, hs⟩))
    · intro h
      exact not_isSome_iff_eq_none.mp fun hs => hnames (.inr (.inr ⟨h, hs⟩))
  have hcommand' := (guarded_rewrite (execution.commandId = "")
    (fun row => row.commandId = execution.commandId) (order.executed execution) hrow rfl).2
  have hkey' := (guarded_rewrite (execution.idempotencyKey = "")
    (fun row => row.idempotencyKey = execution.idempotencyKey) (order.executed execution)
    hrow rfl).2
  unfold findExecutionOrder findManagedOrderForExecution findManagedOrderByOrderNo
    findManagedOrderByCommandId findManagedOrderByIdempotency findManagedOrderByCode at hfound'
  rw [hsaved, if_pos hnumber, none_or, hcommand', none_or, hkey', none_or] at hfound'
  · -- by code and side: the filled order is out of reach
    have hp := (latest?_spec hfound').2
    rw [decide_eq_true_iff] at hp
    intro heq
    subst heq
    rw [hsaved, get?_set_self] at hrow'
    injection hrow' with hrow'
    have hstatus : order'.status = filled := by
      rw [← hrow']
      exact hfilled
    rw [hstatus] at hp
    exact absurd hp.2.2 (by decide)
  · split
    · rfl
    · rename_i h
      exact hkey h
  · split
    · rfl
    · rename_i h
      exact hcommand h

end Ledger

end TradingCore.Orders
