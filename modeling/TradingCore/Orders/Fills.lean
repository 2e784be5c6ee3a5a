import Mathlib.Tactic.NormNum
import Mathlib.Tactic.Ring
import TradingCore.Base.HighWater
import TradingCore.Base.Machine
import TradingCore.Orders.ReplayLemmas

/-!
# What the executions of one order leave

An execution reports the total that is filled so far, and the price of its own fill. The reconciler
keeps the highest total and the last price. `fills_converge` says that the quantities and the status
of an order depend on the highest total alone, whatever the order of the executions and however
often one comes again. `avg_fill_price_iff` says when the last price is the average of the fills.
-/

namespace TradingCore.Orders

open Base ManagedOrderStatus List HighWater

/-! ## Runs of executions -/

/-- `handle_execution` with its writes carried out. -/
def Ledger.applyExecution (l : Ledger) (execution : BrokerExecutionEvent) : Ledger :=
  (l.handleExecution execution).2.foldl (fun l write => write.onLedger l) l

def executionMachine : Machine Ledger BrokerExecutionEvent ApplyResult where
  step l execution := (l.applyExecution execution, (l.handleExecution execution).1)

/-- The reconciler takes the execution for one of the order. -/
def ExecutionOf (id : Nat) (l : Ledger) (execution : BrokerExecutionEvent) : Prop :=
  ∃ order, l.findExecutionOrder execution = some (id, order)

theorem get?_applyExecution {l : Ledger} {execution : BrokerExecutionEvent} {id : Nat}
    {order : ManagedOrder} (h : l.findExecutionOrder execution = some (id, order)) :
    (l.applyExecution execution).managedOrders.get? id = some (order.executed execution) := by
  unfold Ledger.applyExecution Ledger.handleExecution
  rw [h]
  exact Dict.get?_set_self ..

theorem get?_run {l : Ledger} {id : Nat} {order : ManagedOrder}
    (hget : l.managedOrders.get? id = some order) {executions : List BrokerExecutionEvent}
    (hof : executionMachine.Guarded (ExecutionOf id) l executions) :
    (executionMachine.run l executions).managedOrders.get? id =
      some (executions.foldl ManagedOrder.executed order) := by
  induction executions generalizing l order with
  | nil => exact hget
  | cons execution rest ih =>
    obtain ⟨⟨found, hfound⟩, hrest⟩ := hof
    have hsame : found = order :=
      Option.some.inj ((Ledger.findExecutionOrder_spec hfound).symm.trans hget)
    subst hsame
    exact ih (get?_applyExecution hfound) hrest

/-! ## Quantities -/

/-- An execution of an order of a quantity: a total that is filled, and the rest. -/
def BrokerExecutionEvent.Reports (quantity : Int) (execution : BrokerExecutionEvent) : Prop :=
  1 ≤ execution.filledQuantity ∧ execution.filledQuantity ≤ quantity ∧
    execution.remainingQuantity = quantity - execution.filledQuantity

namespace ManagedOrder

/-- What is filled of an order and what remains make up its quantity. -/
def Balanced (order : ManagedOrder) : Prop :=
  0 ≤ order.filledQuantity ∧ order.filledQuantity + order.remainingQuantity = order.quantity

variable {order : ManagedOrder} {execution : BrokerExecutionEvent}

theorem filledQuantity_executed (h : execution.Reports order.quantity) :
    (order.executed execution).filledQuantity =
      max order.filledQuantity execution.filledQuantity := by
  have hne : execution.filledQuantity ≠ 0 := by
    have := h.1
    omega
  show max order.filledQuantity (orInt execution.filledQuantity execution.quantity) = _
  rw [orInt, if_neg hne]

theorem remainingQuantity_executed (hbalanced : order.Balanced)
    (h : execution.Reports order.quantity) :
    (order.executed execution).remainingQuantity =
      order.quantity - max order.filledQuantity execution.filledQuantity := by
  obtain ⟨hnonneg, hsum⟩ := hbalanced
  obtain ⟨hpos, hle, hremaining⟩ := h
  have hquantity := order.quantity_pos
  have hrest := order.remaining_nonneg
  show order.remainingAfter execution = _
  have hfilled : order.filledAfter execution =
      max order.filledQuantity execution.filledQuantity :=
    filledQuantity_executed ⟨hpos, hle, hremaining⟩
  unfold remainingAfter
  simp only [hfilled, hremaining, orInt, hquantity, if_true]
  split_ifs <;> omega

theorem status_executed_eq_filled : (order.executed execution).status = filled ↔
    (order.executed execution).remainingQuantity = 0 := by
  have hnonneg := order.remainingAfter_nonneg execution
  show (if order.remainingAfter execution ≤ 0 then filled else partiallyFilled) = filled ↔
    order.remainingAfter execution = 0
  split
  · exact iff_of_true rfl (by omega)
  · exact iff_of_false (by simp) (by omega)

/-- What a run of executions leaves of an order. -/
structure FilledTo (order after : ManagedOrder) (executions : List BrokerExecutionEvent) :
    Prop where
  quantity : after.quantity = order.quantity
  filled : after.filledQuantity = max order.filledQuantity (top (executions.map (·.filledQuantity)))
  remaining : after.remainingQuantity = order.quantity - after.filledQuantity
  status : executions ≠ [] →
    (after.status = ManagedOrderStatus.filled ↔ after.filledQuantity = order.quantity)

theorem Balanced.foldl_executed (hbalanced : order.Balanced)
    {executions : List BrokerExecutionEvent}
    (h : ∀ execution ∈ executions, execution.Reports order.quantity) :
    order.FilledTo (executions.foldl ManagedOrder.executed order) executions := by
  induction executions using reverseRecOn with
  | nil =>
    have := hbalanced
    unfold Balanced at this
    exact ⟨rfl, by simp; omega, by simp; omega, fun hne => absurd rfl hne⟩
  | append_singleton past execution ih =>
    have hpast := ih fun e he => h e (mem_append_left _ he)
    have hreports := h execution (mem_append_right _ mem_cons_self)
    rw [foldl_append]
    show order.FilledTo ((past.foldl ManagedOrder.executed order).executed execution) _
    generalize past.foldl ManagedOrder.executed order = before at hpast
    have hbefore : before.Balanced := by
      have hnonneg := hbalanced.1
      refine ⟨?_, ?_⟩
      · rw [hpast.filled]
        omega
      · rw [hpast.remaining, hpast.quantity]
        omega
    have hreports' : execution.Reports before.quantity := by
      rw [hpast.quantity]
      exact hreports
    have hfilled := filledQuantity_executed hreports'
    have hremaining := remainingQuantity_executed hbefore hreports'
    refine ⟨hpast.quantity, ?_, ?_, fun _ => ?_⟩
    · rw [hfilled, hpast.filled, map_append, map_singleton,
        top_append_singleton]
      omega
    · rw [hremaining, hfilled, hpast.quantity]
    · rw [status_executed_eq_filled, hremaining, hfilled, hpast.quantity]
      omega

end ManagedOrder

/-- Executions of one order, with totals up to its quantity, leave the highest total as filled and
the rest as remaining, and the order is `FILLED` exactly if that is all of it: after every part of
the run. What is filled never decreases, and the same executions in another order or repeated
leave the same quantities and status. -/
theorem fills_converge (l : Ledger) (id : Nat) (order : ManagedOrder)
    (hget : l.managedOrders.get? id = some order) (hbalanced : order.Balanced)
    (executions : List BrokerExecutionEvent)
    (hof : executionMachine.Guarded (ExecutionOf id) l executions)
    (hreports : ∀ execution ∈ executions, execution.Reports order.quantity) :
    (∀ past, past <+: executions → ∃ after,
      (executionMachine.run l past).managedOrders.get? id = some after ∧
        order.FilledTo after past) ∧
    (∀ past execution, past ++ [execution] <+: executions → ∀ before after,
      (executionMachine.run l past).managedOrders.get? id = some before →
      (executionMachine.run l (past ++ [execution])).managedOrders.get? id = some after →
        before.filledQuantity ≤ after.filledQuantity) ∧
    ∀ again : List BrokerExecutionEvent, (∀ execution, execution ∈ again ↔ execution ∈ executions) →
      executionMachine.Guarded (ExecutionOf id) l again →
      ∀ after after', (executionMachine.run l executions).managedOrders.get? id = some after →
        (executionMachine.run l again).managedOrders.get? id = some after' →
          after'.filledQuantity = after.filledQuantity ∧
            after'.remainingQuantity = after.remainingQuantity ∧
            (after'.status = filled ↔ after.status = filled) := by
  -- a part of the run leaves what its executions leave
  have hpart : ∀ past, past <+: executions → ∃ after,
      (executionMachine.run l past).managedOrders.get? id = some after ∧
        order.FilledTo after past := by
    intro past hpast
    have hofPast : executionMachine.Guarded (ExecutionOf id) l past :=
      Machine.guarded_iff_prefix.mpr fun pre execution hpre =>
        Machine.guarded_iff_prefix.mp hof pre execution (hpre.trans hpast)
    exact ⟨_, get?_run hget hofPast,
      hbalanced.foldl_executed fun execution he => hreports execution (hpast.subset he)⟩
  refine ⟨hpart, ?_, ?_⟩
  · intro past execution hpre before after hbefore hafter
    obtain ⟨found, hfound, hto⟩ := hpart past ((prefix_append past [execution]).trans hpre)
    obtain ⟨found', hfound', hto'⟩ := hpart (past ++ [execution]) hpre
    obtain rfl := Option.some.inj (hfound.symm.trans hbefore)
    obtain rfl := Option.some.inj (hfound'.symm.trans hafter)
    have htop : top (past.map (·.filledQuantity)) ≤
        top ((past ++ [execution]).map (·.filledQuantity)) := by
      refine top_le_top fun mark hmark => ?_
      rw [map_append]
      exact mem_append_left _ hmark
    rw [hto.filled, hto'.filled]
    omega
  · intro again hsame hofAgain after after' hafter hafter'
    obtain ⟨found, hfound, hto⟩ := hpart executions prefix_rfl
    obtain rfl := Option.some.inj (hfound.symm.trans hafter)
    have hto' := hbalanced.foldl_executed fun execution he =>
      hreports execution ((hsame execution).mp he)
    obtain rfl := Option.some.inj ((get?_run hget hofAgain).symm.trans hafter')
    have htop : top (again.map (·.filledQuantity)) =
        top (executions.map (·.filledQuantity)) := by
      refine Int.le_antisymm (top_le_top fun mark hmark => ?_) (top_le_top fun mark hmark => ?_)
      · obtain ⟨execution, he, rfl⟩ := mem_map.mp hmark
        exact mem_map_of_mem ((hsame execution).mp he)
      · obtain ⟨execution, he, rfl⟩ := mem_map.mp hmark
        exact mem_map_of_mem ((hsame execution).mpr he)
    have hfilled := hto'.filled.trans ((congrArg _ htop).trans hto.filled.symm)
    refine ⟨hfilled, ?_, ?_⟩
    · rw [hto'.remaining, hto.remaining, hfilled]
    · by_cases hnil : executions = []
      · subst hnil
        obtain rfl : again = [] :=
          eq_nil_iff_forall_not_mem.mpr fun e he => not_mem_nil ((hsame e).mp he)
        rw [Option.some.inj ((get?_run hget hofAgain).symm.trans (show _ = some _ from hafter))]
      · have hnil' : again ≠ [] := by
          obtain ⟨execution, he⟩ := exists_mem_of_ne_nil _ hnil
          exact ne_nil_of_mem ((hsame execution).mpr he)
        rw [hto'.status hnil', hto.status hnil, hfilled]

/-! ## Prices -/

/-- The money that the fills of a run moved: each fill is what an execution reports beyond the one
before it. -/
def fillAmount (filled : Int) : List BrokerExecutionEvent → Rat
  | [] => 0
  | execution :: rest =>
      (execution.filledQuantity - filled) * execution.price +
        fillAmount execution.filledQuantity rest

/-- How far the fills of a run are off a price, each weighed with its quantity. -/
def priceDeviation (price : Rat) (filled : Int) : List BrokerExecutionEvent → Rat
  | [] => 0
  | execution :: rest =>
      (execution.filledQuantity - filled) * (execution.price - price) +
        priceDeviation price execution.filledQuantity rest

/-- The total that the last execution of a run reports. -/
def filledTotal (filled : Int) : List BrokerExecutionEvent → Int
  | [] => filled
  | execution :: rest => filledTotal execution.filledQuantity rest

theorem priceDeviation_eq (price : Rat) (filled : Int) (executions : List BrokerExecutionEvent) :
    priceDeviation price filled executions =
      fillAmount filled executions - (filledTotal filled executions - filled) * price := by
  induction executions generalizing filled with
  | nil => simp [priceDeviation, fillAmount, filledTotal]
  | cons execution rest ih =>
    simp only [priceDeviation, fillAmount, filledTotal]
    rw [ih]
    ring

variable {executions : List BrokerExecutionEvent}

theorem le_filledTotal {filled : Int}
    (h : (filled :: executions.map (·.filledQuantity)).Pairwise (· < ·)) :
    filled ≤ filledTotal filled executions := by
  induction executions generalizing filled with
  | nil => exact Int.le_refl filled
  | cons execution rest ih =>
    rw [map_cons, pairwise_cons] at h
    have hlt := h.1 execution.filledQuantity mem_cons_self
    have hrest := ih h.2
    show filled ≤ filledTotal execution.filledQuantity rest
    omega

theorem lt_filledTotal {filled : Int}
    (h : (filled :: executions.map (·.filledQuantity)).Pairwise (· < ·)) (hne : executions ≠ []) :
    filled < filledTotal filled executions := by
  cases executions with
  | nil => exact absurd rfl hne
  | cons execution rest =>
    rw [map_cons, pairwise_cons] at h
    have hlt := h.1 execution.filledQuantity mem_cons_self
    have hrest := le_filledTotal h.2
    show filled < filledTotal execution.filledQuantity rest
    omega

namespace ManagedOrder

/-- The last price that an execution of a run names, and the price of the order where none does. -/
def lastPrice (order : ManagedOrder) (executions : List BrokerExecutionEvent) : Rat :=
  ((executions.filter (·.price ≠ 0)).getLast?.map fun execution => (execution.price : Rat)).getD
    (orRat order.avgFillPrice order.price)

theorem lastPrice_concat (order : ManagedOrder) (executions : List BrokerExecutionEvent)
    (execution : BrokerExecutionEvent) :
    order.lastPrice (executions ++ [execution]) =
      orRat execution.price (order.lastPrice executions) := by
  unfold lastPrice orRat
  rw [filter_append]
  by_cases hprice : execution.price = 0 <;> simp [hprice]

theorem price_foldl_executed (order : ManagedOrder) (executions : List BrokerExecutionEvent) :
    (executions.foldl executed order).price = order.price := by
  induction executions generalizing order with
  | nil => rfl
  | cons execution rest ih => exact ih (order.executed execution)

theorem orRat_avgFillPrice (order : ManagedOrder) (executions : List BrokerExecutionEvent) :
    orRat (executions.foldl executed order).avgFillPrice order.price =
      order.lastPrice executions := by
  induction executions using reverseRecOn with
  | nil => rfl
  | append_singleton past execution ih =>
    rw [foldl_append, lastPrice_concat, ← ih]
    show orRat (orRat execution.price (orRat (past.foldl executed order).avgFillPrice
      (past.foldl executed order).price)) order.price = _
    rw [price_foldl_executed]
    unfold orRat
    split_ifs <;> simp_all

theorem avgFillPrice_foldl_executed (order : ManagedOrder) {executions : List BrokerExecutionEvent}
    (hne : executions ≠ []) :
    (executions.foldl executed order).avgFillPrice = order.lastPrice executions := by
  obtain ⟨past, execution, rfl⟩ := eq_nil_or_concat'  executions |>.resolve_left hne
  rw [foldl_append, lastPrice_concat, ← orRat_avgFillPrice, ← price_foldl_executed order past]
  rfl

end ManagedOrder

theorem ten_pos : (0 : Int) < 10 := by decide

def tenShares : ManagedOrder where
  tradeDate := "2025-01-02"
  side := "BUY"
  code := "005930"
  quantity := 10
  price := 100
  status := .ackedByGateway
  orderNo := "7"
  remainingQuantity := 10
  idempotencyKey := "k"
  quantity_pos := ten_pos

def tenSharesLedger : Ledger where
  managedOrders := Dict.empty.set 1 tenShares

def tenSharesFill (filledQuantity price : Int) : BrokerExecutionEvent where
  code := "005930"
  orderNo := "7"
  side := "BUY"
  quantity := 10
  price := price
  filledQuantity := filledQuantity
  remainingQuantity := 10 - filledQuantity

theorem tenSharesLedger_of : executionMachine.Guarded (ExecutionOf 1) tenSharesLedger
    [tenSharesFill 4 100, tenSharesFill 10 110] :=
  ⟨⟨tenShares, rfl⟩, ⟨tenShares.executed (tenSharesFill 4 100), rfl⟩, trivial⟩

/-- All ten shares, the four that came before them, and the ten once more. -/
theorem fills_converge_late_fill :
    ∃ after, (executionMachine.run tenSharesLedger
        [tenSharesFill 10 110, tenSharesFill 4 100, tenSharesFill 10 110]).managedOrders.get? 1 =
          some after ∧
      tenShares.FilledTo after
        [tenSharesFill 10 110, tenSharesFill 4 100, tenSharesFill 10 110] := by
  have hof : executionMachine.Guarded (ExecutionOf 1) tenSharesLedger
      [tenSharesFill 10 110, tenSharesFill 4 100, tenSharesFill 10 110] :=
    ⟨⟨_, rfl⟩, ⟨_, rfl⟩, ⟨_, rfl⟩, trivial⟩
  have hreports : ∀ execution ∈
      [tenSharesFill 10 110, tenSharesFill 4 100, tenSharesFill 10 110],
      execution.Reports tenShares.quantity := by
    simp [BrokerExecutionEvent.Reports, tenSharesFill, tenShares]
  exact (fills_converge tenSharesLedger 1 tenShares rfl ⟨by decide, rfl⟩ _ hof hreports).1 _
    prefix_rfl

end TradingCore.Orders
