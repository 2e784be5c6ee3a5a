import TradingCore.Orders.FillDecoders

/-!
# What the reconciler looks at in an execution

The reconciler looks for the order of an execution by order number, command, idempotency key, code
and side, and takes quantities and a price from it. Executions with the same quantities lead every
ledger to the same fills if they ask for the same order at the same price (`SameSearch.fillState`),
and only then (`sameSearch_of_fills`): the ledgers that tell them apart have one order.
-/

namespace TradingCore.Orders

open Base Broker ManagedOrderStatus Text Ledger

/-! ## What the reconciler looks at -/

/-- Two executions by which the same orders are found. -/
structure SameSearch (e e' : BrokerExecutionEvent) : Prop where
  orderNo : e.orderNo = e'.orderNo
  commandId : e.commandId = e'.commandId
  idempotencyKey : e.idempotencyKey = e'.idempotencyKey
  code : codeColumn e.code = codeColumn e'.code
  side : upper e.side = upper e'.side

variable {e e' : BrokerExecutionEvent}

theorem SameSearch.find (h : SameSearch e e') (l : Ledger) :
    l.findExecutionOrder e = l.findExecutionOrder e' := by
  have hside : e.side = "" ↔ e'.side = "" := by
    rw [← upper_eq_empty, h.side, upper_eq_empty]
  unfold findExecutionOrder findManagedOrderForExecution findManagedOrderByCode
  simp only [h.orderNo, h.commandId, h.idempotencyKey, h.code, h.side, hside]

theorem fillState_afterFill (l : Ledger) (e : BrokerExecutionEvent) (id : Nat) :
    (l.afterFill (some e)).fillState id =
      match l.findExecutionOrder e with
      | none => l.fillState id
      | some (id', order) =>
        if id = id' then
          some
            { status := order.statusAfterFill e
              filledQuantity := order.filledAfter e
              remainingQuantity := order.remainingAfter e
              avgFillPrice := orRat e.price (orRat order.avgFillPrice order.price) }
        else l.fillState id := by
  show ((l.handleExecution e).2.foldl (fun l write => write.onLedger l) l).fillState id = _
  unfold handleExecution
  cases l.findExecutionOrder e with
  | none => rfl
  | some found =>
    obtain ⟨id', order⟩ := found
    show ((l.managedOrders.set id' (order.executed e)).get? id).map _ = _
    rw [Dict.get?_set]
    by_cases hid : id = id'
    · rw [if_pos hid]
      exact (if_pos hid).symm
    · rw [if_neg hid]
      exact (if_neg hid).symm

theorem SameSearch.fillState (h : SameSearch e e') (hprice : e.price = e'.price)
    (hquantity : e.quantity = e'.quantity) (hfilled : e.filledQuantity = e'.filledQuantity)
    (hremaining : e.remainingQuantity = e'.remainingQuantity) (l : Ledger) (id : Nat) :
    (l.afterFill (some e)).fillState id = (l.afterFill (some e')).fillState id := by
  rw [fillState_afterFill, fillState_afterFill, h.find]
  unfold ManagedOrder.statusAfterFill ManagedOrder.remainingAfter ManagedOrder.filledAfter
  rw [hprice, hquantity, hfilled, hremaining]

/-! ## Ledgers with one order -/

def oneOrder (order : ManagedOrder) : Ledger where
  managedOrders := ⟨[(0, order)], List.nodup_singleton _⟩

/-- An order that no execution is for, with what an execution may look for. -/
def lookedFor (orderNo commandId idempotencyKey code side : String) (price : Int)
    (status : ManagedOrderStatus) : ManagedOrder :=
  { tradeDate := "", side, code, quantity := 1, price, status, commandId, orderNo, idempotencyKey }

/-- Is the only order of a ledger the one of an execution? -/
def Finds (e : BrokerExecutionEvent) (order : ManagedOrder) : Prop :=
  e.orderNo ≠ "" ∧ order.orderNo = e.orderNo ∨
    e.commandId ≠ "" ∧ order.commandId = e.commandId ∨
    e.idempotencyKey ≠ "" ∧ order.idempotencyKey = e.idempotencyKey ∨
    codeColumn order.code = codeColumn e.code ∧
      (e.side = "" ∨ upper order.side = upper e.side) ∧
      awaitsExecution order.status = true

theorem some_or_some {α : Type} {a : α} {P Q : Prop} [Decidable P] [Decidable Q] :
    (if P then some a else none).or (if Q then some a else none) =
      if P ∨ Q then some a else none := by
  by_cases hP : P
  · simp [hP]
  · simp [hP]

theorem none_else_some {α : Type} {a : α} {P Q : Prop} [Decidable P] [Decidable Q] :
    (if P then none else if Q then some a else none) = if ¬ P ∧ Q then some a else none := by
  by_cases hP : P
  · simp [hP]
  · simp [hP]

theorem find_oneOrder (order : ManagedOrder) (e : BrokerExecutionEvent) :
    (Finds e order → (oneOrder order).findExecutionOrder e = some (0, order)) ∧
      (¬ Finds e order → (oneOrder order).findExecutionOrder e = none) := by
  have hlatest : ∀ p : ManagedOrder → Bool,
      (oneOrder order).managedOrders.latest? p = if p order then some (0, order) else none :=
    fun _ => rfl
  unfold findExecutionOrder findManagedOrderForExecution
    findManagedOrderByOrderNo findManagedOrderByCommandId
    findManagedOrderByIdempotency findManagedOrderByCode
  simp only [hlatest, none_else_some, some_or_some]
  refine ⟨fun h => if_pos ?_, fun h => if_neg ?_⟩
  · simpa [Finds, or_assoc] using h
  · simpa [Finds, or_assoc] using h

theorem fillState_oneOrder (order : ManagedOrder) (e : BrokerExecutionEvent) :
    (Finds e order → ((oneOrder order).afterFill (some e)).fillState 0 =
      some
        { status := order.statusAfterFill e
          filledQuantity := order.filledAfter e
          remainingQuantity := order.remainingAfter e
          avgFillPrice := orRat e.price (orRat order.avgFillPrice order.price) }) ∧
      (¬ Finds e order → ((oneOrder order).afterFill (some e)).fillState 0 =
        (oneOrder order).fillState 0) := by
  rw [fillState_afterFill]
  constructor
  · intro h
    rw [(find_oneOrder order e).1 h]
    exact if_pos rfl
  · intro h
    rw [(find_oneOrder order e).2 h]

theorem fillState_changes {order : ManagedOrder} (hfilled : order.filledQuantity = 0)
    (he : 1 ≤ orInt e.filledQuantity e.quantity) (h : Finds e order) :
    ((oneOrder order).afterFill (some e)).fillState 0 ≠ (oneOrder order).fillState 0 := by
  rw [(fillState_oneOrder order e).1 h]
  intro heq
  have hafter : order.filledAfter e = order.filledQuantity :=
    congrArg FillState.filledQuantity (Option.some.inj heq)
  unfold ManagedOrder.filledAfter at hafter
  omega

theorem finds_iff (he : 1 ≤ orInt e.filledQuantity e.quantity)
    (he' : 1 ≤ orInt e'.filledQuantity e'.quantity)
    (h : ∀ (l : Ledger) id, (l.afterFill (some e)).fillState id =
      (l.afterFill (some e')).fillState id) {order : ManagedOrder}
    (hfilled : order.filledQuantity = 0) : Finds e order ↔ Finds e' order := by
  constructor
  · intro hfinds
    by_contra hnot
    refine fillState_changes hfilled he hfinds ?_
    rw [h, (fillState_oneOrder order e').2 hnot]
  · intro hfinds
    by_contra hnot
    refine fillState_changes hfilled he' hfinds ?_
    rw [← h, (fillState_oneOrder order e).2 hnot]

theorem finds_orderNo (e : BrokerExecutionEvent) (orderNo : String) :
    Finds e (lookedFor orderNo "" "" "" "" 0 pendingLocal) ↔
      e.orderNo ≠ "" ∧ orderNo = e.orderNo := by
  refine ⟨?_, fun h => Or.inl h⟩
  rintro (h | ⟨hne, heq⟩ | ⟨hne, heq⟩ | ⟨-, -, hawaits⟩)
  · exact h
  · exact absurd heq.symm hne
  · exact absurd heq.symm hne
  · exact absurd hawaits Bool.false_ne_true

theorem finds_commandId (e : BrokerExecutionEvent) (commandId : String) :
    Finds e (lookedFor "" commandId "" "" "" 0 pendingLocal) ↔
      e.commandId ≠ "" ∧ commandId = e.commandId := by
  refine ⟨?_, fun h => Or.inr (Or.inl h)⟩
  rintro (⟨hne, heq⟩ | h | ⟨hne, heq⟩ | ⟨-, -, hawaits⟩)
  · exact absurd heq.symm hne
  · exact h
  · exact absurd heq.symm hne
  · exact absurd hawaits Bool.false_ne_true

theorem finds_idempotencyKey (e : BrokerExecutionEvent) (idempotencyKey : String) :
    Finds e (lookedFor "" "" idempotencyKey "" "" 0 pendingLocal) ↔
      e.idempotencyKey ≠ "" ∧ idempotencyKey = e.idempotencyKey := by
  refine ⟨?_, fun h => Or.inr (Or.inr (Or.inl h))⟩
  rintro (⟨hne, heq⟩ | ⟨hne, heq⟩ | h | ⟨-, -, hawaits⟩)
  · exact absurd heq.symm hne
  · exact absurd heq.symm hne
  · exact h
  · exact absurd hawaits Bool.false_ne_true

theorem finds_code (e : BrokerExecutionEvent) (code side : String) (price : Int) :
    Finds e (lookedFor "" "" "" code side price ackedByGateway) ↔
      codeColumn code = codeColumn e.code ∧ (e.side = "" ∨ upper side = upper e.side) := by
  refine ⟨?_, fun h => Or.inr (Or.inr (Or.inr ⟨h.1, h.2, rfl⟩))⟩
  rintro (⟨hne, heq⟩ | ⟨hne, heq⟩ | ⟨hne, heq⟩ | ⟨hcode, hside, -⟩)
  · exact absurd heq.symm hne
  · exact absurd heq.symm hne
  · exact absurd heq.symm hne
  · exact ⟨hcode, hside⟩

theorem eq_of_keys {a b : String} (h : ∀ x, a ≠ "" ∧ x = a ↔ b ≠ "" ∧ x = b) : a = b := by
  by_cases ha : a = ""
  · by_contra hne
    have hb : b ≠ "" := fun hb => hne (ha.trans hb.symm)
    exact ((h b).mpr ⟨hb, rfl⟩).1 ha
  · exact ((h a).mp ⟨ha, rfl⟩).2

theorem eq_of_orRat {a b : Int}
    (h : ∀ price : Int, orRat a (orRat 0 price) = orRat b (orRat 0 price)) : a = b := by
  unfold orRat at h
  simp only [if_true, Rat.intCast_eq_zero_iff] at h
  by_cases ha : a = 0
  · by_cases hb : b = 0
    · rw [ha, hb]
    · have heq := h (b + 1)
      rw [if_pos ha, if_neg hb, Rat.intCast_inj] at heq
      omega
  · by_cases hb : b = 0
    · have heq := h (a + 1)
      rw [if_neg ha, if_pos hb, Rat.intCast_inj] at heq
      omega
    · have heq := h 0
      rw [if_neg ha, if_neg hb, Rat.intCast_inj] at heq
      exact heq

theorem sameSearch_of_fills (he : 1 ≤ orInt e.filledQuantity e.quantity)
    (he' : 1 ≤ orInt e'.filledQuantity e'.quantity)
    (h : ∀ (l : Ledger) id, (l.afterFill (some e)).fillState id =
      (l.afterFill (some e')).fillState id) : SameSearch e e' ∧ e.price = e'.price := by
  have hcode : ∀ (code side : String) (price : Int),
      codeColumn code = codeColumn e.code ∧ (e.side = "" ∨ upper side = upper e.side) ↔
        codeColumn code = codeColumn e'.code ∧ (e'.side = "" ∨ upper side = upper e'.side) := by
    intro code side price
    rw [← finds_code e code side price, ← finds_code e' code side price]
    exact finds_iff he he' h rfl
  have hfound := (hcode e.code e.side 0).mp ⟨rfl, Or.inr rfl⟩
  have hfound' := (hcode e'.code e'.side 0).mpr ⟨rfl, Or.inr rfl⟩
  refine ⟨⟨?_, ?_, ?_, hfound.1, ?_⟩, ?_⟩
  · refine eq_of_keys fun orderNo => ?_
    rw [← finds_orderNo e, ← finds_orderNo e']
    exact finds_iff he he' h rfl
  · refine eq_of_keys fun commandId => ?_
    rw [← finds_commandId e, ← finds_commandId e']
    exact finds_iff he he' h rfl
  · refine eq_of_keys fun idempotencyKey => ?_
    rw [← finds_idempotencyKey e, ← finds_idempotencyKey e']
    exact finds_iff he he' h rfl
  · -- a side that is not told is any, and an order may have none
    rcases hfound.2 with hnone | hside
    · rcases hfound'.2 with hnone' | hside
      · rw [hnone, hnone']
      · exact hside.symm
    · exact hside
  · -- an order without an average price shows the price of the execution, or else its own
    refine eq_of_orRat fun price => ?_
    have hstate := h (oneOrder (lookedFor "" "" "" e.code e.side price ackedByGateway)) 0
    rw [(fillState_oneOrder _ e).1 ((finds_code e _ _ price).mpr ⟨rfl, Or.inr rfl⟩),
      (fillState_oneOrder _ e').1 ((finds_code e' _ _ price).mpr hfound)] at hstate
    exact congrArg FillState.avgFillPrice (Option.some.inj hstate)

end TradingCore.Orders
