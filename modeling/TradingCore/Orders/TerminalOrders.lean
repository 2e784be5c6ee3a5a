import TradingCore.Orders.OrderTerms

/-!
# Finished orders

An order is finished when it is filled, cancelled or rejected. The handler of
acknowledgements only keeps an order that is filled or cancelled from being acknowledged
again; any other answer overwrites what it finds, and an execution overwrites a cancelled or
rejected order also when it brings nothing new.

`finished_kept_iff_agree`: in every history of the pipeline the finished orders stay as they
are iff every event agrees with the finished order that it finds.
-/

namespace TradingCore.Orders

open Base ManagedOrderStatus
open Broker (GatewayCommand)

/-- What becomes of an order: a filled one stays filled, and a cancelled or rejected one
stays so unless an execution increases its filled quantity. -/
def StaysFinished (executes : Prop) (order order' : ManagedOrder) : Prop :=
  (order.status = filled → order'.status = filled) ∧
    (order.status = cancelled ∨ order.status = rejectedByGateway →
      order'.status = order.status ∨ executes ∧ order.filledQuantity < order'.filledQuantity)

/-- An acknowledgement says of a finished order what the order says itself, or only that it
was accepted. -/
def OrderPayload.AgreesWith (ack : OrderPayload) (order : ManagedOrder) : Prop :=
  (order.status = filled → ack.ackedStatus = ackedByGateway) ∧
    (order.status = cancelled → ack.ackedStatus = ackedByGateway ∨ ack.ackedStatus = cancelled) ∧
    (order.status = rejectedByGateway → ack.ackedStatus = rejectedByGateway)

/-- An execution of a cancelled or rejected order reports more than was known. -/
def BrokerExecutionEvent.AgreesWith (execution : BrokerExecutionEvent) (order : ManagedOrder) :
    Prop :=
  order.status = cancelled ∨ order.status = rejectedByGateway →
    order.filledQuantity < orInt execution.filledQuantity execution.quantity

theorem ManagedOrder.acked_staysFinished_iff (order : ManagedOrder) (ack : OrderPayload)
    (executes : Prop) :
    StaysFinished executes order (order.acked ack) ↔ ack.AgreesWith order := by
  have hfilled : (order.acked ack).filledQuantity = order.filledQuantity := rfl
  have hstatus : (order.acked ack).status = order.statusAfterAck ack := rfl
  unfold StaysFinished OrderPayload.AgreesWith
  rw [hfilled, hstatus]
  unfold statusAfterAck
  cases hs : order.status with
  | filled =>
    simp only [reduceCtorEq, forall_const, false_or, false_implies, and_true]
    split
    · rename_i h
      simp [h.1]
    · rename_i h
      have hne : ¬ ack.ackedStatus = ackedByGateway := fun heq => h ⟨heq, by simp⟩
      simp [hne, ack.ackedStatus_ne_filled]
  | cancelled =>
    simp only [reduceCtorEq, forall_const, false_implies, true_and, and_true,
      Int.lt_irrefl, and_false, or_false]
    split
    · rename_i h
      simp [h.1]
    · rename_i h
      have hne : ¬ ack.ackedStatus = ackedByGateway := fun heq => h ⟨heq, by simp⟩
      simp [hne]
  | rejectedByGateway =>
    simp only [reduceCtorEq, or_true, forall_const, false_implies, true_and,
      Int.lt_irrefl, and_false, or_false]
    split
    · rename_i h
      simp at h
    · rfl
  | _ => simp

theorem ManagedOrder.executed_staysFinished_iff {order : ManagedOrder}
    (hfull : order.status = filled → order.quantity ≤ order.filledQuantity)
    (execution : BrokerExecutionEvent) :
    StaysFinished True order (order.executed execution) ↔ execution.AgreesWith order := by
  have hfilled : (order.executed execution).filledQuantity =
      max order.filledQuantity (orInt execution.filledQuantity execution.quantity) := rfl
  have hstatus : (order.executed execution).status = filled ∨
      (order.executed execution).status = partiallyFilled := ite_eq_or_eq _ _ _
  unfold StaysFinished BrokerExecutionEvent.AgreesWith
  rw [hfilled]
  constructor
  · rintro ⟨_, hother⟩ hfinished
    rcases hother hfinished with heq | ⟨_, hlt⟩
    · -- an execution leaves neither a cancelled nor a rejected order behind
      rw [heq] at hstatus
      rcases hfinished with h | h <;> rw [h] at hstatus <;> simp at hstatus
    · omega
  · intro hagrees
    refine ⟨?_, ?_⟩
    · intro hs
      have hfull' := hfull hs
      have hzero : order.remainingAfter execution ≤ 0 := by
        have hpos := order.quantity_pos
        unfold remainingAfter filledAfter
        simp only [hpos, if_true]
        omega
      show (if order.remainingAfter execution ≤ 0 then filled else partiallyFilled) = filled
      rw [if_pos hzero]
    · intro hfinished
      have hlt := hagrees hfinished
      refine .inr ⟨trivial, ?_⟩
      omega

namespace OrderManagerRuntimePipeline

variable {config : OrderManagerSettings} {digest : GatewayCommand → String}

def Action.Executes : Action → Prop
  | .applyEvent canonicalType _ _ => canonicalType ∈ fillTypes
  | _ => False

/-- The action leaves every finished order as it is. -/
def KeepsFinished (config : OrderManagerSettings) (digest : GatewayCommand → String)
    (p : OrderManagerRuntimePipeline) (action : Action) : Prop :=
  ∀ id order, p.db.managedOrders.get? id = some order →
    ∃ order', (p.act config digest action).1.db.managedOrders.get? id = some order' ∧
      StaysFinished action.Executes order order'

/-- An event agrees with the order that it finds, if that order is finished. -/
def EventAgrees (p : OrderManagerRuntimePipeline) : Action → Prop
  | .applyEvent canonicalType payload _ =>
      match ackPayload canonicalType payload with
      | some ack => ∀ id order, p.db.ackedOrder ack = some (id, order) → ack.AgreesWith order
      | none => canonicalType ∈ fillTypes → ∀ id order,
          p.db.findExecutionOrder (.fromDict payload) = some (id, order) →
            (BrokerExecutionEvent.fromDict payload).AgreesWith order
  | _ => True

theorem staysFinished_rfl (executes : Prop) (order : ManagedOrder) :
    StaysFinished executes order order := ⟨fun h => h, fun _ => .inl rfl⟩

theorem Restated.staysFinished {a b : ManagedOrder} (h : Restated a b) (executes : Prop) :
    StaysFinished executes a b := by
  rcases h.status with heq | ⟨hwaits, _⟩
  · exact ⟨fun hs => heq.trans hs, fun _ => .inl heq⟩
  · have hin := of_decide_eq_true hwaits
    refine ⟨fun hs => ?_, fun hs => ?_⟩
    · rw [hs] at hin
      simp at hin
    · rcases hs with hs | hs <;> rw [hs] at hin <;> simp at hin

variable {p : OrderManagerRuntimePipeline}

theorem keepsFinished_of_restates {action : Action}
    (h : Restates p.db.toLedger (p.act config digest action).1.db.toLedger) :
    KeepsFinished config digest p action := by
  intro id order hget
  obtain ⟨order', hget', hrestated⟩ := (h.get? id).1 order hget
  exact ⟨order', hget', Restated.staysFinished hrestated _⟩

theorem keepsFinished_processIntent (hp : p.WellKept) (cycle : Cycle)
    (killSwitchState : KillSwitchState) (intent : ManagedOrderIntent) :
    KeepsFinished config digest p (.processIntent cycle killSwitchState intent) := by
  intro id order hget
  refine ⟨order, ?_, staysFinished_rfl _ order⟩
  show (p.processIntent config digest cycle killSwitchState intent).1.db.managedOrders.get? id = _
  have hspec := processIntent_spec config digest p cycle killSwitchState intent
  generalize p.processIntent config digest cycle killSwitchState intent = result at hspec ⊢
  -- the new row has an id of its own
  have hne : p.intents.get? intent.idempotencyKey = none →
      id ≠ p.db.orderIdFor intent.idempotencyKey := by
    intro hnew heq
    have hnone := hp.new_id hnew
    rw [← heq, hget] at hnone
    cases hnone
  cases hspec with
  | known _ => exact hget
  | stopped _ => exact hget
  | blocked hnew _ => exact (Dict.get?_set_ne _ _ (hne hnew)).trans hget
  | sent _ _ hnew _ _ _ => exact (Dict.get?_set_ne _ _ (hne hnew)).trans hget

theorem keepsFinished_applyEvent_iff (hp : p.WellKept) (canonicalType : CanonicalType)
    (payload : OrderPayload) (today : String) :
    KeepsFinished config digest p (.applyEvent canonicalType payload today) ↔
      p.EventAgrees (.applyEvent canonicalType payload today) := by
  unfold KeepsFinished EventAgrees
  rw [toLedger_applyEvent]
  unfold Ledger.afterEvent
  dsimp only
  have hunchanged : ∀ executes : Prop, ∀ id order, p.db.managedOrders.get? id = some order →
      ∃ order', p.db.managedOrders.get? id = some order' ∧ StaysFinished executes order order' :=
    fun executes id order hget => ⟨order, hget, staysFinished_rfl executes order⟩
  cases hack : ackPayload canonicalType payload with
  | some ack =>
    simp only
    cases hfound : p.db.ackedOrder ack with
    | none =>
      simp only [reduceCtorEq, false_implies, implies_true, iff_true]
      exact hunchanged _
    | some found =>
      have hget := Ledger.ackedOrder_spec hfound
      refine (Dict.forall_set_iff hget (staysFinished_rfl _)).trans ?_
      rw [found.2.acked_staysFinished_iff ack]
      constructor
      · intro h id order heq
        injection heq with heq
        rw [heq] at h
        exact h
      · exact fun h => h found.1 found.2 rfl
  | none =>
    simp only
    by_cases hfill : canonicalType ∈ fillTypes
    · have hexecutes : Action.Executes (.applyEvent canonicalType payload today) = True :=
        eq_true hfill
      simp only [hfill, forall_const, hexecutes]
      cases hfound : p.db.findExecutionOrder (.fromDict payload) with
      | none =>
        simp only [reduceCtorEq, false_implies, implies_true, iff_true]
        exact hunchanged _
      | some found =>
        have hget := Ledger.findExecutionOrder_spec hfound
        refine (Dict.forall_set_iff hget (staysFinished_rfl _)).trans ?_
        rw [ManagedOrder.executed_staysFinished_iff (hp.filledInFull hget)]
        constructor
        · intro h id order heq
          injection heq with heq
          rw [heq] at h
          exact h
        · exact fun h => h found.1 found.2 rfl
    · simp only [hfill, false_implies, iff_true]
      exact hunchanged _

theorem keepsFinished_iff (hp : p.WellKept) (action : Action) :
    KeepsFinished config digest p action ↔ p.EventAgrees action := by
  cases action with
  | applyEvent canonicalType payload today => exact keepsFinished_applyEvent_iff hp _ _ _
  | begin cycle => exact iff_of_true (keepsFinished_of_restates (begin_restates config digest p cycle)) trivial
  | cancelUnfilled cycle =>
    exact iff_of_true (keepsFinished_of_restates (cancelUnfilled_restates config digest p cycle).2.2) trivial
  | processIntent cycle killSwitchState intent =>
    exact iff_of_true (keepsFinished_processIntent hp cycle killSwitchState intent) trivial
  | markReconcileRequired reason payload today =>
    exact iff_of_true (keepsFinished_of_restates (.refl _)) trivial
  | gateway state => exact iff_of_true (keepsFinished_of_restates (.refl _)) trivial

/-- In every history of the pipeline, cycles and events in any order, no step changes a
finished order iff every event agrees with the finished order that it finds. -/
theorem finished_kept_iff_agree (config : OrderManagerSettings)
    (digest : GatewayCommand → String) (calls : List Call) :
    (machine config digest).Guarded (KeepsFinished config digest) {}
        (actions config digest {} calls) ↔
      (machine config digest).Guarded EventAgrees {} (actions config digest {} calls) := by
  refine Machine.guarded_iff_guarded (I := WellKept) ?_ ?_ wellKept_empty
  · intro p action hp _
    exact hp.act action
  · intro p action hp
    exact keepsFinished_iff hp action

/-- A purchase is filled, and a late failure of its command makes a rejected order of it. -/
theorem late_failure_rejects_filled :
    ¬ ∀ (config : OrderManagerSettings) (digest : GatewayCommand → String) (calls : List Call),
      (machine config digest).Guarded (KeepsFinished config digest) {}
        (actions config digest {} calls) := by
  intro h
  have hrun := h sendingSettings (fun _ => "")
    [.run readyCycle,
      .applyEvent .orderFilled
        { code := "200001", quantity := 1, filledQuantity := 1, side := "BUY" } "2026-06-18",
      .applyEvent .commandFailed
        { commandId := "buy:2026-06-18::200001:7:1000" } "2026-06-18"]
  -- the third call meets the filled order
  obtain ⟨order', hget', hkeep, -⟩ := hrun.2.2.2.2.1 1 _ rfl
  injection hget' with heq
  have hfilled := hkeep rfl
  rw [← heq] at hfilled
  exact absurd hfilled (by decide)

end OrderManagerRuntimePipeline

end TradingCore.Orders
