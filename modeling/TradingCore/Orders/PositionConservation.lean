import TradingCore.Orders.OrderTerms

/-!
# Positions and the fills of their orders

An execution reports how much of its order has been filled in total. The handler keeps the
larger total in the order, but moves the position by the reported total: a purchase raises the
position to it, a sale subtracts all of it.

`conserved_iff_accountsFor`: in every history of the pipeline each position holds what its
purchases have filled less what its sales have filled iff every execution comes in one of the
situations in which the two ways of counting agree.
-/

namespace TradingCore.Orders

open Base ManagedOrderStatus ManagedOrder Dict Restates Ledger
open Broker (GatewayCommand)

/-- The position that an order is of, by its own fields. -/
def ManagedOrder.ownPosition (order : ManagedOrder) : String :=
  orText order.positionId (orText order.details.positionId
    ("REBOOT_LIVE_SIM:" ++ order.account ++ ":" ++ order.code))

theorem SameTerms.ownPosition {a b : ManagedOrder} (h : SameTerms a b) :
    b.ownPosition = a.ownPosition := by
  unfold ManagedOrder.ownPosition
  rw [h.positionId, h.detailsPosition, h.account, h.code]

/-- The filled quantity of an order, if it is of the given side and position. -/
def ManagedOrder.filledFor (order : ManagedOrder) (side : OrderSide) (positionId : String) : Int :=
  if order.hasSide side ∧ order.ownPosition = positionId then order.filledQuantity else 0

theorem SameTerms.filledFor {a b : ManagedOrder} (h : SameTerms a b)
    (hfilled : b.filledQuantity = a.filledQuantity) (side : OrderSide) (positionId : String) :
    b.filledFor side positionId = a.filledFor side positionId := by
  unfold ManagedOrder.filledFor
  rw [h.hasSide, h.ownPosition, hfilled]

namespace Ledger

variable (l : Ledger)

def held (positionId : String) : Int :=
  ((l.liveSimPositions.get? positionId).map (·.currentQty)).getD 0

/-- What the orders of a side and position have filled. -/
def filledTotal (side : OrderSide) (positionId : String) : Int :=
  l.managedOrders.total fun order => order.filledFor side positionId

/-- Every position holds what has been bought less what has been sold, and not less than
nothing while the sales do not exceed the purchases. -/
def Conserves : Prop :=
  ∀ positionId, l.held positionId = l.filledTotal .buy positionId - l.filledTotal .sell positionId ∧
    (l.filledTotal .sell positionId ≤ l.filledTotal .buy positionId → 0 ≤ l.held positionId)

end Ledger

def BrokerExecutionEvent.reported (execution : BrokerExecutionEvent) : Int :=
  orInt execution.filledQuantity execution.quantity

/-- The situations in which the position takes an execution as its order does. One that
reports more than was known is of the order's own position; a purchase finds the position
holding just what this order had filled; a sale is the first fill of its order and covered, or
sells all that is left. One that reports nothing new finds, if it is a purchase, no less in
the position than it reports, and if it is a sale, reports zero or finds the position empty. -/
def Ledger.AccountsFor (l : Ledger) (order : ManagedOrder) (execution : BrokerExecutionEvent) :
    Prop :=
  let held := l.held (order.positionKey execution)
  let known := order.filledQuantity
  let reported := execution.reported
  if known < reported then
    order.positionKey execution = order.ownPosition ∧
      (order.hasSide .buy = true → held = known) ∧
      (order.hasSide .sell = true →
        (known = 0 ∧ reported ≤ held) ∨ (0 < known ∧ held = reported - known))
  else
    (order.hasSide .buy = true → orInt reported known ≤ held) ∧
      (order.hasSide .sell = true →
        orInt reported known = 0 ∨ (held = 0 ∧ 0 ≤ orInt reported known))

/-! ## One execution -/

theorem orInt_orInt (a b c : Int) : orInt a (orInt b c) = orInt (orInt a b) c := by
  unfold orInt
  split_ifs <;> omega

theorem raise_exact_iff (held known reported : Int) :
    max held (orInt reported (max known reported)) = held + (max known reported - known) ↔
      if known < reported then held = known else orInt reported known ≤ held := by
  unfold orInt
  split_ifs <;> omega

theorem subtract_exact_iff {held : Int} (hheld : 0 ≤ held) (known reported : Int) :
    max 0 (held - orInt reported (max known reported)) = held - (max known reported - known) ↔
      if known < reported then
        (known = 0 ∧ reported ≤ held) ∨ (0 < known ∧ held = reported - known)
      else orInt reported known = 0 ∨ (held = 0 ∧ 0 ≤ orInt reported known) := by
  unfold orInt
  split_ifs <;> omega

namespace ManagedOrder

variable {order : ManagedOrder} {execution : BrokerExecutionEvent} {side : OrderSide}

theorem hasSide_iff (h : order.side = side.text) (side' : OrderSide) :
    order.hasSide side' = true ↔ side' = side := by
  unfold hasSide
  rw [h]
  cases side <;> cases side' <;> decide

theorem positionSide_eq (h : order.side = side.text) :
    order.positionSide execution = side.text := by
  unfold positionSide orText
  rw [h]
  cases side with
  | buy => rw [if_neg (by decide)]; decide
  | sell => rw [if_neg (by decide)]; decide

theorem filledDelta_executed : (order.executed execution).filledDelta execution =
    orInt execution.reported (max order.filledQuantity execution.reported) :=
  orInt_orInt _ _ _

theorem nextQuantity_executed (h : order.side = side.text) (held : Int) :
    (order.executed execution).nextQuantity execution held =
      match side with
      | .buy => max held (orInt execution.reported (max order.filledQuantity execution.reported))
      | .sell =>
        max 0 (held - orInt execution.reported (max order.filledQuantity execution.reported)) := by
  have hside : (order.executed execution).positionSide execution = side.text := positionSide_eq h
  unfold nextQuantity
  rw [hside, filledDelta_executed]
  cases side <;> rfl

theorem nextQuantity_nonneg {held : Int} (h : 0 ≤ held) :
    0 ≤ order.nextQuantity execution held := by
  unfold nextQuantity
  split <;> omega

end ManagedOrder

namespace Ledger

variable {l : Ledger} {id : Nat} {order : ManagedOrder} {execution : BrokerExecutionEvent}

theorem held_afterExecution (positionId : String) :
    (l.afterExecution id order execution).held positionId =
      if positionId = order.positionKey execution then
        (order.executed execution).nextQuantity execution (l.held positionId)
      else l.held positionId := by
  unfold held afterExecution
  simp only
  by_cases hkey : positionId = order.positionKey execution
  · rw [if_pos hkey, hkey, get?_upsert_self]
    simp
  · rw [if_neg hkey, get?_upsert_ne _ _ hkey]

def net (l : Ledger) (positionId : String) : Int :=
  l.filledTotal .buy positionId - l.filledTotal .sell positionId

theorem conserves_iff : l.Conserves ↔ ∀ positionId, l.held positionId = l.net positionId := by
  constructor
  · exact fun h positionId => (h positionId).1
  · intro h positionId
    have heq := h positionId
    unfold net at heq
    exact ⟨heq, by omega⟩

def gain (order : ManagedOrder) (execution : BrokerExecutionEvent) : Int :=
  max order.filledQuantity execution.reported - order.filledQuantity

theorem filledTotal_afterExecution (hget : l.managedOrders.get? id = some order)
    (side : OrderSide) (positionId : String) :
    (l.afterExecution id order execution).filledTotal side positionId =
      l.filledTotal side positionId +
        if order.hasSide side ∧ order.ownPosition = positionId then gain order execution else 0 := by
  have hterms := order.executed_sameTerms execution
  have hfilled : (order.executed execution).filledQuantity =
      order.filledQuantity + gain order execution := by
    show max order.filledQuantity execution.reported = _
    unfold gain
    omega
  unfold filledTotal afterExecution
  rw [total_set_old _ _ hget]
  unfold filledFor
  rw [hterms.hasSide, hterms.ownPosition, hfilled]
  split_ifs <;> omega

theorem net_afterExecution (hget : l.managedOrders.get? id = some order) {side : OrderSide}
    (hside : order.side = side.text) (positionId : String) :
    (l.afterExecution id order execution).net positionId =
      l.net positionId + if order.ownPosition = positionId then
        (match side with | .buy => gain order execution | .sell => -gain order execution)
      else 0 := by
  unfold net
  rw [filledTotal_afterExecution hget, filledTotal_afterExecution hget]
  simp only [hasSide_iff hside]
  cases side with
  | buy =>
    simp only [reduceCtorEq, true_and, false_and, if_false]
    omega
  | sell =>
    simp only [reduceCtorEq, true_and, false_and, if_false]
    split <;> omega

theorem moved_iff (held : String → Int) (moved own : String) (next change : Int) :
    (∀ key, (if key = moved then next else held key) =
        held key + if own = key then change else 0) ↔
      if moved = own then next = held moved + change else next = held moved ∧ change = 0 := by
  by_cases hown : moved = own
  · subst hown
    rw [if_pos rfl]
    constructor
    · intro h
      have hkey := h moved
      rw [if_pos rfl, if_pos rfl] at hkey
      exact hkey
    · intro h key
      by_cases hkey : key = moved
      · rw [if_pos hkey, if_pos hkey.symm, hkey]
        exact h
      · rw [if_neg hkey, if_neg (Ne.symm hkey)]
        omega
  · rw [if_neg hown]
    constructor
    · intro h
      have hmoved := h moved
      have howned := h own
      rw [if_pos rfl, if_neg (Ne.symm hown)] at hmoved
      rw [if_neg (Ne.symm hown), if_pos rfl] at howned
      omega
    · rintro ⟨hnext, hchange⟩ key
      by_cases hkey : key = moved
      · rw [if_pos hkey, hkey, hnext, hchange]
        split <;> omega
      · rw [if_neg hkey, hchange]
        split <;> omega

theorem situation_iff {moved own : String} {known reported next held change : Int}
    {fresh repeated : Prop}
    (hexact : next = held + change ↔ if known < reported then fresh else repeated)
    (hzero : change = 0 ↔ ¬ known < reported) :
    (if moved = own then next = held + change else next = held ∧ change = 0) ↔
      if known < reported then moved = own ∧ fresh else repeated := by
  by_cases hnew : known < reported
  · have hchange : change ≠ 0 := fun h => hzero.mp h hnew
    rw [if_pos hnew] at hexact ⊢
    by_cases hown : moved = own
    · rw [if_pos hown, hexact]
      exact ⟨fun h => ⟨hown, h⟩, fun h => h.2⟩
    · rw [if_neg hown]
      exact ⟨fun h => absurd h.2 hchange, fun h => absurd h.1 hown⟩
  · have hchange : change = 0 := hzero.mpr hnew
    rw [if_neg hnew] at hexact ⊢
    rw [← hexact, hchange]
    split
    · rfl
    · constructor
      · intro h
        omega
      · intro h
        exact ⟨by omega, rfl⟩

theorem conserves_afterExecution_iff (hget : l.managedOrders.get? id = some order)
    {side : OrderSide} (hside : order.side = side.text) (hnonneg : ∀ key, 0 ≤ l.held key)
    (hl : l.Conserves) :
    (l.afterExecution id order execution).Conserves ↔ l.AccountsFor order execution := by
  have hheld := hnonneg (order.positionKey execution)
  have hmoved : (l.afterExecution id order execution).Conserves ↔
      ∀ key, (if key = order.positionKey execution then
          (order.executed execution).nextQuantity execution (l.held (order.positionKey execution))
        else l.held key) = l.held key + if order.ownPosition = key then
          (match side with | .buy => gain order execution | .sell => -gain order execution)
        else 0 := by
    rw [conserves_iff]
    refine forall_congr' fun key => ?_
    rw [held_afterExecution, net_afterExecution hget hside, conserves_iff.mp hl key]
    by_cases hkey : key = order.positionKey execution
    · rw [if_pos hkey, if_pos hkey, ← hkey, conserves_iff.mp hl key]
    · rw [if_neg hkey, if_neg hkey]
  rw [hmoved, moved_iff, nextQuantity_executed hside]
  unfold AccountsFor
  simp only [hasSide_iff hside]
  cases side with
  | buy =>
    simp only [reduceCtorEq, forall_const, false_implies, and_true]
    refine situation_iff (raise_exact_iff _ _ _) ?_
    unfold gain
    omega
  | sell =>
    simp only [reduceCtorEq, forall_const, false_implies, true_and]
    refine situation_iff ?_ ?_
    · unfold gain
      rw [← Int.sub_eq_add_neg]
      exact subtract_exact_iff hheld _ _
    · unfold gain
      omega

end Ledger

namespace OrderManagerRuntimePipeline

variable {config : OrderManagerSettings} {digest : GatewayCommand → String}

/-- The tables are well kept and no position is negative. -/
structure Sound (p : OrderManagerRuntimePipeline) : Prop extends WellKept p where
  nonneg : ∀ positionId, 0 ≤ p.db.held positionId

/-- An execution comes in one of the situations in which its position takes it as its order
does. -/
def ExecutionAccounts (p : OrderManagerRuntimePipeline) : Action → Prop
  | .applyEvent canonicalType payload _ =>
      canonicalType ∈ fillTypes → ∀ id order,
        p.db.findExecutionOrder (.fromDict payload) = some (id, order) →
          p.db.AccountsFor order (.fromDict payload)
  | _ => True

/-! ## The other actions -/

structure Unmoved (l l' : Ledger) : Prop where
  filledTotal : ∀ side positionId, l'.filledTotal side positionId = l.filledTotal side positionId
  positions : l'.liveSimPositions = l.liveSimPositions

variable {l : Ledger} {p : OrderManagerRuntimePipeline}

variable {l' : Ledger} {canonicalType : CanonicalType}

theorem Unmoved.held (h : Unmoved l l') (positionId : String) :
    l'.held positionId = l.held positionId := by
  unfold Ledger.held
  rw [h.positions]

theorem Unmoved.conserves (h : Unmoved l l') (hl : l.Conserves) : l'.Conserves := by
  intro positionId
  rw [h.held, h.filledTotal, h.filledTotal]
  exact hl positionId

theorem Restates.unmoved (h : Restates l l') :
    Unmoved l l' where
  filledTotal side positionId :=
    h.total fun _ _ hab => hab.filledFor hab.filledQuantity side positionId
  positions := (h.get? 0).2.2

theorem unmoved_new {id : Nat} {order : ManagedOrder} (hnew : l.managedOrders.get? id = none)
    (hfilled : order.filledQuantity = 0) :
    Unmoved l { l with managedOrders := l.managedOrders.set id order } where
  filledTotal side positionId := by
    have hzero : order.filledFor side positionId = 0 := by
      unfold filledFor
      rw [hfilled]
      split <;> rfl
    show (l.managedOrders.set id order).total _ = _
    rw [total_set_new _ _ hnew, hzero]
    exact Int.add_zero _
  positions := rfl

theorem unmoved_processIntent (hp : p.WellKept) (cycle : Cycle) (killSwitchState : KillSwitchState)
    (intent : ManagedOrderIntent) :
    Unmoved p.db.toLedger
      (p.processIntent config digest cycle killSwitchState intent).1.db.toLedger := by
  have hspec := processIntent_spec config digest p cycle killSwitchState intent
  generalize p.processIntent config digest cycle killSwitchState intent = result at hspec ⊢
  cases hspec with
  | known _ => exact ⟨fun _ _ => rfl, rfl⟩
  | stopped _ => exact ⟨fun _ _ => rfl, rfl⟩
  | blocked hnew _ => exact unmoved_new (hp.new_id hnew) rfl
  | sent _ _ hnew _ _ _ => exact unmoved_new (hp.new_id hnew) rfl

theorem unmoved_afterEvent {payload : OrderPayload} (h : ∀ id order, canonicalType ∈ fillTypes →
      l.findExecutionOrder (.fromDict payload) ≠ some (id, order)) :
    Unmoved l (l.afterEvent canonicalType payload) := by
  unfold afterEvent
  split
  · split
    · exact ⟨fun _ _ => rfl, rfl⟩
    · rename_i ack _ _ id order hfound
      have hget := ackedOrder_spec hfound
      refine ⟨fun side positionId => ?_, rfl⟩
      have hshare := (order.acked_sameTerms ack).filledFor rfl side positionId
      show (l.managedOrders.set id (order.acked ack)).total _ = _
      rw [total_set_old _ _ hget, hshare]
      exact Int.sub_add_cancel _ _
  · split
    · rename_i hfill
      split
      · exact ⟨fun _ _ => rfl, rfl⟩
      · rename_i id order hfound
        exact absurd hfound (h id order hfill)
    · exact ⟨fun _ _ => rfl, rfl⟩

/-! ## Histories -/

theorem afterEvent_of_execution {payload : OrderPayload} {id : Nat} {order : ManagedOrder}
    (hfill : canonicalType ∈ fillTypes)
    (hfound : l.findExecutionOrder (.fromDict payload) = some (id, order)) :
    l.afterEvent canonicalType payload = l.afterExecution id order (.fromDict payload) := by
  have hack : ackPayload canonicalType payload = none := by
    cases canonicalType with
    | orderPartiallyFilled => rfl
    | orderFilled => rfl
    | _ => exact absurd hfill (by decide)
  unfold afterEvent
  rw [hack]
  simp only [if_pos hfill, hfound]

theorem Sound.act (hp : p.Sound) (action : Action) : (p.act config digest action).1.Sound := by
  refine ⟨hp.toWellKept.act action, ?_⟩
  have hunmoved : ∀ l', Unmoved p.db.toLedger l' → ∀ positionId, 0 ≤ l'.held positionId := by
    intro l' h positionId
    rw [h.held]
    exact hp.nonneg positionId
  cases action with
  | begin cycle => exact hunmoved _ (Restates.unmoved (begin_restates config digest p cycle))
  | processIntent cycle killSwitchState intent =>
    exact hunmoved _ (unmoved_processIntent hp.toWellKept cycle killSwitchState intent)
  | cancelUnfilled cycle =>
    exact hunmoved _ (Restates.unmoved (cancelUnfilled_restates config digest p cycle).2.2)
  | markReconcileRequired reason payload today => exact hunmoved _ (Restates.unmoved (.refl _))
  | gateway state => exact hunmoved _ (Restates.unmoved (.refl _))
  | applyEvent canonicalType payload today =>
    rw [toLedger_applyEvent]
    by_cases hfill : canonicalType ∈ fillTypes
    · cases hfound : p.db.findExecutionOrder (.fromDict payload) with
      | none =>
        refine hunmoved _ (unmoved_afterEvent fun id order _ h => ?_)
        rw [hfound] at h
        cases h
      | some found =>
        intro positionId
        rw [afterEvent_of_execution hfill hfound, held_afterExecution]
        split
        · exact nextQuantity_nonneg (hp.nonneg positionId)
        · exact hp.nonneg positionId
    · exact hunmoved _ (unmoved_afterEvent fun _ _ h => absurd h hfill)

theorem conserves_act_iff (hp : p.Sound) (hl : p.db.toLedger.Conserves) (action : Action) :
    (p.act config digest action).1.db.toLedger.Conserves ↔ p.ExecutionAccounts action := by
  cases action with
  | begin cycle =>
    exact iff_of_true ((Restates.unmoved (begin_restates config digest p cycle)).conserves hl)
      trivial
  | processIntent cycle killSwitchState intent =>
    exact iff_of_true ((unmoved_processIntent hp.toWellKept cycle killSwitchState intent).conserves
      hl) trivial
  | cancelUnfilled cycle =>
    exact iff_of_true ((Restates.unmoved
      (cancelUnfilled_restates config digest p cycle).2.2).conserves hl) trivial
  | markReconcileRequired reason payload today => exact iff_of_true hl trivial
  | gateway state => exact iff_of_true hl trivial
  | applyEvent canonicalType payload today =>
    rw [toLedger_applyEvent]
    unfold ExecutionAccounts
    by_cases hfill : canonicalType ∈ fillTypes
    · cases hfound : p.db.findExecutionOrder (.fromDict payload) with
      | none =>
        refine iff_of_true ((unmoved_afterEvent fun id order _ h => ?_).conserves hl) ?_
        · rw [hfound] at h
          cases h
        · intro _ id order h
          rw [hfound] at h
          cases h
      | some found =>
        have hget := findExecutionOrder_spec hfound
        obtain ⟨side, hside⟩ := hp.sided hget
        rw [afterEvent_of_execution hfill hfound,
          conserves_afterExecution_iff hget hside hp.nonneg hl]
        constructor
        · intro h _ id order heq
          rw [hfound] at heq
          injection heq with heq
          rw [heq] at h
          exact h
        · exact fun h => h hfill found.1 found.2 hfound
    · exact iff_of_true ((unmoved_afterEvent fun _ _ h => absurd h hfill).conserves hl)
        fun h => absurd h hfill

/-- In every history of the pipeline each position holds what its purchases have filled less
what its sales have filled iff every execution comes in one of the situations in which its
position takes it as its order does. -/
theorem conserved_iff_accountsFor (config : OrderManagerSettings)
    (digest : GatewayCommand → String) (calls : List Call) :
    (machine config digest).Always (fun p => p.db.toLedger.Conserves) {}
        (actions config digest {} calls) ↔
      (machine config digest).Guarded ExecutionAccounts {} (actions config digest {} calls) := by
  refine Machine.always_iff_guarded (I := Sound) ?_ ?_ ?_ ?_
  · intro p action hp _ _
    exact hp.act action
  · intro p action hp hl
    exact conserves_act_iff hp hl action
  · exact ⟨wellKept_empty, fun positionId => Int.le_refl 0⟩
  · exact fun positionId => ⟨rfl, fun _ => Int.le_refl 0⟩

/-- Two purchases of one share are filled, and the position holds one share. -/
theorem add_on_fill_lost :
    ¬ ∀ (config : OrderManagerSettings) (digest : GatewayCommand → String) (calls : List Call),
      (machine config digest).Always (fun p => p.db.toLedger.Conserves) {}
        (actions config digest {} calls) := by
  intro h
  have hrun := Machine.always_iff_prefix.mp (h addOnSettings (fun _ => "")
    [.run readyCycle, oneShareFilled, .run addOnCycle, oneShareFilled]) _ (List.prefix_refl _)
  obtain ⟨heq, -⟩ := hrun "REBOOT_LIVE_SIM:12345678:200001"
  exact absurd heq (by decide +kernel)

end OrderManagerRuntimePipeline

end TradingCore.Orders
