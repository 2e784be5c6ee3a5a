import TradingCore.Orders.OrderManagerLemmas
import TradingCore.Orders.ReplayLemmas

/-!
# What stays the same about an order

No action changes the terms of an order (`SameTerms`): its side, code, quantity, position and
idempotency key. The pipeline keeps its tables well (`WellKept`): every order comes from a
known intent, no two orders from the same one, a filled order is filled in full, and each
order is a purchase or a sale. Hence an intent that passes makes a new row.
-/

namespace TradingCore.Orders

open Base ManagedOrderStatus Dict
open Broker (GatewayCommand GatewayStateStore)

structure SameTerms (a b : ManagedOrder) : Prop where
  tradeDate : b.tradeDate = a.tradeDate
  side : b.side = a.side
  code : b.code = a.code
  account : b.account = a.account
  quantity : b.quantity = a.quantity
  positionId : b.positionId = a.positionId
  detailsPosition : b.details.positionId = a.details.positionId
  idempotencyKey : b.idempotencyKey = a.idempotencyKey

namespace SameTerms

variable {a : ManagedOrder}

theorem rfl : SameTerms a a :=
  ⟨Eq.refl _, Eq.refl _, Eq.refl _, Eq.refl _, Eq.refl _, Eq.refl _, Eq.refl _, Eq.refl _⟩

theorem trans {b c : ManagedOrder} (hab : SameTerms a b) (hbc : SameTerms b c) :
    SameTerms a c where
  tradeDate := hbc.tradeDate.trans hab.tradeDate
  side := hbc.side.trans hab.side
  code := hbc.code.trans hab.code
  account := hbc.account.trans hab.account
  quantity := hbc.quantity.trans hab.quantity
  positionId := hbc.positionId.trans hab.positionId
  detailsPosition := hbc.detailsPosition.trans hab.detailsPosition
  idempotencyKey := hbc.idempotencyKey.trans hab.idempotencyKey

theorem hasSide {b : ManagedOrder} (h : SameTerms a b) (side : OrderSide) :
    b.hasSide side = a.hasSide side := by
  unfold ManagedOrder.hasSide
  rw [h.side]

end SameTerms

theorem ManagedOrder.acked_sameTerms (order : ManagedOrder) (payload : OrderPayload) :
    SameTerms order (order.acked payload) :=
  ⟨rfl, rfl, rfl, rfl, rfl, rfl, rfl, rfl⟩

theorem ManagedOrder.executed_sameTerms (order : ManagedOrder)
    (execution : BrokerExecutionEvent) : SameTerms order (order.executed execution) :=
  ⟨rfl, rfl, rfl, rfl, rfl, rfl, rfl, rfl⟩

theorem ManagedOrder.restated_sameTerms (order : ManagedOrder) (status : ManagedOrderStatus)
    (commandId : String) : SameTerms order { order with status, commandId } :=
  ⟨rfl, rfl, rfl, rfl, rfl, rfl, rfl, rfl⟩

/-! ## A cycle and the orders that are there -/

/-- What a cycle can do to an order that is there: give it another status while it waits. -/
structure Restated (a b : ManagedOrder) : Prop extends SameTerms a b where
  filledQuantity : b.filledQuantity = a.filledQuantity
  remainingQuantity : b.remainingQuantity = a.remainingQuantity
  status : b.status = a.status ∨ a.status.waiting = true ∧
    (b.status = reconcileRequired ∨ b.status = cancelPending)

theorem Restated.rfl {a : ManagedOrder} : Restated a a :=
  { toSameTerms := .rfl, filledQuantity := Eq.refl _, remainingQuantity := Eq.refl _
    status := .inl (Eq.refl _) }

variable {l : Ledger} {intent : ManagedOrderIntent}

theorem Restates.get? {l' : Ledger} (h : Restates l l') (id : Nat) :
    (∀ order, l.managedOrders.get? id = some order →
      ∃ order', l'.managedOrders.get? id = some order' ∧ Restated order order') ∧
    (l.managedOrders.get? id = none → l'.managedOrders.get? id = none) ∧
    l'.liveSimPositions = l.liveSimPositions := by
  induction h with
  | refl l => exact ⟨fun order h => ⟨order, h, .rfl⟩, fun h => h, rfl⟩
  | step id' order status commandId hget hwaits hstatus hrest ih =>
    obtain ⟨hsome, hnone, hpositions⟩ := ih
    refine ⟨?_, ?_, hpositions⟩
    · intro order₀ hget₀
      by_cases hid : id = id'
      · subst hid
        rw [hget] at hget₀
        injection hget₀ with heq
        subst heq
        obtain ⟨order', hget', hstep⟩ := hsome _ (get?_set_self _ _ _)
        refine ⟨order', hget', ?_⟩
        exact
          { toSameTerms := (order.restated_sameTerms status commandId).trans hstep.toSameTerms
            filledQuantity := hstep.filledQuantity
            remainingQuantity := hstep.remainingQuantity
            status := .inr ⟨hwaits, by
              rcases hstep.status with h | ⟨_, h⟩
              · rw [h]
                exact hstatus
              · exact h⟩ }
      · exact hsome order₀ ((get?_set_ne _ _ hid).trans hget₀)
    · intro hget₀
      have hid : id ≠ id' := by
        rintro rfl
        rw [hget] at hget₀
        cases hget₀
      exact hnone ((get?_set_ne _ _ hid).trans hget₀)

theorem ManagedOrder.restated {order : ManagedOrder} {status : ManagedOrderStatus}
    (commandId : String) (hwaits : order.status.waiting = true)
    (hstatus : status = reconcileRequired ∨ status = cancelPending) :
    Restated order { order with status, commandId } :=
  { toSameTerms := order.restated_sameTerms status commandId
    filledQuantity := rfl
    remainingQuantity := rfl
    status := .inr ⟨hwaits, hstatus⟩ }

theorem Restates.total {share : ManagedOrder → Int}
    (hshare : ∀ a b, Restated a b → share b = share a) {l' : Ledger} (h : Restates l l') :
    l'.managedOrders.total share = l.managedOrders.total share := by
  induction h with
  | refl l => rfl
  | step id order status commandId hget hwaits hstatus hrest ih =>
    rw [ih]
    have hsame := hshare _ _ (order.restated commandId hwaits hstatus)
    show (set _ id _).total share = _
    rw [total_set_old share _ hget]
    omega

/-! ## New orders -/

theorem hasSide_localOrder (cycle : Cycle) (h : 0 < intent.quantity) (side : OrderSide) :
    (intent.localOrder cycle h).hasSide side = true ↔ intent.side = side := by
  have hside : (intent.localOrder cycle h).side = intent.side.text := rfl
  unfold ManagedOrder.hasSide
  rw [hside]
  cases intent.side <;> cases side <;> decide

theorem hasSide_processedOrder (cycle : Cycle) (h : 0 < intent.quantity)
    (status : ManagedOrderStatus) (commandId : String) (side : OrderSide) :
    (intent.processedOrder cycle h status commandId).hasSide side = true ↔ intent.side = side :=
  hasSide_localOrder cycle h side


theorem le_foldl_max (ids : List Nat) (m : Nat) :
    m ≤ ids.foldl max m ∧ ∀ id ∈ ids, id ≤ ids.foldl max m := by
  induction ids generalizing m with
  | nil => exact ⟨Nat.le_refl m, fun id h => absurd h List.not_mem_nil⟩
  | cons i rest ih =>
    obtain ⟨hle, hall⟩ := ih (max m i)
    rw [List.foldl_cons]
    refine ⟨by omega, ?_⟩
    intro id hid
    rcases List.mem_cons.mp hid with h | h
    · omega
    · exact hall id h

theorem Ledger.orderIdFor_new {idempotencyKey : String}
    (h : ∀ id order, l.managedOrders.get? id = some order → order.idempotencyKey ≠ idempotencyKey) :
    l.managedOrders.get? (l.orderIdFor idempotencyKey) = none := by
  unfold orderIdFor
  cases hfind : l.findManagedOrderByIdempotency idempotencyKey with
  | some found =>
    obtain ⟨hget, hkey⟩ := latest?_spec hfind
    exact absurd (of_decide_eq_true hkey) (h _ _ hget)
  | none =>
    refine get?_eq_none.mpr ?_
    intro hmem
    have hle := (le_foldl_max l.managedOrders.keys 0).2 _ hmem
    simp only at hle
    omega

namespace OrderManagerRuntimePipeline

/-! ## Well-kept tables -/

/-- Every order comes from a known intent, no two of them from the same one, a filled order is
filled in full, and each of them is a purchase or a sale. -/
structure WellKept (p : OrderManagerRuntimePipeline) : Prop where
  known : ∀ {id order}, p.db.managedOrders.get? id = some order →
    p.intents.contains order.idempotencyKey = true
  distinct : ∀ {id id' order order'}, p.db.managedOrders.get? id = some order →
    p.db.managedOrders.get? id' = some order' →
    order.idempotencyKey = order'.idempotencyKey → id = id'
  filledInFull : ∀ {id order}, p.db.managedOrders.get? id = some order →
    order.status = filled → order.quantity ≤ order.filledQuantity
  sided : ∀ {id order}, p.db.managedOrders.get? id = some order →
    ∃ side : OrderSide, order.side = side.text

theorem wellKept_empty : WellKept {} where
  known h := nomatch h
  distinct h := nomatch h
  filledInFull h := nomatch h
  sided h := nomatch h

variable {p : OrderManagerRuntimePipeline}

theorem WellKept.new_id (hp : p.WellKept) {idempotencyKey : String}
    (h : p.intents.get? idempotencyKey = none) :
    p.db.managedOrders.get? (p.db.orderIdFor idempotencyKey) = none := by
  refine Ledger.orderIdFor_new ?_
  intro id order hget heq
  have hknown := hp.known hget
  rw [heq, contains_iff] at hknown
  obtain ⟨_, hknown⟩ := hknown
  rw [h] at hknown
  cases hknown

variable {p' : OrderManagerRuntimePipeline}

theorem WellKept.of_orders (hp : p.WellKept) (hintents : p'.intents = p.intents)
    (horders : ∀ id order', p'.db.managedOrders.get? id = some order' →
      ∃ order, p.db.managedOrders.get? id = some order ∧ SameTerms order order' ∧
        (order'.status = filled → order'.quantity ≤ order'.filledQuantity)) :
    p'.WellKept where
  known h := by
    obtain ⟨order, hget, hterms, _⟩ := horders _ _ h
    rw [hintents, hterms.idempotencyKey]
    exact hp.known hget
  distinct h h' heq := by
    obtain ⟨order, hget, hterms, _⟩ := horders _ _ h
    obtain ⟨order', hget', hterms', _⟩ := horders _ _ h'
    rw [hterms.idempotencyKey, hterms'.idempotencyKey] at heq
    exact hp.distinct hget hget' heq
  filledInFull h hfilled := by
    obtain ⟨_, _, _, hfull⟩ := horders _ _ h
    exact hfull hfilled
  sided h := by
    obtain ⟨order, hget, hterms, _⟩ := horders _ _ h
    rw [hterms.side]
    exact hp.sided hget

theorem WellKept.of_new (hp : p.WellKept) {intent : ManagedOrderIntent} {id : Nat}
    {order : ManagedOrder} (hnew : p.intents.get? intent.idempotencyKey = none)
    (hintents : p'.intents = p.intents.set intent.idempotencyKey intent)
    (horders : p'.db.managedOrders = p.db.managedOrders.set id order)
    (hkey : order.idempotencyKey = intent.idempotencyKey) (hstatus : order.status ≠ filled)
    (hside : order.side = intent.side.text) : p'.WellKept := by
  have hne : ∀ {id' order'}, p.db.managedOrders.get? id' = some order' →
      order'.idempotencyKey ≠ intent.idempotencyKey := by
    intro id' order' hget heq
    have hknown := hp.known hget
    rw [heq, contains_iff] at hknown
    obtain ⟨_, hknown⟩ := hknown
    rw [hnew] at hknown
    cases hknown
  have hcases : ∀ {id' order'}, p'.db.managedOrders.get? id' = some order' →
      id' = id ∧ order' = order ∨ p.db.managedOrders.get? id' = some order' := by
    intro id' order' hget
    rw [horders, get?_set] at hget
    split at hget
    · rename_i heq
      injection hget with heq'
      exact .inl ⟨heq, heq'.symm⟩
    · exact .inr hget
  refine ⟨?_, ?_, ?_, ?_⟩
  · intro id' order' hget
    rw [hintents, contains_iff]
    rcases hcases hget with ⟨_, rfl⟩ | hget
    · exact ⟨intent, by rw [hkey, get?_set_self]⟩
    · obtain ⟨v, hv⟩ := contains_iff.mp (hp.known hget)
      exact ⟨v, (get?_set_ne _ _ (hne hget)).trans hv⟩
  · intro id₁ id₂ order₁ order₂ h₁ h₂ heq
    rcases hcases h₁ with ⟨rfl, rfl⟩ | h₁
    · rcases hcases h₂ with ⟨rfl, _⟩ | h₂
      · rfl
      · exact absurd (heq.symm.trans hkey) (hne h₂)
    · rcases hcases h₂ with ⟨rfl, rfl⟩ | h₂
      · exact absurd (heq.trans hkey) (hne h₁)
      · exact hp.distinct h₁ h₂ heq
  · intro id' order' hget hfilled
    rcases hcases hget with ⟨_, rfl⟩ | hget
    · exact absurd hfilled hstatus
    · exact hp.filledInFull hget hfilled
  · intro id' order' hget
    rcases hcases hget with ⟨_, rfl⟩ | hget
    · exact ⟨intent.side, hside⟩
    · exact hp.sided hget

end OrderManagerRuntimePipeline

/-! ## Every action keeps the tables well -/

theorem ManagedOrder.filledInFull_executed (order : ManagedOrder)
    (execution : BrokerExecutionEvent) (h : (order.executed execution).status = filled) :
    order.quantity ≤ order.filledAfter execution := by
  have hpos := order.quantity_pos
  have hnonneg := order.remaining_nonneg
  have hle : order.remainingAfter execution ≤ 0 := by
    have hstatus : order.statusAfterFill execution = filled := h
    unfold statusAfterFill at hstatus
    split at hstatus
    · assumption
    · cases hstatus
  have hf : order.filledQuantity ≤ order.filledAfter execution := by
    unfold filledAfter
    omega
  unfold remainingAfter orInt at hle
  simp only [hpos, if_true] at hle
  generalize order.filledAfter execution = f at hf hle ⊢
  split_ifs at hle <;> omega

theorem OrderPayload.ackedStatus_cases (payload : OrderPayload) :
    payload.ackedStatus = cancelled ∨ payload.ackedStatus = reconcileRequired ∨
      payload.ackedStatus = rejectedByGateway ∨ payload.ackedStatus = ackedByGateway := by
  unfold ackedStatus
  simp only
  split
  · split <;> simp
  · split <;> simp

theorem OrderPayload.ackedStatus_ne_filled (payload : OrderPayload) :
    payload.ackedStatus ≠ filled := by
  rcases payload.ackedStatus_cases with h | h | h | h <;> rw [h] <;> decide

theorem ManagedOrder.filled_of_acked {order : ManagedOrder} {payload : OrderPayload}
    (h : (order.acked payload).status = filled) : order.status = filled := by
  have hstatus : order.statusAfterAck payload = filled := h
  unfold statusAfterAck at hstatus
  split at hstatus
  · exact hstatus
  · exact absurd hstatus payload.ackedStatus_ne_filled

theorem Ledger.get?_afterEvent {l : Ledger} {canonicalType : CanonicalType}
    {payload : OrderPayload} {id : Nat} {order' : ManagedOrder}
    (h : (l.afterEvent canonicalType payload).managedOrders.get? id = some order') :
    ∃ order, l.managedOrders.get? id = some order ∧ (order' = order ∨
      (∃ ack, order' = order.acked ack) ∨
      order' = order.executed (.fromDict payload)) := by
  unfold afterEvent at h
  split at h
  · split at h
    · exact ⟨order', h, .inl rfl⟩
    · rename_i ack hack _ id₀ order₀ hfound
      have hget := ackedOrder_spec hfound
      rw [get?_set] at h
      split at h
      · rename_i heq
        injection h with h
        exact ⟨order₀, heq ▸ hget, .inr (.inl ⟨ack, h.symm⟩)⟩
      · exact ⟨order', h, .inl rfl⟩
  · split at h
    · split at h
      · exact ⟨order', h, .inl rfl⟩
      · rename_i id₀ order₀ hfound
        have hget := l.findExecutionOrder_spec hfound
        simp only [afterExecution, get?_set] at h
        split at h
        · rename_i heq
          injection h with h
          exact ⟨order₀, heq ▸ hget, .inr (.inr h.symm)⟩
        · exact ⟨order', h, .inl rfl⟩
    · exact ⟨order', h, .inl rfl⟩

theorem Ledger.total_afterEvent {share : ManagedOrder → Int}
    (hshare : ∀ a b, SameTerms a b → share b = share a) (l : Ledger)
    (canonicalType : CanonicalType) (payload : OrderPayload) :
    (l.afterEvent canonicalType payload).managedOrders.total share =
      l.managedOrders.total share := by
  unfold afterEvent
  split
  · split
    · rfl
    · rename_i ack _ _ id order hfound
      have hsame := hshare _ _ (order.acked_sameTerms ack)
      show (l.managedOrders.set id (order.acked ack)).total share = _
      rw [total_set_old share _ (ackedOrder_spec hfound)]
      omega
  · split
    · split
      · rfl
      · rename_i id order hfound
        have hsame := hshare _ _ (order.executed_sameTerms (.fromDict payload))
        show (l.managedOrders.set id (order.executed (.fromDict payload))).total share = _
        rw [total_set_old share _ (l.findExecutionOrder_spec hfound)]
        omega
    · rfl

namespace OrderManagerRuntimePipeline

variable {config : OrderManagerSettings} {digest : GatewayCommand → String}

variable {p : OrderManagerRuntimePipeline}

theorem WellKept.of_restates {p' : OrderManagerRuntimePipeline} (hp : p.WellKept)
    (hintents : p'.intents = p.intents) (h : Restates p.db.toLedger p'.db.toLedger) :
    p'.WellKept := by
  refine hp.of_orders hintents ?_
  intro id order' hget'
  obtain ⟨hsome, hnone, _⟩ := h.get? id
  cases hget : p.db.managedOrders.get? id with
  | none =>
    have hnone' := hnone hget
    rw [hget'] at hnone'
    cases hnone'
  | some order =>
    obtain ⟨order'', hget'', hrestated⟩ := hsome order hget
    rw [hget'] at hget''
    injection hget'' with heq
    subst heq
    refine ⟨order, rfl, hrestated.toSameTerms, ?_⟩
    intro hfilled
    rw [hrestated.quantity, hrestated.filledQuantity]
    rcases hrestated.status with heq | ⟨_, heq | heq⟩
    · exact hp.filledInFull hget (heq.symm.trans hfilled)
    · rw [hfilled] at heq
      cases heq
    · rw [hfilled] at heq
      cases heq

theorem WellKept.applyEvent (hp : p.WellKept) (canonicalType : CanonicalType)
    (payload : OrderPayload) (today : String) :
    (p.act config digest (.applyEvent canonicalType payload today)).1.WellKept := by
  refine hp.of_orders rfl ?_
  intro id order' hget'
  rw [toLedger_applyEvent] at hget'
  obtain ⟨order, hget, rfl | ⟨ack, rfl⟩ | rfl⟩ := Ledger.get?_afterEvent hget'
  · exact ⟨order', hget, .rfl, hp.filledInFull hget⟩
  · refine ⟨order, hget, order.acked_sameTerms ack, ?_⟩
    intro hfilled
    have hfull := hp.filledInFull hget (ManagedOrder.filled_of_acked hfilled)
    exact hfull
  · exact ⟨order, hget, order.executed_sameTerms _, order.filledInFull_executed _⟩

theorem WellKept.processIntent (hp : p.WellKept) (cycle : Cycle) (killSwitchState : KillSwitchState)
    (intent : ManagedOrderIntent) :
    (p.processIntent config digest cycle killSwitchState intent).1.WellKept := by
  have hspec := processIntent_spec config digest p cycle killSwitchState intent
  generalize p.processIntent config digest cycle killSwitchState intent = result at hspec ⊢
  cases hspec with
  | known _ => exact hp
  | stopped hnew =>
    refine ⟨?_, hp.distinct, hp.filledInFull, hp.sided⟩
    intro id order hget
    rw [contains_iff]
    obtain ⟨v, hv⟩ := contains_iff.mp (hp.known hget)
    refine ⟨v, (get?_set_ne _ _ ?_).trans hv⟩
    intro heq
    rw [heq, hnew] at hv
    cases hv
  | blocked hnew happroved =>
    exact hp.of_new hnew rfl rfl rfl nofun rfl
  | sent gateway status hnew happroved hguard hstatus =>
    refine hp.of_new hnew rfl rfl rfl ?_ rfl
    intro hfilled
    rcases hstatus with h | h
    · cases hfilled.symm.trans h
    · cases hfilled.symm.trans h

theorem WellKept.act (hp : p.WellKept) (action : Action) :
    (p.act config digest action).1.WellKept := by
  cases action with
  | begin cycle => exact hp.of_restates rfl (begin_restates config digest p cycle)
  | processIntent cycle killSwitchState intent =>
    exact hp.processIntent cycle killSwitchState intent
  | cancelUnfilled cycle =>
    obtain ⟨hintents, -, h⟩ := cancelUnfilled_restates config digest p cycle
    exact hp.of_restates hintents h
  | applyEvent canonicalType payload today => exact hp.applyEvent canonicalType payload today
  | markReconcileRequired reason payload today => exact hp.of_restates rfl (.refl _)
  | gateway state => exact hp.of_restates rfl (.refl _)

/-- A sum over the terms of the orders grows only by the order of an approved intent. -/
theorem total_act (config : OrderManagerSettings) (digest : GatewayCommand → String)
    (hp : p.WellKept) (share : ManagedOrder → Int)
    (hshare : ∀ a b, SameTerms a b → share b = share a) (action : Action) :
    (p.act config digest action).1.db.managedOrders.total share =
        p.db.managedOrders.total share ∨
      ∃ cycle killSwitchState intent, action = .processIntent cycle killSwitchState intent ∧
        ∃ h : (p.riskDecision config cycle killSwitchState intent).approved = true,
          (p.act config digest action).1.db.managedOrders.total share =
            p.db.managedOrders.total share +
              share (intent.localOrder cycle (approved_quantity h).1) := by
  cases action with
  | begin cycle =>
    exact .inl ((begin_restates config digest p cycle).total fun a b h => hshare a b h.toSameTerms)
  | cancelUnfilled cycle =>
    exact .inl ((cancelUnfilled_restates config digest p cycle).2.2.total
      fun a b h => hshare a b h.toSameTerms)
  | markReconcileRequired reason payload today => exact .inl rfl
  | gateway state => exact .inl rfl
  | applyEvent canonicalType payload today =>
    rw [toLedger_applyEvent]
    exact .inl (Ledger.total_afterEvent hshare _ _ _)
  | processIntent cycle killSwitchState intent =>
    have hspec := processIntent_spec config digest p cycle killSwitchState intent
    have hact : p.act config digest (.processIntent cycle killSwitchState intent) =
        p.processIntent config digest cycle killSwitchState intent := rfl
    rw [hact]
    generalize p.processIntent config digest cycle killSwitchState intent = result at hspec ⊢
    have hadded : ∀ (happroved : (p.riskDecision config cycle killSwitchState intent).approved =
          true) (status : ManagedOrderStatus) (commandId : String),
        p.intents.get? intent.idempotencyKey = none →
        (p.db.managedOrders.set (p.db.orderIdFor intent.idempotencyKey)
          (intent.processedOrder cycle (approved_quantity happroved).1 status
            commandId)).total share = p.db.managedOrders.total share +
          share (intent.localOrder cycle (approved_quantity happroved).1) := by
      intro happroved status commandId hnew
      rw [total_set_new share _ (hp.new_id hnew)]
      exact congrArg _ (hshare _ _ ((intent.localOrder cycle _).restated_sameTerms _ _))
    cases hspec with
    | known _ => exact .inl rfl
    | stopped _ => exact .inl rfl
    | blocked hnew happroved =>
      exact .inr ⟨cycle, killSwitchState, intent, rfl, happroved, hadded happroved _ _ hnew⟩
    | sent gateway status hnew happroved _ _ =>
      exact .inr ⟨cycle, killSwitchState, intent, rfl, happroved, hadded happroved _ _ hnew⟩

end OrderManagerRuntimePipeline

end TradingCore.Orders
