import TradingCore.Orders.OrderConsumer

/-!
# The writes of an order event

The pipeline turns the event into writes of its own; the broker's states and the receipt
follow. An acknowledgement writes the order it finds, a fill the order and its position, any
other event nothing on the ledger (`applyOrderAck_cases`, `applyOrderFill_of_found`,
`applyCanonical_other`).

No two writes of one attempt are to the same table of the ledger, so that they can be
exchanged (`applicationWrites_independent`), and only the last one is a receipt.
-/

namespace TradingCore.Orders

open Base ManagedOrderStatus CanonicalGatewayEvent List Write Ledger

/-! ## What an attempt writes -/

def ledgerView (config : OrderConsumerConfig) (event : CanonicalGatewayEvent) :
    (dispatcher config event).View Ledger where
  see := Database.toLedger
  effect := onLedger
  see_commit := fun _ _ => rfl

variable {write : Write} {event : CanonicalGatewayEvent} {result : ApplyResult}
  {canonicalType : CanonicalType}

theorem Write.onLedger_of_no_table (h : write.table = none) : write.onLedger = id := by
  cases write with
  | managedOrder => cases h
  | liveSimPosition => cases h
  | brokerOrderState => cases h
  | _ => rfl

/-- The writes that follow the application of the event. -/
def CanonicalGatewayEvent.closingWrites (event : CanonicalGatewayEvent) (result : ApplyResult) :
    List Write :=
  event.updateProjection result ++ [event.saveReceipt result]

theorem Ledger.applicationWrites_eq (l : Ledger) (event : CanonicalGatewayEvent)
    (today : String) :
    l.applicationWrites event today =
      (l.applyCanonicalOrderEvent event.canonicalType event.payload today).2 ++
        event.closingWrites
          (l.applyCanonicalOrderEvent event.canonicalType event.payload today).1 := by
  rw [applicationWrites, closingWrites, append_assoc]

def Write.Independent (v w : Write) : Prop := v.table ≠ w.table ∨ v.table = none

theorem mem_closingWrites (h : write ∈ event.closingWrites result) :
    write.table = some .brokerOrderStates ∨ write.table = none := by
  rcases mem_append.mp h with h | h
  · rcases mem_append.mp h with h | h
    · split at h
      · rw [mem_singleton] at h
        subst h
        exact .inl rfl
      · cases h
    · split at h
      · obtain ⟨item, _, rfl⟩ := mem_map.mp h
        exact .inr rfl
      · cases h
  · rw [mem_singleton] at h
    subst h
    exact .inr rfl

theorem closingWrites_ne {table : LedgerTable} (htable : table ≠ .brokerOrderStates)
    (h : write ∈ event.closingWrites result) : write.table ≠ some table := by
  intro heq
  rcases mem_closingWrites h with h | h
  · rw [h] at heq
    injection heq with heq
    exact htable heq.symm
  · rw [h] at heq
    cases heq

theorem closingWrites_unnamed (hnumber : event.payload.orderNo = "")
    (h : write ∈ event.closingWrites result) : write.table = none := by
  unfold closingWrites updateProjection at h
  rw [if_neg (fun hc => hc.2 hnumber), nil_append] at h
  rcases mem_append.mp h with h | h
  · split at h
    · obtain ⟨item, _, rfl⟩ := mem_map.mp h
      rfl
    · cases h
  · rw [mem_singleton.mp h]
    rfl

theorem closingWrites_independent (event : CanonicalGatewayEvent) (result : ApplyResult) :
    (event.closingWrites result).Pairwise Independent := by
  have hpositions : ∀ items : List PositionItem,
      (items.map event.positionState).Pairwise Independent := by
    intro items
    refine pairwise_map.mpr (pairwise_of_forall ?_)
    exact fun _ _ => .inr rfl
  unfold closingWrites updateProjection
  rw [append_assoc]
  refine pairwise_append.mpr ⟨?_, pairwise_append.mpr ⟨?_, ?_, ?_⟩, ?_⟩
  · split
    · exact pairwise_singleton _ _
    · exact .nil
  · split
    · exact hpositions _
    · exact .nil
  · exact pairwise_singleton _ _
  · intro v hv w _
    split at hv
    · obtain ⟨item, _, rfl⟩ := mem_map.mp hv
      exact .inr rfl
    · cases hv
  · intro v hv w hw
    split at hv
    · rw [mem_singleton] at hv
      subst hv
      refine .inl ?_
      rcases mem_append.mp hw with hw | hw
      · split at hw
        · obtain ⟨item, _, rfl⟩ := mem_map.mp hw
          simp [table, positionState]
        · cases hw
      · rw [mem_singleton] at hw
        subst hw
        simp [table, saveReceipt]
    · cases hv

/-! ## Applying an event -/

def fillTypes : List CanonicalType := [.orderPartiallyFilled, .orderFilled]

/-- The acknowledgement that the reconciler is given for an event, if any. -/
def ackPayload (canonicalType : CanonicalType) (payload : OrderPayload) : Option OrderPayload :=
  match canonicalType with
  | .commandFailed | .orderRejected => some { payload with status := "REJECTED" }
  | .orderAccepted | .orderCancelAccepted => some payload
  | .orderCancelled =>
      if payload.commandId = "" then none else some { payload with status := "CANCELLED" }
  | _ => none

theorem applyCanonical_ack {payload ack : OrderPayload}
    (h : ackPayload canonicalType payload = some ack) (l : Ledger) (today : String) :
    l.applyCanonicalOrderEvent canonicalType payload today = l.applyOrderAck ack today := by
  cases canonicalType with
  | orderCancelled =>
    simp only [ackPayload] at h
    split at h
    · cases h
    · rename_i hcommand
      injection h with h
      rw [applyCanonicalOrderEvent, if_neg hcommand, h]
  | commandFailed => injection h with h; rw [← h]; rfl
  | orderRejected => injection h with h; rw [← h]; rfl
  | orderAccepted => injection h with h; rw [← h]; rfl
  | orderCancelAccepted => injection h with h; rw [← h]; rfl
  | _ => cases h

theorem applyCanonical_fill (h : canonicalType ∈ fillTypes) (l : Ledger) (payload : OrderPayload)
    (today : String) :
    l.applyCanonicalOrderEvent canonicalType payload today = l.applyOrderFill payload today := by
  cases canonicalType with
  | orderPartiallyFilled => rfl
  | orderFilled => rfl
  | _ => exact absurd h (by decide)

/-- Every other event leaves the ledger alone and has the same result on every ledger. -/
theorem applyCanonical_other {payload : OrderPayload}
    (hack : ackPayload canonicalType payload = none) (hfill : canonicalType ∉ fillTypes)
    (l l' : Ledger) (today today' : String) :
    (l'.applyCanonicalOrderEvent canonicalType payload today').1 =
        (l.applyCanonicalOrderEvent canonicalType payload today).1 ∧
      ((l'.applyCanonicalOrderEvent canonicalType payload today').2.map onLedger =
        (l.applyCanonicalOrderEvent canonicalType payload today).2.map onLedger) ∧
      ∀ w ∈ (l.applyCanonicalOrderEvent canonicalType payload today).2, w.table = none := by
  cases canonicalType with
  | commandFailed => cases hack
  | orderRejected => cases hack
  | orderAccepted => cases hack
  | orderCancelAccepted => cases hack
  | orderPartiallyFilled => exact absurd hfill (by decide)
  | orderFilled => exact absurd hfill (by decide)
  | commandAck =>
    simp only [applyCanonicalOrderEvent]
    split
    · exact ⟨rfl, rfl, fun w hw => by rw [mem_singleton.mp hw]; rfl⟩
    · exact ⟨rfl, rfl, fun w hw => by cases hw⟩
  | orderCancelled =>
    simp only [ackPayload] at hack
    split at hack
    · rename_i hcommand
      simp only [applyCanonicalOrderEvent, if_pos hcommand]
      exact ⟨trivial, trivial, fun w hw => by cases hw⟩
    · cases hack
  | balanceSnapshot =>
    simp only [applyCanonicalOrderEvent, applyBalanceSnapshot]
    split
    · exact ⟨rfl, rfl, fun w hw => by rw [mem_singleton.mp hw]; rfl⟩
    · exact ⟨rfl, rfl, fun w hw => by cases hw⟩
  | unsupported => exact ⟨rfl, rfl, fun w hw => by rw [mem_singleton.mp hw]; rfl⟩
  | _ => exact ⟨rfl, rfl, fun w hw => by cases hw⟩

namespace Ledger

variable {l : Ledger}

variable {order : ManagedOrder}

theorem handleCommandAck_of_found {ack : OrderPayload} {id : Nat} (hcommand : ack.commandId ≠ "")
    (hfound : l.findManagedOrderByCommandId ack.commandId = some (id, order)) :
    l.handleCommandAck ack =
      ({ matched := true
         orderId := some id
         status := some (order.acked ack).status
         orderNo := (order.acked ack).orderNo }, [.managedOrder id (order.acked ack)]) := by
  rw [handleCommandAck, if_neg hcommand, hfound]

theorem handleCommandAck_cases (l : Ledger) (ack : OrderPayload) :
    ((l.handleCommandAck ack).1.matched = false ∧ (l.handleCommandAck ack).2 = []) ∨
      ∃ id order, ack.commandId ≠ "" ∧
        l.findManagedOrderByCommandId ack.commandId = some (id, order) := by
  unfold handleCommandAck
  split
  · exact .inl ⟨rfl, rfl⟩
  · rename_i hcommand
    cases h : l.findManagedOrderByCommandId ack.commandId with
    | none => exact .inl ⟨rfl, rfl⟩
    | some found => exact .inr ⟨found.1, found.2, hcommand, rfl⟩

variable {execution : BrokerExecutionEvent}

theorem handleExecution_of_none (h : l.findExecutionOrder execution = none) :
    l.handleExecution execution =
      ({ matched := false
         status := some reconcileRequired
         reason := "UNMATCHED_EXECUTION" }, []) := by
  rw [handleExecution, h]

theorem handleExecution_of_found {id : Nat}
    (h : l.findExecutionOrder execution = some (id, order)) :
    l.handleExecution execution =
      ({ matched := true
         orderId := some id
         status := some (order.executed execution).status
         filledQuantity := (order.executed execution).filledQuantity
         remainingQuantity := (order.executed execution).remainingQuantity },
        [.managedOrder id (order.executed execution),
          l.syncLiveSimPosition id (order.executed execution) execution]) := by
  rw [handleExecution, h]

theorem applyOrderAck_cases (l : Ledger) (ack : OrderPayload) (today : String) :
    (l.applyOrderAck ack today).2 =
        [recordReconcileRequired "ORDER_ACK_UNMATCHED" ack.tradeDate today] ∨
      ∃ id order, ack.commandId ≠ "" ∧
        l.findManagedOrderByCommandId ack.commandId = some (id, order) ∧
        (l.applyOrderAck ack today).2 = [.managedOrder id (order.acked ack)] := by
  rcases l.handleCommandAck_cases ack with ⟨hmatched, hnone⟩ | ⟨id, order, hcommand, hfound⟩
  · refine .inl ?_
    unfold applyOrderAck
    simp only
    rw [hmatched, if_neg (by decide), hnone]
    rfl
  · refine .inr ⟨id, order, hcommand, hfound, ?_⟩
    unfold applyOrderAck
    rw [handleCommandAck_of_found hcommand hfound]
    rfl

theorem applyOrderFill_of_none {payload : OrderPayload} (today : String)
    (h : l.findExecutionOrder (.fromDict payload) = none) :
    (l.applyOrderFill payload today).2 =
      [recordReconcileRequired "FILL_WITHOUT_LOCAL_ORDER" payload.tradeDate today] := by
  unfold applyOrderFill
  rw [handleExecution_of_none h]
  rfl

theorem applyOrderFill_of_found {payload : OrderPayload} {id : Nat} (today : String)
    (h : l.findExecutionOrder (.fromDict payload) = some (id, order)) :
    (l.applyOrderFill payload today).2 =
      [.managedOrder id (order.executed (.fromDict payload)),
        l.syncLiveSimPosition id (order.executed (.fromDict payload)) (.fromDict payload)] := by
  unfold applyOrderFill
  rw [handleExecution_of_found h]
  rfl

end Ledger

theorem applicationWrites_independent (l : Ledger) (event : CanonicalGatewayEvent)
    (today : String) : (l.applicationWrites event today).Pairwise Independent := by
  have hone : ∀ w : Write, w.table ≠ some .brokerOrderStates →
      ∀ result, (w :: event.closingWrites result).Pairwise Independent := by
    intro w hw result
    refine pairwise_cons.mpr ⟨?_, closingWrites_independent event result⟩
    intro v hv
    by_cases hnone : w.table = none
    · exact .inr hnone
    · refine .inl fun heq => ?_
      rcases mem_closingWrites hv with h | h
      · exact hw (heq.trans h)
      · exact hnone (heq.trans h)
  rw [applicationWrites_eq]
  cases hack : ackPayload event.canonicalType event.payload with
  | some ack =>
    rw [applyCanonical_ack hack]
    rcases l.applyOrderAck_cases ack today with hw | ⟨id, order, _, _, hw⟩
    · rw [hw]
      exact hone _ (by simp [recordReconcileRequired, table]) _
    · rw [hw]
      exact hone _ (by simp [table]) _
  | none =>
    by_cases hfill : event.canonicalType ∈ fillTypes
    · rw [applyCanonical_fill hfill]
      cases hfound : l.findExecutionOrder (.fromDict event.payload) with
      | none =>
        rw [applyOrderFill_of_none today hfound]
        exact hone _ (by simp [recordReconcileRequired, table]) _
      | some found =>
        rw [applyOrderFill_of_found today hfound]
        refine pairwise_cons.mpr ⟨?_, hone _ (by
          simp [syncLiveSimPosition, table]) _⟩
        intro v hv
        refine .inl fun heq => ?_
        rcases mem_append.mp hv with hv | hv
        · rw [mem_singleton.mp hv] at heq
          cases heq
        · exact closingWrites_ne (by decide) hv heq.symm
    · have hother := (applyCanonical_other hack hfill l l today today).2.2
      refine pairwise_append.mpr ⟨?_, closingWrites_independent event _, ?_⟩
      · refine Pairwise.imp_of_mem (R := fun _ _ => True) ?_ (pairwise_of_forall ?_)
        · exact fun hv _ _ => .inr (hother _ hv)
        · exact fun _ _ => trivial
      · exact fun v hv _ _ => .inr (hother v hv)

/-! ## What the writes leave alone -/

variable {writes : List Write}

theorem managedOrders_execute (h : ∀ w ∈ writes, w.table ≠ some .managedOrders) (l : Ledger) :
    (execute (writes.map onLedger) l).managedOrders = l.managedOrders := by
  induction writes generalizing l with
  | nil => rfl
  | cons w ws ih =>
    have hw : (w.onLedger l).managedOrders = l.managedOrders := by
      cases w with
      | managedOrder => exact absurd rfl (h _ mem_cons_self)
      | brokerOrderState =>
        unfold onLedger
        simp only
        split <;> rfl
      | _ => rfl
    rw [map_cons, execute_cons, ih fun v hv => h v (mem_cons_of_mem w hv), hw]

theorem liveSimPositions_execute (h : ∀ w ∈ writes, w.table ≠ some .liveSimPositions) (l : Ledger) :
    (execute (writes.map onLedger) l).liveSimPositions = l.liveSimPositions := by
  induction writes generalizing l with
  | nil => rfl
  | cons w ws ih =>
    have hw : (w.onLedger l).liveSimPositions = l.liveSimPositions := by
      cases w with
      | liveSimPosition => exact absurd rfl (h _ mem_cons_self)
      | brokerOrderState =>
        unfold onLedger
        simp only
        split <;> rfl
      | _ => rfl
    rw [map_cons, execute_cons, ih fun v hv => h v (mem_cons_of_mem w hv), hw]

theorem execute_no_table (h : ∀ w ∈ writes, w.table = none) (l : Ledger) :
    execute (writes.map onLedger) l = l := by
  induction writes with
  | nil => rfl
  | cons w ws ih =>
    rw [map_cons, execute_cons, onLedger_of_no_table (h w mem_cons_self)]
    exact ih fun v hv => h v (mem_cons_of_mem w hv)

theorem receipts_foldl (h : ∀ w ∈ writes, ∀ r, w ≠ .receipt r) (db : Database) :
    (writes.foldl Database.commit db).receipts = db.receipts := by
  induction writes generalizing db with
  | nil => rfl
  | cons w ws ih =>
    have hw : (db.commit w).receipts = db.receipts := by
      cases w with
      | receipt r => exact absurd rfl (h _ mem_cons_self r)
      | _ => rfl
    rw [foldl_cons, ih fun v hv => h v (mem_cons_of_mem w hv), hw]

theorem applied_not_receipt {l : Ledger} {canonicalType : CanonicalType} {payload : OrderPayload}
    {today : String} {write : Write}
    (h : write ∈ (l.applyCanonicalOrderEvent canonicalType payload today).2)
    (receipt : OrderGatewayEventReceipt) : write ≠ .receipt receipt := by
  intro heq
  subst heq
  cases hack : ackPayload canonicalType payload with
  | some ack =>
    rw [applyCanonical_ack hack] at h
    rcases l.applyOrderAck_cases ack today with hw | ⟨id, order, _, _, hw⟩
    · rw [hw] at h
      cases mem_singleton.mp h
    · rw [hw] at h
      cases mem_singleton.mp h
  | none =>
    by_cases hfill : canonicalType ∈ fillTypes
    · rw [applyCanonical_fill hfill] at h
      cases hfound : l.findExecutionOrder (.fromDict payload) with
      | none =>
        rw [applyOrderFill_of_none today hfound] at h
        cases mem_singleton.mp h
      | some found =>
        rw [applyOrderFill_of_found today hfound] at h
        rcases mem_cons.mp h with h | h
        · cases h
        · cases mem_singleton.mp h
    · unfold applyCanonicalOrderEvent at h
      cases canonicalType with
      | commandAck =>
        simp only at h
        split at h
        · cases mem_singleton.mp h
        · cases h
      | orderCancelled =>
        simp only [ackPayload] at hack
        simp only at h
        split at hack
        · rename_i hcommand
          rw [if_pos hcommand] at h
          cases h
        · cases hack
      | balanceSnapshot =>
        simp only [applyBalanceSnapshot] at h
        split at h
        · cases mem_singleton.mp h
        · cases h
      | unsupported => cases mem_singleton.mp h
      | ignored => cases h
      | positionSnapshot => cases h
      | orderStatusSnapshot => cases h
      | reconcileSnapshot => cases h
      | orderPartiallyFilled => exact hfill (by decide)
      | orderFilled => exact hfill (by decide)
      | commandFailed => cases hack
      | orderRejected => cases hack
      | orderAccepted => cases hack
      | orderCancelAccepted => cases hack

theorem projection_not_receipt {event : CanonicalGatewayEvent} {result : ApplyResult}
    {write : Write} (h : write ∈ event.updateProjection result)
    (receipt : OrderGatewayEventReceipt) : write ≠ .receipt receipt := by
  intro heq
  subst heq
  rcases mem_append.mp h with h | h
  · split at h
    · cases mem_singleton.mp h
    · cases h
  · split at h
    · obtain ⟨item, _, heq⟩ := mem_map.mp h
      cases heq
    · cases h

end TradingCore.Orders
