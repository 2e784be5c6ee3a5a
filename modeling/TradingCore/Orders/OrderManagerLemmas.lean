import TradingCore.Orders.EventWrites
import TradingCore.Orders.OrderManager

/-!
# What the actions of the order manager do

One lemma for each kind of action. `processIntent_spec` lists the ways in which an intent can
end (`Processed`); the care of the open orders and the cancellations only give orders that
wait another status (`Restates`); an event writes the order that it finds, or nothing
(`toLedger_applyEvent`).
-/

namespace TradingCore.Orders

open Base ManagedOrderStatus List Dict Database
open Broker (GatewayCommand GatewayStateStore)

theorem Database.commit_managedOrder_twice (db : Database) (id : Nat) (a b : ManagedOrder) :
    (db.commit (.managedOrder id a)).commit (.managedOrder id b) =
      db.commit (.managedOrder id b) := by
  simp only [commit, Write.onLedger, Dict.set_set]

/-- An order as it stands after its intent has been processed. -/
def ManagedOrderIntent.processedOrder (intent : ManagedOrderIntent) (cycle : Cycle)
    (h : 0 < intent.quantity) (status : ManagedOrderStatus) (commandId : String) : ManagedOrder :=
  { intent.localOrder cycle h with status, commandId }

namespace OrderManagerRuntimePipeline

variable {config : OrderManagerSettings} {digest : GatewayCommand → String}

/-! ## An intent -/

/-- Is every reason to hold the command of an approved intent back absent? -/
def guardPasses (config : OrderManagerSettings) (p : OrderManagerRuntimePipeline) (cycle : Cycle)
    (tradeDate : String) : Prop :=
  reasonsOf (config.gatewayCommandGuard cycle.broker (p.db.latestState tradeDate) true) = []

/-- The ways in which `_process_intent` can end. -/
inductive Processed (config : OrderManagerSettings) (p : OrderManagerRuntimePipeline)
    (cycle : Cycle) (killSwitchState : KillSwitchState) (intent : ManagedOrderIntent) :
    OrderManagerRuntimePipeline × List GatewayCommand → Prop
  /-- The intent is known already. -/
  | known : p.intents.contains intent.idempotencyKey = true →
      Processed config p cycle killSwitchState intent (p, [])
  /-- The intent is saved and no order is made of it. -/
  | stopped : p.intents.get? intent.idempotencyKey = none →
      Processed config p cycle killSwitchState intent
        ({ p with intents := p.intents.set intent.idempotencyKey intent }, [])
  /-- The order is saved and no command is made of it. -/
  | blocked : p.intents.get? intent.idempotencyKey = none →
      (h : (p.riskDecision config cycle killSwitchState intent).approved = true) →
      config.createLocalOrder = true →
      Processed config p cycle killSwitchState intent
        ({ p with
            db := p.db.commit (.managedOrder (p.db.orderIdFor intent.idempotencyKey)
              (intent.processedOrder cycle (approved_quantity h).1 commandBlockedObserveOnly ""))
            intents := p.intents.set intent.idempotencyKey intent }, [])
  /-- The order is saved and its command handed to the Gateway. -/
  | sent (gateway : GatewayStateStore) (status : ManagedOrderStatus) :
      p.intents.get? intent.idempotencyKey = none →
      (h : (p.riskDecision config cycle killSwitchState intent).approved = true) →
      guardPasses config p cycle (orText intent.tradeDate cycle.tradeDate) →
      status = queuedToGateway ∨ status = rejectedByGateway →
      config.createLocalOrder = true →
      Processed config p cycle killSwitchState intent
        ({ db := p.db.commit (.managedOrder (p.db.orderIdFor intent.idempotencyKey)
              (intent.processedOrder cycle (approved_quantity h).1 status
                (cycle.messageId intent.idempotencyKey)))
           intents := p.intents.set intent.idempotencyKey intent
           gatewayState := gateway },
          [(intent.localOrder cycle (approved_quantity h).1).command
            (p.db.orderIdFor intent.idempotencyKey) intent.side
            (orText intent.hoga config.orderHoga) (cycle.messageId intent.idempotencyKey)])

theorem processIntent_spec (config : OrderManagerSettings) (digest : GatewayCommand → String)
    (p : OrderManagerRuntimePipeline) (cycle : Cycle) (killSwitchState : KillSwitchState)
    (intent : ManagedOrderIntent) :
    Processed config p cycle killSwitchState intent
      (p.processIntent config digest cycle killSwitchState intent) := by
  unfold processIntent
  by_cases hknown : p.intents.contains intent.idempotencyKey = true
  · rw [if_pos hknown]
    exact .known hknown
  · rw [if_neg hknown]
    have hnew := contains_eq_false.mp (Bool.eq_false_iff.mpr hknown)
    simp only
    split
    · rename_i happroved
      split
      · rename_i hlocal
        unfold sendOrder
        simp only
        split
        · -- the guard holds the command back
          simp only [saveManagedOrder, commit_managedOrder_twice]
          exact .blocked hnew happroved hlocal
        · rename_i hguard
          simp only [saveManagedOrder, enqueueCommand, commit_managedOrder_twice]
          exact .sent _ _ hnew happroved (not_not.mp hguard) (ite_eq_or_eq _ _ _) hlocal
      · exact .stopped hnew
    · exact .stopped hnew

end OrderManagerRuntimePipeline

/-! ## Orders that wait -/

/-- The statuses in which a cycle can take an order out of its hands. -/
def ManagedOrderStatus.waiting (status : ManagedOrderStatus) : Bool :=
  status ∈ [queuedToGateway, ackedByGateway, partiallyFilled]

/-- Orders that wait have been given another status, one after another. -/
inductive Restates : Ledger → Ledger → Prop
  | refl (l : Ledger) : Restates l l
  | step {l l' : Ledger} (id : Nat) (order : ManagedOrder) (status : ManagedOrderStatus)
      (commandId : String) : l.managedOrders.get? id = some order →
      order.status.waiting = true → status = reconcileRequired ∨ status = cancelPending →
      Restates { l with managedOrders := l.managedOrders.set id { order with status, commandId } }
        l' → Restates l l'

theorem restates_execute {es : List (Nat × ManagedOrder)} {l : Ledger}
    (hnodup : (es.map Prod.fst).Nodup)
    (hrows : ∀ e ∈ es, l.managedOrders.get? e.1 = some e.2 ∧ e.2.status.waiting = true)
    (writes : Nat × ManagedOrder → List Write)
    (hwrites : ∀ e, (writes e).map Write.onLedger =
      [fun l => { l with managedOrders :=
        l.managedOrders.set e.1 { e.2 with status := reconcileRequired } }, id]) :
    Restates l (execute ((es.flatMap writes).map Write.onLedger) l) := by
  induction es generalizing l with
  | nil => exact .refl l
  | cons e rest ih =>
    rw [map_cons, nodup_cons] at hnodup
    obtain ⟨hget, hwaits⟩ := hrows e mem_cons_self
    rw [flatMap_cons, map_append, hwrites]
    refine .step e.1 e.2 reconcileRequired e.2.commandId hget hwaits (.inl rfl) ?_
    refine ih hnodup.2 ?_
    intro other hother
    have hne : other.1 ≠ e.1 := fun heq =>
      hnodup.1 (heq ▸ mem_map_of_mem (f := Prod.fst) hother)
    obtain ⟨hget', hwaits'⟩ := hrows other (mem_cons_of_mem e hother)
    exact ⟨by rw [get?_set_ne _ _ hne]; exact hget', hwaits'⟩

theorem nodup_entries_reverse_filter (l : Ledger) (p : Nat × ManagedOrder → Bool) :
    ((l.managedOrders.entries.reverse.filter p).map Prod.fst).Nodup := by
  refine (filter_sublist.map Prod.fst).nodup ?_
  rw [map_reverse, nodup_reverse]
  exact l.managedOrders.nodup

theorem reconcileOpenOrders_restates (l : Ledger) (config : OrderManagerConfig) (today : String)
    (now : Int) :
    Restates l (execute ((l.reconcileOpenOrders config today now).map Write.onLedger) l) := by
  have hsub : (l.queuedOrders.filter fun e => config.overdue now e.2).Sublist
      (l.managedOrders.entries.reverse.filter fun e => e.2.status = queuedToGateway) :=
    filter_sublist.trans (take_sublist _ _)
  refine restates_execute ?_ ?_ _ (fun e => rfl)
  · exact (hsub.map Prod.fst).nodup (nodup_entries_reverse_filter l _)
  · intro e he
    obtain ⟨hmem, hqueued⟩ := mem_filter.mp (hsub.subset he)
    refine ⟨mem_entries_iff.mp (mem_reverse.mp hmem), ?_⟩
    rw [of_decide_eq_true hqueued]
    rfl

namespace OrderManagerRuntimePipeline

variable {config : OrderManagerSettings} {digest : GatewayCommand → String}

theorem toLedger_foldl (writes : List Write) (db : Database) :
    (writes.foldl commit db).toLedger = execute (writes.map Write.onLedger) db.toLedger := by
  induction writes generalizing db with
  | nil => rfl
  | cons w ws ih => rw [foldl_cons, ih, map_cons, execute_cons, commit_toLedger]

theorem begin_restates (config : OrderManagerSettings) (digest : GatewayCommand → String)
    (p : OrderManagerRuntimePipeline) (cycle : Cycle) :
    Restates p.db.toLedger (p.act config digest (.begin cycle)).1.db.toLedger := by
  show Restates _ (p.db.run config.toOrderManagerConfig cycle.portfolioRisk cycle.tradeDate
    cycle.today cycle.now).toLedger
  unfold run
  split
  · rw [toLedger_foldl]
    exact reconcileOpenOrders_restates p.db.toLedger _ _ _
  · exact .refl _

variable {p : OrderManagerRuntimePipeline}

theorem queueCancel_restates (config : OrderManagerSettings) (digest : GatewayCommand → String)
    {id : Nat} {order : ManagedOrder} (h : p.db.managedOrders.get? id = some order)
    (cycle : Cycle) :
    ∃ status commandId, (status = reconcileRequired ∨ status = cancelPending) ∧
      (p.queueCancel config digest cycle id).1.intents = p.intents ∧
      (p.queueCancel config digest cycle id).1.db.killSwitchStates = p.db.killSwitchStates ∧
      (p.queueCancel config digest cycle id).1.db.toLedger =
        { p.db.toLedger with
          managedOrders := p.db.managedOrders.set id { order with status, commandId } } := by
  unfold queueCancel
  rw [h]
  refine ⟨_, _, ?_, rfl, rfl, rfl⟩
  exact (ite_eq_or_eq _ _ _).symm

theorem queueCancels_restates (cycle : Cycle) {ids : List Nat} (hnodup : ids.Nodup)
    (hrows : ∀ id ∈ ids, ∃ order, p.db.managedOrders.get? id = some order ∧
      order.status.waiting = true) :
    (queueCancels config digest cycle p ids).1.intents = p.intents ∧
      (queueCancels config digest cycle p ids).1.db.killSwitchStates = p.db.killSwitchStates ∧
      Restates p.db.toLedger (queueCancels config digest cycle p ids).1.db.toLedger := by
  induction ids generalizing p with
  | nil => exact ⟨rfl, rfl, .refl _⟩
  | cons id rest ih =>
    rw [nodup_cons] at hnodup
    obtain ⟨order, hget, hwaits⟩ := hrows id mem_cons_self
    obtain ⟨status, commandId, hstatus, hintents, hkill, hledger⟩ :=
      queueCancel_restates config digest hget cycle
    obtain ⟨hintents', hkill', hrest⟩ := ih hnodup.2
      (p := (p.queueCancel config digest cycle id).1) (by
        intro other hother
        have hne : other ≠ id := fun heq => hnodup.1 (heq ▸ hother)
        obtain ⟨order', hget', hwaits'⟩ := hrows other (mem_cons_of_mem id hother)
        exact ⟨order', by rw [hledger]; exact (get?_set_ne _ _ hne).trans hget', hwaits'⟩)
    refine ⟨hintents'.trans hintents, hkill'.trans hkill, ?_⟩
    refine .step id order status commandId hget hwaits hstatus ?_
    rw [← hledger]
    exact hrest

theorem cancelUnfilled_restates (config : OrderManagerSettings)
    (digest : GatewayCommand → String) (p : OrderManagerRuntimePipeline) (cycle : Cycle) :
    (p.act config digest (.cancelUnfilled cycle)).1.intents = p.intents ∧
      (p.act config digest (.cancelUnfilled cycle)).1.db.killSwitchStates = p.db.killSwitchStates ∧
      Restates p.db.toLedger (p.act config digest (.cancelUnfilled cycle)).1.db.toLedger := by
  have hsub : p.db.activeUnfilledOrders.Sublist (p.db.managedOrders.entries.reverse.filter
      fun e => e.2.status ∈ [ackedByGateway, partiallyFilled]) :=
    filter_sublist.trans (take_sublist _ _)
  refine queueCancels_restates cycle ?_ ?_
  · refine ((filter_sublist.trans hsub).map Prod.fst).nodup ?_
    exact nodup_entries_reverse_filter p.db.toLedger _
  · intro id hid
    obtain ⟨e, he, rfl⟩ := mem_map.mp hid
    obtain ⟨hmem, hstatus⟩ := mem_filter.mp (hsub.subset (mem_filter.mp he).1)
    refine ⟨e.2, mem_entries_iff.mp (mem_reverse.mp hmem), ?_⟩
    have hin := of_decide_eq_true hstatus
    unfold ManagedOrderStatus.waiting
    rw [decide_eq_true_eq]
    exact mem_cons_of_mem _ hin

end OrderManagerRuntimePipeline

/-! ## An event -/

def Ledger.ackedOrder (l : Ledger) (ack : OrderPayload) : Option (Nat × ManagedOrder) :=
  if ack.commandId = "" then none else l.findManagedOrderByCommandId ack.commandId

theorem Ledger.ackedOrder_spec {l : Ledger} {ack : OrderPayload} {id : Nat}
    {order : ManagedOrder} (h : l.ackedOrder ack = some (id, order)) :
    l.managedOrders.get? id = some order := by
  unfold ackedOrder at h
  split at h
  · cases h
  · exact (latest?_spec h).1

/-- The ledger after an execution that belongs to the order. -/
def Ledger.afterExecution (l : Ledger) (id : Nat) (order : ManagedOrder)
    (execution : BrokerExecutionEvent) : Ledger :=
  { l with
    managedOrders := l.managedOrders.set id (order.executed execution)
    liveSimPositions := l.liveSimPositions.upsert (order.positionKey execution)
      ((order.executed execution).positionRecord execution id
        (l.liveSimPositions.get? (order.positionKey execution))).onConflict }

def Ledger.afterEvent (l : Ledger) (canonicalType : CanonicalType) (payload : OrderPayload) :
    Ledger :=
  match ackPayload canonicalType payload with
  | some ack =>
      match l.ackedOrder ack with
      | none => l
      | some (id, order) =>
          { l with managedOrders := l.managedOrders.set id (order.acked ack) }
  | none =>
      if canonicalType ∈ fillTypes then
        match l.findExecutionOrder (.fromDict payload) with
        | none => l
        | some (id, order) => l.afterExecution id order (.fromDict payload)
      else l

theorem Ledger.execute_applyCanonical (l : Ledger) (canonicalType : CanonicalType)
    (payload : OrderPayload) (today : String) :
    execute ((l.applyCanonicalOrderEvent canonicalType payload today).2.map Write.onLedger) l =
      l.afterEvent canonicalType payload := by
  unfold afterEvent
  cases hack : ackPayload canonicalType payload with
  | some ack =>
    rw [applyCanonical_ack hack]
    simp only [ackedOrder]
    rcases l.applyOrderAck_cases ack today with hw | ⟨id, order, hcommand, hfound, hw⟩
    · -- the acknowledgement finds no order
      have hnone : (if ack.commandId = "" then none
          else l.findManagedOrderByCommandId ack.commandId) = none := by
        split
        · rfl
        · rename_i hcommand
          cases hfound : l.findManagedOrderByCommandId ack.commandId with
          | none => rfl
          | some found =>
            unfold applyOrderAck at hw
            rw [handleCommandAck_of_found hcommand hfound] at hw
            cases hw
      rw [hw, hnone]
      rfl
    · rw [hw, if_neg hcommand, hfound]
      rfl
  | none =>
    by_cases hfill : canonicalType ∈ fillTypes
    · rw [applyCanonical_fill hfill]
      simp only [if_pos hfill]
      cases hfound : l.findExecutionOrder (.fromDict payload) with
      | none =>
        rw [applyOrderFill_of_none today hfound]
        rfl
      | some found =>
        rw [applyOrderFill_of_found today hfound]
        rfl
    · simp only [if_neg hfill]
      exact execute_no_table (applyCanonical_other hack hfill l l today today).2.2 l

namespace OrderManagerRuntimePipeline

variable {config : OrderManagerSettings} {digest : GatewayCommand → String}

theorem toLedger_applyEvent (p : OrderManagerRuntimePipeline) (canonicalType : CanonicalType)
    (payload : OrderPayload) (today : String) :
    (p.act config digest (.applyEvent canonicalType payload today)).1.db.toLedger =
      p.db.toLedger.afterEvent canonicalType payload := by
  rw [← Ledger.execute_applyCanonical p.db.toLedger canonicalType payload today]
  exact toLedger_foldl _ p.db

/-! ## A cycle -/

variable {cycle : Cycle} {intent : ManagedOrderIntent}

theorem entryIntents_tradeDate (h : intent ∈ entryIntents config cycle) :
    intent.tradeDate = cycle.tradeDate := by
  unfold entryIntents at h
  split at h
  · obtain ⟨decision, -, rfl⟩ := mem_map.mp h
    rfl
  · cases h

theorem exitIntents_tradeDate {l : Ledger} (h : intent ∈ exitIntents config cycle l) :
    intent.tradeDate = cycle.tradeDate := by
  unfold exitIntents at h
  split at h
  · obtain ⟨decision, -, hdecision⟩ := mem_filterMap.mp h
    simp only at hdecision
    split at hdecision
    · injection hdecision with heq
      rw [← heq]
      rfl
    · cases hdecision
  · cases h

/-- The actions of `run`: one beginning, intents with the evaluated state of the kill switch,
one round of cancellations, all of the same cycle. -/
theorem mem_runActions {p : OrderManagerRuntimePipeline} {action : Action}
    (h : action ∈ p.runActions config digest cycle) :
    action = .begin cycle ∨ action = .cancelUnfilled cycle ∨
      ∃ intent, intent.tradeDate = cycle.tradeDate ∧
        action = .processIntent cycle (p.evaluatedState config cycle) intent := by
  unfold runActions at h
  split at h
  · cases h
  · split at h
    · exact .inl (mem_singleton.mp h)
    · simp only [entryActions, mem_append, mem_cons, mem_map, not_mem_nil,
        or_false] at h
      rcases h with ((h | ⟨intent, hintent, rfl⟩) | ⟨intent, hintent, rfl⟩) | h
      · exact .inl h
      · exact .inr (.inr ⟨intent, entryIntents_tradeDate hintent, rfl⟩)
      · exact .inr (.inr ⟨intent, exitIntents_tradeDate hintent, rfl⟩)
      · exact .inr (.inl h)

end OrderManagerRuntimePipeline

end TradingCore.Orders
