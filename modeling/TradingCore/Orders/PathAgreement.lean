import TradingCore.Orders.ExactlyOnce
import TradingCore.Orders.GatewayPaths

/-!
# One effect on two paths

What the direct path and the consumer do to the managed orders, the intents and the positions
when an event takes either of them, or both in either order. Each path makes of the event an
acknowledgement or an execution (`OrderNews`). The direct path also books it in the LIVE_SIM
ledger; the consumer drops it if it holds the event's receipt.

The two have one effect where they make the same of the event, the LIVE_SIM ledger has nothing
to book on a position, and the tables take the news a second time unchanged (`Agrees`). A sale of
less than all that is held is subtracted again (`sale_is_subtracted_twice`). The copies of the last
message that orders and intents keep are not compared: nothing reads them.
-/

namespace TradingCore.Orders

open Base ManagedOrderStatus Ledger GatewayStore List Dict Text LiveSim Ledger Database

/-! ## What is compared -/

def ManagedOrder.withoutEcho (order : ManagedOrder) : ManagedOrder :=
  { order with details := { order.details with lastExecution := none, lastCommandAck := none } }

/-- The managed orders, the intents and the positions. -/
structure OrderView where
  orders : Dict Nat ManagedOrder
  intentIds : Dict Nat Nat
  intents : Dict Nat OrderIntentStatus
  positions : Dict String LiveSimPosition
  columns : Dict String PositionColumns

def GatewayStore.view (s : GatewayStore) : OrderView where
  orders := s.managedOrders.mapVals fun _ order => order.withoutEcho
  intentIds := s.intentIds
  intents := s.intents
  positions := s.liveSimPositions
  columns := s.columns

/-! ## What a path makes of an event -/

/-- What the reconciler is told. -/
inductive OrderNews
  | nothing
  | acknowledgement (payload : OrderPayload)
  | execution (execution : BrokerExecutionEvent)
deriving DecidableEq

def GatewayOrderEvent.directNews (event : GatewayOrderEvent) : OrderNews :=
  match event.type with
  | .executionEvent => .execution (.fromDict event.payload.toOrderPayload)
  | .orderResult => .nothing
  | .commandAck => .acknowledgement event.payload.toOrderPayload
  | .commandFailed => .acknowledgement (failure event)

def GatewayOrderEvent.consumerNews (event : GatewayOrderEvent) : OrderNews :=
  match ackPayload event.canonicalType event.commandPayload.normalized with
  | some ack => .acknowledgement ack
  | none =>
      if event.canonicalType ∈ fillTypes then
        .execution (.fromDict event.commandPayload.normalized)
      else .nothing

namespace GatewayStore

variable (s : GatewayStore)

def hear : OrderNews → GatewayStore
  | .nothing => s
  | .acknowledgement payload => s.handleCommandAck payload
  | .execution execution => s.handleExecution execution

/-- What the consumer tells the reconciler of a delivery in these tables. -/
def heard (config : OrderConsumerConfig) (delivery : Delivery) : OrderNews :=
  if s.toDatabase.skips config (delivery.event.decode delivery.sourceEventId) then .nothing
  else delivery.event.consumerNews

end GatewayStore

/-! ## When the paths agree -/

/-- What the reconciler reads of an execution: not its id or its tag, and of the side not the
case. -/
def BrokerExecutionEvent.read (execution : BrokerExecutionEvent) : BrokerExecutionEvent :=
  { execution with side := upper execution.side, executionId := "", tag := "" }

/-- Two news that the reconciler cannot tell apart. -/
def OrderNews.Same : OrderNews → OrderNews → Prop
  | .nothing, .nothing => True
  | .acknowledgement a, .acknowledgement b =>
      a.commandId = b.commandId ∧ a.ackedStatus = b.ackedStatus ∧
        orText a.orderNo a.orderResult.orderNo = orText b.orderNo b.orderResult.orderNo ∧
        orText a.message (orText a.error a.orderResult.message) =
          orText b.message (orText b.error b.orderResult.message)
  | .execution a, .execution b => a.read = b.read
  | _, _ => False

namespace GatewayStore

variable (s : GatewayStore)

/-- The order stands as `updated`, and its intent has the status that goes with it. -/
def Stands (id : Nat) (order updated : ManagedOrder) : Prop :=
  updated.withoutEcho = order.withoutEcho ∧
    ∀ intentId, s.intentIds.get? id = some intentId →
      ∀ status, s.intents.get? intentId = some status → status = updated.status.ofIntent

/-- The tables show the news already: no order is found for them, or the one that is found
stands as they leave it, for an execution with its position. -/
def Shows : OrderNews → Prop
  | .nothing => True
  | .acknowledgement payload =>
      payload.commandId ≠ "" → ∀ id order,
        s.findManagedOrderByCommandId payload.commandId = some (id, order) →
          s.Stands id order (order.acked payload)
  | .execution execution =>
      ∀ id order, s.findExecutionOrder execution = some (id, order) →
        s.Stands id order (order.executed execution) ∧
          (s.commit (s.syncLiveSimPosition id (order.executed execution) execution)).view = s.view

/-- The tables take the news a second time unchanged. An acknowledgement always is. An
execution that finds its order again must be a purchase, of no quantity, or sell all that is
held; one that does not must be shown by the order that it finds instead. -/
def TakesAgain : OrderNews → Prop
  | .nothing | .acknowledgement _ => True
  | .execution execution =>
      ∀ id order, s.findExecutionOrder execution = some (id, order) →
        (s.Names execution ∨ order.statusAfterFill execution ≠ filled →
          s.Repeatable (order.executed execution) execution) ∧
        (¬ s.Names execution → order.statusAfterFill execution = filled →
          (s.handleExecution execution).Shows (.execution execution))

/-- The LIVE_SIM ledger books nothing of the event on a position: the event is no execution,
or its fill is recorded, or it brings no new quantity, or it is a sale of no LIVE_SIM order
for which no single open position is found. -/
def Unbooked (event : GatewayOrderEvent) (now : String) : Prop :=
  event.type = .executionEvent →
    let report := s.book.report (executionOf event.payload now)
    report.inserted = false ∨ report.positionId = none

/-- The paths have one effect on a delivery: the LIVE_SIM ledger books nothing of it on a
position, before the reconciler has heard of it or afterwards, and the tables show already
what both paths make of it, or they make the same of it and the tables take it again. -/
def Agrees (config : OrderConsumerConfig) (s : GatewayStore) (delivery : Delivery) : Prop :=
  s.Unbooked delivery.event delivery.now ∧
    (s.hear (s.heard config delivery)).Unbooked delivery.event delivery.now ∧
    (s.Shows delivery.event.directNews ∧ s.Shows (s.heard config delivery) ∨
      delivery.event.directNews.Same (s.heard config delivery) ∧
        s.TakesAgain delivery.event.directNews)

end GatewayStore

/-! ## The writes in the view -/

namespace OrderView

variable (v : OrderView)

def saveOrder (id : Nat) (order : ManagedOrder) : OrderView :=
  { v with
    orders := v.orders.set id order.withoutEcho
    intents := updateIntentStatus v.intentIds v.intents id order.status.ofIntent }

def savePosition (positionId : String) (record : LiveSimPosition) : OrderView :=
  { v with
    positions := v.positions.upsert positionId record.onConflict
    columns := v.columns.upsert positionId (savedColumns record) }

def ledger : Ledger where
  managedOrders := v.orders
  liveSimPositions := v.positions

/-- Tell the reconciler, of which only the view is seen. -/
def hear : OrderNews → OrderView
  | .nothing => v
  | .acknowledgement payload =>
      match if payload.commandId = "" then none
        else v.ledger.findManagedOrderByCommandId payload.commandId with
      | none => v
      | some (id, order) => v.saveOrder id (order.acked payload)
  | .execution execution =>
      match v.ledger.findExecutionOrder execution with
      | none => v
      | some (id, order) =>
          let updated := order.executed execution
          (v.saveOrder id updated).savePosition (updated.positionKey execution)
            (updated.positionRecord execution id (v.positions.get? (updated.positionKey execution)))

end OrderView

theorem updateIntentStatus_again (intentIds : Dict Nat Nat) (intents : Dict Nat OrderIntentStatus)
    (id : Nat) (status : OrderIntentStatus) :
    updateIntentStatus intentIds
        (updateIntentStatus intentIds intents id status) id status =
      updateIntentStatus intentIds intents id status := by
  unfold updateIntentStatus
  cases hid : intentIds.get? id with
  | none => rfl
  | some intentId =>
    simp only
    by_cases hin : intents.contains intentId = true
    · simp only [if_pos hin, Dict.set_set, ite_self]
    · simp only [if_neg hin]

theorem savedColumns_again (record : LiveSimPosition) (old : Option PositionColumns) :
    savedColumns record (some (savedColumns record old)) = savedColumns record old := rfl

namespace OrderView

variable (v : OrderView)

theorem saveOrder_again (id : Nat) (order : ManagedOrder) :
    (v.saveOrder id order).saveOrder id order = v.saveOrder id order := by
  unfold saveOrder
  simp only [Dict.set_set, updateIntentStatus_again]

theorem savePosition_again (positionId : String) (record : LiveSimPosition) :
    (v.savePosition positionId record).savePosition positionId record =
      v.savePosition positionId record := by
  unfold savePosition
  simp only [upsert_upsert _ _ record.onConflict_idem,
    upsert_upsert _ _ (savedColumns_again record)]

theorem saveBoth_again (id : Nat) (order : ManagedOrder) (positionId : String)
    (record : LiveSimPosition) :
    (((v.saveOrder id order).savePosition positionId record).saveOrder id order).savePosition
        positionId record =
      (v.saveOrder id order).savePosition positionId record := by
  have hcomm : ((v.saveOrder id order).savePosition positionId record).saveOrder id order =
      ((v.saveOrder id order).saveOrder id order).savePosition positionId record := rfl
  rw [hcomm, saveOrder_again, savePosition_again]

end OrderView

namespace GatewayStore

variable {s s' : GatewayStore}

theorem view_commit_order (id : Nat) (order : ManagedOrder) :
    (s.commit (.managedOrder id order)).view = s.view.saveOrder id order := by
  unfold view OrderView.saveOrder
  simp only [commit, Database.commit, Write.onLedger, mapVals_set]

theorem view_commit_position (positionId : String) (record : LiveSimPosition) :
    (s.commit (.liveSimPosition positionId record)).view =
      s.view.savePosition positionId record := rfl

theorem commit_other {write : Write} (horder : write.table ≠ some .managedOrders)
    (hposition : write.table ≠ some .liveSimPositions) :
    (s.commit write).view = s.view ∧ (s.commit write).book = s.book := by
  cases write with
  | managedOrder => exact absurd rfl horder
  | liveSimPosition => exact absurd rfl hposition
  | brokerOrderState account orderNo state =>
    unfold view book commit Database.commit Write.onLedger
    by_cases hno : orderNo = ""
    · simp only [if_pos hno, and_self]
    · simp only [if_neg hno, and_self]
  | _ => exact ⟨rfl, rfl⟩

theorem commitAll_other {writes : List Write}
    (horder : ∀ w ∈ writes, w.table ≠ some .managedOrders)
    (hposition : ∀ w ∈ writes, w.table ≠ some .liveSimPositions) (s : GatewayStore) :
    (s.commitAll writes).view = s.view ∧ (s.commitAll writes).book = s.book := by
  induction writes generalizing s with
  | nil => exact ⟨rfl, rfl⟩
  | cons w ws ih =>
    have hw := commit_other (s := s) (horder w mem_cons_self) (hposition w mem_cons_self)
    have hws := ih (fun v hv => horder v (mem_cons_of_mem w hv))
      (fun v hv => hposition v (mem_cons_of_mem w hv)) (s.commit w)
    rw [hw.1, hw.2] at hws
    exact hws

theorem commitAll_append (v w : List Write) (s : GatewayStore) :
    s.commitAll (v ++ w) = (s.commitAll v).commitAll w := foldl_append

/-! ## The news in the view -/

theorem handleCommandAck_of_none {ack : OrderPayload} (hcommand : ack.commandId ≠ "")
    (hfound : s.findManagedOrderByCommandId ack.commandId = none) : s.handleCommandAck ack = s := by
  unfold handleCommandAck Ledger.handleCommandAck
  rw [if_neg hcommand, hfound]
  rfl

theorem handleCommandAck_of_found {ack : OrderPayload} {id : Nat} {order : ManagedOrder}
    (hcommand : ack.commandId ≠ "")
    (hfound : s.findManagedOrderByCommandId ack.commandId = some (id, order)) :
    s.handleCommandAck ack = s.commit (.managedOrder id (order.acked ack)) := by
  unfold handleCommandAck
  rw [Ledger.handleCommandAck_of_found hcommand hfound]
  rfl

variable {execution : BrokerExecutionEvent}

theorem handleExecution_of_none (hfound : s.findExecutionOrder execution = none) :
    s.handleExecution execution = s := by
  unfold handleExecution
  rw [Ledger.handleExecution_of_none hfound]
  rfl

theorem handleExecution_of_found {id : Nat} {order : ManagedOrder}
    (hfound : s.findExecutionOrder execution = some (id, order)) :
    s.handleExecution execution =
      (s.commit (.managedOrder id (order.executed execution))).commit
        (s.syncLiveSimPosition id (order.executed execution) execution) := by
  unfold handleExecution
  rw [Ledger.handleExecution_of_found hfound]
  rfl

theorem latest?_view (p : ManagedOrder → Bool)
    (hp : ∀ order : ManagedOrder, p order.withoutEcho = p order) :
    s.view.orders.latest? p = (s.managedOrders.latest? p).map fun e => (e.1, e.2.withoutEcho) := by
  unfold view
  rw [latest?_mapVals]
  simp only [hp]

theorem findManagedOrderByCommandId_view (commandId : String) :
    s.view.ledger.findManagedOrderByCommandId commandId =
      (s.findManagedOrderByCommandId commandId).map fun e => (e.1, e.2.withoutEcho) :=
  latest?_view _ fun _ => rfl

theorem findExecutionOrder_view (execution : BrokerExecutionEvent) :
    s.view.ledger.findExecutionOrder execution =
      (s.findExecutionOrder execution).map fun e => (e.1, e.2.withoutEcho) := by
  unfold findExecutionOrder findManagedOrderForExecution
  have hno : s.view.ledger.findManagedOrderByOrderNo execution.orderNo =
      (s.findManagedOrderByOrderNo execution.orderNo).map fun e => (e.1, e.2.withoutEcho) :=
    latest?_view _ fun _ => rfl
  have hkey : s.view.ledger.findManagedOrderByIdempotency execution.idempotencyKey =
      (s.findManagedOrderByIdempotency execution.idempotencyKey).map
        fun e => (e.1, e.2.withoutEcho) :=
    latest?_view _ fun _ => rfl
  have hcode : s.view.ledger.findManagedOrderByCode execution.code execution.side =
      (s.findManagedOrderByCode execution.code execution.side).map
        fun e => (e.1, e.2.withoutEcho) :=
    latest?_view _ fun _ => rfl
  rw [findManagedOrderByCommandId_view, hno, hkey, hcode]
  simp only [Option.map_or, apply_ite (Option.map _), Option.map_none]

theorem view_handleCommandAck (ack : OrderPayload) :
    (s.handleCommandAck ack).view = s.view.hear (.acknowledgement ack) := by
  unfold OrderView.hear
  by_cases hcommand : ack.commandId = ""
  · unfold handleCommandAck Ledger.handleCommandAck
    simp only [if_pos hcommand]
    rfl
  · simp only [if_neg hcommand, findManagedOrderByCommandId_view]
    cases hfound : s.findManagedOrderByCommandId ack.commandId with
    | none => rw [handleCommandAck_of_none hcommand hfound]; rfl
    | some found =>
      rw [handleCommandAck_of_found hcommand hfound, view_commit_order]
      rfl

theorem view_handleExecution (execution : BrokerExecutionEvent) :
    (s.handleExecution execution).view = s.view.hear (.execution execution) := by
  unfold OrderView.hear
  simp only [findExecutionOrder_view]
  cases hfound : s.findExecutionOrder execution with
  | none => rw [handleExecution_of_none hfound]; rfl
  | some found =>
    rw [handleExecution_of_found hfound]
    unfold syncLiveSimPosition
    rw [view_commit_position, view_commit_order]
    rfl

theorem view_hear (news : OrderNews) : (s.hear news).view = s.view.hear news := by
  cases news with
  | nothing => rfl
  | acknowledgement ack => exact view_handleCommandAck ack
  | execution execution => exact view_handleExecution execution

end GatewayStore

/-! ## News that the reconciler cannot tell apart -/

theorem ManagedOrder.positionSide_read (order : ManagedOrder) (execution : BrokerExecutionEvent) :
    order.positionSide execution.read = order.positionSide execution := by
  unfold positionSide orText
  split
  · exact upper_upper _
  · rfl

theorem ManagedOrder.positionRecord_read (order : ManagedOrder)
    (execution : BrokerExecutionEvent) (id : Nat) (current : Option LiveSimPosition) :
    order.positionRecord execution.read id current = order.positionRecord execution id current := by
  unfold positionRecord entryQuantity nextQuantity
  rw [positionSide_read]
  rfl

theorem Ledger.findExecutionOrder_read (l : Ledger) (execution : BrokerExecutionEvent) :
    l.findExecutionOrder execution.read = l.findExecutionOrder execution := by
  have hcode : l.findManagedOrderByCode execution.code (upper execution.side) =
      l.findManagedOrderByCode execution.code execution.side := by
    unfold findManagedOrderByCode
    simp only [upper_eq_empty, upper_upper]
  unfold findExecutionOrder findManagedOrderForExecution
  show _ = ((_ : Option (Nat × ManagedOrder)).or _).or (Option.or _ _)
  rw [← hcode]
  rfl

namespace OrderView

variable (v : OrderView)

theorem hear_read (execution : BrokerExecutionEvent) :
    v.hear (.execution execution.read) = v.hear (.execution execution) := by
  unfold hear
  simp only [findExecutionOrder_read]
  cases v.ledger.findExecutionOrder execution with
  | none => rfl
  | some found =>
    simp only [ManagedOrder.positionRecord_read]
    rfl

theorem hear_same {a b : OrderNews} (h : a.Same b) : v.hear a = v.hear b := by
  cases a with
  | nothing =>
    cases b with
    | nothing => rfl
    | _ => exact absurd h id
  | acknowledgement a =>
    cases b with
    | acknowledgement b =>
      obtain ⟨hcommand, hstatus, hno, herror⟩ := h
      have hacked : ∀ order : ManagedOrder, (order.acked a).status = (order.acked b).status ∧
          (order.acked a).withoutEcho = (order.acked b).withoutEcho := by
        intro order
        have hafter : order.statusAfterAck a = order.statusAfterAck b := by
          unfold ManagedOrder.statusAfterAck
          rw [hstatus]
        have hnumber : orText a.orderNo (orText a.orderResult.orderNo order.orderNo) =
            orText b.orderNo (orText b.orderResult.orderNo order.orderNo) := by
          have hassoc : ∀ x y z : String, orText x (orText y z) = orText (orText x y) z := by
            intro x y z
            unfold orText
            split_ifs <;> rfl
          rw [hassoc, hassoc, hno]
        refine ⟨hafter, ?_⟩
        unfold ManagedOrder.withoutEcho ManagedOrder.acked
        simp only [hafter, hnumber, herror]
      unfold hear
      simp only [hcommand]
      split
      · rfl
      · next id order hfound =>
          unfold saveOrder
          rw [(hacked order).1, (hacked order).2]
    | _ => exact absurd h id
  | execution a =>
    cases b with
    | execution b =>
      have hread : a.read = b.read := h
      rw [← hear_read, hread, hear_read]
    | _ => exact absurd h id

end OrderView

/-! ## News that the tables have -/

namespace GatewayStore

variable {s : GatewayStore}

theorem saveOrder_stands {id : Nat} {order updated : ManagedOrder}
    (hrow : s.managedOrders.get? id = some order) (h : s.Stands id order updated) :
    s.view.saveOrder id updated = s.view := by
  have horders : s.view.orders.set id updated.withoutEcho = s.view.orders := by
    refine set_eq_self ?_
    unfold view
    rw [get?_mapVals, hrow, h.1]
    rfl
  have hintents : updateIntentStatus s.intentIds s.intents id updated.status.ofIntent =
      s.intents := by
    unfold updateIntentStatus
    cases hid : s.intentIds.get? id with
    | none => rfl
    | some intentId =>
      simp only
      split
      · next hin =>
          obtain ⟨status, hstatus⟩ := contains_iff.mp hin
          rw [h.2 intentId hid status hstatus] at hstatus
          exact set_eq_self hstatus
      · rfl
  unfold OrderView.saveOrder
  rw [horders]
  have hintents' : updateIntentStatus s.view.intentIds s.view.intents id updated.status.ofIntent =
      s.view.intents := hintents
  rw [hintents']

theorem hear_shown {news : OrderNews} (h : s.Shows news) : s.view.hear news = s.view := by
  rw [← view_hear]
  cases news with
  | nothing => rfl
  | acknowledgement ack =>
    show (s.handleCommandAck ack).view = s.view
    by_cases hcommand : ack.commandId = ""
    · unfold handleCommandAck Ledger.handleCommandAck
      rw [if_pos hcommand]
      rfl
    · cases hfound : s.findManagedOrderByCommandId ack.commandId with
      | none => rw [handleCommandAck_of_none hcommand hfound]
      | some found =>
        obtain ⟨id, order⟩ := found
        rw [handleCommandAck_of_found hcommand hfound, view_commit_order]
        exact saveOrder_stands (latest?_spec hfound).1 (h hcommand id order hfound)
  | execution execution =>
    show (s.handleExecution execution).view = s.view
    cases hfound : s.findExecutionOrder execution with
    | none => rw [handleExecution_of_none hfound]
    | some found =>
      obtain ⟨id, order⟩ := found
      have hshown := h id order hfound
      have hsaved : (s.commit (.managedOrder id (order.executed execution))).view = s.view := by
        rw [view_commit_order]
        exact saveOrder_stands (findExecutionOrder_spec hfound) hshown.1
      rw [handleExecution_of_found hfound]
      have hposition := hshown.2
      unfold syncLiveSimPosition at hposition ⊢
      rw [view_commit_position] at hposition ⊢
      rw [hsaved, hposition]

theorem hear_found_again {execution : BrokerExecutionEvent} {id : Nat} {order : ManagedOrder}
    (hfound : s.findExecutionOrder execution = some (id, order))
    (hopen : s.Names execution ∨ order.statusAfterFill execution ≠ filled)
    (hrepeatable : s.Repeatable (order.executed execution) execution) :
    ((s.handleExecution execution).handleExecution execution).view =
      (s.handleExecution execution).view := by
  have hledger : (s.handleExecution execution).toLedger =
      (s.syncLiveSimPosition id (order.executed execution) execution).onLedger
        ((Write.managedOrder id (order.executed execution)).onLedger s.toLedger) := by
    rw [handleExecution_of_found hfound]
    rfl
  have hwrites : (s.handleExecution execution).toLedger.handleExecution execution =
      s.toLedger.handleExecution execution := by
    refine handleExecution_again hfound hopen ?_ (.inr ⟨hrepeatable, ?_⟩)
    · rw [hledger]
      rfl
    · rw [hledger]
      rfl
  have hagain : (s.handleExecution execution).handleExecution execution =
      (s.handleExecution execution).commitAll (s.toLedger.handleExecution execution).2 := by
    rw [← hwrites]
    rfl
  rw [hagain, Ledger.handleExecution_of_found hfound]
  rw [handleExecution_of_found hfound]
  unfold syncLiveSimPosition commitAll
  simp only [foldl_cons, foldl_nil, view_commit_order, view_commit_position]
  exact OrderView.saveBoth_again s.view id _ _ _

theorem ack_again (ack : OrderPayload) :
    ((s.handleCommandAck ack).handleCommandAck ack).view = (s.handleCommandAck ack).view := by
  by_cases hcommand : ack.commandId = ""
  · have hsame : s.handleCommandAck ack = s := by
      unfold handleCommandAck Ledger.handleCommandAck
      rw [if_pos hcommand]
      rfl
    rw [hsame, hsame]
  · cases hfound : s.findManagedOrderByCommandId ack.commandId with
    | none => rw [handleCommandAck_of_none hcommand hfound,
        handleCommandAck_of_none hcommand hfound]
    | some found =>
      obtain ⟨id, order⟩ := found
      have hsaved := handleCommandAck_of_found hcommand hfound
      have hwrites : (s.handleCommandAck ack).toLedger.handleCommandAck ack =
          s.toLedger.handleCommandAck ack := by
        refine handleCommandAck_again hcommand hfound ?_
        rw [hsaved]
        rfl
      have hagain : (s.handleCommandAck ack).handleCommandAck ack =
          (s.handleCommandAck ack).commit (.managedOrder id (order.acked ack)) := by
        show (s.handleCommandAck ack).commitAll _ = _
        rw [hwrites, Ledger.handleCommandAck_of_found hcommand hfound]
        rfl
      rw [hagain, hsaved, view_commit_order, view_commit_order, OrderView.saveOrder_again]

theorem hear_again {news : OrderNews} (h : s.TakesAgain news) :
    (s.view.hear news).hear news = s.view.hear news := by
  rw [← view_hear, ← view_hear]
  cases news with
  | nothing => rfl
  | acknowledgement ack => exact ack_again ack
  | execution execution =>
    show ((s.handleExecution execution).handleExecution execution).view =
      (s.handleExecution execution).view
    cases hfound : s.findExecutionOrder execution with
    | none => rw [handleExecution_of_none hfound, handleExecution_of_none hfound]
    | some found =>
      obtain ⟨id, order⟩ := found
      have htakes := h id order hfound
      by_cases hopen : s.Names execution ∨ order.statusAfterFill execution ≠ filled
      · exact hear_found_again hfound hopen (htakes.1 hopen)
      · rw [not_or, not_not] at hopen
        have hshown := hear_shown (htakes.2 hopen.1 hopen.2)
        rw [← view_hear] at hshown
        exact hshown

end GatewayStore

/-! ## The direct path -/

def bookedPosition (write : LiveSim.Write) : Prop :=
  ∃ positionId record, write = .position positionId record

namespace GatewayStore

variable {s : GatewayStore}

variable {fillPrice : Int} {delivery : Delivery} {config : OrderConsumerConfig}

theorem commitBook_view {write : LiveSim.Write} (h : ¬ bookedPosition write) (s : GatewayStore) :
    (commitBook fillPrice s write).view = s.view := by
  cases write with
  | position positionId record => exact absurd ⟨positionId, record, rfl⟩ h
  | _ => rfl

theorem commitBook_foldl_view {writes : List LiveSim.Write} (h : ∀ w ∈ writes, ¬ bookedPosition w)
    (s : GatewayStore) : (writes.foldl (commitBook fillPrice) s).view = s.view := by
  induction writes generalizing s with
  | nil => rfl
  | cons w ws ih =>
    rw [foldl_cons, ih fun v hv => h v (mem_cons_of_mem w hv)]
    exact commitBook_view (h w mem_cons_self) s

theorem saveOrderResult_view (result : LiveSim.BrokerOrderResult) (s : GatewayStore) :
    (s.saveOrderResult result).view = s.view := by
  refine commitBook_foldl_view ?_ s
  intro w hw
  rintro ⟨positionId, record, rfl⟩
  unfold LiveSim.Ledger.resultWrites at hw
  split at hw
  · cases hw
  · simp at hw

theorem auditAnswer_view (answer : LiveSim.CommandAnswer) (s : GatewayStore) :
    (s.auditAnswer answer).view = s.view := by
  refine commitBook_foldl_view ?_ s
  intro w hw
  rintro ⟨positionId, record, rfl⟩
  unfold LiveSim.Ledger.auditWrites at hw
  split at hw
  · simp at hw
  · simp at hw
  · cases hw

theorem saveExecution_view {execution : LiveSim.ExecutionEvent}
    (h : (s.book.report execution).inserted = false ∨ (s.book.report execution).positionId = none) :
    (s.saveExecution execution).view = s.view := by
  refine commitBook_foldl_view ?_ s
  intro w hw
  rintro ⟨positionId, record, rfl⟩
  unfold LiveSim.Ledger.report at h
  unfold LiveSim.Ledger.executionWrites at hw
  cases hfound : s.book.executionOrder execution with
  | none =>
    simp only [hfound] at h hw
    unfold manualExecutionWrites at hw
    simp only at hw
    split at hw
    · cases hw
    · next hnothing =>
        split at hw
        · cases hw
        · next hnew =>
            by_cases hqty : 0 < (s.book.manualFill execution).fillQty
            · simp only [if_pos hqty, mem_append, mem_singleton, reduceCtorEq,
                false_or, or_false] at hw
              rcases h with h | h
              · simp only [decide_eq_false_iff_not] at h
                exact h ⟨hnothing, hnew⟩
              · rw [if_pos hqty] at h
                unfold manualPositionId at h
                unfold manualPositionWrites at hw
                simp only at hw
                split at h
                · cases h
                · next hmanual =>
                    rw [hmanual] at hw
                    split at h
                    · cases h
                    · next hside =>
                        rw [if_neg hside] at hw
                        cases hw
            · simp [if_neg hqty] at hw
  | some found =>
    simp only [hfound] at h hw
    unfold orderExecutionWrites at hw
    simp only at hw
    split at hw
    · cases hw
    · next hnew =>
        by_cases hqty : 0 < (s.book.orderFill found.1 found.2 execution).fillQty
        · rcases h with h | h
          · simp only [decide_eq_false_iff_not, not_not] at h
            exact hnew h
          · rw [if_pos hqty] at h
            cases h
        · simp [if_neg hqty] at hw

theorem direct_view (h : s.Unbooked delivery.event delivery.now) :
    (s.direct delivery).view = s.view.hear delivery.event.directNews := by
  unfold direct persistGatewayEvent GatewayOrderEvent.directNews
  cases htype : delivery.event.type with
  | executionEvent =>
    simp only
    rw [view_handleExecution, saveExecution_view (h htype)]
  | orderResult =>
    simp only
    split
    · exact saveOrderResult_view _ s
    · rfl
  | commandAck =>
    simp only
    rw [view_handleCommandAck]
    split
    · split
      · rw [saveOrderResult_view, auditAnswer_view]
      · rw [auditAnswer_view]
    · rw [auditAnswer_view]
  | commandFailed =>
    simp only
    split
    · next hnone =>
        have hcommand : (failure delivery.event).commandId = "" := hnone
        unfold OrderView.hear
        simp only [if_pos hcommand]
    · rw [view_handleCommandAck]

/-! ## The consumer's path -/

theorem commitAll_recorded (writes : List Write) (matched : Bool) (reason tradeDate today : String)
    (s : GatewayStore) :
    (s.commitAll (if matched then writes
        else writes ++ [recordReconcileRequired reason tradeDate today])).view =
        (s.commitAll writes).view ∧
      (s.commitAll (if matched then writes
        else writes ++ [recordReconcileRequired reason tradeDate today])).book =
        (s.commitAll writes).book := by
  split
  · exact ⟨rfl, rfl⟩
  · rw [commitAll_append]
    refine commitAll_other ?_ ?_ _
    · intro w hw
      rw [mem_singleton.mp hw]
      simp [recordReconcileRequired, Write.table]
    · intro w hw
      rw [mem_singleton.mp hw]
      simp [recordReconcileRequired, Write.table]

theorem apply_eq (event : GatewayOrderEvent) (today : String) :
    let writes := (s.toLedger.applyCanonicalOrderEvent event.canonicalType
      event.commandPayload.normalized today).2
    (s.commitAll writes).view = (s.hear event.consumerNews).view ∧
      (s.commitAll writes).book = (s.hear event.consumerNews).book := by
  intro writes
  unfold GatewayOrderEvent.consumerNews
  cases hack : ackPayload event.canonicalType event.commandPayload.normalized with
  | some ack =>
    have hwrites : writes = (s.toLedger.applyOrderAck ack today).2 :=
      congrArg Prod.snd (applyCanonical_ack hack s.toLedger today)
    have happly : writes = if (s.toLedger.handleCommandAck ack).1.matched then
        (s.toLedger.handleCommandAck ack).2
        else (s.toLedger.handleCommandAck ack).2 ++
          [recordReconcileRequired "ORDER_ACK_UNMATCHED" ack.tradeDate today] := by
      rw [hwrites]
      unfold applyOrderAck
      simp only
      split <;> rfl
    rw [happly]
    exact commitAll_recorded _ _ _ _ _ s
  | none =>
    by_cases hfill : event.canonicalType ∈ fillTypes
    · simp only [if_pos hfill]
      have hwrites : writes =
          (s.toLedger.applyOrderFill event.commandPayload.normalized today).2 :=
        congrArg Prod.snd (applyCanonical_fill hfill s.toLedger _ today)
      generalize event.commandPayload.normalized = payload at hwrites ⊢
      have happly : writes = if (s.toLedger.handleExecution (.fromDict payload)).1.matched then
          (s.toLedger.handleExecution (.fromDict payload)).2
          else (s.toLedger.handleExecution (.fromDict payload)).2 ++
            [recordReconcileRequired "FILL_WITHOUT_LOCAL_ORDER" payload.tradeDate today] := by
        rw [hwrites]
        unfold applyOrderFill
        simp only
        split <;> rfl
      rw [happly]
      exact commitAll_recorded _ _ _ _ _ s
    · simp only [if_neg hfill]
      have hnone := (applyCanonical_other hack hfill s.toLedger s.toLedger today today).2.2
      refine commitAll_other ?_ ?_ s
      · intro w hw
        rw [hnone w hw]
        simp
      · intro w hw
        rw [hnone w hw]
        simp

theorem consume_eq (config : OrderConsumerConfig) (delivery : Delivery) :
    (s.consume config delivery).view = (s.hear (s.heard config delivery)).view ∧
      (s.consume config delivery).book = (s.hear (s.heard config delivery)).book := by
  unfold consume dispatch dispatchWrites heard
  split
  · exact ⟨rfl, rfl⟩
  · rw [applicationWrites_eq, commitAll_append]
    have happly := apply_eq (s := s) delivery.event delivery.today
    have hclosing := fun result => @commitAll_other
      ((delivery.event.decode delivery.sourceEventId).closingWrites result)
      (fun w hw => closingWrites_ne (by decide) hw) (fun w hw => closingWrites_ne (by decide) hw)
    exact ⟨(hclosing _ _).1.trans happly.1, (hclosing _ _).2.trans happly.2⟩

theorem receipts_commit {write : Write} (h : ∀ r, write ≠ .receipt r) (s : GatewayStore) :
    (s.commit write).receipts = s.receipts := by
  cases write with
  | receipt r => exact absurd rfl (h r)
  | _ => rfl

theorem receipts_commitAll {writes : List Write} (h : ∀ w ∈ writes, ∀ r, w ≠ .receipt r)
    (s : GatewayStore) : (s.commitAll writes).receipts = s.receipts := by
  induction writes generalizing s with
  | nil => rfl
  | cons w ws ih =>
    show ((s.commit w).commitAll ws).receipts = s.receipts
    rw [ih fun v hv => h v (mem_cons_of_mem w hv), receipts_commit (h w mem_cons_self)]

theorem receipts_book (writes : List LiveSim.Write) (s : GatewayStore) :
    (writes.foldl (commitBook fillPrice) s).receipts = s.receipts := by
  induction writes generalizing s with
  | nil => rfl
  | cons w ws ih =>
    rw [foldl_cons, ih]
    cases w <;> rfl

theorem receipts_handleCommandAck (ack : OrderPayload) (s : GatewayStore) :
    (s.handleCommandAck ack).receipts = s.receipts := by
  refine receipts_commitAll ?_ s
  intro w hw r heq
  subst heq
  unfold Ledger.handleCommandAck at hw
  split at hw
  · cases hw
  · split at hw
    · cases hw
    · simp at hw

theorem receipts_handleExecution (execution : BrokerExecutionEvent) (s : GatewayStore) :
    (s.handleExecution execution).receipts = s.receipts := by
  refine receipts_commitAll ?_ s
  intro w hw r heq
  subst heq
  unfold Ledger.handleExecution at hw
  split at hw
  · cases hw
  · simp [syncLiveSimPosition] at hw

theorem receipts_direct (delivery : Delivery) : (s.direct delivery).receipts = s.receipts := by
  unfold direct persistGatewayEvent
  cases delivery.event.type with
  | executionEvent =>
    simp only
    rw [receipts_handleExecution]
    exact receipts_book _ s
  | orderResult =>
    simp only
    split
    · exact receipts_book _ s
    · rfl
  | commandAck =>
    simp only
    rw [receipts_handleCommandAck]
    have haudit : (s.auditAnswer (answerOf delivery.event delivery.known)).receipts =
        s.receipts := receipts_book _ s
    split
    · split
      · exact (receipts_book _ _).trans haudit
      · exact haudit
    · exact haudit
  | commandFailed =>
    simp only
    split
    · rfl
    · exact receipts_handleCommandAck _ s

theorem heard_direct (config : OrderConsumerConfig) (delivery : Delivery) :
    (s.direct delivery).heard config delivery = s.heard config delivery := by
  have hskips : (s.direct delivery).toDatabase.skips config
      (delivery.event.decode delivery.sourceEventId) =
      s.toDatabase.skips config (delivery.event.decode delivery.sourceEventId) := by
    unfold skips hasReceipt findOrderGatewayEventReceipt
    rw [receipts_direct]
  unfold heard
  rw [hskips]

theorem unbooked_congr {s' : GatewayStore} (h : s'.book = s.book) (event : GatewayOrderEvent)
    (now : String) : s'.Unbooked event now ↔ s.Unbooked event now := by
  unfold Unbooked
  rw [h]

/-! ## Whole runs -/

theorem Agrees.hears (h : s.Agrees config delivery) : let news := delivery.event.directNews
    let heard := s.heard config delivery
    s.view.hear heard = s.view.hear news ∧
      (s.view.hear news).hear heard = s.view.hear news ∧
      (s.view.hear heard).hear news = s.view.hear news := by
  intro news heard
  rcases h.2.2 with ⟨hnews, hheard⟩ | ⟨hsame, hagain⟩
  · rw [hear_shown hnews, hear_shown hheard]
    exact ⟨rfl, rfl, hear_shown hnews⟩
  · have heq : ∀ v : OrderView, v.hear heard = v.hear news :=
      fun v => (OrderView.hear_same v hsame).symm
    rw [heq, heq]
    exact ⟨rfl, hear_again hagain, hear_again hagain⟩

theorem deliver_view (h : s.Agrees config delivery) :
    (s.deliver config delivery).view = s.view.hear delivery.event.directNews := by
  have hhears := h.hears
  have hdirect := direct_view h.1
  have hconsume := consume_eq (s := s) config delivery
  unfold deliver
  cases delivery.route with
  | direct => exact hdirect
  | consumer => exact hconsume.1.trans ((view_hear _).trans hhears.1)
  | directThenConsumer =>
    simp only
    rw [(consume_eq config delivery).1, view_hear, heard_direct, hdirect]
    exact hhears.2.1
  | consumerThenDirect =>
    simp only
    have hafter := (unbooked_congr hconsume.2 delivery.event delivery.now).mpr h.2.1
    rw [direct_view hafter, hconsume.1, view_hear]
    exact hhears.2.2

/-- Two runs of the same events, on any routes, show the same orders, intents and positions in
the end, if each of their deliveries is one on which the paths agree. -/
theorem one_effect (config : OrderConsumerConfig) (s : GatewayStore) (deliveries once : List Delivery)
    (hevents : deliveries.map (·.event) = once.map (·.event))
    (hdeliveries : (machine config).Guarded (Agrees config) s deliveries)
    (honce : (machine config).Guarded (Agrees config) s once) :
    ((machine config).run s deliveries).view = ((machine config).run s once).view := by
  have hruns : ∀ (s s' : GatewayStore), s.view = s'.view →
      (machine config).Guarded (Agrees config) s deliveries →
      (machine config).Guarded (Agrees config) s' once →
      ((machine config).run s deliveries).view = ((machine config).run s' once).view := by
    clear hdeliveries honce s
    induction deliveries generalizing once with
    | nil =>
      intro s s' hview _ _
      rw [map_nil, eq_comm, map_eq_nil_iff] at hevents
      subst hevents
      exact hview
    | cons delivery rest ih =>
      intro s s' hview hdeliveries honce
      cases once with
      | nil => cases hevents
      | cons other others =>
        rw [map_cons, map_cons, cons.injEq] at hevents
        refine ih others hevents.2 _ _ ?_ hdeliveries.2 honce.2
        show (s.deliver config delivery).view = (s'.deliver config other).view
        rw [deliver_view hdeliveries.1, deliver_view honce.1, hview, hevents.1]
  exact hruns s s rfl hdeliveries honce

/-! ## Fixed runs -/

def tradedStore : GatewayStore where
  managedOrders := ofList [
    (1, { tradeDate := "2026-06-18", side := "SELL", code := "005930", account := "ACC",
          quantity := 3, price := 70000, status := ackedByGateway, positionId := "POS-1",
          commandId := "cmd-sell", orderNo := "OID-1", remainingQuantity := 3,
          idempotencyKey := "idem-sell" }),
    (2, { tradeDate := "2026-06-18", side := "BUY", code := "000660", account := "ACC",
          quantity := 5, price := 120000, status := queuedToGateway, commandId := "cmd-buy",
          remainingQuantity := 5, idempotencyKey := "idem-buy" })]
  intentIds := ofList [(1, 11), (2, 12)]
  intents := ofList [(11, .commandAcked), (12, .commandQueued)]
  liveSimPositions := ofList [("POS-1",
    { candidateInstanceId := none, code := "005930", name := "", account := "ACC",
      entryQty := 10, entryAvgPrice := 70000, currentQty := 10, realizedQty := 0,
      status := .opened, themeId := "", themeName := "", lastOrderId := 0 })]

def saleExecuted : GatewayOrderEvent where
  type := .executionEvent
  eventId := "evt-fill-1"
  payload :=
    { account := "ACC", code := "005930", side := "SELL", quantity := 3, price := 70000,
      filledQuantity := 3, orderNo := "OID-1", executionId := "EXEC-1" }

def purchaseAcknowledged : GatewayOrderEvent where
  type := .commandAck
  eventId := "evt-ack-2"
  payload :=
    { commandId := "cmd-buy", commandType := "send_order", status := "ACKED", orderNo := "OID-2" }

def saleFailed : GatewayOrderEvent where
  type := .commandFailed
  eventId := "evt-failed-1"
  commandId := "cmd-sell"
  payload := { commandType := "send_order", error := "rejected" }

/-- An answer on both paths, and a failure on the other one than in the second run. -/
theorem one_effect_answers :
    ((machine {}).run tradedStore
        [{ event := purchaseAcknowledged, route := .directThenConsumer },
          { event := saleFailed, route := .consumer }]).view =
      ((machine {}).run tradedStore
        [{ event := purchaseAcknowledged, route := .consumer },
          { event := saleFailed, route := .direct }]).view := by
  have hsame : purchaseAcknowledged.directNews.Same purchaseAcknowledged.consumerNews :=
    ⟨by decide, by decide +kernel, by decide, by decide⟩
  have hsame' : saleFailed.directNews.Same saleFailed.consumerNews :=
    ⟨by decide, by decide +kernel, by decide, by decide⟩
  have hagrees : ∀ (s : GatewayStore) (delivery : Delivery),
      delivery.event.type ≠ .executionEvent → s.heard {} delivery = delivery.event.consumerNews →
      delivery.event.directNews.Same delivery.event.consumerNews →
      s.TakesAgain delivery.event.directNews → s.Agrees {} delivery := by
    intro s delivery htype hheard hsame hagain
    refine ⟨fun h => absurd h htype, fun h => absurd h htype, .inr ⟨?_, hagain⟩⟩
    rw [hheard]
    exact hsame
  refine one_effect {} tradedStore _ _ rfl ⟨?_, ?_, trivial⟩ ⟨?_, ?_, trivial⟩
  · exact hagrees _ _ (by decide) (by decide +kernel) hsame trivial
  · exact hagrees _ _ (by decide) (by decide +kernel) hsame' trivial
  · exact hagrees _ _ (by decide) (by decide +kernel) hsame trivial
  · exact hagrees _ _ (by decide) (by decide +kernel) hsame' trivial

/-- The sale is applied by the direct path and by the consumer: 4 are left where the consumer
alone leaves 7. -/
theorem sale_is_subtracted_twice :
    ¬ ∀ (config : OrderConsumerConfig) (s : GatewayStore) (deliveries once : List Delivery),
      deliveries.map (·.event) = once.map (·.event) → (∀ delivery ∈ once, delivery.route.single) →
        ((machine config).run s deliveries).view = ((machine config).run s once).view := by
  intro h
  have hheld := congrArg (fun v : OrderView => (v.positions.get? "POS-1").map (·.currentQty))
    (h {} tradedStore [{ event := saleExecuted, route := .directThenConsumer }]
      [{ event := saleExecuted, route := .consumer }] rfl (by decide))
  exact absurd hheld (by decide +kernel)

end GatewayStore

end TradingCore.Orders
