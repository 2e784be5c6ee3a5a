import TradingCore.Orders.QueuedCommands

/-!
# Cancellations under way

A cancellation that the Gateway's queue has taken is outstanding until the queue has an answer to
it. The scheduler does not look for one: a fill takes an order out of `CANCEL_PENDING`, and the
next cycle cancels it again. What stops the second command is its idempotency key, which names
the date, the id and the order number of the order (`Keyed`). So no order has two cancellations
outstanding as long as its number stays and its key is retained (`keyed_run`).
-/

namespace TradingCore.Orders

open Base ManagedOrderStatus List Dict Broker
open Broker (GatewayCommand GatewayStateStore CommandRecord SQLiteCommandStore Time)

/-! ## What is outstanding -/

/-- A cancellation that waits in the queue or is with the Gateway. -/
def isOutstanding (record : CommandRecord) : Bool :=
  record.commandType = "cancel_order" ∧ (record.status = .queued ∨ record.status = .dispatched)

def outstandingCancels (g : GatewayStateStore) : List (String × CommandRecord) :=
  g.commandQueue.records.entries.filter fun e => isOutstanding e.2

variable {g : GatewayStateStore} {record : CommandRecord} {wall : Time} {store : SQLiteCommandStore}
  {order : ManagedOrder}

variable {e : String × CommandRecord} {key : String}

theorem mem_outstandingCancels :
    e ∈ outstandingCancels g ↔
      g.commandQueue.records.get? e.1 = some e.2 ∧ isOutstanding e.2 = true := by
  unfold outstandingCancels
  rw [mem_filter, ← mem_entries_iff]

theorem active_of_isOutstanding (h : isOutstanding record = true) : record.active = true := by
  obtain ⟨-, hstatus⟩ := of_decide_eq_true h
  unfold CommandRecord.active
  rcases hstatus with hstatus | hstatus
  · rw [hstatus]
    rfl
  · rw [hstatus]
    rfl

/-- The outstanding cancellations of `g'` are outstanding in `g`. -/
def Thins (g g' : GatewayStateStore) : Prop :=
  ∀ e ∈ outstandingCancels g', ∃ old ∈ outstandingCancels g, e.1 = old.1 ∧
    managedOrderOf e.2.command = managedOrderOf old.2.command ∧
    e.2.dedupeKey = old.2.dedupeKey
deriving Decidable

theorem Thins.refl (g : GatewayStateStore) : Thins g g :=
  fun e he => ⟨e, he, rfl, rfl, rfl⟩

/-- The command store still retains the keys of the outstanding cancellations for them. The
in-memory queue looks at the records themselves. -/
def retainsKeys (g : GatewayStateStore) (wall : Time) : Bool :=
  g.commandStore.all fun store => (outstandingCancels g).all fun e =>
    (store.retainedDedupe e.2.dedupeKey wall).any (·.commandId = e.1)

theorem retainsKeys_iff :
    retainsKeys g wall = true ↔ ∀ store, g.commandStore = some store →
      ∀ e ∈ outstandingCancels g, ∃ row, store.retainedDedupe e.2.dedupeKey wall = some row ∧
        row.commandId = e.1 := by
  unfold retainsKeys
  cases g.commandStore with
  | none => exact iff_of_true rfl nofun
  | some store =>
    rw [Option.all_some, all_eq_true]
    constructor
    · intro h store' heq e he
      injection heq with heq
      subst heq
      obtain ⟨row, hrow, hid⟩ := (Option.any_eq_true _ _).mp (h e he)
      exact ⟨row, hrow, of_decide_eq_true hid⟩
    · intro h e he
      obtain ⟨row, hrow, hid⟩ := h store rfl e he
      exact (Option.any_eq_true _ _).mpr ⟨row, hrow, decide_eq_true hid⟩

theorem not_admits (hretains : retainsKeys g wall = true) (he : e ∈ outstandingCancels g)
    (digest : GatewayCommand → String) {command : GatewayCommand}
    (hkey : dedupeKeyForCommand digest command = e.2.dedupeKey)
    (hne : command.commandId ≠ e.1) : ¬ GatewayStateStore.Admits digest g command wall := by
  obtain ⟨hget, hout⟩ := mem_outstandingCancels.mp he
  rintro ⟨-, hfree⟩
  cases hstore : g.commandStore with
  | none =>
    rw [hstore] at hfree
    have hinactive := (CommandQueue.activeDuplicate_eq_none
      (dedupeKeyForCommand_ne_empty digest command)).mp hfree.1 e.1 e.2 hget hkey.symm
    rw [active_of_isOutstanding hout] at hinactive
    cases hinactive
  | some store =>
    rw [hstore] at hfree
    obtain ⟨row, hrow, hid⟩ := retainsKeys_iff.mp hretains store hstore e he
    rw [← hkey] at hrow
    exact hne ((hfree.2 row hrow).symm.trans hid)

theorem key_ne_of_retained {row : DedupeRow} (h : store.retainedDedupe key wall = some row) :
    key ≠ "" := by
  rintro rfl
  cases h

theorem retainedDedupe_iff (hkey : key ≠ "") {commandId : String} :
    (∃ row, store.retainedDedupe key wall = some row ∧ row.commandId = commandId) ↔
      ∃ commandType expiresAt, store.ledger key = some (commandId, commandType, expiresAt) ∧
        ∀ t, expiresAt = some t → wall < t := by
  have hretained : ∀ row : DedupeRow,
      SQLiteCommandStore.DedupeRow.retainedAt row wall = true ↔
        ∀ t, row.expiresAt = some t → wall < t := by
    intro row
    unfold SQLiteCommandStore.DedupeRow.retainedAt
    cases row.expiresAt with
    | none => exact iff_of_true rfl nofun
    | some t =>
      constructor
      · intro h t' heq
        injection heq with heq
        rw [← heq]
        exact of_decide_eq_true h
      · exact fun h => decide_eq_true (h t rfl)
  unfold SQLiteCommandStore.retainedDedupe SQLiteCommandStore.ledger
  rw [if_neg hkey]
  cases store.dedupeKeys.get? key with
  | none => exact iff_of_false (fun h => nomatch h) (fun h => nomatch h)
  | some row =>
    constructor
    · rintro ⟨row', hrow', hid⟩
      obtain ⟨heq, hnow⟩ := Option.filter_eq_some_iff.mp hrow'
      injection heq with heq
      subst heq
      exact ⟨row.commandType, row.expiresAt, by rw [← hid]; rfl, (hretained row).mp hnow⟩
    · rintro ⟨commandType, expiresAt, hledger, hnow⟩
      injection hledger with hledger
      injection hledger with hid hrest
      injection hrest with _ hexpires
      refine ⟨row, Option.filter_eq_some_iff.mpr ⟨rfl, (hretained row).mpr ?_⟩, hid⟩
      rw [hexpires]
      exact hnow

theorem retained_enqueueRecord {commandId : String} (hkey : record.dedupeKey ≠ "")
    (hne : commandId ≠ record.commandId)
    (h : ∃ row, store.retainedDedupe key wall = some row ∧ row.commandId = commandId) :
    ∃ row, (store.enqueueRecord record wall).1.retainedDedupe key wall = some row ∧
      row.commandId = commandId := by
  obtain ⟨row, hrow, hid⟩ := h
  have hkey' := key_ne_of_retained hrow
  rw [retainedDedupe_iff hkey']
  rcases store.enqueueRecord_cases record wall with ⟨-, -, hledger, -⟩ |
    ⟨-, -, -, hfree, -, hledger, -⟩
  · rw [hledger]
    exact (retainedDedupe_iff hkey').mp ⟨row, hrow, hid⟩
  · -- the key was free for the record, so it is another one
    have hother : key ≠ record.dedupeKey := by
      rintro rfl
      exact hne (hid.symm.trans (hfree row hrow))
    rw [hledger, SQLiteCommandStore.ledger_upsertRecord store hkey, if_neg hother]
    exact (retainedDedupe_iff hkey').mp ⟨row, hrow, hid⟩

theorem retained_enqueued (hkey : record.dedupeKey ≠ "")
    (haccepted : (store.enqueueRecord record wall).2.accepted = true)
    (htype : SQLiteCommandStore.retainsDedupe record.commandType = true) :
    ∃ row, (store.enqueueRecord record wall).1.retainedDedupe record.dedupeKey wall = some row ∧
      row.commandId = record.commandId := by
  rw [retainedDedupe_iff hkey]
  rcases store.enqueueRecord_cases record wall with ⟨hrefused, -⟩ | ⟨-, -, -, -, -, hledger, -⟩
  · rw [hrefused] at haccepted
    cases haccepted
  · rw [hledger, SQLiteCommandStore.ledger_upsertRecord store hkey, if_pos rfl]
    refine ⟨_, _, rfl, ?_⟩
    intro t ht
    injection ht with ht
    unfold SQLiteCommandStore.dedupeExpiresAt at ht
    rw [if_pos htype] at ht
    rw [← ht]
    exact Int.lt_add_of_pos_right wall (by omega)

/-! ## The order number of an order -/

def Ledger.eventOrder (l : Ledger) (canonicalType : CanonicalType) (payload : OrderPayload) :
    Option (Nat × ManagedOrder) :=
  match ackPayload canonicalType payload with
  | some ack => l.ackedOrder ack
  | none => if canonicalType ∈ fillTypes then l.findExecutionOrder (.fromDict payload) else none

def eventNumber (canonicalType : CanonicalType) (payload : OrderPayload) : String :=
  if canonicalType ∈ fillTypes then payload.orderNo
  else orText payload.orderNo payload.orderResult.orderNo

theorem orText_assoc (a b c : String) : orText a (orText b c) = orText (orText a b) c := by
  unfold orText
  by_cases ha : a = ""
  · rw [if_pos ha, if_pos ha]
  · rw [if_neg ha, if_neg ha, if_neg ha]

theorem acked_orderNo {canonicalType : CanonicalType} {payload ack : OrderPayload}
    (h : ackPayload canonicalType payload = some ack) (order : ManagedOrder) :
    (order.acked ack).orderNo = orText (eventNumber canonicalType payload) order.orderNo := by
  have hnumbers : canonicalType ∉ fillTypes ∧ ack.orderNo = payload.orderNo ∧
      ack.orderResult = payload.orderResult := by
    cases canonicalType with
    | orderCancelled =>
      simp only [ackPayload] at h
      split at h
      · cases h
      · injection h with h
        rw [← h]
        exact ⟨by decide, rfl, rfl⟩
    | commandFailed | orderRejected | orderAccepted | orderCancelAccepted =>
      injection h with h
      rw [← h]
      exact ⟨by decide, rfl, rfl⟩
    | _ => cases h
  unfold eventNumber
  rw [if_neg hnumbers.1, ← orText_assoc, ← hnumbers.2.1, ← hnumbers.2.2]
  rfl

theorem Ledger.afterEvent_orderNo {l : Ledger} (canonicalType : CanonicalType)
    (payload : OrderPayload) {id : Nat} (h : l.managedOrders.get? id = some order) :
    ∃ order', (l.afterEvent canonicalType payload).managedOrders.get? id = some order' ∧
      order'.tradeDate = order.tradeDate ∧ (order'.orderNo = order.orderNo ∨
        l.eventOrder canonicalType payload = some (id, order) ∧
          order'.orderNo = orText (eventNumber canonicalType payload) order.orderNo) := by
  unfold afterEvent eventOrder
  cases hack : ackPayload canonicalType payload with
  | some ack =>
    simp only
    cases hfound : l.ackedOrder ack with
    | none => exact ⟨order, h, rfl, .inl rfl⟩
    | some found =>
      obtain ⟨id₀, order₀⟩ := found
      simp only [get?_set]
      by_cases hid : id = id₀
      · have hget := ackedOrder_spec hfound
        rw [← hid, h] at hget
        injection hget with hget
        subst hid hget
        exact ⟨_, if_pos rfl, rfl, .inr ⟨rfl, acked_orderNo hack order⟩⟩
      · exact ⟨order, (if_neg hid).trans h, rfl, .inl rfl⟩
  | none =>
    simp only
    by_cases hfill : canonicalType ∈ fillTypes
    · rw [if_pos hfill, if_pos hfill]
      cases hfound : l.findExecutionOrder (.fromDict payload) with
      | none => exact ⟨order, h, rfl, .inl rfl⟩
      | some found =>
        obtain ⟨id₀, order₀⟩ := found
        simp only [afterExecution, get?_set]
        by_cases hid : id = id₀
        · have hget := l.findExecutionOrder_spec hfound
          rw [← hid, h] at hget
          injection hget with hget
          subst hid hget
          refine ⟨_, if_pos rfl, rfl, .inr ⟨rfl, ?_⟩⟩
          rw [eventNumber, if_pos hfill]
          rfl
        · exact ⟨order, (if_neg hid).trans h, rfl, .inl rfl⟩
    · rw [if_neg hfill]
      exact ⟨order, h, rfl, .inl rfl⟩

theorem ManagedOrder.cancelKey_congr {order' : ManagedOrder} (id : Nat)
    (hdate : order'.tradeDate = order.tradeDate) (hnumber : order'.orderNo = order.orderNo)
    (tradeDate : String) : order'.cancelKey id tradeDate = order.cancelKey id tradeDate := by
  unfold cancelKey
  rw [hdate, hnumber]

theorem ManagedOrder.cancelKey_dated (h : order.tradeDate ≠ "") (id : Nat) (tradeDate : String) :
    order.cancelKey id tradeDate = order.cancelKey id "" := by
  unfold cancelKey orText
  rw [if_neg h, if_neg h]

theorem ManagedOrder.cancelOf_dedupeKey (order : ManagedOrder) (config : OrderManagerSettings)
    (digest : GatewayCommand → String) (cycle : Cycle) (id : Nat) :
    dedupeKeyForCommand digest (order.cancelOf config cycle id) =
      order.cancelKey id cycle.tradeDate := by
  have hkey : (order.cancelOf config cycle id).idempotencyKey ≠ "" :=
    append_colon_ne_empty _ order.orderNo
  unfold dedupeKeyForCommand
  rw [if_pos hkey]
  rfl

namespace OrderManagerRuntimePipeline

variable {config : OrderManagerSettings} {digest : GatewayCommand → String}

/-! ## Enqueueing a command -/

variable {p : OrderManagerRuntimePipeline} {command : GatewayCommand}

theorem thins_enqueueCommand {cycle : Cycle}
    (h : (p.enqueueCommand config digest cycle command).2 = false ∨ command.type ≠ "cancel_order") :
    Thins p.gatewayState (p.enqueueCommand config digest cycle command).1.gatewayState := by
  intro e he
  obtain ⟨hget, hout⟩ := mem_outstandingCancels.mp he
  refine ⟨e, mem_outstandingCancels.mpr ⟨?_, hout⟩, rfl, rfl, rfl⟩
  rcases enqueueCommand_get? config digest p cycle command with ⟨-, hsame⟩ | ⟨haccepted, hput⟩
  · rw [← hsame]
    exact hget
  · rw [hput] at hget
    split at hget
    · injection hget with hget
      have htype : command.type ≠ "cancel_order" := by
        refine h.resolve_left ?_
        rw [haccepted]
        exact Bool.noConfusion
      rw [← hget] at hout
      exact absurd (of_decide_eq_true hout).1 htype
    · exact hget

theorem enqueueCommand_stored (config : OrderManagerSettings) (digest : GatewayCommand → String)
    (cycle : Cycle) (hid : command.commandId ≠ "") {store : SQLiteCommandStore}
    (hstore : p.gatewayState.commandStore = some store) :
    (p.enqueueCommand config digest cycle command).2 =
        (store.enqueueRecord (enqueuedRecord config digest cycle command) cycle.wall).2.accepted ∧
      (p.enqueueCommand config digest cycle command).1.gatewayState.commandStore =
        some (store.enqueueRecord (enqueuedRecord config digest cycle command) cycle.wall).1 := by
  unfold enqueueCommand GatewayStateStore.enqueueCommand
  simp only [hstore, hid, if_false]
  exact ⟨rfl, rfl⟩

theorem enqueueCommand_unstored (cycle : Cycle) (command : GatewayCommand)
    (hstore : p.gatewayState.commandStore = none) :
    (p.enqueueCommand config digest cycle command).1.gatewayState.commandStore = none := by
  unfold enqueueCommand GatewayStateStore.enqueueCommand
  simp only [hstore]

theorem retainsKeys_enqueueCommand {cycle : Cycle} (hid : command.commandId ≠ "")
    (hnew : p.gatewayState.commandQueue.records.get? command.commandId = none)
    (hretains : retainsKeys p.gatewayState cycle.wall = true) :
    retainsKeys (p.enqueueCommand config digest cycle command).1.gatewayState cycle.wall = true := by
  refine retainsKeys_iff.mpr ?_
  intro store' hstore' e he
  obtain ⟨hget, hout⟩ := mem_outstandingCancels.mp he
  cases hstore : p.gatewayState.commandStore with
  | none =>
    rw [enqueueCommand_unstored cycle command hstore] at hstore'
    cases hstore'
  | some store =>
    obtain ⟨hflag, hafter⟩ := enqueueCommand_stored config digest cycle hid hstore
    rw [hafter] at hstore'
    injection hstore' with hstore'
    subst hstore'
    have hkey : (enqueuedRecord config digest cycle command).dedupeKey ≠ "" :=
      CommandRecord.create_dedupeKey_ne_empty digest command config.enqueueOptions _
    rcases enqueueCommand_get? config digest p cycle command with
      ⟨-, hsame⟩ | ⟨haccepted, hput⟩
    · rw [hsame] at hget
      refine retained_enqueueRecord hkey ?_ (retainsKeys_iff.mp hretains store hstore e
        (mem_outstandingCancels.mpr ⟨hget, hout⟩))
      rintro heq
      rw [heq] at hget
      exact nomatch hnew.symm.trans hget
    · rw [hput] at hget
      split at hget
      · -- the new cancellation
        rename_i heq
        injection hget with hget
        have htype : command.type = "cancel_order" := by
          rw [← hget] at hout
          exact (of_decide_eq_true hout).1
        rw [← hget, heq]
        refine retained_enqueued hkey (hflag.symm.trans haccepted) ?_
        show SQLiteCommandStore.retainsDedupe command.type = true
        rw [htype]
        decide
      · rename_i hne
        exact retained_enqueueRecord hkey hne (retainsKeys_iff.mp hretains store hstore e
          (mem_outstandingCancels.mpr ⟨hget, hout⟩))

/-! ## One cancellation to an order -/

/-- No order has two cancellations outstanding. -/
def AtMostOneOutstanding (p : OrderManagerRuntimePipeline) : Prop :=
  ∀ a ∈ outstandingCancels p.gatewayState, ∀ b ∈ outstandingCancels p.gatewayState,
    managedOrderOf a.2.command = managedOrderOf b.2.command → a.1 = b.1

/-- The event leaves the order number of an order with an outstanding cancellation as it is. -/
def keepsNumber (p : OrderManagerRuntimePipeline) (canonicalType : CanonicalType)
    (payload : OrderPayload) : Bool :=
  match p.db.eventOrder canonicalType payload with
  | none => true
  | some (id, order) =>
      eventNumber canonicalType payload = "" || eventNumber canonicalType payload = order.orderNo ||
        (outstandingCancels p.gatewayState).all fun e =>
          managedOrderOf e.2.command ≠ orderValue id

/-- An outstanding cancellation keeps the key of its order: the order is dated, its number
stays, the key is retained when the scheduler runs, and the Gateway puts no cancellation back. -/
def KeepsKeys (p : OrderManagerRuntimePipeline) : Action → Prop
  | .processIntent cycle _ _ => cycle.tradeDate ≠ ""
  | .cancelUnfilled cycle => retainsKeys p.gatewayState cycle.wall = true
  | .applyEvent canonicalType payload _ => p.keepsNumber canonicalType payload = true
  | .gateway state => Thins p.gatewayState state
  | .begin _ | .markReconcileRequired .. => True

instance decidableKeepsKeys (p : OrderManagerRuntimePipeline) :
    ∀ action, Decidable (p.KeepsKeys action)
  | .processIntent cycle _ _ => inferInstanceAs (Decidable (cycle.tradeDate ≠ ""))
  | .cancelUnfilled cycle =>
      inferInstanceAs (Decidable (retainsKeys p.gatewayState cycle.wall = true))
  | .applyEvent canonicalType payload _ =>
      inferInstanceAs (Decidable (p.keepsNumber canonicalType payload = true))
  | .gateway state => inferInstanceAs (Decidable (Thins p.gatewayState state))
  | .begin _ => .isTrue trivial
  | .markReconcileRequired .. => .isTrue trivial

/-- Every order has a date, and an outstanding cancellation the key of its order. -/
structure Keyed (p : OrderManagerRuntimePipeline) : Prop where
  dated : ∀ {id order}, p.db.managedOrders.get? id = some order → order.tradeDate ≠ ""
  keyed : ∀ e ∈ outstandingCancels p.gatewayState, ∃ id order,
    managedOrderOf e.2.command = orderValue id ∧ p.db.managedOrders.get? id = some order ∧
      e.2.dedupeKey = order.cancelKey id ""
  one : p.AtMostOneOutstanding

theorem keyed_empty : Keyed {} where
  dated h := nomatch h
  keyed := fun _ he => absurd he not_mem_nil
  one := fun _ ha => absurd ha not_mem_nil

/-- Every order keeps its date and its number. -/
def SameMarks (p p' : OrderManagerRuntimePipeline) : Prop :=
  ∀ k, (p'.db.managedOrders.get? k).map (fun o => (o.tradeDate, o.orderNo)) =
    (p.db.managedOrders.get? k).map (fun o => (o.tradeDate, o.orderNo))

namespace Keyed

variable {p p' : OrderManagerRuntimePipeline}

theorem thin (h : Keyed p) (hthin : Thins p.gatewayState p'.gatewayState)
    (hdated : ∀ {id order}, p'.db.managedOrders.get? id = some order → order.tradeDate ≠ "")
    (hkeys : ∀ {id order}, p.db.managedOrders.get? id = some order →
      (∃ e ∈ outstandingCancels p.gatewayState, managedOrderOf e.2.command = orderValue id) →
      ∃ order', p'.db.managedOrders.get? id = some order' ∧
        order'.cancelKey id "" = order.cancelKey id "") : Keyed p' where
  dated := hdated
  keyed := by
    intro e he
    obtain ⟨old, hold, -, horder, hkey⟩ := hthin e he
    obtain ⟨id, order, hid, hget, hheld⟩ := h.keyed old hold
    obtain ⟨order', hget', hsame⟩ := hkeys hget ⟨old, hold, hid⟩
    exact ⟨id, order', horder.trans hid, hget', by rw [hkey, hheld, hsame]⟩
  one := by
    intro a ha b hb heq
    obtain ⟨a', ha', hida, hordera, -⟩ := hthin a ha
    obtain ⟨b', hb', hidb, horderb, -⟩ := hthin b hb
    rw [hida, hidb]
    exact h.one a' ha' b' hb' (hordera.symm.trans (heq.trans horderb))

theorem dated_of_marks (h : Keyed p) (hmarks : SameMarks p p') {id : Nat} {order' : ManagedOrder}
    (hget' : p'.db.managedOrders.get? id = some order') : order'.tradeDate ≠ "" := by
  have hmap := hmarks id
  rw [hget'] at hmap
  obtain ⟨order, hget, hsame⟩ := Option.map_eq_some_iff.mp hmap.symm
  injection hsame with hdate _
  rw [← hdate]
  exact h.dated hget

theorem key_of_marks (hmarks : SameMarks p p') {id : Nat} {order : ManagedOrder}
    (hget : p.db.managedOrders.get? id = some order) :
    ∃ order', p'.db.managedOrders.get? id = some order' ∧
      order'.cancelKey id "" = order.cancelKey id "" := by
  have hmap := hmarks id
  rw [hget] at hmap
  obtain ⟨order', hget', hsame⟩ := Option.map_eq_some_iff.mp hmap
  injection hsame with hdate hnumber
  exact ⟨order', hget', ManagedOrder.cancelKey_congr id hdate hnumber ""⟩

theorem of_marks (h : Keyed p) (hthin : Thins p.gatewayState p'.gatewayState)
    (hmarks : SameMarks p p') : Keyed p' :=
  h.thin hthin (h.dated_of_marks hmarks) fun hget _ => key_of_marks hmarks hget

theorem applyEvent (h : Keyed p) {canonicalType : CanonicalType} {payload : OrderPayload}
    (today : String) (hkeeps : p.keepsNumber canonicalType payload = true) :
    Keyed (p.act config digest (.applyEvent canonicalType payload today)).1 := by
  refine h.thin (Thins.refl _) ?_ ?_
  · intro id order' hget'
    rw [toLedger_applyEvent] at hget'
    have hmap := map_afterEvent (·.tradeDate) (fun _ _ => rfl) (fun _ _ => rfl) p.db.toLedger
      canonicalType payload id
    rw [hget'] at hmap
    obtain ⟨order, hget, hdate⟩ := Option.map_eq_some_iff.mp hmap.symm
    have hsame : order.tradeDate = order'.tradeDate := hdate
    rw [← hsame]
    exact h.dated hget
  · intro id order hget hcancel
    rw [toLedger_applyEvent]
    obtain ⟨order', hget', hdate, hnumber⟩ :=
      Ledger.afterEvent_orderNo canonicalType payload hget
    refine ⟨order', hget', ManagedOrder.cancelKey_congr id hdate ?_ ""⟩
    rcases hnumber with hsame | ⟨hevent, hbrought⟩
    · exact hsame
    · -- an event for the order of an outstanding cancellation brings no other number
      unfold keepsNumber at hkeeps
      rw [hevent] at hkeeps
      obtain ⟨e, he, horder⟩ := hcancel
      rw [hbrought]
      rcases Bool.or_eq_true_iff.mp hkeeps with hnumber | hnone
      · unfold orText
        rcases Bool.or_eq_true_iff.mp hnumber with hempty | hequal
        · rw [if_pos (of_decide_eq_true hempty)]
        · split
          · rfl
          · exact of_decide_eq_true hequal
      · exact absurd horder (of_decide_eq_true (all_eq_true.mp hnone e he))

end Keyed

/-! ## New orders and new cancellations -/

theorem thins_processIntent (config : OrderManagerSettings) (digest : GatewayCommand → String)
    (p : OrderManagerRuntimePipeline) (cycle : Cycle) (killSwitchState : KillSwitchState)
    (intent : ManagedOrderIntent) :
    Thins p.gatewayState
      (p.processIntent config digest cycle killSwitchState intent).1.gatewayState := by
  have hsend : ∀ (q : OrderManagerRuntimePipeline) id order,
      q.gatewayState = p.gatewayState →
        Thins p.gatewayState (q.sendOrder config digest cycle intent id order).1.gatewayState := by
    intro q id order hsame
    rw [← hsame]
    unfold sendOrder
    simp only
    split
    · exact Thins.refl _
    · have htype : "send_order" ≠ "cancel_order" := by decide
      exact thins_enqueueCommand (.inr htype)
  unfold processIntent
  split
  · exact Thins.refl _
  · simp only
    split
    · split
      · exact hsend _ _ _ rfl
      · exact Thins.refl _
    · exact Thins.refl _

variable {p : OrderManagerRuntimePipeline} {cycle : Cycle}

theorem Keyed.processIntent (h : Keyed p) (hp : p.WellKept) (hdate : cycle.tradeDate ≠ "")
    (killSwitchState : KillSwitchState) (intent : ManagedOrderIntent) :
    Keyed (p.processIntent config digest cycle killSwitchState intent).1 := by
  have hthin := thins_processIntent config digest p cycle killSwitchState intent
  have hspec := processIntent_spec config digest p cycle killSwitchState intent
  generalize p.processIntent config digest cycle killSwitchState intent = result at hspec hthin ⊢
  have hnewRow : ∀ {q : OrderManagerRuntimePipeline} {order : ManagedOrder},
      p.intents.get? intent.idempotencyKey = none →
      q.db.managedOrders = p.db.managedOrders.set (p.db.orderIdFor intent.idempotencyKey) order →
      order.tradeDate = orText intent.tradeDate cycle.tradeDate →
      Thins p.gatewayState q.gatewayState → Keyed q := by
    intro q order hnew hrows htrade hthin
    refine h.thin hthin ?_ ?_
    · intro id order' hget
      rw [hrows, get?_set] at hget
      split at hget
      · injection hget with hget
        rw [← hget, htrade]
        unfold orText
        split
        · exact hdate
        · assumption
      · exact h.dated hget
    · intro id order' hget _
      have hne : id ≠ p.db.orderIdFor intent.idempotencyKey := by
        rintro rfl
        rw [hp.new_id hnew] at hget
        cases hget
      exact ⟨order', by rw [hrows, get?_set_ne _ _ hne, hget], rfl⟩
  cases hspec with
  | known _ => exact h
  | stopped _ => exact h.of_marks hthin fun _ => rfl
  | blocked hnew happroved _ => exact hnewRow hnew rfl rfl hthin
  | sent gateway status hnew happroved _ _ _ => exact hnewRow hnew rfl rfl hthin

variable {id : Nat}

theorem marks_cancelSaved {l : Ledger} {order : ManagedOrder}
    (hget : l.managedOrders.get? id = some order) (accepted : Bool) (command : GatewayCommand)
    (k : Nat) :
    ((l.managedOrders.set id (cancelSaved order accepted command)).get? k).map
        (fun o => (o.tradeDate, o.orderNo)) =
      (l.managedOrders.get? k).map (fun o => (o.tradeDate, o.orderNo)) := by
  refine map_get?_set _ hget ?_ k
  rfl

theorem Keyed.none_outstanding (h : Keyed p)
    (hretains : retainsKeys p.gatewayState cycle.wall = true) {order : ManagedOrder}
    (hget : p.db.managedOrders.get? id = some order)
    (hnew : p.gatewayState.commandQueue.records.get?
      (order.cancelOf config cycle id).commandId = none)
    (haccepted : (p.enqueueCommand config digest cycle (order.cancelOf config cycle id)).2 = true) :
    ∀ e ∈ outstandingCancels p.gatewayState, managedOrderOf e.2.command ≠ orderValue id := by
  intro e he horder
  obtain ⟨id', order', hid', hget', hkey⟩ := h.keyed e he
  have hsame : id' = id := orderValue_inj (hid'.symm.trans horder)
  subst hsame
  rw [hget] at hget'
  injection hget' with hget'
  subst hget'
  refine not_admits hretains he digest ?_ ?_
    ((GatewayStateStore.accepted_iff digest p.gatewayState _ config.enqueueOptions
      (some cycle.now) cycle.wall).mp haccepted)
  · rw [order.cancelOf_dedupeKey, hkey, ManagedOrder.cancelKey_dated (h.dated hget)]
  · intro heq
    have hold := (mem_outstandingCancels.mp he).1
    rw [← heq, hnew] at hold
    cases hold

theorem Keyed.queueCancel (h : Keyed p) (hretains : retainsKeys p.gatewayState cycle.wall = true)
    (hnew : ∀ command ∈ (p.queueCancel config digest cycle id).2,
      p.gatewayState.commandQueue.records.get? command.commandId = none) :
    Keyed (p.queueCancel config digest cycle id).1 := by
  cases hget : p.db.managedOrders.get? id with
  | none =>
    rw [queueCancel_of_none hget]
    exact h
  | some order =>
    rw [queueCancel_of_some hget] at hnew ⊢
    have hfree := hnew _ (mem_singleton_self _)
    have hmarks : ∀ accepted, SameMarks p
        ((p.enqueueCommand config digest cycle (order.cancelOf config cycle id)).1.saveManagedOrder
          id (cancelSaved order accepted (order.cancelOf config cycle id))) :=
      fun accepted => marks_cancelSaved hget accepted (order.cancelOf config cycle id)
    rcases enqueueCommand_get? config digest p cycle (order.cancelOf config cycle id) with
      ⟨hrefused, -⟩ | ⟨haccepted, hput⟩
    · exact h.of_marks (thins_enqueueCommand (.inl hrefused)) (hmarks _)
    · have hnone := h.none_outstanding hretains hget hfree haccepted
      -- the new cancellation, or one of another order
      have hcases : ∀ e ∈ outstandingCancels (p.enqueueCommand config digest cycle
          (order.cancelOf config cycle id)).1.gatewayState,
          e.1 = (order.cancelOf config cycle id).commandId ∧
              e.2 = enqueuedRecord config digest cycle (order.cancelOf config cycle id) ∨
            e ∈ outstandingCancels p.gatewayState := by
        intro e he
        obtain ⟨hrecord, hout⟩ := mem_outstandingCancels.mp he
        rw [hput] at hrecord
        split at hrecord
        · rename_i hid
          injection hrecord with hrecord
          exact .inl ⟨hid, hrecord.symm⟩
        · exact .inr (mem_outstandingCancels.mpr ⟨hrecord, hout⟩)
      have hnewOrder : managedOrderOf
          (enqueuedRecord config digest cycle (order.cancelOf config cycle id)).command =
            orderValue id := order.cancelOf_order config cycle id
      refine ⟨h.dated_of_marks (hmarks _), ?_, ?_⟩
      · intro e he
        rcases hcases e he with ⟨-, heq⟩ | hold
        · obtain ⟨order', hget', hsame⟩ := Keyed.key_of_marks (hmarks _) hget
          refine ⟨id, order', by rw [heq, hnewOrder], hget', ?_⟩
          rw [heq, hsame, ← ManagedOrder.cancelKey_dated (h.dated hget) id cycle.tradeDate]
          exact order.cancelOf_dedupeKey config digest cycle id
        · obtain ⟨id', order', horder, hget', hkey⟩ := h.keyed e hold
          obtain ⟨order'', hget'', hsame⟩ := Keyed.key_of_marks (hmarks _) hget'
          exact ⟨id', order'', horder, hget'', hkey.trans hsame.symm⟩
      · intro a ha b hb heq
        rcases hcases a ha with ⟨hida, hneweqa⟩ | holda
        · rcases hcases b hb with ⟨hidb, -⟩ | holdb
          · rw [hida, hidb]
          · rw [hneweqa, hnewOrder] at heq
            exact absurd heq.symm (hnone b holdb)
        · rcases hcases b hb with ⟨-, hneweqb⟩ | holdb
          · rw [hneweqb, hnewOrder] at heq
            exact absurd heq (hnone a holda)
          · exact h.one a holda b holdb heq

theorem retainsKeys_queueCancel (hretains : retainsKeys p.gatewayState cycle.wall = true)
    (hnew : ∀ command ∈ (p.queueCancel config digest cycle id).2, command.commandId ≠ "" ∧
      p.gatewayState.commandQueue.records.get? command.commandId = none) :
    retainsKeys (p.queueCancel config digest cycle id).1.gatewayState cycle.wall = true := by
  cases hget : p.db.managedOrders.get? id with
  | none =>
    rw [queueCancel_of_none hget]
    exact hretains
  | some order =>
    rw [queueCancel_of_some hget] at hnew ⊢
    obtain ⟨hid, hfree⟩ := hnew _ (mem_singleton_self _)
    exact retainsKeys_enqueueCommand hid hfree hretains

theorem Keyed.queueCancels {ids : List Nat} (h : Keyed p)
    (hretains : retainsKeys p.gatewayState cycle.wall = true)
    (hnodup : ((queueCancels config digest cycle p ids).2.map (·.commandId)).Nodup)
    (hnew : ∀ command ∈ (queueCancels config digest cycle p ids).2, command.commandId ≠ "" ∧
      p.gatewayState.commandQueue.records.get? command.commandId = none) :
    Keyed (queueCancels config digest cycle p ids).1 := by
  induction ids generalizing p with
  | nil => exact h
  | cons id rest ih =>
    rw [queueCancels_cons] at hnodup hnew ⊢
    simp only at hnodup hnew ⊢
    rw [map_append, nodup_append] at hnodup
    obtain ⟨-, hrest, hapart⟩ := hnodup
    have hfirst := fun command hcommand =>
      hnew command (mem_append_left _ hcommand)
    refine ih (h.queueCancel hretains fun command hcommand => (hfirst command hcommand).2)
      (retainsKeys_queueCancel hretains hfirst) hrest ?_
    intro later hlater
    obtain ⟨hid, hfree⟩ := hnew later (mem_append_right _ hlater)
    refine ⟨hid, (queueCancel_get? ?_).trans hfree⟩
    intro command hcommand
    exact hapart _ (mem_map_of_mem hcommand) _ (mem_map_of_mem hlater)

/-! ## Runs -/

theorem Keyed.act (h : Keyed p) (hp : p.WellKept) {action : Action} (hkeeps : p.KeepsKeys action)
    (hnodup : ((p.act config digest action).2.map (·.commandId)).Nodup)
    (hnew : ∀ command ∈ (p.act config digest action).2, command.commandId ≠ "" ∧
      p.gatewayState.commandQueue.records.get? command.commandId = none) :
    Keyed (p.act config digest action).1 := by
  cases action with
  | begin cycle =>
    exact h.of_marks (Thins.refl _) fun k =>
      map_begin (fun o => (o.tradeDate, o.orderNo)) (fun _ _ => rfl) p cycle k
  | processIntent cycle killSwitchState intent =>
    exact h.processIntent hp hkeeps killSwitchState intent
  | cancelUnfilled cycle => exact h.queueCancels hkeeps hnodup hnew
  | applyEvent canonicalType payload today => exact h.applyEvent today hkeeps
  | markReconcileRequired reason payload today =>
    exact h.of_marks (Thins.refl _) fun _ => rfl
  | gateway state => exact h.of_marks hkeeps fun _ => rfl

theorem keyed_run {steps : List Action}
    (hids : ∀ past action, past ++ [action] <+: steps → DrawsNewIds config digest past action)
    (hkeeps : (machine config digest).Guarded KeepsKeys {} steps) :
    ∀ past, past <+: steps → Keyed (reached config digest past) := by
  refine prefix_induction keyed_empty ?_
  intro past action hpre hkeyed
  obtain ⟨hnodup, hnew⟩ := hids past action hpre
  rw [reached_concat]
  exact hkeyed.act (wellKept_reached config digest past)
    (Machine.guarded_iff_prefix.mp hkeeps past action hpre) hnodup
    fun command hcommand => ⟨(hnew command hcommand).1, (hnew command hcommand).2.2⟩

end OrderManagerRuntimePipeline

end TradingCore.Orders
