import TradingCore.Orders.EventWrites
import TradingCore.Orders.ReplayLemmas

/-!
# The effect of an order event under crashes and repetitions

`dispatch` commits its writes one by one and the receipt last, so an attempt that stops before the
receipt is repeated from the beginning. The effect of the event is then that of one undisturbed
attempt when every write absorbs its own repetition.

* An acknowledgement and the order part of a fill do (`acked_acked`, `executed_executed`).
* The position part of a fill does for a purchase, whose quantities are totals. A sale is
  subtracted again, unless it sold everything that was held.
* A fill that names no order and completes the one that was found by code and side does not find
  it again.

`exactlyOnce_iff_lasting` shows that nothing else goes wrong.
-/

namespace TradingCore.Orders

open Base ManagedOrderStatus Ledger Write ManagedOrder Dict Option List Procedure

/-! ## The property and its condition -/

/-- However many attempts at the event are stopped, after however many commits, and however
often it is repeated: a completed attempt leaves the ledger of a single undisturbed one.
The dates are those on which the attempts run. -/
def ExactlyOnce (config : OrderConsumerConfig) (event : CanonicalGatewayEvent) (db : Database) :
    Prop :=
  ∀ (attempts : List (String × Nat)) (today once : String),
    (((dispatcher config event).attempts db attempts).dispatch config event today).toLedger =
      (db.dispatch config event once).toLedger

/-- The position takes the execution of the saved order `order` as often as it comes: it is
a purchase, it has no quantity, or it sells all that is held. -/
def Ledger.Repeatable (l : Ledger) (order : ManagedOrder) (execution : BrokerExecutionEvent) :
    Prop :=
  order.positionSide execution = "BUY" ∨ order.filledDelta execution = 0 ∨
    0 < order.filledDelta execution ∧
      ((l.getLiveSimPosition (order.positionKey execution)).map (·.currentQty)).getD 0 ≤
        order.filledDelta execution

/-- Nothing is left to do for the execution of the saved order `order`: the position has its
row already, and if the execution finds another order, that one and its position have it
too. -/
def Ledger.Settled (l : Ledger) (id : Nat) (order : ManagedOrder)
    (execution : BrokerExecutionEvent) : Prop :=
  (l.syncLiveSimPosition id order execution).onLedger l = l ∧
    ∀ id' order', ({ l with managedOrders := l.managedOrders.set id order } :
        Ledger).findExecutionOrder execution = some (id', order') →
      order'.executed execution = order' ∧
        (l.syncLiveSimPosition id' order' execution).onLedger l = l

/-- What a fill needs for its repetitions to be harmless. -/
def Ledger.Absorbs (l : Ledger) (execution : BrokerExecutionEvent) : Prop :=
  ∀ id order, l.findExecutionOrder execution = some (id, order) →
    (l.Names execution ∨ order.statusAfterFill execution ≠ filled →
      l.Repeatable (order.executed execution) execution) ∧
    (¬ l.Names execution → order.statusAfterFill execution = filled →
      l.Settled id (order.executed execution) execution)

/-- The event is not applied, is no fill, or is a fill whose repetitions are harmless. -/
def Lasting (config : OrderConsumerConfig) (event : CanonicalGatewayEvent) (db : Database) :
    Prop :=
  db.skips config event ∨ event.canonicalType ∉ fillTypes ∨
    db.toLedger.Absorbs (.fromDict event.payload)

/-! ## Handlers on a ledger that has the effect already -/

namespace Ledger

variable {l l' : Ledger}

theorem handleCommandAck_congr (h : l'.managedOrders = l.managedOrders) (ack : OrderPayload) :
    l'.handleCommandAck ack = l.handleCommandAck ack := by
  unfold handleCommandAck
  rw [findManagedOrderByCommandId_congr h]

variable {id : Nat} {order : ManagedOrder} {execution : BrokerExecutionEvent}

theorem handleCommandAck_again {ack : OrderPayload} (hcommand : ack.commandId ≠ "")
    (hfound : l.findManagedOrderByCommandId ack.commandId = some (id, order))
    (hsaved : l'.managedOrders = l.managedOrders.set id (order.acked ack)) :
    l'.handleCommandAck ack = l.handleCommandAck ack := by
  have hfound' : l'.findManagedOrderByCommandId ack.commandId = some (id, order.acked ack) := by
    unfold findManagedOrderByCommandId at hfound ⊢
    rw [hsaved]
    exact (latest_rewrite (fun row => row.commandId = ack.commandId) (order.acked ack)
      (latest?_spec hfound).1 rfl).1 hfound
  rw [handleCommandAck_of_found hcommand hfound', handleCommandAck_of_found hcommand hfound,
    acked_acked]

theorem positionRecord_eq {old new : Option LiveSimPosition}
    (hnext : order.nextQuantity execution ((new.map (·.currentQty)).getD 0) =
      order.nextQuantity execution ((old.map (·.currentQty)).getD 0))
    (hentry : order.entryQuantity execution ((new.map (·.entryQty)).getD 0)
        ((new.map (·.currentQty)).getD 0) =
      order.entryQuantity execution ((old.map (·.entryQty)).getD 0)
        ((old.map (·.currentQty)).getD 0)) :
    order.positionRecord execution id new = order.positionRecord execution id old := by
  unfold positionRecord
  rw [hnext, hentry]

theorem positionRecord_again (hrepeatable : l.Repeatable order execution) :
    order.positionRecord execution id (some ((order.positionRecord execution id
        (l.getLiveSimPosition (order.positionKey execution))).onConflict
          (l.getLiveSimPosition (order.positionKey execution)))) =
      order.positionRecord execution id (l.getLiveSimPosition (order.positionKey execution)) := by
  unfold Repeatable at hrepeatable
  generalize l.getLiveSimPosition (order.positionKey execution) = old at hrepeatable ⊢
  -- both quantities are fixed points
  have hnext : ∀ current, (order.positionSide execution = "BUY" ∨
      order.filledDelta execution = 0 ∨ 0 < order.filledDelta execution ∧
        current ≤ order.filledDelta execution) →
      order.nextQuantity execution (order.nextQuantity execution current) =
        order.nextQuantity execution current := by
    intro current hcurrent
    unfold nextQuantity
    split
    · omega
    · rename_i hside
      rcases hcurrent with h | h | h
      · exact absurd h hside
      · omega
      · omega
  apply positionRecord_eq
  · rw [map_some, getD_some, LiveSimPosition.onConflict_currentQty,
      positionRecord_currentQty]
    exact hnext _ hrepeatable
  · rw [map_some, getD_some, map_some, getD_some,
      LiveSimPosition.onConflict_currentQty, LiveSimPosition.onConflict_entryQty,
      positionRecord_currentQty, positionRecord_entryQty]
    have hagain := hnext _ hrepeatable
    unfold entryQuantity
    rw [hagain]
    split
    · omega
    · -- a sale keeps the entry quantity once there is one
      rename_i hside
      unfold nextQuantity
      rw [if_neg hside]
      unfold orInt
      split_ifs <;> omega

theorem handleExecution_again (hfound : l.findExecutionOrder execution = some (id, order))
    (hopen : l.Names execution ∨ order.statusAfterFill execution ≠ filled)
    (hsaved : l'.managedOrders = l.managedOrders.set id (order.executed execution))
    (hposition : l'.liveSimPositions = l.liveSimPositions ∨
      l.Repeatable (order.executed execution) execution ∧
        l'.liveSimPositions =
          ((l.syncLiveSimPosition id (order.executed execution) execution).onLedger
            l).liveSimPositions) : l'.handleExecution execution = l.handleExecution execution := by
  rw [handleExecution_of_found (findExecutionOrder_again hfound hsaved hopen),
    handleExecution_of_found hfound, executed_executed]
  have hsync : l'.syncLiveSimPosition id (order.executed execution) execution =
      l.syncLiveSimPosition id (order.executed execution) execution := by
    unfold syncLiveSimPosition
    simp only
    rcases hposition with h | ⟨hrepeatable, h⟩
    · unfold getLiveSimPosition
      rw [h]
    · have hrow : l'.getLiveSimPosition ((order.executed execution).positionKey execution) =
          some (((order.executed execution).positionRecord execution id
            (l.getLiveSimPosition ((order.executed execution).positionKey execution))).onConflict
              (l.getLiveSimPosition ((order.executed execution).positionKey execution))) := by
        unfold getLiveSimPosition
        rw [h]
        exact get?_upsert_self _ _ _
      rw [hrow, positionRecord_again hrepeatable]
  rw [hsync]

/-! ## Equal results make equal attempts -/

theorem applicationWrites_eq_of_applied {event : CanonicalGatewayEvent} {today once : String}
    (h : (l'.applyCanonicalOrderEvent event.canonicalType event.payload today).1 =
        (l.applyCanonicalOrderEvent event.canonicalType event.payload once).1 ∧
      (l'.applyCanonicalOrderEvent event.canonicalType event.payload today).2.map
          onLedger =
        (l.applyCanonicalOrderEvent event.canonicalType event.payload once).2.map onLedger) :
    (l'.applicationWrites event today).map onLedger =
      (l.applicationWrites event once).map onLedger := by
  rw [applicationWrites_eq, applicationWrites_eq, map_append, map_append, h.1, h.2]

theorem applyOrderAck_eq {ack : OrderPayload}
    (h : l'.handleCommandAck ack = l.handleCommandAck ack) (today once : String) :
    (l'.applyOrderAck ack today).1 = (l.applyOrderAck ack once).1 ∧
      (l'.applyOrderAck ack today).2.map onLedger = (l.applyOrderAck ack once).2.map onLedger := by
  unfold applyOrderAck
  rw [h]
  simp only
  split
  · exact ⟨rfl, rfl⟩
  · refine ⟨rfl, ?_⟩
    rw [map_append, map_append]
    rfl

theorem applyOrderFill_eq {payload : OrderPayload}
    (h : l'.handleExecution (.fromDict payload) = l.handleExecution (.fromDict payload))
    (today once : String) :
    (l'.applyOrderFill payload today).1 = (l.applyOrderFill payload once).1 ∧
      (l'.applyOrderFill payload today).2.map onLedger =
        (l.applyOrderFill payload once).2.map onLedger := by
  unfold applyOrderFill
  rw [h]
  simp only
  split
  · exact ⟨rfl, rfl⟩
  · refine ⟨rfl, ?_⟩
    rw [map_append, map_append]
    rfl

theorem sync_fixed (hpositions : l'.liveSimPositions = l.liveSimPositions)
    (h : (l.syncLiveSimPosition id order execution).onLedger l = l) :
    l'.syncLiveSimPosition id order execution = l.syncLiveSimPosition id order execution ∧
      (l.syncLiveSimPosition id order execution).onLedger l' = l' := by
  constructor
  · unfold syncLiveSimPosition getLiveSimPosition
    rw [hpositions]
  · have htable := congrArg liveSimPositions h
    unfold syncLiveSimPosition onLedger at htable ⊢
    simp only at htable ⊢
    rw [hpositions, htable, ← hpositions]

end Ledger

/-! ## Resuming an attempt -/

/-- A ledger on the way of an attempt: some of the writes are there. An attempt that is
started from it makes the same writes, or has nothing left to change. -/
def Resumes (event : CanonicalGatewayEvent) (once today : String) (l l' : Ledger) : Prop :=
  (l'.applicationWrites event today).map onLedger =
      (l.applicationWrites event once).map onLedger ∨
    l' = execute ((l.applicationWrites event once).map onLedger) l ∧
      ∀ w ∈ l'.applicationWrites event today, w.onLedger l' = l'

section Resuming

variable {event : CanonicalGatewayEvent} {l l' : Ledger} {once today : String} {i : Nat}

theorem resumes_other (hack : ackPayload event.canonicalType event.payload = none)
    (hfill : event.canonicalType ∉ fillTypes) : Resumes event once today l l' := by
  refine .inl (applicationWrites_eq_of_applied ?_)
  have h := applyCanonical_other hack hfill l l' once today
  exact ⟨h.1, h.2.1⟩

theorem resumes_ack {ack : OrderPayload}
    (hack : ackPayload event.canonicalType event.payload = some ack)
    (hway : l' = execute (((l.applicationWrites event once).map onLedger).take i) l) :
    Resumes event once today l l' := by
  refine .inl (applicationWrites_eq_of_applied ?_)
  rw [applyCanonical_ack hack, applyCanonical_ack hack]
  apply applyOrderAck_eq
  rw [applicationWrites_eq, applyCanonical_ack hack, ← map_take] at hway
  rcases l.applyOrderAck_cases ack once with hwrites | ⟨id, order, hcommand, hfound, hwrites⟩
  · -- no order was found: the orders are as they were
    apply handleCommandAck_congr
    rw [hway]
    apply managedOrders_execute
    intro w hw
    have hw := mem_of_mem_take hw
    rw [hwrites] at hw
    rcases mem_append.mp hw with hw | hw
    · rw [mem_singleton.mp hw]
      simp [recordReconcileRequired, table]
    · exact closingWrites_ne (by decide) hw
  · cases i with
    | zero =>
      rw [take_zero] at hway
      rw [hway]
      rfl
    | succ i =>
      apply handleCommandAck_again hcommand hfound
      rw [hway, hwrites, singleton_append, take_succ_cons, map_cons,
        execute_cons, managedOrders_execute]
      · rfl
      · exact fun w hw => closingWrites_ne (by decide) (mem_of_mem_take hw)

theorem resumes_fill_again {id : Nat} {order : ManagedOrder}
    (hfill : event.canonicalType ∈ fillTypes)
    (hfound : l.findExecutionOrder (.fromDict event.payload) = some (id, order))
    (hopen : l.Names (.fromDict event.payload) ∨
      order.statusAfterFill (.fromDict event.payload) ≠ filled)
    (hrepeatable : l.Repeatable (order.executed (.fromDict event.payload))
      (.fromDict event.payload))
    (hway : l' = execute (((l.applicationWrites event once).map onLedger).take i) l) :
    Resumes event once today l l' := by
  refine .inl (applicationWrites_eq_of_applied ?_)
  rw [applyCanonical_fill hfill, applyCanonical_fill hfill]
  apply applyOrderFill_eq
  rw [applicationWrites_eq, applyCanonical_fill hfill, ← map_take,
    applyOrderFill_of_found once hfound] at hway
  match i with
  | 0 => rw [hway]; rfl
  | 1 =>
    apply handleExecution_again hfound hopen
    · rw [hway]
      rfl
    · rw [hway]
      exact .inl rfl
  | i + 2 =>
    have hrest : ∀ table, table ≠ .brokerOrderStates →
        ∀ w ∈ (event.closingWrites (l.applyOrderFill event.payload once).1).take i,
          w.table ≠ some table :=
      fun table htable w hw => closingWrites_ne htable (mem_of_mem_take hw)
    rw [cons_append, cons_append, nil_append, take_succ_cons,
      take_succ_cons, map_cons, map_cons, execute_cons, execute_cons] at hway
    apply handleExecution_again hfound hopen
    · rw [hway, managedOrders_execute (hrest _ (by decide))]
      rfl
    · refine .inr ⟨hrepeatable, ?_⟩
      rw [hway, liveSimPositions_execute (hrest _ (by decide))]
      rfl

theorem resumes_fill_settled {id : Nat} {order : ManagedOrder}
    (hfill : event.canonicalType ∈ fillTypes)
    (hfound : l.findExecutionOrder (.fromDict event.payload) = some (id, order))
    (hnames : ¬ l.Names (.fromDict event.payload))
    (hsettled : l.Settled id (order.executed (.fromDict event.payload)) (.fromDict event.payload))
    (hway : l' = execute (((l.applicationWrites event once).map onLedger).take i) l) :
    Resumes event once today l l' := by
  have hnumber : event.payload.orderNo = "" := by_contra fun h => hnames (.inl h)
  -- the only change: the order is saved
  let saved : Ledger := { l with
    managedOrders := l.managedOrders.set id (order.executed (.fromDict event.payload)) }
  have hpositions : saved.liveSimPositions = l.liveSimPositions := rfl
  have hsync := (sync_fixed hpositions hsettled.1).2
  have hclosing : ∀ ws : List Write,
      (∀ w ∈ ws, w ∈ event.closingWrites (l.applyOrderFill event.payload once).1) →
        execute (ws.map onLedger) saved = saved :=
    fun ws hws => execute_no_table (fun w hw => closingWrites_unnamed hnumber (hws w hw)) saved
  rw [applicationWrites_eq, applyCanonical_fill hfill,
    applyOrderFill_of_found once hfound] at hway
  have hwhole : execute ((l.applicationWrites event once).map onLedger) l = saved := by
    rw [applicationWrites_eq, applyCanonical_fill hfill,
      applyOrderFill_of_found once hfound, cons_append, cons_append,
      nil_append, map_cons, map_cons, execute_cons, execute_cons]
    show execute _ ((l.syncLiveSimPosition id _ _).onLedger saved) = saved
    rw [hsync]
    exact hclosing _ fun w hw => hw
  rw [← map_take] at hway
  -- nothing is left to change once the order is saved
  have hdone : l' = saved → Resumes event once today l l' := by
    intro hl'
    refine .inr ⟨hl'.trans hwhole.symm, ?_⟩
    rw [hl', applicationWrites_eq, applyCanonical_fill hfill]
    intro w hw
    rcases mem_append.mp hw with hw | hw
    · cases hagain : saved.findExecutionOrder (.fromDict event.payload) with
      | none =>
        rw [applyOrderFill_of_none today hagain] at hw
        rw [mem_singleton.mp hw]
        rfl
      | some found =>
        have hother := hsettled.2 found.1 found.2 hagain
        rw [applyOrderFill_of_found today hagain, hother.1] at hw
        have hposition := sync_fixed hpositions hother.2
        rcases mem_cons.mp hw with rfl | hw
        · unfold onLedger
          simp only
          rw [set_eq_self (findExecutionOrder_spec hagain)]
        · rw [mem_singleton.mp hw, hposition.1]
          exact hposition.2
    · rw [onLedger_of_no_table (closingWrites_unnamed hnumber hw)]
      rfl
  match i with
  | 0 =>
    refine .inl (applicationWrites_eq_of_applied ?_)
    rw [applyCanonical_fill hfill, applyCanonical_fill hfill, hway]
    exact applyOrderFill_eq rfl today once
  | 1 => exact hdone hway
  | i + 2 =>
    apply hdone
    rw [hway, cons_append, cons_append, nil_append, take_succ_cons,
      take_succ_cons, map_cons, map_cons, execute_cons, execute_cons]
    show execute _ ((l.syncLiveSimPosition id _ _).onLedger saved) = saved
    rw [hsync]
    exact hclosing _ fun w hw => mem_of_mem_take hw

theorem resumes_of_absorbs
    (h : event.canonicalType ∉ fillTypes ∨ l.Absorbs (.fromDict event.payload))
    (hway : l' = execute (((l.applicationWrites event once).map onLedger).take i) l) :
    Resumes event once today l l' := by
  cases hack : ackPayload event.canonicalType event.payload with
  | some ack => exact resumes_ack hack hway
  | none =>
    by_cases hfill : event.canonicalType ∈ fillTypes
    · have habsorbs : l.Absorbs (.fromDict event.payload) := by
        rcases h with h | h
        · exact absurd hfill h
        · exact h
      cases hfound : l.findExecutionOrder (.fromDict event.payload) with
      | some found =>
        have horder := habsorbs found.1 found.2 hfound
        by_cases hopen : l.Names (.fromDict event.payload) ∨
            found.2.statusAfterFill (.fromDict event.payload) ≠ filled
        · exact resumes_fill_again hfill hfound hopen (horder.1 hopen) hway
        · rw [not_or, not_not] at hopen
          exact resumes_fill_settled hfill hfound hopen.1 (horder.2 hopen.1 hopen.2) hway
      | none =>
        -- no order was found: the orders are as they were
        refine .inl (applicationWrites_eq_of_applied ?_)
        have horders : l'.managedOrders = l.managedOrders := by
          rw [hway, applicationWrites_eq, applyCanonical_fill hfill, ← map_take]
          apply managedOrders_execute
          intro w hw
          have hw := mem_of_mem_take hw
          rw [applyOrderFill_of_none once hfound] at hw
          rcases mem_append.mp hw with hw | hw
          · rw [mem_singleton.mp hw]
            simp [recordReconcileRequired, table]
          · exact closingWrites_ne (by decide) hw
        rw [applyCanonical_fill hfill, applyCanonical_fill hfill]
        apply applyOrderFill_eq
        rw [handleExecution_of_none hfound, handleExecution_of_none]
        rw [findExecutionOrder_congr horders, hfound]
    · exact resumes_other hack hfill

end Resuming

/-! ## The receipt -/

theorem skips_congr {db db' : Database} (h : db'.receipts = db.receipts)
    (config : OrderConsumerConfig) (event : CanonicalGatewayEvent) :
    db'.skips config event = db.skips config event := by
  unfold Database.skips Database.hasReceipt Database.findOrderGatewayEventReceipt
  rw [h]

section Attempts

variable {config : OrderConsumerConfig} {event : CanonicalGatewayEvent} {db : Database}

theorem plan_of_skips (h : db.skips config event = true) (today : String) :
    (dispatcher config event).plan today db = [] :=
  if_pos h

theorem plan_of_not_skips (h : ¬ db.skips config event = true) (today : String) :
    (dispatcher config event).plan today db = db.toLedger.applicationWrites event today :=
  if_neg h

theorem skips_interrupted (hskip : ¬ db.skips config event = true) {today : String} {k : Nat}
    (hk : k < ((dispatcher config event).plan today db).length) :
    ((dispatcher config event).interrupted today k db).skips config event =
      db.skips config event := by
  apply skips_congr
  rw [plan_of_not_skips hskip, applicationWrites, length_append, length_singleton] at hk
  rw [interrupted, plan_of_not_skips hskip, applicationWrites]
  refine receipts_foldl ?_ db
  intro w hw r
  rw [take_append_of_le_length (by omega)] at hw
  rcases mem_append.mp (mem_of_mem_take hw) with hw | hw
  · exact applied_not_receipt hw r
  · exact projection_not_receipt hw r

theorem attempts_of_skips (h : db.skips config event = true) (attempts : List (String × Nat)) :
    (dispatcher config event).attempts db attempts = db := by
  induction attempts with
  | nil => rfl
  | cons a as ih =>
    rw [attempts, interrupted, plan_of_skips h, take_nil]
    exact ih

theorem exactlyOnce_of_lasting (h : Lasting config event db) : ExactlyOnce config event db := by
  intro attempts today once
  by_cases hskip : db.skips config event = true
  · rw [attempts_of_skips hskip, Database.dispatch, Database.dispatch, whole,
      whole, plan_of_skips hskip, plan_of_skips hskip]
  · have habsorbs : event.canonicalType ∉ fillTypes ∨
        db.toLedger.Absorbs (.fromDict event.payload) := by
      rcases h with h | h
      · exact absurd h hskip
      · exact h
    have honce : (db.dispatch config event once).toLedger =
        execute ((db.toLedger.applicationWrites event once).map onLedger) db.toLedger := by
      rw [← plan_of_not_skips hskip]
      exact (ledgerView config event).see_whole once db
    rw [honce]
    refine whole_after_crashes (ledgerView config event)
      (fun db' => db'.skips config event = true) ?_ ?_ ?_ ?_ hskip ?_ attempts today
    · intro w hw l
      obtain ⟨write, _, rfl⟩ := mem_map.mp hw
      exact write.onLedger_idem l
    · refine pairwise_map.mpr ?_
      refine (applicationWrites_independent db.toLedger event once).imp ?_
      exact fun hindependent l => onLedger_comm hindependent l
    · exact fun today db' hskip' => plan_of_skips hskip' today
    · intro today k db' hskip' hlast
      by_contra hlen
      rw [skips_interrupted hskip' (by omega)] at hlast
      exact hskip' hlast
    · intro today db' i hskip' hway
      rw [plan_of_not_skips hskip']
      exact resumes_of_absorbs habsorbs hway

/-! ## What goes wrong otherwise -/

theorem dispatch_ledger (hskip : ¬ db.skips config event = true) (today : String) :
    (db.dispatch config event today).toLedger =
      execute ((db.toLedger.applicationWrites event today).map onLedger) db.toLedger := by
  rw [← plan_of_not_skips hskip]
  exact (ledgerView config event).see_whole today db

variable {order : ManagedOrder}

section

variable (hskip : ¬ db.skips config event = true)
include hskip

theorem dispatch_fill_found (hfill : event.canonicalType ∈ fillTypes) {id : Nat}
    (hfound : db.findExecutionOrder (.fromDict event.payload) = some (id, order)) (today : String) :
    (db.dispatch config event today).managedOrders =
        db.managedOrders.set id (order.executed (.fromDict event.payload)) ∧
      (db.dispatch config event today).liveSimPositions =
        ((db.syncLiveSimPosition id (order.executed (.fromDict event.payload))
          (.fromDict event.payload)).onLedger db.toLedger).liveSimPositions := by
  have hclosing : ∀ table, table ≠ .brokerOrderStates → ∀ result,
      ∀ w ∈ event.closingWrites result, w.table ≠ some table :=
    fun table htable result w hw => closingWrites_ne htable hw
  have hledger := dispatch_ledger hskip today
  rw [applicationWrites_eq, applyCanonical_fill hfill,
    applyOrderFill_of_found today hfound, cons_append, cons_append,
    nil_append, map_cons, map_cons, execute_cons, execute_cons] at hledger
  rw [hledger, managedOrders_execute (hclosing _ (by decide) _),
    liveSimPositions_execute (hclosing _ (by decide) _)]
  exact ⟨rfl, rfl⟩

theorem dispatch_fill_none (hfill : event.canonicalType ∈ fillTypes)
    (hfound : db.findExecutionOrder (.fromDict event.payload) = none) (today : String) :
    (db.dispatch config event today).liveSimPositions = db.liveSimPositions := by
  have hledger := dispatch_ledger hskip today
  rw [applicationWrites_eq, applyCanonical_fill hfill,
    applyOrderFill_of_none today hfound] at hledger
  rw [hledger, liveSimPositions_execute]
  intro w hw
  rcases mem_append.mp hw with hw | hw
  · rw [mem_singleton.mp hw]
    simp [recordReconcileRequired, table]
  · exact closingWrites_ne (by decide) hw

theorem interrupted_fill (hfill : event.canonicalType ∈ fillTypes) {id : Nat}
    (hfound : db.findExecutionOrder (.fromDict event.payload) = some (id, order)) (today : String)
    {k : Nat} (hk : k ≤ 2) :
    ((dispatcher config event).interrupted today k db).toLedger =
        execute ((([.managedOrder id (order.executed (.fromDict event.payload)),
          db.syncLiveSimPosition id (order.executed (.fromDict event.payload))
            (.fromDict event.payload)] : List Write).take k).map onLedger) db.toLedger ∧
      ¬ ((dispatcher config event).interrupted today k db).skips config event = true := by
  have hplan := plan_of_not_skips hskip today
  rw [applicationWrites_eq, applyCanonical_fill hfill,
    applyOrderFill_of_found today hfound] at hplan
  constructor
  · have hsee := (ledgerView config event).see_interrupted today k db
    rw [hplan, ← map_take, take_append_of_le_length (by simpa using hk)] at hsee
    exact hsee
  · rw [skips_interrupted hskip]
    · exact hskip
    · rw [hplan, CanonicalGatewayEvent.closingWrites]
      simp only [length_append, length_cons, length_nil]
      omega

end

theorem currentQty_sync (l : Ledger) (id : Nat) (order : ManagedOrder)
    (execution : BrokerExecutionEvent) :
    ((((l.syncLiveSimPosition id order execution).onLedger l).getLiveSimPosition
      (order.positionKey execution)).map (·.currentQty)).getD 0 =
        order.nextQuantity execution
          (((l.getLiveSimPosition (order.positionKey execution)).map (·.currentQty)).getD 0) := by
  unfold syncLiveSimPosition onLedger getLiveSimPosition
  rw [get?_upsert_self, map_some, getD_some, LiveSimPosition.onConflict_currentQty, positionRecord_currentQty]

theorem repeatable_of_exactlyOnce (h : ExactlyOnce config event db)
    (hskip : ¬ db.skips config event = true) (hfill : event.canonicalType ∈ fillTypes) {id : Nat}
    (hfound : db.findExecutionOrder (.fromDict event.payload) = some (id, order))
    (hopen : db.Names (.fromDict event.payload) ∨
      order.statusAfterFill (.fromDict event.payload) ≠ filled) :
    db.Repeatable (order.executed (.fromDict event.payload)) (.fromDict event.payload) := by
  -- stopped after the position, before the receipt
  obtain ⟨hledger, hskip'⟩ := interrupted_fill hskip hfill hfound "" (Nat.le_refl 2)
  have heq := congrArg liveSimPositions (h [("", 2)] "" "")
  rw [attempts, attempts] at heq
  generalize (dispatcher config event).interrupted "" 2 db = stopped at hledger hskip' heq
  generalize hexecution : BrokerExecutionEvent.fromDict event.payload = execution at *
  have horders : stopped.managedOrders =
      db.managedOrders.set id (order.executed execution) := by
    rw [hledger]
    rfl
  have hagain := findExecutionOrder_again hfound horders hopen
  rw [← hexecution] at hfound hagain
  rw [(dispatch_fill_found hskip hfill hfound "").2,
    (dispatch_fill_found hskip' hfill hagain "").2, hexecution,
    executed_executed] at heq
  -- the quantity held, after one execution and after two
  have honce := currentQty_sync db.toLedger id (order.executed execution) execution
  have htwice := currentQty_sync stopped.toLedger id (order.executed execution) execution
  have hpositions : stopped.getLiveSimPosition ((order.executed execution).positionKey execution) =
      ((db.syncLiveSimPosition id (order.executed execution) execution).onLedger
        db.toLedger).getLiveSimPosition ((order.executed execution).positionKey execution) := by
    unfold getLiveSimPosition
    rw [hledger]
    rfl
  rw [hpositions, honce] at htwice
  unfold getLiveSimPosition at honce htwice
  rw [heq, honce] at htwice
  unfold Repeatable getLiveSimPosition
  generalize ((db.liveSimPositions.get? ((order.executed execution).positionKey execution)).map
    (·.currentQty)).getD 0 = held at htwice ⊢
  unfold nextQuantity at htwice
  by_cases hside : (order.executed execution).positionSide execution = "BUY"
  · exact .inl hside
  · rw [if_neg hside, if_neg hside] at htwice
    refine .inr ?_
    omega

theorem settled_of_exactlyOnce (h : ExactlyOnce config event db)
    (hskip : ¬ db.skips config event = true) (hfill : event.canonicalType ∈ fillTypes) {id : Nat}
    (hfound : db.findExecutionOrder (.fromDict event.payload) = some (id, order))
    (hnames : ¬ db.Names (.fromDict event.payload))
    (hfilled : order.statusAfterFill (.fromDict event.payload) = filled) :
    db.Settled id (order.executed (.fromDict event.payload)) (.fromDict event.payload) := by
  -- stopped after the order, before the position
  obtain ⟨hledger, hskip'⟩ := interrupted_fill hskip hfill hfound "" (Nat.le_succ 1)
  have heq := h [("", 1)] "" ""
  rw [attempts, attempts] at heq
  generalize (dispatcher config event).interrupted "" 1 db = stopped at hledger hskip' heq
  have hsaved : stopped.toLedger = { db.toLedger with
      managedOrders := db.managedOrders.set id
        (order.executed (.fromDict event.payload)) } := hledger
  have horders : stopped.managedOrders =
      db.managedOrders.set id (order.executed (.fromDict event.payload)) := by
    rw [hsaved]
  have hpositions : stopped.liveSimPositions = db.liveSimPositions := by
    rw [hsaved]
  have honce := dispatch_fill_found hskip hfill hfound ""
  have hpositionsEq := (congrArg liveSimPositions heq).trans honce.2
  -- a position write that leaves the positions alone leaves the ledger alone
  have hfixed : ∀ id' order',
      ((db.syncLiveSimPosition id' order' (.fromDict event.payload)).onLedger
        db.toLedger).liveSimPositions = db.liveSimPositions →
      (db.syncLiveSimPosition id' order' (.fromDict event.payload)).onLedger db.toLedger =
        db.toLedger := by
    intro id' order' hsame
    unfold syncLiveSimPosition onLedger at hsame ⊢
    simp only at hsame ⊢
    rw [hsame]
  cases hagain : stopped.findExecutionOrder (.fromDict event.payload) with
  | none =>
    refine ⟨hfixed id _ ?_, ?_⟩
    · rw [← hpositionsEq, dispatch_fill_none hskip' hfill hagain "", hpositions]
    · intro id' order' hfound'
      rw [← hsaved, hagain] at hfound'
      cases hfound'
  | some found =>
    obtain ⟨id', order'⟩ := found
    have hne := findExecutionOrder_other hfound horders hnames hfilled hagain
    have htwice := dispatch_fill_found hskip' hfill hagain ""
    have hordersEq := (congrArg managedOrders heq).trans honce.1
    rw [htwice.1, horders] at hordersEq
    rw [htwice.2] at hpositionsEq
    -- the other order is rewritten by what it was
    have hexecuted : order'.executed (.fromDict event.payload) = order' := by
      have hrow := findExecutionOrder_spec hagain
      rw [horders, get?_eq_of_set_eq_self hordersEq] at hrow
      injection hrow
    rw [hexecuted] at hpositionsEq
    have hboth : ((db.syncLiveSimPosition id' order' (.fromDict event.payload)).onLedger
          db.toLedger).liveSimPositions =
        ((db.syncLiveSimPosition id (order.executed (.fromDict event.payload))
          (.fromDict event.payload)).onLedger db.toLedger).liveSimPositions := by
      rw [← hpositionsEq]
      unfold syncLiveSimPosition onLedger getLiveSimPosition
      simp only [hpositions]
    -- the two position rows are different ones: each names the order that wrote it
    unfold syncLiveSimPosition onLedger at hboth
    simp only at hboth
    have hkey : order'.positionKey (.fromDict event.payload) ≠
        (order.executed (.fromDict event.payload)).positionKey (.fromDict event.payload) := by
      intro hkey
      have hrow := congrArg (fun d => d.get?
        ((order.executed (.fromDict event.payload)).positionKey (.fromDict event.payload))) hboth
      simp only [hkey, get?_upsert_self, some.injEq] at hrow
      have hid := congrArg LiveSimPosition.lastOrderId hrow
      rw [LiveSimPosition.onConflict_lastOrderId, LiveSimPosition.onConflict_lastOrderId] at hid
      exact hne hid
    have hnew := congrArg (fun d => d.get? (order'.positionKey (.fromDict event.payload))) hboth
    have hold := congrArg (fun d => d.get?
      ((order.executed (.fromDict event.payload)).positionKey (.fromDict event.payload))) hboth
    simp only [get?_upsert_self, get?_upsert_ne _ _ hkey, get?_upsert_ne _ _ hkey.symm] at hnew hold
    refine ⟨hfixed id _ (set_eq_self hold), ?_⟩
    intro id₂ order₂ hfound₂
    rw [← hsaved, hagain, some.injEq, Prod.mk.injEq] at hfound₂
    obtain ⟨rfl, rfl⟩ := hfound₂
    exact ⟨hexecuted, hfixed _ _ (set_eq_self hnew.symm)⟩

/-- An order event takes effect exactly once, under every crash and every repetition, iff it
is not applied at all, or is no fill, or is a fill that its order and its position
absorb. -/
theorem exactlyOnce_iff_lasting (config : OrderConsumerConfig) (event : CanonicalGatewayEvent)
    (db : Database) : ExactlyOnce config event db ↔ Lasting config event db := by
  constructor
  · intro h
    by_cases hskip : db.skips config event = true
    · exact .inl hskip
    · by_cases hfill : event.canonicalType ∈ fillTypes
      · refine .inr (.inr ?_)
        intro id order hfound
        exact ⟨repeatable_of_exactlyOnce h hskip hfill hfound,
          settled_of_exactlyOnce h hskip hfill hfound⟩
      · exact .inr (.inl hfill)
  · exact exactlyOnce_of_lasting

end Attempts

/-- A sale of 3 out of 10: the attempt stops between the position and the receipt, the
repetition sells another 3. -/
theorem sale_is_applied_twice :
    ¬ ∀ (config : OrderConsumerConfig) (event : CanonicalGatewayEvent) (db : Database),
      ExactlyOnce config event db := by
  intro h
  have hsale := h {}
    { canonicalType := .orderFilled
      payload :=
        { account := "ACC", code := "005930", side := "SELL", quantity := 3, price := 70000,
          filledQuantity := 3, orderNo := "OID-1", executionId := "EXEC-1" }
      sourceEventId := "evt-fill-1"
      dedupeKey := "fill:ACC:OID-1:EXEC-1" }
    { managedOrders := ofList [(1,
        { tradeDate := "2026-06-18", side := "SELL", code := "005930", account := "ACC",
          quantity := 3, price := 70000, status := ackedByGateway, positionId := "POS-1",
          commandId := "cmd-sell", orderNo := "OID-1", remainingQuantity := 3,
          idempotencyKey := "idem-sell" })]
      liveSimPositions := ofList [("POS-1",
        { candidateInstanceId := none, code := "005930", name := "", account := "ACC",
          entryQty := 10, entryAvgPrice := 70000, currentQty := 10, realizedQty := 0,
          status := .opened, themeId := "", themeName := "", lastOrderId := 0 })] }
    [("2026-06-18", 2)] "2026-06-18" "2026-06-18"
  have hheld := congrArg (fun l : Ledger => (l.getLiveSimPosition "POS-1").map (·.currentQty)) hsale
  exact absurd hheld (by decide)

end TradingCore.Orders
