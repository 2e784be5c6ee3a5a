import TradingCore.Base.Machine
import TradingCore.Orders.ExactlyOnce

/-!
# The manual kill switch

Three writers append to `order_kill_switch_state`: the evaluation of a cycle, the hand-over
of an event to reconciliation, and the consumer when it fails closed. The newest row of a
date is its state. Only the evaluation reads the row before it and carries `manual_active`
over; the other two clear it.

`manual_stays_on_iff_harmless`: after an operator has set the switch, every row of that date
keeps the flag and the severity iff no step of the run hands an event, an overdue order or
a failure of that date over, and the cycles of that date run with the switch enabled.
-/

namespace TradingCore.Orders

open Base ManagedOrderStatus Database List Ledger Write

/-! ## The system -/

/-- The configurations of the pipeline and of the consumer. -/
structure Settings where
  orders : OrderManagerConfig := {}
  consumer : OrderConsumerConfig := {}

structure TradeDate where
  text : String
  nonempty : text ≠ "" := by decide

/-- The steps of the system, none of which is the operator's. -/
inductive Step
  /-- A cycle of the pipeline at the second `now`. -/
  | run (portfolio : PortfolioRisk) (tradeDate today : TradeDate) (now : Int)
  /-- The rest of a cycle and every other writer of managed orders. -/
  | saveManagedOrder (id : Nat) (order : ManagedOrder)
  /-- The pipeline applies an event. -/
  | applyEvent (canonicalType : CanonicalType) (payload : OrderPayload) (today : TradeDate)
  /-- `mark_reconcile_required`. -/
  | markReconcileRequired (reason : String) (payload : OrderPayload) (today : TradeDate)
  /-- The consumer dispatches an event. -/
  | dispatch (event : CanonicalGatewayEvent) (today : TradeDate)
  /-- `_fail_closed`. -/
  | failClosed (reason : String) (today : TradeDate)

def Database.act (settings : Settings) (db : Database) : Step → Database
  | .run portfolio tradeDate today now =>
      db.run settings.orders portfolio tradeDate.text today.text now
  | .saveManagedOrder id order => db.commit (.managedOrder id order)
  | .applyEvent canonicalType payload today =>
      (db.applyCanonicalOrderEvent canonicalType payload today.text).2.foldl commit db
  | .markReconcileRequired reason payload today =>
      db.commit (Orders.markReconcileRequired reason payload today.text)
  | .dispatch event today => db.dispatch settings.consumer event today.text
  | .failClosed reason today => db.failClosed settings.consumer reason today.text

def Database.machine (settings : Settings) : Machine Database Step Unit where
  step db step := (db.act settings step, ())

/-- A row that is no less severe than `floor` and has the manual flag. -/
def KillSwitchRow.Holds (floor : KillSwitchState) (row : KillSwitchRow) : Prop :=
  row.manualActive = true ∧ floor.severity ≤ row.state.severity

/-- All rows of the date from the given position on hold. -/
def Database.StaysOn (date : String) (start : Nat) (floor : KillSwitchState) (db : Database) :
    Prop :=
  ∀ row ∈ db.killSwitchStates.drop start, row.tradeDate = date → row.Holds floor

/-! ## The condition on a step -/

/-- Does the acknowledged command belong to a managed order? -/
def Ledger.KnowsCommand (l : Ledger) (commandId : String) : Prop :=
  commandId ≠ "" ∧ (l.findManagedOrderByCommandId commandId).isSome

/-- Is the event one that the pipeline hands over to reconciliation? -/
def Ledger.HandsOver (l : Ledger) (canonicalType : CanonicalType) (payload : OrderPayload) :
    Prop :=
  match canonicalType with
  | .commandAck => payload.commandType ∈ ["send_order", "cancel_order", "modify_order"]
  | .commandFailed | .orderRejected | .orderAccepted | .orderCancelAccepted =>
      ¬ l.KnowsCommand payload.commandId
  | .orderPartiallyFilled | .orderFilled => l.findExecutionOrder (.fromDict payload) = none
  | .orderCancelled => payload.commandId ≠ "" ∧ ¬ l.KnowsCommand payload.commandId
  | .balanceSnapshot => payload.mismatch ∨ payload.localPositionMismatch
  | .unsupported => True
  | .ignored | .positionSnapshot | .orderStatusSnapshot | .reconcileSnapshot => False

/-- The step does not touch the manual switch of the date: nothing of that date is handed
over or fails closed, and a cycle of that date finds the switch enabled. -/
def Harmless (settings : Settings) (date : String) (floor : KillSwitchState) (db : Database) :
    Step → Prop
  | .run _ tradeDate today now => settings.orders.enabled = true →
      (tradeDate.text = date → settings.orders.killSwitchEnabled = true ∨ floor = .normal) ∧
      ∀ e ∈ db.queuedOrders, settings.orders.overdue now e.2 = true →
        reconcileDate e.2.tradeDate today.text ≠ date
  | .saveManagedOrder _ _ => True
  | .applyEvent canonicalType payload today =>
      db.HandsOver canonicalType payload → reconcileDate payload.tradeDate today.text ≠ date
  | .markReconcileRequired _ payload today =>
      reconcileDate payload.tradeDate today.text ≠ date
  | .dispatch event today =>
      ¬ db.skips settings.consumer event = true →
        db.HandsOver event.canonicalType event.payload →
          reconcileDate event.payload.tradeDate today.text ≠ date
  | .failClosed _ today => settings.consumer.failClosed = true → today.text ≠ date

/-! ## The rows that a step appends -/

def Write.killSwitchRow : Write → Option KillSwitchRow
  | .killSwitchState row => some row
  | _ => none

theorem killSwitchStates_foldl (writes : List Write) (db : Database) :
    (writes.foldl commit db).killSwitchStates =
      db.killSwitchStates ++ writes.filterMap killSwitchRow := by
  induction writes generalizing db with
  | nil => simp
  | cons w ws ih =>
    rw [foldl_cons, ih]
    cases w with
    | killSwitchState row => simp [commit, killSwitchRow]
    | _ => simp [commit, killSwitchRow, filterMap_cons]

/-- The writes append one row without the flag, if the event is handed over, and else none. -/
def HandOverRows (handsOver : Prop) (writes : List Write) (date : String) : Prop :=
  (handsOver ∧ ∃ reason, writes.filterMap killSwitchRow =
      [{ tradeDate := date, state := .stopNewBuy, reasonCodes := [reason] }]) ∨
    (¬ handsOver ∧ writes.filterMap killSwitchRow = [])

theorem ack_rows (l : Ledger) (ack : OrderPayload) (today : String) :
    HandOverRows (¬ l.KnowsCommand ack.commandId) (l.applyOrderAck ack today).2
      (reconcileDate ack.tradeDate today) := by
  by_cases hknown : l.KnowsCommand ack.commandId
  · right
    obtain ⟨hne, hsome⟩ := hknown
    obtain ⟨found, hfound⟩ := Option.isSome_iff_exists.mp hsome
    refine ⟨not_not.mpr ⟨hne, hsome⟩, ?_⟩
    unfold applyOrderAck
    rw [handleCommandAck_of_found hne hfound]
    rfl
  · left
    refine ⟨hknown, "ORDER_ACK_UNMATCHED", ?_⟩
    rcases l.applyOrderAck_cases ack today with hw | ⟨id, order, hne, hfound, _⟩
    · rw [hw]
      rfl
    · exact absurd ⟨hne, by rw [hfound]; rfl⟩ hknown

theorem fill_rows (l : Ledger) (payload : OrderPayload) (today : String) :
    HandOverRows (l.findExecutionOrder (.fromDict payload) = none)
      (l.applyOrderFill payload today).2 (reconcileDate payload.tradeDate today) := by
  cases hfound : l.findExecutionOrder (.fromDict payload) with
  | none =>
    left
    refine ⟨rfl, "FILL_WITHOUT_LOCAL_ORDER", ?_⟩
    rw [applyOrderFill_of_none today hfound]
    rfl
  | some found =>
    right
    refine ⟨Option.some_ne_none found, ?_⟩
    rw [applyOrderFill_of_found today hfound]
    rfl

theorem applied_rows (l : Ledger) (canonicalType : CanonicalType) (payload : OrderPayload)
    (today : String) :
    HandOverRows (l.HandsOver canonicalType payload)
      (l.applyCanonicalOrderEvent canonicalType payload today).2
      (reconcileDate payload.tradeDate today) := by
  cases canonicalType with
  | ignored => exact .inr ⟨id, rfl⟩
  | positionSnapshot => exact .inr ⟨id, rfl⟩
  | orderStatusSnapshot => exact .inr ⟨id, rfl⟩
  | reconcileSnapshot => exact .inr ⟨id, rfl⟩
  | unsupported => exact .inl ⟨trivial, _, rfl⟩
  | commandAck =>
    unfold applyCanonicalOrderEvent HandsOver
    simp only
    split
    · rename_i h
      exact .inl ⟨h, _, rfl⟩
    · rename_i h
      exact .inr ⟨h, rfl⟩
  | balanceSnapshot =>
    unfold applyCanonicalOrderEvent HandsOver applyBalanceSnapshot
    simp only
    split
    · rename_i h
      exact .inl ⟨h, _, rfl⟩
    · rename_i h
      exact .inr ⟨h, rfl⟩
  | orderPartiallyFilled => exact fill_rows l payload today
  | orderFilled => exact fill_rows l payload today
  | commandFailed => exact ack_rows l { payload with status := "REJECTED" } today
  | orderRejected => exact ack_rows l { payload with status := "REJECTED" } today
  | orderAccepted => exact ack_rows l payload today
  | orderCancelAccepted => exact ack_rows l payload today
  | orderCancelled =>
    unfold applyCanonicalOrderEvent HandsOver
    simp only
    split
    · rename_i hempty
      exact .inr ⟨fun hn => hn.1 hempty, rfl⟩
    · rename_i hcommand
      rcases ack_rows l { payload with status := "CANCELLED" } today with
        ⟨h, hrows⟩ | ⟨h, hrows⟩
      · exact .inl ⟨⟨hcommand, h⟩, hrows⟩
      · exact .inr ⟨fun hn => h hn.2, hrows⟩

theorem closingWrites_rows (event : CanonicalGatewayEvent) (result : ApplyResult) :
    (event.closingWrites result).filterMap killSwitchRow = [] := by
  refine filterMap_eq_nil_iff.mpr ?_
  intro w hw
  rcases mem_append.mp hw with hw | hw
  · rcases mem_append.mp hw with hw | hw
    · split at hw
      · rw [mem_singleton.mp hw]
        rfl
      · cases hw
    · split at hw
      · obtain ⟨item, _, rfl⟩ := mem_map.mp hw
        rfl
      · cases hw
  · rw [mem_singleton.mp hw]
    rfl

/-- The rows of `reconcile_open_orders`: one for each overdue order. -/
theorem reconcileOpenOrders_rows (l : Ledger) (config : OrderManagerConfig) (today : String)
    (now : Int) :
    (l.reconcileOpenOrders config today now).filterMap killSwitchRow =
      (l.queuedOrders.filter fun e => config.overdue now e.2).map fun e =>
        { tradeDate := reconcileDate e.2.tradeDate today
          state := .stopNewBuy
          reasonCodes := ["ORDER_ACK_TIMEOUT"] } := by
  unfold reconcileOpenOrders
  induction l.queuedOrders.filter fun e => config.overdue now e.2 with
  | nil => rfl
  | cons e es ih =>
    rw [flatMap_cons, filterMap_append, ih, map_cons]
    rfl

def Step.rows (settings : Settings) (db : Database) : Step → List KillSwitchRow
  | .run portfolio tradeDate today now =>
      if settings.orders.enabled then
        db.evaluate settings.orders portfolio tradeDate.text ::
          (db.queuedOrders.filter fun e => settings.orders.overdue now e.2).map fun e =>
            { tradeDate := reconcileDate e.2.tradeDate today.text
              state := .stopNewBuy
              reasonCodes := ["ORDER_ACK_TIMEOUT"] }
      else []
  | .saveManagedOrder _ _ => []
  | .applyEvent canonicalType payload today =>
      (db.applyCanonicalOrderEvent canonicalType payload today.text).2.filterMap killSwitchRow
  | .markReconcileRequired reason payload today =>
      [{ tradeDate := reconcileDate payload.tradeDate today.text
         state := .stopNewBuy
         reasonCodes := [orText reason "RECONCILE_REQUIRED"] }]
  | .dispatch event today =>
      if db.skips settings.consumer event then []
      else (db.applyCanonicalOrderEvent event.canonicalType event.payload today.text).2.filterMap
        killSwitchRow
  | .failClosed reason today =>
      if settings.consumer.failClosed then
        [{ tradeDate := today.text, state := .stopNewBuy, reasonCodes := [reason] }]
      else []

theorem killSwitchStates_act (settings : Settings) (db : Database) (step : Step) :
    (db.act settings step).killSwitchStates = db.killSwitchStates ++ step.rows settings db := by
  cases step with
  | saveManagedOrder id order => exact (append_nil _).symm
  | applyEvent canonicalType payload today => exact killSwitchStates_foldl _ db
  | markReconcileRequired reason payload today => rfl
  | failClosed reason today =>
    show (db.failClosed settings.consumer reason today.text).killSwitchStates = _
    simp only [failClosed, Step.rows]
    split
    · rfl
    · exact (append_nil _).symm
  | dispatch event today =>
    show (db.dispatch settings.consumer event today.text).killSwitchStates = _
    rw [dispatch, Procedure.whole, Step.rows]
    by_cases hskip : db.skips settings.consumer event = true
    · rw [plan_of_skips hskip, if_pos hskip, append_nil]
      rfl
    · rw [plan_of_not_skips hskip, if_neg hskip, applicationWrites_eq]
      refine (killSwitchStates_foldl _ db).trans ?_
      rw [filterMap_append, closingWrites_rows, append_nil]
  | run portfolio tradeDate today now =>
    show (db.run settings.orders portfolio tradeDate.text today.text now).killSwitchStates = _
    simp only [run, Step.rows]
    split
    · rw [killSwitchStates_foldl, reconcileOpenOrders_rows]
      show (db.killSwitchStates ++ [_]) ++ _ = _
      rw [append_assoc]
      rfl
    · exact (append_nil _).symm

/-! ## Keeping the switch on -/

section Keeping

variable {settings : Settings} {date : String} {start : Nat} {floor : KillSwitchState}
  {db : Database}

theorem staysOn_append {db' : Database} {rows : List KillSwitchRow}
    (hrows : db'.killSwitchStates = db.killSwitchStates ++ rows)
    (hstart : start ≤ db.killSwitchStates.length) (hon : db.StaysOn date start floor) :
    db'.StaysOn date start floor ↔ ∀ row ∈ rows, row.tradeDate = date → row.Holds floor := by
  unfold StaysOn at hon ⊢
  rw [hrows, drop_append_of_le_length hstart]
  constructor
  · intro h row hrow
    exact h row (mem_append_right _ hrow)
  · intro h row hrow
    rcases mem_append.mp hrow with hrow | hrow
    · exact hon row hrow
    · exact h row hrow

/-- There is a row of the date since the operator's. -/
def Database.HasRow (date : String) (start : Nat) (db : Database) : Prop :=
  ∃ row ∈ db.killSwitchStates.drop start, row.tradeDate = date

theorem Database.HasRow.start_le (h : db.HasRow date start) :
    start ≤ db.killSwitchStates.length := by
  obtain ⟨row, hrow, _⟩ := h
  have hlen := length_pos_of_mem hrow
  rw [length_drop] at hlen
  omega

theorem Database.HasRow.act (h : db.HasRow date start) (settings : Settings) (step : Step) :
    (db.act settings step).HasRow date start := by
  have hstart := h.start_le
  obtain ⟨row, hrow, hdate⟩ := h
  refine ⟨row, ?_, hdate⟩
  rw [killSwitchStates_act, drop_append_of_le_length hstart]
  exact mem_append_left _ hrow

theorem latestState_mem (h : db.HasRow date start) (hne : date ≠ "") :
    db.latestState date ∈ db.killSwitchStates.drop start ∧
      (db.latestState date).tradeDate = date := by
  obtain ⟨row, hrow, hdate⟩ := h
  unfold latestState latestOrderKillSwitchState
  cases hfind : (db.killSwitchStates.drop start).reverse.find?
      fun row => decide (date = "" ∨ row.tradeDate = date) with
  | none =>
    have hnot := find?_eq_none.mp hfind row (mem_reverse.mpr hrow)
    exact absurd (decide_eq_true (.inr hdate)) hnot
  | some found =>
    have hsplit : db.killSwitchStates.reverse.find?
        (fun row => decide (date = "" ∨ row.tradeDate = date)) = some found := by
      rw [← take_append_drop start db.killSwitchStates, reverse_append, find?_append, hfind]
      rfl
    rw [hsplit]
    refine ⟨mem_reverse.mp (mem_of_find?_eq_some hfind), ?_⟩
    have hp := find?_some hfind
    rcases of_decide_eq_true hp with h | h
    · exact absurd h hne
    · exact h

theorem evaluate_holds_iff (hrow : db.HasRow date start) (hon : db.StaysOn date start floor)
    (hne : date ≠ "") (config : OrderManagerConfig) (portfolio : PortfolioRisk) :
    (db.evaluate config portfolio date).Holds floor ↔
      config.killSwitchEnabled = true ∨ floor = .normal := by
  obtain ⟨hmem, hlatest⟩ := latestState_mem hrow hne
  have hmanual : (db.latestState date).manualActive = true := (hon _ hmem hlatest).1
  have hflag : (db.evaluate config portfolio date).manualActive = true := hmanual
  cases henabled : config.killSwitchEnabled with
  | true =>
    have hstate : (db.evaluate config portfolio date).state = .killSwitchActive := by
      simp [evaluate, henabled, hmanual]
    refine ⟨fun _ => .inl rfl, fun _ => ⟨hflag, ?_⟩⟩
    rw [hstate]
    cases floor <;> decide
  | false =>
    have hstate : (db.evaluate config portfolio date).state = .normal := by
      simp [evaluate, henabled]
    constructor
    · intro hholds
      have hle := hholds.2
      rw [hstate] at hle
      cases floor with
      | normal => exact .inr rfl
      | stopNewBuy => exact absurd hle (by decide)
      | reduceOnly => exact absurd hle (by decide)
      | killSwitchActive => exact absurd hle (by decide)
    · intro h
      rcases h with h | h
      · cases h
      · refine ⟨hflag, ?_⟩
        rw [hstate, h]

theorem unflagged_iff {rows : List KillSwitchRow} (h : ∀ row ∈ rows, row.manualActive = false) :
    (∀ row ∈ rows, row.tradeDate = date → row.Holds floor) ↔
      ∀ row ∈ rows, row.tradeDate ≠ date := by
  constructor
  · intro hall row hrow heq
    have hholds := (hall row hrow heq).1
    rw [h row hrow] at hholds
    cases hholds
  · intro hall row hrow heq
    exact absurd heq (hall row hrow)

theorem applied_iff (l : Ledger) (canonicalType : CanonicalType) (payload : OrderPayload)
    (today : String) :
    (∀ row ∈ (l.applyCanonicalOrderEvent canonicalType payload today).2.filterMap
        killSwitchRow, row.tradeDate = date → row.Holds floor) ↔
      (l.HandsOver canonicalType payload → reconcileDate payload.tradeDate today ≠ date) := by
  rcases applied_rows l canonicalType payload today with ⟨hover, reason, hrows⟩ | ⟨hover, hrows⟩
  · rw [hrows, unflagged_iff (by simp)]
    simp [hover]
  · rw [hrows]
    simp [hover]

theorem staysOn_act_iff (hrow : db.HasRow date start) (hon : db.StaysOn date start floor)
    (step : Step) :
    (db.act settings step).StaysOn date start floor ↔ Harmless settings date floor db step := by
  rw [staysOn_append (killSwitchStates_act settings db step) hrow.start_le hon]
  cases step with
  | saveManagedOrder id order => simp [Step.rows, Harmless]
  | applyEvent canonicalType payload today =>
    exact applied_iff db.toLedger canonicalType payload today.text
  | markReconcileRequired reason payload today =>
    unfold Step.rows
    rw [unflagged_iff (by simp)]
    simp [Harmless]
  | failClosed reason today =>
    simp only [Step.rows, Harmless]
    split
    · rename_i hconfig
      rw [unflagged_iff (by simp)]
      simp [hconfig]
    · rename_i hconfig
      simp [hconfig]
  | dispatch event today =>
    simp only [Step.rows, Harmless]
    split
    · rename_i hskip
      simp [hskip]
    · rename_i hskip
      rw [applied_iff]
      exact ⟨fun h _ => h, fun h => h hskip⟩
  | run portfolio tradeDate today now =>
    simp only [Step.rows, Harmless]
    split
    · rename_i henabled
      rw [forall_mem_cons, unflagged_iff]
      · -- the evaluated row on the one hand, the overdue orders on the other
        refine Iff.trans (and_congr ?_ ?_) ⟨fun h _ => h, fun h => h henabled⟩
        · constructor
          · intro h hdate
            have hholds := h hdate
            rw [hdate] at hholds
            exact (evaluate_holds_iff hrow hon (hdate ▸ tradeDate.nonempty) _ _).mp hholds
          · intro h hdate
            have hdate : tradeDate.text = date := hdate
            rw [hdate]
            exact (evaluate_holds_iff hrow hon (hdate ▸ tradeDate.nonempty) _ _).mpr (h hdate)
        · constructor
          · intro h e he hlate
            exact h _ (mem_map_of_mem (mem_filter.mpr ⟨he, hlate⟩))
          · intro h row hlate
            obtain ⟨e, he, rfl⟩ := mem_map.mp hlate
            exact h e (mem_filter.mp he).1 (mem_filter.mp he).2
      · intro row hlate
        obtain ⟨e, _, rfl⟩ := mem_map.mp hlate
        rfl
    · rename_i hdisabled
      simp [hdisabled]

end Keeping

/-- After an operator has saved a row with the manual flag, no row of its date loses the
flag or is less severe, all along a run, iff every step of the run is harmless. -/
theorem manual_stays_on_iff_harmless (settings : Settings) (db : Database) (saved : KillSwitchRow)
    (hmanual : saved.manualActive = true) (steps : List Step) :
    (machine settings).Always
        (StaysOn saved.tradeDate db.killSwitchStates.length saved.state)
        (db.commit (.killSwitchState saved)) steps ↔
      (machine settings).Guarded
        (Harmless settings saved.tradeDate saved.state)
        (db.commit (.killSwitchState saved)) steps := by
  have hsaved : (db.commit (.killSwitchState saved)).killSwitchStates.drop
      db.killSwitchStates.length = [saved] := drop_left
  refine Machine.always_iff_guarded
    (I := HasRow saved.tradeDate db.killSwitchStates.length) ?_ ?_ ?_ ?_
  · intro db' step hrow _ _
    exact hrow.act settings step
  · intro db' step hrow hon
    exact staysOn_act_iff hrow hon step
  · exact ⟨saved, by rw [hsaved]; exact mem_singleton_self saved, rfl⟩
  · intro row hrow _
    rw [hsaved, mem_singleton] at hrow
    rw [hrow]
    exact ⟨hmanual, Nat.le_refl _⟩

/-- A switch set by hand stays on through a cycle and an order status report. -/
theorem manual_stays_on_iff_harmless_quiet :
    (machine { orders := { enabled := true } }).Always
        (StaysOn "2026-06-18" 0 .killSwitchActive)
        (commit {} (.killSwitchState
          { tradeDate := "2026-06-18", state := .killSwitchActive, manualActive := true }))
        [.run {} ⟨"2026-06-18", by decide⟩ ⟨"2026-06-18", by decide⟩ 0,
          .dispatch
            { canonicalType := .orderStatusSnapshot
              payload := { orderNo := "OID-1" }
              sourceEventId := "evt-1"
              dedupeKey := "source:evt-1" } ⟨"2026-06-18", by decide⟩] := by
  refine (manual_stays_on_iff_harmless { orders := { enabled := true } } {}
    { tradeDate := "2026-06-18", state := .killSwitchActive, manualActive := true } rfl _).mpr ?_
  refine ⟨?_, ?_, trivial⟩
  · intro _
    refine ⟨fun _ => .inl rfl, ?_⟩
    intro e he
    cases he
  · intro _ hover
    exact absurd hover id

/-- A fill that matches no order replaces the row of the operator by one without the flag,
and the next cycle returns the date to normal. -/
theorem unmatched_fill_clears_switch :
    ¬ ∀ (settings : Settings) (db : Database) (saved : KillSwitchRow) (steps : List Step),
      saved.manualActive = true →
        (machine settings).Always
          (StaysOn saved.tradeDate db.killSwitchStates.length saved.state)
          (db.commit (.killSwitchState saved)) steps := by
  intro h
  have hrun := h { orders := { enabled := true } } {}
    { tradeDate := "2026-06-18", state := .killSwitchActive, manualActive := true }
    [.dispatch
      { canonicalType := .orderFilled
        payload := { code := "005930", side := "BUY", quantity := 1, orderNo := "OID-9" }
        sourceEventId := "evt-9"
        dedupeKey := "source:evt-9" } ⟨"2026-06-18", by decide⟩,
      .run {} ⟨"2026-06-18", by decide⟩ ⟨"2026-06-18", by decide⟩ 0] rfl
  -- the row that the second cycle evaluates
  have hrow := hrun.2.2
    { tradeDate := "2026-06-18", state := .normal } (by decide) rfl
  exact absurd hrow.1 (by decide)

end TradingCore.Orders
