import TradingCore.LiveSim.Ledger

/-!
# What a message does to the ledger

An execution inserts the fill row of its report and then carries out its effects, or does
nothing at all (`executionWrites_eq`). The lemmas say what is then in each table: the fill
rows (`fills_act_execution`) and the quantity that a position holds (`held_act_execution`).
-/

namespace TradingCore.LiveSim

open Base LiveSimOrderStatus Dict Text List
open Orders (orText orInt)

def Write.onOrders : Write → Dict String LiveSimOrder → Dict String LiveSimOrder
  | .order id record, orders => orders.set id record
  | _, orders => orders

def Write.onPositions : Write → Dict String LiveSimPosition → Dict String LiveSimPosition
  | .position positionId record, positions => positions.set positionId record
  | _, positions => positions

def Write.isFill : Write → Bool
  | .fill _ => true
  | _ => false

namespace Ledger

variable (l : Ledger)

/-! ## Writes -/

theorem orders_commit (w : Write) : (l.commit w).orders = w.onOrders l.orders := by
  cases w with
  | fill fill =>
    show (if l.recorded fill.brokerOrderId fill.fillId then l
      else { l with fills := l.fills ++ [fill] }).orders = l.orders
    split <;> rfl
  | position positionId record => rfl
  | order id order => rfl
  | audit => rfl

theorem positions_commit (w : Write) : (l.commit w).positions = w.onPositions l.positions := by
  cases w with
  | fill fill =>
    show (if l.recorded fill.brokerOrderId fill.fillId then l
      else { l with fills := l.fills ++ [fill] }).positions = l.positions
    split <;> rfl
  | position positionId record => rfl
  | order id order => rfl
  | audit => rfl

theorem fills_commit_fill {fill : LiveSimFill}
    (h : l.recorded fill.brokerOrderId fill.fillId = false) :
    (l.commit (.fill fill)).fills = l.fills ++ [fill] := by
  simp [commit, h]

theorem orders_foldl (ws : List Write) :
    (ws.foldl commit l).orders = ws.foldl (fun orders w => w.onOrders orders) l.orders := by
  induction ws generalizing l with
  | nil => rfl
  | cons w ws ih =>
    rw [foldl_cons, ih, orders_commit]
    rfl

theorem positions_foldl (ws : List Write) :
    (ws.foldl commit l).positions =
      ws.foldl (fun positions w => w.onPositions positions) l.positions := by
  induction ws generalizing l with
  | nil => rfl
  | cons w ws ih =>
    rw [foldl_cons, ih, positions_commit]
    rfl

theorem fills_foldl {ws : List Write} (h : ∀ w ∈ ws, w.isFill = false) :
    (ws.foldl commit l).fills = l.fills := by
  induction ws generalizing l with
  | nil => rfl
  | cons w ws ih =>
    have hw : (l.commit w).fills = l.fills := by
      have := h w mem_cons_self
      cases w with
      | fill fill => cases this
      | position positionId record => rfl
      | order id order => rfl
      | audit => rfl
    rw [foldl_cons, ih (l.commit w) fun v hv => h v (mem_cons_of_mem w hv), hw]

/-! ## Queries -/

variable {l}

variable {id : String} {order : LiveSimOrder} {event : ExecutionEvent}

theorem get?_of_findByIdempotency {idempotencyKey : String}
    (h : l.findByIdempotency idempotencyKey = some (id, order)) :
    l.orders.get? id = some order := by
  unfold findByIdempotency at h
  split at h
  · cases h
  · exact mem_entries_iff.mp (mem_of_find?_eq_some h)

theorem get?_of_findByCommandId {commandId : String}
    (h : l.findByCommandId commandId = some (id, order)) : l.orders.get? id = some order := by
  unfold findByCommandId at h
  split at h
  · cases h
  · exact (latest?_spec h).1

theorem get?_of_findByBrokerOrderId {brokerOrderId : String}
    (h : l.findByBrokerOrderId brokerOrderId = some (id, order)) :
    l.orders.get? id = some order := by
  unfold findByBrokerOrderId at h
  split at h
  · cases h
  · exact (latest?_spec h).1

theorem get?_of_findByFingerprint (h : l.findByFingerprint event = some (id, order)) :
    l.orders.get? id = some order := by
  have hfold : ∀ step : Option (String × LiveSimOrder) → String × LiveSimOrder →
      Option (String × LiveSimOrder), (∀ best e, step best e = some e ∨ step best e = best) →
        ∀ (found : List _) best, (∀ e ∈ found, e ∈ l.orders.entries) →
          (∀ e, best = some e → e ∈ l.orders.entries) →
            ∀ e, found.foldl step best = some e → e ∈ l.orders.entries := by
    intro step hstep found
    induction found with
    | nil => exact fun best _ hbest => hbest
    | cons first rest ih =>
      intro best hfound hbest
      have hfirst := hfound first mem_cons_self
      apply ih _ fun e he => hfound e (mem_cons_of_mem first he)
      intro e he
      rcases hstep best first with hnext | hnext
      · rw [hnext] at he
        injection he with he
        rw [← he]
        exact hfirst
      · rw [hnext] at he
        exact hbest e he
  unfold findByFingerprint at h
  split at h
  · cases h
  · apply mem_entries_iff.mp
    refine hfold _ ?_ _ none ?_ ?_ _ h
    · intro best e
      cases best with
      | none => exact .inl rfl
      | some b =>
        simp only
        split
        · exact .inl rfl
        · exact .inr rfl
    · exact fun e he => mem_of_mem_filter he
    · intro e he
      cases he

theorem get?_of_executionOrder (h : l.executionOrder event = some (id, order)) :
    l.orders.get? id = some order := by
  unfold executionOrder at h
  rw [Option.or_eq_some_iff, Option.or_eq_some_iff, Option.or_eq_some_iff] at h
  rcases h with ((h | ⟨-, h⟩) | ⟨-, h⟩) | ⟨-, h⟩
  · exact get?_of_findByBrokerOrderId h
  · exact get?_of_findByCommandId h
  · exact get?_of_findByIdempotency h
  · exact get?_of_findByFingerprint h

theorem get?_of_resultOrder {result : BrokerOrderResult}
    (h : l.resultOrder result = some (id, order)) : l.orders.get? id = some order := by
  unfold resultOrder at h
  rw [Option.or_eq_some_iff] at h
  rcases h with h | ⟨-, h⟩
  · exact get?_of_findByIdempotency h
  · exact get?_of_findByCommandId h

theorem executionOrder_congr {l' : Ledger} (h : l'.orders = l.orders) (event : ExecutionEvent) :
    l'.executionOrder event = l.executionOrder event := by
  unfold executionOrder findByBrokerOrderId findByCommandId findByIdempotency findByFingerprint
  rw [h]

variable (l)

/-! ## Results -/

theorem act_orderResult (result : BrokerOrderResult) :
    l.act (.orderResult result) =
      match l.resultOrder result with
      | none => l
      | some (id, order) => l.commit (.order id (order.afterResult result)) := by
  show (l.resultWrites result).foldl commit l = _
  unfold resultWrites
  cases l.resultOrder result with
  | none => rfl
  | some found => rfl

theorem positions_act_orderResult (result : BrokerOrderResult) :
    (l.act (.orderResult result)).positions = l.positions := by
  rw [act_orderResult]
  split
  · rfl
  · exact l.positions_commit _

/-! ## Executions -/

/-- The account, the code and the candidate of the position on which an execution is booked. -/
def bookingKey (event : ExecutionEvent) : Option (String × String × String) :=
  match l.executionOrder event with
  | none =>
      match l.manualPosition event (maskAccount (orText event.account event.rawAccount)) with
      | some position =>
          some (l.manualAccount event, orText position.code event.code,
            position.candidateInstanceId)
      | none =>
          if lower event.side = "buy" then
            some (l.manualAccount event, event.code, "MANUAL_INTERVENTION")
          else none
  | some (id, order) =>
      some (order.accountIdMasked, orText order.code (l.orderFill id order event).code,
        order.candidateInstanceId)

/-- What an execution does behind the insertion of its fill row. -/
def executionEffects (event : ExecutionEvent) : List Write :=
  match l.executionOrder event with
  | none =>
      (if 0 < (l.manualFill event).fillQty then
        l.manualPositionWrites event (l.manualFill event).fillQty
      else []) ++ [.audit]
  | some (id, order) =>
      let fill := l.orderFill id order event
      (if 0 < fill.fillQty then
        [l.upsertPosition order.accountIdMasked (orText order.code fill.code)
          order.candidateInstanceId (lower fill.side) fill.fillQty]
      else []) ++
      [.order id (l.orderAfterExecution id order event), .audit] ++
      (if 0 < fill.fillQty then [.audit] else [])

theorem fill_report_manual (h : l.executionOrder event = none) :
    (l.report event).fill = l.manualFill event := by
  unfold report
  rw [h]

theorem fill_report_order (h : l.executionOrder event = some (id, order)) :
    (l.report event).fill = l.orderFill id order event := by
  unfold report
  rw [h]

theorem fillQty_report (event : ExecutionEvent) :
    (l.report event).fill.fillQty =
      HighWater.rise ((l.fills.filter fun row =>
        row.bears (l.report event).fill.orderIntentId (l.report event).fill.brokerOrderId).map
          (·.cumulativeFillQty)) (l.report event).fill.cumulativeFillQty := by
  cases horder : l.executionOrder event with
  | none =>
    rw [l.fill_report_manual horder]
    rfl
  | some found =>
    obtain ⟨id, order⟩ := found
    rw [l.fill_report_order horder]
    rfl

theorem fillQty_report_nonneg (event : ExecutionEvent) : 0 ≤ (l.report event).fill.fillQty := by
  rw [fillQty_report]
  exact Int.le_max_left _ _

theorem executionWrites_eq (event : ExecutionEvent) :
    l.executionWrites event =
      if (l.report event).inserted then
        .fill (l.report event).fill :: l.executionEffects event
      else [] := by
  unfold executionWrites report executionEffects
  cases l.executionOrder event with
  | none =>
    simp only [manualExecutionWrites]
    by_cases hempty : (l.manualFill event).fillQty ≤ 0 ∧ (l.manualFill event).cumulativeFillQty ≤ 0
    · simp [hempty]
    · by_cases hrec : l.recorded (l.manualFill event).brokerOrderId (l.manualFill event).fillId
      · simp [hempty, hrec]
      · simp [hempty, hrec]
  | some found =>
    obtain ⟨id, order⟩ := found
    simp only [orderExecutionWrites]
    by_cases hrec : l.recorded (l.orderFill id order event).brokerOrderId
      (l.orderFill id order event).fillId
    · simp [hrec]
    · simp [hrec]

theorem recorded_of_inserted (h : (l.report event).inserted = true) :
    l.recorded (l.report event).fill.brokerOrderId (l.report event).fill.fillId = false := by
  unfold report at h ⊢
  cases horder : l.executionOrder event with
  | none =>
    simp only [horder, decide_eq_true_eq] at h ⊢
    simpa using h.2
  | some found =>
    simp only [horder, decide_eq_true_eq] at h ⊢
    simpa using h

def executionIds (event : ExecutionEvent) : String × String :=
  match l.executionOrder event with
  | none => (event.orderNo, event.fillId)
  | some (_, order) => (orText event.orderNo order.brokerOrderId, event.fillId)

theorem ids_report (event : ExecutionEvent) :
    ((l.report event).fill.brokerOrderId, (l.report event).fill.fillId) = l.executionIds event := by
  unfold report executionIds
  cases l.executionOrder event with
  | none => rfl
  | some found => rfl

theorem executionWrites_of_recorded
    (h : l.recorded (l.executionIds event).1 (l.executionIds event).2 = true) :
    l.executionWrites event = [] := by
  rw [executionWrites_eq, if_neg]
  intro hnew
  have hrec := l.recorded_of_inserted hnew
  rw [← ids_report] at h
  rw [hrec] at h
  cases h

theorem isFill_of_mem_manualPositionWrites {fillQty : Int} {w : Write}
    (h : w ∈ l.manualPositionWrites event fillQty) : w.isFill = false := by
  unfold manualPositionWrites at h
  split at h
  · simp only [mem_cons, not_mem_nil, or_false, or_self] at h
    rw [h]
    rfl
  · split at h
    · simp only [mem_cons, not_mem_nil, or_false] at h
      rcases h with rfl | rfl <;> rfl
    · exact absurd h not_mem_nil

theorem isFill_of_mem_executionEffects {w : Write} (h : w ∈ l.executionEffects event) :
    w.isFill = false := by
  unfold executionEffects at h
  cases horder : l.executionOrder event with
  | none =>
    simp only [horder, mem_append, mem_singleton] at h
    rcases h with h | rfl
    · split at h
      · exact l.isFill_of_mem_manualPositionWrites h
      · exact absurd h not_mem_nil
    · rfl
  | some found =>
    obtain ⟨id, order⟩ := found
    simp only [horder, mem_append, mem_cons, not_mem_nil, or_false] at h
    rcases h with (h | rfl | rfl) | h
    · split at h
      · rw [mem_singleton] at h
        rw [h]
        rfl
      · exact absurd h not_mem_nil
    · rfl
    · rfl
    · split at h
      · rw [mem_singleton] at h
        rw [h]
        rfl
      · exact absurd h not_mem_nil

theorem fills_act_execution (event : ExecutionEvent) :
    (l.act (.execution event)).fills =
      if (l.report event).inserted then l.fills ++ [(l.report event).fill] else l.fills := by
  show ((l.executionWrites event).foldl commit l).fills = _
  rw [executionWrites_eq]
  split
  · rename_i hnew
    rw [foldl_cons, fills_foldl _ fun w hw => l.isFill_of_mem_executionEffects hw,
      fills_commit_fill _ (l.recorded_of_inserted hnew)]
  · rfl

theorem filter_fills_act_execution (keep : LiveSimFill → Bool) (event : ExecutionEvent) :
    (l.act (.execution event)).fills.filter keep =
      if (l.report event).inserted = true ∧ keep (l.report event).fill = true then
        l.fills.filter keep ++ [(l.report event).fill]
      else l.fills.filter keep := by
  rw [fills_act_execution]
  by_cases hnew : (l.report event).inserted = true
  · rw [if_pos hnew, filter_append]
    by_cases hkeep : keep (l.report event).fill = true
    · rw [if_pos ⟨hnew, hkeep⟩, filter_cons_of_pos hkeep, filter_nil]
    · rw [if_neg fun h => hkeep h.2, filter_cons_of_neg hkeep, filter_nil, append_nil]
  · rw [if_neg hnew, if_neg fun h => hnew h.1]

theorem onOrders_manualPositionWrites (event : ExecutionEvent) (fillQty : Int)
    (orders : Dict String LiveSimOrder) :
    (l.manualPositionWrites event fillQty).foldl (fun orders w => w.onOrders orders) orders =
      orders := by
  unfold manualPositionWrites
  split
  · rfl
  · split <;> rfl

theorem orders_act_execution (event : ExecutionEvent) :
    (l.act (.execution event)).orders =
      match l.executionOrder event with
      | none => l.orders
      | some (id, order) =>
        if (l.report event).inserted then
          l.orders.set id (l.orderAfterExecution id order event)
        else l.orders := by
  show ((l.executionWrites event).foldl commit l).orders = _
  rw [executionWrites_eq, orders_foldl]
  unfold executionEffects
  cases l.executionOrder event with
  | none =>
    split
    · rw [foldl_cons, foldl_append]
      split
      · exact l.onOrders_manualPositionWrites event _ l.orders
      · rfl
    · rfl
  | some found =>
    obtain ⟨id, order⟩ := found
    simp only
    split
    · split <;> rfl
    · rfl

theorem fills_act_other {action : Action} (h : ∀ event, action ≠ .execution event) :
    (l.act action).fills = l.fills := by
  cases action with
  | saveOrder id order => rfl
  | savePosition positionId record => rfl
  | orderResult result =>
    rw [act_orderResult]
    split
    · rfl
    · rfl
  | execution event => exact absurd rfl (h event)

theorem fills_act_cases (action : Action) :
    (l.act action).fills = l.fills ∨
      ∃ event, action = .execution event ∧ (l.report event).inserted = true ∧
        (l.act action).fills = l.fills ++ [(l.report event).fill] := by
  by_cases hexec : ∃ event, action = .execution event
  · obtain ⟨event, rfl⟩ := hexec
    rw [fills_act_execution]
    by_cases hnew : (l.report event).inserted = true
    · right
      exact ⟨event, rfl, hnew, if_pos hnew⟩
    · left
      exact if_neg hnew
  · left
    exact l.fills_act_other fun event heq => hexec ⟨event, heq⟩

theorem mem_fills_act (action : Action) {row : LiveSimFill} (h : row ∈ l.fills) :
    row ∈ (l.act action).fills := by
  rcases l.fills_act_cases action with hsame | ⟨event, -, -, hmore⟩
  · rw [hsame]
    exact h
  · rw [hmore]
    exact mem_append_left _ h

/-! ## Quantities -/

def held (positionId : String) : Int :=
  ((l.positions.get? positionId).map (·.currentQty)).getD 0

def heldAfter (side : String) (fillQty held : Int) : Int :=
  if side = "buy" then held + fillQty
  else if side = "sell" then max 0 (held - min fillQty held)
  else held

theorem currentQty_afterFill (position : LiveSimPosition) (side : String) (fillQty : Int) :
    (position.afterFill side fillQty).currentQty = heldAfter side fillQty position.currentQty := by
  unfold LiveSimPosition.afterFill heldAfter
  split
  · rfl
  · split <;> rfl

theorem currentQty_positionBefore (accountIdMasked code candidateInstanceId : String) :
    (l.positionBefore accountIdMasked code candidateInstanceId).currentQty =
      l.held (positionIdFor accountIdMasked code candidateInstanceId) := by
  unfold positionBefore held
  cases l.positions.get? (positionIdFor accountIdMasked code candidateInstanceId) <;> rfl

theorem positions_act_execution (event : ExecutionEvent) :
    (l.act (.execution event)).positions =
      if (l.report event).inserted then
        (l.executionEffects event).foldl (fun positions w => w.onPositions positions) l.positions
      else l.positions := by
  show ((l.executionWrites event).foldl commit l).positions = _
  rw [executionWrites_eq, positions_foldl]
  split
  · rfl
  · rfl

theorem positionId_report (event : ExecutionEvent) :
    (l.report event).positionId =
      if 0 < (l.report event).fill.fillQty then
        (l.bookingKey event).map fun key => positionIdFor key.1 key.2.1 key.2.2
      else none := by
  unfold report bookingKey manualPositionId
  cases l.executionOrder event with
  | none =>
    cases l.manualPosition event (maskAccount (orText event.account event.rawAccount)) with
    | none =>
      simp only
      split
      · split <;> rfl
      · rfl
    | some position => rfl
  | some found => rfl

/-- How a fill is booked on the position of a key: a position that is opened for the operator
is to be reconciled. -/
def Books (event : ExecutionEvent) (fill : LiveSimFill) (positions : Dict String LiveSimPosition) :
    Prop :=
  ∃ account code candidate status, l.bookingKey event = some (account, code, candidate) ∧
    positions = l.positions.set (positionIdFor account code candidate)
      { (l.positionBefore account code candidate).afterFill (lower fill.side)
          fill.fillQty with status } ∧
    (status = ((l.positionBefore account code candidate).afterFill (lower fill.side)
        fill.fillQty).status ∨
      (status = .reconcileRequired ∧ lower event.side = "buy" ∧
        l.executionOrder event = none ∧
        l.manualPosition event (maskAccount (orText event.account event.rawAccount)) = none ∧
        (account, code, candidate) = (l.manualAccount event, event.code, "MANUAL_INTERVENTION")))

theorem positions_manualPositionWrites (hnone : l.executionOrder event = none) (fill : LiveSimFill)
    (hside : fill.side = event.side) :
    (l.manualPositionWrites event fill.fillQty).foldl
        (fun positions w => w.onPositions positions) l.positions = l.positions ∧
        l.bookingKey event = none ∨
      l.Books event fill ((l.manualPositionWrites event fill.fillQty).foldl
        (fun positions w => w.onPositions positions) l.positions) := by
  unfold manualPositionWrites Books bookingKey
  rw [hnone]
  cases hfound : l.manualPosition event (maskAccount (orText event.account event.rawAccount)) with
  | some position =>
    right
    refine ⟨_, _, _, _, rfl, ?_, Or.inl rfl⟩
    simp only [upsertPosition, foldl_cons, foldl_nil, Write.onPositions, Dict.set_set, hside]
  | none =>
    by_cases hbuy : lower event.side = "buy"
    · right
      refine ⟨l.manualAccount event, event.code, "MANUAL_INTERVENTION", .reconcileRequired,
        if_pos hbuy, ?_, Or.inr ⟨rfl, hbuy, rfl, rfl, rfl⟩⟩
      simp only [hbuy, if_true, foldl_cons, foldl_nil, Write.onPositions, Dict.set_set, hside]
    · left
      simp only [hbuy, if_false, foldl_nil, and_self]

theorem positions_act_execution_cases (event : ExecutionEvent) :
    ((l.act (.execution event)).positions = l.positions ∧
        ((l.report event).inserted = true → (l.report event).positionId = none)) ∨
      ((l.report event).inserted = true ∧ 0 < (l.report event).fill.fillQty ∧
        l.Books event (l.report event).fill (l.act (.execution event)).positions) := by
  rw [positions_act_execution, positionId_report]
  by_cases hnew : (l.report event).inserted = true
  · rw [if_pos hnew]
    unfold executionEffects
    by_cases hqty : 0 < (l.report event).fill.fillQty
    · cases horder : l.executionOrder event with
      | none =>
        have hfill := l.fill_report_manual horder
        rw [hfill] at hqty ⊢
        simp only [hqty, if_true, foldl_append, foldl_cons, foldl_nil, Write.onPositions]
        rcases l.positions_manualPositionWrites horder (l.manualFill event) rfl with
          ⟨hsame, hkey⟩ | hbooks
        · exact Or.inl ⟨hsame, fun _ => by rw [hkey]; rfl⟩
        · exact Or.inr ⟨hnew, trivial, hbooks⟩
      | some found =>
        obtain ⟨id, order⟩ := found
        have hfill := l.fill_report_order horder
        rw [hfill] at hqty ⊢
        right
        refine ⟨hnew, hqty, order.accountIdMasked,
          orText order.code (l.orderFill id order event).code, order.candidateInstanceId, _,
          ?_, ?_, Or.inl rfl⟩
        · unfold bookingKey
          rw [horder]
        · simp only [hqty, if_true, foldl_append, foldl_cons, foldl_nil,
            Write.onPositions, upsertPosition]
    · left
      rw [if_neg hqty]
      refine ⟨?_, fun _ => rfl⟩
      cases horder : l.executionOrder event with
      | none =>
        rw [l.fill_report_manual horder] at hqty
        simp only [hqty, if_false, nil_append, foldl_cons, foldl_nil, Write.onPositions]
      | some found =>
        obtain ⟨id, order⟩ := found
        rw [l.fill_report_order horder] at hqty
        simp only [hqty, if_false, nil_append, foldl_append, foldl_cons,
          foldl_nil, Write.onPositions]
  · left
    rw [if_neg hnew]
    exact ⟨rfl, fun h => absurd h hnew⟩

theorem held_set {positions : Dict String LiveSimPosition} (positionId : String)
    (record : LiveSimPosition) (p : String) :
    (((positions.set positionId record).get? p).map (·.currentQty)).getD 0 =
      if p = positionId then record.currentQty
      else ((positions.get? p).map (·.currentQty)).getD 0 := by
  rw [get?_set]
  split <;> rfl

theorem held_manualPositionWrites (event : ExecutionEvent) (fillQty : Int) (p : String) :
    ((((l.manualPositionWrites event fillQty).foldl
        (fun positions w => w.onPositions positions) l.positions).get? p).map
          (·.currentQty)).getD 0 =
      if l.manualPositionId event = some p then
        heldAfter (lower event.side) fillQty (l.held p)
      else l.held p := by
  unfold manualPositionWrites manualPositionId
  cases l.manualPosition event (maskAccount (orText event.account event.rawAccount)) with
  | some position =>
    simp only [upsertPosition, foldl_cons, foldl_nil, Write.onPositions,
      Dict.set_set, held_set, Option.some.injEq]
    by_cases hp : p = positionIdFor (l.manualAccount event) (orText position.code event.code)
      position.candidateInstanceId
    · rw [if_pos hp, if_pos hp.symm, currentQty_afterFill, currentQty_positionBefore, hp]
    · rw [if_neg hp, if_neg (Ne.symm hp)]
      rfl
  | none =>
    by_cases hbuy : lower event.side = "buy"
    · simp only [hbuy, if_true, foldl_cons, foldl_nil, Write.onPositions,
        Dict.set_set, held_set, Option.some.injEq]
      by_cases hp : p = positionIdFor (l.manualAccount event) event.code "MANUAL_INTERVENTION"
      · rw [if_pos hp, if_pos hp.symm, currentQty_afterFill, currentQty_positionBefore, hp]
      · rw [if_neg hp, if_neg (Ne.symm hp)]
        rfl
    · simp only [hbuy, if_false, foldl_nil, reduceCtorEq]
      rfl

theorem held_act_execution (event : ExecutionEvent) (p : String) :
    (l.act (.execution event)).held p =
      if (l.report event).inserted = true ∧ (l.report event).positionId = some p then
        heldAfter (lower (l.report event).fill.side) (l.report event).fill.fillQty (l.held p)
      else l.held p := by
  show ((((l.act (.execution event)).positions).get? p).map (·.currentQty)).getD 0 = _
  rw [positions_act_execution]
  by_cases hnew : (l.report event).inserted = true
  · rw [if_pos hnew]
    unfold report at hnew ⊢
    unfold executionEffects
    cases horder : l.executionOrder event with
    | none =>
      simp only [horder] at hnew ⊢
      by_cases hqty : 0 < (l.manualFill event).fillQty
      · simp only [hqty, if_true, foldl_append, hnew, true_and]
        exact l.held_manualPositionWrites event (l.manualFill event).fillQty p
      · simp only [hqty, if_false, nil_append, foldl_cons, foldl_nil,
          Write.onPositions, reduceCtorEq, and_false]
        rfl
    | some found =>
      obtain ⟨id, order⟩ := found
      simp only [horder] at hnew ⊢
      by_cases hqty : 0 < (l.orderFill id order event).fillQty
      · simp only [hqty, if_true, upsertPosition, foldl_append, foldl_cons,
          foldl_nil, Write.onPositions, held_set, hnew, true_and, Option.some.injEq]
        by_cases hp : p = positionIdFor order.accountIdMasked
          (orText order.code (l.orderFill id order event).code) order.candidateInstanceId
        · rw [if_pos hp, if_pos hp.symm, currentQty_afterFill, currentQty_positionBefore, hp]
        · rw [if_neg hp, if_neg (Ne.symm hp)]
          rfl
      · simp only [hqty, if_false, foldl_append, foldl_cons, foldl_nil,
          Write.onPositions, reduceCtorEq, and_false]
        rfl
  · rw [if_neg hnew, if_neg (fun h => hnew h.1)]
    rfl

end Ledger
end TradingCore.LiveSim
