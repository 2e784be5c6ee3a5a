import TradingCore.LiveSim.LedgerLemmas

/-!
# An interrupted execution

The sync of an execution commits the fill row first, then the position, then the order. A
row whose ids are there makes it do nothing, so a stop behind the first commit is never
made up for. `atomic_iff_losesNothing`: stops and repeated deliveries leave the orders and
the positions as one delivery does iff there is nothing behind the fill row to be lost.
-/

namespace TradingCore.LiveSim

open Base LiveSimOrderStatus List Dict Text
open Orders (orText orInt)

namespace Ledger

/-- However many deliveries of the execution are stopped, after however many commits, the
next completed one leaves the orders and the positions as a single delivery does. -/
def Atomic (event : ExecutionEvent) (l : Ledger) : Prop :=
  ∀ stops : List Nat,
    (syncExecution.whole event (syncExecution.attempts l (stops.map (event, ·)))).orders =
        (syncExecution.whole event l).orders ∧
      (syncExecution.whole event (syncExecution.attempts l (stops.map (event, ·)))).positions =
        (syncExecution.whole event l).positions

/-- Would an execution that belongs to no order move a position? It does when it is a
purchase, and else when there is a single open position of its code, unless the row on which
it is booked is there and, if it is a sale, closed and empty. -/
def Moves (l : Ledger) (event : ExecutionEvent) : Prop :=
  match l.manualPosition event (maskAccount (orText event.account event.rawAccount)) with
  | none => lower event.side = "buy"
  | some position =>
      lower event.side = "buy" ∨
        ∀ record, l.positions.get? (positionIdFor (l.manualAccount event)
            (orText position.code event.code) position.candidateInstanceId) = some record →
          lower event.side = "sell" ∧ ¬ (record.currentQty = 0 ∧ record.status = .closed)

/-- The execution has nothing to lose: its ids are recorded, or it belongs to no order and
reports no more than is recorded under its number or moves no position. -/
def LosesNothing (l : Ledger) (event : ExecutionEvent) : Prop :=
  l.recorded (l.executionIds event).1 (l.executionIds event).2 = true ∨
    (l.executionOrder event = none ∧
      (event.cumulativeFillQty ≤ l.previousCumulativeFillQty "" event.orderNo ∨ ¬ l.Moves event))

/-! ## The last fill of an order -/

/-- The last fill of every order is a recorded row. -/
def LastFillsRecorded (l : Ledger) : Prop :=
  ∀ id order fill, l.orders.get? id = some order → order.lastFill = some fill → fill ∈ l.fills

theorem lastFillsRecorded_set {l : Ledger} {id : String} {order : LiveSimOrder}
    (h : l.LastFillsRecorded) (horder : ∀ fill, order.lastFill = some fill → fill ∈ l.fills) :
    ∀ id' order' fill, (l.orders.set id order).get? id' = some order' →
      order'.lastFill = some fill → fill ∈ l.fills := by
  intro id' order' fill hget hlast
  rw [get?_set] at hget
  by_cases hid : id' = id
  · rw [if_pos hid] at hget
    injection hget with hget
    exact horder fill (hget ▸ hlast)
  · rw [if_neg hid] at hget
    exact h id' order' fill hget hlast

theorem lastFillsRecorded_step {l : Ledger} (h : l.LastFillsRecorded) (action : Action) :
    (l.act action).LastFillsRecorded := by
  cases action with
  | saveOrder id order =>
    apply lastFillsRecorded_set h
    intro fill hlast
    obtain ⟨old, hold, holdLast⟩ := Option.bind_eq_some_iff.mp hlast
    exact h id old fill hold holdLast
  | savePosition positionId record => exact h
  | orderResult result =>
    rw [act_orderResult]
    cases horder : l.resultOrder result with
    | none => exact h
    | some found =>
      obtain ⟨id, order⟩ := found
      apply lastFillsRecorded_set h
      intro fill hlast
      exact h id order fill (get?_of_resultOrder horder) hlast
  | execution event =>
    -- rows are only added, so the last fills of before stay recorded
    have hmono : ∀ fill ∈ l.fills, fill ∈ (l.act (.execution event)).fills :=
      fun fill hfill => l.mem_fills_act (.execution event) hfill
    intro id order fill hget hlast
    rw [orders_act_execution] at hget
    cases horder : l.executionOrder event with
    | none =>
      rw [horder] at hget
      exact hmono fill (h id order fill hget hlast)
    | some found =>
      obtain ⟨id', order'⟩ := found
      simp only [horder] at hget
      by_cases hnew : (l.report event).inserted = true
      · rw [if_pos hnew, get?_set] at hget
        by_cases hid : id = id'
        · rw [if_pos hid] at hget
          injection hget with hget
          rw [← hget] at hlast
          injection hlast with hlast
          rw [fills_act_execution, if_pos hnew, ← hlast, l.fill_report_order horder]
          exact mem_append_right _ mem_cons_self
        · rw [if_neg hid] at hget
          exact hmono fill (h id order fill hget hlast)
      · rw [if_neg hnew] at hget
        exact hmono fill (h id order fill hget hlast)

/-! ## Deliveries that lose nothing -/

/-- The orders and the positions, as the writes of a sync move them. -/
def rows : syncExecution.View (Dict String LiveSimOrder × Dict String LiveSimPosition) where
  see l := (l.orders, l.positions)
  effect w t := (w.onOrders t.1, w.onPositions t.2)
  see_commit l w := Prod.ext (l.orders_commit w) (l.positions_commit w)

variable {l : Ledger} {event : ExecutionEvent}

theorem executionIds_congr {l' : Ledger} (h : l'.orders = l.orders) :
    l'.executionIds event = l.executionIds event := by
  unfold executionIds
  rw [executionOrder_congr h]

theorem recorded_commit_fill {fill : LiveSimFill}
    (h : l.recorded fill.brokerOrderId fill.fillId = false) {ws : List Write}
    (hws : ∀ w ∈ ws, w.isFill = false) :
    (ws.foldl commit (l.commit (.fill fill))).recorded fill.brokerOrderId fill.fillId = true := by
  unfold recorded
  rw [fills_foldl _ hws, l.fills_commit_fill h, any_append]
  simp

variable {record : LiveSimPosition}

theorem afterFill_sell_eq_self {fillQty : Int} (hqty : 0 < fillQty) :
    record.afterFill "sell" fillQty = record ↔ record.currentQty = 0 ∧ record.status = .closed := by
  have hside : ¬ "sell" = "buy" := by decide
  cases record with
  | mk candidateInstanceId code accountIdMasked entryQty currentQty realizedQty status =>
    simp only [LiveSimPosition.afterFill, hside, if_false, if_true,
      LiveSimPosition.mk.injEq, true_and]
    constructor
    · rintro ⟨hcurrent, hrealized, hstatus⟩
      have hempty : currentQty = 0 := by omega
      refine ⟨hempty, ?_⟩
      rw [if_pos (by omega)] at hstatus
      exact hstatus.symm
    · rintro ⟨hempty, hclosed⟩
      have hleft : max 0 (currentQty - min fillQty currentQty) = currentQty := by omega
      refine ⟨hleft, by omega, ?_⟩
      rw [if_pos (by omega), hclosed]

theorem positionBefore_of_get? {accountIdMasked code candidateInstanceId : String}
    (h : l.positions.get? (positionIdFor accountIdMasked code candidateInstanceId) = some record) :
    l.positionBefore accountIdMasked code candidateInstanceId = record := by
  unfold positionBefore
  rw [h]
  rfl

theorem manualPositionWrites_fixed {fillQty : Int} (hqty : 0 < fillQty) (h : ¬ l.Moves event)
    {w : Write} (hw : w ∈ l.manualPositionWrites event fillQty) :
    rows.effect w (rows.see l) = rows.see l := by
  unfold Moves at h
  unfold manualPositionWrites at hw
  cases hposition : l.manualPosition event
      (maskAccount (orText event.account event.rawAccount)) with
  | none =>
    rw [hposition] at h
    simp only [hposition, if_neg h] at hw
    exact absurd hw not_mem_nil
  | some position =>
    simp only [hposition, mem_cons, not_mem_nil, or_false, or_self] at h hw
    rw [not_or, not_forall] at h
    obtain ⟨hbuy, record, hrecord⟩ := h
    rw [Classical.not_imp] at hrecord
    obtain ⟨hget, hkept⟩ := hrecord
    have hafter : record.afterFill (lower event.side) fillQty = record := by
      by_cases hsell : lower event.side = "sell"
      · rw [hsell]
        have hboth : record.currentQty = 0 ∧ record.status = .closed := by
          by_contra hnot
          exact hkept ⟨hsell, hnot⟩
        exact (afterFill_sell_eq_self hqty).mpr hboth
      · unfold LiveSimPosition.afterFill
        rw [if_neg hbuy, if_neg hsell]
    rw [hw]
    have hset : l.positions.set (positionIdFor (l.manualAccount event)
        (orText position.code event.code) position.candidateInstanceId)
        ((l.positionBefore (l.manualAccount event) (orText position.code event.code)
          position.candidateInstanceId).afterFill (lower event.side) fillQty) =
        l.positions := by
      rw [positionBefore_of_get? hget, hafter]
      exact set_eq_self hget
    exact Prod.ext rfl hset

theorem writes_fixed (h : l.LosesNothing event) {w : Write} (hw : w ∈ l.executionWrites event) :
    rows.effect w (rows.see l) = rows.see l := by
  rcases h with hrec | ⟨hnone, hcase⟩
  · rw [l.executionWrites_of_recorded hrec] at hw
    exact absurd hw not_mem_nil
  · rw [executionWrites_eq] at hw
    split at hw
    · unfold executionEffects at hw
      rw [hnone] at hw
      rcases mem_cons.mp hw with rfl | hw
      · rfl
      · rcases mem_append.mp hw with hw | hw
        · split at hw
          · rename_i hqty
            rcases hcase with hle | hmoves
            · have hfill : (l.manualFill event).fillQty = max 0 (event.cumulativeFillQty -
                  l.previousCumulativeFillQty "" event.orderNo) := rfl
              omega
            · exact manualPositionWrites_fixed hqty hmoves hw
          · exact absurd hw not_mem_nil
        · rw [mem_singleton.mp hw]
          rfl
    · exact absurd hw not_mem_nil

/-- A state that deliveries of the execution can leave when nothing is to be lost: the orders
and the positions are those of before, and so is all the rest unless the fill row is there. -/
structure Delivered (l : Ledger) (event : ExecutionEvent) (s : Ledger) : Prop where
  orders : s.orders = l.orders
  positions : s.positions = l.positions
  fills : s = l ∨ s.recorded (l.executionIds event).1 (l.executionIds event).2 = true

section

variable (h : l.LosesNothing event)
include h

variable {s : Ledger}

theorem delivered_interrupted (hs : Delivered l event s) (k : Nat) :
    Delivered l event (syncExecution.interrupted event k s) := by
  rcases hs.fills with rfl | hrec
  · -- the writes change neither orders nor positions, and the first of them is the fill row
    have hsee : rows.see (syncExecution.interrupted event k s) = rows.see s :=
      rows.see_of_fixed fun w hw => writes_fixed h (mem_of_mem_take hw)
    refine ⟨congrArg Prod.fst hsee, congrArg Prod.snd hsee, ?_⟩
    show ((s.executionWrites event).take k).foldl commit s = s ∨
      (((s.executionWrites event).take k).foldl commit s).recorded _ _ = true
    rw [executionWrites_eq]
    by_cases hnew : (s.report event).inserted = true
    · rw [if_pos hnew]
      cases k with
      | zero => exact Or.inl rfl
      | succ k =>
        right
        rw [← ids_report, take_succ_cons, foldl_cons]
        apply recorded_commit_fill (s.recorded_of_inserted hnew)
        exact fun w hw => s.isFill_of_mem_executionEffects (mem_of_mem_take hw)
    · rw [if_neg hnew, take_nil]
      exact Or.inl rfl
  · have hids : s.executionIds event = l.executionIds event := executionIds_congr hs.orders
    rw [← hids] at hrec
    have hsame : syncExecution.interrupted event k s = s := by
      show ((s.executionWrites event).take k).foldl commit s = s
      rw [s.executionWrites_of_recorded hrec, take_nil]
      rfl
    rw [hsame]
    exact hs

theorem delivered_attempts (hs : Delivered l event s) (stops : List Nat) :
    Delivered l event (syncExecution.attempts s (stops.map (event, ·))) := by
  induction stops generalizing s with
  | nil => exact hs
  | cons k stops ih => exact ih (delivered_interrupted h hs k)

theorem delivered_whole (hs : Delivered l event s) :
    Delivered l event (syncExecution.whole event s) := by
  have hall := delivered_interrupted h hs (s.executionWrites event).length
  have hwhole : syncExecution.interrupted event (s.executionWrites event).length s =
      syncExecution.whole event s := by
    show ((s.executionWrites event).take _).foldl commit s = _
    rw [take_length]
    rfl
  rw [← hwhole]
  exact hall

theorem atomic_of_losesNothing : Atomic event l := by
  intro stops
  have hstart : Delivered l event l := ⟨rfl, rfl, Or.inl rfl⟩
  have honce := delivered_whole h hstart
  have hlast := delivered_whole h (delivered_attempts h hstart stops)
  exact ⟨hlast.orders.trans honce.orders.symm, hlast.positions.trans honce.positions.symm⟩

end

/-! ## Deliveries that lose something -/

theorem inserted_of_not_recorded
    (hrec : ¬ l.recorded (l.executionIds event).1 (l.executionIds event).2 = true)
    (hsome : l.executionOrder event = none → 0 < event.cumulativeFillQty) :
    (l.report event).inserted = true := by
  rw [← ids_report] at hrec
  unfold report at hrec ⊢
  cases horder : l.executionOrder event with
  | none =>
    simp only [horder] at hrec ⊢
    have hcum : (l.manualFill event).cumulativeFillQty = event.cumulativeFillQty := rfl
    have hpos := hsome horder
    exact decide_eq_true ⟨fun hempty => by omega, hrec⟩
  | some found =>
    simp only [horder] at hrec ⊢
    exact decide_eq_true hrec

theorem unchanged_of_atomic (hnew : (l.report event).inserted = true) (h : Atomic event l) :
    (l.act (.execution event)).orders = l.orders ∧
      (l.act (.execution event)).positions = l.positions := by
  have hstop : syncExecution.attempts l ([1].map (event, ·)) =
      l.commit (.fill (l.report event).fill) := by
    show ((l.executionWrites event).take 1).foldl commit l = _
    rw [executionWrites_eq, if_pos hnew]
    rfl
  have hids : (l.commit (.fill (l.report event).fill)).executionIds event =
      l.executionIds event := executionIds_congr (l.orders_commit _)
  have hrec : (([] : List Write).foldl commit (l.commit (.fill (l.report event).fill))).recorded
      (l.report event).fill.brokerOrderId (l.report event).fill.fillId = true :=
    recorded_commit_fill (l.recorded_of_inserted hnew) fun w hw => absurd hw not_mem_nil
  rw [foldl_nil] at hrec
  have hidle : syncExecution.whole event (l.commit (.fill (l.report event).fill)) =
      l.commit (.fill (l.report event).fill) := by
    show ((l.commit (.fill (l.report event).fill)).executionWrites event).foldl commit _ = _
    rw [executionWrites_of_recorded]
    · rfl
    · rw [hids, ← ids_report]
      exact hrec
  obtain ⟨horders, hpositions⟩ := h [1]
  rw [hstop, hidle, orders_commit] at horders
  rw [hstop, hidle, positions_commit] at hpositions
  exact ⟨horders.symm, hpositions.symm⟩

theorem recorded_of_unchanged (hlast : l.LastFillsRecorded) {id : String} {order : LiveSimOrder}
    (horder : l.executionOrder event = some (id, order))
    (hsame : (l.act (.execution event)).orders = l.orders) :
    (l.report event).inserted = false := by
  rw [Bool.eq_false_iff]
  intro hnew
  rw [orders_act_execution, horder] at hsame
  simp only [if_pos hnew] at hsame
  have hget := get?_eq_of_set_eq_self hsame
  have hmem : l.orderFill id order event ∈ l.fills := hlast id _ _ hget rfl
  have hrec := l.recorded_of_inserted hnew
  rw [l.fill_report_order horder] at hrec
  have hthere : l.recorded (l.orderFill id order event).brokerOrderId
      (l.orderFill id order event).fillId = true :=
    any_eq_true.mpr ⟨_, hmem, decide_eq_true ⟨rfl, rfl⟩⟩
  rw [hrec] at hthere
  cases hthere

theorem not_moves_of_unchanged (hnone : l.executionOrder event = none)
    (hnew : (l.report event).inserted = true) (hqty : 0 < (l.manualFill event).fillQty)
    (hsame : (l.act (.execution event)).positions = l.positions) : ¬ l.Moves event := by
  intro hmoves
  have hreport : (l.report event).fill = l.manualFill event := l.fill_report_manual hnone
  have hbooked : (l.report event).positionId = l.manualPositionId event := by
    unfold report
    rw [hnone]
    exact if_pos hqty
  by_cases hbuy : lower event.side = "buy"
  · -- a purchase is booked somewhere and adds to what is held there
    obtain ⟨p, hp⟩ : ∃ p, l.manualPositionId event = some p := by
      unfold manualPositionId
      split
      · exact ⟨_, rfl⟩
      · exact ⟨_, if_pos hbuy⟩
    have hheld : (l.act (.execution event)).held p = l.held p := by
      unfold held
      rw [hsame]
    rw [held_act_execution, if_pos ⟨hnew, hbooked.trans hp⟩, hreport] at hheld
    have hside : lower (l.manualFill event).side = "buy" := hbuy
    unfold heldAfter at hheld
    rw [if_pos hside] at hheld
    omega
  · unfold Moves at hmoves
    rw [positions_act_execution, if_pos hnew] at hsame
    unfold executionEffects manualPositionWrites at hsame
    simp only [hnone, if_pos hqty, foldl_append] at hsame
    cases hposition : l.manualPosition event
        (maskAccount (orText event.account event.rawAccount)) with
    | none =>
      rw [hposition] at hmoves
      exact hbuy hmoves
    | some position =>
      simp only [hposition] at hmoves hsame
      have hrecords := hmoves.resolve_left hbuy
      -- the row that the booking writes is the one that was there
      have hset : (l.positions.set _ _).set _ _ = l.positions := hsame
      rw [Dict.set_set] at hset
      have hget := get?_eq_of_set_eq_self hset
      obtain ⟨hsell, hfull⟩ := hrecords _ hget
      have hfixed := positionBefore_of_get? hget
      rw [hsell] at hfixed hfull
      rw [← hfixed] at hfull
      exact hfull ((afterFill_sell_eq_self hqty).mp hfixed.symm)

/-- In every reachable ledger, and for every execution: stops and repeated deliveries leave the
orders and the positions as one uninterrupted delivery does iff the execution has nothing to
lose. -/
theorem atomic_iff_losesNothing (run : List Action) (event : ExecutionEvent) :
    Atomic event (machine.run {} run) ↔ (machine.run {} run).LosesNothing event := by
  have hlast : (machine.run {} run).LastFillsRecorded := by
    apply Machine.run_preserves (I := LastFillsRecorded)
    · exact fun l action h => lastFillsRecorded_step h action
    · intro id order fill hget
      cases hget
  generalize machine.run {} run = l at hlast
  constructor
  · intro hatomic
    by_contra hloses
    unfold LosesNothing at hloses
    rw [not_or, not_and_or, not_or, not_not] at hloses
    obtain ⟨hrec, hcase⟩ := hloses
    have hprevious : 0 ≤ l.previousCumulativeFillQty "" event.orderNo := HighWater.top_nonneg _
    have hnew : (l.report event).inserted = true := by
      apply inserted_of_not_recorded hrec
      intro hnone
      have := (hcase.resolve_left fun hsome => hsome hnone).1
      omega
    obtain ⟨horders, hpositions⟩ := unchanged_of_atomic hnew hatomic
    cases horder : l.executionOrder event with
    | none =>
      obtain ⟨hmore, hmoves⟩ := hcase.resolve_left fun hsome => hsome horder
      have hfill : (l.manualFill event).fillQty = max 0 (event.cumulativeFillQty -
        l.previousCumulativeFillQty "" event.orderNo) := rfl
      exact not_moves_of_unchanged horder hnew (by omega) hpositions hmoves
    | some found =>
      obtain ⟨id, order⟩ := found
      rw [recorded_of_unchanged hlast horder horders] at hnew
      cases hnew
  · exact atomic_of_losesNothing

def acceptedPurchase : List Action :=
  [.saveOrder "O1" { code := "005930", side := "buy", requestedQty := 5, submittedQty := 5,
                     brokerOrderId := "7", orderStatus := .accepted }]

def completion : ExecutionEvent where
  code := "005930"
  orderNo := "7"
  side := "buy"
  quantity := 5
  price := 100
  filledQuantity := 5
  remainingQuantity := 0
  executionId := "E1"

/-- A stop right behind the fill row loses the position and the order's status. -/
theorem stop_behind_row_loses_fill : ¬ Atomic completion (machine.run {} acceptedPurchase) := by
  intro h
  have hpositions := (h [1]).2
  revert hpositions
  decide +kernel

end Ledger
end TradingCore.LiveSim
