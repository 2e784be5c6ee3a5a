import TradingCore.LiveSim.LedgerLemmas

/-!
# The fills of an order telescope

Executions report cumulative quantities. A fill row carries what its execution adds to the
highest quantity among the rows that bear the same ids, and a row whose ids are there is not
inserted again. `fills_telescope`: the rows of an order, together with those recorded under
its number before they could be linked to it, sum up to the largest quantity reported, in
whatever order and however often the executions arrive; and a position holds what the
executions booked on it have bought less what they have sold, as long as no sale is booked
on a position that does not hold it.
-/

namespace TradingCore.LiveSim

open Base LiveSimOrderStatus HighWater List
open Orders (orText orInt)

namespace LiveSimFill

variable (fill : LiveSimFill)

/-- Is the row one of the order `o`, or one that was recorded under its number `n` without
an order? -/
def ofOrder (o n : String) : Bool :=
  fill.orderIntentId = o ∨ (fill.orderIntentId = "" ∧ fill.brokerOrderId = n)

def ids : String × String := (fill.brokerOrderId, fill.fillId)

def signedQty : Int :=
  if Text.lower fill.side = "buy" then fill.fillQty
  else if Text.lower fill.side = "sell" then -fill.fillQty
  else 0

end LiveSimFill

namespace Ledger

variable (l : Ledger)

def fillsOf (o n : String) : List LiveSimFill := l.fills.filter (·.ofOrder o n)

/-- The sum of `fill_qty` over the rows of the order. -/
def filledQty (o n : String) : Int := ((l.fillsOf o n).map (·.fillQty)).sum

def marks (o n : String) : List Int := (l.fillsOf o n).map (·.cumulativeFillQty)

/-- The ids of an execution of the order are its own: the rows that bear its order id or its
number are the rows of the order, and a row with its ids is an earlier delivery of it. -/
def IdsKept (o n : String) (l : Ledger) : Action → Prop
  | .execution event =>
      let fill := (l.report event).fill
      fill.ofOrder o n = true → ∀ row ∈ l.fills,
        row.bears fill.orderIntentId fill.brokerOrderId = row.ofOrder o n ∧
          (row.ids = fill.ids →
            row.ofOrder o n = true ∧ row.cumulativeFillQty = fill.cumulativeFillQty)
  | _ => True

/-- A sale that is booked on the position is held by it, and the other writers keep the
quantity of the position. -/
def Covered (p : String) (l : Ledger) : Action → Prop
  | .execution event =>
      let report := l.report event
      report.inserted = true → report.positionId = some p →
        Text.lower report.fill.side = "sell" → report.fill.fillQty ≤ l.held p
  | .savePosition positionId record => positionId = p → record.currentQty = l.held p
  | _ => True

instance (o n : String) (l : Ledger) : ∀ action, Decidable (IdsKept o n l action)
  | .execution event =>
      inferInstanceAs (Decidable ((l.report event).fill.ofOrder o n = true → ∀ row ∈ l.fills, _ ∧ _))
  | .saveOrder _ _ => .isTrue trivial
  | .savePosition _ _ => .isTrue trivial
  | .orderResult _ => .isTrue trivial

instance (p : String) (l : Ledger) : ∀ action, Decidable (Covered p l action)
  | .execution event =>
      inferInstanceAs (Decidable ((l.report event).inserted = true → _ → _ → _))
  | .savePosition positionId record =>
      inferInstanceAs (Decidable (positionId = p → record.currentQty = l.held p))
  | .saveOrder _ _ => .isTrue trivial
  | .orderResult _ => .isTrue trivial

end Ledger

/-! ## What has been reported -/

/-- The largest cumulative quantity that has been reported for the order. -/
def largestSeen (o n : String) (reports : List (Option ExecutionReport)) : Int :=
  top (((reports.filterMap id).filter (·.fill.ofOrder o n)).map (·.fill.cumulativeFillQty))

/-- What the fills booked on the position have bought less what they have sold. -/
def netBooked (p : String) (reports : List (Option ExecutionReport)) : Int :=
  (((reports.filterMap id).filter fun report =>
    report.inserted ∧ report.positionId = some p).map (·.fill.signedQty)).sum

theorem largestSeen_cons (o n : String) (report : Option ExecutionReport)
    (reports : List (Option ExecutionReport)) :
    largestSeen o n (report :: reports) =
      max (largestSeen o n [report]) (largestSeen o n reports) := by
  unfold largestSeen
  rw [← top_append, ← map_append, ← filter_append, ← filterMap_append]
  rfl

theorem netBooked_cons (p : String) (report : Option ExecutionReport)
    (reports : List (Option ExecutionReport)) :
    netBooked p (report :: reports) = netBooked p [report] + netBooked p reports := by
  unfold netBooked
  rw [← sum_append, ← map_append, ← filter_append, ← filterMap_append]
  rfl

namespace Ledger

variable {l : Ledger} {o n p : String}

/-! ## One step -/

theorem recorded_or_nothing {event : ExecutionEvent} (h : (l.report event).inserted = false) :
    (∃ row ∈ l.fills, row.ids = (l.report event).fill.ids) ∨
      (l.report event).fill.cumulativeFillQty ≤ 0 := by
  have hrow : ∀ fill : LiveSimFill, l.recorded fill.brokerOrderId fill.fillId = true →
      ∃ row ∈ l.fills, row.ids = fill.ids := by
    intro fill hrec
    obtain ⟨row, hmem, hids⟩ := any_eq_true.mp hrec
    have hboth := of_decide_eq_true hids
    exact ⟨row, hmem, Prod.ext hboth.1 hboth.2⟩
  unfold report at h ⊢
  cases horder : l.executionOrder event with
  | none =>
    simp only [horder, decide_eq_false_iff_not, not_and, not_not] at h ⊢
    by_cases hempty : (l.manualFill event).fillQty ≤ 0 ∧ (l.manualFill event).cumulativeFillQty ≤ 0
    · exact Or.inr hempty.2
    · refine Or.inl (hrow _ ?_)
      exact h fun hqty hcum => hempty ⟨hqty, hcum⟩
  | some found =>
    simp only [horder, decide_eq_false_iff_not, not_not] at h ⊢
    exact Or.inl (hrow _ h)

theorem fillsOf_act_execution (event : ExecutionEvent) :
    (l.act (.execution event)).fillsOf o n =
      if (l.report event).inserted = true ∧ (l.report event).fill.ofOrder o n = true then
        l.fillsOf o n ++ [(l.report event).fill]
      else l.fillsOf o n :=
  l.filter_fills_act_execution (·.ofOrder o n) event

theorem largestSeen_single (event : ExecutionEvent) :
    largestSeen o n [some (l.report event)] =
      if (l.report event).fill.ofOrder o n then
        max 0 (l.report event).fill.cumulativeFillQty
      else 0 := by
  unfold largestSeen
  by_cases hof : (l.report event).fill.ofOrder o n = true
  · simp [hof, top]
  · simp [hof]

variable {action : Action} {run : List Action}

theorem telescopes_step (hids : IdsKept o n l action) (h : l.filledQty o n = top (l.marks o n)) :
    (l.act action).filledQty o n = top ((l.act action).marks o n) ∧
      top ((l.act action).marks o n) =
        max (top (l.marks o n)) (largestSeen o n [machine.out l action]) := by
  by_cases hexec : ∃ event, action = .execution event
  · obtain ⟨event, rfl⟩ := hexec
    have hnonneg := top_nonneg (l.marks o n)
    have hseen : largestSeen o n [machine.out l (.execution event)] = _ :=
      l.largestSeen_single event
    unfold filledQty marks at *
    rw [fillsOf_act_execution, hseen]
    by_cases hof : (l.report event).fill.ofOrder o n = true
    · by_cases hnew : (l.report event).inserted = true
      · -- a new row of the order: its quantity is what it adds to the highest one
        have hqty : (l.report event).fill.fillQty =
            rise ((l.fillsOf o n).map (·.cumulativeFillQty))
              (l.report event).fill.cumulativeFillQty := by
          rw [fillQty_report]
          refine congrArg (rise · _) (congrArg _ ?_)
          exact filter_congr fun row hrow => (hids hof row hrow).1
        rw [if_pos ⟨hnew, hof⟩, if_pos hof, map_append, map_append, sum_append,
          map_singleton, map_singleton, sum_singleton, hqty, add_rise h,
          top_append_singleton]
        omega
      · rw [if_neg (fun hboth => hnew hboth.1), if_pos hof]
        refine ⟨h, ?_⟩
        rcases recorded_or_nothing (Bool.eq_false_iff.mpr hnew) with ⟨row, hmem, hsame⟩ | hnothing
        · -- an earlier delivery is among the rows
          obtain ⟨hrow, hcum⟩ := (hids hof row hmem).2 hsame
          have hle : (l.report event).fill.cumulativeFillQty ≤
              top ((l.fillsOf o n).map (·.cumulativeFillQty)) := by
            rw [← hcum]
            exact le_top (mem_map_of_mem (mem_filter.mpr ⟨hmem, hrow⟩))
          omega
        · omega
    · rw [if_neg (fun hboth => hof hboth.2), if_neg hof]
      exact ⟨h, by omega⟩
  · have hother : ∀ event, action ≠ .execution event := fun event heq => hexec ⟨event, heq⟩
    have hsame : (l.act action).fills = l.fills := l.fills_act_other hother
    have hout : machine.out l action = none := by
      cases action with
      | execution event => exact absurd rfl (hother event)
      | saveOrder id order => rfl
      | savePosition positionId record => rfl
      | orderResult result => rfl
    have hnonneg := top_nonneg (l.marks o n)
    have hseen : largestSeen o n [none] = 0 := rfl
    unfold filledQty marks fillsOf at *
    rw [hsame, hout, hseen]
    exact ⟨h, by omega⟩

theorem nodup_ids_step (h : (l.fills.map (·.ids)).Nodup) :
    ((l.act action).fills.map (·.ids)).Nodup := by
  rcases l.fills_act_cases action with hsame | ⟨event, -, hnew, hmore⟩
  · rw [hsame]
    exact h
  · rw [hmore, map_append, map_singleton, ← concat_eq_append]
    apply Nodup.concat _ h
    intro hmem
    obtain ⟨row, hrow, hids⟩ := mem_map.mp hmem
    have hrec : l.recorded (l.report event).fill.brokerOrderId
        (l.report event).fill.fillId = true :=
      any_eq_true.mpr ⟨row, hrow,
        decide_eq_true ⟨congrArg Prod.fst hids, congrArg Prod.snd hids⟩⟩
    rw [l.recorded_of_inserted hnew] at hrec
    cases hrec

theorem netBooked_single (event : ExecutionEvent) :
    netBooked p [some (l.report event)] =
      if (l.report event).inserted = true ∧ (l.report event).positionId = some p then
        (l.report event).fill.signedQty
      else 0 := by
  unfold netBooked
  split
  · rename_i h
    simp [h]
  · rename_i h
    rw [filterMap_cons, filterMap_nil]
    simp only [id_eq]
    rw [filter_cons_of_neg (by simpa using h)]
    rfl

theorem held_step (h : Covered p l action) :
    (l.act action).held p = l.held p + netBooked p [machine.out l action] := by
  cases action with
  | saveOrder id order =>
    have hnone : netBooked p [none] = 0 := rfl
    show l.held p = l.held p + netBooked p [none]
    omega
  | savePosition positionId record =>
    have hnone : netBooked p [none] = 0 := rfl
    have hheld : (l.act (.savePosition positionId record)).held p =
        if p = positionId then record.currentQty else l.held p := held_set positionId record p
    show (l.act (.savePosition positionId record)).held p = l.held p + netBooked p [none]
    rw [hheld, hnone]
    split
    · rename_i hp
      have := h hp.symm
      omega
    · omega
  | orderResult result =>
    have hnone : netBooked p [none] = 0 := rfl
    show (l.act (.orderResult result)).held p = l.held p + netBooked p [none]
    unfold held
    rw [l.positions_act_orderResult result, hnone]
    omega
  | execution event =>
    show (l.act (.execution event)).held p = l.held p + netBooked p [some (l.report event)]
    rw [held_act_execution, netBooked_single]
    split
    · rename_i hbooked
      have hcovered := h hbooked.1 hbooked.2
      have hqty : 0 ≤ (l.report event).fill.fillQty := l.fillQty_report_nonneg event
      unfold heldAfter LiveSimFill.signedQty
      split
      · rfl
      · split
        · rename_i hsell
          have := hcovered hsell
          omega
        · omega
    · omega

/-! ## Whole runs -/

theorem telescopes_run (hids : machine.Guarded (IdsKept o n) l run)
    (h : l.filledQty o n = top (l.marks o n)) :
    (machine.run l run).filledQty o n =
      max (top (l.marks o n)) (largestSeen o n (machine.outputs l run)) := by
  induction run generalizing l with
  | nil =>
    have hnonneg := top_nonneg (l.marks o n)
    have hnone : largestSeen o n [] = 0 := rfl
    show l.filledQty o n = max (top (l.marks o n)) (largestSeen o n [])
    omega
  | cons action run ih =>
    obtain ⟨hsum, htop⟩ := telescopes_step hids.1 h
    have hrest := ih hids.2 hsum
    show (machine.run (l.act action) run).filledQty o n =
      max (top (l.marks o n))
        (largestSeen o n (machine.out l action :: machine.outputs (l.act action) run))
    have hcons := largestSeen_cons o n (machine.out l action) (machine.outputs (l.act action) run)
    have hnext : machine.next l action = l.act action := rfl
    rw [hnext] at hrest
    omega

theorem held_run (h : machine.Guarded (Covered p) l run) :
    (machine.run l run).held p = l.held p + netBooked p (machine.outputs l run) := by
  induction run generalizing l with
  | nil => exact (Int.add_zero _).symm
  | cons action run ih =>
    have hstep := held_step h.1
    have hrest := ih h.2
    have hcons := netBooked_cons p (machine.out l action) (machine.outputs (l.act action) run)
    have hnext : machine.next l action = l.act action := rfl
    rw [hnext] at hrest
    show (machine.run (l.act action) run).held p =
      l.held p + netBooked p (machine.out l action :: machine.outputs (l.act action) run)
    omega

/-- In every history of the ledger: if the executions of an order keep its ids, the rows of
the order sum up to the largest cumulative quantity reported for it; no two rows have the
same ids; and a position that its sales do not overdraw holds what the executions booked on
it have bought less what they have sold. -/
theorem fills_telescope (o n p : String) (run : List Action) :
    (machine.Guarded (IdsKept o n) {} run →
        (machine.run {} run).filledQty o n = largestSeen o n (machine.outputs {} run)) ∧
      ((machine.run {} run).fills.map (·.ids)).Nodup ∧
      (machine.Guarded (Covered p) {} run →
        (machine.run {} run).held p = netBooked p (machine.outputs {} run)) := by
  refine ⟨?_, ?_, ?_⟩
  · intro hids
    have hrun := telescopes_run hids rfl
    have hempty : top (({} : Ledger).marks o n) = 0 := rfl
    have hseen : 0 ≤ largestSeen o n (machine.outputs {} run) := top_nonneg _
    omega
  · apply Machine.run_preserves (I := fun l : Ledger => (l.fills.map (·.ids)).Nodup)
    · exact fun l action h => nodup_ids_step h
    · exact nodup_nil
  · intro hcovered
    have hrun := held_run hcovered
    have hempty : ({} : Ledger).held p = 0 := rfl
    omega

/-! ## Fixed runs -/

def purchaseFill (executionId : String) (filled remaining : Int) : ExecutionEvent where
  code := "005930"
  orderNo := "7"
  side := "buy"
  quantity := 5
  price := 101
  filledQuantity := filled
  remainingQuantity := remaining
  executionId := executionId

/-- The purchase at a limit price, sent with the command `C1`. -/
def purchaseOrder : LiveSimOrder where
  code := "005930"
  side := "buy"
  requestedQty := 5
  submittedQty := 5
  submittedPrice := 100
  commandId := "C1"
  orderStatus := .submitted

/-- Two shares are filled before the number of the order is known, then all five, and the
first execution is delivered again. -/
def lateLink : List Action :=
  [.saveOrder "O1" purchaseOrder,
   .execution (purchaseFill "E1" 2 3),
   .orderResult { ok := true, orderNo := "7", commandId := "C1" },
   .execution (purchaseFill "E2" 5 0),
   .execution (purchaseFill "E1" 2 3)]

def saleFirst : List Action :=
  [.saveOrder "O1" { purchaseOrder with brokerOrderId := "7", orderStatus := .accepted },
   .saveOrder "O2" { purchaseOrder with side := "sell", brokerOrderId := "8", commandId := "C2" },
   .execution { purchaseFill "E2" 5 0 with side := "sell", orderNo := "8" },
   .execution (purchaseFill "E1" 5 0)]

/-- The general theorem at a run whose executions arrive late, out of order and twice. -/
theorem fills_telescope_lateLink :
    (machine.run {} lateLink).filledQty "O1" "7" = 5 ∧
      (machine.run {} lateLink).held "LIVE_SIM::005930:no_ci" = 3 := by
  obtain ⟨hsum, -, hheld⟩ := fills_telescope "O1" "7" "LIVE_SIM::005930:no_ci" lateLink
  exact ⟨(hsum (by decide +kernel)).trans (by decide +kernel),
    (hheld (by decide +kernel)).trans (by decide +kernel)⟩

/-- The rows that name the order do not sum up to the largest quantity when a fill was
recorded before it could be linked, and a sale that is booked first leaves the position with
more than was bought and not sold. -/
theorem own_rows_fall_short :
    machine.Guarded (IdsKept "O1" "7") {} lateLink ∧
    (((machine.run {} lateLink).fills.filter fun row => row.orderIntentId = "O1").map
        (·.fillQty)).sum = 3 ∧
      largestSeen "O1" "7" (machine.outputs {} lateLink) = 5 ∧
      (machine.run {} saleFirst).held "LIVE_SIM::005930:no_ci" = 5 ∧
      netBooked "LIVE_SIM::005930:no_ci" (machine.outputs {} saleFirst) = 0 := by
  decide +kernel

end Ledger

end TradingCore.LiveSim
