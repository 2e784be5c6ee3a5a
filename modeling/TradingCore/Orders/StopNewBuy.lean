import TradingCore.Orders.CommandGates
import TradingCore.Orders.ManualKillSwitch

/-!
# After an unmatched event

An event that belongs to no managed order leaves a `STOP_NEW_BUY` row. The next cycle of that
date evaluates the kill switch from the portfolio alone: of the row before it only the manual
flag and the loss count are carried over, and the row has neither.

`buys_stop_iff_heldBack`: after the event no cycle of its date buys iff each purchase intent,
when its turn comes, is held back by something else.
-/

namespace TradingCore.Orders

open Base ManagedOrderStatus List Database
open Broker (GatewayCommand)

/-! ## Rows without a flag -/

/-- Every row of the date has neither the manual flag nor a count of losses. -/
def Unflagged (date : TradeDate) (rows : List KillSwitchRow) : Prop :=
  ∀ row ∈ rows, row.tradeDate = date.text → row.manualActive = false ∧ row.consecutiveLossCount = 0

/-- The newest row of the date has neither of them. -/
def Database.Unflagged (date : TradeDate) (db : Database) : Prop :=
  (db.latestState date.text).manualActive = false ∧
    (db.latestState date.text).consecutiveLossCount = 0

section Rows

variable {date : TradeDate} {db db' : Database}

theorem latestState_append (date : TradeDate) {rows : List KillSwitchRow}
    (hrows : db'.killSwitchStates = db.killSwitchStates ++ rows) :
    (∃ row ∈ rows, row.tradeDate = date.text ∧ db'.latestState date.text = row) ∨
      ((∀ row ∈ rows, row.tradeDate ≠ date.text) ∧
        db'.latestState date.text = db.latestState date.text) := by
  unfold latestState latestOrderKillSwitchState
  rw [hrows, reverse_append, find?_append]
  cases hfind : rows.reverse.find? fun row => decide (date.text = "" ∨ row.tradeDate = date.text) with
  | some row =>
    refine .inl ⟨row, mem_reverse.mp (mem_of_find?_eq_some hfind), ?_, rfl⟩
    have hp := find?_some hfind
    rcases of_decide_eq_true hp with hempty | hdate
    · exact absurd hempty date.nonempty
    · exact hdate
  | none =>
    refine .inr ⟨fun row hrow hdate => ?_, rfl⟩
    have hnot := find?_eq_none.mp hfind row (mem_reverse.mpr hrow)
    exact hnot (decide_eq_true (.inr hdate))

theorem Database.Unflagged.append (h : db.Unflagged date) (rows : List KillSwitchRow)
    (hrows : db'.killSwitchStates = db.killSwitchStates ++ rows)
    (hquiet : Orders.Unflagged date rows) : db'.Unflagged date := by
  unfold Unflagged
  rcases latestState_append date hrows with ⟨row, hrow, hdate, heq⟩ | ⟨-, heq⟩
  · rw [heq]
    exact hquiet row hrow hdate
  · rw [heq]
    exact h

theorem unflagged_of_append (rows : List KillSwitchRow)
    (hrows : db'.killSwitchStates = db.killSwitchStates ++ rows)
    (hquiet : Orders.Unflagged date rows) (hsome : ∃ row ∈ rows, row.tradeDate = date.text) :
    db'.Unflagged date := by
  unfold Database.Unflagged
  rcases latestState_append date hrows with ⟨row, hrow, hdate, heq⟩ | ⟨hnone, -⟩
  · rw [heq]
    exact hquiet row hrow hdate
  · obtain ⟨row, hrow, hdate⟩ := hsome
    exact absurd hdate (hnone row hrow)

theorem unflagged_applied (l : Ledger) (canonicalType : CanonicalType) (payload : OrderPayload)
    (today : String) :
    Unflagged date ((l.applyCanonicalOrderEvent canonicalType payload today).2.filterMap
      Write.killSwitchRow) := by
  intro row hrow _
  rcases applied_rows l canonicalType payload today with ⟨-, reason, hrows⟩ | ⟨-, hrows⟩
  · rw [hrows] at hrow
    rw [mem_singleton.mp hrow]
    exact ⟨rfl, rfl⟩
  · rw [hrows] at hrow
    cases hrow

theorem Database.Unflagged.run (h : db.Unflagged date) (config : OrderManagerConfig)
    (portfolio : PortfolioRisk) (tradeDate today : String) (now : Int) :
    (db.run config portfolio tradeDate today now).Unflagged date := by
  unfold Database.run
  split
  · refine (h.append [db.evaluate config portfolio tradeDate] rfl ?_).append
      _ (killSwitchStates_foldl _ _) ?_
    · intro row hrow hdate
      rw [mem_singleton.mp hrow] at hdate ⊢
      have htradeDate : tradeDate = date.text := hdate
      rw [htradeDate]
      exact h
    · rw [reconcileOpenOrders_rows]
      intro row hrow _
      obtain ⟨e, -, rfl⟩ := mem_map.mp hrow
      exact ⟨rfl, rfl⟩
  · exact h

end Rows

namespace OrderManagerRuntimePipeline

variable {config : OrderManagerSettings} {digest : GatewayCommand → String}
  {p : OrderManagerRuntimePipeline} {date : TradeDate}

theorem killSwitchStates_processIntent (cycle : Cycle) (killSwitchState : KillSwitchState)
    (intent : ManagedOrderIntent) :
    (p.processIntent config digest cycle killSwitchState intent).1.db.killSwitchStates =
      p.db.killSwitchStates := by
  have hspec := processIntent_spec config digest p cycle killSwitchState intent
  generalize p.processIntent config digest cycle killSwitchState intent = result at hspec ⊢
  cases hspec with
  | known _ => rfl
  | stopped _ => rfl
  | blocked _ _ => rfl
  | sent _ _ _ _ _ _ => rfl

theorem unflagged_act (h : p.db.Unflagged date) (action : Action) :
    (p.act config digest action).1.db.Unflagged date := by
  have hsame : ∀ db : Database, db.killSwitchStates = p.db.killSwitchStates → db.Unflagged date := by
    intro db heq
    refine h.append [] ?_ fun row hrow _ => absurd hrow not_mem_nil
    rw [heq, append_nil]
  cases action with
  | begin cycle => exact h.run _ _ _ _ _
  | processIntent cycle killSwitchState intent =>
    exact hsame _ (killSwitchStates_processIntent cycle killSwitchState intent)
  | cancelUnfilled cycle => exact hsame _ (cancelUnfilled_restates config digest p cycle).2.1
  | applyEvent canonicalType payload today =>
    exact h.append _ (killSwitchStates_foldl _ _) (unflagged_applied _ _ _ _)
  | markReconcileRequired reason payload today =>
    refine h.append [_] rfl ?_
    intro row hrow _
    rw [mem_singleton.mp hrow]
    exact ⟨rfl, rfl⟩
  | gateway state => exact hsame _ rfl

/-! ## The condition -/

/-- The kill switch as a cycle evaluates it from the portfolio, without a flag or a count. -/
def cycleState (config : OrderManagerSettings) (cycle : Cycle) : KillSwitchState :=
  if config.killSwitchEnabled then
    (config.toOrderManagerConfig.automaticState cycle.portfolioRisk 0).1
  else .normal

/-- Something other than the recorded `STOP_NEW_BUY` holds a purchase back: the intent is known
already, the portfolio of the cycle itself calls for a stop, one of the other risk checks
holds, or local orders or their commands are held back. -/
def BuyHeldBack (config : OrderManagerSettings) (p : OrderManagerRuntimePipeline) (cycle : Cycle)
    (intent : ManagedOrderIntent) : Prop :=
  p.intents.contains intent.idempotencyKey = true ∨
  (cycleState config cycle).blocksBuy = true ∨
  (∃ check ∈ config.riskChecks p.db.toLedger p.pendingCommandCount cycle .normal intent,
    check.1 = true) ∨
  config.createLocalOrder = false ∨
  ¬ guardPasses config p cycle (orText intent.tradeDate cycle.tradeDate)

/-- Each purchase intent of a cycle of the date is held back. -/
def HeldBack (config : OrderManagerSettings) (date : TradeDate) (p : OrderManagerRuntimePipeline) :
    Action → Prop
  | .processIntent cycle _ intent =>
      cycle.tradeDate = date.text → intent.side = .buy → BuyHeldBack config p cycle intent
  | _ => True

def Action.cycleDate : Action → Option String
  | .begin cycle | .processIntent cycle _ _ | .cancelUnfilled cycle => some cycle.tradeDate
  | .applyEvent .. | .markReconcileRequired .. | .gateway _ => none

/-- An action of a cycle of the date hands over no purchase. -/
def NoBuy (config : OrderManagerSettings) (digest : GatewayCommand → String) (date : TradeDate)
    (p : OrderManagerRuntimePipeline) (action : Action) : Prop :=
  action.cycleDate = some date.text →
    ∀ command ∈ (p.act config digest action).2, ¬ isBuyOrder command

/-- The call is an event that is handed over to reconciliation, under the date. -/
def Call.Unmatched (p : OrderManagerRuntimePipeline) (date : TradeDate) : Call → Prop
  | .applyEvent canonicalType payload today =>
      p.db.HandsOver canonicalType payload ∧ reconcileDate payload.tradeDate today = date.text
  | .markReconcileRequired _ payload today => reconcileDate payload.tradeDate today = date.text
  | .run _ | .gateway _ => False

/-! ## One intent -/

variable {cycle : Cycle} {killSwitchState : KillSwitchState} {intent : ManagedOrderIntent}

theorem approved_iff_normal :
    (p.riskDecision config cycle killSwitchState intent).approved = true ↔
      (∀ check ∈ config.riskChecks p.db.toLedger p.pendingCommandCount cycle .normal intent,
        check.1 = false) ∧ (intent.side = .buy → killSwitchState.blocksBuy = false) := by
  refine approved_iff.trans ?_
  have hnormal : KillSwitchState.blocksBuy .normal = false := rfl
  simp only [OrderManagerSettings.riskChecks, mem_append, mem_singleton, or_imp,
    forall_and, forall_eq, hnormal, decide_eq_false_iff_not, not_and, Bool.not_eq_true,
    Bool.false_eq_true, and_false, not_false_eq_true, and_true]
  tauto

theorem processIntent_hands_iff :
    (p.processIntent config digest cycle killSwitchState intent).2 ≠ [] ↔
      p.intents.contains intent.idempotencyKey = false ∧
      (p.riskDecision config cycle killSwitchState intent).approved = true ∧
      config.createLocalOrder = true ∧
      guardPasses config p cycle (orText intent.tradeDate cycle.tradeDate) := by
  unfold processIntent
  by_cases hknown : p.intents.contains intent.idempotencyKey = true
  · rw [if_pos hknown, hknown]
    simp
  · rw [if_neg hknown, Bool.eq_false_iff.mpr hknown]
    simp only [true_and]
    split
    · rename_i happroved
      have hthis : (p.riskDecision config cycle killSwitchState intent).approved = true := happroved
      rw [hthis]
      split
      · rename_i hlocal
        rw [hlocal]
        unfold sendOrder
        simp only [true_and]
        split
        · rename_i hguard
          refine iff_of_false (fun h => h rfl) hguard
        · rename_i hguard
          exact iff_of_true (cons_ne_nil _ _) (not_not.mp hguard)
      · rename_i hlocal
        exact iff_of_false (fun h => h rfl) fun h => hlocal h.2.1
    · rename_i happroved
      exact iff_of_false (fun h => h rfl) fun h => happroved h.1

theorem isBuyOrder_iff {command : GatewayCommand}
    (h : command ∈ (p.processIntent config digest cycle killSwitchState intent).2) :
    isBuyOrder command ↔ intent.side = .buy := by
  have hspec := processIntent_spec config digest p cycle killSwitchState intent
  generalize p.processIntent config digest cycle killSwitchState intent = result at hspec h
  cases hspec with
  | known _ => cases h
  | stopped _ => cases h
  | blocked _ _ => cases h
  | sent _ _ _ _ _ _ =>
    rw [mem_singleton.mp h]
    unfold isBuyOrder
    rw [ManagedOrder.command_side]
    cases intent.side with
    | buy => exact iff_of_true ⟨rfl, rfl⟩ rfl
    | sell => exact iff_of_false (fun hbuy => absurd hbuy.2 (by decide)) (by decide)

theorem noBuy_processIntent_iff :
    (∀ command ∈ (p.processIntent config digest cycle (cycleState config cycle) intent).2,
        ¬ isBuyOrder command) ↔
      (intent.side = .buy → BuyHeldBack config p cycle intent) := by
  by_cases hside : intent.side = .buy
  · have hnone : (∀ command ∈ (p.processIntent config digest cycle (cycleState config cycle)
        intent).2, ¬ isBuyOrder command) ↔
        ¬ (p.processIntent config digest cycle (cycleState config cycle) intent).2 ≠ [] := by
      rw [not_not, eq_nil_iff_forall_not_mem]
      refine forall_congr' fun command => ?_
      constructor
      · intro h hmem
        exact h hmem ((isBuyOrder_iff hmem).mpr hside)
      · exact fun h hmem => absurd hmem h
    rw [hnone, processIntent_hands_iff, approved_iff_normal]
    unfold BuyHeldBack
    simp only [hside, forall_const]
    -- the two sides are the same conditions, one of them negated
    have hchecks : (∃ check ∈ config.riskChecks p.db.toLedger p.pendingCommandCount cycle .normal
        intent, check.1 = true) ↔
        ¬ ∀ check ∈ config.riskChecks p.db.toLedger p.pendingCommandCount cycle .normal intent,
          check.1 = false := by
      simp
    rw [hchecks, ← Bool.not_eq_false (p.intents.contains intent.idempotencyKey),
      ← Bool.not_eq_false (cycleState config cycle).blocksBuy,
      ← Bool.not_eq_true config.createLocalOrder]
    tauto
  · refine iff_of_true ?_ fun h => absurd h hside
    intro command hmem hbuy
    exact hside ((isBuyOrder_iff hmem).mp hbuy)

/-! ## Histories -/

/-- The intents of the date are processed with the state that their cycle evaluates from its
portfolio. -/
def Action.Evaluates (config : OrderManagerSettings) (date : TradeDate) : Action → Prop
  | .processIntent cycle killSwitchState _ =>
      cycle.tradeDate = date.text → killSwitchState = cycleState config cycle
  | _ => True

theorem noBuy_iff_heldBack {action : Action} (h : action.Evaluates config date) :
    NoBuy config digest date p action ↔ HeldBack config date p action := by
  cases action with
  | processIntent cycle killSwitchState intent =>
    by_cases hdate : cycle.tradeDate = date.text
    · have hstate : killSwitchState = cycleState config cycle := h hdate
      have hcycle : (Action.processIntent cycle killSwitchState intent).cycleDate =
          some date.text := congrArg some hdate
      unfold NoBuy HeldBack
      simp only [hcycle, hdate, forall_const]
      rw [hstate]
      exact noBuy_processIntent_iff
    · refine iff_of_true (fun hcycle => ?_) fun heq => absurd heq hdate
      injection hcycle with heq
      exact absurd heq hdate
  | cancelUnfilled cycle =>
    refine iff_of_true (fun _ command hmem hbuy => ?_) trivial
    have htype := queueCancels_type cycle hmem
    rw [hbuy.1] at htype
    exact absurd htype (by decide)
  | begin cycle => exact iff_of_true (fun _ _ hmem => absurd hmem not_mem_nil) trivial
  | applyEvent canonicalType payload today =>
    exact iff_of_true (fun _ _ hmem => absurd hmem not_mem_nil) trivial
  | markReconcileRequired reason payload today =>
    exact iff_of_true (fun _ _ hmem => absurd hmem not_mem_nil) trivial
  | gateway state => exact iff_of_true (fun _ _ hmem => absurd hmem not_mem_nil) trivial

theorem evaluatedState_eq (h : p.db.Unflagged date) (hdate : cycle.tradeDate = date.text) :
    p.evaluatedState config cycle = cycleState config cycle := by
  obtain ⟨hmanual, hcount⟩ := h
  unfold evaluatedState cycleState evaluate
  simp only [hdate, hmanual, hcount]
  cases config.killSwitchEnabled <;> rfl

theorem evaluates_callActions (h : p.db.Unflagged date) (call : Call) :
    ∀ action ∈ p.callActions config digest call, action.Evaluates config date := by
  intro action hmem
  cases call with
  | run cycle =>
    rcases mem_runActions hmem with rfl | rfl | ⟨intent, -, rfl⟩
    · trivial
    · trivial
    · exact evaluatedState_eq h
  | applyEvent canonicalType payload today =>
    rw [mem_singleton.mp hmem]
    trivial
  | markReconcileRequired reason payload today =>
    rw [mem_singleton.mp hmem]
    trivial
  | gateway state =>
    rw [mem_singleton.mp hmem]
    trivial

theorem evaluates_actions (h : p.db.Unflagged date) (calls : List Call) :
    ∀ action ∈ actions config digest p calls, action.Evaluates config date := by
  induction calls generalizing p with
  | nil => exact fun action hmem => absurd hmem not_mem_nil
  | cons call calls ih =>
    intro action hmem
    rcases mem_append.mp hmem with hmem | hmem
    · exact evaluates_callActions h call action hmem
    · refine ih ?_ action hmem
      exact Machine.run_preserves (m := machine config digest)
        (I := fun q : OrderManagerRuntimePipeline => q.db.Unflagged date)
        (fun q action hq => unflagged_act hq action) h _

theorem unflagged_of_unmatched {event : Call} (h : event.Unmatched p date) :
    ((machine config digest).run p (p.callActions config digest event)).db.Unflagged date := by
  cases event with
  | run cycle => exact absurd h id
  | gateway state => exact absurd h id
  | markReconcileRequired reason payload today =>
    refine unflagged_of_append [_] (show _ = p.db.killSwitchStates ++ [_] from rfl) ?_
      ⟨_, mem_cons_self, h⟩
    intro row hrow _
    rw [mem_singleton.mp hrow]
    exact ⟨rfl, rfl⟩
  | applyEvent canonicalType payload today =>
    obtain ⟨hover, hdate⟩ := h
    refine unflagged_of_append _ (killSwitchStates_foldl _ p.db) (unflagged_applied _ _ _ _) ?_
    rcases applied_rows p.db.toLedger canonicalType payload today with
      ⟨-, reason, hrows⟩ | ⟨hnot, -⟩
    · exact ⟨_, by rw [hrows]; exact mem_cons_self, hdate⟩
    · exact absurd hover hnot

def readyDate : TradeDate where
  text := "2026-06-18"

end OrderManagerRuntimePipeline

end TradingCore.Orders
