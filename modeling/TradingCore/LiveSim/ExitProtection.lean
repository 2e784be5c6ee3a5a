import TradingCore.LiveSim.NoOversell

/-!
# Positions without protection

The exit monitor looks at the positions that are `OPEN` or `PARTIAL`. It takes a position out
of that set when it has sold it (`EXIT_ORDERED`), and nothing puts the position back: what
becomes of the sale is decided by writers of the orders, and none of them touches the status
of a position.

`protected_of_kept`: in every history in which no step ends the last sale of an unmonitored
position with something of it left, or opens an unmonitored position, every position that
holds something is monitored or has a sale that can still fill.
-/

namespace TradingCore.LiveSim

open Base LiveSimOrderStatus Ledger Dict Text
open Orders (orText orInt)

def LiveSimPositionStatus.monitored (status : LiveSimPositionStatus) : Bool :=
  status ∈ [opened, partlyOpen]

/-- The ledger, and the ids of the commands that expired in the Gateway's queue. An expiry
writes nothing into the ledger. -/
structure ExitBook where
  ledger : Ledger := {}
  expired : List String := []

/-- The steps that decide on exits. -/
inductive ExitAction
  /-- a step of the service or a message of the broker -/
  | service (action : ServiceAction)
  /-- a `send_order` command that was rejected, or failed (`_append_live_sim_command_audit_event`) -/
  | commandFailed (commandId : String) (rejected : Bool)
  /-- a `send_order` command that expired before its dispatch -/
  | commandExpired (commandId : String)
  /-- an entry of `cancelled_orders` in a snapshot (`run_live_sim_reconcile`) -/
  | cancelledAtBroker (brokerOrderId : String)

namespace ExitBook

def finish (l : Ledger) (found : Option (String × LiveSimOrder)) (status : LiveSimOrderStatus) :
    Ledger :=
  match found with
  | none => l
  | some (id, order) => l.commit (.order id { order with orderStatus := status })

def perform (b : ExitBook) : ExitAction → ExitBook
  | .service action => { b with ledger := b.ledger.serve action }
  | .commandFailed commandId isRejected =>
      let status := if isRejected then rejected else failed
      { b with ledger := finish b.ledger (b.ledger.findByCommandId commandId) status }
  | .commandExpired commandId => { b with expired := b.expired ++ [commandId] }
  | .cancelledAtBroker brokerOrderId =>
      { b with ledger := finish b.ledger (b.ledger.findByBrokerOrderId brokerOrderId) cancelled }

def machine : Machine ExitBook ExitAction Unit where
  step b action := (b.perform action, ())

variable (b : ExitBook)

/-! ## Protection -/

/-- Can the order still sell something of the position? -/
def Sells (p : String) (order : LiveSimOrder) : Prop :=
  order.isSale = true ∧ order.ownPosition = p ∧ order.orderStatus.canStillFill = true ∧
    order.commandId ∉ b.expired
deriving Decidable

def SoldBeside (id p : String) : Prop :=
  ∃ e ∈ b.ledger.orders.entries, e.1 ≠ id ∧ b.Sells p e.2
deriving Decidable

def Sold (p : String) : Prop := ∃ e ∈ b.ledger.orders.entries, b.Sells p e.2
deriving Decidable

/-- The position holds something that the exit monitor does not look at. -/
def Exposed (position : LiveSimPosition) : Prop :=
  0 < position.currentQty ∧ position.status.monitored = false
deriving Decidable

/-- Every position that holds something is monitored or being sold. -/
def Protected : Prop :=
  ∀ e ∈ b.ledger.positions.entries, 0 < e.2.currentQty → e.2.status.monitored = true ∨ b.Sold e.1
deriving Decidable

/-! ## Steps that keep the protection -/

def Spare (id : String) : Prop :=
  ∀ e ∈ b.ledger.positions.entries, Exposed e.2 → b.SoldBeside id e.1
deriving Decidable

/-- An order that waits for cancellation is given up: the broker never named it, or it was to
be cancelled too often. -/
def CancelGivesUp (order : LiveSimOrder) (answers : CancelAnswers) : Prop :=
  order.brokerOrderId = "" ∨ (answers.duplicate = false ∧ answers.attemptsExceeded = true)
deriving Decidable

def ExitGoesOut (positionId : String) (position : LiveSimPosition) (trigger : ExitTrigger) :
    Prop :=
  position.status.monitored = true ∧
    b.ledger.hasActiveExitOrder positionId position.code = false ∧
    b.ledger.enqueuedStatus (position.exitRequest positionId trigger) trigger.answers = submitted

/-- An execution leaves its order able to fill. -/
def LeavesOpen (id : String) (order : LiveSimOrder) (event : ExecutionEvent) : Prop :=
  b.ledger.auditFails id order event = false ∧
    (0 < event.remainingQty ∨ event.cumulativeFillQty ≤ 0)

/-- An execution reopens the position or sells all that it holds. -/
def Settles (event : ExecutionEvent) (positionId : String) (position : LiveSimPosition) : Prop :=
  (b.ledger.report event).positionId = some positionId ∧
    (lower (b.ledger.report event).fill.side = "buy" ∨
      (lower (b.ledger.report event).fill.side = "sell" ∧
        position.currentQty ≤ (b.ledger.report event).fill.fillQty))

/-- An execution of an order ends no sale that an unmonitored position relies on, or settles
the position. -/
def OrderExecutionKeeps (id : String) (order : LiveSimOrder) (event : ExecutionEvent) : Prop :=
  b.LeavesOpen id order event ∨
    ∀ e ∈ b.ledger.positions.entries, Exposed e.2 → b.SoldBeside id e.1 ∨ b.Settles event e.1 e.2

/-- A purchase of no order belongs to an open position, or the position that it opens for the
operator is being sold. -/
def ManualExecutionKeeps (event : ExecutionEvent) : Prop :=
  lower event.side = "buy" → 0 < (b.ledger.manualFill event).fillQty →
    b.ledger.manualPosition event (maskAccount (orText event.account event.rawAccount)) = none →
      b.Sold (positionIdFor (b.ledger.manualAccount event) event.code "MANUAL_INTERVENTION")
deriving Decidable

/-- The step leaves no position without protection. -/
def KeepsProtection (b : ExitBook) : ExitAction → Prop
  | .service (.purchase id _) => b.Spare id
  | .service (.enqueue id _ _) => b.Spare id
  | .service (.exitMonitor positionId trigger) =>
      b.Spare trigger.orderIntentId ∧
        ∀ position ∈ b.ledger.positions.get? positionId, 0 < position.currentQty →
          b.ExitGoesOut positionId position trigger →
          b.SoldBeside trigger.orderIntentId positionId ∨
            (maskAccount trigger.account = position.accountIdMasked ∧
              trigger.answers.commandId ∉ b.expired)
  | .service (.lifecycle id answers) =>
      ∀ order ∈ b.ledger.orders.get? id,
        order.orderStatus ∈ [submitted, accepted, partialFilled] →
          CancelGivesUp order answers → b.Spare id
  | .service (.orderResult result) =>
      ∀ found ∈ b.ledger.resultOrder result,
        (result.ok = true ∧ orText result.commandId found.2.commandId ∉ b.expired) ∨ b.Spare found.1
  | .service (.execution event) =>
      (b.ledger.report event).inserted = true →
        (b.ledger.executionOrder event = none → b.ManualExecutionKeeps event) ∧
          ∀ found ∈ b.ledger.executionOrder event, b.OrderExecutionKeeps found.1 found.2 event
  | .commandFailed commandId _ =>
      ∀ found ∈ b.ledger.findByCommandId commandId, b.Spare found.1
  | .commandExpired commandId =>
      ∀ e ∈ b.ledger.positions.entries, Exposed e.2 →
        ∃ o ∈ b.ledger.orders.entries, b.Sells e.1 o.2 ∧ o.2.commandId ≠ commandId
  | .cancelledAtBroker brokerOrderId =>
      ∀ found ∈ b.ledger.findByBrokerOrderId brokerOrderId, b.Spare found.1

/-! ## Deciding -/

instance (positionId : String) (position : LiveSimPosition) (trigger : ExitTrigger) :
    Decidable (b.ExitGoesOut positionId position trigger) :=
  inferInstanceAs (Decidable (_ ∧ _ ∧ _))

instance (id : String) (order : LiveSimOrder) (event : ExecutionEvent) :
    Decidable (b.OrderExecutionKeeps id order event) :=
  inferInstanceAs (Decidable ((_ ∧ _) ∨
    ∀ e ∈ b.ledger.positions.entries, Exposed e.2 → b.SoldBeside id e.1 ∨ (_ ∧ (_ ∨ _ ∧ _))))

instance (b : ExitBook) : ∀ action, Decidable (b.KeepsProtection action)
  | .service (.purchase id _) => inferInstanceAs (Decidable (b.Spare id))
  | .service (.enqueue id _ _) => inferInstanceAs (Decidable (b.Spare id))
  | .service (.exitMonitor positionId trigger) =>
      inferInstanceAs (Decidable (b.Spare trigger.orderIntentId ∧
        ∀ position ∈ b.ledger.positions.get? positionId, _ → _ → _ ∨ (_ ∧ _)))
  | .service (.lifecycle id _) =>
      inferInstanceAs (Decidable (∀ order ∈ b.ledger.orders.get? id, _ → _ → _))
  | .service (.orderResult result) =>
      inferInstanceAs (Decidable (∀ found ∈ b.ledger.resultOrder result, (_ ∧ _) ∨ b.Spare _))
  | .service (.execution event) =>
      inferInstanceAs (Decidable ((b.ledger.report event).inserted = true →
        (_ → b.ManualExecutionKeeps event) ∧ ∀ found ∈ b.ledger.executionOrder event, _))
  | .commandFailed commandId _ =>
      inferInstanceAs (Decidable (∀ found ∈ b.ledger.findByCommandId commandId, b.Spare _))
  | .commandExpired _ =>
      inferInstanceAs (Decidable (∀ e ∈ b.ledger.positions.entries, Exposed e.2 →
        ∃ o ∈ b.ledger.orders.entries, b.Sells e.1 o.2 ∧ _))
  | .cancelledAtBroker brokerOrderId =>
      inferInstanceAs (Decidable (∀ found ∈ b.ledger.findByBrokerOrderId brokerOrderId, b.Spare _))

/-! ## Writes -/

variable {b}

theorem protected_iff :
    b.Protected ↔ ∀ p position, b.ledger.positions.get? p = some position →
      Exposed position → b.Sold p := by
  constructor
  · intro h p position hget hexposed
    rcases h (p, position) (mem_entries_iff.mpr hget) hexposed.1 with hmonitored | hsold
    · rw [hexposed.2] at hmonitored
      cases hmonitored
    · exact hsold
  · intro h e he hqty
    cases hmonitored : e.2.status.monitored with
    | true => exact Or.inl rfl
    | false => exact Or.inr (h e.1 e.2 (mem_entries_iff.mp he) ⟨hqty, hmonitored⟩)

variable {id p : String} {order' order : LiveSimOrder} {event : ExecutionEvent}

theorem SoldBeside.sold {b' : ExitBook} (h : b.SoldBeside id p)
    (horders : b'.ledger.orders = b.ledger.orders.set id order')
    (hexpired : b'.expired = b.expired) : b'.Sold p := by
  obtain ⟨e, he, hid, hsells⟩ := h
  refine ⟨e, ?_, ?_⟩
  · rw [mem_entries_iff, horders, get?_set_ne _ _ hid]
    exact mem_entries_iff.mp he
  · unfold Sells at hsells ⊢
    rw [hexpired]
    exact hsells

theorem Sells.sold {b' : ExitBook} (h : b.Sells p order')
    (horders : b'.ledger.orders = b.ledger.orders.set id order')
    (hexpired : b'.expired = b.expired) : b'.Sold p := by
  refine ⟨(id, order'), ?_, ?_⟩
  · rw [mem_entries_iff, horders, get?_set_self]
  · unfold Sells at h ⊢
    rw [hexpired]
    exact h

theorem Sold.cases (h : b.Sold p) (hget : b.ledger.orders.get? id = some order) :
    b.Sells p order ∨ b.SoldBeside id p := by
  obtain ⟨e, he, hsells⟩ := h
  by_cases hid : e.1 = id
  · left
    have hsame : b.ledger.orders.get? id = some e.2 := by
      rw [← hid]
      exact mem_entries_iff.mp he
    rw [hget] at hsame
    injection hsame with hsame
    rw [hsame]
    exact hsells
  · right
    exact ⟨e, he, hid, hsells⟩

theorem protected_order
    (hkeep : ∀ p position, b.ledger.positions.get? p = some position → Exposed position →
      b.SoldBeside id p ∨ b.Sells p order') :
    Protected { b with ledger := b.ledger.commit (.order id order') } := by
  rw [protected_iff]
  intro p position hget hexposed
  rcases hkeep p position hget hexposed with hbeside | hsells
  · exact hbeside.sold rfl rfl
  · exact hsells.sold rfl rfl

theorem protected_spare (h : b.Spare id) (order' : LiveSimOrder) :
    Protected { b with ledger := b.ledger.commit (.order id order') } := by
  apply protected_order
  intro p position hget hexposed
  exact Or.inl (h (p, position) (mem_entries_iff.mpr hget) hexposed)

theorem protected_still (h : b.Protected) (hget : b.ledger.orders.get? id = some order)
    (hstill : ∀ p, b.Sells p order → b.Sells p order') :
    Protected { b with ledger := b.ledger.commit (.order id order') } := by
  apply protected_order
  intro p position hposition hexposed
  rcases (protected_iff.mp h p position hposition hexposed).cases hget with hsells | hbeside
  · exact Or.inr (hstill p hsells)
  · exact Or.inl hbeside

theorem protected_finish (h : b.Protected) {found : Option (String × LiveSimOrder)}
    (hspare : ∀ e ∈ found, b.Spare e.1) (status : LiveSimOrderStatus) :
    Protected { b with ledger := finish b.ledger found status } := by
  cases found with
  | none => exact h
  | some e => exact protected_spare (hspare e rfl) _

/-! ## The exit monitor and the lifecycle -/

theorem protected_position (h : b.Protected) {positionId : String} {record : LiveSimPosition}
    (hsold : Exposed record → b.Sold positionId) :
    Protected { b with ledger := b.ledger.commit (.position positionId record) } := by
  rw [protected_iff]
  intro p position hget hexposed
  have hset : (b.ledger.positions.set positionId record).get? p = some position := hget
  rw [get?_set] at hset
  by_cases hp : p = positionId
  · rw [if_pos hp] at hset
    injection hset with hset
    rw [hp]
    rw [← hset] at hexposed
    exact hsold hexposed
  · rw [if_neg hp] at hset
    exact protected_iff.mp h p position hset hexposed

variable {l : Ledger} {answers : CancelAnswers} {position : LiveSimPosition}

theorem isSale_enqueuedOrder (request : SellRequest) (answers : EnqueueAnswers) :
    (l.enqueuedOrder request answers).isSale = true := by
  have hsell : lower "sell" = "sell" := by decide
  exact decide_eq_true hsell

theorem reachesGateway_of_submitted {request : SellRequest} {answers : EnqueueAnswers}
    (h : l.enqueuedStatus request answers = submitted) :
    l.reachesGateway request answers = true := by
  unfold enqueuedStatus at h
  unfold reachesGateway
  split_ifs at h with hduplicate hblocked hunsafe haccepted
  · simp only [Bool.not_eq_true, Option.isSome_eq_false_iff] at hduplicate
    simp only [not_or, Bool.not_eq_true, Option.isNone_eq_false_iff] at hblocked
    exact decide_eq_true ⟨hduplicate, hblocked.1, hblocked.2, by simpa using hunsafe⟩

theorem protected_exitMonitor (h : b.Protected) (hfiled : Filed b.ledger.positions)
    {positionId : String} {trigger : ExitTrigger}
    (hkeeps : b.KeepsProtection (.service (.exitMonitor positionId trigger))) :
    Protected { b with ledger := b.ledger.exitMonitorStep positionId trigger } := by
  obtain ⟨hspare, hexit⟩ := hkeeps
  unfold exitMonitorStep
  cases hget : b.ledger.positions.get? positionId with
  | none => exact h
  | some position =>
    simp only
    by_cases hstatus : position.status ∈ [LiveSimPositionStatus.opened, .partlyOpen]
    · rw [if_neg (not_not.mpr hstatus)]
      cases hactive : b.ledger.hasActiveExitOrder positionId position.code with
      | true => exact h
      | false =>
        rw [if_neg Bool.false_ne_true]
        have hsale := protected_spare hspare (b.ledger.enqueuedOrder
          (position.exitRequest positionId trigger) trigger.answers)
        split
        · rename_i hsubmitted
          apply protected_position hsale
          intro hexposed
          have hkept := hexit position hget hexposed.1 ⟨decide_eq_true hstatus, hactive, hsubmitted⟩
          rcases hkept with hbeside | ⟨haccount, hfresh⟩
          · exact hbeside.sold rfl rfl
          · -- the new order is booked on the position that it is to sell
            have hsells : b.Sells positionId (b.ledger.enqueuedOrder
                (position.exitRequest positionId trigger) trigger.answers) := by
              refine ⟨isSale_enqueuedOrder _ _, ?_, ?_, ?_⟩
              · rw [hfiled positionId position hget, ← haccount]
                rfl
              · show (b.ledger.enqueuedStatus _ _).canStillFill = true
                rw [hsubmitted]
                rfl
              · show (if b.ledger.reachesGateway _ _ then trigger.answers.commandId else "") ∉
                  b.expired
                rw [if_pos (reachesGateway_of_submitted hsubmitted)]
                exact hfresh
            exact hsells.sold rfl rfl
        · exact hsale
    · rw [if_pos hstatus]
      exact h

theorem cancelStatus_cases {status : LiveSimOrderStatus}
    (h : order.cancelStatus answers = some status)
    (hpending : order.orderStatus ∈ [submitted, accepted, partialFilled]) :
    CancelGivesUp order answers ∨ status = cancelRequested := by
  unfold LiveSimOrder.cancelStatus at h
  unfold CancelGivesUp
  have hknown : order.orderStatus ≠ unknownSubmit := by
    intro heq
    rw [heq] at hpending
    revert hpending
    decide
  split_ifs at h with hover hnameless hduplicate hattempts hguard haccepted
  · exact Or.inl (Or.inl (hnameless.resolve_right hknown))
  · exact Or.inl (Or.inr ⟨by simpa using hduplicate, hattempts⟩)
  · injection h with h
    exact Or.inr h.symm

theorem protected_lifecycle (h : b.Protected)
    (hkeeps : b.KeepsProtection (.service (.lifecycle id answers))) :
    Protected { b with ledger := b.ledger.lifecycleStep id answers } := by
  unfold lifecycleStep
  cases hget : b.ledger.orders.get? id with
  | none => exact h
  | some order =>
    simp only
    by_cases hstatus : order.orderStatus ∈ [submitted, accepted, partialFilled]
    · rw [if_neg (not_not.mpr hstatus)]
      cases hcancel : order.cancelStatus answers with
      | none => exact h
      | some status =>
        simp only
        rcases cancelStatus_cases hcancel hstatus with hgivesUp | hrequested
        · exact protected_spare (hkeeps order hget hstatus hgivesUp) _
        · -- what waits for its cancellation can still fill
          apply protected_still h hget
          intro p hsells
          refine ⟨hsells.1, hsells.2.1, ?_, hsells.2.2.2⟩
          rw [hrequested]
          rfl
    · rw [if_pos hstatus]
      exact h

theorem protected_orderResult (h : b.Protected) {result : BrokerOrderResult}
    (hkeeps : b.KeepsProtection (.service (.orderResult result))) :
    Protected { b with ledger := b.ledger.act (.orderResult result) } := by
  rw [act_orderResult]
  cases horder : b.ledger.resultOrder result with
  | none => exact h
  | some found =>
    obtain ⟨id, order⟩ := found
    rcases hkeeps (id, order) horder with ⟨hok, hfresh⟩ | hspare
    · apply protected_still h (get?_of_resultOrder horder)
      intro p hsells
      refine ⟨hsells.1, hsells.2.1, ?_, hfresh⟩
      show (order.statusAfterResult result).canStillFill = true
      unfold LiveSimOrder.statusAfterResult
      rw [if_pos hok]
      split <;> rfl
    · exact protected_spare hspare _

/-! ## Executions -/

theorem exposed_afterFill {side : String} {fillQty : Int} (hqty : 0 ≤ fillQty)
    (h : Exposed (position.afterFill side fillQty)) :
    Exposed position ∧ side ≠ "buy" ∧ (side = "sell" → fillQty < position.currentQty) := by
  unfold Exposed LiveSimPosition.afterFill at h
  by_cases hbuy : side = "buy"
  · simp [hbuy, LiveSimPositionStatus.monitored] at h
  · by_cases hsell : side = "sell"
    · rw [if_neg hbuy, if_pos hsell] at h
      obtain ⟨hleft, hstatus⟩ := h
      simp only at hleft hstatus
      rw [if_neg (by omega)] at hstatus
      exact ⟨⟨by omega, hstatus⟩, hbuy, fun _ => by omega⟩
    · simp only [hbuy, hsell, if_false] at h
      exact ⟨h, hbuy, fun heq => absurd heq hsell⟩

theorem get?_of_exposed {accountIdMasked code candidateInstanceId : String}
    (h : Exposed (l.positionBefore accountIdMasked code candidateInstanceId)) :
    l.positions.get? (positionIdFor accountIdMasked code candidateInstanceId) =
      some (l.positionBefore accountIdMasked code candidateInstanceId) := by
  unfold positionBefore at h ⊢
  cases hget : l.positions.get? (positionIdFor accountIdMasked code candidateInstanceId) with
  | none =>
    rw [hget] at h
    exact absurd h.1 (Int.lt_irrefl 0)
  | some position => rfl

/-- The position that a purchase of no order opens for the operator. -/
def OpensForOperator (event : ExecutionEvent) (p : String) : Prop :=
  lower event.side = "buy" ∧ 0 < (b.ledger.manualFill event).fillQty ∧
    b.ledger.executionOrder event = none ∧
    b.ledger.manualPosition event (maskAccount (orText event.account event.rawAccount)) = none ∧
    p = positionIdFor (b.ledger.manualAccount event) event.code "MANUAL_INTERVENTION"

theorem exposed_execution
    (hget : (b.ledger.act (.execution event)).positions.get? p = some position)
    (hexposed : Exposed position) :
    b.OpensForOperator event p ∨
      ∃ before, b.ledger.positions.get? p = some before ∧ Exposed before ∧
        ((b.ledger.report event).inserted = true → ¬ b.Settles event p before) := by
  rcases b.ledger.positions_act_execution_cases event with ⟨hsame, hnowhere⟩ | ⟨-, hqty, hbooks⟩
  · right
    rw [hsame] at hget
    refine ⟨position, hget, hexposed, fun hnew hsettles => ?_⟩
    have hbooked := hsettles.1
    rw [hnowhere hnew] at hbooked
    cases hbooked
  · obtain ⟨account, code, candidate, status, hkey, hset, hstatus⟩ := hbooks
    rw [hset, get?_set] at hget
    by_cases hp : p = positionIdFor account code candidate
    · rw [if_pos hp] at hget
      injection hget with hget
      rcases hstatus with hkept | ⟨-, hbuy, hnone, hnew, htuple⟩
      · right
        have hafter : Exposed ((b.ledger.positionBefore account code candidate).afterFill
            (lower (b.ledger.report event).fill.side) (b.ledger.report event).fill.fillQty) := by
          rw [← hget] at hexposed
          exact ⟨hexposed.1, hkept ▸ hexposed.2⟩
        obtain ⟨hbefore, hbuy, hsell⟩ := exposed_afterFill (Int.le_of_lt hqty) hafter
        rw [hp]
        refine ⟨_, get?_of_exposed hbefore, hbefore, fun _ hsettles => ?_⟩
        rcases hsettles.2 with hside | ⟨hside, hall⟩
        · exact hbuy hside
        · have := hsell hside
          omega
      · left
        injection htuple with haccount hrest
        injection hrest with hcode hcandidate
        rw [haccount, hcode, hcandidate] at hp
        rw [b.ledger.fill_report_manual hnone] at hqty
        exact ⟨hbuy, hqty, hnone, hnew, hp⟩
    · right
      rw [if_neg hp] at hget
      refine ⟨position, hget, hexposed, fun _ hsettles => ?_⟩
      have hbooked := hsettles.1
      rw [b.ledger.positionId_report, if_pos hqty, hkey] at hbooked
      injection hbooked with hbooked
      exact hp hbooked.symm

theorem protected_manual (h : b.Protected) (hnone : b.ledger.executionOrder event = none)
    (hkeeps : b.ManualExecutionKeeps event) :
    Protected { b with ledger := b.ledger.act (.execution event) } := by
  have horders : (b.ledger.act (.execution event)).orders = b.ledger.orders := by
    rw [orders_act_execution, hnone]
  have hsold : ∀ p, b.Sold p →
      Sold { b with ledger := b.ledger.act (.execution event) } p := by
    rintro p ⟨e, he, hsells⟩
    refine ⟨e, ?_, hsells⟩
    show e ∈ (b.ledger.act (.execution event)).orders.entries
    rw [horders]
    exact he
  rw [protected_iff]
  intro p position hget hexposed
  apply hsold
  rcases exposed_execution hget hexposed with hopens | ⟨before, hbefore, hwas, -⟩
  · obtain ⟨hbuy, hqty, -, hnew, hp⟩ := hopens
    rw [hp]
    exact hkeeps hbuy hqty hnew
  · exact protected_iff.mp h p before hbefore hwas

theorem Sells.orderAfterExecution (h : b.Sells p order) (hopen : b.LeavesOpen id order event) :
    b.Sells p (b.ledger.orderAfterExecution id order event) := by
  refine ⟨h.1, h.2.1, ?_, h.2.2.2⟩
  obtain ⟨haudit, hleft⟩ := hopen
  show (b.ledger.statusAfterExecution id order event).canStillFill = true
  have hfill := h.2.2.1
  have hnotFilled : order.orderStatus ≠ filled := by
    intro heq
    rw [heq] at hfill
    cases hfill
  have hprevious : 0 ≤ b.ledger.previousCumulativeFillQty id
      (orText event.orderNo order.brokerOrderId) := HighWater.top_nonneg _
  have hqty : (b.ledger.orderFill id order event).fillQty =
      max 0 ((b.ledger.orderFill id order event).cumulativeFillQty -
        b.ledger.previousCumulativeFillQty id (orText event.orderNo order.brokerOrderId)) := rfl
  have hcumulative : (b.ledger.orderFill id order event).cumulativeFillQty =
      event.cumulativeFillQty := rfl
  have hremaining : (b.ledger.orderFill id order event).remainingQty = event.remainingQty := rfl
  unfold statusAfterExecution
  simp only [haudit]
  rw [if_neg Bool.false_ne_true]
  split
  · exact hfill
  · rename_i hsome
    rw [if_pos ⟨by omega, hnotFilled⟩]
    rfl

theorem protected_orderExecution (h : b.Protected)
    (horder : b.ledger.executionOrder event = some (id, order))
    (hnew : (b.ledger.report event).inserted = true)
    (hkeeps : b.OrderExecutionKeeps id order event) :
    Protected { b with ledger := b.ledger.act (.execution event) } := by
  have horders : (b.ledger.act (.execution event)).orders =
      b.ledger.orders.set id (b.ledger.orderAfterExecution id order event) := by
    rw [orders_act_execution, horder]
    exact if_pos hnew
  rw [protected_iff]
  intro p position hget hexposed
  obtain ⟨before, hbefore, hwas, hunsettled⟩ :
      ∃ before, b.ledger.positions.get? p = some before ∧ Exposed before ∧
        ((b.ledger.report event).inserted = true → ¬ b.Settles event p before) := by
    rcases exposed_execution hget hexposed with hopens | hbefore
    · have hnone := hopens.2.2.1
      rw [horder] at hnone
      cases hnone
    · exact hbefore
  have hsold := protected_iff.mp h p before hbefore hwas
  rcases hkeeps with hopen | hspare
  · rcases hsold.cases (get?_of_executionOrder horder) with hsells | hbeside
    · exact (hsells.orderAfterExecution hopen).sold horders rfl
    · exact hbeside.sold horders rfl
  · rcases hspare (p, before) (mem_entries_iff.mpr hbefore) hwas with hbeside | hsettles
    · exact hbeside.sold horders rfl
    · exact absurd hsettles (hunsettled hnew)

theorem protected_execution (h : b.Protected)
    (hkeeps : b.KeepsProtection (.service (.execution event))) :
    Protected { b with ledger := b.ledger.act (.execution event) } := by
  by_cases hnew : (b.ledger.report event).inserted = true
  · obtain ⟨hmanual, hordered⟩ := hkeeps hnew
    cases horder : b.ledger.executionOrder event with
    | none => exact protected_manual h horder (hmanual horder)
    | some found => exact protected_orderExecution h horder hnew (hordered found horder)
  · -- nothing is written
    have hidle : b.ledger.act (.execution event) = b.ledger := by
      show (b.ledger.executionWrites event).foldl commit b.ledger = b.ledger
      rw [executionWrites_eq, if_neg hnew]
      rfl
    rw [hidle]
    exact h

/-! ## Whole runs -/

theorem protected_commandExpired {commandId : String}
    (hkeeps : b.KeepsProtection (.commandExpired commandId)) :
    Protected { b with expired := b.expired ++ [commandId] } := by
  rw [protected_iff]
  intro p position hget hexposed
  obtain ⟨o, ho, hsells, hother⟩ :=
    hkeeps (p, position) (mem_entries_iff.mpr hget) hexposed
  refine ⟨o, ho, hsells.1, hsells.2.1, hsells.2.2.1, ?_⟩
  intro hmem
  rcases List.mem_append.mp hmem with hbefore | hlast
  · exact hsells.2.2.2 hbefore
  · exact hother (List.mem_singleton.mp hlast)

theorem protected_step (h : b.Protected) (hfiled : Filed b.ledger.positions)
    {action : ExitAction} (hkeeps : b.KeepsProtection action) :
    (b.perform action).Protected := by
  cases action with
  | service action =>
    cases action with
    | purchase id order => exact protected_spare hkeeps _
    | enqueue id request answers => exact protected_spare hkeeps _
    | exitMonitor positionId trigger => exact protected_exitMonitor h hfiled hkeeps
    | lifecycle id answers => exact protected_lifecycle h hkeeps
    | orderResult result => exact protected_orderResult h hkeeps
    | execution event => exact protected_execution h hkeeps
  | commandFailed commandId isRejected => exact protected_finish h hkeeps _
  | commandExpired commandId => exact protected_commandExpired hkeeps
  | cancelledAtBroker brokerOrderId => exact protected_finish h hkeeps _

theorem filed_finish (h : Filed l.positions) (found : Option (String × LiveSimOrder))
    (status : LiveSimOrderStatus) : Filed (finish l found status).positions := by
  cases found with
  | none => exact h
  | some e => exact h

theorem filed_perform (h : Filed b.ledger.positions) (action : ExitAction) :
    Filed (b.perform action).ledger.positions := by
  cases action with
  | service action => exact filed_step h action
  | commandFailed commandId isRejected => exact filed_finish h _ _
  | commandExpired commandId => exact h
  | cancelledAtBroker brokerOrderId => exact filed_finish h _ _

/-- In every history of purchases, exits, cancellations, failures and expiries of commands,
results and executions in which every step keeps the protection, every position that holds
something is at all times monitored or being sold. -/
theorem protected_of_kept (run : List ExitAction) (h : machine.Guarded KeepsProtection {} run) :
    machine.Always Protected {} run := by
  have hboth : machine.Always
      (fun b : ExitBook => b.Protected ∧ Filed b.ledger.positions) {} run := by
    apply Machine.always_of_guarded _ _ h
    · rintro b action ⟨hprotected, hfiled⟩ hkeeps
      exact ⟨protected_step hprotected hfiled hkeeps, filed_perform hfiled action⟩
    · refine ⟨?_, ?_⟩
      · intro e he
        cases he
      · intro positionId position hget
        cases hget
  exact hboth.imp fun b hb => hb.1

/-! ## Fixed runs -/

def tenSharesStop : ExitTrigger where
  reason := "STOP_LOSS"
  price := 90
  account := "1234567890"
  orderIntentId := "S1"
  answers := { commandId := "C1" }

def exitOrdered : List ExitAction :=
  [.service (.purchase "O1" tenShares),
   .service (.execution (tenSharesFill "7" "buy" 10)),
   .service (.exitMonitor "LIVE_SIM:12******90:005930:no_ci" tenSharesStop)]

def exitFilled : List ExitAction :=
  exitOrdered ++
    [.service (.orderResult { ok := true, orderNo := "8", commandId := "C1" }),
     .service (.execution (tenSharesFill "8" "sell" 4)),
     .service (.lifecycle "S1" {}),
     .service (.execution (tenSharesFill "8" "sell" 10))]

def exitRejected : List ExitAction :=
  exitOrdered ++ [.service (.orderResult { ok := false, commandId := "C1" })]

/-- The general theorem at a run with an exit. -/
theorem protected_of_kept_exitFilled : machine.Always Protected {} exitFilled :=
  protected_of_kept exitFilled (by decide +kernel)

/-- The exit of a position is rejected, and the position stays `EXIT_ORDERED` with all of its
shares and no sale. -/
theorem rejected_exit_strands : ¬ machine.Always Protected {} exitRejected := by
  decide +kernel

end ExitBook
end TradingCore.LiveSim
