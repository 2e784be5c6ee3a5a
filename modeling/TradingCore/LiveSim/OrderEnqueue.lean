import Mathlib.Data.Rat.Floor
import TradingCore.LiveSim.Ledger

/-!
# The sell orders of the enqueue service

How `trading_app/order_enqueue_service.py` makes and withdraws sell orders:
`enqueue_live_sim_order` for a request to sell, the exit monitor, which makes such a request
for a whole position, and the lifecycle, which asks the broker to cancel orders that wait too
long. What the safety guards and the Gateway answer, and which exits and cancellations are
due, comes from outside and is an input of a step.
-/

namespace TradingCore.LiveSim

open Base LiveSimOrderStatus List
open Orders (orText orInt)

/-! ## Requests -/

/-- A `RuntimeOrderIntentRequest` to sell, with what its sizing and its key read.
`candidateInstanceId`, `positionId`, `fullExit` and `positionClosed` are entries of its
metadata; `account` is the account of the request or else of the Gateway. -/
structure SellRequest where
  account : String := ""
  code : String
  quantity : Int
  price : Int := 0
  tradeDate : String := ""
  orderPhase : String := "exit"
  reason : String := ""
  exitDecisionType : String := ""
  exitReason : String := ""
  exitPercent : Option Rat := none
  remainingQuantity : Option Int := none
  virtualPositionId : String := ""
  idempotencyKey : String := ""
  candidateInstanceId : String := ""
  positionId : String := ""
  fullExit : Bool := false
  positionClosed : Bool := false

namespace SellRequest

variable (request : SellRequest)

/-- `_live_sim_idempotency_key` of a sale. -/
def liveSimIdempotencyKey : String :=
  orText request.idempotencyKey
    ("runtime:livesim:exit:" ++ request.tradeDate ++ ":" ++ maskAccount request.account ++ ":" ++
      request.code ++ ":" ++ orText request.positionId request.virtualPositionId ++ ":" ++
      orText request.exitDecisionType (orText request.exitReason request.reason))

/-- The quantity that an exit asks of a position that holds `currentQty`. -/
def exitQuantity (currentQty : Int) : Int :=
  if request.fullExit ∨ request.positionClosed ∨ 100 ≤ request.exitPercent.getD 0 ∨
      orInt (request.remainingQuantity.getD 0) (-1) = 0 then currentQty
  else
    match request.exitPercent with
    | some percent => min currentQty (max 1 ⌊(currentQty : Rat) * max 0 percent / 100⌋)
    | none => min currentQty (max 0 request.quantity)

end SellRequest

/-- What the guards and the Gateway answer to a request: whether the checks before the
submission block it, whether the safety guard lets it pass, whether the Gateway accepts the
command and, if not, why. -/
structure EnqueueAnswers where
  blocked : Bool := false
  liveSafetyOk : Bool := true
  accepted : Bool := true
  rejectReason : String := ""
  commandId : String := ""
  now : String := ""

/-- What the tick of a position triggers in the exit monitor. -/
structure ExitTrigger where
  reason : String
  price : Int := 0
  account : String := ""
  tradeDate : String := ""
  orderIntentId : String
  answers : EnqueueAnswers

/-- What the guards, the Gateway and the cancellations so far answer to a cancellation. -/
structure CancelAnswers where
  duplicate : Bool := false
  attemptsExceeded : Bool := false
  guardOk : Bool := true
  accepted : Bool := true

/-- The request that the exit monitor makes of a position. -/
def LiveSimPosition.exitRequest (position : LiveSimPosition) (positionId : String)
    (trigger : ExitTrigger) : SellRequest where
  account := trigger.account
  code := position.code
  quantity := position.currentQty
  price := trigger.price
  tradeDate := trigger.tradeDate
  reason := trigger.reason
  exitDecisionType := trigger.reason
  candidateInstanceId := position.candidateInstanceId
  positionId := positionId

/-- The status that `enqueue_live_sim_cancel_order` gives an order, if it changes it. -/
def LiveSimOrder.cancelStatus (order : LiveSimOrder) (answers : CancelAnswers) :
    Option LiveSimOrderStatus :=
  if order.orderStatus ∈ [filled, cancelled, rejected, failed, expired] then none
  else if order.brokerOrderId = "" ∨ order.orderStatus = unknownSubmit then
    some reconcileRequired
  else if answers.duplicate then none
  else if answers.attemptsExceeded then some reconcileRequired
  else if ¬ answers.guardOk then none
  else if ¬ answers.accepted then none
  else some cancelRequested

namespace Ledger

variable (l : Ledger)

/-! ## `enqueue_live_sim_order` -/

/-- The open positions that `_apply_live_sim_exit_position_quantity` looks at. -/
def exitPositions (request : SellRequest) : List (String × LiveSimPosition) :=
  ((l.positions.entries.reverse.filter fun e =>
      (request.code = "" ∨ e.2.code = request.code) ∧
        (maskAccount request.account = "" ∨
          e.2.accountIdMasked = maskAccount request.account)).take 50).filter fun e =>
    e.2.status ∈ [.opened, .partlyOpen] ∧ 0 < e.2.currentQty

/-- The position that an exit is about: the one of its candidate, or else the only one. -/
def exitPosition (request : SellRequest) : Option (String × LiveSimPosition) :=
  match (l.exitPositions request).find? fun e =>
      request.candidateInstanceId ≠ "" ∧ e.2.candidateInstanceId = request.candidateInstanceId with
  | some e => some e
  | none =>
      match l.exitPositions request with
      | [e] => some e
      | _ => none

/-- `_apply_live_sim_exit_position_quantity`: the quantity of the order, or `none` when the
request is blocked. Only exits are measured against a position. -/
def exitPositionQuantity (request : SellRequest) : Option Int :=
  if Text.lower request.orderPhase ≠ "exit" then some request.quantity
  else
    match l.exitPosition request with
    | none => none
    | some (_, position) =>
        if request.exitQuantity position.currentQty ≤ 0 then none
        else some (request.exitQuantity position.currentQty)

/-- The status of the order that `enqueue_live_sim_order` saves. -/
def enqueuedStatus (request : SellRequest) (answers : EnqueueAnswers) : LiveSimOrderStatus :=
  if (l.findByIdempotency request.liveSimIdempotencyKey).isSome then duplicate
  else if (l.exitPositionQuantity request).isNone ∨ answers.blocked then blocked
  else if ¬ answers.liveSafetyOk then blocked
  else if answers.accepted then submitted
  else if answers.rejectReason ∈ ["TIMEOUT", "UNKNOWN"] then unknownSubmit
  else blocked

/-- Does the request get as far as the Gateway's queue? -/
def reachesGateway (request : SellRequest) (answers : EnqueueAnswers) : Bool :=
  (l.findByIdempotency request.liveSimIdempotencyKey).isNone ∧
    (l.exitPositionQuantity request).isSome ∧ answers.blocked = false ∧
    answers.liveSafetyOk = true

/-- The order that `enqueue_live_sim_order` saves. -/
def enqueuedOrder (request : SellRequest) (answers : EnqueueAnswers) : LiveSimOrder :=
  let status := l.enqueuedStatus request answers
  { commandId := if l.reachesGateway request answers then answers.commandId else ""
    candidateInstanceId := request.candidateInstanceId
    code := request.code
    accountIdMasked := maskAccount request.account
    side := "sell"
    requestedQty := (l.exitPositionQuantity request).getD request.quantity
    submittedQty := (l.exitPositionQuantity request).getD request.quantity
    submittedPrice := request.price
    orderStatus := status
    submittedAt := if status ∈ [submitted, unknownSubmit] then answers.now else ""
    createdAt := answers.now
    idempotencyKey := request.liveSimIdempotencyKey
    positionId := request.positionId }

/-- `enqueue_live_sim_order` of a request to sell. -/
def enqueueLiveSimOrder (orderIntentId : String) (request : SellRequest)
    (answers : EnqueueAnswers) : Ledger :=
  l.commit (.order orderIntentId (l.enqueuedOrder request answers))

/-! ## The exit monitor -/

def hasActiveExitOrder (positionId code : String) : Bool :=
  [submitted, accepted, partialFilled, unknownSubmit].any fun status =>
    ((l.orders.entries.reverse.filter fun e =>
      e.2.orderStatus = status ∧ (code = "" ∨ e.2.code = code) ∧ e.2.side = "sell").take 100).any
        fun e => e.2.positionId = positionId

/-- What `run_live_sim_exit_monitor` does with a position whose tick triggers an exit. -/
def exitMonitorStep (positionId : String) (trigger : ExitTrigger) : Ledger :=
  match l.positions.get? positionId with
  | none => l
  | some position =>
      if position.status ∉ [.opened, .partlyOpen] then l
      else if l.hasActiveExitOrder positionId position.code then l
      else
        let request := position.exitRequest positionId trigger
        let l' := l.enqueueLiveSimOrder trigger.orderIntentId request trigger.answers
        if l.enqueuedStatus request trigger.answers = submitted then
          l'.commit (.position positionId { position with status := .exitOrdered })
        else l'

/-- `run_live_sim_exit_monitor`: one position after another, as it lists them. -/
def runLiveSimExitMonitor (triggers : String → Option ExitTrigger) : Ledger :=
  (l.positions.entries.reverse.take 500).foldl
    (fun l e =>
      match triggers e.1 with
      | none => l
      | some trigger => l.exitMonitorStep e.1 trigger)
    l

/-! ## The lifecycle -/

/-- What `run_live_sim_order_lifecycle` does with an order whose cancellation is due. -/
def lifecycleStep (orderIntentId : String) (answers : CancelAnswers) : Ledger :=
  match l.orders.get? orderIntentId with
  | none => l
  | some order =>
      if order.orderStatus ∉ [submitted, accepted, partialFilled] then l
      else
        match order.cancelStatus answers with
        | none => l
        | some status => l.commit (.order orderIntentId { order with orderStatus := status })

/-- `run_live_sim_order_lifecycle`: one status after another, and of each the orders as they
are listed. -/
def runLiveSimOrderLifecycle (due : String → Option CancelAnswers) : Ledger :=
  [submitted, accepted, partialFilled].foldl
    (fun l status =>
      ((l.orders.entries.reverse.filter fun e => e.2.orderStatus = status).take 500).foldl
        (fun l e =>
          match due e.1 with
          | none => l
          | some answers => l.lifecycleStep e.1 answers)
        l)
    l

end Ledger

/-! ## The service as a machine -/

/-- A step of the service. A call of the exit monitor or of the lifecycle is a run of such
steps, one for each position or order that it deals with. -/
inductive ServiceAction
  /-- `enqueue_live_sim_order` of a purchase, and every other write of one. -/
  | purchase (orderIntentId : String) (order : LiveSimOrder)
  /-- `enqueue_live_sim_order` of a sale -/
  | enqueue (orderIntentId : String) (request : SellRequest) (answers : EnqueueAnswers)
  /-- a position in `run_live_sim_exit_monitor` -/
  | exitMonitor (positionId : String) (trigger : ExitTrigger)
  /-- an order in `run_live_sim_order_lifecycle` -/
  | lifecycle (orderIntentId : String) (answers : CancelAnswers)
  /-- `_sync_live_sim_order_result` -/
  | orderResult (result : BrokerOrderResult)
  /-- `_sync_live_sim_execution` -/
  | execution (event : ExecutionEvent)

namespace Ledger

def serve (l : Ledger) : ServiceAction → Ledger
  | .purchase id order => l.commit (.order id { order with side := "buy" })
  | .enqueue id request answers => l.enqueueLiveSimOrder id request answers
  | .exitMonitor positionId trigger => l.exitMonitorStep positionId trigger
  | .lifecycle id answers => l.lifecycleStep id answers
  | .orderResult result => l.act (.orderResult result)
  | .execution event => l.act (.execution event)

def service : Machine Ledger ServiceAction Unit where
  step l action := (l.serve action, ())

def exitMonitorSteps (positions : List (String × LiveSimPosition))
    (triggers : String → Option ExitTrigger) : List ServiceAction :=
  positions.filterMap fun e => (triggers e.1).map (ServiceAction.exitMonitor e.1)

theorem runLiveSimExitMonitor_eq_run (l : Ledger) (triggers : String → Option ExitTrigger) :
    l.runLiveSimExitMonitor triggers =
      service.run l (exitMonitorSteps (l.positions.entries.reverse.take 500) triggers) := by
  unfold runLiveSimExitMonitor
  generalize l.positions.entries.reverse.take 500 = positions
  induction positions generalizing l with
  | nil => rfl
  | cons e rest ih =>
    unfold exitMonitorSteps
    cases htrigger : triggers e.1 with
    | none =>
      rw [foldl_cons, filterMap_cons, htrigger]
      exact ih l
    | some trigger =>
      rw [foldl_cons, filterMap_cons, htrigger]
      exact ih (l.exitMonitorStep e.1 trigger)

theorem runLiveSimOrderLifecycle_eq_run (l : Ledger) (due : String → Option CancelAnswers) :
    ∃ steps, (∀ action ∈ steps, ∃ id answers, action = ServiceAction.lifecycle id answers) ∧
      l.runLiveSimOrderLifecycle due = service.run l steps := by
  -- the orders of one status
  have hstatus : ∀ (orders : List (String × LiveSimOrder)) (l : Ledger),
      ∃ steps, (∀ action ∈ steps, ∃ id answers, action = ServiceAction.lifecycle id answers) ∧
        orders.foldl (fun l e =>
          match due e.1 with
          | none => l
          | some answers => l.lifecycleStep e.1 answers) l = service.run l steps := by
    intro orders
    induction orders with
    | nil => exact fun l => ⟨[], fun action h => absurd h not_mem_nil, rfl⟩
    | cons e rest ih =>
      intro l
      rw [foldl_cons]
      cases hdue : due e.1 with
      | none => exact ih l
      | some answers =>
        obtain ⟨steps, hsteps, hrun⟩ := ih (l.lifecycleStep e.1 answers)
        refine ⟨.lifecycle e.1 answers :: steps, ?_, hrun⟩
        intro action haction
        rcases mem_cons.mp haction with rfl | hrest
        · exact ⟨e.1, answers, rfl⟩
        · exact hsteps action hrest
  unfold runLiveSimOrderLifecycle
  generalize [submitted, accepted, partialFilled] = statuses
  induction statuses generalizing l with
  | nil => exact ⟨[], fun action h => absurd h not_mem_nil, rfl⟩
  | cons status rest ih =>
    rw [foldl_cons]
    obtain ⟨first, hfirst, hfirstRun⟩ := hstatus
      ((l.orders.entries.reverse.filter fun e => e.2.orderStatus = status).take 500) l
    rw [hfirstRun]
    obtain ⟨later, hlater, hlaterRun⟩ := ih (service.run l first)
    refine ⟨first ++ later, ?_, ?_⟩
    · intro action haction
      rcases mem_append.mp haction with h | h
      · exact hfirst action h
      · exact hlater action h
    · rw [hlaterRun, Machine.run_append]

end Ledger
end TradingCore.LiveSim
