import Mathlib
import TradingCore.Broker.GatewayState
import TradingCore.Orders.OrderRisk

/-!
# The order manager

`OrderManagerRuntimePipeline` (`trading/strategy/order_manager.py`) with the scheduler of
cancellations (`trading/strategy/unfilled_cancel.py`): from decisions to intents, from an
intent that passes the risk check to a managed order and a command to the Gateway, and what a
whole call of `run` does in which order.

A call is a list of actions, each of them a step of `machine`; an action answers with the
commands that it hands to `enqueue_command`.
-/

namespace TradingCore.Orders

open Base ManagedOrderStatus
open Broker (GatewayCommand GatewayStateStore)

/-! ## Intents of a cycle -/

/-- The checks of `candidate_fsm` in `_entry_decision_allowed`. -/
def CandidateFsm.allowsEntry (fsm : CandidateFsm) : Bool :=
  fsm.v2State = "TIMING_READY" ∧ fsm.blockingStage ∈ ["", "NONE"] ∧
    Text.upper (orText fsm.priceSource "REALTIME") ≠ "TR_BACKFILL" ∧
    Text.lower fsm.latestTickFresh ≠ "false"

/-- The checks of the candidate in `_entry_decision_allowed`. -/
def Candidate.allowsEntry (candidate : Candidate) : Bool :=
  candidate.state ∈ ["", "WATCHING", "READY", "SETUP_READY", "TIMING_READY"] ∧
    candidate.fsm.all CandidateFsm.allowsEntry

/-- `_entry_decision_allowed`. -/
def EntryDecision.allowed (cycle : Cycle) (decision : EntryDecision) : Bool :=
  decision.entryStatus = "OBSERVE_READY" ∧
    decision.marketAction ∈ ["ALLOW_NORMAL", "ALLOW_REDUCED"] ∧
    decision.stockRole ∈ ["LEADER", "CO_LEADER"] ∧
    decision.priceLocation ∈ ["GOOD_PULLBACK", "PULLBACK_RECLAIM", "VWAP_RECLAIM"] ∧
    "OVERHEATED" ∉ decision.reasonCodes ∧
    (decision.candidateId.getD 0 = 0 ∨ (cycle.candidate decision.code).all Candidate.allowsEntry)

def tickDetails : Option Tick → IntentDetails
  | none => {}
  | some tick =>
      ({ currentPrice := some tick.price
         spreadTicks := some tick.spreadTicks
         lastTickAt := some tick.timestamp } : IntentDetails).update tick.metadata

/-- The price of `_price_for_entry` and `_price_for_exit`: the hint, else what the tick
offers, else the price of the decision. -/
def priceFor (hint : Int) (quote : Option Int) (currentPrice : Int) : Int :=
  let price := if hint ≤ 0 then quote.getD hint else hint
  if price ≤ 0 then currentPrice else price

/-- `int(now.timestamp() // max(1, cycle_bucket_sec))`. -/
def OrderManagerSettings.timeBucket (config : OrderManagerSettings) (now : Int) : Int :=
  now / max 1 config.cycleBucketSec

def keyText (n : Option Nat) : String :=
  if n.getD 0 = 0 then "" else toString (n.getD 0)

section Intents

variable (config : OrderManagerSettings) (cycle : Cycle)

def EntryDecision.intent (decision : EntryDecision) : ManagedOrderIntent :=
  let tick := cycle.latestTick decision.code
  let price := priceFor decision.limitPriceHint (tick.map fun t => orInt t.bestAsk t.price)
    decision.currentPrice
  let bucket := orText (keyText decision.id) (toString (config.timeBucket cycle.now))
  { tradeDate := cycle.tradeDate
    side := .buy
    code := decision.code
    name := decision.name
    account := cycle.broker.account
    quantity := min (max 1 (orInt decision.quantity 1)) config.maxOrderQuantity
    price := price
    hoga := config.orderHoga
    idempotencyKey := "buy:" ++ cycle.tradeDate ++ ":" ++ keyText decision.candidateId ++ ":" ++
      decision.code ++ ":" ++ bucket ++ ":" ++ toString (price / 10 * 10)
    candidateId := decision.candidateId
    decisionId := decision.id
    themeId := decision.themeId
    themeName := decision.themeName
    reason := "ENTRY_OBSERVE_READY"
    details := { (tickDetails tick).update decision.details with
      calculatedAt := some decision.calculatedAt
      marketStatus := some decision.marketStatus
      marketAction := some decision.marketAction
      themeId := some decision.themeId
      themeName := some decision.themeName } }

def entryIntents : List ManagedOrderIntent :=
  if config.intentEnabled then
    (cycle.entryDecisions.filter fun decision => decision.allowed cycle).map
      (EntryDecision.intent config cycle)
  else []

/-- The entry of `_latest_positions` under a `position_id`: the runtime snapshot, else the
open position, else the empty dictionary. -/
def Ledger.latestPosition (l : Ledger) (positionId : String) : PositionRuntimeSnapshot :=
  match cycle.positionSnapshots.reverse.find? fun row => row.positionId = positionId with
  | some row => row
  | none =>
      match (l.openPositions 1000).find? fun e => e.1 = positionId with
      | some e =>
          { positionId := positionId
            remainingQuantity := e.2.currentQty
            currentQty := e.2.currentQty
            sourceType := "LIVE_SIM"
            themeId := e.2.themeId
            themeName := e.2.themeName }
      | none => { positionId := positionId }

/-- `_exit_decision_allowed`. -/
def ExitDecision.allowed (decision : ExitDecision) (position : PositionRuntimeSnapshot) : Bool :=
  decision.exitStatus ∈ ["SCALE_OUT", "EXIT_NOW"] ∧
    (decision.dryRunSellIntentAllowed ∨ decision.liveSimIntentAllowed ∨ decision.liveOrderAllowed) ∧
    Text.upper (orText position.sourceType position.detailsSource) ∈
      ["", "LIVE_SIM", "LIVE_SIM_OBSERVED", "DRY_RUN_TO_LIVE_SIM", "VIRTUAL"] ∧
    (0 < orInt position.remainingQuantity (orInt position.currentQty decision.quantity) ∨
      0 < decision.quantity)

def ExitDecision.exitQuantity (decision : ExitDecision) (position : PositionRuntimeSnapshot) :
    Int :=
  let remaining := orInt position.remainingQuantity position.currentQty
  if decision.exitStatus = "EXIT_NOW" ∧ 0 < remaining then remaining
  else if 0 < remaining then min (orInt decision.quantity remaining) remaining
  else decision.quantity

def ExitDecision.intent (decision : ExitDecision) (position : PositionRuntimeSnapshot) :
    ManagedOrderIntent :=
  let tick := cycle.latestTick decision.code
  { tradeDate := cycle.tradeDate
    side := .sell
    code := decision.code
    name := decision.name
    account := cycle.broker.account
    quantity := decision.exitQuantity position
    price := priceFor decision.priceHint (tick.map fun t => orInt t.bestBid t.price)
      decision.currentPrice
    hoga := orText decision.hogaHint config.orderHoga
    idempotencyKey := "reboot_live_sim_sell:" ++ cycle.tradeDate ++ ":" ++ decision.positionId ++
      ":" ++ decision.exitReason ++ ":" ++ toString (config.timeBucket cycle.now)
    candidateId := decision.candidateId
    positionId := decision.positionId
    decisionId := decision.id
    themeId := position.themeId
    themeName := position.themeName
    reason := decision.exitReason
    details := { (tickDetails tick).update decision.details with
      calculatedAt := some decision.calculatedAt } }

def exitIntents (l : Ledger) : List ManagedOrderIntent :=
  if config.intentEnabled then
    cycle.exitDecisions.filterMap fun decision =>
      let position := l.latestPosition cycle decision.positionId
      if decision.allowed position ∧ 0 < decision.exitQuantity position then
        some (decision.intent config cycle position)
      else none
  else []

end Intents

/-! ## Orders and commands -/

/-- `_persist_local_order`, for an intent of a positive quantity. -/
def ManagedOrderIntent.localOrder (intent : ManagedOrderIntent) (cycle : Cycle)
    (h : 0 < intent.quantity) : ManagedOrder where
  tradeDate := orText intent.tradeDate cycle.tradeDate
  side := intent.side.text
  code := intent.code
  account := intent.account
  quantity := intent.quantity
  price := intent.price
  candidateId := if intent.candidateId = some 0 then none else intent.candidateId
  positionId := intent.positionId
  remainingQuantity := intent.quantity
  idempotencyKey := intent.idempotencyKey
  sentAt := some cycle.now
  details := intent.details.toOrder
  quantity_pos := h
  remaining_nonneg := Int.le_of_lt h

/-- The id under which `save_managed_order` files an order that has none yet: that of the row
with its idempotency key, else a new one. -/
def Ledger.orderIdFor (l : Ledger) (idempotencyKey : String) : Nat :=
  match l.findManagedOrderByIdempotency idempotencyKey with
  | some (id, _) => id
  | none => l.managedOrders.keys.foldl max 0 + 1

/-- `_command_for_order`. The nested `metadata`, which repeats ids of the payload, is left
out. -/
def ManagedOrder.command (order : ManagedOrder) (id : Nat) (side : OrderSide) (hoga : String)
    (commandId : String) : GatewayCommand where
  type := "send_order"
  commandId := commandId
  idempotencyKey := order.idempotencyKey
  payload := Dict.ofList
    [("account", .str order.account), ("code", .str order.code),
     ("quantity", .int order.quantity), ("price", .int order.price), ("side", .str side.text),
     ("order_type", .int (if side = .buy then 1 else 2)), ("hoga", .str hoga),
     ("tag", .str ((if side = .buy then "REBOOT_LIVE_SIM_BUY_" else "REBOOT_LIVE_SIM_SELL_") ++
        order.code)),
     ("strategy", .str (if side = .buy then "reboot_v2_entry" else "reboot_v2_exit")),
     ("order_mode", .str "LIVE_SIM"), ("broker_env", .str "SIMULATION"),
     ("managed_order_id", .int id), ("position_id", .str order.positionId),
     ("idempotency_key", .str order.idempotencyKey)]

/-- The command of `queue_cancel`. -/
def ManagedOrder.cancelCommand (order : ManagedOrder) (id : Nat) (hoga idempotencyKey : String)
    (commandId : String) : GatewayCommand where
  type := "cancel_order"
  commandId := commandId
  idempotencyKey := idempotencyKey
  payload := Dict.ofList
    [("account", .str order.account), ("code", .str order.code),
     ("quantity", .int order.remainingQuantity), ("price", .int 0),
     ("side", .str (if order.hasSide .buy then "CANCEL_BUY" else "CANCEL_SELL")),
     ("order_type", .int (if order.hasSide .buy then 3 else 4)), ("hoga", .str hoga),
     ("original_order_no", .str order.orderNo), ("tag", .str ("REBOOT_CANCEL_" ++ order.code)),
     ("strategy", .str "reboot_v2_cancel"), ("order_mode", .str "LIVE_SIM"),
     ("broker_env", .str "SIMULATION"), ("managed_order_id", .int id),
     ("idempotency_key", .str idempotencyKey)]

namespace OrderManagerSettings

variable (config : OrderManagerSettings)

def gatewayCommandGuard (broker : BrokerReport) (latest : KillSwitchRow) (approved : Bool) :
    List Check :=
  [(¬ config.enqueueGatewayCommand, "GATEWAY_COMMAND_ENQUEUE_DISABLED"),
   (config.observeOnly, "ORDER_MANAGER_OBSERVE_ONLY"),
   (¬ config.sendOrderAllowed, "SEND_ORDER_NOT_ALLOWED"),
   (config.mode ≠ "LIVE_SIM", "ORDER_MANAGER_NOT_LIVE_SIM_MODE"),
   (¬ config.allowLiveSimOrders, "LIVE_SIM_FLAG_DISABLED"),
   (brokerEnvironmentState broker ≠ .simulation, "SIMULATION_BROKER_REQUIRED"),
   (config.blockRealBroker ∧ brokerEnvironmentState broker = .real, "REAL_BROKER_BLOCKED"),
   (¬ approved, "RISK_NOT_APPROVED"),
   (latest.state = .killSwitchActive, "KILL_SWITCH_ACTIVE")]

def cancelGuardPasses (broker : BrokerReport) : Bool :=
  config.enabled ∧ config.mode = "LIVE_SIM" ∧ config.allowLiveSimOrders ∧ ¬ config.observeOnly ∧
    broker.kiwoomLoggedIn ∧ broker.orderable ∧ broker.heartbeatOk ∧
    brokerEnvironmentState broker = .simulation

/-- The reasons of `build_decisions` not to cancel an order. -/
def cancelChecks (l : Ledger) (cycle : Cycle) (id : Nat) (order : ManagedOrder) : List Check :=
  [(order.remainingQuantity ≤ 0, "NO_REMAINING_QUANTITY"),
   (order.orderNo = "", "ORIGINAL_ORDER_NO_MISSING"),
   (¬ cycle.cancelAgeReached id, "CANCEL_AGE_NOT_REACHED"),
   ((l.managedOrders.get? id).map (·.status) = some cancelPending, "CANCEL_ALREADY_PENDING"),
   (¬ config.cancelGuardPasses cycle.broker, "CANCEL_BROKER_GUARD_BLOCK")]

def enqueueOptions : Broker.EnqueueOptions where
  priority := some .high
  ttlSec := some config.commandTtlSec
  maxAttempts := some config.commandMaxAttempts

end OrderManagerSettings

def Ledger.activeUnfilledOrders (l : Ledger) : List (Nat × ManagedOrder) :=
  ((l.managedOrders.entries.reverse.filter fun e =>
    e.2.status ∈ [ackedByGateway, partiallyFilled]).take 1000).filter fun e =>
      0 < e.2.remainingQuantity

/-! ## The pipeline -/

/-- The state of the pipeline: the database, the table of intents by their idempotency key,
and the Gateway's side. -/
structure OrderManagerRuntimePipeline where
  db : Database := {}
  intents : Dict String ManagedOrderIntent := Dict.empty
  gatewayState : GatewayStateStore := {}

namespace OrderManagerRuntimePipeline

variable (config : OrderManagerSettings) (digest : GatewayCommand → String)
  (p : OrderManagerRuntimePipeline)

/-- `pending_command_count` of the Gateway's snapshot. -/
def pendingCommandCount : Nat :=
  (p.gatewayState.commandQueue.records.values.filter fun record => record.status = .queued).length

def riskDecision (cycle : Cycle) (killSwitchState : KillSwitchState)
    (intent : ManagedOrderIntent) : OrderRiskDecision :=
  config.riskDecision p.db.toLedger p.pendingCommandCount cycle killSwitchState intent

/-- `save_managed_order`, under a known id. -/
def saveManagedOrder (id : Nat) (order : ManagedOrder) : OrderManagerRuntimePipeline :=
  { p with db := p.db.commit (.managedOrder id order) }

/-- `enqueue_command`: the state after it, and whether the command was accepted. -/
def enqueueCommand (cycle : Cycle) (command : GatewayCommand) :
    OrderManagerRuntimePipeline × Bool :=
  let (gateway, result) :=
    p.gatewayState.enqueueCommand digest command config.enqueueOptions (some cycle.now) cycle.wall
  ({ p with gatewayState := gateway }, result.accepted)

/-- The part of `_process_intent` that hands the saved order to the Gateway. -/
def sendOrder (cycle : Cycle) (intent : ManagedOrderIntent) (id : Nat) (order : ManagedOrder) :
    OrderManagerRuntimePipeline × List GatewayCommand :=
  let guardReasons := reasonsOf (config.gatewayCommandGuard cycle.broker
    (p.db.latestState order.tradeDate) true)
  if guardReasons ≠ [] then
    (p.saveManagedOrder id { order with status := commandBlockedObserveOnly }, [])
  else
    let command := order.command id intent.side (orText intent.hoga config.orderHoga)
      (cycle.messageId order.idempotencyKey)
    let (sent, accepted) := p.enqueueCommand config digest cycle command
    (sent.saveManagedOrder id
      { order with
        status := if accepted then queuedToGateway else rejectedByGateway
        commandId := command.commandId },
      [command])

def processIntent (cycle : Cycle) (killSwitchState : KillSwitchState)
    (intent : ManagedOrderIntent) : OrderManagerRuntimePipeline × List GatewayCommand :=
  if p.intents.contains intent.idempotencyKey then (p, [])
  else
    let saved := { p with intents := p.intents.set intent.idempotencyKey intent }
    if h : (saved.riskDecision config cycle killSwitchState intent).approved = true then
      if config.createLocalOrder then
        let id := saved.db.orderIdFor intent.idempotencyKey
        let order := intent.localOrder cycle (approved_quantity h).1
        (saved.saveManagedOrder id order).sendOrder config digest cycle intent id order
      else (saved, [])
    else (saved, [])

/-- `queue_cancel` of one order. -/
def queueCancel (cycle : Cycle) (id : Nat) :
    OrderManagerRuntimePipeline × List GatewayCommand :=
  match p.db.managedOrders.get? id with
  | none => (p, [])
  | some order =>
      let idempotencyKey := "reboot_live_sim_cancel:" ++ orText order.tradeDate cycle.tradeDate ++
        ":" ++ toString id ++ ":" ++ order.orderNo
      let command := order.cancelCommand id config.orderHoga idempotencyKey
        (cycle.messageId idempotencyKey)
      let (sent, accepted) := p.enqueueCommand config digest cycle command
      (sent.saveManagedOrder id
        { order with
          status := if accepted then cancelPending else reconcileRequired
          commandId := if accepted then command.commandId else order.commandId },
        [command])

/-- The orders that `build_decisions` wants to cancel. -/
def cancelDecisions (cycle : Cycle) : List Nat :=
  ((p.db.activeUnfilledOrders).filter fun e =>
    reasonsOf (config.cancelChecks p.db.toLedger cycle e.1 e.2) = []).map Prod.fst

/-- `queue_cancel` of one order after another. -/
def queueCancels (cycle : Cycle) :
    OrderManagerRuntimePipeline → List Nat → OrderManagerRuntimePipeline × List GatewayCommand
  | p, [] => (p, [])
  | p, id :: ids =>
      let (next, commands) := p.queueCancel config digest cycle id
      let (last, later) := queueCancels cycle next ids
      (last, commands ++ later)

/-! ## Actions and calls -/

/-- The parts of a call of `run`, and what happens between the calls. -/
inductive Action
  /-- The kill switch is evaluated and the open orders are looked after. -/
  | begin (cycle : Cycle)
  /-- `_process_intent` -/
  | processIntent (cycle : Cycle) (killSwitchState : KillSwitchState)
      (intent : ManagedOrderIntent)
  /-- The scheduler of cancellations runs. -/
  | cancelUnfilled (cycle : Cycle)
  /-- `apply_canonical_order_event` -/
  | applyEvent (canonicalType : CanonicalType) (payload : OrderPayload) (today : String)
  /-- `mark_reconcile_required`, also for an event that could not be handled -/
  | markReconcileRequired (reason : String) (payload : OrderPayload) (today : String)
  /-- The Gateway and the other users of its queue move on. -/
  | gateway (state : GatewayStateStore)

def act : Action → OrderManagerRuntimePipeline × List GatewayCommand
  | .begin cycle =>
      ({ p with db := p.db.run config.toOrderManagerConfig cycle.portfolioRisk cycle.tradeDate
                  cycle.today cycle.now }, [])
  | .processIntent cycle killSwitchState intent =>
      p.processIntent config digest cycle killSwitchState intent
  | .cancelUnfilled cycle =>
      p.queueCancels config digest cycle (p.cancelDecisions config cycle)
  | .applyEvent canonicalType payload today =>
      ({ p with db := (p.db.applyCanonicalOrderEvent canonicalType payload today).2.foldl
                  Database.commit p.db }, [])
  | .markReconcileRequired reason payload today =>
      ({ p with db := p.db.commit (Orders.markReconcileRequired reason payload today) }, [])
  | .gateway state => ({ p with gatewayState := state }, [])

def machine : Machine OrderManagerRuntimePipeline Action (List GatewayCommand) where
  step p action := p.act config digest action

/-- The state of the kill switch that a cycle evaluates. -/
def evaluatedState (cycle : Cycle) : KillSwitchState :=
  (p.db.evaluate config.toOrderManagerConfig cycle.portfolioRisk cycle.tradeDate).state

/-- The first actions of `run`, up to the last purchase. -/
def entryActions (cycle : Cycle) : List Action :=
  .begin cycle ::
    (entryIntents config cycle).map (.processIntent cycle (p.evaluatedState config cycle))

/-- What `run` does, in this order. -/
def runActions (cycle : Cycle) : List Action :=
  if ¬ config.enabled then []
  else if ¬ config.intentEnabled then [.begin cycle]
  else
    let bought := (machine config digest).run p (p.entryActions config cycle)
    p.entryActions config cycle ++
      (exitIntents config cycle bought.db.toLedger).map
        (.processIntent cycle (p.evaluatedState config cycle)) ++
      [.cancelUnfilled cycle]

/-- The calls of the pipeline, and what happens between them. -/
inductive Call
  | run (cycle : Cycle)
  | applyEvent (canonicalType : CanonicalType) (payload : OrderPayload) (today : String)
  | markReconcileRequired (reason : String) (payload : OrderPayload) (today : String)
  | gateway (state : GatewayStateStore)

def callActions : Call → List Action
  | .run cycle => p.runActions config digest cycle
  | .applyEvent canonicalType payload today => [.applyEvent canonicalType payload today]
  | .markReconcileRequired reason payload today => [.markReconcileRequired reason payload today]
  | .gateway state => [.gateway state]

def actions : OrderManagerRuntimePipeline → List Call → List Action
  | _, [] => []
  | p, call :: calls =>
      p.callActions config digest call ++
        actions ((machine config digest).run p (p.callActions config digest call)) calls

end OrderManagerRuntimePipeline

/-! ## A cycle that buys -/

def simulationBroker : BrokerReport where
  kiwoomLoggedIn := true
  orderable := true
  heartbeatOk := true
  account := "12345678"
  environmentTexts := ["SIMULATION"]

def sendingSettings : OrderManagerSettings where
  enabled := true
  intentEnabled := true
  createLocalOrder := true
  enqueueGatewayCommand := true
  sendOrderAllowed := true
  mode := "LIVE_SIM"
  allowLiveSimOrders := true
  observeOnly := false

def readyDecision : EntryDecision where
  id := some 7
  code := "200001"
  currentPrice := 1000
  entryStatus := "OBSERVE_READY"
  marketAction := "ALLOW_NORMAL"
  stockRole := "LEADER"
  priceLocation := "GOOD_PULLBACK"

def readyCycle : Cycle where
  now := 1000
  tradeDate := "2026-06-18"
  today := "2026-06-18"
  wall := 1000
  broker := simulationBroker
  entryDecisions := [readyDecision]

example : ((OrderManagerRuntimePipeline.machine sendingSettings fun _ => "").outputs {}
    (OrderManagerRuntimePipeline.runActions sendingSettings (fun _ => "") {} readyCycle)).map
      (·.map (·.type)) = [[], ["send_order"], []] := by
  decide

def addOnSettings : OrderManagerSettings :=
  { sendingSettings with maxDailyOrdersPerCode := 2, blockPyramiding := false }

def addOnCycle : Cycle :=
  { readyCycle with entryDecisions := [{ readyDecision with id := some 8 }] }

def oneShareFilled : OrderManagerRuntimePipeline.Call :=
  .applyEvent .orderFilled { code := "200001", quantity := 1, filledQuantity := 1, side := "BUY" }
    "2026-06-18"

end TradingCore.Orders
