import TradingCore.Orders.OrderManagerLemmas

/-!
# The gates in front of the Gateway

A call of `run` hands commands to the Gateway in two places: when it makes an order of an
intent, and when it cancels an order that has stayed unfilled. Every `send_order` command has
passed all gates, a purchase the risk check and the kill switch as well; a `cancel_order`
command has passed the gates of the scheduler, which does not ask for the flags that allow
new orders to be enqueued and sent; `modify_order` is never used (`commands_gated`).
-/

namespace TradingCore.Orders

open Base ManagedOrderStatus List OrderManagerSettings
open Broker (GatewayCommand)

/-- The gates that the scheduler of cancellations checks. -/
structure CancelGates (config : OrderManagerSettings) (broker : BrokerReport) : Prop where
  enabled : config.enabled = true
  mode : config.mode = "LIVE_SIM"
  allowed : config.allowLiveSimOrders = true
  notObserving : config.observeOnly = false
  simulation : brokerEnvironmentState broker = .simulation

structure SendGates (config : OrderManagerSettings) (broker : BrokerReport) : Prop extends
    CancelGates config broker where
  enqueues : config.enqueueGatewayCommand = true
  sends : config.sendOrderAllowed = true

def isBuyOrder (command : GatewayCommand) : Prop :=
  command.type = "send_order" ∧ command.payload.get? "side" = some (.str "BUY")

instance (command : GatewayCommand) : Decidable (isBuyOrder command) := instDecidableAnd

theorem ManagedOrder.command_side (order : ManagedOrder) (id : Nat) (side : OrderSide)
    (hoga commandId : String) :
    (order.command id side hoga commandId).payload.get? "side" = some (.str side.text) := by
  simp [ManagedOrder.command, Dict.ofList, Dict.get?_set]

namespace OrderManagerRuntimePipeline

variable {config : OrderManagerSettings} {digest : GatewayCommand → String}

/-- The action is the processing of an intent that the risk check approves in this state and
that the kill switch lets through. -/
def BuyPassed (config : OrderManagerSettings) (p : OrderManagerRuntimePipeline)
    (killSwitchState : KillSwitchState) (action : Action) : Prop :=
  ∃ cycle intent, action = .processIntent cycle killSwitchState intent ∧
    (p.riskDecision config cycle killSwitchState intent).approved = true ∧
    killSwitchState.blocksBuy = false

variable {p : OrderManagerRuntimePipeline}

theorem sendGates_of_guardPasses {cycle : Cycle} {killSwitchState : KillSwitchState}
    {intent : ManagedOrderIntent} {tradeDate : String}
    (happroved : (p.riskDecision config cycle killSwitchState intent).approved = true)
    (hguard : guardPasses config p cycle tradeDate) : SendGates config cycle.broker := by
  have hchecks := reasonsOf_eq_nil.mp hguard
  simp only [gatewayCommandGuard, forall_mem_cons,
    decide_eq_false_iff_not, not_not, Bool.not_eq_true, Bool.not_eq_false] at hchecks
  obtain ⟨henqueue, hobserve, hsend, hmode, hallow, hsimulation, _⟩ := hchecks
  exact
    { enabled := (approved_gates happroved).1
      mode := hmode
      allowed := hallow
      notObserving := hobserve
      simulation := hsimulation
      enqueues := henqueue
      sends := hsend }

theorem cancelGates_of_guardPasses {broker : BrokerReport}
    (h : config.cancelGuardPasses broker = true) : CancelGates config broker := by
  unfold cancelGuardPasses at h
  obtain ⟨henabled, hmode, hallow, hobserve, _, _, _, hsimulation⟩ := of_decide_eq_true h
  exact ⟨henabled, hmode, hallow, Bool.eq_false_iff.mpr hobserve, hsimulation⟩

variable {command : GatewayCommand}

theorem queueCancels_type (cycle : Cycle) {ids : List Nat}
    (h : command ∈ (queueCancels config digest cycle p ids).2) : command.type = "cancel_order" := by
  induction ids generalizing p with
  | nil => cases h
  | cons id rest ih =>
    have hmem : command ∈ (p.queueCancel config digest cycle id).2 ∨
        command ∈ (queueCancels config digest cycle
          (p.queueCancel config digest cycle id).1 rest).2 := mem_append.mp h
    rcases hmem with hmem | hmem
    · unfold queueCancel at hmem
      split at hmem
      · cases hmem
      · rw [mem_singleton.mp hmem]
        rfl
    · exact ih hmem

theorem act_gated {action : Action} (h : command ∈ (p.act config digest action).2) :
    (∃ cycle killSwitchState intent, action = .processIntent cycle killSwitchState intent ∧
      command.type = "send_order" ∧ SendGates config cycle.broker ∧
      (isBuyOrder command → BuyPassed config p killSwitchState action)) ∨
    (∃ cycle, action = .cancelUnfilled cycle ∧ command.type = "cancel_order" ∧
      CancelGates config cycle.broker) := by
  cases action with
  | processIntent cycle killSwitchState intent =>
    refine .inl ⟨cycle, killSwitchState, intent, rfl, ?_⟩
    have hspec := processIntent_spec config digest p cycle killSwitchState intent
    have hmem : command ∈ (p.processIntent config digest cycle killSwitchState intent).2 := h
    generalize p.processIntent config digest cycle killSwitchState intent = result at hspec hmem
    cases hspec with
    | known _ => cases hmem
    | stopped _ => cases hmem
    | blocked _ _ => cases hmem
    | sent gateway status hnew happroved hguard hstatus =>
      rw [mem_singleton.mp hmem]
      refine ⟨rfl, sendGates_of_guardPasses happroved hguard, ?_⟩
      intro hbuy
      have hside : intent.side = .buy := by
        have htext := hbuy.2
        rw [ManagedOrder.command_side] at htext
        cases hs : intent.side with
        | buy => rfl
        | sell =>
          rw [hs] at htext
          exact absurd htext (by decide)
      exact ⟨cycle, intent, rfl, happroved, approved_killSwitch happroved hside⟩
  | cancelUnfilled cycle =>
    refine .inr ⟨cycle, rfl, queueCancels_type cycle h, ?_⟩
    -- a command means that the scheduler wants to cancel some order
    cases hids : p.cancelDecisions config cycle with
    | nil =>
      have hmem : command ∈ (queueCancels config digest cycle p
        (p.cancelDecisions config cycle)).2 := h
      rw [hids] at hmem
      cases hmem
    | cons id rest =>
      have hid : id ∈ p.cancelDecisions config cycle := by
        rw [hids]
        exact mem_cons_self
      obtain ⟨e, he, -⟩ := mem_map.mp hid
      have hreasons := of_decide_eq_true (mem_filter.mp he).2
      have hchecks := reasonsOf_eq_nil.mp hreasons
        (¬ config.cancelGuardPasses cycle.broker, "CANCEL_BROKER_GUARD_BLOCK")
        (by simp [cancelChecks])
      exact cancelGates_of_guardPasses (not_not.mp (of_decide_eq_false hchecks))
  | begin cycle => cases h
  | applyEvent canonicalType payload today => cases h
  | markReconcileRequired reason payload today => cases h
  | gateway state => cases h

/-- Every command that a call of `run` hands to the Gateway has passed the gates of its kind,
in the state in which it is handed over. -/
theorem commands_gated (config : OrderManagerSettings) (digest : GatewayCommand → String)
    (p : OrderManagerRuntimePipeline) (cycle : Cycle) :
    ∀ past action, past ++ [action] <+: p.runActions config digest cycle →
      ∀ command ∈ (machine config digest).out ((machine config digest).run p past) action,
        (command.type = "send_order" ∧ SendGates config cycle.broker ∧
          (isBuyOrder command → BuyPassed config ((machine config digest).run p past)
            (p.evaluatedState config cycle) action)) ∨
        (command.type = "cancel_order" ∧ CancelGates config cycle.broker) := by
  intro past action hprefix command hcommand
  have hmem : action ∈ p.runActions config digest cycle :=
    hprefix.subset (mem_append_right past (mem_singleton_self action))
  rcases act_gated hcommand with ⟨cycle', state, intent, rfl, htype, hgates, hbuy⟩ |
    ⟨cycle', rfl, htype, hgates⟩
  · rcases mem_runActions hmem with h | h | ⟨intent', -, h⟩
    · cases h
    · cases h
    · injection h with hcycle hstate
      subst hcycle hstate
      exact .inl ⟨htype, hgates, hbuy⟩
  · rcases mem_runActions hmem with h | h | ⟨intent', -, h⟩
    · cases h
    · injection h with hcycle
      subst hcycle
      exact .inr ⟨htype, hgates⟩
    · cases h

/-- A purchase that a cycle makes of a ready decision. -/
theorem commands_gated_purchase :
    ∃ command, isBuyOrder command ∧ SendGates sendingSettings simulationBroker ∧
      command ∈ (machine sendingSettings fun _ => "").out
        ((machine sendingSettings fun _ => "").run {} [.begin readyCycle])
        (.processIntent readyCycle .normal (readyDecision.intent sendingSettings readyCycle)) := by
  refine ⟨_, ?_, ?_, mem_cons_self⟩
  · decide
  · have hgated := commands_gated sendingSettings (fun _ => "") {} readyCycle [.begin readyCycle]
      (.processIntent readyCycle .normal (readyDecision.intent sendingSettings readyCycle))
      ⟨[.cancelUnfilled readyCycle], rfl⟩ _ mem_cons_self
    rcases hgated with ⟨_, hgates, _⟩ | ⟨htype, _⟩
    · exact hgates
    · exact absurd htype (by decide)

def acknowledgedOrder : ManagedOrder where
  tradeDate := "2026-06-18"
  side := "BUY"
  code := "200001"
  account := "12345678"
  quantity := 1
  price := 1000
  status := ackedByGateway
  commandId := "cmd-buy"
  orderNo := "A0001"
  remainingQuantity := 1
  idempotencyKey := "intent-cancel-1"
  quantity_pos := Int.one_pos

/-- An acknowledged order that has stayed unfilled is cancelled although new orders may
neither be enqueued nor sent. -/
theorem cancel_ignores_send_flags :
    ¬ ∀ (config : OrderManagerSettings) (digest : GatewayCommand → String)
      (p : OrderManagerRuntimePipeline) (cycle : Cycle) (past : List Action) (action : Action),
      past ++ [action] <+: p.runActions config digest cycle →
        ∀ command ∈ (machine config digest).out ((machine config digest).run p past) action,
          command.type ∈ Broker.orderCommandTypes →
            SendGates config cycle.broker ∧
              (isBuyOrder command → BuyPassed config ((machine config digest).run p past)
                (p.evaluatedState config cycle) action) := by
  intro h
  have hrun := h
    { enabled := true, intentEnabled := true, mode := "LIVE_SIM", allowLiveSimOrders := true
      observeOnly := false }
    (fun _ => "")
    { db := { managedOrders := Dict.empty.set 1 acknowledgedOrder } }
    { now := 1000, tradeDate := "2026-06-18", today := "2026-06-18", wall := 1000
      broker := simulationBroker }
    [.begin
      { now := 1000, tradeDate := "2026-06-18", today := "2026-06-18", wall := 1000
        broker := simulationBroker }]
    (.cancelUnfilled
      { now := 1000, tradeDate := "2026-06-18", today := "2026-06-18", wall := 1000
        broker := simulationBroker })
    ⟨[], rfl⟩
  have hgates := (hrun _ mem_cons_self (by decide)).1
  exact absurd hgates.enqueues (by decide)

end OrderManagerRuntimePipeline

end TradingCore.Orders
