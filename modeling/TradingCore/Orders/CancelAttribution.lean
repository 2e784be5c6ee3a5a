import TradingCore.Orders.OutstandingCancels

/-!
# The answers to an order's commands

The Gateway answers the send command of an order and the command that cancels it, and the
reconciler finds the order by the command that its row names. Once the queue has taken the
cancellation this is the cancellation: a late answer to the send command finds no order and stops
all purchases. An acknowledgement without an order number is not matched at all, and an event
that gives the order another number lets a second cancellation through. The condition leaves
these out, event by event.
-/

namespace TradingCore.Orders

open Base ManagedOrderStatus List
open Broker (GatewayCommand GatewayStateStore)

/-! ## Answers -/

/-- Is the event an acknowledgement or a failure of a command? -/
def isAnswer (canonicalType : CanonicalType) (payload : OrderPayload) : Bool :=
  canonicalType = .commandAck || (ackPayload canonicalType payload).isSome

variable {ack : OrderPayload}

theorem ackPayload_commandId {canonicalType : CanonicalType} {payload : OrderPayload}
    (h : ackPayload canonicalType payload = some ack) : ack.commandId = payload.commandId := by
  cases canonicalType with
  | orderCancelled =>
    simp only [ackPayload] at h
    split at h
    · cases h
    · injection h with h
      rw [← h]
  | commandFailed | orderRejected | orderAccepted | orderCancelAccepted =>
    injection h with h
    rw [← h]
  | _ => cases h

theorem Ledger.applyOrderAck_of_found {l : Ledger} {id : Nat} {order : ManagedOrder}
    (hcommand : ack.commandId ≠ "")
    (hfound : l.findManagedOrderByCommandId ack.commandId = some (id, order)) (today : String) :
    l.applyOrderAck ack today =
      ({ matched := true
         orderId := some id
         status := some (order.acked ack).status
         orderNo := (order.acked ack).orderNo }, [.managedOrder id (order.acked ack)]) := by
  unfold applyOrderAck
  rw [handleCommandAck_of_found hcommand hfound]
  rfl

theorem Ledger.applyOrderAck_unmatched {l : Ledger}
    (hfound : l.findManagedOrderByCommandId ack.commandId = none) (today : String) :
    (l.applyOrderAck ack today).1.matched = false := by
  have hmatched : (l.handleCommandAck ack).1.matched = false := by
    unfold handleCommandAck
    rw [hfound]
    split
    · rfl
    · rfl
  unfold applyOrderAck
  simp only
  rw [if_neg (Bool.eq_false_iff.mp hmatched)]
  exact hmatched

namespace OrderManagerRuntimePipeline

def answered (queued : List GatewayCommand) : Action → List GatewayCommand
  | .applyEvent canonicalType payload _ =>
      if isAnswer canonicalType payload then
        queued.filter fun command => command.commandId = payload.commandId
      else []
  | _ => []

/-- The event is matched to the order of the command, and nothing is recorded for
reconciliation. -/
def MatchedTo (p : OrderManagerRuntimePipeline) (command : GatewayCommand) : Action → Prop
  | .applyEvent canonicalType payload today =>
      (p.db.applyCanonicalOrderEvent canonicalType payload today).1.matched = true ∧
        (p.db.applyCanonicalOrderEvent canonicalType payload today).1.orderId.bind orderValue =
          managedOrderOf command ∧
        ∀ row, .killSwitchState row ∉ (p.db.applyCanonicalOrderEvent canonicalType payload today).2
  | _ => True

def Action.isNumbered : Action → Bool
  | .applyEvent canonicalType _ _ => canonicalType ≠ .commandAck
  | _ => true

variable (config : OrderManagerSettings) (digest : GatewayCommand → String)

/-- Every command that the action answers has its answer matched to its order. -/
def Attributes (past : List Action) (action : Action) : Prop :=
  ∀ command ∈ answered (queued config digest past) action,
    (reached config digest past).MatchedTo command action

/-- Every command that the action answers is the newest one of its order. -/
def AnswersNewest (past : List Action) (action : Action) : Prop :=
  ∀ command ∈ answered (queued config digest past) action, action.isNumbered = true ∧
    newestOf (managedOrderOf command) (queued config digest past) = some command
deriving Decidable

/-- Every answer of the run is matched to the order of its command, and no order ever has two
cancellations outstanding. -/
structure KeepsAttribution (steps : List Action) : Prop where
  attributes : ∀ past action, past ++ [action] <+: steps → Attributes config digest past action
  atMostOne : (machine config digest).Always AtMostOneOutstanding {} steps

variable {config} {digest}

variable {p : OrderManagerRuntimePipeline} {command : GatewayCommand}

theorem Filed.found_iff {handed queued : List GatewayCommand} (h : Filed p handed queued)
    (hqueued : command ∈ queued) :
    (∃ id order, p.db.findManagedOrderByCommandId command.commandId = some (id, order) ∧
      orderValue id = managedOrderOf command) ↔
      newestOf (managedOrderOf command) queued = some command := by
  have hhanded := h.sub hqueued
  obtain ⟨hid, id, horder⟩ := h.named command hhanded
  constructor
  · rintro ⟨id', order', hfound, hvalue⟩
    have hsame : id' = id := orderValue_inj (hvalue.trans horder)
    subst hsame
    obtain ⟨hget', hcolumn'⟩ := Dict.latest?_spec hfound
    -- the row names its newest command, and this one
    obtain ⟨newest, hnewest⟩ := exists_newestOf hqueued
    obtain ⟨order, hget, hcolumn⟩ := h.newest (horder ▸ hnewest)
    rw [hget] at hget'
    injection hget' with hget'
    subst hget'
    have heq : newest = command := inj_on_of_nodup_map h.distinct
      (h.sub (mem_of_newestOf hnewest).1) hhanded
      (hcolumn.symm.trans (of_decide_eq_true hcolumn'))
    rw [hnewest, heq]
  · intro hnewest
    obtain ⟨order, hget, hcolumn⟩ := h.newest (horder ▸ hnewest)
    cases hfound : p.db.findManagedOrderByCommandId command.commandId with
    | none => exact absurd hcolumn (of_decide_eq_false (Dict.latest?_eq_none hfound hget))
    | some found =>
      obtain ⟨id', order'⟩ := found
      obtain ⟨hget', hcolumn'⟩ := Dict.latest?_spec hfound
      have hunique := h.row_unique hget hget' (by rw [hcolumn]; exact hid)
        ((of_decide_eq_true hcolumn').trans hcolumn.symm)
      exact ⟨id', order', rfl, by rw [hunique, horder]⟩

theorem mem_answered {queued : List GatewayCommand} {canonicalType : CanonicalType}
    {payload : OrderPayload} {today : String} :
    command ∈ answered queued (.applyEvent canonicalType payload today) ↔
      isAnswer canonicalType payload = true ∧ command ∈ queued ∧
        command.commandId = payload.commandId := by
  simp only [answered]
  split
  · rename_i hanswer
    rw [mem_filter, decide_eq_true_eq]
    exact (and_iff_right hanswer).symm
  · rename_i hother
    exact iff_of_false not_mem_nil fun h => hother h.1

theorem matchedTo_ack {canonicalType : CanonicalType} {payload ack : OrderPayload}
    (hack : ackPayload canonicalType payload = some ack) (hid : payload.commandId ≠ "")
    (today : String) (command : GatewayCommand) :
    p.MatchedTo command (.applyEvent canonicalType payload today) ↔
      ∃ id order, p.db.findManagedOrderByCommandId payload.commandId = some (id, order) ∧
        orderValue id = managedOrderOf command := by
  have hackId := ackPayload_commandId hack
  simp only [MatchedTo]
  rw [applyCanonical_ack hack, ← hackId]
  constructor
  · rintro ⟨hmatched, hvalue, -⟩
    cases hfound : p.db.findManagedOrderByCommandId ack.commandId with
    | none =>
      rw [Ledger.applyOrderAck_unmatched hfound] at hmatched
      cases hmatched
    | some found =>
      rw [Ledger.applyOrderAck_of_found (hackId ▸ hid) hfound] at hvalue
      exact ⟨found.1, found.2, rfl, hvalue⟩
  · rintro ⟨id, order, hfound, hvalue⟩
    rw [Ledger.applyOrderAck_of_found (hackId ▸ hid) hfound]
    refine ⟨rfl, hvalue, ?_⟩
    intro row hrow
    cases mem_singleton.mp hrow

theorem not_matchedTo_commandAck {id : Nat} (horder : managedOrderOf command = orderValue id)
    (payload : OrderPayload) (today : String) :
    ¬ p.MatchedTo command (.applyEvent .commandAck payload today) := by
  simp only [MatchedTo, Ledger.applyCanonicalOrderEvent]
  rintro ⟨hmatched, hvalue, -⟩
  split at hmatched
  · cases hmatched
  · rename_i hother
    rw [if_neg hother, horder] at hvalue
    cases hvalue

theorem Filed.matchedTo_iff {handed queued : List GatewayCommand} (h : Filed p handed queued)
    {action : Action} (hanswered : command ∈ answered queued action) :
    p.MatchedTo command action ↔ action.isNumbered = true ∧
      newestOf (managedOrderOf command) queued = some command := by
  cases action with
  | applyEvent canonicalType payload today =>
    obtain ⟨hanswer, hqueued, hcommand⟩ := mem_answered.mp hanswered
    obtain ⟨hid, id, horder⟩ := h.named command (h.sub hqueued)
    cases hack : ackPayload canonicalType payload with
    | some ack =>
      have hnumbered : Action.isNumbered (.applyEvent canonicalType payload today) = true := by
        refine decide_eq_true ?_
        rintro rfl
        cases hack
      rw [matchedTo_ack hack (hcommand ▸ hid), ← hcommand, h.found_iff hqueued]
      exact (and_iff_right hnumbered).symm
    | none =>
      have htype : canonicalType = .commandAck := by
        rcases Bool.or_eq_true_iff.mp hanswer with htype | hsome
        · exact of_decide_eq_true htype
        · rw [hack] at hsome
          cases hsome
      subst htype
      exact iff_of_false (not_matchedTo_commandAck horder payload today)
        fun hboth => nomatch hboth.1
  | begin _ => exact absurd hanswered not_mem_nil
  | processIntent _ _ _ => exact absurd hanswered not_mem_nil
  | cancelUnfilled _ => exact absurd hanswered not_mem_nil
  | markReconcileRequired _ _ _ => exact absurd hanswered not_mem_nil
  | gateway _ => exact absurd hanswered not_mem_nil

/-- In every run that makes new message ids and leaves the keys of the outstanding cancellations
alone, all answers are matched to the orders of their commands and no order has two cancellations
outstanding, if and only if every answer has an order number or is a failure, and is for the
newest command of its order. -/
theorem keepsAttribution_iff (config : OrderManagerSettings) (digest : GatewayCommand → String)
    (steps : List Action)
    (hids : ∀ past action, past ++ [action] <+: steps → DrawsNewIds config digest past action)
    (hkeeps : (machine config digest).Guarded KeepsKeys {} steps) :
    KeepsAttribution config digest steps ↔
      ∀ past action, past ++ [action] <+: steps → AnswersNewest config digest past action := by
  have hmatched : ∀ past action, past ++ [action] <+: steps →
      (Attributes config digest past action ↔ AnswersNewest config digest past action) := by
    intro past action hpre
    have hfiled := filed_run hids past ((prefix_append past [action]).trans hpre)
    exact forall₂_congr fun command hcommand => hfiled.matchedTo_iff hcommand
  constructor
  · intro h past action hpre
    exact (hmatched past action hpre).mp (h.attributes past action hpre)
  · intro h
    refine ⟨?_, ?_⟩
    · intro past action hpre
      exact (hmatched past action hpre).mpr (h past action hpre)
    · exact Machine.always_iff_prefix.mpr fun past hpre => (keyed_run hids hkeeps past hpre).one

/-! ## Fixed runs -/

def pairSettings : OrderManagerSettings := { sendingSettings with maxOrderQuantity := 2 }

def pairBought : Action :=
  .processIntent readyCycle .normal
    (EntryDecision.intent pairSettings readyCycle { readyDecision with quantity := 2 })

def laterCycle : Cycle := { readyCycle with now := 1100, wall := 1100, entryDecisions := [] }

def commandAccepted (canonicalType : CanonicalType) (commandType commandId : String) : Action :=
  .applyEvent canonicalType
    { commandId := commandId, commandType := commandType, orderNo := "A0001" } "2026-06-18"

def cancelledRun : List Action :=
  [pairBought,
   commandAccepted .orderAccepted "send_order" "buy:2026-06-18::200001:7:1000",
   .cancelUnfilled laterCycle,
   commandAccepted .orderCancelAccepted "cancel_order" "reboot_live_sim_cancel:2026-06-18:1:A0001"]

/-- Both commands are queued, and their answers are matched. -/
theorem keepsAttribution_cancelled :
    (queued pairSettings (fun _ => "") cancelledRun).map (·.type) =
        ["send_order", "cancel_order"] ∧
      KeepsAttribution pairSettings (fun _ => "") cancelledRun := by
  refine ⟨by decide +kernel, ?_⟩
  refine (keepsAttribution_iff pairSettings (fun _ => "") cancelledRun ?_ ?_).mpr ?_
  · decide +kernel
  · decide +kernel
  · decide +kernel

/-- One of the two shares is bought before the purchase is acknowledged, the rest is cancelled,
and the acknowledgement of the purchase arrives. -/
def lateAnswerRun : List Action :=
  [pairBought,
   .applyEvent .orderPartiallyFilled
     { code := "200001", quantity := 1, filledQuantity := 1, remainingQuantity := 1
       side := "BUY", orderNo := "A0001" } "2026-06-18",
   .cancelUnfilled laterCycle,
   commandAccepted .orderAccepted "send_order" "buy:2026-06-18::200001:7:1000"]

/-- The acknowledgement of the purchase is not matched. -/
theorem late_send_answer_unmatched :
    ¬ ∀ (config : OrderManagerSettings) (digest : GatewayCommand → String) (steps : List Action),
      (∀ past action, past ++ [action] <+: steps → DrawsNewIds config digest past action) →
      (machine config digest).Guarded KeepsKeys {} steps →
        KeepsAttribution config digest steps := by
  intro h
  have hrun := h pairSettings (fun _ => "") lateAnswerRun (by decide +kernel) (by decide +kernel)
  have hanswer := hrun.attributes (lateAnswerRun.take 3) _ ⟨[], rfl⟩
  -- the purchase is what the last event answers
  obtain ⟨command, hcommand⟩ := exists_mem_of_ne_nil
    (answered (queued pairSettings (fun _ => "") (lateAnswerRun.take 3))
      (commandAccepted .orderAccepted "send_order" "buy:2026-06-18::200001:7:1000"))
    (by decide +kernel)
  have hmatched := (hanswer command hcommand).1
  exact absurd hmatched (by decide +kernel)

end OrderManagerRuntimePipeline

end TradingCore.Orders
