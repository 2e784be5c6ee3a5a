import TradingCore.Broker.StoreCopies
import TradingCore.Orders.OrderTerms

/-!
# The commands of an order

The send command of a managed order and the commands that cancel it name the order, but its row
has one column for a command. `newestOf` is the last command of an order that the Gateway's
queue took; `Filed` says that the column of a row names it, and no command of another order
(`filed_run`).
-/

namespace TradingCore.Orders

open Base ManagedOrderStatus List Dict OrderManagerRuntimePipeline
open Broker (GatewayCommand GatewayStateStore CommandRecord)

def managedOrderOf (command : GatewayCommand) : Option Value :=
  command.payload.get? "managed_order_id"

def orderValue (id : Nat) : Option Value := some (.int id)

theorem orderValue_inj {id id' : Nat} (h : orderValue id = orderValue id') : id = id' := by
  injection h with h
  injection h with h
  exact Int.ofNat.inj h

theorem ManagedOrder.command_order (order : ManagedOrder) (id : Nat) (side : OrderSide)
    (hoga commandId : String) :
    managedOrderOf (order.command id side hoga commandId) = orderValue id := by
  simp [managedOrderOf, orderValue, ManagedOrder.command, ofList, get?_set]

theorem ManagedOrder.cancelCommand_order (order : ManagedOrder) (id : Nat)
    (hoga idempotencyKey commandId : String) :
    managedOrderOf (order.cancelCommand id hoga idempotencyKey commandId) = orderValue id := by
  simp [managedOrderOf, orderValue, ManagedOrder.cancelCommand, ofList, get?_set]

/-- The idempotency key of the cancellation of an order, in a cycle of this date. -/
def ManagedOrder.cancelKey (order : ManagedOrder) (id : Nat) (tradeDate : String) : String :=
  "reboot_live_sim_cancel:" ++ orText order.tradeDate tradeDate ++ ":" ++ toString id ++ ":" ++
    order.orderNo

def ManagedOrder.cancelOf (order : ManagedOrder) (config : OrderManagerSettings) (cycle : Cycle)
    (id : Nat) : GatewayCommand :=
  order.cancelCommand id config.orderHoga (order.cancelKey id cycle.tradeDate)
    (cycle.messageId (order.cancelKey id cycle.tradeDate))

theorem ManagedOrder.cancelOf_order (order : ManagedOrder) (config : OrderManagerSettings)
    (cycle : Cycle) (id : Nat) : managedOrderOf (order.cancelOf config cycle id) = orderValue id :=
  order.cancelCommand_order id _ _ _

def newestOf (order : Option Value) (commands : List GatewayCommand) : Option GatewayCommand :=
  (commands.filter fun command => managedOrderOf command = order).getLast?

theorem newestOf_concat_self (commands : List GatewayCommand) (command : GatewayCommand) :
    newestOf (managedOrderOf command) (commands ++ [command]) = some command := by
  simp [newestOf, filter_append]

variable {command : GatewayCommand}

theorem newestOf_concat_ne {order : Option Value} (commands : List GatewayCommand)
    (h : managedOrderOf command ≠ order) :
    newestOf order (commands ++ [command]) = newestOf order commands := by
  simp [newestOf, filter_append, h]

variable {commands : List GatewayCommand}

theorem mem_of_newestOf {order : Option Value} (h : newestOf order commands = some command) :
    command ∈ commands ∧ managedOrderOf command = order := by
  have hmem := mem_filter.mp (mem_of_getLast? h)
  exact ⟨hmem.1, of_decide_eq_true hmem.2⟩

theorem exists_newestOf (h : command ∈ commands) :
    ∃ newest, newestOf (managedOrderOf command) commands = some newest := by
  have hmem : command ∈ commands.filter fun c => managedOrderOf c = managedOrderOf command :=
    mem_filter.mpr ⟨h, decide_eq_true rfl⟩
  refine ⟨_, getLast?_eq_some_getLast (ne_nil_of_mem hmem)⟩

namespace OrderManagerRuntimePipeline

section Commands

variable (config : OrderManagerSettings) (digest : GatewayCommand → String)

def holds (p : OrderManagerRuntimePipeline) (command : GatewayCommand) : Bool :=
  (p.gatewayState.commandQueue.records.get? command.commandId).any (·.command = command)

/-- The commands of an action that the Gateway's queue takes. -/
def queuedBy (p : OrderManagerRuntimePipeline) (action : Action) : List GatewayCommand :=
  (p.act config digest action).2.filter (p.act config digest action).1.holds

/-- The commands that the Gateway's queue takes along a run, oldest first. -/
def queuedFrom : OrderManagerRuntimePipeline → List Action → List GatewayCommand
  | _, [] => []
  | p, action :: actions =>
      p.queuedBy config digest action ++ queuedFrom (p.act config digest action).1 actions

def reached (past : List Action) : OrderManagerRuntimePipeline :=
  (machine config digest).run {} past

/-- The commands that a run from empty tables hands to `enqueue_command`. -/
def handed (past : List Action) : List GatewayCommand :=
  ((machine config digest).outputs {} past).flatten

def queued (past : List Action) : List GatewayCommand := queuedFrom config digest {} past

/-- `new_message_id` has not made the ids of these commands before. -/
def DrawsNewIds (past : List Action) (action : Action) : Prop :=
  (((reached config digest past).act config digest action).2.map (·.commandId)).Nodup ∧
    ∀ command ∈ ((reached config digest past).act config digest action).2,
      command.commandId ≠ "" ∧
      (∀ old ∈ handed config digest past, old.commandId ≠ command.commandId) ∧
      (reached config digest past).gatewayState.commandQueue.records.get? command.commandId = none

instance (past : List Action) (action : Action) :
    Decidable (DrawsNewIds config digest past action) := instDecidableAnd

theorem reached_concat (past : List Action) (action : Action) :
    reached config digest (past ++ [action]) =
      ((reached config digest past).act config digest action).1 :=
  (machine config digest).run_concat {} past action

theorem handed_concat (past : List Action) (action : Action) :
    handed config digest (past ++ [action]) =
      handed config digest past ++ ((reached config digest past).act config digest action).2 := by
  unfold handed
  rw [Machine.outputs_append, flatten_append]
  exact congrArg _ (append_nil _)

theorem queuedFrom_concat (p : OrderManagerRuntimePipeline) (past : List Action)
    (action : Action) :
    queuedFrom config digest p (past ++ [action]) =
      queuedFrom config digest p past ++
        ((machine config digest).run p past).queuedBy config digest action := by
  induction past generalizing p with
  | nil => exact append_nil _
  | cons first rest ih =>
    show p.queuedBy config digest first ++
      queuedFrom config digest (p.act config digest first).1 (rest ++ [action]) = _
    rw [ih, ← append_assoc]
    rfl

theorem queued_concat (past : List Action) (action : Action) :
    queued config digest (past ++ [action]) =
      queued config digest past ++ (reached config digest past).queuedBy config digest action :=
  queuedFrom_concat config digest {} past action

end Commands

/-! ## Enqueueing a command -/

variable {config : OrderManagerSettings} {digest : GatewayCommand → String}

/-- The record that `enqueue_command` makes of a command. -/
def enqueuedRecord (config : OrderManagerSettings) (digest : GatewayCommand → String)
    (cycle : Cycle) (command : GatewayCommand) : CommandRecord :=
  GatewayStateStore.created digest command config.enqueueOptions (some cycle.now) cycle.wall

/-- A command that is accepted is added to the queue, one that is not changes nothing in it. -/
theorem enqueueCommand_get? (config : OrderManagerSettings) (digest : GatewayCommand → String)
    (p : OrderManagerRuntimePipeline) (cycle : Cycle) (command : GatewayCommand) :
    ((p.enqueueCommand config digest cycle command).2 = false ∧
      ∀ id, (p.enqueueCommand config digest cycle command).1.gatewayState.commandQueue.records.get?
        id = p.gatewayState.commandQueue.records.get? id) ∨
    ((p.enqueueCommand config digest cycle command).2 = true ∧
      ∀ id, (p.enqueueCommand config digest cycle command).1.gatewayState.commandQueue.records.get?
        id = if id = command.commandId then some (enqueuedRecord config digest cycle command)
          else p.gatewayState.commandQueue.records.get? id) := by
  rcases GatewayStateStore.copies_enqueue digest p.gatewayState command config.enqueueOptions
    (some cycle.now) cycle.wall with ⟨hrejected, hsame⟩ | ⟨haccepted, -, -, -, hput⟩
  · exact .inl ⟨hrejected, fun id => congrArg Broker.Copies.memory (hsame id)⟩
  · refine .inr ⟨haccepted, ?_⟩
    intro id
    refine (congrArg Broker.Copies.memory (hput id)).trans ?_
    split
    · rfl
    · rfl

variable {command : GatewayCommand}

theorem holds_enqueueCommand (config : OrderManagerSettings) (digest : GatewayCommand → String)
    (p : OrderManagerRuntimePipeline) (cycle : Cycle)
    (hnew : p.gatewayState.commandQueue.records.get? command.commandId = none) :
    (p.enqueueCommand config digest cycle command).1.holds command =
      (p.enqueueCommand config digest cycle command).2 := by
  unfold holds
  rcases enqueueCommand_get? config digest p cycle command with
    ⟨hrejected, hget⟩ | ⟨haccepted, hget⟩
  · rw [hget, hnew, hrejected]
    rfl
  · rw [hget, if_pos rfl, haccepted]
    exact decide_eq_true rfl

theorem holds_congr {p p' : OrderManagerRuntimePipeline}
    (h : p'.gatewayState.commandQueue.records.get? command.commandId =
      p.gatewayState.commandQueue.records.get? command.commandId) :
    p'.holds command = p.holds command := by
  unfold holds
  rw [h]

/-! ## The column of a row -/

/-- The column of a row names a command of its order, the newest one if the queue took any; no
two commands have one id. -/
structure Filed (p : OrderManagerRuntimePipeline) (handed queued : List GatewayCommand) :
    Prop where
  distinct : (handed.map (·.commandId)).Nodup
  named : ∀ command ∈ handed, command.commandId ≠ "" ∧ ∃ id, managedOrderOf command = orderValue id
  sub : queued ⊆ handed
  row : ∀ {id order}, p.db.managedOrders.get? id = some order → order.commandId = "" ∨
    ∃ command ∈ handed, managedOrderOf command = orderValue id ∧ command.commandId = order.commandId
  newest : ∀ {id command}, newestOf (orderValue id) queued = some command →
    ∃ order, p.db.managedOrders.get? id = some order ∧ order.commandId = command.commandId

theorem filed_empty : Filed {} [] [] where
  distinct := nodup_nil
  named := nofun
  sub := Subset.refl []
  row h := nomatch h
  newest h := nomatch h

namespace Filed

variable {p p' : OrderManagerRuntimePipeline} {handed queued : List GatewayCommand}

theorem of_rows (h : Filed p handed queued)
    (hrows : ∀ id, (p'.db.managedOrders.get? id).map (·.commandId) =
      (p.db.managedOrders.get? id).map (·.commandId)) : Filed p' handed queued where
  distinct := h.distinct
  named := h.named
  sub := h.sub
  row := by
    intro id order hget
    have hmap := hrows id
    rw [hget] at hmap
    obtain ⟨old, hold, hcolumn⟩ := Option.map_eq_some_iff.mp hmap.symm
    have hsame : old.commandId = order.commandId := hcolumn
    rw [← hsame]
    exact h.row hold
  newest := by
    intro id command hnewest
    obtain ⟨old, hold, hcolumn⟩ := h.newest hnewest
    have hmap := hrows id
    rw [hold] at hmap
    obtain ⟨order, hget, hsame⟩ := Option.map_eq_some_iff.mp hmap
    exact ⟨order, hget, hsame.trans hcolumn⟩

variable {id : Nat} {command : GatewayCommand}

theorem hand (h : Filed p handed queued) (horder : managedOrderOf command = orderValue id)
    (hid : command.commandId ≠ "") (hnew : ∀ old ∈ handed, old.commandId ≠ command.commandId) :
    Filed p (handed ++ [command]) queued where
  distinct := by
    rw [map_append, nodup_append]
    refine ⟨h.distinct, nodup_singleton _, ?_⟩
    intro old hold other hother
    obtain ⟨c, hc, rfl⟩ := mem_map.mp hold
    rw [mem_singleton.mp hother]
    exact hnew c hc
  named := by
    intro c hc
    rcases mem_append.mp hc with hc | hc
    · exact h.named c hc
    · rw [mem_singleton.mp hc]
      exact ⟨hid, id, horder⟩
  sub := subset_append_of_subset_left _ h.sub
  row := by
    intro id' order hget
    refine (h.row hget).imp_right ?_
    rintro ⟨c, hc, hrest⟩
    exact ⟨c, mem_append_left _ hc, hrest⟩
  newest := h.newest

variable {order : ManagedOrder}

/-- One more command is handed over and written to the row of its order: one that the queue
takes, or the first one of a new row. -/
theorem write (h : Filed p handed queued) (horder : managedOrderOf command = orderValue id)
    (hid : command.commandId ≠ "") (hnew : ∀ old ∈ handed, old.commandId ≠ command.commandId)
    (hcolumn : order.commandId = command.commandId)
    (hrows : p'.db.managedOrders = p.db.managedOrders.set id order)
    (htaken : p'.holds command = true ∨ p.db.managedOrders.get? id = none) :
    Filed p' (handed ++ [command]) (queued ++ [command].filter p'.holds) where
  distinct := (h.hand horder hid hnew).distinct
  named := (h.hand horder hid hnew).named
  sub := by
    refine append_subset.mpr ⟨subset_append_of_subset_left _ h.sub, ?_⟩
    exact subset_append_of_subset_right _ (filter_subset_self _)
  row := by
    intro id' order' hget
    rw [hrows, get?_set] at hget
    split at hget
    · rename_i hsame
      injection hget with hget
      refine .inr ⟨command, mem_append_right _ (mem_singleton_self _), ?_, ?_⟩
      · rw [hsame, horder]
      · rw [← hget, hcolumn]
    · exact (h.hand horder hid hnew).row hget
  newest := by
    intro id' c hnewest
    rw [hrows, get?_set]
    by_cases hsame : id' = id
    · refine ⟨order, if_pos hsame, ?_⟩
      subst hsame
      cases hholds : p'.holds command with
      | true =>
        rw [filter_cons_of_pos hholds, filter_nil, ← horder, newestOf_concat_self] at hnewest
        injection hnewest with hnewest
        rw [← hnewest, hcolumn]
      | false =>
        -- the queue took no command of a row that was not there
        rw [filter_cons_of_neg (Bool.eq_false_iff.mp hholds), filter_nil, append_nil] at hnewest
        obtain ⟨_, hget, -⟩ := h.newest hnewest
        rw [htaken.resolve_left (Bool.eq_false_iff.mp hholds)] at hget
        cases hget
    · rw [if_neg hsame]
      have hother : managedOrderOf command ≠ orderValue id' := by
        rw [horder]
        exact fun heq => hsame (orderValue_inj heq).symm
      refine h.newest ?_
      rw [← hnewest]
      cases hholds : p'.holds command with
      | true =>
        rw [filter_cons_of_pos hholds, filter_nil, newestOf_concat_ne queued hother]
      | false =>
        rw [filter_cons_of_neg (Bool.eq_false_iff.mp hholds), filter_nil, append_nil]

theorem unsent (h : Filed p handed queued) (hcolumn : order.commandId = "")
    (hnone : p.db.managedOrders.get? id = none)
    (hrows : p'.db.managedOrders = p.db.managedOrders.set id order) :
    Filed p' handed queued where
  distinct := h.distinct
  named := h.named
  sub := h.sub
  row := by
    intro id' order' hget
    rw [hrows, get?_set] at hget
    split at hget
    · injection hget with hget
      exact .inl (by rw [← hget, hcolumn])
    · exact h.row hget
  newest := by
    intro id' command hnewest
    obtain ⟨old, hold, hsame⟩ := h.newest hnewest
    refine ⟨old, ?_, hsame⟩
    have hne : id' ≠ id := by
      rintro rfl
      rw [hnone] at hold
      cases hold
    rw [hrows, get?_set_ne _ _ hne]
    exact hold

theorem row_unique (h : Filed p handed queued) {id' : Nat} {order' : ManagedOrder}
    (hget : p.db.managedOrders.get? id = some order)
    (hget' : p.db.managedOrders.get? id' = some order') (hne : order.commandId ≠ "")
    (hsame : order'.commandId = order.commandId) : id' = id := by
  obtain ⟨c, hc, horder, hcolumn⟩ := (h.row hget).resolve_left hne
  obtain ⟨c', hc', horder', hcolumn'⟩ := (h.row hget').resolve_left (hsame ▸ hne)
  have heq : c' = c := inj_on_of_nodup_map h.distinct hc' hc
    (hcolumn'.trans (hsame.trans hcolumn.symm))
  subst heq
  exact orderValue_inj (horder'.symm.trans horder)

end Filed

/-! ## The actions -/

theorem map_execute_restated {β : Type} (f : ManagedOrder → β)
    (hf : ∀ (order : ManagedOrder) status, f { order with status } = f order)
    {es : List (Nat × ManagedOrder)} {l : Ledger} (hnodup : (es.map Prod.fst).Nodup)
    (hrows : ∀ e ∈ es, l.managedOrders.get? e.1 = some e.2)
    (writes : Nat × ManagedOrder → List Write)
    (hwrites : ∀ e, (writes e).map Write.onLedger =
      [fun l => { l with managedOrders :=
        l.managedOrders.set e.1 { e.2 with status := reconcileRequired } }, id]) (k : Nat) :
    ((execute ((es.flatMap writes).map Write.onLedger) l).managedOrders.get? k).map f =
      (l.managedOrders.get? k).map f := by
  induction es generalizing l with
  | nil => rfl
  | cons e rest ih =>
    rw [map_cons, nodup_cons] at hnodup
    rw [flatMap_cons, map_append, hwrites]
    refine (ih hnodup.2 ?_).trans
      (map_get?_set f (hrows e mem_cons_self) (hf e.2 reconcileRequired) k)
    intro other hother
    have hne : other.1 ≠ e.1 := fun heq =>
      hnodup.1 (heq ▸ mem_map_of_mem (f := Prod.fst) hother)
    exact (get?_set_ne _ _ hne).trans (hrows other (mem_cons_of_mem e hother))

theorem map_begin {β : Type} (f : ManagedOrder → β)
    (hf : ∀ (order : ManagedOrder) status, f { order with status } = f order)
    (p : OrderManagerRuntimePipeline) (cycle : Cycle) (k : Nat) :
    ((p.act config digest (.begin cycle)).1.db.managedOrders.get? k).map f =
      (p.db.managedOrders.get? k).map f := by
  show ((p.db.run config.toOrderManagerConfig cycle.portfolioRisk cycle.tradeDate
    cycle.today cycle.now).toLedger.managedOrders.get? k).map f = _
  unfold Database.run
  split
  · rw [toLedger_foldl]
    have hsub : (p.db.queuedOrders.filter fun e =>
        config.toOrderManagerConfig.overdue cycle.now e.2).Sublist
          (p.db.managedOrders.entries.reverse.filter fun e => e.2.status = queuedToGateway) :=
      filter_sublist.trans (take_sublist _ _)
    refine map_execute_restated f hf ?_ ?_ _ (fun e => rfl) k
    · exact (hsub.map Prod.fst).nodup (nodup_entries_reverse_filter p.db.toLedger _)
    · intro e he
      have hmem := (mem_filter.mp (hsub.subset he)).1
      exact mem_entries_iff.mp (mem_reverse.mp hmem)
  · rfl

theorem map_afterEvent {β : Type} (f : ManagedOrder → β)
    (hacked : ∀ (order : ManagedOrder) ack, f (order.acked ack) = f order)
    (hexecuted : ∀ (order : ManagedOrder) execution, f (order.executed execution) = f order)
    (l : Ledger) (canonicalType : CanonicalType) (payload : OrderPayload) (k : Nat) :
    ((l.afterEvent canonicalType payload).managedOrders.get? k).map f =
      (l.managedOrders.get? k).map f := by
  unfold Ledger.afterEvent
  split
  · split
    · rfl
    · rename_i ack _ _ id order hfound
      exact map_get?_set f (Ledger.ackedOrder_spec hfound) (hacked order ack) k
  · split
    · split
      · rfl
      · rename_i id order hfound
        exact map_get?_set f (l.findExecutionOrder_spec hfound) (hexecuted order _) k
    · rfl

/-- The order that `queue_cancel` saves. -/
def cancelSaved (order : ManagedOrder) (accepted : Bool) (command : GatewayCommand) : ManagedOrder :=
  { order with
    status := if accepted then cancelPending else reconcileRequired
    commandId := if accepted then command.commandId else order.commandId }

variable {p : OrderManagerRuntimePipeline} {cycle : Cycle}

theorem queueCancel_of_none {id : Nat} (h : p.db.managedOrders.get? id = none) :
    p.queueCancel config digest cycle id = (p, []) := by
  unfold queueCancel
  rw [h]

/-- `queue_cancel` of an order that is there. -/
theorem queueCancel_of_some {id : Nat} {order : ManagedOrder}
    (h : p.db.managedOrders.get? id = some order) :
    p.queueCancel config digest cycle id =
      ((p.enqueueCommand config digest cycle (order.cancelOf config cycle id)).1.saveManagedOrder id
          (cancelSaved order
            (p.enqueueCommand config digest cycle (order.cancelOf config cycle id)).2
            (order.cancelOf config cycle id)),
        [order.cancelOf config cycle id]) := by
  unfold queueCancel
  rw [h]
  rfl

theorem queueCancels_cons (cycle : Cycle) (p : OrderManagerRuntimePipeline) (id : Nat)
    (ids : List Nat) :
    queueCancels config digest cycle p (id :: ids) =
      ((queueCancels config digest cycle (p.queueCancel config digest cycle id).1 ids).1,
        (p.queueCancel config digest cycle id).2 ++
          (queueCancels config digest cycle (p.queueCancel config digest cycle id).1 ids).2) :=
  rfl

theorem queueCancel_get? {id : Nat} {commandId : String}
    (h : ∀ command ∈ (p.queueCancel config digest cycle id).2, command.commandId ≠ commandId) :
    (p.queueCancel config digest cycle id).1.gatewayState.commandQueue.records.get? commandId =
      p.gatewayState.commandQueue.records.get? commandId := by
  cases hget : p.db.managedOrders.get? id with
  | none => rw [queueCancel_of_none hget]
  | some order =>
    rw [queueCancel_of_some hget] at h ⊢
    have hne := h _ (mem_singleton_self _)
    rcases enqueueCommand_get? config digest p cycle (order.cancelOf config cycle id) with
      ⟨-, hsame⟩ | ⟨-, hput⟩
    · exact hsame commandId
    · exact (hput commandId).trans (if_neg (Ne.symm hne))

theorem queueCancels_get? {ids : List Nat} {commandId : String}
    (h : ∀ command ∈ (queueCancels config digest cycle p ids).2, command.commandId ≠ commandId) :
    (queueCancels config digest cycle p ids).1.gatewayState.commandQueue.records.get? commandId =
      p.gatewayState.commandQueue.records.get? commandId := by
  induction ids generalizing p with
  | nil => rfl
  | cons id rest ih =>
    rw [queueCancels_cons] at h ⊢
    refine (ih fun command hc => h command (mem_append_right _ hc)).trans ?_
    exact queueCancel_get? fun command hc => h command (mem_append_left _ hc)

namespace Filed

variable {p : OrderManagerRuntimePipeline} {handed queued : List GatewayCommand}

section

variable (h : Filed p handed queued)
include h

variable {cycle : Cycle}

theorem processIntent (hp : p.WellKept) {killSwitchState : KillSwitchState}
    {intent : ManagedOrderIntent}
    (hnew : ∀ command ∈ (p.processIntent config digest cycle killSwitchState intent).2,
      command.commandId ≠ "" ∧ ∀ old ∈ handed, old.commandId ≠ command.commandId) :
    Filed (p.processIntent config digest cycle killSwitchState intent).1
      (handed ++ (p.processIntent config digest cycle killSwitchState intent).2)
      (queued ++ (p.processIntent config digest cycle killSwitchState intent).2.filter
        (p.processIntent config digest cycle killSwitchState intent).1.holds) := by
  have hspec := processIntent_spec config digest p cycle killSwitchState intent
  generalize p.processIntent config digest cycle killSwitchState intent = result at hspec hnew ⊢
  cases hspec with
  | known _ =>
    rw [filter_nil, append_nil, append_nil]
    exact h
  | stopped _ =>
    rw [filter_nil, append_nil, append_nil]
    exact h.of_rows fun _ => rfl
  | blocked hintent happroved _ =>
    rw [filter_nil, append_nil, append_nil]
    exact h.unsent rfl (hp.new_id hintent) rfl
  | sent gateway status hintent happroved _ _ _ =>
    obtain ⟨hid, hold⟩ := hnew _ (mem_singleton_self _)
    exact h.write (ManagedOrder.command_order _ _ _ _ _) hid hold rfl rfl (.inr (hp.new_id hintent))

theorem queueCancel {id : Nat}
    (hnew : ∀ command ∈ (p.queueCancel config digest cycle id).2, command.commandId ≠ "" ∧
      (∀ old ∈ handed, old.commandId ≠ command.commandId) ∧
      p.gatewayState.commandQueue.records.get? command.commandId = none) :
    Filed (p.queueCancel config digest cycle id).1
      (handed ++ (p.queueCancel config digest cycle id).2)
      (queued ++ (p.queueCancel config digest cycle id).2.filter
        (p.queueCancel config digest cycle id).1.holds) := by
  cases hget : p.db.managedOrders.get? id with
  | none =>
    rw [queueCancel_of_none hget, filter_nil, append_nil, append_nil]
    exact h
  | some order =>
    rw [queueCancel_of_some hget] at hnew ⊢
    obtain ⟨hid, hold, hfree⟩ := hnew _ (mem_singleton_self _)
    have horder := order.cancelOf_order config cycle id
    have hholds := holds_enqueueCommand config digest p cycle hfree
    cases haccepted : (p.enqueueCommand config digest cycle (order.cancelOf config cycle id)).2 with
    | true =>
      exact h.write horder hid hold rfl rfl (.inl (hholds.trans haccepted))
    | false =>
      -- a cancellation that is refused leaves the column as it was
      have hnone : [order.cancelOf config cycle id].filter
          (p.enqueueCommand config digest cycle (order.cancelOf config cycle id)).1.holds = [] :=
        filter_cons_of_neg (Bool.eq_false_iff.mp (hholds.trans haccepted))
      show Filed _ _ (queued ++ [order.cancelOf config cycle id].filter
        (p.enqueueCommand config digest cycle (order.cancelOf config cycle id)).1.holds)
      rw [hnone, append_nil]
      refine (h.hand horder hid hold).of_rows ?_
      intro k
      refine map_get?_set (·.commandId) hget ?_ k
      rfl

theorem queueCancels {ids : List Nat}
    (hnodup : ((queueCancels config digest cycle p ids).2.map (·.commandId)).Nodup)
    (hnew : ∀ command ∈ (queueCancels config digest cycle p ids).2, command.commandId ≠ "" ∧
      (∀ old ∈ handed, old.commandId ≠ command.commandId) ∧
      p.gatewayState.commandQueue.records.get? command.commandId = none) :
    Filed (queueCancels config digest cycle p ids).1
      (handed ++ (queueCancels config digest cycle p ids).2)
      (queued ++ (queueCancels config digest cycle p ids).2.filter
        (queueCancels config digest cycle p ids).1.holds) := by
  induction ids generalizing p handed queued with
  | nil =>
    rw [show (queueCancels config digest cycle p []).2 = [] from rfl,
      filter_nil, append_nil, append_nil]
    exact h
  | cons id rest ih =>
    rw [queueCancels_cons] at hnodup hnew ⊢
    simp only at hnodup hnew ⊢
    rw [map_append, nodup_append] at hnodup
    obtain ⟨-, hrest, hapart⟩ := hnodup
    -- the ids of this cancellation and of the later ones differ
    have hne : ∀ command ∈ (p.queueCancel config digest cycle id).2, ∀ later ∈
        (queueCancels config digest cycle (p.queueCancel config digest cycle id).1 rest).2,
        later.commandId ≠ command.commandId := by
      intro command hcommand later hlater heq
      exact hapart _ (mem_map_of_mem hcommand) _ (mem_map_of_mem hlater) heq.symm
    have hfirst := h.queueCancel fun command hcommand =>
      hnew command (mem_append_left _ hcommand)
    have hlast := ih hfirst hrest (by
      intro later hlater
      obtain ⟨hid, hold, hfree⟩ := hnew later (mem_append_right _ hlater)
      refine ⟨hid, ?_, ?_⟩
      · intro old hmem
        rcases mem_append.mp hmem with hmem | hmem
        · exact hold old hmem
        · exact (hne old hmem later hlater).symm
      · rw [queueCancel_get? fun command hcommand => (hne command hcommand later hlater).symm]
        exact hfree)
    -- the queue still holds what it held of the first command
    have hkept : (p.queueCancel config digest cycle id).2.filter
          (p.queueCancel config digest cycle id).1.holds =
        (p.queueCancel config digest cycle id).2.filter
          (queueCancels config digest cycle
            (p.queueCancel config digest cycle id).1 rest).1.holds := by
      refine filter_congr ?_
      intro command hcommand
      exact (holds_congr (queueCancels_get? (hne command hcommand))).symm
    rw [hkept, append_assoc, append_assoc, ← filter_append] at hlast
    exact hlast

theorem act (hp : p.WellKept) {action : Action}
    (hnodup : ((p.act config digest action).2.map (·.commandId)).Nodup)
    (hnew : ∀ command ∈ (p.act config digest action).2, command.commandId ≠ "" ∧
      (∀ old ∈ handed, old.commandId ≠ command.commandId) ∧
      p.gatewayState.commandQueue.records.get? command.commandId = none) :
    Filed (p.act config digest action).1 (handed ++ (p.act config digest action).2)
      (queued ++ p.queuedBy config digest action) := by
  have hsilent : ∀ p' : OrderManagerRuntimePipeline,
      (∀ k, (p'.db.managedOrders.get? k).map (·.commandId) =
        (p.db.managedOrders.get? k).map (·.commandId)) →
      Filed p' (handed ++ []) (queued ++ [].filter p'.holds) := by
    intro p' hrows
    rw [filter_nil, append_nil, append_nil]
    exact h.of_rows hrows
  cases action with
  | begin cycle => exact hsilent _ (map_begin (·.commandId) (fun _ _ => rfl) p cycle)
  | processIntent cycle killSwitchState intent =>
    exact h.processIntent hp fun command hcommand =>
      ⟨(hnew command hcommand).1, (hnew command hcommand).2.1⟩
  | cancelUnfilled cycle => exact h.queueCancels hnodup hnew
  | applyEvent canonicalType payload today =>
    refine hsilent _ fun k => ?_
    rw [toLedger_applyEvent]
    exact map_afterEvent (·.commandId) (fun _ _ => rfl) (fun _ _ => rfl) p.db.toLedger _ _ k
  | markReconcileRequired reason payload today => exact hsilent _ fun _ => rfl
  | gateway state => exact hsilent _ fun _ => rfl

end

end Filed

theorem wellKept_reached (config : OrderManagerSettings) (digest : GatewayCommand → String)
    (past : List Action) : (reached config digest past).WellKept :=
  Machine.run_preserves (m := machine config digest) (I := WellKept)
    (fun _ action hp => hp.act action) wellKept_empty past

theorem filed_run {steps : List Action}
    (hids : ∀ past action, past ++ [action] <+: steps → DrawsNewIds config digest past action) :
    ∀ past, past <+: steps →
      Filed (reached config digest past) (handed config digest past)
        (queued config digest past) := by
  refine prefix_induction filed_empty ?_
  intro past action hpre hfiled
  obtain ⟨hnodup, hnew⟩ := hids past action hpre
  rw [reached_concat, handed_concat, queued_concat]
  exact hfiled.act (wellKept_reached config digest past) hnodup hnew

/-! ## The orders of a run -/

/-- A later state of an order: its terms stand, and no filled share is lost. -/
structure Outlives (a b : ManagedOrder) : Prop extends SameTerms a b where
  filledQuantity : a.filledQuantity ≤ b.filledQuantity

/-- Every order is still there under its id, the only one of its intent, and full if filled. -/
def KeepsOrders (p p' : OrderManagerRuntimePipeline) : Prop :=
  ∀ id order, p.db.managedOrders.get? id = some order →
    ∃ order', p'.db.managedOrders.get? id = some order' ∧ Outlives order order' ∧
      (order'.status = filled → order'.quantity ≤ order'.filledQuantity) ∧
      ∀ other order'', p'.db.managedOrders.get? other = some order'' →
        order''.idempotencyKey = order.idempotencyKey → other = id

variable {p : OrderManagerRuntimePipeline} {id : Nat} {order : ManagedOrder}

theorem Outlives.rfl {a : ManagedOrder} : Outlives a a := ⟨.rfl, Int.le_refl _⟩

theorem outlives_of_restates {p' : OrderManagerRuntimePipeline}
    (h : Restates p.db.toLedger p'.db.toLedger) (hget : p.db.managedOrders.get? id = some order) :
    ∃ order', p'.db.managedOrders.get? id = some order' ∧ Outlives order order' := by
  obtain ⟨order', hget', hrestated⟩ := (h.get? id).1 order hget
  exact ⟨order', hget', hrestated.toSameTerms, hrestated.filledQuantity.ge⟩

theorem outlives_act (hp : p.WellKept) (action : Action)
    (hget : p.db.managedOrders.get? id = some order) :
    ∃ order', (p.act config digest action).1.db.managedOrders.get? id = some order' ∧
      Outlives order order' := by
  cases action with
  | begin cycle => exact outlives_of_restates (begin_restates config digest p cycle) hget
  | cancelUnfilled cycle =>
    exact outlives_of_restates (cancelUnfilled_restates config digest p cycle).2.2 hget
  | markReconcileRequired reason payload today => exact ⟨order, hget, .rfl⟩
  | gateway state => exact ⟨order, hget, .rfl⟩
  | applyEvent canonicalType payload today =>
    rw [toLedger_applyEvent]
    have hmap := map_afterEvent (fun _ => ()) (fun _ _ => rfl) (fun _ _ => rfl) p.db.toLedger
      canonicalType payload id
    rw [hget] at hmap
    obtain ⟨order', hget', -⟩ := Option.map_eq_some_iff.mp hmap
    obtain ⟨old, hold, hafter⟩ := Ledger.get?_afterEvent hget'
    obtain rfl := Option.some.inj (hget.symm.trans hold)
    refine ⟨order', hget', ?_⟩
    rcases hafter with rfl | ⟨ack, rfl⟩ | rfl
    · exact .rfl
    · exact ⟨order.acked_sameTerms ack, Int.le_refl _⟩
    · exact ⟨order.executed_sameTerms _, Int.le_max_left _ _⟩
  | processIntent cycle killSwitchState intent =>
    refine ⟨order, ?_, .rfl⟩
    show (p.processIntent config digest cycle killSwitchState intent).1.db.managedOrders.get? id = _
    have hspec := processIntent_spec config digest p cycle killSwitchState intent
    generalize p.processIntent config digest cycle killSwitchState intent = result at hspec ⊢
    have hne : p.intents.get? intent.idempotencyKey = none →
        id ≠ p.db.orderIdFor intent.idempotencyKey := by
      rintro hnew rfl
      exact absurd (hget.symm.trans (hp.new_id hnew)) nofun
    cases hspec with
    | known _ => exact hget
    | stopped _ => exact hget
    | blocked hnew _ => exact (get?_set_ne _ _ (hne hnew)).trans hget
    | sent _ _ hnew _ _ _ => exact (get?_set_ne _ _ (hne hnew)).trans hget

/-- In every history of the pipeline, whatever cycles and events come later in whatever order:
no order is lost, changes its terms, loses filled shares or gets a second one of its intent. -/
theorem orders_outlive (config : OrderManagerSettings) (digest : GatewayCommand → String)
    (past later : List Action) :
    KeepsOrders (reached config digest past) (reached config digest (past ++ later)) := by
  intro id order hget
  have hkept : ∃ order', (reached config digest (past ++ later)).db.managedOrders.get? id =
      some order' ∧ Outlives order order' := by
    induction later using List.reverseRecOn with
    | nil => exact ⟨order, by rwa [append_nil], .rfl⟩
    | append_singleton before action ih =>
      obtain ⟨order', hget', hterms, hfilled⟩ := ih
      rw [← append_assoc, reached_concat]
      obtain ⟨next, hnext, hsame, hmore⟩ :=
        outlives_act (wellKept_reached config digest _) action hget'
      exact ⟨next, hnext, hterms.trans hsame, hfilled.trans hmore⟩
  obtain ⟨order', hget', houtlives⟩ := hkept
  have hwell := wellKept_reached config digest (past ++ later)
  refine ⟨order', hget', houtlives, hwell.filledInFull hget', ?_⟩
  intro other order'' hother hkey
  exact hwell.distinct hother hget' (hkey.trans houtlives.idempotencyKey.symm)

end OrderManagerRuntimePipeline

end TradingCore.Orders
