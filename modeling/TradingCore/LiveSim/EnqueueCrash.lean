import TradingCore.Broker.GatewayState
import TradingCore.LiveSim.LedgerLemmas

/-!
# Between the queue and the ledger

`enqueue_live_sim_order` hands its command to the Gateway's queue and then saves the row of
the order: two stores, and two commits. In between the Gateway may fetch the command and answer
it, and Core may stop for good, and after a restart the queue comes back with the command.

`tracked_of_filed`: in every history in which no command is handed out and no message about
one comes in before its row is saved, and each message about a filed command can be told to be
about it, every command that was handed out has its row and no message of it goes astray.
-/

namespace TradingCore.LiveSim

open Base LiveSimOrderStatus List Dict Ledger
open Broker (GatewayStateStore GatewayCommand EnqueueOptions EnqueueResult Time)
open Orders (orText orInt)

/-! ## The call -/

/-- A call that its guards have let pass: the command that it has made, and the `base_record`
that it is going to save. -/
structure PendingCall where
  orderIntentId : String
  command : GatewayCommand
  options : EnqueueOptions := {}
  record : LiveSimOrder
  now : String := ""

/-- The row that the call saves, as the queue has answered. -/
def PendingCall.row (call : PendingCall) (result : EnqueueResult) : LiveSimOrder :=
  let status :=
    if result.accepted then submitted
    else if result.reason ∈ ["TIMEOUT", "UNKNOWN"] then unknownSubmit
    else blocked
  { call.record with
    commandId := call.command.commandId
    orderStatus := status
    submittedAt := if status ∈ [submitted, unknownSubmit] then call.now else "" }

structure UnsavedRow where
  orderIntentId : String
  row : LiveSimOrder

/-! ## The desk -/

/-- Both stores and the calls between them. What is kept besides: `issued`, the commands that
the queue took from a call; `unfiled`, those of them whose row is not saved, be it not yet or
never; `handedOut`, those of them that were dispatched; and `astray`, the commands about which
a message came in that found no order. -/
structure Desk where
  gateway : GatewayStateStore := {}
  ledger : Ledger := {}
  inFlight : Dict String UnsavedRow := empty
  issued : List String := []
  unfiled : List String := []
  handedOut : List String := []
  astray : List String := []

/-- What happens at the desk. -/
inductive DeskAction
  /-- a call hands its command to the queue -/
  | handOver (call : PendingCall) (wall : Time)
  /-- the call of this command saves its row -/
  | save (commandId : String)
  /-- Core stops, and starts again on the same stores -/
  | crash (wall : Time)
  /-- any call on the gateway state store -/
  | gateway (step : GatewayStateStore.Step)
  /-- `_sync_live_sim_order_result` for the order of a command -/
  | orderResult (commandId : String) (result : BrokerOrderResult)
  /-- `_sync_live_sim_execution` for the order of a command -/
  | execution (commandId : String) (event : ExecutionEvent)

def handedOutIds : Broker.Answer → List String
  | .commands commands => commands.map (·.commandId)
  | _ => []

namespace Desk

def perform (digest : GatewayCommand → String) (d : Desk) : DeskAction → Desk
  | .handOver call wall =>
      let (gateway, result) := d.gateway.enqueueCommand digest call.command call.options none wall
      let unsaved := { orderIntentId := call.orderIntentId, row := call.row result }
      let inFlight := d.inFlight.set call.command.commandId unsaved
      if result.accepted then
        { d with
          gateway, inFlight
          issued := d.issued ++ [call.command.commandId]
          unfiled := d.unfiled ++ [call.command.commandId] }
      else { d with gateway, inFlight }
  | .save commandId =>
      match d.inFlight.get? commandId with
      | none => d
      | some unsaved =>
          { d with
            ledger := d.ledger.commit (.order unsaved.orderIntentId unsaved.row)
            inFlight := d.inFlight.filter fun id _ => id ≠ commandId
            unfiled := d.unfiled.filter fun id => id ≠ commandId }
  | .crash wall => { d with gateway := d.gateway.restart wall, inFlight := empty }
  | .gateway step =>
      let (gateway, answer) := d.gateway.step digest step
      { d with
        gateway
        handedOut := d.handedOut ++ (handedOutIds answer).filter fun id => id ∈ d.issued }
  | .orderResult commandId result =>
      { d with
        ledger := d.ledger.act (.orderResult result)
        astray :=
          if commandId ∈ d.issued ∧ d.ledger.resultOrder result = none then
            d.astray ++ [commandId]
          else d.astray }
  | .execution commandId event =>
      { d with
        ledger := d.ledger.act (.execution event)
        astray :=
          if commandId ∈ d.issued ∧ d.ledger.executionOrder event = none then
            d.astray ++ [commandId]
          else d.astray }

def machine (digest : GatewayCommand → String) : Machine Desk DeskAction Unit where
  step d action := (d.perform digest action, ())

variable (d : Desk)

def HasRow (commandId : String) : Prop :=
  ∃ e ∈ d.ledger.orders.entries, e.2.commandId = commandId
deriving Decidable

def Tracked : Prop := (∀ id ∈ d.handedOut, d.HasRow id) ∧ d.astray = []
deriving Decidable

/-! ## When a step keeps to the order -/

/-- An execution can be told to be of the order: by its number, its command, its key or, when
it has no number yet, its terms. -/
def Names (order : LiveSimOrder) (event : ExecutionEvent) : Prop :=
  (event.orderNo ≠ "" ∧ order.brokerOrderId = event.orderNo) ∨
    (event.commandId ≠ "" ∧ order.commandId = event.commandId) ∨
    (event.idempotencyKey ≠ "" ∧ order.idempotencyKey = event.idempotencyKey ∧
      order.orderStatus.sought = true) ∨
    (event.orderNo ≠ "" ∧ order.fits event = true)
deriving Decidable

def Filed (commandId : String) : Prop := commandId ∈ d.issued ∧ commandId ∉ d.unfiled

/-- The step keeps to the order: ids are new, commands are handed out and answered when their
rows are saved, a result is booked on the row of its command, and an execution can be told to
be of an order. -/
def InOrder (digest : GatewayCommand → String) (d : Desk) : DeskAction → Prop
  | .handOver call _ => call.command.commandId ≠ "" ∧ call.command.commandId ∉ d.issued
  | .save commandId =>
      ∀ unsaved ∈ d.inFlight.get? commandId, d.ledger.orders.get? unsaved.orderIntentId = none
  | .crash _ => True
  | .gateway step =>
      ∀ id ∈ handedOutIds (d.gateway.step digest step).2, id ∉ d.unfiled
  | .orderResult commandId result =>
      (commandId ∈ d.issued → commandId ∉ d.unfiled ∧ result.commandId = commandId) ∧
        ∀ found ∈ d.ledger.resultOrder result,
          result.commandId ≠ "" → found.2.commandId ∈ d.issued →
            found.2.commandId = result.commandId
  | .execution commandId event =>
      commandId ∈ d.issued → commandId ∉ d.unfiled ∧
        (event.commandId = commandId ∨ ∃ e ∈ d.ledger.orders.entries, Names e.2 event)

instance (digest : GatewayCommand → String) (d : Desk) :
    ∀ action, Decidable (d.InOrder digest action)
  | .handOver _ _ => inferInstanceAs (Decidable (_ ∧ _))
  | .save commandId =>
      inferInstanceAs (Decidable (∀ unsaved ∈ d.inFlight.get? commandId, _))
  | .crash _ => .isTrue trivial
  | .gateway step =>
      inferInstanceAs (Decidable (∀ id ∈ handedOutIds (d.gateway.step digest step).2, _))
  | .orderResult _ result =>
      inferInstanceAs (Decidable ((_ → _ ∧ _) ∧ ∀ found ∈ d.ledger.resultOrder result, _))
  | .execution _ event =>
      inferInstanceAs (Decidable (_ → _ ∧ (_ ∨ ∃ e ∈ d.ledger.orders.entries, Names e.2 event)))

end Desk

/-! ## Finding the order of a message -/

namespace Ledger

variable {l : Ledger}

variable {id : String} {order : LiveSimOrder}

theorem findByCommandId_ne_none {commandId : String} (hid : commandId ≠ "")
    (hget : l.orders.get? id = some order) (hcommand : order.commandId = commandId) :
    l.findByCommandId commandId ≠ none := by
  intro hnone
  unfold findByCommandId at hnone
  rw [if_neg hid] at hnone
  have hnot := latest?_eq_none hnone hget
  simp [hcommand] at hnot

theorem findByBrokerOrderId_ne_none {brokerOrderId : String} (hid : brokerOrderId ≠ "")
    (hget : l.orders.get? id = some order) (hnumber : order.brokerOrderId = brokerOrderId) :
    l.findByBrokerOrderId brokerOrderId ≠ none := by
  intro hnone
  unfold findByBrokerOrderId at hnone
  rw [if_neg hid] at hnone
  have hnot := latest?_eq_none hnone hget
  simp [hnumber] at hnot

theorem findByIdempotency_ne_none {idempotencyKey : String} (hkey : idempotencyKey ≠ "")
    (hget : l.orders.get? id = some order) (hsame : order.idempotencyKey = idempotencyKey)
    (hsought : order.orderStatus.sought = true) : l.findByIdempotency idempotencyKey ≠ none := by
  intro hnone
  unfold findByIdempotency at hnone
  rw [if_neg hkey] at hnone
  have hnot := find?_eq_none.mp hnone (id, order) (mem_entries_iff.mpr hget)
  simp [hsame, hsought] at hnot

theorem findByFingerprint_ne_none {event : ExecutionEvent} (hnumber : event.orderNo ≠ "")
    (hget : l.orders.get? id = some order) (hfits : order.fits event = true) :
    l.findByFingerprint event ≠ none := by
  -- once an order fits, the search has one
  have hkeeps : ∀ step : Option (String × LiveSimOrder) → String × LiveSimOrder →
      Option (String × LiveSimOrder), (∀ best e, step (some best) e ≠ none) →
        ∀ (found : List _) best, found.foldl step (some best) ≠ none := by
    intro step hstep found
    induction found with
    | nil =>
      intro best hnone
      cases hnone
    | cons e rest ih =>
      intro best
      obtain ⟨next, hnext⟩ := Option.ne_none_iff_exists'.mp (hstep best e)
      rw [foldl_cons, hnext]
      exact ih next
  have hmem : (id, order) ∈ l.orders.entries.filter fun e => e.2.fits event :=
    mem_filter.mpr ⟨mem_entries_iff.mpr hget, hfits⟩
  unfold findByFingerprint
  rw [if_neg hnumber]
  cases hlist : l.orders.entries.filter fun e => e.2.fits event with
  | nil =>
    rw [hlist] at hmem
    cases hmem
  | cons e rest =>
    refine hkeeps _ ?_ rest e
    intro best e
    simp only
    split <;> simp

theorem executionOrder_ne_none {event : ExecutionEvent} (hget : l.orders.get? id = some order)
    (hnames : Desk.Names order event) : l.executionOrder event ≠ none := by
  intro hnone
  unfold executionOrder at hnone
  rw [Option.or_eq_none_iff, Option.or_eq_none_iff, Option.or_eq_none_iff] at hnone
  obtain ⟨⟨⟨hbroker, hcommand⟩, hkey⟩, hfingerprint⟩ := hnone
  rcases hnames with ⟨hid, h⟩ | ⟨hid, h⟩ | ⟨hid, h, hsought⟩ | ⟨hid, h⟩
  · exact findByBrokerOrderId_ne_none hid hget h hbroker
  · exact findByCommandId_ne_none hid hget h hcommand
  · exact findByIdempotency_ne_none hid hget h hsought hkey
  · exact findByFingerprint_ne_none hid hget h hfingerprint

end Ledger

namespace Desk

variable {d : Desk}

/-! ## Rows -/

variable {commandId : String}

theorem hasRow_iff :
    d.HasRow commandId ↔
      ∃ id order, d.ledger.orders.get? id = some order ∧ order.commandId = commandId := by
  constructor
  · rintro ⟨e, he, hcommand⟩
    exact ⟨e.1, e.2, mem_entries_iff.mp he, hcommand⟩
  · rintro ⟨id, order, hget, hcommand⟩
    exact ⟨(id, order), mem_entries_iff.mpr hget, hcommand⟩

theorem HasRow.set {d' : Desk} (h : d.HasRow commandId) (id : String) (order' : LiveSimOrder)
    (horders : d'.ledger.orders = d.ledger.orders.set id order')
    (hkeeps : ∀ order, d.ledger.orders.get? id = some order → order.commandId = commandId →
      order'.commandId = commandId) : d'.HasRow commandId := by
  obtain ⟨id', order, hget, hcommand⟩ := hasRow_iff.mp h
  rw [hasRow_iff, horders]
  by_cases hid : id' = id
  · rw [hid] at hget
    exact ⟨id, order', get?_set_self _ _ _, hkeeps order hget hcommand⟩
  · exact ⟨id', order, by rw [get?_set_ne _ _ hid, hget], hcommand⟩

/-- What the desk keeps: an issued command is unfiled or has its row; an unsaved row is that of
its command; and what was handed out is filed. -/
structure Kept (d : Desk) : Prop where
  issued : ∀ id ∈ d.issued, id ≠ "" ∧ (id ∈ d.unfiled ∨ d.HasRow id)
  unsaved : ∀ id unsaved, d.inFlight.get? id = some unsaved → unsaved.row.commandId = id
  handedOut : ∀ id ∈ d.handedOut, id ∈ d.issued ∧ id ∉ d.unfiled
  astray : d.astray = []

theorem Kept.tracked (h : d.Kept) : d.Tracked := by
  refine ⟨?_, h.astray⟩
  intro id hid
  obtain ⟨hissued, hfiled⟩ := h.handedOut id hid
  exact ((h.issued id hissued).2).resolve_left hfiled

theorem Kept.hasRow (h : d.Kept) {id : String} (hissued : id ∈ d.issued)
    (hfiled : id ∉ d.unfiled) : d.HasRow id :=
  ((h.issued id hissued).2).resolve_left hfiled

/-! ## Steps -/

variable {digest : GatewayCommand → String}

theorem kept_handOver (h : d.Kept) {call : PendingCall} {wall : Time}
    (hnew : d.InOrder digest (.handOver call wall)) :
    (d.perform digest (.handOver call wall)).Kept := by
  obtain ⟨hid, hfresh⟩ := hnew
  have hunsaved : ∀ result : EnqueueResult, ∀ id unsaved,
      (d.inFlight.set call.command.commandId
        { orderIntentId := call.orderIntentId, row := call.row result }).get? id = some unsaved →
        unsaved.row.commandId = id := by
    intro result id unsaved hget
    rw [get?_set] at hget
    split at hget
    · rename_i hsame
      injection hget with hget
      rw [← hget, hsame]
      rfl
    · exact h.unsaved id unsaved hget
  simp only [perform]
  split
  · refine ⟨?_, hunsaved _, ?_, h.astray⟩
    · intro id hissued
      rcases mem_append.mp hissued with hold | hlast
      · obtain ⟨hne, hplace⟩ := h.issued id hold
        exact ⟨hne, hplace.imp (mem_append_left _) fun hrow => hrow⟩
      · rw [mem_singleton.mp hlast]
        exact ⟨hid, Or.inl (mem_append_right _ (mem_singleton.mpr rfl))⟩
    · intro id hhanded
      obtain ⟨hissued, hfiled⟩ := h.handedOut id hhanded
      refine ⟨mem_append_left _ hissued, ?_⟩
      intro hunfiled
      rcases mem_append.mp hunfiled with hold | hlast
      · exact hfiled hold
      · rw [mem_singleton.mp hlast] at hissued
        exact hfresh hissued
  · exact ⟨h.issued, hunsaved _, h.handedOut, h.astray⟩

theorem kept_save (h : d.Kept) (hnew : d.InOrder digest (.save commandId)) :
    (d.perform digest (.save commandId)).Kept := by
  cases hget : d.inFlight.get? commandId with
  | none =>
    simp only [perform, hget]
    exact h
  | some unsaved =>
    simp only [perform, hget]
    have hcommand := h.unsaved commandId unsaved hget
    have hfree := hnew unsaved hget
    refine ⟨?_, ?_, ?_, h.astray⟩
    · intro id hissued
      obtain ⟨hne, hplace⟩ := h.issued id hissued
      refine ⟨hne, ?_⟩
      by_cases hid : id = commandId
      · right
        rw [hasRow_iff]
        exact ⟨unsaved.orderIntentId, unsaved.row, get?_set_self _ _ _, hcommand.trans hid.symm⟩
      · rcases hplace with hunfiled | hrow
        · left
          exact mem_filter.mpr ⟨hunfiled, decide_eq_true hid⟩
        · right
          apply hrow.set unsaved.orderIntentId unsaved.row rfl
          intro order hthere
          rw [hfree] at hthere
          cases hthere
    · intro id other hother
      rw [get?_filter] at hother
      exact h.unsaved id other (Option.eq_some_of_filter_eq_some hother)
    · intro id hhanded
      obtain ⟨hissued, hfiled⟩ := h.handedOut id hhanded
      exact ⟨hissued, fun hunfiled => hfiled (mem_of_mem_filter hunfiled)⟩

theorem kept_gateway (h : d.Kept) {step : GatewayStateStore.Step}
    (horder : d.InOrder digest (.gateway step)) : (d.perform digest (.gateway step)).Kept := by
  simp only [perform]
  refine ⟨h.issued, h.unsaved, ?_, h.astray⟩
  intro id hhanded
  rcases mem_append.mp hhanded with hold | hnew
  · exact h.handedOut id hold
  · obtain ⟨hout, hissued⟩ := mem_filter.mp hnew
    exact ⟨of_decide_eq_true hissued, horder id hout⟩

theorem kept_crash (h : d.Kept) (wall : Time) : (d.perform digest (.crash wall)).Kept := by
  refine ⟨h.issued, ?_, h.handedOut, h.astray⟩
  intro id unsaved hget
  cases hget

theorem kept_message (h : d.Kept) {l' : Ledger} {astray : List String} (hastray : astray = [])
    (hrows : ∀ id ∈ d.issued, d.HasRow id → HasRow { d with ledger := l', astray } id) :
    Kept { d with ledger := l', astray } := by
  refine ⟨?_, h.unsaved, h.handedOut, hastray⟩
  intro id hissued
  obtain ⟨hne, hplace⟩ := h.issued id hissued
  exact ⟨hne, hplace.imp (fun hunfiled => hunfiled) (hrows id hissued)⟩

theorem kept_orderResult (h : d.Kept) {result : BrokerOrderResult}
    (horder : d.InOrder digest (.orderResult commandId result)) :
    (d.perform digest (.orderResult commandId result)).Kept := by
  obtain ⟨hfiled, hown⟩ := horder
  simp only [perform]
  apply kept_message h
  · rw [if_neg, h.astray]
    rintro ⟨hissued, hnone⟩
    obtain ⟨hsaved, hnamed⟩ := hfiled hissued
    obtain ⟨id, order, hget, hcommand⟩ := hasRow_iff.mp (h.hasRow hissued hsaved)
    unfold resultOrder at hnone
    rw [Option.or_eq_none_iff] at hnone
    apply findByCommandId_ne_none _ hget _ hnone.2
    · rw [hnamed]
      exact (h.issued commandId hissued).1
    · rw [hnamed]
      exact hcommand
  · intro id hissued hrow
    rw [act_orderResult]
    cases hfound : d.ledger.resultOrder result with
    | none => exact hrow
    | some found =>
      obtain ⟨intent, order⟩ := found
      apply hrow.set intent (order.afterResult result) rfl
      intro order' hget hcommand
      rw [get?_of_resultOrder hfound] at hget
      injection hget with hget
      rw [← hget] at hcommand
      show orText result.commandId order.commandId = id
      unfold orText
      split
      · exact hcommand
      · -- the result names the command of the row
        rename_i hne
        rw [← hown (intent, order) hfound hne (by rw [hcommand]; exact hissued)]
        exact hcommand

theorem kept_execution (h : d.Kept) {event : ExecutionEvent}
    (horder : d.InOrder digest (.execution commandId event)) :
    (d.perform digest (.execution commandId event)).Kept := by
  simp only [perform]
  apply kept_message h
  · rw [if_neg, h.astray]
    rintro ⟨hissued, hnone⟩
    obtain ⟨hsaved, hnamed⟩ := horder hissued
    rcases hnamed with hsame | ⟨e, he, hnames⟩
    · obtain ⟨id, order, hget, hcommand⟩ := hasRow_iff.mp (h.hasRow hissued hsaved)
      have hne : event.commandId ≠ "" := by
        rw [hsame]
        exact (h.issued commandId hissued).1
      exact executionOrder_ne_none hget (Or.inr (Or.inl ⟨hne, hcommand.trans hsame.symm⟩)) hnone
    · exact executionOrder_ne_none (mem_entries_iff.mp he) hnames hnone
  · intro id hissued hrow
    cases hfound : d.ledger.executionOrder event with
    | none =>
      obtain ⟨intent, order, hget, hcommand⟩ := hasRow_iff.mp hrow
      rw [hasRow_iff]
      refine ⟨intent, order, ?_, hcommand⟩
      show (d.ledger.act (.execution event)).orders.get? intent = some order
      rw [orders_act_execution, hfound]
      exact hget
    | some found =>
      obtain ⟨intent, order⟩ := found
      by_cases hnew : (d.ledger.report event).inserted = true
      · apply hrow.set intent (d.ledger.orderAfterExecution intent order event)
        · show (d.ledger.act (.execution event)).orders = _
          rw [orders_act_execution, hfound]
          exact if_pos hnew
        · intro order' hget hcommand
          rw [get?_of_executionOrder hfound] at hget
          injection hget with hget
          rw [← hget] at hcommand
          exact hcommand
      · obtain ⟨intent', order', hget, hcommand⟩ := hasRow_iff.mp hrow
        rw [hasRow_iff]
        refine ⟨intent', order', ?_, hcommand⟩
        show (d.ledger.act (.execution event)).orders.get? intent' = some order'
        rw [orders_act_execution, hfound]
        simp only [hnew]
        exact hget

/-! ## Whole runs -/

theorem kept_step (h : d.Kept) {action : DeskAction} (horder : d.InOrder digest action) :
    (d.perform digest action).Kept := by
  cases action with
  | handOver call wall => exact kept_handOver h horder
  | save commandId => exact kept_save h horder
  | crash wall => exact kept_crash h wall
  | gateway step => exact kept_gateway h horder
  | orderResult commandId result => exact kept_orderResult h horder
  | execution commandId event => exact kept_execution h horder

/-- In every history of calls, crashes, dispatches and other calls on the gateway, results and
executions, from any stores, in which every step keeps to the order, every command that was
handed out has its row and no message of one went astray. -/
theorem tracked_of_filed (digest : GatewayCommand → String) (gateway : GatewayStateStore)
    (ledger : Ledger) (run : List DeskAction)
    (h : (machine digest).Guarded (InOrder digest) { gateway, ledger } run) :
    (machine digest).Always Tracked { gateway, ledger } run := by
  have hkept : (machine digest).Always Kept { gateway, ledger } run := by
    apply Machine.always_of_guarded _ _ h
    · exact fun d action hd horder => kept_step hd horder
    · refine ⟨?_, ?_, ?_, rfl⟩
      · intro id hid
        cases hid
      · intro id unsaved hget
        cases hget
      · intro id hid
        cases hid
  exact hkept.imp fun d hd => hd.tracked

/-! ## Fixed runs -/

def tenSharesCall : PendingCall where
  orderIntentId := "O1"
  command := { type := "send_order", commandId := "C1", idempotencyKey := "K1" }
  record :=
    { code := "005930"
      side := "buy"
      requestedQty := 10
      submittedQty := 10
      submittedPrice := 100
      idempotencyKey := "K1" }

def tenSharesResult : BrokerOrderResult where
  ok := true
  orderNo := "7"
  commandId := "C1"

def savedFirst : List DeskAction :=
  [.handOver tenSharesCall 0, .save "C1", .gateway ⟨.dispatch 10 none, 1⟩,
   .orderResult "C1" tenSharesResult,
   .execution "C1" { code := "005930", orderNo := "7", side := "buy", quantity := 10,
                     price := 100, filledQuantity := 10, remainingQuantity := 0 }]

def answeredFirst : List DeskAction :=
  [.handOver tenSharesCall 0, .gateway ⟨.dispatch 10 none, 1⟩,
   .orderResult "C1" tenSharesResult, .save "C1"]

/-- The general theorem at a run in the intended order. -/
theorem tracked_of_filed_savedFirst :
    (machine fun _ => "").Always Tracked { gateway := {}, ledger := {} } savedFirst :=
  tracked_of_filed (fun _ => "") {} {} savedFirst (by decide +kernel)

/-- A command that the Gateway fetches early goes out without a row, and the early answer of
the broker is dropped. -/
theorem early_answer_untracked :
    ¬ (machine fun _ => "").Always Tracked { gateway := {}, ledger := {} } answeredFirst := by
  decide +kernel

end Desk
end TradingCore.LiveSim
