import TradingCore.LiveSim.CommandAnswers
import TradingCore.LiveSim.LegalTransitions

/-!
# Fills and the answers to commands

An answer to a command writes the status of its order without asking the lifecycle table and
without looking for fills. `answers_respect_fills_iff`: in every history of the ledger the
answers leave filled orders alone and only make allowed changes of status iff every answer
that rejects its order finds it submitted and without a fill, or in that status already, and
every result that comes with an acknowledgement is expected by its order.
-/

namespace TradingCore.LiveSim

open Base LiveSimOrderStatus
open Orders (orText)

namespace LiveSimOrderStatus

def rejecting (status : LiveSimOrderStatus) : Bool := status ∈ [rejected, failed]

/-- A rejecting status is reached from `SUBMITTED` alone, or from itself. -/
theorem validTransition_rejecting {status : LiveSimOrderStatus} (h : status.rejecting = true)
    (statusFrom : LiveSimOrderStatus) :
    validTransition statusFrom status = true ↔ statusFrom = status ∨ statusFrom = submitted := by
  cases status with
  | rejected => cases statusFrom <;> decide
  | failed => cases statusFrom <;> decide
  | _ => exact absurd h (by decide)

end LiveSimOrderStatus

theorem CommandAnswer.rejecting_of_verdict {answer : CommandAnswer} {status : LiveSimOrderStatus}
    (h : answer.verdict = some status) : status.rejecting = true := by
  unfold verdict at h
  split at h
  · cases h
  · split at h
    · cases h
      rfl
    · split at h
      · cases h
        rfl
      · cases h

namespace Ledger

/-! ## The law -/

def hasFill (l : Ledger) (id : String) : Bool :=
  l.fills.any fun fill => fill.orderIntentId = id ∧ 0 < fill.fillQty

/-- The change of an order's status is allowed, and it does not reject an order with a fill. -/
def RespectsOrder (l : Ledger) (id : String) (order order' : LiveSimOrder) : Prop :=
  validTransition order.orderStatus order'.orderStatus = true ∧
    (l.hasFill id = true → order'.orderStatus.rejecting = true →
      order'.orderStatus = order.orderStatus)

/-- Every order is kept, and its change respects the table and its fills. -/
def Respects (l l' : Ledger) : Prop :=
  ∀ id order, l.orders.get? id = some order →
    ∃ order', l'.orders.get? id = some order' ∧ l.RespectsOrder id order order'

/-- Both changes that an answer may make respect the table and the fills. -/
def RespectsFills (l : Ledger) : Message → Prop
  | .answer answer =>
      l.Respects (l.audit answer) ∧ (l.audit answer).Respects (l.answer answer)
  | .other _ => True

/-! ## The condition -/

/-- The order may be rejected with this status. -/
def Rejectable (l : Ledger) (id : String) (order : LiveSimOrder) (status : LiveSimOrderStatus) :
    Prop :=
  order.orderStatus = status ∨ order.orderStatus = submitted ∧ l.hasFill id = false

/-- A verdict finds an order that may be rejected so. -/
def ExpectedAudit (l : Ledger) (answer : CommandAnswer) : Prop :=
  ∀ id order status, l.auditedOrder answer = some (id, order) → answer.verdict = some status →
    l.Rejectable id order status

/-- The result that comes with an acknowledgement is expected by its order, and a rejecting
one finds an order that may be rejected. -/
def ExpectedEmbedded (l : Ledger) (answer : CommandAnswer) : Prop :=
  ∀ result, answer.embeddedResult = some result → l.ExpectedResult result ∧
    ∀ id order, l.resultOrder result = some (id, order) → result.ok = false →
      l.Rejectable id order rejected

/-- An answer is expected: its verdict is in the ledger, and its result is in the ledger that
it finds when it is saved, after the audit. -/
def ExpectedAnswer (l : Ledger) : Message → Prop
  | .answer answer => l.ExpectedAudit answer ∧ (l.audit answer).ExpectedEmbedded answer
  | .other _ => True

variable {l : Ledger}

/-! ## One change -/

theorem respectsOrder_refl (id : String) (order : LiveSimOrder) :
    l.RespectsOrder id order order :=
  ⟨validTransition_refl order.orderStatus, fun _ _ => rfl⟩

theorem respects_of_orders_eq {l' : Ledger} (h : l'.orders = l.orders) : l.Respects l' := by
  intro id order hget
  exact ⟨order, by rw [h]; exact hget, respectsOrder_refl id order⟩

variable {id : String} {order order' : LiveSimOrder}

theorem respects_set_iff {l' : Ledger} (hget : l.orders.get? id = some order)
    (hset : l'.orders = l.orders.set id order') :
    l.Respects l' ↔ l.RespectsOrder id order order' := by
  constructor
  · intro h
    obtain ⟨saved, hsaved, hrespects⟩ := h id order hget
    rw [hset, Dict.get?_set_self] at hsaved
    injection hsaved with hsaved
    rw [hsaved]
    exact hrespects
  · intro h other kept hkept
    by_cases hid : other = id
    · subst hid
      rw [hget] at hkept
      injection hkept with hkept
      exact ⟨order', by rw [hset, Dict.get?_set_self], hkept ▸ h⟩
    · exact ⟨kept, by rw [hset, Dict.get?_set_ne _ _ hid]; exact hkept,
        respectsOrder_refl other kept⟩

theorem respectsOrder_rejecting_iff (h : order'.orderStatus.rejecting = true) :
    l.RespectsOrder id order order' ↔ l.Rejectable id order order'.orderStatus := by
  unfold RespectsOrder Rejectable
  rw [validTransition_rejecting h]
  constructor
  · rintro ⟨hsame | hsubmitted, hfill⟩
    · exact Or.inl hsame
    · cases hbooked : l.hasFill id with
      | false => exact Or.inr ⟨hsubmitted, rfl⟩
      | true => exact Or.inl (hfill hbooked h).symm
  · rintro (hsame | ⟨hsubmitted, hbooked⟩)
    · exact ⟨Or.inl hsame, fun _ _ => hsame.symm⟩
    · refine ⟨Or.inr hsubmitted, fun hfill _ => ?_⟩
      rw [hbooked] at hfill
      cases hfill

theorem respectsOrder_other_iff (h : order'.orderStatus.rejecting = false) :
    l.RespectsOrder id order order' ↔
      validTransition order.orderStatus order'.orderStatus = true := by
  refine and_iff_left fun _ hrejecting => ?_
  rw [h] at hrejecting
  cases hrejecting

/-! ## The audit -/

theorem get?_of_auditedOrder {answer : CommandAnswer}
    (h : l.auditedOrder answer = some (id, order)) : l.orders.get? id = some order := by
  unfold auditedOrder at h
  split at h
  · cases h
  · split at h
    · exact get?_of_findByCommandId h
    · split at h
      · obtain ⟨found, hfound, heq⟩ := Option.map_eq_some_iff.mp h
        cases heq
        exact hfound
      · cases h

theorem orders_audit (answer : CommandAnswer) :
    (l.audit answer).orders =
      match l.auditedOrder answer, answer.verdict with
      | some (id, order), some status => l.orders.set id { order with orderStatus := status }
      | _, _ => l.orders := by
  unfold audit auditWrites
  cases l.auditedOrder answer with
  | none => rfl
  | some found =>
    cases answer.verdict with
    | none => rfl
    | some status => rfl

theorem respects_audit_iff (answer : CommandAnswer) :
    l.Respects (l.audit answer) ↔ l.ExpectedAudit answer := by
  have horders := l.orders_audit answer
  unfold ExpectedAudit
  cases haudited : l.auditedOrder answer with
  | none =>
    rw [haudited] at horders
    exact iff_of_true (respects_of_orders_eq horders) fun _ _ _ h => by cases h
  | some found =>
    obtain ⟨id, order⟩ := found
    rw [haudited] at horders
    cases hverdict : answer.verdict with
    | none =>
      rw [hverdict] at horders
      exact iff_of_true (respects_of_orders_eq horders) fun _ _ _ _ h => by cases h
    | some status =>
      rw [hverdict] at horders
      rw [respects_set_iff (get?_of_auditedOrder haudited) horders,
        respectsOrder_rejecting_iff (CommandAnswer.rejecting_of_verdict hverdict)]
      constructor
      · intro h _ _ _ hfound hstatus
        cases hfound
        cases hstatus
        exact h
      · exact fun h => h id order status rfl rfl

/-! ## The result that comes along -/

theorem rejecting_statusAfterResult {result : BrokerOrderResult} :
    (order.statusAfterResult result).rejecting = !result.ok := by
  unfold LiveSimOrder.statusAfterResult
  cases result.ok with
  | false => rfl
  | true =>
    rw [if_pos rfl]
    split <;> rfl

theorem respects_orderResult_iff (result : BrokerOrderResult) :
    l.Respects (l.act (.orderResult result)) ↔ l.ExpectedResult result ∧
      ∀ id order, l.resultOrder result = some (id, order) → result.ok = false →
        l.Rejectable id order rejected := by
  rw [← legal_orderResult_iff]
  show _ ↔ FollowsTable l.orders (l.act (.orderResult result)).orders ∧ _
  have horders := l.orders_act_orderResult result
  cases hfound : l.resultOrder result with
  | none =>
    rw [hfound] at horders
    refine iff_of_true (respects_of_orders_eq horders) ⟨?_, fun _ _ h => by cases h⟩
    rw [horders]
    exact followsTable_refl l.orders
  | some found =>
    obtain ⟨id, order⟩ := found
    have hget := get?_of_resultOrder hfound
    rw [hfound] at horders
    rw [respects_set_iff hget horders, horders, followsTable_set_iff hget]
    have hrejecting : (order.afterResult result).orderStatus.rejecting = !result.ok :=
      rejecting_statusAfterResult
    cases hok : result.ok with
    | true =>
      rw [hok] at hrejecting
      rw [respectsOrder_other_iff hrejecting]
      exact (and_iff_left fun _ _ _ h => by cases h).symm
    | false =>
      rw [hok] at hrejecting
      have hstatus : (order.afterResult result).orderStatus = rejected := by
        show order.statusAfterResult result = rejected
        unfold LiveSimOrder.statusAfterResult
        rw [hok]
        rfl
      constructor
      · intro h
        refine ⟨h.1, fun _ _ hsame _ => ?_⟩
        cases hsame
        rw [← hstatus]
        exact (respectsOrder_rejecting_iff hrejecting).mp h
      · intro h
        rw [respectsOrder_rejecting_iff hrejecting, hstatus]
        exact h.2 id order rfl rfl

theorem respects_saveEmbedded_iff (answer : CommandAnswer) :
    l.Respects (l.saveEmbedded answer) ↔ l.ExpectedEmbedded answer := by
  unfold saveEmbedded ExpectedEmbedded
  cases answer.embeddedResult with
  | none => exact iff_of_true (respects_of_orders_eq rfl) fun _ h => by cases h
  | some result =>
    simp only
    rw [respects_orderResult_iff]
    constructor
    · intro h _ hsame
      cases hsame
      exact h
    · exact fun h => h result rfl

theorem respectsFills_iff (message : Message) :
    l.RespectsFills message ↔ l.ExpectedAnswer message := by
  cases message with
  | answer answer =>
    exact and_congr (respects_audit_iff answer) (respects_saveEmbedded_iff answer)
  | other action => exact Iff.rfl

/-! ## Runs -/

/-- In every history of the ledger, the answers to commands leave orders with fills alone and
only make changes of status that the table allows iff every answer is expected. -/
theorem answers_respect_fills_iff (run : List Message) :
    answered.Guarded RespectsFills {} run ↔ answered.Guarded ExpectedAnswer {} run := by
  apply Machine.guarded_iff_guarded (I := fun _ => True)
  · exact fun _ _ _ _ => trivial
  · exact fun l message _ => respectsFills_iff message
  · trivial

/-! ## Fixed runs -/

def failedAfterFill : List Message :=
  [.other (.saveOrder "O1" { code := "005930", side := "buy", requestedQty := 5,
                             submittedQty := 5, commandId := "C1", orderStatus := .submitted }),
   .other (.orderResult { ok := true, orderNo := "7", commandId := "C1" }),
   .other (.execution { code := "005930", orderNo := "7", side := "buy", quantity := 5,
                        price := 100, filledQuantity := 5, remainingQuantity := 0,
                        executionId := "E1" }),
   .answer { type := .commandAck
             payload := { commandId := "C1", commandType := "send_order", status := "FAILED" }
             known := some { commandType := "send_order", orderMode := some "LIVE_SIM" } }]

/-- The acknowledgement turns the filled order into a failed one. -/
theorem failed_answer_overrides_fill : ¬ answered.Guarded RespectsFills {} failedAfterFill := by
  rintro ⟨-, -, -, ⟨haudit, -⟩, -⟩
  obtain ⟨order', hget, hvalid, -⟩ := haudit "O1" _ rfl
  have hfailed : (((answered.run {} failedAfterFill).orders.get? "O1").map (·.orderStatus)) =
      some failed := by decide +kernel
  have hget' : (answered.run {} failedAfterFill).orders.get? "O1" = some order' := hget
  rw [hget', Option.map_some, Option.some.injEq] at hfailed
  rw [hfailed] at hvalid
  revert hvalid
  decide +kernel

end Ledger
end TradingCore.LiveSim
