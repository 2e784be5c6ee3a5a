import TradingCore.EventLog.Repository

/-!
# What the operations of the event log do to a row

One specification for each operation of `EventLogRepository`, row by row.
-/

namespace TradingCore.EventLog

open Base Broker ProcessingStatus List

namespace EventLogRepository

variable {log : EventLogRepository}

/-- Ids from `nextId` on are free. -/
def FreshIds (log : EventLogRepository) : Prop := ∀ n, log.nextId ≤ n → log.rows.get? n = none

theorem appendGatewayEvent_cases (log : EventLogRepository) (event : GatewayEvent)
    (key serializationError nowText : String) :
    ((log.appendGatewayEvent event key serializationError nowText).1 = log ∧
        (log.appendGatewayEvent event key serializationError nowText).2.appended = false) ∨
      ∃ row : EventLogRecord, row.eventType = event.type ∧
        row.processingStatus = (if serializationError ≠ "" then failed else pending) ∧
        (log.appendGatewayEvent event key serializationError nowText).1
          = { log with rows := log.rows.set log.nextId row, nextId := log.nextId + 1 } ∧
        (log.appendGatewayEvent event key serializationError nowText).2.appended = true := by
  unfold appendGatewayEvent
  split
  · exact .inl ⟨rfl, rfl⟩
  · split
    · exact .inl ⟨rfl, rfl⟩
    · split
      · exact .inl ⟨rfl, rfl⟩
      · split
        · exact .inl ⟨rfl, rfl⟩
        · exact .inr ⟨_, rfl, rfl, rfl, rfl⟩

theorem getRow_get? {id : EventLogId} {n : Nat} {row : EventLogRecord}
    (h : log.getRow id = some (n, row)) : log.rows.get? n = some row := by
  cases id with
  | id m =>
    obtain ⟨row', hrow, heq⟩ := Option.map_eq_some_iff.mp h
    injection heq with hn hr
    rw [← hn, hrow, hr]
  | eventId text =>
    have hmem := mem_of_getLast? h
    exact Dict.mem_entries_iff.mp (mem_filter.mp hmem).1

/-- `claim_event` claims the row it finds, whatever its owner, unless its status is
terminal. -/
theorem claimEvent_cases (log : EventLogRepository) (id : EventLogId) (workerId : String)
    (leaseSec : Option Int) (now : Time) :
    (log.getRow id = none ∧ log.claimEvent id workerId leaseSec now = (log, none)) ∨
      (∃ r, log.getRow id = some r ∧ terminal r.2.processingStatus = true ∧
        log.claimEvent id workerId leaseSec now = (log, some r)) ∨
      ∃ n row, log.getRow id = some (n, row) ∧ terminal row.processingStatus = false ∧
        log.claimEvent id workerId leaseSec now =
          ({ log with rows := log.rows.set n (claimed row workerId (log.leaseUntil leaseSec now)) },
            some (n, claimed row workerId (log.leaseUntil leaseSec now))) := by
  cases hr : log.getRow id with
  | none => exact .inl ⟨rfl, by simp [claimEvent, hr]⟩
  | some r =>
    obtain ⟨n, row⟩ := r
    cases ht : terminal row.processingStatus with
    | true => exact .inr (.inl ⟨(n, row), rfl, ht, by simp [claimEvent, hr, ht]⟩)
    | false => exact .inr (.inr ⟨n, row, rfl, ht, by simp [claimEvent, hr, ht]⟩)

/-- What a partly done `claim_pending_events` has claimed: claimable rows of the log it
started from, each once. -/
structure Claiming (log : EventLogRepository) (workerId : String) (leaseEnd now : Time)
    (acc : EventLogRepository × List (Nat × EventLogRecord)) : Prop where
  rows : ∀ n, acc.1.rows.get? n =
    match acc.2.find? fun r => r.1 = n with
    | some r => some r.2
    | none => log.rows.get? n
  records : ∀ r ∈ acc.2, ∃ row, log.rows.get? r.1 = some row ∧ claimable now row = true ∧
    r.2 = claimed row workerId leaseEnd
  nextId : acc.1.nextId = log.nextId

theorem not_claimable_claimed (row : EventLogRecord) (workerId : String) (leaseEnd now : Time) :
    claimable now (claimed row workerId leaseEnd) = false := by
  simp [claimable, claimed]

theorem claimRow_claiming {workerId : String} {leaseEnd now : Time}
    {acc : EventLogRepository × List (Nat × EventLogRecord)}
    (h : Claiming log workerId leaseEnd now acc) (id : Nat) :
    Claiming log workerId leaseEnd now (claimRow workerId leaseEnd now acc id) := by
  cases hr : acc.1.rows.get? id with
  | none =>
    have hsame : claimRow workerId leaseEnd now acc id = acc := by simp [claimRow, hr]
    rw [hsame]
    exact h
  | some row =>
    cases hc : claimable now row with
    | false =>
      have hsame : claimRow workerId leaseEnd now acc id = acc := by simp [claimRow, hr, hc]
      rw [hsame]
      exact h
    | true =>
      have hnext : claimRow workerId leaseEnd now acc id =
          ({ acc.1 with rows := acc.1.rows.set id (claimed row workerId leaseEnd) },
            acc.2 ++ [(id, claimed row workerId leaseEnd)]) := by
        simp [claimRow, hr, hc]
      -- a row that this call has claimed already is no longer claimable
      have hnew : acc.2.find? (fun r => r.1 = id) = none := by
        cases hf : acc.2.find? fun r => decide (r.1 = id) with
        | none => rfl
        | some r =>
          have hrow := h.rows id
          rw [hf, hr] at hrow
          obtain ⟨row', -, -, hclaimed⟩ := h.records r (mem_of_find?_eq_some hf)
          injection hrow with hrow
          rw [hrow, hclaimed, not_claimable_claimed] at hc
          cases hc
      have hold : log.rows.get? id = some row := by
        have hrow := h.rows id
        rw [hnew, hr] at hrow
        exact hrow.symm
      rw [hnext]
      refine ⟨fun n => ?_, fun r hmem => ?_, h.nextId⟩
      · show (acc.1.rows.set id _).get? n = _
        rw [Dict.get?_set, find?_append, h.rows n]
        by_cases hn : n = id
        · subst hn
          rw [hnew]
          simp
        · rw [if_neg hn]
          cases hf : acc.2.find? fun r => decide (r.1 = n) with
          | some r => simp
          | none => simp [Ne.symm hn]
      · rcases mem_append.mp hmem with h' | h'
        · exact h.records r h'
        · rw [mem_singleton.mp h']
          exact ⟨row, hold, hc, rfl⟩

/-- `claim_pending_events` claims claimable rows only, each of them once. -/
theorem claimPendingEvents_claiming (log : EventLogRepository) (limit : Int)
    (eventTypes : List String) (workerId : String) (leaseSec : Option Int) (now : Time) :
    Claiming log workerId (log.leaseUntil leaseSec now) now
      (log.claimPendingEvents limit eventTypes workerId leaseSec now) := by
  unfold claimPendingEvents
  have hstart : Claiming log workerId (log.leaseUntil leaseSec now) now (log, []) :=
    ⟨fun _ => rfl, fun r hr => absurd hr not_mem_nil, rfl⟩
  generalize log.claimCandidates limit eventTypes now = ids
  generalize (log, ([] : List (Nat × EventLogRecord))) = acc at hstart
  induction ids generalizing acc with
  | nil => exact hstart
  | cons id rest ih => exact ih _ (claimRow_claiming hstart id)

def updated (row : EventLogRecord) (status : ProcessingStatus) (retryAt : Option (Option Time)) :
    EventLogRecord :=
  { row with
    processingStatus := status
    claimedBy := ""
    nextRetryAt :=
      match retryAt with
      | some at' => at'
      | none => if status = processing ∨ status = retryWait then row.nextRetryAt else none }

theorem updateStatus_get? (log : EventLogRepository) (id : EventLogId) (status : ProcessingStatus)
    (retryAt : Option (Option Time)) (n : Nat) :
    (log.updateStatus id status retryAt).rows.get? n =
      (log.rows.get? n).map fun row =>
        if refers id n row then updated row status retryAt else row := by
  show (log.rows.mapVals _).get? n = _
  rw [Dict.get?_mapVals]
  rfl

theorem recoverStaleClaims_get? (log : EventLogRepository) (now : Time) (n : Nat) :
    (log.recoverStaleClaims now).rows.get? n =
      (log.rows.get? n).map fun row =>
        if stale now row then
          { row with processingStatus := pending, claimedBy := "", nextRetryAt := none }
        else row := by
  show (log.rows.mapVals _).get? n = _
  rw [Dict.get?_mapVals]

end EventLogRepository

end TradingCore.EventLog
