import TradingCore.EventLog.RepositoryLemmas

/-!
# Workers on the event log

Any number of workers claim events, complete what they were handed and recover
stale claims, in any order (`GatewayEventDispatcher` in
`trading_app/gateway_event_consumer.py` is one of them). A worker that crashes
makes no further call.

Besides the log, the world keeps what the workers know: who was handed which event,
and which claim every event is under. A claim ends when its worker completes the
event, when its lease has run out at a recovery, and when the event is handed out
again.
-/

namespace TradingCore.EventLog

open Base Broker ProcessingStatus EventLogRepository

/-- A claim of an event: the worker it was handed to, and until when. -/
structure Claim where
  worker : String
  leaseEnd : Time
deriving DecidableEq

def EventLogRecord.lease (row : EventLogRecord) : Option Claim :=
  if row.processingStatus = processing then row.nextRetryAt.map fun t => ⟨row.claimedBy, t⟩
  else none

/-- How a worker completes an event. -/
inductive Outcome
  | processed
  | ignored
  | failed
  | deadLetter
  | retryWait (nextRetryAt : Option Time)

def Outcome.mark (log : EventLogRepository) (id : EventLogId) : Outcome → EventLogRepository
  | .processed => log.markProcessingResult id
  | .ignored => log.markIgnored id
  | .failed => log.markFailed id
  | .deadLetter => log.markDeadLetter id
  | .retryWait nextRetryAt => log.markRetryWait id nextRetryAt

def Outcome.status : Outcome → ProcessingStatus
  | .processed => ProcessingStatus.processed
  | .ignored => ProcessingStatus.ignored
  | .failed => ProcessingStatus.failed
  | .deadLetter => ProcessingStatus.deadLetter
  | .retryWait _ => ProcessingStatus.retryWait

structure World where
  log : EventLogRepository
  /-- Every hand-out of an event to a worker, the latest first. -/
  handed : List (Nat × String) := []
  /-- The claim every event is under. -/
  claim : Nat → Option Claim := fun _ => none

/-- A call of a worker, or of the gateway that appends. -/
inductive Call
  | append (event : GatewayEvent) (key serializationError nowText : String)
  | claimEvent (id : EventLogId) (workerId : String) (leaseSec : Option Int) (now : Time)
  | claimPendingEvents (limit : Int) (eventTypes : List String) (workerId : String)
      (leaseSec : Option Int) (now : Time)
  | finish (workerId : String) (id : Nat) (outcome : Outcome)
  | recoverStaleClaims (now : Time)

namespace World

/-- The records that are handed over by a call: those it returns as claimed. -/
def handedBy (w : World) : Call → List (Nat × EventLogRecord)
  | .claimEvent id workerId leaseSec now =>
      (w.log.claimEvent id workerId leaseSec now).2.toList.filter
        fun r => r.2.processingStatus = processing
  | .claimPendingEvents limit eventTypes workerId leaseSec now =>
      (w.log.claimPendingEvents limit eventTypes workerId leaseSec now).2
  | _ => []

/-- The world after `records` were handed to a worker. -/
def handOut (w : World) (log : EventLogRepository) (workerId : String)
    (records : List (Nat × EventLogRecord)) : World where
  log := log
  handed := records.map (fun r => (r.1, workerId)) ++ w.handed
  claim := fun n =>
    match records.find? fun r => r.1 = n with
    | some r => r.2.lease
    | none => w.claim n

def finish (w : World) (workerId : String) (id : Nat) (outcome : Outcome) : World :=
  if (id, workerId) ∈ w.handed then
    { w with
      log := outcome.mark w.log (.id id)
      claim := Function.update w.claim id ((w.claim id).filter fun cl => cl.worker ≠ workerId) }
  else w

def act (w : World) : Call → World
  | .append event key serializationError nowText =>
      { w with log := (w.log.appendGatewayEvent event key serializationError nowText).1 }
  | .claimEvent id workerId leaseSec now =>
      w.handOut (w.log.claimEvent id workerId leaseSec now).1 workerId
        (w.handedBy (.claimEvent id workerId leaseSec now))
  | .claimPendingEvents limit eventTypes workerId leaseSec now =>
      w.handOut (w.log.claimPendingEvents limit eventTypes workerId leaseSec now).1 workerId
        (w.handedBy (.claimPendingEvents limit eventTypes workerId leaseSec now))
  | .finish workerId id outcome => w.finish workerId id outcome
  | .recoverStaleClaims now =>
      { w with log := w.log.recoverStaleClaims now
               claim := fun n => (w.claim n).filter fun cl => now < cl.leaseEnd }

def machine : Machine World Call Unit := ⟨fun w c => (w.act c, ())⟩

@[simp] theorem machine_next (w : World) (c : Call) : machine.next w c = w.act c := rfl

def init (config : EventLogConfig) : World := { log := { config } }

/-! ## What the calls do to the rows -/

variable {w : World}

/-- What a claiming call does to the log: the records it hands over are in the rows
as claimed, everything else is as before. -/
structure HandsOut (w : World) (log : EventLogRepository) (workerId : String)
    (records : List (Nat × EventLogRecord)) : Prop where
  rows : ∀ n, log.rows.get? n =
    match records.find? fun r => r.1 = n with
    | some r => some r.2
    | none => w.log.rows.get? n
  records : ∀ r ∈ records, ∃ row leaseEnd, w.log.rows.get? r.1 = some row ∧
    r.2 = claimed row workerId leaseEnd
  nextId : log.nextId = w.log.nextId

theorem claimPendingEvents_handsOut (limit : Int) (eventTypes : List String) (workerId : String)
    (leaseSec : Option Int) (now : Time) :
    HandsOut w (w.log.claimPendingEvents limit eventTypes workerId leaseSec now).1 workerId
      (w.handedBy (.claimPendingEvents limit eventTypes workerId leaseSec now)) := by
  have hc := claimPendingEvents_claiming w.log limit eventTypes workerId leaseSec now
  refine ⟨hc.rows, fun r hr => ?_, hc.nextId⟩
  obtain ⟨row, hrow, -, hclaimed⟩ := hc.records r hr
  exact ⟨row, _, hrow, hclaimed⟩

theorem claimEvent_handsOut (id : EventLogId) (workerId : String) (leaseSec : Option Int)
    (now : Time) :
    HandsOut w (w.log.claimEvent id workerId leaseSec now).1 workerId
      (w.handedBy (.claimEvent id workerId leaseSec now)) := by
  rcases claimEvent_cases w.log id workerId leaseSec now with
    ⟨-, heq⟩ | ⟨r, -, hterm, heq⟩ | ⟨n, row, hrow, -, heq⟩
  · simp only [handedBy, heq]
    exact ⟨fun _ => rfl, fun r hr => absurd hr List.not_mem_nil, rfl⟩
  · have hstatus : r.2.processingStatus ≠ processing := by
      intro hp
      rw [hp] at hterm
      cases hterm
    have hnone : [r].filter (fun r => decide (r.2.processingStatus = processing)) = [] := by
      simp [hstatus]
    simp only [handedBy, heq, Option.toList_some, hnone]
    exact ⟨fun _ => rfl, fun r hr => absurd hr List.not_mem_nil, rfl⟩
  · have hone : [(n, claimed row workerId (w.log.leaseUntil leaseSec now))].filter
        (fun r => decide (r.2.processingStatus = processing))
          = [(n, claimed row workerId (w.log.leaseUntil leaseSec now))] := by
      simp [claimed]
    simp only [handedBy, heq, Option.toList_some, hone]
    refine ⟨fun m => ?_, fun r hr => ?_, rfl⟩
    · show (w.log.rows.set n _).get? m = _
      rw [Dict.get?_set]
      by_cases hm : m = n
      · simp [hm]
      · simp [hm, Ne.symm hm]
    · rw [List.mem_singleton.mp hr]
      exact ⟨row, _, getRow_get? hrow, rfl⟩

theorem mark_get? (outcome : Outcome) (log : EventLogRepository) (id : Nat) :
    ∃ retryAt, ∀ n, (outcome.mark log (.id id)).rows.get? n =
      (log.rows.get? n).map fun row =>
        if n = id then updated row outcome.status retryAt else row := by
  have hupdate : ∀ status retryAt n, (log.updateStatus (.id id) status retryAt).rows.get? n =
      (log.rows.get? n).map fun row => if n = id then updated row status retryAt else row := by
    intro status retryAt n
    rw [updateStatus_get?]
    simp [refers]
  cases outcome with
  | retryWait nextRetryAt => exact ⟨some nextRetryAt, hupdate retryWait (some nextRetryAt)⟩
  | processed => exact ⟨none, hupdate ProcessingStatus.processed none⟩
  | ignored => exact ⟨none, hupdate ProcessingStatus.ignored none⟩
  | failed => exact ⟨none, hupdate ProcessingStatus.failed none⟩
  | deadLetter => exact ⟨none, hupdate ProcessingStatus.deadLetter none⟩

theorem mark_nextId (outcome : Outcome) (log : EventLogRepository) (id : EventLogId) :
    (outcome.mark log id).nextId = log.nextId := by
  cases outcome <;> rfl

theorem HandsOut.freshIds {log : EventLogRepository} {workerId : String}
    {records : List (Nat × EventLogRecord)} (hout : HandsOut w log workerId records)
    (h : w.log.FreshIds) : log.FreshIds := by
  intro n hn
  rw [hout.nextId] at hn
  rw [hout.rows n]
  cases hf : records.find? fun r => decide (r.1 = n) with
  | some r =>
    obtain ⟨row, -, hrow, -⟩ := hout.records r (List.mem_of_find?_eq_some hf)
    have hid : r.1 = n := by simpa using List.find?_some hf
    rw [hid, h n hn] at hrow
    cases hrow
  | none => exact h n hn

theorem act_freshIds {c : Call} (h : w.log.FreshIds) : (w.act c).log.FreshIds := by
  cases c with
  | append event key serializationError nowText =>
    show (w.log.appendGatewayEvent event key serializationError nowText).1.FreshIds
    rcases appendGatewayEvent_cases w.log event key serializationError nowText with
      ⟨hsame, -⟩ | ⟨row, -, -, hnext, -⟩
    · rw [hsame]
      exact h
    · rw [hnext]
      intro n hn
      have hlt : w.log.nextId + 1 ≤ n := hn
      show (w.log.rows.set w.log.nextId row).get? n = none
      rw [Dict.get?_set, if_neg (by omega)]
      exact h n (by omega)
  | claimEvent id workerId leaseSec now =>
    exact (claimEvent_handsOut id workerId leaseSec now).freshIds h
  | claimPendingEvents limit eventTypes workerId leaseSec now =>
    exact (claimPendingEvents_handsOut limit eventTypes workerId leaseSec now).freshIds h
  | finish workerId id outcome =>
    show (w.finish workerId id outcome).log.FreshIds
    unfold finish
    split
    · obtain ⟨retryAt, hmark⟩ := mark_get? outcome w.log id
      intro n hn
      have hn' : (outcome.mark w.log (.id id)).nextId ≤ n := hn
      rw [mark_nextId] at hn'
      show (outcome.mark w.log (.id id)).rows.get? n = none
      rw [hmark n, h n hn']
      rfl
    · exact h
  | recoverStaleClaims now =>
    intro n hn
    show (w.log.recoverStaleClaims now).rows.get? n = none
    rw [recoverStaleClaims_get?, h n hn]
    rfl

/-! ## What leases promise -/

def lastWorker (w : World) (n : Nat) : Option String :=
  (w.handed.find? fun h => h.1 = n).map Prod.snd

def TakenOver (w : World) (workerId : String) (n : Nat) : Prop :=
  (n, workerId) ∈ w.handed ∧ w.lastWorker n ≠ some workerId

def status (w : World) (n : Nat) : Option ProcessingStatus :=
  (w.log.rows.get? n).map EventLogRecord.processingStatus

/-- No event is handed over while another worker's claim of it is unexpired, and a
worker whose claim was taken over leaves the status of the event alone. -/
def LeaseSafe (w : World) (c : Call) : Prop :=
  match c with
  | .claimEvent _ workerId _ now | .claimPendingEvents _ _ workerId _ now =>
      ∀ r ∈ w.handedBy c, ∀ cl, w.claim r.1 = some cl → now < cl.leaseEnd → cl.worker = workerId
  | .finish workerId n _ => w.TakenOver workerId n → (w.act c).status n = w.status n
  | _ => True

/-- The calls that the code gets right: `claim_event` names no event that another
worker has in `PROCESSING` with an unexpired lease, and a worker whose claim was taken
over asks for no other status than the event has. -/
def Disciplined (w : World) : Call → Prop
  | .claimEvent id workerId _ now =>
      ∀ r, w.log.getRow id = some r → ∀ cl, r.2.lease = some cl → now < cl.leaseEnd →
        cl.worker = workerId
  | .finish workerId n outcome =>
      w.TakenOver workerId n → ∀ row, w.log.rows.get? n = some row →
        row.processingStatus = outcome.status
  | _ => True

end World

end TradingCore.EventLog
