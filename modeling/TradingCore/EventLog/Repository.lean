import TradingCore.Base.Machine
import TradingCore.Broker.Models
import Mathlib.Data.List.Sort

/-!
# The gateway event log

The table `gateway_event_log` and the operations of `EventLogRepository`
(`storage/event_log.py`) that append, claim, complete and recover its rows. Rows
are kept by their id, which grows with every insert. Every operation is one
transaction and takes the time of its call as an argument.
-/

namespace TradingCore.EventLog

open Base Broker

inductive ProcessingStatus
  | pending
  | processing
  | retryWait
  | processed
  | ignored
  | failed
  | deadLetter
deriving DecidableEq

open ProcessingStatus

/-- A row of `gateway_event_log`. `nextRetryAt` is `none` for the empty text; of a
claimed row it is the end of the lease. -/
structure EventLogRecord where
  eventId : String
  eventType : String
  dedupeKey : String
  receivedAt : String
  processingStatus : ProcessingStatus
  processingAttempts : Nat := 0
  claimedBy : String := ""
  nextRetryAt : Option Time := none
deriving DecidableEq

structure EventLogConfig where
  enabled : Bool := true
  priceTickEnabled : Bool := false
  heartbeatEnabled : Bool := false
  maxPendingReplay : Int := 500
  processingLeaseSec : Int := 30

structure EventLogRepository where
  config : EventLogConfig := {}
  rows : Dict Nat EventLogRecord := Dict.empty
  nextId : Nat := 1

structure EventLogAppendResult where
  appended : Bool
  record : Option (Nat × EventLogRecord) := none
  duplicate : Bool := false
  ignored : Bool := false
  warning : String := ""
  reason : String := ""

/-- How a caller names a row: by its id (a number or a text of digits) or by its
event id. -/
inductive EventLogId
  | id (n : Nat)
  | eventId (text : String)

namespace EventLogRepository

variable (log : EventLogRepository)

/-! ## Append -/

def findByDedupeKey (key : String) : Option (Nat × EventLogRecord) :=
  log.rows.entries.find? fun e => e.2.dedupeKey = key

/-- `append_gateway_event`. `key` is the dedupe key of the event, and
`serializationError` what `_event_payload_json` reports (empty if nothing). -/
def appendGatewayEvent (event : GatewayEvent) (key serializationError nowText : String) :
    EventLogRepository × EventLogAppendResult :=
  if ¬ log.config.enabled then
    (log, { appended := false, ignored := true, reason := "EVENT_LOG_DISABLED" })
  else if event.type = "price_tick" ∧ ¬ log.config.priceTickEnabled then
    (log, { appended := false, ignored := true, reason := "PRICE_TICK_LOGGING_DISABLED" })
  else if event.type = "heartbeat" ∧ ¬ log.config.heartbeatEnabled then
    (log, { appended := false, ignored := true, reason := "HEARTBEAT_LOGGING_DISABLED" })
  else
    match log.findByDedupeKey key with
    | some duplicate =>
        (log, { appended := false, record := some duplicate, duplicate := true
                reason := "DUPLICATE_DEDUPE_KEY" })
    | none =>
        let row : EventLogRecord :=
          { eventId := event.eventId
            eventType := event.type
            dedupeKey := key
            receivedAt := if event.timestamp ≠ "" then event.timestamp else nowText
            processingStatus := if serializationError ≠ "" then failed else pending }
        ({ log with rows := log.rows.set log.nextId row, nextId := log.nextId + 1 },
          { appended := true, record := some (log.nextId, row), warning := serializationError
            reason := if serializationError ≠ "" then "FAILED" else "PENDING" })

/-! ## Claims -/

/-- The end of a lease that starts at `now`. -/
def leaseUntil (leaseSec : Option Int) (now : Time) : Time :=
  now + max 1 (match leaseSec with
    | some sec => if sec = 0 then log.config.processingLeaseSec else sec
    | none => log.config.processingLeaseSec)

def claimed (row : EventLogRecord) (workerId : String) (leaseEnd : Time) : EventLogRecord :=
  { row with processingStatus := processing
             processingAttempts := row.processingAttempts + 1
             claimedBy := workerId
             nextRetryAt := some leaseEnd }

/-- Is the row pending, or waiting for a retry that is due? -/
def claimable (now : Time) (row : EventLogRecord) : Bool :=
  row.processingStatus = pending ||
    (row.processingStatus = retryWait && (row.nextRetryAt.all fun t => t ≤ now))

/-- The update of one row in `claim_pending_events`: the row is claimed if it is
still claimable. -/
def claimRow (workerId : String) (leaseEnd now : Time)
    (acc : EventLogRepository × List (Nat × EventLogRecord)) (id : Nat) :
    EventLogRepository × List (Nat × EventLogRecord) :=
  match acc.1.rows.get? id with
  | some row =>
      if claimable now row then
        let row' := claimed row workerId leaseEnd
        ({ acc.1 with rows := acc.1.rows.set id row' }, acc.2 ++ [(id, row')])
      else acc
  | none => acc

/-- The ids `claim_pending_events` selects: claimable, of a wanted type, oldest first. -/
def claimCandidates (limit : Int) (eventTypes : List String) (now : Time) : List Nat :=
  let wanted := eventTypes.filter (· ≠ "")
  let due := log.rows.entries.filter fun e =>
    claimable now e.2 && (wanted = [] || e.2.eventType ∈ wanted)
  let ordered := due.insertionSort fun a b =>
    a.2.receivedAt < b.2.receivedAt ∨ a.2.receivedAt = b.2.receivedAt ∧ a.1 ≤ b.1
  (ordered.take (min (max 0 limit) log.config.maxPendingReplay).toNat).map Prod.fst

def claimPendingEvents (limit : Int) (eventTypes : List String) (workerId : String)
    (leaseSec : Option Int) (now : Time) :
    EventLogRepository × List (Nat × EventLogRecord) :=
  (log.claimCandidates limit eventTypes now).foldl
    (claimRow workerId (log.leaseUntil leaseSec now) now) (log, [])

/-- `_get_row_by_identifier_no_lock`: by event id, the newest row. -/
def getRow : EventLogId → Option (Nat × EventLogRecord)
  | .id n => (log.rows.get? n).map fun row => (n, row)
  | .eventId text => (log.rows.entries.filter fun e => e.2.eventId = text).getLast?

def terminal (status : ProcessingStatus) : Bool :=
  status = processed || status = ignored || status = deadLetter

/-- `claim_event`. A row in a terminal status is returned as it is. -/
def claimEvent (id : EventLogId) (workerId : String) (leaseSec : Option Int) (now : Time) :
    EventLogRepository × Option (Nat × EventLogRecord) :=
  match log.getRow id with
  | none => (log, none)
  | some (n, row) =>
      if terminal row.processingStatus then (log, some (n, row))
      else
        let row' := claimed row workerId (log.leaseUntil leaseSec now)
        ({ log with rows := log.rows.set n row' }, some (n, row'))

/-! ## Completion and recovery -/

def refers (id : EventLogId) (n : Nat) (row : EventLogRecord) : Bool :=
  match id with
  | .id m => n = m
  | .eventId text => row.eventId = text

/-- `_update_status_no_lock`. `retryAt` is the new `next_retry_at`, if one is given. -/
def updateStatus (id : EventLogId) (status : ProcessingStatus)
    (retryAt : Option (Option Time) := none) : EventLogRepository :=
  { log with
    rows := log.rows.mapVals fun n row =>
      if refers id n row then
        { row with
          processingStatus := status
          claimedBy := ""
          nextRetryAt :=
            match retryAt with
            | some at' => at'
            | none => if status = processing ∨ status = retryWait then row.nextRetryAt else none }
      else row }

def markProcessed (id : EventLogId) : EventLogRepository := log.updateStatus id processed

def markFailed (id : EventLogId) : EventLogRepository := log.updateStatus id failed

def markProcessingResult (id : EventLogId) (status : ProcessingStatus := processed) :
    EventLogRepository := log.updateStatus id status

def markRetryWait (id : EventLogId) (nextRetryAt : Option Time) : EventLogRepository :=
  log.updateStatus id retryWait (some nextRetryAt)

def markDeadLetter (id : EventLogId) : EventLogRepository := log.updateStatus id deadLetter

def markIgnored (id : EventLogId) : EventLogRepository := log.updateStatus id ignored

def stale (now : Time) (row : EventLogRecord) : Bool :=
  row.processingStatus = processing && row.nextRetryAt.any fun t => t ≤ now

def recoverStaleClaims (now : Time) : EventLogRepository :=
  { log with
    rows := log.rows.mapVals fun _ row =>
      if stale now row then
        { row with processingStatus := pending, claimedBy := "", nextRetryAt := none }
      else row }

end EventLogRepository

end TradingCore.EventLog
