import Mathlib.Algebra.Group.Nat.Defs
import TradingCore.EventLog.Workers

/-!
# The order-event consumer and its readiness

How `GatewayEventDispatcher` closes the events it processed, and what it reports
about the backlog of order-critical events (`trading_app/gateway_event_consumer.py`,
`critical_backlog_snapshot` in `storage/event_log.py`). Durations are in microseconds.
-/

namespace TradingCore.EventLog

open Base Broker ProcessingStatus

/-- The fields of `GatewayEventConsumerConfig` that completion and readiness read. -/
structure GatewayEventConsumerConfig where
  orderEnabled : Bool := true
  maxAttempts : Nat := 5
  retryBase : Nat := 1000000
  retryMax : Nat := 30000000
  pendingMaxAgeSec : Nat := 10

/-- `REPLAYABLE_GATEWAY_EVENT_TYPES`: the order-critical events. -/
def replayableGatewayEventTypes : List String :=
  ["command_ack", "command_failed", "command_timeout", "command_expired", "order_ack",
   "order_reject", "order_fill", "execution", "execution_event", "fill", "cancel_ack",
   "order_cancel", "order_cancelled", "order_status_snapshot", "balance_snapshot",
   "position_snapshot", "kiwoom_order_chejan", "kiwoom_balance_chejan", "kiwoom_special_chejan"]

def EventLogRecord.critical (row : EventLogRecord) : Bool :=
  row.eventType ∈ replayableGatewayEventTypes

/-! ## Closing an event -/

/-- The statuses of an `EventProcessingResult`. -/
inductive ResultStatus
  | applied
  | duplicateAlreadyApplied
  | processed
  | ignored
  | reconcileRequired
  | failed

/-- `_finish_record`: how an event with `attempts` attempts is closed after a result, at
`nowMicros`. -/
def finishRecord (config : GatewayEventConsumerConfig) (attempts : Nat) (status : ResultStatus)
    (retryable : Bool) (nowMicros : Int) : Outcome :=
  match status with
  | .applied | .duplicateAlreadyApplied | .processed => .processed
  | .ignored => .ignored
  | .reconcileRequired => .processed
  | .failed =>
      if ¬ retryable ∨ config.maxAttempts ≤ attempts then .deadLetter
      else
        let delay := min config.retryMax (config.retryBase * 2 ^ (attempts - 1))
        .retryWait (some ((nowMicros + delay) / 1000000))

/-! ## The backlog -/

/-- `critical_backlog_snapshot`. -/
structure CriticalBacklog where
  pendingEventCount : Nat
  processingCount : Nat
  retryWaitCount : Nat
  failedCount : Nat
  deadLetterCount : Nat
  ignoredCount : Nat
  processedCount : Nat
  oldestPendingAt : String
  orderLifecycleReady : Bool

namespace EventLogRepository

def criticalRows (log : EventLogRepository) (status : ProcessingStatus) : List EventLogRecord :=
  log.rows.values.filter fun row => row.critical && row.processingStatus = status

/-- The rows that count for `oldest_pending_at`. -/
def waitingRows (log : EventLogRepository) : List EventLogRecord :=
  log.rows.values.filter fun row => row.critical &&
    (row.processingStatus = pending || row.processingStatus = processing ||
      row.processingStatus = retryWait)

def criticalBacklogSnapshot (log : EventLogRepository) : CriticalBacklog where
  pendingEventCount := (log.criticalRows pending).length
  processingCount := (log.criticalRows processing).length
  retryWaitCount := (log.criticalRows retryWait).length
  failedCount := (log.criticalRows failed).length
  deadLetterCount := (log.criticalRows deadLetter).length
  ignoredCount := (log.criticalRows ignored).length
  processedCount := (log.criticalRows processed).length
  oldestPendingAt :=
    ((log.waitingRows.map EventLogRecord.receivedAt).insertionSort (· ≤ ·)).headD ""
  orderLifecycleReady :=
    (log.criticalRows pending).length = 0 && (log.criticalRows processing).length = 0 &&
      (log.criticalRows retryWait).length = 0 && (log.criticalRows deadLetter).length = 0

end EventLogRepository

/-- What `consumer_health` says about the order lifecycle. -/
structure EventConsumerHealthSnapshot where
  status : String
  consumerEnabled : Bool
  orderLifecycleReady : Bool
  pendingEventCount : Nat
  retryWaitCount : Nat
  failedCount : Nat
  deadLetterCount : Nat
  oldestPendingAge : Int
  warnings : List String

/-- `_age_sec`: the age of a timestamp. `elapsed` is the time since it by the clock of
the call, `none` if it does not parse. -/
def age (elapsed : String → Option Int) (timestamp : String) : Int :=
  if timestamp = "" then 0 else max 0 ((elapsed timestamp).getD 0)

def consumerHealth (config : GatewayEventConsumerConfig) (elapsed : String → Option Int)
    (log : EventLogRepository) : EventConsumerHealthSnapshot :=
  let backlog := log.criticalBacklogSnapshot
  let oldestAge := age elapsed backlog.oldestPendingAt
  let warnings :=
    (if 0 < backlog.deadLetterCount then ["ORDER_EVENT_DEAD_LETTER_PRESENT"] else []) ++
    (if 0 < backlog.pendingEventCount then ["ORDER_EVENT_REPLAY_PENDING"] else []) ++
    (if (config.pendingMaxAgeSec : Int) * 1000000 < oldestAge
      then ["ORDER_EVENT_PENDING_AGE_EXCEEDED"] else [])
  let ready := backlog.orderLifecycleReady && warnings.isEmpty
  { status := if ready then "READY" else "DEGRADED"
    consumerEnabled := config.orderEnabled
    orderLifecycleReady := ready
    pendingEventCount := backlog.pendingEventCount
    retryWaitCount := backlog.retryWaitCount
    failedCount := backlog.failedCount
    deadLetterCount := backlog.deadLetterCount
    oldestPendingAge := oldestAge
    warnings }

end TradingCore.EventLog
