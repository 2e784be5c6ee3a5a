import TradingCore.Broker.Models
import TradingCore.Base.Machine
import Mathlib.Data.List.Sort

/-!
# The in-memory command queue

`trading/broker/command_queue.py`: command records, their statuses, and the
queue that Core dispatches from. A record moves from `queued` over `dispatched`
to one of the finished statuses; timestamps are UTC seconds and `none` stands
for the source's empty text.

The SHA-256 digest that names the dedupe key of an unlisted command type is a
parameter (`digest`), as the queue relies on nothing about it.
-/

namespace TradingCore.Broker

open Base Dict

inductive CommandStatus
  | queued
  | dispatched
  | acked
  | rejected
  | failed
  | expired
  | cancelled
  | skippedReady
  | skippedOrderPending
  | skippedGatewayUnhealthy
  | skippedNonBackfillPending
  | skippedNotObserveMode
  | skippedRegularSession
  | expiredBeforeDispatch
  | duplicatedBucket
deriving DecidableEq

inductive CommandPriority
  | high
  | normal
  | low
deriving DecidableEq

def finishedStatuses : List CommandStatus :=
  [.acked, .rejected, .failed, .expired, .cancelled, .skippedReady,
   .skippedOrderPending, .skippedGatewayUnhealthy, .skippedNonBackfillPending,
   .skippedNotObserveMode, .skippedRegularSession, .expiredBeforeDispatch,
   .duplicatedBucket]

def activeDedupeStatuses : List CommandStatus := [.queued, .dispatched, .acked]

def orderCommandTypes : List String := ["send_order", "cancel_order", "modify_order"]

/-- `COMMAND_CLASS_RANK.get(command_class, 3)`. -/
def commandClassRankOf : String → Nat
  | "ORDER" => 0
  | "BROKER_RECONCILE" => 1
  | "CONTROL" => 2
  | "HYDRATION" => 3
  | "BACKFILL" => 4
  | _ => 3

/-- `DEFAULT_TTL_SEC.get(command_type, 60)`. -/
def defaultTtlSec : String → Int
  | "send_order" => 30
  | "cancel_order" => 30
  | "modify_order" => 30
  | "tr_request" => 20
  | "load_conditions" => 120
  | "login" => 120
  | _ => 60

/-- `DEFAULT_MAX_ATTEMPTS.get(command_type, 2)`. -/
def defaultMaxAttempts : String → Int
  | "send_order" => 1
  | "cancel_order" => 1
  | "modify_order" => 1
  | _ => 2

def defaultPriority (commandType : String) : CommandPriority :=
  if commandType ∈ orderCommandTypes then .high
  else if commandType ∈ ["login", "load_conditions"] then .low
  else .normal

/-- `dedupe_key_for_command`. The last branch hashes the type and the payload. -/
def dedupeKeyForCommand (digest : GatewayCommand → String) (command : GatewayCommand) :
    String :=
  let payload := command.payload
  if command.idempotencyKey ≠ "" then command.idempotencyKey
  else if command.type = "send_order" then
    "order:" ++ payload.text "account" ++ ":" ++ payload.text "code" ++ ":" ++
      payload.text "side" ++ ":" ++ payload.text "quantity" ++ ":" ++
      payload.text "price" ++ ":" ++ payload.text "tag" ++ ":" ++
      (((payload.value "strategy_order_id").or (payload.value "candidate_id")).or (.str "")).text
  else if command.type = "cancel_order" then
    "cancel:" ++ payload.text "account" ++ ":" ++ payload.text "code" ++ ":" ++
      payload.text "original_order_no"
  else if command.type = "modify_order" then
    "modify:" ++ payload.text "account" ++ ":" ++ payload.text "code" ++ ":" ++
      payload.text "original_order_no" ++ ":" ++ payload.text "quantity" ++ ":" ++
      payload.text "price"
  else if command.type = "tr_request" then
    "tr:" ++ payload.text "rq_name" ++ ":" ++ payload.text "tr_code" ++ ":" ++
      payload.text "screen_no" ++ ":" ++
      (if command.requestId ≠ "" then command.requestId else payload.text "request_id")
  else
    command.type ++ ":" ++ digest command

structure CommandRecord where
  command : GatewayCommand
  status : CommandStatus := .queued
  priority : CommandPriority := .normal
  createdAt : Option Time := none
  dispatchedAt : Option Time := none
  ackedAt : Option Time := none
  finishedAt : Option Time := none
  expiresAt : Option Time := none
  attempts : Nat := 0
  maxAttempts : Nat := 1
  lastError : String := ""
  resultPayload : Mapping := empty
  commandType : String := ""
  commandId : String := ""
  idempotencyKey : String := ""
  dedupeKey : String := ""
  source : String := ""
  metadata : Mapping := empty
deriving DecidableEq

structure EnqueueOptions where
  priority : Option CommandPriority := none
  ttlSec : Option Int := none
  maxAttempts : Option Int := none
  metadata : Option Mapping := none

namespace CommandRecord

def create (digest : GatewayCommand → String) (command : GatewayCommand)
    (options : EnqueueOptions) (now : Time) : CommandRecord :=
  let resolvedTtl := options.ttlSec.getD (defaultTtlSec command.type)
  let resolvedAttempts := options.maxAttempts.getD (defaultMaxAttempts command.type)
  { command
    status := .queued
    priority := options.priority.getD (defaultPriority command.type)
    createdAt := some now
    expiresAt := some (now + max 1 resolvedTtl)
    maxAttempts := (max 1 resolvedAttempts).toNat
    commandType := command.type
    commandId := command.commandId
    idempotencyKey := command.idempotencyKey
    dedupeKey := dedupeKeyForCommand digest command
    source := command.source
    metadata := options.metadata.getD empty }

def finished (record : CommandRecord) : Bool := record.status ∈ finishedStatuses

/-- `_is_expired`: an empty `expires_at` does not parse, hence never expires. -/
def isExpired (record : CommandRecord) (now : Time) : Bool :=
  match record.expiresAt with
  | some t => now ≥ t
  | none => false

def active (record : CommandRecord) : Bool := record.status ∈ activeDedupeStatuses

def finish (record : CommandRecord) (status : CommandStatus) (now : Time)
    (error : String := "") (resultPayload : Option Mapping := none) : CommandRecord :=
  { record with
    status
    finishedAt := some now
    lastError := if error ≠ "" then error else record.lastError
    resultPayload := resultPayload.getD record.resultPayload }

/-- The body of `CommandQueue.dispatch` for a record that is handed out. -/
def dispatch (record : CommandRecord) (now : Time) : CommandRecord :=
  { record with
    status := .dispatched
    dispatchedAt := some now
    attempts := record.attempts + 1 }

/-- The body of `CommandQueue.ack`. A `DISPATCHED` ack is the Gateway's
`command_started`. -/
def ack (record : CommandRecord) (status : CommandStatus) (resultPayload : Option Mapping)
    (error : Option String) (now : Time) : CommandRecord :=
  if status = .dispatched then
    { record with
      status := .dispatched
      dispatchedAt := record.dispatchedAt.orElse fun _ => some now
      resultPayload := resultPayload.getD empty }
  else
    let stamped := if status = .acked then { record with ackedAt := some now } else record
    stamped.finish status now (error.getD "") (some (resultPayload.getD empty))

def requeues (record : CommandRecord) (retryable : Bool) (now : Time) : Bool :=
  retryable && record.attempts < record.maxAttempts && !record.isExpired now

/-- The body of `CommandQueue.fail`. -/
def fail (record : CommandRecord) (error : String) (retryable : Bool) (now : Time) :
    CommandRecord :=
  let failed := { record with lastError := error }
  if failed.requeues retryable now then { failed with status := .queued }
  else failed.finish .failed now error

/-- `CommandQueue.expire_old` on one record. -/
def expire (record : CommandRecord) (now : Time) : CommandRecord :=
  if record.finished then record
  else if record.isExpired now then record.finish .expired now "COMMAND_TTL_EXPIRED"
  else record

/-- Does `CommandQueue.prune` drop the record? -/
def prunable (record : CommandRecord) (olderThanSec : Int) (now : Time) : Bool :=
  record.finished &&
    match record.finishedAt with
    | some finishedAt => now ≥ finishedAt + max 0 olderThanSec
    | none => false

end CommandRecord

def commandClassRank (record : CommandRecord) : Nat :=
  let payload := record.command.payload
  let commandClass :=
    (((record.metadata.value "command_class").or (payload.value "command_class")).or
      (.str "")).text.toUpper
  if commandClass ≠ "" then commandClassRankOf commandClass
  else
    let purpose := payload.textOr "purpose"
    if record.commandType ∈ orderCommandTypes then commandClassRankOf "ORDER"
    else if purpose = "broker_reconcile" then commandClassRankOf "BROKER_RECONCILE"
    else if purpose = "candidate_hydration" then commandClassRankOf "HYDRATION"
    else if purpose ≠ "" then commandClassRankOf "BACKFILL"
    else if record.commandType ∈
        ["login", "load_conditions", "send_condition", "register_realtime",
         "remove_realtime", "remove_all_realtime", "stop_condition"] then
      commandClassRankOf "CONTROL"
    else commandClassRankOf ""

structure EnqueueResult where
  accepted : Bool
  record : Option CommandRecord := none
  reason : String := ""
  duplicateOf : String := ""
deriving DecidableEq

/-- `CommandQueue`: `records` is the dict by command id, `sequence` the order of
enqueueing. -/
structure CommandQueue where
  records : Dict String CommandRecord := empty
  sequence : List String := []
  duplicateRejectedCount : Nat := 0
  lastCommandAt : Option Time := none
  lastOrderCommandAt : Option Time := none

namespace CommandQueue

def activeDuplicate (q : CommandQueue) (dedupeKey : String) : Option CommandRecord :=
  if dedupeKey = "" then none
  else q.records.values.find? fun record => record.dedupeKey = dedupeKey && record.active

def enqueue (digest : GatewayCommand → String) (q : CommandQueue) (command : GatewayCommand)
    (options : EnqueueOptions) (now : Time) : CommandQueue × EnqueueResult :=
  if command.commandId = "" then
    (q, { accepted := false, reason := "COMMAND_ID_REQUIRED" })
  else
    let record := CommandRecord.create digest command options now
    match q.activeDuplicate record.dedupeKey with
    | some duplicate =>
        ({ q with duplicateRejectedCount := q.duplicateRejectedCount + 1 },
         { accepted := false, reason := "DUPLICATE_COMMAND"
           duplicateOf := duplicate.commandId, record := some duplicate })
    | none =>
        match q.records.get? record.commandId with
        | some existing =>
            ({ q with duplicateRejectedCount := q.duplicateRejectedCount + 1 },
             { accepted := false, reason := "DUPLICATE_COMMAND_ID"
               duplicateOf := record.commandId, record := some existing })
        | none =>
            ({ q with
               records := q.records.set record.commandId record
               sequence := q.sequence ++ [record.commandId]
               lastCommandAt := record.createdAt
               lastOrderCommandAt :=
                 if record.commandType ∈ orderCommandTypes then record.createdAt
                 else q.lastOrderCommandAt },
             { accepted := true, record := some record })

def stampLe : Option Time → Option Time → Bool
  | none, _ => true
  | some _, none => false
  | some a, some b => a ≤ b

/-- `not last or created_at > last`. -/
def laterThan (createdAt last : Option Time) : Bool :=
  last.isNone || !stampLe createdAt last

def restore (q : CommandQueue) (record : CommandRecord) : CommandQueue :=
  if record.commandId = "" then q
  else
    { q with
      sequence := if q.records.contains record.commandId then q.sequence
        else q.sequence ++ [record.commandId]
      records := q.records.set record.commandId record
      lastCommandAt := if laterThan record.createdAt q.lastCommandAt then record.createdAt
        else q.lastCommandAt
      lastOrderCommandAt :=
        if record.commandType ∈ orderCommandTypes &&
            laterThan record.createdAt q.lastOrderCommandAt then record.createdAt
        else q.lastOrderCommandAt }

def priorityRank : CommandPriority → Nat
  | .high => 0
  | .normal => 1
  | .low => 2

/-- The sort key of `_dispatch_candidates`, compared lexicographically. -/
def dispatchBefore (a b : CommandRecord) : Bool :=
  if priorityRank a.priority ≠ priorityRank b.priority then
    priorityRank a.priority < priorityRank b.priority
  else if commandClassRank a ≠ commandClassRank b then
    commandClassRank a < commandClassRank b
  else stampLe a.createdAt b.createdAt

/-- `_dispatch_candidates`: the queued records, sorted; the sort is stable. -/
def dispatchCandidates (q : CommandQueue) : List CommandRecord :=
  let candidates := (q.sequence.filterMap q.records.get?).filter (·.status = .queued)
  candidates.insertionSort fun a b => dispatchBefore a b

/-- The loop of `dispatch` over the sorted candidates; `selected` collects the
records handed out. -/
def dispatchLoop (limit : Nat) (now : Time) :
    List CommandRecord → Dict String CommandRecord → List CommandRecord →
      Dict String CommandRecord × List CommandRecord
  | [], records, selected => (records, selected)
  | record :: rest, records, selected =>
      if selected.length ≥ limit then (records, selected)
      else if record.attempts ≥ record.maxAttempts then
        let failed := record.finish .failed now "MAX_ATTEMPTS_EXCEEDED"
        dispatchLoop limit now rest (records.set record.commandId failed) selected
      else
        let sent := record.dispatch now
        dispatchLoop limit now rest (records.set record.commandId sent) (selected ++ [sent])

def expireOld (q : CommandQueue) (now : Time) : CommandQueue × Nat :=
  ({ q with records := q.records.mapVals fun _ record => record.expire now },
   q.records.values.countP fun record => !record.finished && record.isExpired now)

def dispatch (q : CommandQueue) (limit : Int) (now : Time) :
    CommandQueue × List GatewayCommand :=
  let q := (q.expireOld now).1
  let loop := dispatchLoop limit.toNat now q.dispatchCandidates q.records []
  ({ q with records := loop.1 }, loop.2.map (·.command))

def ack (q : CommandQueue) (commandId : String) (status : CommandStatus)
    (resultPayload : Option Mapping) (error : Option String) (now : Time) :
    CommandQueue × Bool :=
  match q.records.get? commandId with
  | none => (q, false)
  | some record =>
      ({ q with records := q.records.set commandId (record.ack status resultPayload error now) },
       true)

def fail (q : CommandQueue) (commandId : String) (error : String) (retryable : Bool)
    (now : Time) : CommandQueue × Bool :=
  match q.records.get? commandId with
  | none => (q, false)
  | some record =>
      ({ q with records := q.records.set commandId (record.fail error retryable now) }, true)

def cancel (q : CommandQueue) (commandId : String) (now : Time) : CommandQueue × Bool :=
  match q.records.get? commandId with
  | none => (q, false)
  | some record =>
      if record.status ≠ .queued then (q, false)
      else
        ({ q with records := q.records.set commandId (record.finish .cancelled now) }, true)

def prune (q : CommandQueue) (olderThanSec : Int) (now : Time) : CommandQueue × Nat :=
  let dropped (commandId : String) : Bool :=
    match q.records.get? commandId with
    | none => true
    | some record => record.prunable olderThanSec now
  ({ q with
     records := q.records.filter fun commandId record =>
       !(commandId ∈ q.sequence && record.prunable olderThanSec now)
     sequence := q.sequence.filter fun commandId => !dropped commandId },
   q.sequence.countP fun commandId => q.records.contains commandId && dropped commandId)

/-- `CommandQueue.list` with `include_finished=True` and no status filter. -/
def listAll (q : CommandQueue) (limit : Int) : List CommandRecord :=
  (q.sequence.reverse.filterMap q.records.get?).take limit.toNat

end CommandQueue

/-- The answer to a call on the queue, or on the store around it. -/
inductive Answer
  | enqueued (result : EnqueueResult)
  | commands (commands : List GatewayCommand)
  | handled (ok : Bool)
  | count (n : Nat)
deriving DecidableEq

namespace CommandQueue

/-- A call on the queue. -/
inductive Call
  | enqueue (command : GatewayCommand) (options : EnqueueOptions)
  | dispatch (limit : Int)
  | ack (commandId : String) (status : CommandStatus) (resultPayload : Option Mapping)
      (error : Option String)
  | fail (commandId error : String) (retryable : Bool)
  | cancel (commandId : String)
  | expireOld
  | prune (olderThanSec : Int)

/-- A call and the time it is given, or reads from the clock. -/
structure Step where
  call : Call
  now : Time

def step (digest : GatewayCommand → String) (q : CommandQueue) (s : Step) :
    CommandQueue × Answer :=
  match s.call with
  | .enqueue command options => (q.enqueue digest command options s.now).map id .enqueued
  | .dispatch limit => (q.dispatch limit s.now).map id .commands
  | .ack commandId status resultPayload error =>
      (q.ack commandId status resultPayload error s.now).map id .handled
  | .fail commandId error retryable => (q.fail commandId error retryable s.now).map id .handled
  | .cancel commandId => (q.cancel commandId s.now).map id .handled
  | .expireOld => (q.expireOld s.now).map id .count
  | .prune olderThanSec => (q.prune olderThanSec s.now).map id .count

def machine (digest : GatewayCommand → String) : Machine CommandQueue Step Answer :=
  ⟨step digest⟩

end CommandQueue

end TradingCore.Broker
