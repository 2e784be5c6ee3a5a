import TradingCore.Base.IsoTime
import TradingCore.Broker.CommandQueue
import TradingCore.Broker.WireModels

/-!
# Command records and their two codecs

`CommandRecord` with all its fields (`trading/broker/command_queue.py`): what the queue does to a
record, its `to_dict` and `from_dict`, and the row of `gateway_commands` that
`_upsert_record_no_lock` writes (`trading/broker/command_persistence.py`). The columns that
`from_dict` does not read, `trade_date` and `updated_at`, are left out.
-/

namespace TradingCore.Broker.Wire

open Base

/-- `_format_time` of a time in seconds of UTC. -/
def formatTime (t : Time) : String :=
  let day := (719162 + t / 86400).toNat
  let second := (t % 86400).toNat
  dateText (dateOf day) ++ "T" ++ Text.zfill 2 (toString (second / 3600)) ++ ":" ++
    Text.zfill 2 (toString (second / 60 % 60)) ++ ":" ++ Text.zfill 2 (toString (second % 60)) ++
    "+00:00"

def statusText : CommandStatus → String
  | .queued => "QUEUED"
  | .dispatched => "DISPATCHED"
  | .acked => "ACKED"
  | .rejected => "REJECTED"
  | .failed => "FAILED"
  | .expired => "EXPIRED"
  | .cancelled => "CANCELLED"
  | .skippedReady => "SKIPPED_READY"
  | .skippedOrderPending => "SKIPPED_ORDER_PENDING"
  | .skippedGatewayUnhealthy => "SKIPPED_GATEWAY_UNHEALTHY"
  | .skippedNonBackfillPending => "SKIPPED_NON_BACKFILL_PENDING"
  | .skippedNotObserveMode => "SKIPPED_NOT_OBSERVE_MODE"
  | .skippedRegularSession => "SKIPPED_REGULAR_SESSION"
  | .expiredBeforeDispatch => "EXPIRED_BEFORE_DISPATCH"
  | .duplicatedBucket => "DUPLICATED_BUCKET"

/-- `_coerce_status` of a text. -/
def coerceStatus (text : String) : CommandStatus :=
  ((CommandStatus.queued :: .dispatched :: finishedStatuses).find? fun status =>
    statusText status = text).getD .queued

def priorityText : CommandPriority → String
  | .high => "HIGH"
  | .normal => "NORMAL"
  | .low => "LOW"

/-- `_coerce_priority` of a text. -/
def coercePriority (text : String) : CommandPriority :=
  ([.high, .normal, .low].find? fun priority => priorityText priority = text).getD .normal

def seen (rt : Runtime) : Data → Value
  | .leaf v => v
  | d => .other (rt.repr d) d.truthy

def dedupeKeyForCommand (rt : Runtime) (digest : Broker.GatewayCommand → String)
    (command : GatewayCommand) : String :=
  Broker.dedupeKeyForCommand digest
    { type := command.type
      payload := command.payload.mapVals fun _ => seen rt
      commandId := command.commandId
      requestId := command.requestId
      timestamp := command.timestamp
      source := command.source
      idempotencyKey := command.idempotencyKey }

structure CommandRecord where
  command : GatewayCommand
  status : CommandStatus := .queued
  priority : CommandPriority := .normal
  createdAt : String
  dispatchedAt : String := ""
  ackedAt : String := ""
  finishedAt : String := ""
  expiresAt : String := ""
  attempts : Int := 0
  maxAttempts : Int := 1
  lastError : String := ""
  resultPayload : Fields := Dict.empty
  commandType : String := ""
  commandId : String := ""
  idempotencyKey : String := ""
  dedupeKey : String := ""
  source : String := ""
  metadata : Fields := Dict.empty

namespace CommandRecord

/-! ## The queue -/

def create (rt : Runtime) (digest : Broker.GatewayCommand → String) (command : GatewayCommand)
    (priority : Option CommandPriority) (ttlSec maxAttempts : Option Int) (now : Time)
    (metadata : Fields) : CommandRecord where
  command
  status := .queued
  priority := priority.getD (defaultPriority command.type)
  createdAt := formatTime now
  expiresAt := formatTime (now + max 1 (ttlSec.getD (defaultTtlSec command.type)))
  maxAttempts := max 1 (maxAttempts.getD (defaultMaxAttempts command.type))
  commandType := command.type
  commandId := command.commandId
  idempotencyKey := command.idempotencyKey
  dedupeKey := dedupeKeyForCommand rt digest command
  source := command.source
  metadata

def isExpired (record : CommandRecord) (now : Time) : Bool :=
  match parseIso record.expiresAt with
  | some expiresAt => expiresAt.instant ≤ (719162 * 86400 + now) * 1000000
  | none => false

def finish (record : CommandRecord) (status : CommandStatus) (now : Time) (error : String := "")
    (resultPayload : Option Fields := none) : CommandRecord :=
  { record with
    status
    finishedAt := formatTime now
    lastError := if error ≠ "" then error else record.lastError
    resultPayload := resultPayload.getD record.resultPayload }

/-- What an operation of the queue does to a record. -/
inductive QueueOperation
  | dispatch (now : Time)
  | ack (status : CommandStatus) (resultPayload : Fields) (error : String) (now : Time)
  | fail (error : String) (retryable : Bool) (now : Time)
  | cancel (now : Time)
  | expireOld (now : Time)

/-- The bodies of `CommandQueue.dispatch`, `ack`, `fail`, `cancel` and `expire_old`. -/
def operate (record : CommandRecord) : QueueOperation → CommandRecord
  | .dispatch now =>
      if record.attempts ≥ record.maxAttempts then
        record.finish .failed now "MAX_ATTEMPTS_EXCEEDED"
      else
        { record with
          status := .dispatched
          dispatchedAt := formatTime now
          attempts := record.attempts + 1 }
  | .ack status resultPayload error now =>
      if status = .dispatched then
        { record with
          status := .dispatched
          dispatchedAt :=
            if record.dispatchedAt = "" then formatTime now else record.dispatchedAt
          resultPayload }
      else
        let stamped := if status = .acked then { record with ackedAt := formatTime now } else record
        stamped.finish status now error (some resultPayload)
  | .fail error retryable now =>
      let failed := { record with lastError := error }
      if retryable ∧ record.attempts < record.maxAttempts ∧ ¬ record.isExpired now then
        { failed with status := .queued }
      else failed.finish .failed now error
  | .cancel now =>
      if record.status ≠ .queued then record else record.finish .cancelled now
  | .expireOld now =>
      if record.status ∈ finishedStatuses then record
      else if record.isExpired now then record.finish .expired now "COMMAND_TTL_EXPIRED"
      else record

/-! ## The codecs -/

def toDict (record : CommandRecord) : Fields where
  entries :=
    [("command", .ofFields record.command.toDict), ("status", .str (statusText record.status)),
     ("priority", .str (priorityText record.priority)), ("created_at", .str record.createdAt),
     ("dispatched_at", .str record.dispatchedAt), ("acked_at", .str record.ackedAt),
     ("finished_at", .str record.finishedAt), ("expires_at", .str record.expiresAt),
     ("attempts", .int record.attempts), ("max_attempts", .int record.maxAttempts),
     ("last_error", .str record.lastError), ("result_payload", .ofFields record.resultPayload),
     ("command_type", .str record.commandType), ("command_id", .str record.commandId),
     ("idempotency_key", .str record.idempotencyKey), ("dedupe_key", .str record.dedupeKey),
     ("source", .str record.source), ("metadata", .ofFields record.metadata)]
  nodup := by simp

/-- The command of a record: `command` or `command_json`, put together from the other fields where
neither is there, and with the payload of the record where it has none. -/
def rawCommand (data : Fields) : Fields :=
  let rawCommand := ((data.item "command").or (data.item "command_json")).loadsMapping
  let rawPayload := ((data.item "payload").or (data.item "payload_json")).loadsMapping
  if rawCommand.entries = [] then
    { entries :=
        [("type", ((data.item "command_type").or (data.item "type")).or (.str "")),
         ("command_id", (data.item "command_id").or (.str "")),
         ("request_id", (data.item "request_id").or (.str "")),
         ("source", (data.item "source").or (.str "core")),
         ("idempotency_key", (data.item "idempotency_key").or (.str "")),
         ("payload", .ofFields rawPayload)]
      nodup := by simp }
  else if rawPayload.entries ≠ [] ∧ ¬ (rawCommand.item "payload").truthy then
    rawCommand.set "payload" (.ofFields rawPayload)
  else rawCommand

def fromDict (rt : Runtime) (digest : Broker.GatewayCommand → String) (data : Fields) :
    Option CommandRecord := do
  let command ← GatewayCommand.fromDict rt (rawCommand data)
  some
    { command
      status := coerceStatus (textOr rt data "status" "QUEUED")
      priority := coercePriority (textOr rt data "priority" "NORMAL")
      createdAt := textOr rt data "created_at"
        (if command.timestamp = "" then rt.utcTimestamp else command.timestamp)
      dispatchedAt := textOr rt data "dispatched_at"
      ackedAt := textOr rt data "acked_at"
      finishedAt := textOr rt data "finished_at"
      expiresAt := textOr rt data "expires_at"
      attempts := (data.item "attempts").int?.getD 0
      maxAttempts := max 1 ((data.item "max_attempts").int?.getD 1)
      lastError := textOr rt data "last_error"
      resultPayload :=
        ((data.item "result_payload").or (data.item "result_payload_json")).loadsMapping
      commandType := textOr rt data "command_type" command.type
      commandId := textOr rt data "command_id" command.commandId
      idempotencyKey := textOr rt data "idempotency_key" command.idempotencyKey
      dedupeKey := textOr rt data "dedupe_key" (dedupeKeyForCommand rt digest command)
      source := textOr rt data "source" command.source
      metadata := ((data.item "metadata").or (data.item "metadata_json")).loadsMapping }

/-- The row that `_upsert_record_no_lock` leaves: one that is there keeps its `created_at`. -/
def upsertRow (rt : Runtime) (row : Option Fields) (record : CommandRecord) : Fields where
  entries :=
    [("command_id", .str record.commandId), ("request_id", .str record.command.requestId),
     ("command_type", .str record.commandType), ("status", .str (statusText record.status)),
     ("priority", .str (priorityText record.priority)),
     ("idempotency_key", .str record.idempotencyKey), ("dedupe_key", .str record.dedupeKey),
     ("source", .str record.source), ("payload_json", (Data.ofFields record.command.payload).dumps rt.repr),
     ("command_json", (Data.ofFields record.command.toDict).dumps rt.repr),
     ("metadata_json", (Data.ofFields record.metadata).dumps rt.repr),
     ("result_payload_json", (Data.ofFields record.resultPayload).dumps rt.repr),
     ("last_error", .str record.lastError),
     ("created_at", (row.map fun row => row.item "created_at").getD (.str record.createdAt)),
     ("dispatched_at", .str record.dispatchedAt), ("acked_at", .str record.ackedAt),
     ("finished_at", .str record.finishedAt), ("expires_at", .str record.expiresAt),
     ("attempts", .int record.attempts), ("max_attempts", .int record.maxAttempts)]
  nodup := by simp

/-- The record with the keys of its dictionaries in order. -/
def sortKeys (record : CommandRecord) : CommandRecord :=
  { record with
    command := { record.command with payload := record.command.payload.sortKeys }
    resultPayload := record.resultPayload.sortKeys
    metadata := record.metadata.sortKeys }

def Same (record record' : CommandRecord) : Prop := record.sortKeys = record'.sortKeys

end CommandRecord

end TradingCore.Broker.Wire
