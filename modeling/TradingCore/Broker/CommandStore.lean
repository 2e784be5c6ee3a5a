import TradingCore.Broker.CommandQueue

/-!
# The SQLite command store

`trading/broker/command_persistence.py`: the tables `gateway_commands` (one row
a command), `gateway_command_dedupe_keys` (the retained dedupe ledger) and
`gateway_command_events`, and the statements that Core runs on them. A table
with a primary key is a dictionary on it. A row of `gateway_commands` holds the
columns of its record; the JSON text columns stand for the values they encode.

`wall` is the store's own clock (`_now()`), `now` a time passed by the caller.
-/

namespace TradingCore.Broker

open Base

def retainedControlDedupeCommandTypes : List String :=
  ["register_realtime", "remove_all_realtime"]

/-- A row of `gateway_commands`: the record's columns and `updated_at`. -/
structure CommandRow where
  record : CommandRecord
  updatedAt : Time

/-- A row of `gateway_command_dedupe_keys`, without its key column. -/
structure DedupeRow where
  commandId : String
  commandType : String
  status : CommandStatus
  createdAt : Option Time
  updatedAt : Time
  expiresAt : Option Time

/-- A row of `gateway_command_events`. -/
structure CommandEvent where
  commandId : String
  eventType : String
  statusFrom : Option CommandStatus := none
  statusTo : Option CommandStatus := none
  message : String := ""
  createdAt : Option Time

structure SQLiteCommandStore where
  dedupeRetentionSec : Int := 86400
  gatewayCommands : Dict String CommandRow := Dict.empty
  dedupeKeys : Dict String DedupeRow := Dict.empty
  events : List CommandEvent := []

namespace SQLiteCommandStore

/-- `_append_event_no_lock`. -/
def appendEvent (s : SQLiteCommandStore) (event : CommandEvent) : SQLiteCommandStore :=
  { s with events := s.events ++ [event] }

def getRecord (s : SQLiteCommandStore) (commandId : String) : Option CommandRecord :=
  (s.gatewayCommands.get? commandId).map (·.record)

/-- `_upsert_record_no_lock`: a conflicting row keeps its `created_at`. -/
def upsertRow (s : SQLiteCommandStore) (record : CommandRecord) (wall : Time) :
    SQLiteCommandStore :=
  let createdAt := match s.gatewayCommands.get? record.commandId with
    | some row => row.record.createdAt
    | none => record.createdAt
  { s with
    gatewayCommands := s.gatewayCommands.set record.commandId
      { record := { record with createdAt }, updatedAt := wall } }

def retainsDedupe (commandType : String) : Bool :=
  commandType ∈ orderCommandTypes || commandType ∈ retainedControlDedupeCommandTypes

def dedupeExpiresAt (record : CommandRecord) (retentionSec : Int) (wall : Time) : Time :=
  if retainsDedupe record.commandType then wall + max 1 retentionSec
  else record.expiresAt.getD (wall + max 1 retentionSec)

/-- `_upsert_dedupe_no_lock`: a conflicting row keeps its `created_at`. -/
def upsertDedupe (s : SQLiteCommandStore) (record : CommandRecord) (wall : Time) :
    SQLiteCommandStore :=
  if record.dedupeKey = "" then s
  else
    let createdAt := match s.dedupeKeys.get? record.dedupeKey with
      | some row => row.createdAt
      | none => record.createdAt
    { s with
      dedupeKeys := s.dedupeKeys.set record.dedupeKey
        { commandId := record.commandId
          commandType := record.commandType
          status := record.status
          createdAt
          updatedAt := wall
          expiresAt := some (dedupeExpiresAt record s.dedupeRetentionSec wall) } }

def upsertRecord (s : SQLiteCommandStore) (record : CommandRecord) (wall : Time) :
    SQLiteCommandStore :=
  (s.upsertRow record wall).upsertDedupe record wall

/-- Is a ledger row still retained at `now`? -/
def DedupeRow.retainedAt (row : DedupeRow) (now : Time) : Bool :=
  match row.expiresAt with
  | some t => t > now
  | none => true

/-- `_retained_dedupe_no_lock`. -/
def retainedDedupe (s : SQLiteCommandStore) (dedupeKey : String) (now : Time) :
    Option DedupeRow :=
  if dedupeKey = "" then none
  else (s.dedupeKeys.get? dedupeKey).filter fun row => DedupeRow.retainedAt row now

def enqueueRecord (s : SQLiteCommandStore) (record : CommandRecord) (wall : Time) :
    SQLiteCommandStore × EnqueueResult :=
  if record.commandId = "" then
    (s, { accepted := false, reason := "COMMAND_ID_REQUIRED" })
  else if s.gatewayCommands.contains record.commandId then
    (s.appendEvent
      { commandId := record.commandId, eventType := "duplicate_rejected"
        statusTo := some .rejected, message := "duplicate of " ++ record.commandId
        createdAt := some wall },
     { accepted := false, reason := "DUPLICATE_COMMAND_ID"
       duplicateOf := record.commandId, record := some record })
  else
    match (s.retainedDedupe record.dedupeKey wall).filter
        (fun retained => retained.commandId ≠ record.commandId) with
    | some retained =>
        (s.appendEvent
          { commandId := record.commandId, eventType := "duplicate_rejected"
            statusTo := some .rejected, message := "duplicate of " ++ retained.commandId
            createdAt := some wall },
         { accepted := false, reason := "DUPLICATE_COMMAND"
           duplicateOf := retained.commandId, record := s.getRecord retained.commandId })
    | none =>
        ((s.upsertRecord record wall).appendEvent
          { commandId := record.commandId, eventType := "enqueue"
            statusTo := some record.status, message := "command enqueued"
            createdAt := record.createdAt },
         { accepted := true, record := some record })

/-- The `UPDATE gateway_commands` of `_update_status_no_lock` on its row. -/
def updatedRecord (record : CommandRecord) (status : CommandStatus)
    (resultPayload : Option Mapping) (error : Option String) (current : Time) :
    CommandRecord :=
  { record with
    status
    resultPayload := resultPayload.getD record.resultPayload
    lastError := if error.getD "" ≠ "" then error.getD "" else record.lastError
    dispatchedAt := if status = .dispatched then
        record.dispatchedAt.orElse fun _ => some current else record.dispatchedAt
    ackedAt := if status = .acked then some current else record.ackedAt
    finishedAt := if status ∈ finishedStatuses then some current else record.finishedAt
    attempts := if status = .dispatched then max 1 record.attempts else record.attempts }

/-- `_update_status_no_lock`. -/
def updateStatus (s : SQLiteCommandStore) (commandId : String) (status : CommandStatus)
    (resultPayload : Option Mapping) (error : Option String) (eventType message : String)
    (current : Time) : SQLiteCommandStore × Bool :=
  match s.gatewayCommands.get? commandId with
  | none =>
      (s.appendEvent
        { commandId, eventType, statusTo := some status
          message := if message ≠ "" then message else error.getD ""
          createdAt := some current },
       false)
  | some row =>
      let record := updatedRecord row.record status resultPayload error current
      let s' : SQLiteCommandStore :=
        { s with
          gatewayCommands := s.gatewayCommands.set commandId { record, updatedAt := current }
          dedupeKeys := s.dedupeKeys.mapVals fun _ dedupe =>
            if dedupe.commandId = commandId then
              { dedupe with status, updatedAt := current }
            else dedupe }
      (s'.appendEvent
        { commandId, eventType, statusFrom := some row.record.status
          statusTo := some status
          message := if message ≠ "" then message else record.lastError
          createdAt := some current },
       true)

/-- Rows that `expire_old_records` selects. -/
def expirable (includeDispatched : Bool) (now : Time) (row : CommandRow) : Bool :=
  (row.record.status = .queued || (includeDispatched && row.record.status = .dispatched)) &&
    row.record.isExpired now

def expireOldRecords (s : SQLiteCommandStore) (includeDispatched : Bool) (now : Time) :
    SQLiteCommandStore × Nat :=
  let rows := s.gatewayCommands.entries.filter fun entry => expirable includeDispatched now entry.2
  (rows.foldl
    (fun s entry => (s.updateStatus entry.1 .expired none (some "COMMAND_TTL_EXPIRED")
      "expired" "command TTL expired" now).1) s,
   rows.length)

/-- `load_recoverable_records`: rows of equal `created_at` in table order. -/
def loadRecoverableRecords (s : SQLiteCommandStore) (now : Time) : List CommandRecord :=
  let rows := s.gatewayCommands.values.filter fun row =>
    row.record.status = .queued && !row.record.isExpired now
  (rows.map (·.record)).insertionSort fun a b => CommandQueue.stampLe a.createdAt b.createdAt

/-- Rows that `prune_finished` deletes. -/
def prunable (cutoff : Time) (row : CommandRow) : Bool :=
  row.record.finished &&
    match row.record.finishedAt with
    | some finishedAt => finishedAt ≤ cutoff
    | none => false

def pruneFinished (s : SQLiteCommandStore) (olderThanSec : Int) (wall : Time) :
    SQLiteCommandStore × Nat :=
  let cutoff := wall - max 0 olderThanSec
  let commandIds := (s.gatewayCommands.entries.filter fun entry => prunable cutoff entry.2).map
    (·.1)
  ({ s with
     gatewayCommands := s.gatewayCommands.filter fun _ row => !prunable cutoff row
     events := s.events.filter fun event =>
       !(event.commandId ∈ commandIds && event.eventType ≠ "duplicate_rejected") },
   commandIds.length)

def pruneDedupeKeys (s : SQLiteCommandStore) (now : Time) : SQLiteCommandStore :=
  { s with dedupeKeys := s.dedupeKeys.filter fun _ row => DedupeRow.retainedAt row now }

end SQLiteCommandStore

end TradingCore.Broker
