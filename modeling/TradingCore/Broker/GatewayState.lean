import TradingCore.Broker.CommandStore

/-!
# The gateway state store

The command operations of `GatewayStateStore` (`trading/broker/gateway_state.py`):
the in-memory queue, written through to the SQLite command store when there is
one, and the recovery of the queue from the store when Core restarts.

An operation reads the clock once: `wall` is the second in which it runs, and a
`now` passed by the caller replaces it wherever the source hands `now` on.
`machine` runs the operations as steps.
-/

namespace TradingCore.Broker

open Base

/-- The command side of `GatewayStateStore`. -/
structure GatewayStateStore where
  commandQueue : CommandQueue := {}
  commandStore : Option SQLiteCommandStore := none
  expireStaleDispatchedOnRecovery : Bool := true
  recoveredQueuedCount : Nat := 0

namespace GatewayStateStore

/-- `recover_from_store`, which `__post_init__` runs. -/
def recoverFromStore (g : GatewayStateStore) (now : Time) : GatewayStateStore :=
  match g.commandStore with
  | none => g
  | some store =>
      let store := (store.expireOldRecords g.expireStaleDispatchedOnRecovery now).1
      let recovered := store.loadRecoverableRecords now
      { g with
        commandStore := some store
        commandQueue := recovered.foldl CommandQueue.restore {}
        recoveredQueuedCount := recovered.length }

/-- Core restarts: a new `GatewayStateStore` on the same database. -/
def restart (g : GatewayStateStore) (wall : Time) : GatewayStateStore :=
  recoverFromStore
    { commandStore := g.commandStore
      expireStaleDispatchedOnRecovery := g.expireStaleDispatchedOnRecovery } wall

def enqueueCommand (digest : GatewayCommand → String) (g : GatewayStateStore)
    (command : GatewayCommand) (options : EnqueueOptions) (now : Option Time) (wall : Time) :
    GatewayStateStore × EnqueueResult :=
  match g.commandStore with
  | some store =>
      if command.commandId = "" then
        (g, { accepted := false, reason := "COMMAND_ID_REQUIRED" })
      else
        let record := CommandRecord.create digest command options (now.getD wall)
        let (store, result) := store.enqueueRecord record wall
        let queue := match result.accepted, result.record with
          | true, some record => g.commandQueue.restore record
          | _, _ => g.commandQueue
        ({ g with commandStore := some store, commandQueue := queue }, result)
  | none =>
      let (queue, result) := g.commandQueue.enqueue digest command options (now.getD wall)
      ({ g with commandQueue := queue }, result)

/-- What `dispatch_commands` writes back for one command it hands out. -/
def persistDispatch (queue : CommandQueue) (wall : Time) (store : SQLiteCommandStore)
    (command : GatewayCommand) : SQLiteCommandStore :=
  match queue.records.get? command.commandId with
  | none => store
  | some record =>
      (store.upsertRecord record wall).appendEvent
        { commandId := record.commandId, eventType := "dispatch"
          statusFrom := some .queued, statusTo := some .dispatched
          message := "dispatched to gateway polling response"
          createdAt := record.dispatchedAt }

def dispatchCommands (g : GatewayStateStore) (limit : Int) (now : Option Time) (wall : Time) :
    GatewayStateStore × List GatewayCommand :=
  let current := now.getD wall
  let (queue, commands) := g.commandQueue.dispatch limit current
  let store := g.commandStore.map fun store =>
    commands.foldl (persistDispatch queue wall) (store.expireOldRecords true current).1
  ({ g with commandQueue := queue, commandStore := store }, commands)

/-- The `event_type` under which `ack_command` files its update. -/
def ackEventType (status : CommandStatus) : String :=
  if status ≠ .dispatched then "command_ack" else "command_started"

/-- The `message` of an ack: the error, or the payload's message. -/
def ackMessage (resultPayload : Option Mapping) (error : Option String) : String :=
  if error.getD "" ≠ "" then error.getD ""
  else (resultPayload.getD Dict.empty).textOr "message"

def ackCommand (g : GatewayStateStore) (commandId : String) (status : CommandStatus)
    (resultPayload : Option Mapping) (error : Option String) (wall : Time) :
    GatewayStateStore × Bool :=
  let (queue, acknowledged) := g.commandQueue.ack commandId status resultPayload error wall
  match g.commandStore with
  | some store =>
      let (store, stored) := store.updateStatus commandId status resultPayload error
        (ackEventType status) (ackMessage resultPayload error) wall
      ({ g with commandQueue := queue, commandStore := some store }, acknowledged || stored)
  | none => ({ g with commandQueue := queue }, acknowledged)

def failCommand (g : GatewayStateStore) (commandId error : String) (retryable : Bool)
    (wall : Time) : GatewayStateStore × Bool :=
  let (queue, failed) := g.commandQueue.fail commandId error retryable wall
  match g.commandStore with
  | some store =>
      match failed, queue.records.get? commandId with
      | true, some record =>
          let store := (store.upsertRecord record wall).appendEvent
            { commandId, eventType := "command_failed", statusTo := some record.status
              message := error, createdAt := some wall }
          ({ g with commandQueue := queue, commandStore := some store }, true)
      | _, _ =>
          let (store, stored) := store.updateStatus commandId .failed none (some error)
            "command_failed" error wall
          ({ g with commandQueue := queue, commandStore := some store }, failed || stored)
  | none => ({ g with commandQueue := queue }, failed)

def cancelCommand (g : GatewayStateStore) (commandId : String) (wall : Time) :
    GatewayStateStore × Bool :=
  let (queue, cancelled) := g.commandQueue.cancel commandId wall
  match g.commandStore with
  | some store =>
      match cancelled, queue.records.get? commandId with
      | true, some record =>
          let store := (store.upsertRecord record wall).appendEvent
            { commandId, eventType := "cancelled", statusTo := some .cancelled
              message := "cancelled before dispatch", createdAt := some wall }
          ({ g with commandQueue := queue, commandStore := some store }, true)
      | _, _ =>
          match store.getRecord commandId with
          | some record =>
              if record.status = .queued then
                let (store, stored) := store.updateStatus commandId .cancelled none none
                  "cancelled" "cancelled before dispatch" wall
                ({ g with commandQueue := queue, commandStore := some store }, stored)
              else ({ g with commandQueue := queue }, false)
          | none => ({ g with commandQueue := queue }, false)
  | none => ({ g with commandQueue := queue }, cancelled)

/-- `expire_old_commands`: the store expires its own rows, then every expired
record that the queue lists is written over its row. -/
def expireOldCommands (g : GatewayStateStore) (now : Option Time) (wall : Time) :
    GatewayStateStore × Nat :=
  let current := now.getD wall
  let (queue, count) := g.commandQueue.expireOld current
  match g.commandStore with
  | some store =>
      let (store, storeCount) := store.expireOldRecords true current
      let expired := (queue.listAll 10000).filter (·.status = .expired)
      let store := expired.foldl (fun store record => store.upsertRecord record wall) store
      ({ g with commandQueue := queue, commandStore := some store }, max count storeCount)
  | none => ({ g with commandQueue := queue }, count)

def pruneCommands (g : GatewayStateStore) (olderThanSec : Int) (wall : Time) :
    GatewayStateStore × Nat :=
  match g.commandStore with
  | some store =>
      let (store, removed) := store.pruneFinished olderThanSec wall
      ({ g with commandStore := some (store.pruneDedupeKeys wall) }, removed)
  | none =>
      let (queue, removed) := g.commandQueue.prune olderThanSec wall
      ({ g with commandQueue := queue }, removed)

/-- A call on the gateway state store, or a restart of Core. -/
inductive Call
  | enqueue (command : GatewayCommand) (options : EnqueueOptions) (now : Option Time)
  | dispatch (limit : Int) (now : Option Time)
  | ack (commandId : String) (status : CommandStatus) (resultPayload : Option Mapping)
      (error : Option String)
  | fail (commandId error : String) (retryable : Bool)
  | cancel (commandId : String)
  | expireOld (now : Option Time)
  | prune (olderThanSec : Int)
  | restart

structure Step where
  call : Call
  wall : Time

def step (digest : GatewayCommand → String) (g : GatewayStateStore) (s : Step) :
    GatewayStateStore × Answer :=
  match s.call with
  | .enqueue command options now =>
      (g.enqueueCommand digest command options now s.wall).map id .enqueued
  | .dispatch limit now => (g.dispatchCommands limit now s.wall).map id .commands
  | .ack commandId status resultPayload error =>
      (g.ackCommand commandId status resultPayload error s.wall).map id .handled
  | .fail commandId error retryable =>
      (g.failCommand commandId error retryable s.wall).map id .handled
  | .cancel commandId => (g.cancelCommand commandId s.wall).map id .handled
  | .expireOld now => (g.expireOldCommands now s.wall).map id .count
  | .prune olderThanSec => (g.pruneCommands olderThanSec s.wall).map id .count
  | .restart => (g.restart s.wall, .count (g.restart s.wall).recoveredQueuedCount)

def machine (digest : GatewayCommand → String) : Machine GatewayStateStore Step Answer :=
  ⟨step digest⟩

end GatewayStateStore

end TradingCore.Broker
