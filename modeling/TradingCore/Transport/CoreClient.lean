import TradingCore.Base.Machine
import TradingCore.Broker.Models

/-!
# The command path of the WebSocket client

How `WebSocketRealCoreClient` (`trading/broker/gateway_transport.py`) brings the commands of Core to
the Gateway worker. Three parties share the bounded queue `_commands` and `connection_state`:

* the receive loop of the WebSocket thread, which puts the commands of a `core_command_batch` one by
  one (`_handle_incoming`);
* the Gateway worker, which takes them in `poll_commands`;
* whoever notices a failure and switches to REST (`_maybe_fallback`).

An input of the machine is one atomic action of one party. `delivered` and `polls` are history: what
the batches brought and what the finished calls took from the queue.
-/

namespace TradingCore.Transport

open Base Broker

/-- The fields of `WebSocketPilotPolicy` that the command path reads. -/
structure WebSocketPilotPolicy where
  fallbackToRest : Bool := true
  maxQueueSize : Int := 2000

/-- The values of `connection_state`. -/
inductive ConnectionState
  | disconnected
  | connecting
  | connected
  | authenticated
  | degraded
  | fallbackRest
  | stopped
deriving DecidableEq

/-- What the WebSocket thread itself writes to `connection_state`. -/
abbrev LinkState := { st : ConnectionState // st ≠ .fallbackRest }

/-- A call of `poll_commands` in its loop: the bound on its answer and the
commands it has taken so far. -/
structure Poll where
  limit : Nat
  commands : List GatewayCommand

/-- `WebSocketRealCoreClient`, as far as commands go through it. -/
structure CoreClient where
  policy : WebSocketPilotPolicy
  hasFallbackClient : Bool
  connectionState : ConnectionState := .disconnected
  /-- `_commands`. -/
  commands : List GatewayCommand := []
  /-- What `_handle_incoming` has still to put of the batch it is handling. -/
  incoming : List GatewayCommand := []
  polling : Option Poll := none
  delivered : List GatewayCommand := []
  polls : List (List GatewayCommand) := []

/-- One atomic action. -/
inductive Action
  /-- The receive loop hands a `core_command_batch` to `_handle_incoming`; `trace`
  is the `transport_trace` it stamps on a command. -/
  | receiveBatch (commands : List GatewayCommand) (trace : GatewayCommand → Value)
  /-- `_commands.put` finds room for the next command of the batch. -/
  | putCommand
  /-- `_commands.put` raises `queue.Full` after its timeout. -/
  | putTimeout
  /-- `poll_commands` starts its loop. -/
  | pollStart (limit : Int)
  /-- `_commands.get` returns a command to the loop. -/
  | pollGet
  /-- The loop ends, by its bound or because `_commands.get` found nothing
  until the deadline. -/
  | pollReturn
  /-- `poll_commands` forwards to the REST client. -/
  | pollRest (commands : List GatewayCommand)
  | maybeFallback
  | setConnection (state : LinkState)
  | stop

def commandWithTrace (command : GatewayCommand) (trace : Value) : GatewayCommand :=
  { command with payload := command.payload.set "transport_trace" trace }

/-- `max(1, int(value or default))`. -/
def boundOr (default value : Int) : Nat :=
  max 1 (if value = 0 then default else value).toNat

/-- The bound on the answer of a `poll_commands` call. -/
def pollLimit (limit : Int) : Nat := boundOr 20 limit

namespace CoreClient

def init (policy : WebSocketPilotPolicy) (hasFallbackClient : Bool) : CoreClient :=
  { policy, hasFallbackClient }

def fallbackActive (c : CoreClient) : Bool :=
  c.connectionState = .fallbackRest && c.hasFallbackClient

/-- Has the queue reached its `maxsize`? A `maxsize` that is not positive means
no bound. -/
def full (c : CoreClient) : Bool :=
  0 < c.policy.maxQueueSize && c.policy.maxQueueSize ≤ c.commands.length

/-- `_handle_incoming` of a `core_command_batch`, up to the first `put`. The loop
handles one message at a time. -/
def receiveBatch (c : CoreClient) (commands : List GatewayCommand)
    (trace : GatewayCommand → Value) : CoreClient :=
  match c.incoming with
  | [] =>
      let traced := commands.map fun command => commandWithTrace command (trace command)
      { c with incoming := traced, delivered := c.delivered ++ traced }
  | _ :: _ => c

/-- `_commands.put` with room in the queue. -/
def putCommand (c : CoreClient) : CoreClient :=
  match c.incoming with
  | [] => c
  | command :: rest =>
      if c.full then c else { c with incoming := rest, commands := c.commands ++ [command] }

/-- `_commands.put` on a full queue: the exception leaves `_handle_incoming`, and
the rest of the batch goes with it. -/
def putTimeout (c : CoreClient) : CoreClient :=
  if c.full then { c with incoming := [] } else c

/-- `poll_commands` on the WebSocket, up to its loop. -/
def pollStart (c : CoreClient) (limit : Int) : CoreClient :=
  match c.polling with
  | none => if c.fallbackActive then c else { c with polling := some ⟨pollLimit limit, []⟩ }
  | some _ => c

/-- One successful `_commands.get` of the loop. -/
def pollGet (c : CoreClient) : CoreClient :=
  match c.polling, c.commands with
  | some poll, command :: rest =>
      if poll.commands.length < poll.limit then
        { c with commands := rest
                 polling := some { poll with commands := poll.commands ++ [command] } }
      else c
  | _, _ => c

/-- The loop's end: the answer is full, or the queue was empty at the deadline. -/
def pollReturn (c : CoreClient) : CoreClient :=
  match c.polling with
  | some poll =>
      if poll.limit ≤ poll.commands.length ∨ c.commands = [] then
        { c with polling := none, polls := c.polls ++ [poll.commands] }
      else c
  | none => c

def maybeFallback (c : CoreClient) : CoreClient :=
  if c.policy.fallbackToRest && c.hasFallbackClient then
    { c with connectionState := .fallbackRest }
  else { c with connectionState := .degraded }

def stop (c : CoreClient) : CoreClient :=
  if c.connectionState = .fallbackRest then c else { c with connectionState := .stopped }

/-- One action. The REST client answers from Core and leaves the queue alone. -/
def act (c : CoreClient) : Action → CoreClient
  | .receiveBatch commands trace => c.receiveBatch commands trace
  | .putCommand => c.putCommand
  | .putTimeout => c.putTimeout
  | .pollStart limit => c.pollStart limit
  | .pollGet => c.pollGet
  | .pollReturn => c.pollReturn
  | .pollRest _ => c
  | .maybeFallback => c.maybeFallback
  | .setConnection state => { c with connectionState := state.val }
  | .stop => c.stop

def machine : Machine CoreClient Action Unit := ⟨fun c a => (c.act a, ())⟩

@[simp] theorem machine_next (c : CoreClient) (a : Action) : machine.next c a = c.act a := rfl

end CoreClient

end TradingCore.Transport
