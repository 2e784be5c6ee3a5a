import TradingCore.Base.Settled
import TradingCore.Transport.ConditionBatch

/-!
# The Gateway's event queue

`GatewayEventQueue` of `trading/broker/gateway_client.py`, with the network loop of
`apps/kiwoom_gateway.py` that posts its events to Core. A price tick takes the place of the
waiting tick of its code, a condition event that of the waiting one with its key; what does
not fit pushes out the oldest tick, or else the oldest event. A drain takes the events of high
priority first, and the loop sorts the control events to the front of its batch.

The queue coalesces, as the Gateway sets it up. Whether `post_event` raises an exception is input;
when it does, the batch has already left the queue.
-/

namespace TradingCore.Transport

open Base Broker

/-! ## Keys -/

/-- `HIGH_PRIORITY_EVENT_TYPES`, and `CONTROL_EVENT_TYPES` of the loop. -/
def highPriorityEventTypes : List String :=
  ["heartbeat", "login_status", "orderability", "condition_load_result", "condition_loaded",
    "condition_event", "command_started", "command_ack", "command_failed", "rate_limited",
    "gateway_error", "error"]

def highPriority (event : GatewayEvent) : Bool := event.type ∈ highPriorityEventTypes

def priceTickCode (event : GatewayEvent) : String :=
  Text.strip (((event.payload.value "code").or (event.payload.value "stock_code")).or
    (.str "")).text

def conditionEventCode (payload : Mapping) : String :=
  let value := Text.upper (Text.strip ((((payload.value "code").or
    (payload.value "stock_code")).or (payload.value "symbol")).or (.str "")).text)
  if value.toList.head? = some 'A' ∧ value.toList.tail ≠ [] ∧ value.toList.tail.all Char.isDigit
  then .ofList value.toList.tail
  else value

def conditionEventKey (event : GatewayEvent) : String :=
  if conditionEventCode event.payload = "" then ""
  else "|".intercalate
    [conditionName event.payload, conditionIndex event.payload, conditionEventCode event.payload,
      conditionAction event.payload, payloadText event.payload ["source"],
      payloadText event.payload ["strategy_profile", "profile"],
      payloadText event.payload ["purpose"]]

/-- The key under which `put` looks for a waiting event, with its type. -/
def queueKey (event : GatewayEvent) : Option (String × String) :=
  if event.type = "price_tick" ∧ priceTickCode event ≠ "" then
    some (event.type, priceTickCode event)
  else if event.type = "condition_event" ∧ conditionEventKey event ≠ "" then
    some (event.type, conditionEventKey event)
  else none

/-- The key of `_coalesce_ticks`. -/
def tickKey (event : GatewayEvent) : Option String :=
  if event.type = "price_tick" ∧ event.payload.textOr "code" ≠ "" then
    some (event.payload.textOr "code")
  else none

/-- The key of `_coalesce_condition_events`. -/
def conditionKey (event : GatewayEvent) : Option String :=
  if event.type = "condition_event" ∧ conditionEventKey event ≠ "" then
    some (conditionEventKey event)
  else none

/-! ## What an event is about -/

/-- What the last event about it decides: the last price of a code, or whether a code is in the
result of a condition. -/
inductive Subject
  | price (code : String)
  | membership (name index code : String)
deriving DecidableEq

def subject (event : GatewayEvent) : Option Subject :=
  if event.type = "price_tick" ∧ priceTickCode event ≠ "" then
    some (.price (priceTickCode event))
  else if event.type = "condition_event" then
    some (.membership (conditionName event.payload) (conditionIndex event.payload)
      (conditionEventCode event.payload))
  else none

def includes (event : GatewayEvent) : Bool := conditionAction event.payload ≠ "remove"

/-- Does the later event say something else of the subject of `event`? A later price always
does. -/
def contradicts (event later : GatewayEvent) : Bool :=
  subject later = subject event ∧ subject event ≠ none ∧
    (event.type = "price_tick" ∨ includes later ≠ includes event)

/-! ## The queue -/

/-- `_drop_oldest_low_priority_event_from`: what is left, and what is dropped. -/
def dropOldest (events : List GatewayEvent) : List GatewayEvent × List GatewayEvent :=
  match events.findIdx? (·.type = "price_tick") with
  | some index => (events.eraseIdx index, (events[index]?).toList)
  | none => (events.tail, events.head?.toList)

def dropMany : Nat → List GatewayEvent → List GatewayEvent × List GatewayEvent
  | 0, events => (events, [])
  | n + 1, events =>
      let (kept, dropped) := dropOldest events
      let (kept, more) := dropMany n kept
      (kept, dropped ++ more)

/-- `drain`, its first pass: the events of high priority in front, at most `room` of them, and
the rest. The scan removes each by its value, which is the first of its kind then. -/
def takeHigh : Nat → List GatewayEvent → List GatewayEvent × List GatewayEvent
  | 0, events => ([], events)
  | _ + 1, [] => ([], [])
  | room + 1, event :: later =>
      if highPriority event then
        let (taken, rest) := takeHigh room later
        (event :: taken, rest)
      else
        let (taken, rest) := takeHigh (room + 1) later
        (taken, event :: rest)

/-- `drain`, both passes: what is taken, and the rest. -/
def takeEvents (limit : Int) (events : List GatewayEvent) :
    List GatewayEvent × List GatewayEvent :=
  let room := (max 0 limit).toNat
  let (high, rest) := takeHigh room events
  (high ++ rest.take (room - high.length), rest.drop (room - high.length))

/-- `_prioritize_gateway_events`: a stable sort by two classes. -/
def prioritizeGatewayEvents (events : List GatewayEvent) : List GatewayEvent :=
  events.filter highPriority ++ events.filter fun event => !highPriority event

/-! ## The runtime -/

/-- The queue and the network loop. `batch` are the events that the loop is posting; what was
put and what was posted is history. -/
structure EventRuntime where
  maxSize : Nat := 1000
  events : List GatewayEvent := []
  batch : List GatewayEvent := []
  puts : List GatewayEvent := []
  posted : List GatewayEvent := []

/-- A step of the Gateway. -/
inductive QueueStep
  | put (event : GatewayEvent)
  /-- the loop drains the queue and sorts its batch -/
  | drain (limit : Int)
  /-- `post_event` of the next event of the batch returns -/
  | post
  /-- it raises an exception, which leaves the loop -/
  | postFails

namespace EventRuntime

variable (s : EventRuntime)

/-- The last waiting event with the key of an event, with what stands around it. -/
def waitingFor (event : GatewayEvent) :
    Option (List GatewayEvent × GatewayEvent × List GatewayEvent) :=
  (queueKey event).bind fun key =>
    splitLast (fun waiting => queueKey waiting = some key) s.events

/-- The events that a step loses: those that are dropped, those whose post fails with their batch,
and one that is replaced by an event about something else. -/
def loses : QueueStep → List GatewayEvent
  | .put event =>
      match s.waitingFor event with
      | none => (dropMany (s.events.length + 1 - s.maxSize) (s.events ++ [event])).2
      | some (_, old, _) => if subject old = subject event then [] else [old]
  | .postFails => s.batch
  | _ => []

/-- The event that a step puts in front of a waiting one that contradicts it. -/
def misplaces : QueueStep → List GatewayEvent
  | .put event =>
      match s.waitingFor event with
      | none => []
      | some (_, _, back) => if back.any (contradicts event) then [event] else []
  | _ => []

def put (event : GatewayEvent) : EventRuntime :=
  { s with
    events :=
      match s.waitingFor event with
      | none => (dropMany (s.events.length + 1 - s.maxSize) (s.events ++ [event])).1
      | some (front, _, back) => front ++ event :: back
    puts := s.puts ++ [event] }

/-- `drain` and `_prioritize_gateway_events`. -/
def drain (limit : Int) : EventRuntime :=
  let (drained, rest) := takeEvents limit s.events
  { s with
    events := rest
    batch := prioritizeGatewayEvents (coalesce tickKey (coalesce conditionKey drained)) }

/-- Carry out a step. The loop drains when its batch is posted. -/
def act : QueueStep → EventRuntime
  | .put event => s.put event
  | .drain limit => if s.batch = [] then s.drain limit else s
  | .post =>
      match s.batch with
      | [] => s
      | event :: later => { s with batch := later, posted := s.posted ++ [event] }
  | .postFails => { s with batch := [] }

def machine : Machine EventRuntime QueueStep Unit where
  step s step := (s.act step, ())

end EventRuntime

end TradingCore.Transport
