import Mathlib.Data.List.Sort
import TradingCore.Base.Lanes
import TradingCore.Base.Machine
import TradingCore.Base.Text
import TradingCore.Broker.Models

/-!
# The queues of Core's control events

Core puts a control event of the Gateway (an order result, an execution, an answer to a command)
into a priority queue with one worker. There is one queue for everything, or there are control
queues and a data queue; a checksum of the event's shard key picks the control queue
(`_enqueue_core_ws_event_work` and `_core_ws_event_worker_loop_main`, `trading_app/api.py`).

An input of the machine is something that the event loop does without being interrupted: an event
is put into its queue, a worker takes the first item of its queue or is done with its item. Send
reports and the counters of the worker state are left out.
-/

namespace TradingCore.Transport

open Base Broker Text

/-! ## Settings -/

/-- The environment variables that the queues are made from. -/
structure ControlQueueConfig where
  asyncEnabled : Bool := true
  priorityEnabled : Bool := true
  splitEnabled : Bool := true
  controlWorkers : Int := 2
  queueSize : Int := 10000

namespace ControlQueueConfig

variable (config : ControlQueueConfig)

/-- `_core_ws_event_control_worker_count`. -/
def controlWorkerCount : Nat := (max 1 (min 8 config.controlWorkers)).toNat

/-- `_core_ws_event_queue_max_size`. -/
def queueMaxSize : Nat := (max 1 config.queueSize).toNat

theorem queueMaxSize_pos : 0 < config.queueMaxSize := by
  unfold queueMaxSize
  omega

end ControlQueueConfig

/-! ## Control events -/

/-- `_CORE_WS_CONTROL_MESSAGE_TYPES`. -/
def controlMessageTypes : List String :=
  ["command_ack", "command_started", "command_failed", "rate_limited", "heartbeat",
    "transport_heartbeat", "login_status", "order_result", "execution_event", "execution",
    "kiwoom_order_chejan", "kiwoom_balance_chejan", "kiwoom_special_chejan"]

structure ControlEvent extends GatewayEvent where
  isControl : type ∈ controlMessageTypes
deriving DecidableEq

namespace ControlEvent

variable (event : ControlEvent)

def shardCommandId : String :=
  strip ((event.payload.value "command_id").or (.str event.commandId)).text

def shardOrderId : String :=
  strip (((((event.payload.value "order_id").or (event.payload.value "order_no")).or
    (event.payload.value "original_order_no")).or (event.payload.value "order_number")).or
    (.str "")).text

def shardCode : String :=
  strip ((((event.payload.value "code").or (event.payload.value "stock_code")).or
    (event.payload.value "symbol")).or (.str "")).text

/-- `_core_ws_event_control_shard_key`. -/
def shardKey : String :=
  if event.shardCommandId ≠ "" then "command:" ++ event.shardCommandId
  else if event.shardOrderId ≠ "" then "order:" ++ event.shardOrderId
  else if event.type ∈ ["execution_event", "execution", "order_result"] ∧ event.shardCode ≠ "" then
    event.type ++ ":" ++ event.shardCode
  else if strip event.eventId ≠ "" then "event:" ++ strip event.eventId
  else "type:" ++ event.type

/-- `_core_ws_event_control_worker_index`. -/
def workerIndex (config : ControlQueueConfig) : Nat :=
  crc32 event.shardKey % config.controlWorkerCount

/-- `_core_ws_event_priority`. -/
def priority (config : ControlQueueConfig) : Int :=
  if ¬ config.priorityEnabled then 10
  else if event.type ∈ controlMessageTypes then 0
  else if event.type = "price_tick" then 50
  else 10

theorem priority_eq (config : ControlQueueConfig) :
    event.priority config = if config.priorityEnabled then 0 else 10 := by
  unfold priority
  cases config.priorityEnabled with
  | true => simp [event.isControl]
  | false => simp

end ControlEvent

/-- The names of the queues. -/
inductive QueueName
  | single
  | control (index : Nat)
  | data
deriving DecidableEq

/-- `_core_ws_event_target_queue_name`. -/
def targetQueueName (config : ControlQueueConfig) (event : ControlEvent) : QueueName :=
  if ¬ config.splitEnabled then .single
  else if event.priority config ≤ 0 then .control (event.workerIndex config)
  else .data

/-! ## The queues and their workers -/

/-- `_CoreWsEventQueuedItem`. -/
structure QueuedItem where
  priority : Int
  sequence : Nat
  event : ControlEvent
deriving DecidableEq

def QueuedItem.le (a b : QueuedItem) : Prop :=
  a.priority < b.priority ∨ (a.priority = b.priority ∧ a.sequence ≤ b.sequence)

instance : DecidableRel QueuedItem.le := fun _ _ =>
  inferInstanceAs (Decidable (_ ∨ (_ ∧ _)))

/-- The queues with the items that their workers hold, and the item counter. -/
structure ControlQueues where
  lanes : Lanes QueueName QueuedItem := {}
  nextSequence : Nat := 0

structure EnqueueResult where
  accepted : Bool
  queued : Bool
  reason : String

/-- What the event loop does. -/
inductive ControlAction
  | enqueue (event : ControlEvent)
  | take (queue : QueueName)
  | done (queue : QueueName)

namespace ControlQueues

variable (config : ControlQueueConfig)

/-- `_core_ws_event_queue_item`: the counter moves on, whether or not the item finds room. -/
def queuedItem (s : ControlQueues) (event : ControlEvent) : QueuedItem where
  priority := event.priority config
  sequence := s.nextSequence
  event := event

def laneOf (item : QueuedItem) : QueueName := targetQueueName config item.event

/-- `queue.put_nowait`, when there is room. -/
def putNowait (s : ControlQueues) (item : QueuedItem) : ControlQueues :=
  { s with
    lanes :=
      { s.lanes with
        waiting := Function.update s.lanes.waiting (laneOf config item)
          ((s.lanes.waiting (laneOf config item)).orderedInsert QueuedItem.le item)
        accepted := s.lanes.accepted ++ [item] } }

/-- `_enqueue_core_ws_event_work`, for a control event. -/
def enqueueCoreWsEventWork (s : ControlQueues) (event : ControlEvent) :
    ControlQueues × EnqueueResult :=
  if ¬ config.asyncEnabled then (s, ⟨false, false, "WORKER_DISABLED"⟩)
  else
    let item := s.queuedItem config event
    let counted := { s with nextSequence := s.nextSequence + 1 }
    if config.queueMaxSize ≤ (s.lanes.waiting (targetQueueName config event)).length then
      (counted, ⟨false, false, "QUEUE_FULL"⟩)
    else (counted.putNowait config item, ⟨true, true, ""⟩)

/-- The item that the worker of a queue would take now: the worker holds one item at a time. -/
def takes (s : ControlQueues) (queue : QueueName) : Option QueuedItem :=
  if s.lanes.active queue = [] then (s.lanes.waiting queue).head? else none

/-- `queue.get`, once the worker asks for the next item. -/
def take (s : ControlQueues) (queue : QueueName) : ControlQueues :=
  match s.takes queue with
  | none => s
  | some _ => { s with lanes := s.lanes.take queue 1 }

/-- `queue.task_done`. A failure of the processing is caught, and the item is done as well. -/
def done (s : ControlQueues) (queue : QueueName) : ControlQueues :=
  { s with lanes := s.lanes.finish queue }

def machine : Machine ControlQueues ControlAction (Option EnqueueResult) where
  step s
    | .enqueue event =>
        ((s.enqueueCoreWsEventWork config event).1, some (s.enqueueCoreWsEventWork config event).2)
    | .take queue => (s.take queue, none)
    | .done queue => (s.done queue, none)

def after (schedule : List ControlAction) : ControlQueues := (machine config).run {} schedule

end ControlQueues

/-- The events that a schedule enqueues, in this order. -/
def enqueuedEvents (schedule : List ControlAction) : List ControlEvent :=
  schedule.filterMap fun
    | .enqueue event => some event
    | _ => none

end TradingCore.Transport
