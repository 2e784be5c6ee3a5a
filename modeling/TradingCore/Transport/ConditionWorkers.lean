import Mathlib.Algebra.Order.Ring.Rat
import TradingCore.Transport.ControlQueues

/-!
# The workers of Core's condition events

Core puts the condition events of the Gateway into the queues of a few workers
(`_enqueue_gateway_condition_events`, `_gateway_condition_event_worker_loop_main` and
`_process_condition_event_batch_in_worker`, `trading_app/api.py`). A checksum of the code picks
the worker. A worker skips an event whose coalesce key has a newer generation, and drops an
include that has waited too long.

The batches of the workers run in threads beside the event loop. The inputs of the machine are
what is done under the lock once, or by the event loop in one go. Workers that are cancelled or
replaced, a database that does not open, trace fields and counters are left out.
-/

namespace TradingCore.Transport

open Base Broker Text List

/-! ## Settings -/

/-- The environment variables that the workers are made from. -/
structure ConditionWorkerConfig where
  conditionWorkers : Int := 4
  queueSize : Int := 5000
  chunkSize : Int := 64
  staleIncludeSkipMs : ℚ := 15000

namespace ConditionWorkerConfig

variable (config : ConditionWorkerConfig)

/-- `_gateway_condition_event_worker_count`. -/
def workerCount : Nat := (max 1 (min 8 config.conditionWorkers)).toNat

/-- `_gateway_condition_event_queue_max_size`. -/
def queueMaxSize : Nat := (max 1 config.queueSize).toNat

/-- `_gateway_condition_event_batch_chunk_size`. -/
def batchChunkSize : Nat := (max 1 (min 500 config.chunkSize)).toNat

/-- `_gateway_condition_event_stale_include_skip_ms`. -/
def skipMs : ℚ := max 0 config.staleIncludeSkipMs

theorem workerCount_pos : 0 < config.workerCount := by
  unfold workerCount
  omega

theorem batchChunkSize_pos : 0 < config.batchChunkSize := by
  unfold batchChunkSize
  omega

end ConditionWorkerConfig

/-! ## Condition events -/

def stockCode (payload : Mapping) : String :=
  strip (((payload.value "code").or (payload.value "stock_code")).or (.str "")).text

/-- A condition event as Core takes it in. A stock code has no bar in it. -/
structure CoreConditionEvent extends GatewayEvent where
  code_plain : '|' ∉ (stockCode payload).toList
deriving DecidableEq

namespace CoreConditionEvent

variable (event : CoreConditionEvent)

def code : String := stockCode event.payload

def index : String :=
  strip (((event.payload.value "condition_index").or (event.payload.value "index")).or
    (.str "")).text

def name : String :=
  strip (((event.payload.value "condition_name").or (event.payload.value "name")).or (.str "")).text

/-- `_condition_event_coalesce_key`, the empty text if the event has none. -/
def coalesceKey : String :=
  if event.type ≠ "condition_event" then ""
  else if event.code = "" ∨ (event.index = "" ∧ event.name = "") then ""
  else "condition:" ++ event.index ++ "|name:" ++ event.name ++ "|code:" ++ event.code

/-- `_condition_event_shard_key`. -/
def shardKey : String :=
  if event.code ≠ "" then event.code
  else if event.coalesceKey ≠ "" then event.coalesceKey
  else event.eventId

/-- `_gateway_condition_event_worker_index`. -/
def workerIndex (config : ConditionWorkerConfig) : Nat :=
  crc32 event.shardKey % config.workerCount

/-- `_condition_event_action`. -/
def action : String :=
  lower (strip ((event.payload.value "event_type").or (.str "include")).text)

theorem code_of_coalesceKey {a b : CoreConditionEvent} (hkey : a.coalesceKey = b.coalesceKey)
    (hkeyed : a.coalesceKey ≠ "") : a.code ≠ "" ∧ a.code = b.code := by
  have hparts : ∀ c : CoreConditionEvent, c.coalesceKey ≠ "" → c.code ≠ "" ∧
      c.coalesceKey = "condition:" ++ c.index ++ "|name:" ++ c.name ++ "|code:" ++ c.code := by
    intro c hc
    unfold coalesceKey at hc ⊢
    split at hc
    · exact absurd rfl hc
    · rename_i htype
      split at hc
      · exact absurd rfl hc
      · rename_i hnamed
        rw [if_neg htype, if_neg hnamed]
        exact ⟨fun hcode => hnamed (Or.inl hcode), rfl⟩
  have hplain : ∀ c : CoreConditionEvent, '|' ∉ "code:".toList ++ c.code.toList := by
    intro c hmem
    rcases mem_append.mp hmem with hlabel | hcode
    · exact absurd hlabel (by decide)
    · exact c.code_plain hcode
  obtain ⟨hcode, ha⟩ := hparts a hkeyed
  obtain ⟨-, hb⟩ := hparts b (hkey ▸ hkeyed)
  refine ⟨hcode, ?_⟩
  -- the code is what stands behind the last bar
  have hbar : "|code:".toList = '|' :: "code:".toList := by decide
  have hlists := congrArg String.toList (ha.symm.trans (hkey.trans hb))
  simp only [String.toList_append, hbar, append_assoc, cons_append] at hlists
  rw [← append_assoc, ← append_assoc, ← append_assoc, ← append_assoc,
    ← append_assoc, ← append_assoc] at hlists
  have hcodes := (append_sep_inj (hplain a) (hplain b) hlists).2
  exact String.ext (append_cancel_left hcodes)

theorem workerIndex_eq (config : ConditionWorkerConfig) {a b : CoreConditionEvent}
    (hkey : a.coalesceKey = b.coalesceKey) (hkeyed : a.coalesceKey ≠ "") :
    a.workerIndex config = b.workerIndex config := by
  obtain ⟨hcode, heq⟩ := code_of_coalesceKey hkey hkeyed
  unfold workerIndex shardKey
  rw [if_pos hcode, if_pos (heq ▸ hcode), heq]

theorem workerIndex_lt (config : ConditionWorkerConfig) :
    event.workerIndex config < config.workerCount :=
  Nat.mod_lt _ config.workerCount_pos

end CoreConditionEvent

/-! ## Events on their way -/

/-- An event with its number in the order of arrival. Inside a call the number is the place in the
list of events. -/
structure ReceivedEvent where
  number : Nat
  event : CoreConditionEvent

/-- The events of a call, numbered from `start`. -/
def numberedFrom (start : Nat) (events : List CoreConditionEvent) : List ReceivedEvent :=
  (events.zipIdx start).map fun entry => ⟨entry.2, entry.1⟩

/-- An event with what Core writes into its trace: its generation, if it has a key, and the time
at which it was queued. -/
structure QueuedEvent extends ReceivedEvent where
  generation : Option Nat
  queuedMonotonicMs : ℚ

/-- `_prepare_condition_events_for_queue`: the last event of each key, and the events without
one. -/
def prepareConditionEventsForQueue (events : List ReceivedEvent) : List ReceivedEvent :=
  let latestByKey := Dict.ofList ((events.filter (·.event.coalesceKey ≠ "")).map
    fun received => (received.event.coalesceKey, received))
  let passthrough := events.filter (·.event.coalesceKey = "")
  (passthrough ++ latestByKey.values).insertionSort fun a b => a.number ≤ b.number

/-- `_chunk_condition_event_worker_batches`, for one worker. -/
def chunked (size : Nat) (events : List QueuedEvent) : List (List QueuedEvent) :=
  pieces size events

/-- The events of a batch that a worker drains, and the batches that it leaves: after the first
one it takes more as long as there are fewer events than `size`. -/
def drainBatches (size : Nat) (events : List QueuedEvent) :
    List (List QueuedEvent) → List QueuedEvent × List (List QueuedEvent)
  | [] => (events, [])
  | batch :: batches =>
      if events.length < size then drainBatches size (events ++ batch) batches
      else (events, batch :: batches)

/-- What becomes of a queued event. -/
inductive Outcome
  /-- skipped, because the map has another generation for its key -/
  | superseded
  /-- an include that has waited too long -/
  | dropped (wait : ℚ)
  /-- handed to `_process_condition_event_with_db` -/
  | handed
deriving DecidableEq

/-- A call of `_enqueue_gateway_condition_events` that has passed the capacity check. -/
structure EnqueueCall where
  events : List ReceivedEvent
  queuedMonotonicMs : ℚ
  assigned : List QueuedEvent
  remaining : List ReceivedEvent

/-- The queues, the generations, the workers and the call in progress. No function reads
`arrivals`, `accepted`, `queued` and `outcomes`: they record the events of the accepted calls,
those of them that were queued, and what became of these. -/
structure ConditionWorkers where
  generation : Nat := 0
  latestGeneration : Dict String Nat := Dict.empty
  queueSize : Nat := 0
  queues : Nat → List (List QueuedEvent) := fun _ => []
  active : Nat → List QueuedEvent := fun _ => []
  clearing : Nat → Option QueuedEvent := fun _ => none
  call : Option EnqueueCall := none
  arrivals : Nat := 0
  accepted : List ReceivedEvent := []
  queued : List QueuedEvent := []
  outcomes : List (QueuedEvent × Outcome) := []

/-- What happens without interruption. `now` is the clock, in milliseconds. -/
inductive ConditionAction
  /-- a call begins -/
  | enqueue (events : List CoreConditionEvent) (now : ℚ)
  /-- the call gives the next event its generation -/
  | assign
  /-- the call puts the batches into the queues -/
  | put
  /-- a worker drains its queue -/
  | drain (worker : Nat)
  /-- a worker decides on the next event of its batch -/
  | process (worker : Nat) (now : ℚ)
  /-- a worker clears the generation of the event it has processed -/
  | clear (worker : Nat)

namespace ConditionWorkers

/-! ## The generation map -/

/-- `_condition_event_is_stale`. -/
def isStale (latestGeneration : Dict String Nat) (queued : QueuedEvent) : Bool :=
  match queued.generation with
  | none => false
  | some generation =>
      queued.event.coalesceKey ≠ "" ∧
        ∃ latest ∈ latestGeneration.get? queued.event.coalesceKey, latest ≠ generation

/-- `_clear_condition_event_generation_if_current`. -/
def clearIfCurrent (latestGeneration : Dict String Nat) (queued : QueuedEvent) :
    Dict String Nat :=
  match queued.generation with
  | none => latestGeneration
  | some generation =>
      if queued.event.coalesceKey ≠ "" ∧
          latestGeneration.get? queued.event.coalesceKey = some generation then
        latestGeneration.filter fun key _ => key ≠ queued.event.coalesceKey
      else latestGeneration

/-! ## A call -/

variable (config : ConditionWorkerConfig)

/-- `_enqueue_gateway_condition_events`, up to the capacity check. -/
def enqueue (s : ConditionWorkers) (events : List CoreConditionEvent) (now : ℚ) :
    ConditionWorkers × Option EnqueueResult :=
  if s.call.isSome then (s, none)
  else if events = [] then (s, some ⟨true, true, ""⟩)
  else
    let received := numberedFrom s.arrivals events
    let numbered := { s with arrivals := s.arrivals + events.length }
    let prepared := prepareConditionEventsForQueue received
    if config.queueMaxSize < s.queueSize + prepared.length then
      (numbered, some ⟨false, false, "QUEUE_FULL"⟩)
    else
      ({ numbered with call := some ⟨received, now, [], prepared⟩ }, none)

/-- `_assign_condition_event_generation`, for the next event of the call. -/
def assign (s : ConditionWorkers) : ConditionWorkers :=
  match s.call with
  | none => s
  | some call =>
      match call.remaining with
      | [] => s
      | received :: remaining =>
          if received.event.coalesceKey = "" then
            { s with
              call := some { call with
                assigned := call.assigned ++ [⟨received, none, call.queuedMonotonicMs⟩]
                remaining := remaining } }
          else
            { s with
              generation := s.generation + 1
              latestGeneration :=
                s.latestGeneration.set received.event.coalesceKey (s.generation + 1)
              call := some { call with
                assigned := call.assigned ++
                  [⟨received, some (s.generation + 1), call.queuedMonotonicMs⟩]
                remaining := remaining } }

def batchOf (worker : Nat) (events : List QueuedEvent) : List QueuedEvent :=
  events.filter (·.event.workerIndex config = worker)

def shardQueueFull (s : ConditionWorkers) (events : List QueuedEvent) : Bool :=
  (range config.workerCount).any fun worker =>
    batchOf config worker events ≠ [] ∧
      config.queueMaxSize < (s.queues worker).length +
        (chunked config.batchChunkSize (batchOf config worker events)).length

/-- The rest of the call, once every event has its generation. With the check passed, no
`put_nowait` raises. -/
def put (s : ConditionWorkers) : ConditionWorkers × Option EnqueueResult :=
  match s.call with
  | none => (s, none)
  | some call =>
      if call.remaining ≠ [] then (s, none)
      else if s.shardQueueFull config call.assigned then
        ({ s with
          latestGeneration := call.assigned.foldl clearIfCurrent s.latestGeneration
          call := none }, some ⟨false, false, "QUEUE_FULL"⟩)
      else
        ({ s with
          queueSize := s.queueSize + call.assigned.length
          queues := fun worker => s.queues worker ++
            chunked config.batchChunkSize (batchOf config worker call.assigned)
          call := none
          accepted := s.accepted ++ call.events
          queued := s.queued ++ call.assigned }, some ⟨true, true, ""⟩)

/-! ## A worker -/

/-- `_gateway_condition_event_worker_loop_main`, up to the executor. The worker awaits one batch
before it drains the next. -/
def drain (s : ConditionWorkers) (worker : Nat) : ConditionWorkers :=
  if s.call.isSome ∨ s.active worker ≠ [] ∨ s.clearing worker ≠ none then s
  else
    match s.queues worker with
    | [] => s
    | first :: batches =>
        let drained := drainBatches config.batchChunkSize first batches
        { s with
          queueSize := s.queueSize - drained.1.length
          queues := Function.update s.queues worker drained.2
          active := Function.update s.active worker drained.1 }

/-- `_condition_event_queue_wait_ms`. -/
def queueWaitMs (queued : QueuedEvent) (now : ℚ) : ℚ := max 0 (now - queued.queuedMonotonicMs)

/-- `_condition_event_should_skip_stale_include`. -/
def shouldSkipStaleInclude (queued : QueuedEvent) (now : ℚ) : Bool :=
  0 < config.skipMs ∧ queued.event.type = "condition_event" ∧ queued.event.action = "include" ∧
    config.skipMs < queueWaitMs queued now

/-- The decision of `_process_condition_event_batch_in_worker` on the next event of a batch. -/
def process (s : ConditionWorkers) (worker : Nat) (now : ℚ) : ConditionWorkers :=
  if s.clearing worker ≠ none then s
  else
    match s.active worker with
    | [] => s
    | queued :: rest =>
        if isStale s.latestGeneration queued then
          { s with
            active := Function.update s.active worker rest
            outcomes := s.outcomes ++ [(queued, .superseded)] }
        else
          let outcome := if shouldSkipStaleInclude config queued now then
            .dropped (queueWaitMs queued now) else .handed
          { s with
            active := Function.update s.active worker rest
            clearing := Function.update s.clearing worker (some queued)
            outcomes := s.outcomes ++ [(queued, outcome)] }

/-- The `finally` behind a processed event. -/
def clear (s : ConditionWorkers) (worker : Nat) : ConditionWorkers :=
  match s.clearing worker with
  | none => s
  | some queued =>
      { s with
        latestGeneration := clearIfCurrent s.latestGeneration queued
        clearing := Function.update s.clearing worker none }

def machine : Machine ConditionWorkers ConditionAction (Option EnqueueResult) where
  step s
    | .enqueue events now => s.enqueue config events now
    | .assign => (s.assign, none)
    | .put => s.put config
    | .drain worker => (s.drain config worker, none)
    | .process worker now => (s.process config worker now, none)
    | .clear worker => (s.clear worker, none)

def after (schedule : List ConditionAction) : ConditionWorkers :=
  (machine config).run {} schedule

end ConditionWorkers

end TradingCore.Transport
