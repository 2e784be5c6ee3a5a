import TradingCore.Base.Text
import TradingCore.Base.Coalesce
import TradingCore.Transport.CoreClient

/-!
# Condition-event batching

Events of the Kiwoom condition search (a stock enters or leaves the result of a
condition) go to Core in batches. `_drain_condition_events` moves them from the
queue into the pending batch, where an event with the batch key of an earlier one
takes its place; the connection loop sends the batch when it is due
(`trading/broker/gateway_transport.py`).
-/

namespace TradingCore.Transport

open Base Broker Text List

/-! ## The batch key -/

/-- `_payload_text`: the first of `keys` whose value has a text that is not blank. -/
def payloadText (payload : Mapping) : List String → String
  | [] => ""
  | key :: keys =>
      let value := payload.value key
      let text := strip value.text
      if value ≠ .none ∧ text ≠ "" then text else payloadText payload keys

/-- The digits of a text, filled up to six, or the empty text if there are none. -/
def codeDigits (text : List Char) : String :=
  if text.filter Char.isDigit = [] then "" else zfill 6 (.ofList (text.filter Char.isDigit))

/-- The code that `_clean_code_set` makes of one value, the empty text if none. -/
def cleanCode (raw : Value) : String :=
  let text := (upper (strip (raw.or (.str "")).text)).toList
  codeDigits (if text.head? = some 'A' ∧ text.length = 7 then text.tail else text)

def conditionCode (payload : Mapping) : String :=
  cleanCode (((payload.value "code").or (payload.value "stock_code")).or (payload.value "symbol"))

def conditionName (payload : Mapping) : String := payloadText payload ["condition_name", "condition"]

def conditionIndex (payload : Mapping) : String := payloadText payload ["condition_index", "index"]

/-- `include` or `remove`. -/
def conditionAction (payload : Mapping) : String :=
  lower (payloadText payload ["event_type", "action"])

def conditionEventBatchKey (event : GatewayEvent) : String :=
  if event.type ≠ "condition_event" then "" else
    let code := conditionCode event.payload
    if code = "" then "" else
      "|".intercalate
        [conditionName event.payload,
         conditionIndex event.payload,
         code,
         conditionAction event.payload,
         payloadText event.payload ["source"],
         payloadText event.payload ["strategy_profile", "profile"],
         payloadText event.payload ["purpose"]]

/-! ## Condition events -/

/-- The texts of a condition event that stand behind its name in the batch key and
that the Gateway fills from numbers and literals. -/
def plainTexts (payload : Mapping) : List String :=
  [conditionIndex payload, payloadText payload ["source"],
   payloadText payload ["strategy_profile", "profile"], payloadText payload ["purpose"]]

/-- An include or remove event of the condition search, as it is queued. -/
structure ConditionEvent extends GatewayEvent where
  isCondition : type = "condition_event"
  known : conditionAction payload = "include" ∨ conditionAction payload = "remove"
  plain : ∀ text ∈ plainTexts payload, '|' ∉ text.toList

theorem notMem_payloadText {c : Char} {payload : Mapping} {keys : List String}
    (h : ∀ key ∈ keys, payload.value key ≠ .none → c ∉ (payload.value key).text.toList) :
    c ∉ (payloadText payload keys).toList := by
  induction keys with
  | nil => simp [payloadText]
  | cons key rest ih =>
    rw [payloadText]
    split
    · rename_i hpresent
      exact fun hmem => h key mem_cons_self hpresent.1 (mem_of_mem_strip hmem)
    · exact ih fun key' hkey' => h key' (mem_cons_of_mem key hkey')

/-- The payload the Gateway makes of a real-time signal of the condition search
(`condition_real_received` in `apps/kiwoom_gateway.py`). -/
def kiwoomConditionPayload (code name : String) (index : Int) (eventType : String) : Mapping :=
  .ofList
    [("code", .str code),
     ("condition_name", .str name),
     ("condition_index", .int (if index = 0 then -1 else index)),
     ("event_type", .str (if upper eventType = "I" then "include" else "remove")),
     ("source", .str "condition")]

theorem kiwoomConditionPayload_value (code name : String) (index : Int) (eventType key : String) :
    (kiwoomConditionPayload code name index eventType).value key =
      if key = "source" then .str "condition"
      else if key = "event_type" then
        .str (if upper eventType = "I" then "include" else "remove")
      else if key = "condition_index" then .int (if index = 0 then -1 else index)
      else if key = "condition_name" then .str name
      else if key = "code" then .str code
      else .none := by
  simp only [kiwoomConditionPayload, Mapping.value, Dict.ofList, Dict.getD, foldl_cons,
    foldl_nil, Dict.get?_set, Dict.get?_empty]
  repeat' split
  all_goals rfl

theorem lower_strip_action :
    lower (strip "include") = "include" ∧ lower (strip "remove") = "remove" := by
  decide

theorem kiwoomConditionPayload_known (code name : String) (index : Int) (eventType : String) :
    conditionAction (kiwoomConditionPayload code name index eventType) = "include" ∨
      conditionAction (kiwoomConditionPayload code name index eventType) = "remove" := by
  have hinclude : strip "include" ≠ "" := by decide
  have hremove : strip "remove" ≠ "" := by decide
  by_cases h : upper eventType = "I"
  · refine .inl ?_
    simp [conditionAction, payloadText, kiwoomConditionPayload_value, h, Value.text, hinclude,
      lower_strip_action.1]
  · refine .inr ?_
    simp [conditionAction, payloadText, kiwoomConditionPayload_value, h, Value.text, hremove,
      lower_strip_action.2]

theorem kiwoomConditionPayload_plain (code name : String) (index : Int) (eventType : String) :
    ∀ text ∈ plainTexts (kiwoomConditionPayload code name index eventType), '|' ∉ text.toList := by
  have hkeys : ∀ key, key ≠ "event_type" → key ≠ "condition_name" → key ≠ "code" →
      (kiwoomConditionPayload code name index eventType).value key ≠ .none →
      '|' ∉ ((kiwoomConditionPayload code name index eventType).value key).text.toList := by
    intro key htype hname hcode hpresent
    rw [kiwoomConditionPayload_value] at hpresent ⊢
    by_cases hsource : key = "source"
    · rw [if_pos hsource, Value.text]
      decide
    · by_cases hindex : key = "condition_index"
      · rw [if_neg hsource, if_neg htype, if_pos hindex, Value.text]
        exact notMem_toString (by decide) (by decide) _
      · simp [hsource, htype, hindex, hname, hcode] at hpresent
  intro text htext
  simp only [plainTexts, conditionIndex, mem_cons, not_mem_nil, or_false] at htext
  have hkey : ∀ keys, (∀ key ∈ keys, key ≠ "event_type" ∧ key ≠ "condition_name" ∧ key ≠ "code") →
      '|' ∉ (payloadText (kiwoomConditionPayload code name index eventType) keys).toList := by
    intro keys hother
    refine notMem_payloadText fun key hmem => ?_
    obtain ⟨htype, hname, hcode⟩ := hother key hmem
    exact hkeys key htype hname hcode
  rcases htext with h | h | h | h
  all_goals
    rw [h]
    exact hkey _ (by decide)

def kiwoomConditionEvent (eventId code name : String) (index : Int) (eventType : String) :
    ConditionEvent where
  type := "condition_event"
  payload := kiwoomConditionPayload code name index eventType
  eventId := eventId
  isCondition := rfl
  known := kiwoomConditionPayload_known code name index eventType
  plain := kiwoomConditionPayload_plain code name index eventType

/-! ## The batch -/

/-- `_append_condition_batch_event`: the pending batch, and whether it has grown. -/
def appendConditionBatchEvent (pending : List ConditionEvent) (event : ConditionEvent) :
    List ConditionEvent × Bool :=
  let key := conditionEventBatchKey event.toGatewayEvent
  if key ≠ "" then
    match replaceLast (fun e => conditionEventBatchKey e.toGatewayEvent = key) event pending with
    | some pending' => (pending', false)
    | none => (pending ++ [event], true)
  else (pending ++ [event], true)

/-- `_drain_condition_events`: the pending batch and what is left in the queue. -/
def drainConditionEvents (maxSize : Nat) :
    List ConditionEvent → List ConditionEvent → List ConditionEvent × List ConditionEvent
  | pending, [] => (pending, [])
  | pending, event :: queue =>
      if pending.length < maxSize then
        drainConditionEvents maxSize (appendConditionBatchEvent pending event).1 queue
      else (pending, event :: queue)

/-- The batching of one connection. `sent` are the batches that have gone out;
`window` is history: the events drained since the last of them, and `closed` those
drained before, batch by batch. -/
structure ConditionBatcher where
  /-- `condition_event_batch_max_size`. -/
  maxSize : Int := 100
  queue : List ConditionEvent := []
  pending : List ConditionEvent := []
  sent : List (List ConditionEvent) := []
  closed : List (List ConditionEvent) := []
  window : List ConditionEvent := []

/-- One action: an event is queued, the connection loop drains the queue, or it
finds the batch due and sends it. -/
inductive BatchAction
  | post (event : ConditionEvent)
  | drain
  | send

namespace ConditionBatcher

/-- `_drain_condition_events` on the connection's batch. -/
def drain (b : ConditionBatcher) : ConditionBatcher :=
  let result := drainConditionEvents (boundOr 100 b.maxSize) b.pending b.queue
  { b with pending := result.1
           queue := result.2
           window := b.window ++ b.queue.take (b.queue.length - result.2.length) }

def send (b : ConditionBatcher) : ConditionBatcher :=
  if b.pending = [] then b
  else { b with pending := [], sent := b.sent ++ [b.pending]
                closed := b.closed ++ [b.window], window := [] }

def act (b : ConditionBatcher) : BatchAction → ConditionBatcher
  | .post event => { b with queue := b.queue ++ [event] }
  | .drain => b.drain
  | .send => b.send

def machine : Machine ConditionBatcher BatchAction Unit := ⟨fun b a => (b.act a, ())⟩

def produced (b : ConditionBatcher) : List ConditionEvent := b.sent.flatten ++ b.pending

def windows (b : ConditionBatcher) : List (List ConditionEvent) := b.closed ++ [b.window]

end ConditionBatcher

end TradingCore.Transport
