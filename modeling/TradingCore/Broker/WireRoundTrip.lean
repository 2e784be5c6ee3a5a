import TradingCore.Broker.WireModels

/-!
# The wire models and their dictionaries

What `from_dict` makes of what `to_dict` writes, model by model: the `or` of a reader replaces an
empty text by its default, and `_to_dict` an enumeration member by its value. `wire_round_trip`
says which values come back as they were.
-/

namespace TradingCore.Broker.Wire

open Base Dict Data Option

variable {rt : Runtime}

/-! ## Fields -/

variable {data : Fields} {key : String}

@[simp] theorem text_or_str (s default : String) :
    ((Data.str s).or (.str default)).text rt.repr = if s = "" then default else s := by
  by_cases hs : s = "" <;> simp [Data.or, Data.str, Data.truthy, Value.truthy, Data.text,
    Value.text, hs]

@[simp] theorem int?_or_int (n default : Int) :
    ((Data.int n).or (.int default)).int? = some (if n = 0 then default else n) := by
  by_cases hn : n = 0 <;> simp [Data.or, Data.int, Data.truthy, Value.truthy, Data.int?,
    Value.int?, hn]

@[simp] theorem ite_empty (s : String) : (if s = "" then "" else s) = s := by
  split
  · next hs => rw [hs]
  · rfl

@[simp] theorem ite_zero (n : Int) : (if n = 0 then 0 else n) = n := by
  split
  · next hn => rw [hn]
  · rfl

@[simp] theorem fields?_or_plain (fields : Fields) :
    ((ofFields fields).plain.or (.dict [])).fields? = some fields.plain := by
  unfold Data.or
  split
  · exact fields.fields?_plain
  · next hfalsy =>
      cases fields with
      | mk entries nodup =>
        cases entries with
        | nil => rfl
        | cons e rest => simp [ofFields, plain, mapMembers, mapEntries_eq, truthy] at hfalsy

@[simp] theorem fields?_or (fields : Fields) : ((ofFields fields).or (.dict [])).fields? = some fields := by
  unfold Data.or
  split
  · exact congrArg some (ofList_entries fields)
  · next hfalsy =>
      cases fields with
      | mk entries nodup =>
        cases entries with
        | nil => rfl
        | cons e rest => simp [ofFields, truthy] at hfalsy

@[simp] theorem items?_or_plain (rows : List Fields) :
    ((list (rows.map ofFields)).plain.or (.list [])).items? =
      some (rows.map fun row => (ofFields row).plain) := by
  rw [plain, mapMembers, mapItems_eq, List.map_map]
  cases rows <;> rfl

@[simp] theorem mapM_fields?_plain (rows : List Fields) :
    rows.mapM (fields? ∘ fun row => (ofFields row).plain) = some (rows.map Fields.plain) := by
  induction rows with
  | nil => rfl
  | cons row rest ih =>
    rw [List.mapM_cons, Function.comp_apply, Fields.fields?_plain, ih]
    rfl

@[simp] theorem mapVals_text_str (inputs : Dict String String) :
    ((inputs.mapVals fun _ => str).mapVals fun _ d => d.text rt.repr) = inputs := by
  cases inputs with
  | mk entries nodup =>
    simp only [mapVals, List.map_map, mk.injEq]
    exact map_eq_self_iff.mpr fun _ _ => rfl

/-! ## Models -/

theorem BrokerOrderRequest.fromDict_toDict (m : BrokerOrderRequest) :
    fromDict rt m.toDict =
      some { m with hoga := if m.hoga = "" then "00" else m.hoga, metadata := m.metadata.plain } := by
  simp [fromDict, toDict, textOr, intOr, fieldsOr, Fields.item]

theorem BrokerOrderResult.fromDict_toDict (m : BrokerOrderResult) :
    fromDict rt m.toDict =
      some { m with
        request := { m.request with
          hoga := if m.request.hoga = "" then "00" else m.request.hoga
          metadata := m.request.metadata.plain }
        commandId := if m.commandId = "" then m.request.commandId else m.commandId
        idempotencyKey :=
          if m.idempotencyKey = "" then m.request.idempotencyKey else m.idempotencyKey
        raw := m.raw.plain } := by
  simp [fromDict, toDict, textOr, fieldsOr, Fields.item,
    BrokerOrderRequest.fromDict_toDict, truthy, Value.truthy]

theorem BrokerExecutionEvent.fromDict_toDict (m : BrokerExecutionEvent) :
    fromDict rt m.toDict =
      some { m with
        timestamp := if m.timestamp = "" then rt.utcTimestamp else m.timestamp
        raw := m.raw.plain } := by
  simp [fromDict, toDict, textOr, intOr, fieldsOr, Fields.item]

theorem BrokerConditionEvent.fromDict_toDict (m : BrokerConditionEvent) :
    fromDict rt m.toDict =
      some { m with
        conditionIndex := if m.conditionIndex = 0 then -1 else m.conditionIndex
        eventType := if m.eventType = "" then "include" else m.eventType
        source := if m.source = "" then "condition" else m.source
        timestamp := if m.timestamp = "" then rt.utcTimestamp else m.timestamp } := by
  simp [fromDict, toDict, textOr, Fields.item]

theorem BrokerTrRequest.fromDict_toDict (m : BrokerTrRequest) :
    fromDict rt m.toDict = some m := by
  simp [fromDict, toDict, textOr, intOr, fieldsOr, Fields.item]

theorem BrokerTrResponse.fromDict_toDict (m : BrokerTrResponse) :
    fromDict rt m.toDict =
      some { m with
        rows := m.rows.map Fields.plain
        timestamp := if m.timestamp = "" then rt.utcTimestamp else m.timestamp } := by
  simp [fromDict, toDict, textOr, Fields.item]

theorem GatewayEvent.fromDict_toDict (m : GatewayEvent) :
    fromDict rt m.toDict =
      some { m with
        payload := m.payload.plain
        eventId := if m.eventId = "" then rt.newMessageId "evt" else m.eventId
        timestamp := if m.timestamp = "" then rt.utcTimestamp else m.timestamp
        source := if m.source = "" then "kiwoom_gateway" else m.source } := by
  simp [fromDict, toDict, textOr, fieldsOr, Fields.item]

theorem GatewayCommand.fromDict_toDict (m : GatewayCommand) :
    fromDict rt m.toDict =
      some { m with
        payload := m.payload.plain
        commandId := if m.commandId = "" then rt.newMessageId "cmd" else m.commandId
        timestamp := if m.timestamp = "" then rt.utcTimestamp else m.timestamp
        source := if m.source = "" then "core" else m.source } := by
  simp [fromDict, toDict, textOr, fieldsOr, Fields.item]

/-! ## Round trips -/

theorem ite_ne_iff {s default : String} (h : default ≠ "") :
    (if s = "" then default else s) = s ↔ s ≠ "" := by
  by_cases hs : s = "" <;> simp [hs, h]

theorem ite_fallback_iff {s fallback : String} :
    (if s = "" then fallback else s) = s ↔ (s = "" → fallback = "") := by
  by_cases hs : s = "" <;> simp [hs]

theorem rows_plain_iff (rows : List Fields) :
    rows.map Fields.plain = rows ↔ ∀ row ∈ rows, row.Plain := by
  rw [map_eq_self_iff]
  exact forall₂_congr fun row _ => row.plain_eq_self_iff

/-- Which values of the wire models come back from their dictionaries as they were. Identifiers
that are drawn and times that are read when they are missing are there; the index of a condition
is not 0. -/
theorem wire_round_trip (rt : Runtime) :
    (∀ m : BrokerOrderRequest, BrokerOrderRequest.fromDict rt m.toDict = some m ↔
      m.hoga ≠ "" ∧ m.metadata.Plain) ∧
    (∀ m : BrokerOrderResult, BrokerOrderResult.fromDict rt m.toDict = some m ↔
      (m.request.hoga ≠ "" ∧ m.request.metadata.Plain) ∧
        (m.commandId = "" → m.request.commandId = "") ∧
        (m.idempotencyKey = "" → m.request.idempotencyKey = "") ∧ m.raw.Plain) ∧
    (∀ m : BrokerExecutionEvent, m.timestamp ≠ "" →
      (BrokerExecutionEvent.fromDict rt m.toDict = some m ↔ m.raw.Plain)) ∧
    (∀ m : BrokerConditionEvent, m.timestamp ≠ "" → m.conditionIndex ≠ 0 →
      (BrokerConditionEvent.fromDict rt m.toDict = some m ↔ m.eventType ≠ "" ∧ m.source ≠ "")) ∧
    (∀ m : BrokerTrRequest, BrokerTrRequest.fromDict rt m.toDict = some m) ∧
    (∀ m : BrokerTrResponse, m.timestamp ≠ "" →
      (BrokerTrResponse.fromDict rt m.toDict = some m ↔ ∀ row ∈ m.rows, row.Plain)) ∧
    (∀ m : GatewayEvent, m.eventId ≠ "" → m.timestamp ≠ "" →
      (GatewayEvent.fromDict rt m.toDict = some m ↔ m.payload.Plain ∧ m.source ≠ "")) ∧
    ∀ m : GatewayCommand, m.commandId ≠ "" → m.timestamp ≠ "" →
      (GatewayCommand.fromDict rt m.toDict = some m ↔ m.payload.Plain ∧ m.source ≠ "") := by
  have hrequest : ∀ m : BrokerOrderRequest,
      { m with hoga := if m.hoga = "" then "00" else m.hoga, metadata := m.metadata.plain } = m ↔
        m.hoga ≠ "" ∧ m.metadata.Plain := by
    intro m
    rw [← m.metadata.plain_eq_self_iff, ← ite_ne_iff (s := m.hoga) (by decide : "00" ≠ "")]
    cases m
    simp
  refine ⟨fun m => ?_, fun m => ?_, fun m htime => ?_, fun m htime hindex => ?_, fun m => ?_,
    fun m htime => ?_, fun m hid htime => ?_, fun m hid htime => ?_⟩
  · rw [BrokerOrderRequest.fromDict_toDict, some.injEq, hrequest]
  · rw [BrokerOrderResult.fromDict_toDict, some.injEq, ← hrequest, ← ite_fallback_iff,
      ← ite_fallback_iff, ← m.raw.plain_eq_self_iff]
    cases m
    simp
  · rw [BrokerExecutionEvent.fromDict_toDict, some.injEq, if_neg htime,
      ← m.raw.plain_eq_self_iff]
    cases m
    simp
  · rw [BrokerConditionEvent.fromDict_toDict, some.injEq, if_neg htime, if_neg hindex,
      ← ite_ne_iff (s := m.eventType) (by decide : "include" ≠ ""),
      ← ite_ne_iff (s := m.source) (by decide : "condition" ≠ "")]
    cases m
    simp
  · exact m.fromDict_toDict
  · rw [BrokerTrResponse.fromDict_toDict, some.injEq, if_neg htime, ← rows_plain_iff]
    cases m
    simp
  · rw [GatewayEvent.fromDict_toDict, some.injEq, if_neg hid, if_neg htime,
      ← m.payload.plain_eq_self_iff,
      ← ite_ne_iff (s := m.source) (by decide : "kiwoom_gateway" ≠ "")]
    cases m
    simp
  · rw [GatewayCommand.fromDict_toDict, some.injEq, if_neg hid, if_neg htime,
      ← m.payload.plain_eq_self_iff, ← ite_ne_iff (s := m.source) (by decide : "core" ≠ "")]
    cases m
    simp

/-! ## Fixed values -/

def testRuntime : Runtime where
  repr := fun _ => "?"
  newMessageId := fun kind => kind ++ "_1"
  utcTimestamp := "t1"

def heartbeatCommand : GatewayCommand where
  type := "heartbeat"
  payload := empty.set "price" (.int 0)
  commandId := "cmd_1"
  timestamp := "t0"

theorem heartbeat_round_trip :
    GatewayCommand.fromDict testRuntime heartbeatCommand.toDict = some heartbeatCommand := by
  have hplain : heartbeatCommand.payload.Plain := by
    intro e he
    obtain rfl := List.mem_singleton.mp he
    exact .leaf _
  exact ((wire_round_trip testRuntime).2.2.2.2.2.2.2 heartbeatCommand (by decide) (by decide)).mpr
    ⟨hplain, by decide⟩

def unquotedRequest : BrokerOrderRequest where
  account := "8"
  code := "005930"
  quantity := 1
  price := 0
  side := "BUY"
  hoga := ""
  commandId := "cmd_1"

def unnamedResult : BrokerOrderResult where
  ok := true
  code := 0
  message := ""
  request := { unquotedRequest with hoga := "03" }

/-- A command without a source comes back as one of the core, a request without a kind of
quotation as one of kind `00`, a result takes over the command of its request, and a payload gets
the value of an enumeration member for the member. -/
theorem defaults_replace_empty_texts :
    GatewayCommand.fromDict testRuntime { heartbeatCommand with source := "" }.toDict ≠
        some { heartbeatCommand with source := "" } ∧
      BrokerOrderRequest.fromDict testRuntime unquotedRequest.toDict ≠ some unquotedRequest ∧
      BrokerOrderResult.fromDict testRuntime unnamedResult.toDict ≠ some unnamedResult ∧
      GatewayCommand.fromDict testRuntime
          { heartbeatCommand with payload := empty.set "state" (.member (.str "IDLE")) }.toDict ≠
        some { heartbeatCommand with payload := empty.set "state" (.member (.str "IDLE")) } := by
  refine ⟨fun h => ?_, fun h => ?_, fun h => ?_, fun h => ?_⟩
  · rw [GatewayCommand.fromDict_toDict] at h
    exact absurd (congrArg GatewayCommand.source (some.inj h)) (by decide)
  · rw [BrokerOrderRequest.fromDict_toDict] at h
    exact absurd (congrArg BrokerOrderRequest.hoga (some.inj h)) (by decide)
  · rw [BrokerOrderResult.fromDict_toDict] at h
    exact absurd (congrArg BrokerOrderResult.commandId (some.inj h)) (by decide)
  · rw [GatewayCommand.fromDict_toDict] at h
    have hpayload := congrArg (fun m => m.payload.entries) (some.inj h)
    have hstate : ("state", leaf (.str "IDLE")) = ("state", member (.str "IDLE")) :=
      List.head_eq_of_cons_eq hpayload
    cases hstate

end TradingCore.Broker.Wire
