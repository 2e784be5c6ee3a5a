import TradingCore.Broker.CommandRecords
import TradingCore.Broker.QueueLemmas
import TradingCore.Broker.WireRoundTrip

/-!
# Command records survive persistence

The queue changes the status of a record, its times but the first, its attempts, its last error
and its result payload. `Sound` is what it leaves, and all that the codecs need: a record comes
back from its dictionary as it was, and from its row up to the order of the keys of its
dictionaries (`records_survive_persistence`). The identifier, the time and the source of its
command must not be empty, for `from_dict` has defaults for them.
-/

namespace TradingCore.Broker.Wire

open Base Dict Data List Fields

variable {rt : Runtime} {digest : Broker.GatewayCommand → String}

/-! ## What the queue leaves of a record -/

namespace CommandRecord

/-- What a record has in common with its command, and what never is empty. -/
structure Sound (record : CommandRecord) : Prop where
  commandType : record.commandType = record.command.type
  commandId : record.commandId = record.command.commandId
  idempotencyKey : record.idempotencyKey = record.command.idempotencyKey
  source : record.source = record.command.source
  dedupeKey : record.dedupeKey ≠ ""
  createdAt : record.createdAt ≠ ""
  maxAttempts : 1 ≤ record.maxAttempts

theorem formatTime_ne (t : Time) : formatTime t ≠ "" := by
  unfold formatTime
  intro h
  have hlength := congrArg String.length h
  simp at hlength

theorem sound_create (command : GatewayCommand) (priority : Option CommandPriority)
    (ttlSec maxAttempts : Option Int) (now : Time) (metadata : Fields) :
    (create rt digest command priority ttlSec maxAttempts now metadata).Sound :=
  ⟨rfl, rfl, rfl, rfl, dedupeKeyForCommand_ne_empty digest _, formatTime_ne now, le_max_left ..⟩

theorem operate_frame (record : CommandRecord) (operation : QueueOperation) :
    ∃ status dispatchedAt ackedAt finishedAt attempts lastError resultPayload,
      record.operate operation =
        { record with status, dispatchedAt, ackedAt, finishedAt, attempts, lastError
                      resultPayload } ∧
      (resultPayload = record.resultPayload ∨
        ∃ status error now, operation = .ack status resultPayload error now) := by
  cases operation with
  | dispatch now =>
    rw [operate]
    split <;> exact ⟨_, _, _, _, _, _, _, rfl, .inl rfl⟩
  | ack status resultPayload error now =>
    rw [operate]
    split
    · exact ⟨_, _, _, _, _, _, _, rfl, .inr ⟨_, _, _, rfl⟩⟩
    · split <;> exact ⟨_, _, _, _, _, _, _, rfl, .inr ⟨_, _, _, rfl⟩⟩
  | fail error retryable now =>
    rw [operate]
    split <;> exact ⟨_, _, _, _, _, _, _, rfl, .inl rfl⟩
  | cancel now =>
    rw [operate]
    split <;> exact ⟨_, _, _, _, _, _, _, rfl, .inl rfl⟩
  | expireOld now =>
    rw [operate]
    split
    · exact ⟨_, _, _, _, _, _, _, rfl, .inl rfl⟩
    · split <;> exact ⟨_, _, _, _, _, _, _, rfl, .inl rfl⟩

theorem Sound.operate {record : CommandRecord} (h : record.Sound) (operation : QueueOperation) :
    (record.operate operation).Sound := by
  obtain ⟨status, dispatchedAt, ackedAt, finishedAt, attempts, lastError, resultPayload, heq, -⟩ :=
    record.operate_frame operation
  rw [heq]
  exact ⟨h.commandType, h.commandId, h.idempotencyKey, h.source, h.dedupeKey, h.createdAt,
    h.maxAttempts⟩

def QueueOperation.PlainResult : QueueOperation → Prop
  | .ack _ resultPayload _ _ => resultPayload.Plain
  | _ => True

theorem plain_operate {record : CommandRecord} (h : record.resultPayload.Plain)
    {operation : QueueOperation} (hop : operation.PlainResult) :
    (record.operate operation).resultPayload.Plain := by
  obtain ⟨status, dispatchedAt, ackedAt, finishedAt, attempts, lastError, resultPayload, heq,
    hresult⟩ := record.operate_frame operation
  rw [heq]
  rcases hresult with rfl | ⟨status, error, now, rfl⟩
  · exact h
  · exact hop

end CommandRecord

/-! ## Reading -/

@[simp] theorem coerceStatus_statusText (status : CommandStatus) :
    coerceStatus (statusText status) = status := by
  cases status <;> rfl

@[simp] theorem statusText_ne (status : CommandStatus) : statusText status ≠ "" := by
  cases status <;> decide

@[simp] theorem coercePriority_priorityText (priority : CommandPriority) :
    coercePriority (priorityText priority) = priority := by
  cases priority <;> rfl

@[simp] theorem priorityText_ne (priority : CommandPriority) : priorityText priority ≠ "" := by
  cases priority <;> decide

@[simp] theorem int?_int (n : Int) : (int n).int? = some n := rfl

@[simp] theorem none_or (d : Data) : (leaf .none).or d = d := rfl

theorem loadsMapping_ofFields (fields : Fields) : (ofFields fields).loadsMapping = fields :=
  ofList_entries fields

@[simp] theorem loadsMapping_or (fields : Fields) :
    ((ofFields fields).or (.leaf .none)).loadsMapping = fields := by
  unfold Data.or
  split
  · exact loadsMapping_ofFields fields
  · next hfalsy =>
      cases fields with
      | mk entries nodup =>
        cases entries with
        | nil => rfl
        | cons e rest => simp [ofFields, truthy] at hfalsy

theorem plain_ofFields {fields : Fields} (h : fields.Plain) :
    (ofFields fields).plain = ofFields fields :=
  Plain.mapMembers (.dict h) _

theorem loadsMapping_dumps {fields : Fields} (h : fields.Plain) :
    ((ofFields fields).dumps rt.repr).loadsMapping = fields.sortKeys := by
  have hmembers : (ofFields fields).mapMembers (fun v => .str (rt.repr (.member v))) =
      ofFields fields := Plain.mapMembers (.dict h) _
  rw [dumps, hmembers, ofFields_sortKeys]
  exact ofList_entries fields.sortKeys

theorem GatewayCommand.plain_toDict {m : GatewayCommand} (h : m.payload.Plain) : m.toDict.Plain := by
  intro e he
  simp only [toDict, plain_ofFields h, mem_cons, not_mem_nil, or_false] at he
  rcases he with rfl | rfl | rfl | rfl | rfl | rfl | rfl
  · exact .leaf _
  · exact .dict h
  all_goals exact .leaf _

theorem GatewayCommand.fromDict_sortKeys {m : GatewayCommand} (hid : m.commandId ≠ "")
    (htime : m.timestamp ≠ "") (hsource : m.source ≠ "") (hpayload : m.payload.Plain) :
    fromDict rt m.toDict.sortKeys = some { m with payload := m.payload.sortKeys } := by
  have hstr : ∀ s, (str s).sortKeys = str s := fun _ => rfl
  simp only [fromDict, textOr, fieldsOr, item_sortKeys]
  simp [toDict, item, plain_ofFields hpayload, hstr, ofFields_sortKeys, hid, htime, hsource]

/-! ## The two codecs -/

namespace CommandRecord

variable {record : CommandRecord}

theorem rawCommand_toDict : rawCommand record.toDict = record.command.toDict := by
  have hcommand : ((record.toDict.item "command").or
      (record.toDict.item "command_json")).loadsMapping = record.command.toDict := by
    simp [toDict, item]
  have hpayload : ((record.toDict.item "payload").or
      (record.toDict.item "payload_json")).loadsMapping = empty := by
    simp [toDict, item, loadsMapping]
  unfold rawCommand
  rw [hcommand, hpayload]
  simp [empty, GatewayCommand.toDict]

theorem fromDict_toDict (h : record.Sound) (hid : record.command.commandId ≠ "")
    (htime : record.command.timestamp ≠ "") (hsource : record.command.source ≠ "")
    (hpayload : record.command.payload.Plain) :
    fromDict rt digest record.toDict = some record := by
  have hcommand : GatewayCommand.fromDict rt record.command.toDict = some record.command := by
    rw [GatewayCommand.fromDict_toDict, if_neg hid, if_neg htime, if_neg hsource,
      record.command.payload.plain_eq_self_iff.mpr hpayload]
  unfold fromDict
  rw [rawCommand_toDict, hcommand]
  simp [toDict, textOr, item, ← h.commandType, ← h.commandId, ← h.idempotencyKey, ← h.source,
    h.dedupeKey, h.createdAt, h.maxAttempts]

/-- The row of a record, where there is one, has its first time. -/
def RowOf (record : CommandRecord) (row : Option Fields) : Prop :=
  ∀ fields, row = some fields → fields.item "created_at" = .str record.createdAt

theorem rawCommand_upsertRow (hpayload : record.command.payload.Plain) (row : Option Fields) :
    rawCommand (upsertRow rt row record) = record.command.toDict.sortKeys := by
  have hcommand : ((upsertRow rt row record).item "command").or
      ((upsertRow rt row record).item "command_json") =
        (ofFields record.command.toDict).dumps rt.repr := by
    simp [upsertRow, item]
  have hraw : ((upsertRow rt row record).item "payload").or
      ((upsertRow rt row record).item "payload_json") =
        (ofFields record.command.payload).dumps rt.repr := by
    simp [upsertRow, item]
  have htruthy : record.command.payload.sortKeys.entries ≠ [] →
      (record.command.toDict.sortKeys.item "payload").truthy = true := by
    intro hne
    rw [item_sortKeys]
    simp [GatewayCommand.toDict, item, plain_ofFields hpayload, ofFields_sortKeys]
    simpa [ofFields, truthy] using hne
  unfold rawCommand
  rw [hcommand, hraw, loadsMapping_dumps (GatewayCommand.plain_toDict hpayload),
    loadsMapping_dumps hpayload]
  have hne : record.command.toDict.sortKeys.entries ≠ [] := by
    intro hnil
    have hget := get?_sortKeys record.command.toDict "type"
    rw [get?, hnil] at hget
    cases hget
  rw [if_neg hne, if_neg fun h => h.2 (htruthy h.1)]

theorem fromDict_upsertRow (h : record.Sound) (hid : record.command.commandId ≠ "")
    (htime : record.command.timestamp ≠ "") (hsource : record.command.source ≠ "")
    (hpayload : record.command.payload.Plain) (hmetadata : record.metadata.Plain)
    (hresult : record.resultPayload.Plain) {row : Option Fields} (hrow : record.RowOf row) :
    fromDict rt digest (upsertRow rt row record) = some record.sortKeys := by
  have hcreated : (row.map fun row => row.item "created_at").getD (.str record.createdAt) =
      .str record.createdAt := by
    cases row with
    | none => rfl
    | some fields => exact hrow fields rfl
  simp only [item] at hcreated
  unfold fromDict
  rw [rawCommand_upsertRow hpayload, GatewayCommand.fromDict_sortKeys hid htime hsource hpayload]
  simp [upsertRow, textOr, item, hcreated, loadsMapping_dumps hmetadata,
    loadsMapping_dumps hresult, ← h.commandType, ← h.commandId, ← h.idempotencyKey, ← h.source,
    h.dedupeKey, h.createdAt, h.maxAttempts, sortKeys]

theorem sortKeys_same : record.sortKeys.Same record := by
  show record.sortKeys.sortKeys = record.sortKeys
  simp [sortKeys, Fields.sortKeys_sortKeys]

end CommandRecord

/-! ## Runs -/

/-- A step of a record: the queue works on it, or the store writes its row. -/
inductive RecordStep
  | operate (operation : CommandRecord.QueueOperation)
  | upsert

def recordMachine (rt : Runtime) : Machine (CommandRecord × Option Fields) RecordStep Unit where
  step
    | (record, row), .operate operation => ((record.operate operation, row), ())
    | (record, row), .upsert => ((record, some (record.upsertRow rt row)), ())

/-- What a run of a record keeps: all that its codecs need. -/
structure Persistable (command : GatewayCommand) (s : CommandRecord × Option Fields) : Prop where
  command : s.1.command = command
  sound : s.1.Sound
  metadata : s.1.metadata.Plain
  result : s.1.resultPayload.Plain
  row : s.1.RowOf s.2

variable {command : GatewayCommand} {s : CommandRecord × Option Fields}

theorem Persistable.next (h : Persistable command s) {step : RecordStep}
    (hstep : ∀ operation, step = .operate operation → operation.PlainResult) :
    Persistable command ((recordMachine rt).next s step) := by
  cases step with
  | operate operation =>
    have hresult := CommandRecord.plain_operate h.result (hstep operation rfl)
    obtain ⟨status, dispatchedAt, ackedAt, finishedAt, attempts, lastError, resultPayload, heq,
      -⟩ := s.1.operate_frame operation
    have hsound := h.sound.operate operation
    refine ⟨?_, hsound, ?_, hresult, ?_⟩
    · show (s.1.operate operation).command = command
      rw [heq]
      exact h.command
    · show (s.1.operate operation).metadata.Plain
      rw [heq]
      exact h.metadata
    · show (s.1.operate operation).RowOf s.2
      rw [heq]
      exact h.row
  | upsert =>
    refine ⟨h.command, h.sound, h.metadata, h.result, ?_⟩
    intro fields hfields
    obtain rfl := Option.some.inj hfields
    cases hrow : s.2 with
    | none => simp [CommandRecord.upsertRow, item, recordMachine, Machine.next]
    | some row =>
      have hcreated := h.row row hrow
      simp only [item] at hcreated
      simp [CommandRecord.upsertRow, item, recordMachine, Machine.next, hcreated]

theorem Persistable.run (h : Persistable command s) {steps : List RecordStep}
    (hsteps : ∀ operation, .operate operation ∈ steps → operation.PlainResult) :
    Persistable command ((recordMachine rt).run s steps) := by
  induction steps generalizing s with
  | nil => exact h
  | cons step rest ih =>
    have hnext : Persistable command ((recordMachine rt).next s step) :=
      h.next fun operation hop => hsteps operation (hop ▸ mem_cons_self)
    exact ih hnext fun operation hmem => hsteps operation (mem_cons_of_mem step hmem)

/-- A record of a command with an identifier, a time, a source and JSON payload comes back from
its dictionary as it was, and from the row that the store writes up to the order of keys, after
whatever the queue did to it and whenever the store wrote its row before. -/
theorem records_survive_persistence (rt : Runtime) (digest : Broker.GatewayCommand → String)
    (command : GatewayCommand) (hid : command.commandId ≠ "") (htime : command.timestamp ≠ "")
    (hsource : command.source ≠ "") (hpayload : command.payload.Plain)
    (priority : Option CommandPriority) (ttlSec maxAttempts : Option Int) (now : Time)
    (metadata : Fields) (hmetadata : metadata.Plain) (steps : List RecordStep)
    (hsteps : ∀ operation, .operate operation ∈ steps → operation.PlainResult) :
    ∀ s, s = (recordMachine rt).run
        (.create rt digest command priority ttlSec maxAttempts now metadata, none) steps →
      CommandRecord.fromDict rt digest s.1.toDict = some s.1 ∧
        ∃ record, CommandRecord.fromDict rt digest (s.1.upsertRow rt s.2) = some record ∧
          record.Same s.1 := by
  intro s hs
  have hstart : Persistable command
      (.create rt digest command priority ttlSec maxAttempts now metadata, none) :=
    ⟨rfl, CommandRecord.sound_create .., hmetadata, fun e he => absurd he not_mem_nil,
      fun _ hnone => absurd hnone.symm (Option.some_ne_none _)⟩
  have h : Persistable command s := by
    rw [hs]
    exact hstart.run hsteps
  obtain ⟨hcommand, hsound, hmetadata, hresult, hrow⟩ := h
  subst hcommand
  exact ⟨CommandRecord.fromDict_toDict hsound hid htime hsource hpayload, _,
    CommandRecord.fromDict_upsertRow hsound hid htime hsource hpayload hmetadata hresult hrow,
    CommandRecord.sortKeys_same⟩

/-! ## Fixed records -/

def heartbeatRecord (command : GatewayCommand) : CommandRecord :=
  .create testRuntime (fun _ => "d") command none none none 0 empty

def heartbeatSteps : List RecordStep :=
  [.upsert, .operate (.dispatch 1), .operate (.ack .acked (empty.set "code" (.int 0)) "" 2)]

theorem records_survive_persistence_heartbeat :
    CommandRecord.fromDict testRuntime (fun _ => "d") ((recordMachine testRuntime).run
        (heartbeatRecord heartbeatCommand, none) heartbeatSteps).1.toDict =
      some ((recordMachine testRuntime).run (heartbeatRecord heartbeatCommand, none)
        heartbeatSteps).1 := by
  have hpayload : heartbeatCommand.payload.Plain := by
    intro e he
    obtain rfl := mem_singleton.mp he
    exact .leaf _
  have hsteps : ∀ operation, RecordStep.operate operation ∈ heartbeatSteps →
      operation.PlainResult := by
    intro operation hmem
    simp only [heartbeatSteps, mem_cons, not_mem_nil, or_false, reduceCtorEq, false_or,
      RecordStep.operate.injEq] at hmem
    rcases hmem with rfl | rfl
    · trivial
    · intro e he
      obtain rfl := mem_singleton.mp he
      exact .leaf _
  exact (records_survive_persistence testRuntime (fun _ => "d") heartbeatCommand (by decide)
    (by decide) (by decide) hpayload none none none 0 empty
    (fun e he => absurd he not_mem_nil) heartbeatSteps hsteps _ rfl).1

def answeredRecord : CommandRecord :=
  (heartbeatRecord heartbeatCommand).operate
    (.ack .acked (empty.set "state" (.member (.str "IDLE"))) "" 2)

/-- The record of a command without a source comes back as one of the core, and from the row of a
record the member of an enumeration in a result payload comes back as a text. -/
theorem defaults_replace_empty_source :
    CommandRecord.fromDict testRuntime (fun _ => "d")
        (heartbeatRecord { heartbeatCommand with source := "" }).toDict ≠
        some (heartbeatRecord { heartbeatCommand with source := "" }) ∧
      ¬ ∃ record, CommandRecord.fromDict testRuntime (fun _ => "d")
          (answeredRecord.upsertRow testRuntime none) = some record ∧ record.Same answeredRecord := by
  constructor
  · intro h
    unfold CommandRecord.fromDict at h
    rw [CommandRecord.rawCommand_toDict, GatewayCommand.fromDict_toDict] at h
    have hsource := congrArg (fun record => record.command.source) (Option.some.inj h)
    exact absurd hsource (by decide)
  · rintro ⟨record, hread, hsame⟩
    unfold CommandRecord.fromDict at hread
    rw [Option.bind_eq_bind, Option.bind_eq_some_iff] at hread
    obtain ⟨command, -, hrecord⟩ := hread
    obtain rfl := Option.some.inj hrecord
    have hresult := congrArg (fun record => record.resultPayload.entries) hsame
    have hstate : ("state", str "?") = ("state", member (.str "IDLE")) :=
      head_eq_of_cons_eq hresult
    cases hstate

end TradingCore.Broker.Wire
