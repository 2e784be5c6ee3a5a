import TradingCore.Broker.CommandStore
import TradingCore.Broker.QueueLemmas

/-!
# What the store operations do to a row

One specification for each operation of `SQLiteCommandStore`: the record that
`gateway_commands` holds under every command id afterwards, and the row of the
dedupe ledger under every key. `WellFormed` is the shape of every reachable
store: rows are filed under the command id of their record, and no id is empty.
-/

namespace TradingCore.Broker

open Base List Dict

/-- The record as an upsert leaves it in its row: a row that is there keeps its
`created_at`. -/
def CommandRecord.writtenOver (record : CommandRecord) (row : Option CommandRecord) :
    CommandRecord :=
  { record with createdAt := match row with
    | some old => old.createdAt
    | none => record.createdAt }

namespace SQLiteCommandStore

structure WellFormed (s : SQLiteCommandStore) : Prop where
  filed : ∀ id record, s.getRecord id = some record →
    record.commandId = id ∧ record.command.commandId = id
  named : s.getRecord "" = none

theorem wellFormed_fresh (retention : Int) :
    WellFormed { dedupeRetentionSec := retention } := by
  refine ⟨?_, rfl⟩
  intro id record h
  cases h

/-! ## Single writes -/

variable (s : SQLiteCommandStore)

@[simp] theorem gatewayCommands_appendEvent (event : CommandEvent) :
    (s.appendEvent event).gatewayCommands = s.gatewayCommands := rfl

@[simp] theorem getRecord_appendEvent (event : CommandEvent) (id : String) :
    (s.appendEvent event).getRecord id = s.getRecord id := rfl

@[simp] theorem dedupeRetentionSec_appendEvent (event : CommandEvent) :
    (s.appendEvent event).dedupeRetentionSec = s.dedupeRetentionSec := rfl

theorem gatewayCommands_upsertRecord (record : CommandRecord) (wall : Time) :
    (s.upsertRecord record wall).gatewayCommands = (s.upsertRow record wall).gatewayCommands := by
  unfold upsertRecord upsertDedupe
  split
  · rfl
  · rfl

theorem getRecord_upsertRecord (record : CommandRecord) (wall : Time) (id : String) :
    (s.upsertRecord record wall).getRecord id =
      if id = record.commandId then some (record.writtenOver (s.getRecord id))
      else s.getRecord id := by
  unfold getRecord
  rw [gatewayCommands_upsertRecord]
  simp only [upsertRow, get?_set]
  by_cases h : id = record.commandId
  · rw [if_pos h, if_pos h, h]
    cases s.gatewayCommands.get? record.commandId <;> rfl
  · rw [if_neg h, if_neg h]

theorem getRecord_updateStatus (commandId : String) (status : CommandStatus)
    (resultPayload : Option Mapping) (error : Option String) (eventType message : String)
    (current : Time) (id : String) :
    (s.updateStatus commandId status resultPayload error eventType message current).1.getRecord id =
      if id = commandId then
        (s.getRecord commandId).map fun r => updatedRecord r status resultPayload error current
      else s.getRecord id := by
  unfold updateStatus
  cases hrow : s.gatewayCommands.get? commandId with
  | none =>
    by_cases h : id = commandId
    · rw [if_pos h, h]
      simp [getRecord, hrow]
    · rw [if_neg h]
      rfl
  | some row =>
    by_cases h : id = commandId
    · rw [if_pos h, h]
      simp [getRecord, hrow]
    · rw [if_neg h]
      simp [getRecord, get?_set_ne _ _ h]

/-- The dedupe ledger under a key: owner, type and expiry. -/
def ledger (s : SQLiteCommandStore) (key : String) : Option (String × String × Option Time) :=
  (s.dedupeKeys.get? key).map fun d => (d.commandId, d.commandType, d.expiresAt)

/-- The ledger entry that an upsert of a record writes. -/
def ledgerEntry (record : CommandRecord) (retentionSec : Int) (wall : Time) :
    String × String × Option Time :=
  (record.commandId, record.commandType, some (dedupeExpiresAt record retentionSec wall))

@[simp] theorem ledger_appendEvent (event : CommandEvent) (key : String) :
    (s.appendEvent event).ledger key = s.ledger key := rfl

theorem ledger_upsertRecord {record : CommandRecord} (hkey : record.dedupeKey ≠ "") (wall : Time)
    (key : String) :
    (s.upsertRecord record wall).ledger key =
      if key = record.dedupeKey then some (ledgerEntry record s.dedupeRetentionSec wall)
      else s.ledger key := by
  unfold ledger upsertRecord upsertDedupe
  rw [if_neg hkey]
  simp only [get?_set]
  by_cases h : key = record.dedupeKey
  · rw [if_pos h, if_pos h]
    rfl
  · rw [if_neg h, if_neg h]
    rfl

theorem ledger_updateStatus (commandId : String) (status : CommandStatus)
    (resultPayload : Option Mapping) (error : Option String) (eventType message : String)
    (current : Time) (key : String) :
    (s.updateStatus commandId status resultPayload error eventType message current).1.ledger key =
      s.ledger key := by
  unfold updateStatus
  cases s.gatewayCommands.get? commandId with
  | none => rfl
  | some row =>
    show ((s.dedupeKeys.mapVals _).get? key).map _ = (s.dedupeKeys.get? key).map _
    rw [get?_mapVals, Option.map_map]
    refine Option.map_congr ?_
    intro d _
    by_cases h : d.commandId = commandId
    · simp [h]
    · simp [h]

/-! ## The retention period -/

@[simp] theorem dedupeRetentionSec_upsertRecord (record : CommandRecord) (wall : Time) :
    (s.upsertRecord record wall).dedupeRetentionSec = s.dedupeRetentionSec := by
  unfold upsertRecord upsertDedupe
  split
  · rfl
  · rfl

@[simp] theorem dedupeRetentionSec_updateStatus (commandId : String) (status : CommandStatus)
    (resultPayload : Option Mapping) (error : Option String) (eventType message : String)
    (current : Time) :
    (s.updateStatus commandId status resultPayload error eventType message
      current).1.dedupeRetentionSec = s.dedupeRetentionSec := by
  unfold updateStatus
  cases s.gatewayCommands.get? commandId <;> rfl

/-! ## Enqueue -/

/-- The two outcomes of `enqueue_record`. -/
theorem enqueueRecord_cases (record : CommandRecord) (wall : Time) :
    ((s.enqueueRecord record wall).2.accepted = false ∧
      (∀ id, (s.enqueueRecord record wall).1.getRecord id = s.getRecord id) ∧
      (∀ key, (s.enqueueRecord record wall).1.ledger key = s.ledger key) ∧
      (s.enqueueRecord record wall).1.dedupeRetentionSec = s.dedupeRetentionSec) ∨
    ((s.enqueueRecord record wall).2 = { accepted := true, record := some record } ∧
      record.commandId ≠ "" ∧ s.getRecord record.commandId = none ∧
      (∀ retained, s.retainedDedupe record.dedupeKey wall = some retained →
        retained.commandId = record.commandId) ∧
      (∀ id, (s.enqueueRecord record wall).1.getRecord id =
        (s.upsertRecord record wall).getRecord id) ∧
      (∀ key, (s.enqueueRecord record wall).1.ledger key =
        (s.upsertRecord record wall).ledger key) ∧
      (s.enqueueRecord record wall).1.dedupeRetentionSec = s.dedupeRetentionSec) := by
  unfold enqueueRecord
  by_cases hid : record.commandId = ""
  · rw [if_pos hid]
    exact .inl ⟨rfl, fun _ => rfl, fun _ => rfl, rfl⟩
  · rw [if_neg hid]
    by_cases hrow : s.gatewayCommands.contains record.commandId = true
    · rw [if_pos hrow]
      exact .inl ⟨rfl, fun _ => rfl, fun _ => rfl, rfl⟩
    · rw [if_neg hrow]
      have hnone : s.getRecord record.commandId = none := by
        unfold getRecord
        rw [contains_eq_false.mp (Bool.eq_false_iff.mpr hrow)]
        rfl
      cases hret : (s.retainedDedupe record.dedupeKey wall).filter
          (fun retained => retained.commandId ≠ record.commandId) with
      | some retained => exact .inl ⟨rfl, fun _ => rfl, fun _ => rfl, rfl⟩
      | none =>
        refine .inr ⟨rfl, hid, hnone, ?_, fun _ => rfl, fun _ => rfl, ?_⟩
        · intro retained hr
          rw [hr, Option.filter_some] at hret
          by_contra hne
          simp [hne] at hret
        · simp only [dedupeRetentionSec_appendEvent, dedupeRetentionSec_upsertRecord]

/-! ## Expiry -/

/-- What `expire_old_records` leaves of a record. -/
def expiredRecord (includeDispatched : Bool) (now : Time) (record : CommandRecord) :
    CommandRecord :=
  if expirable includeDispatched now ⟨record, now⟩ then
    updatedRecord record .expired none (some "COMMAND_TTL_EXPIRED") now
  else record

theorem expiredRecord_status (record : CommandRecord) (now : Time) :
    (expiredRecord true now record).status = (record.expire now).status := by
  have hexp : expirable true now ⟨record, now⟩ =
      (!record.finished && record.isExpired now) := by
    unfold expirable
    cases hf : record.finished with
    | false =>
      rcases CommandRecord.finished_eq_false.mp hf with hs | hs
      · simp [hs]
      · simp [hs]
    | true =>
      have hnot : ¬ (record.status = .queued ∨ record.status = .dispatched) := by
        rw [← CommandRecord.finished_eq_false, hf]
        decide
      rw [not_or] at hnot
      simp [hnot.1, hnot.2]
  unfold expiredRecord
  rw [hexp, CommandRecord.expire_status]
  cases record.finished <;> cases record.isExpired now <;> simp [updatedRecord]

theorem getRecord_foldl_expire (now : Time) :
    ∀ (ids : List (String × CommandRow)) (s : SQLiteCommandStore),
      (ids.map Prod.fst).Nodup → ∀ id,
      (ids.foldl (fun s entry => (s.updateStatus entry.1 .expired none
        (some "COMMAND_TTL_EXPIRED") "expired" "command TTL expired" now).1) s).getRecord id =
      if id ∈ ids.map Prod.fst then
        (s.getRecord id).map fun r =>
          updatedRecord r .expired none (some "COMMAND_TTL_EXPIRED") now
      else s.getRecord id := by
  intro ids
  induction ids with
  | nil =>
    intro s _ id
    simp
  | cons e rest ih =>
    intro s hnd id
    rw [map_cons, nodup_cons] at hnd
    rw [foldl_cons, ih _ hnd.2, getRecord_updateStatus]
    by_cases he : id = e.1
    · have hnot : id ∉ rest.map Prod.fst := by
        rw [he]
        exact hnd.1
      rw [if_neg hnot, if_pos he, he]
      simp
    · by_cases hin : id ∈ rest.map Prod.fst
      · rw [if_pos hin, if_neg he, if_pos (by simp [mem_map.mp hin])]
      · rw [if_neg hin, if_neg he, if_neg (by rw [map_cons, mem_cons, not_or]; exact ⟨he, hin⟩)]

theorem getRecord_expireOldRecords (includeDispatched : Bool) (now : Time) (id : String) :
    (s.expireOldRecords includeDispatched now).1.getRecord id =
      (s.getRecord id).map (expiredRecord includeDispatched now) := by
  unfold expireOldRecords
  have hnd : ((s.gatewayCommands.entries.filter
      fun entry => expirable includeDispatched now entry.2).map Prod.fst).Nodup :=
    (filter_sublist.map _).nodup s.gatewayCommands.nodup
  rw [getRecord_foldl_expire now _ s hnd]
  -- an id is selected exactly if its row is expirable
  have hsel : id ∈ (s.gatewayCommands.entries.filter
      fun entry => expirable includeDispatched now entry.2).map Prod.fst ↔
      ∃ row, s.gatewayCommands.get? id = some row ∧ expirable includeDispatched now row = true := by
    rw [mem_map]
    constructor
    · rintro ⟨e, he, rfl⟩
      obtain ⟨hmem, hexp⟩ := mem_filter.mp he
      exact ⟨e.2, mem_entries_iff.mp hmem, hexp⟩
    · rintro ⟨row, hrow, hexp⟩
      exact ⟨(id, row), mem_filter.mpr ⟨mem_entries_iff.mpr hrow, hexp⟩, rfl⟩
  unfold getRecord
  cases hrow : s.gatewayCommands.get? id with
  | none => simp
  | some row =>
    have hexp : expirable includeDispatched now row =
        expirable includeDispatched now ⟨row.record, now⟩ := rfl
    by_cases h : expirable includeDispatched now row = true
    · rw [if_pos (hsel.mpr ⟨row, hrow, h⟩)]
      simp [expiredRecord, ← hexp, h]
    · have hnot : ¬ ∃ row', s.gatewayCommands.get? id = some row' ∧
          expirable includeDispatched now row' = true := by
        rintro ⟨row', hrow', h'⟩
        rw [hrow] at hrow'
        injection hrow' with hrow'
        exact h (hrow' ▸ h')
      rw [if_neg (fun hin => hnot (hsel.mp hin))]
      simp [expiredRecord, ← hexp, h]

theorem ledger_expireOldRecords (includeDispatched : Bool) (now : Time) :
    (∀ key, (s.expireOldRecords includeDispatched now).1.ledger key = s.ledger key) ∧
    (s.expireOldRecords includeDispatched now).1.dedupeRetentionSec = s.dedupeRetentionSec := by
  unfold expireOldRecords
  generalize s.gatewayCommands.entries.filter
    (fun entry => expirable includeDispatched now entry.2) = rows
  show (∀ key, (rows.foldl _ s).ledger key = _) ∧ (rows.foldl _ s).dedupeRetentionSec = _
  induction rows generalizing s with
  | nil => exact ⟨fun _ => rfl, rfl⟩
  | cons e rest ih =>
    rw [foldl_cons]
    obtain ⟨hledger, hret⟩ := ih (s.updateStatus e.1 .expired none
      (some "COMMAND_TTL_EXPIRED") "expired" "command TTL expired" now).1
    refine ⟨?_, ?_⟩
    · intro key
      rw [hledger, ledger_updateStatus]
    · rw [hret, dedupeRetentionSec_updateStatus]

/-! ## Pruning and recovery -/

theorem getRecord_pruneFinished (olderThanSec : Int) (wall : Time) (id : String) :
    (s.pruneFinished olderThanSec wall).1.getRecord id =
      (s.getRecord id).filter fun r =>
        !prunable (wall - max 0 olderThanSec) ⟨r, wall⟩ := by
  unfold getRecord pruneFinished
  simp only [get?_filter]
  cases s.gatewayCommands.get? id with
  | none => rfl
  | some row =>
    simp only [Option.filter_some, Option.map_some]
    have : prunable (wall - max 0 olderThanSec) row =
        prunable (wall - max 0 olderThanSec) ⟨row.record, wall⟩ := rfl
    rw [this]
    split
    · rfl
    · rfl

theorem mem_loadRecoverableRecords {s : SQLiteCommandStore} (now : Time) (record : CommandRecord) :
    record ∈ s.loadRecoverableRecords now ↔
      ∃ id, s.getRecord id = some record ∧ record.status = .queued ∧
        record.isExpired now = false := by
  unfold loadRecoverableRecords getRecord
  rw [(perm_insertionSort _ _).mem_iff, mem_map]
  constructor
  · rintro ⟨row, hrow, rfl⟩
    obtain ⟨hmem, hp⟩ := mem_filter.mp hrow
    obtain ⟨id, hid⟩ := mem_values_iff.mp hmem
    simp only [Bool.and_eq_true, decide_eq_true_eq, Bool.not_eq_true'] at hp
    exact ⟨id, by rw [hid]; rfl, hp.1, hp.2⟩
  · rintro ⟨id, hid, hq, he⟩
    obtain ⟨row, hrow, rfl⟩ := Option.map_eq_some_iff.mp hid
    refine ⟨row, mem_filter.mpr ⟨mem_values_iff.mpr ⟨id, hrow⟩, ?_⟩, rfl⟩
    simp [hq, he]

theorem WellFormed.loadRecoverableRecords_nodup {s : SQLiteCommandStore} (hwf : s.WellFormed)
    (now : Time) : ((s.loadRecoverableRecords now).map (·.commandId)).Nodup := by
  have hkeys : s.gatewayCommands.values.map (·.record.commandId) = s.gatewayCommands.keys := by
    show (s.gatewayCommands.entries.map Prod.snd).map (·.record.commandId) =
      s.gatewayCommands.entries.map Prod.fst
    rw [map_map]
    refine map_congr_left ?_
    intro e he
    refine (hwf.filed e.1 e.2.record ?_).1
    unfold getRecord
    rw [mem_entries_iff.mp he]
    rfl
  unfold loadRecoverableRecords
  rw [((perm_insertionSort _ _).map _).nodup_iff, map_map]
  refine (filter_sublist.map _).nodup ?_
  show (s.gatewayCommands.values.map (·.record.commandId)).Nodup
  rw [hkeys]
  exact s.gatewayCommands.nodup

/-! ## Folds of upserts -/

variable {f : SQLiteCommandStore → CommandRecord → SQLiteCommandStore}

theorem getRecord_foldl_write :
    ∀ (records : List CommandRecord) (s : SQLiteCommandStore),
      (∀ s, ∀ r ∈ records, ∀ id, (f s r).getRecord id =
        if id = r.commandId then some (r.writtenOver (s.getRecord id)) else s.getRecord id) →
      (records.map (·.commandId)).Nodup →
      (∀ r ∈ records, (records.foldl f s).getRecord r.commandId =
        some (r.writtenOver (s.getRecord r.commandId))) ∧
      ∀ id, id ∉ records.map (·.commandId) → (records.foldl f s).getRecord id = s.getRecord id := by
  intro records
  induction records with
  | nil =>
    intro s _ _
    refine ⟨?_, fun _ _ => rfl⟩
    intro r hr
    cases hr
  | cons c rest ih =>
    intro s hf hnd
    rw [map_cons, nodup_cons] at hnd
    have hc := fun s => hf s c mem_cons_self
    obtain ⟨hin, hout⟩ := ih (f s c) (fun s r hr => hf s r (mem_cons_of_mem _ hr)) hnd.2
    refine ⟨?_, ?_⟩
    · intro r hr
      rcases mem_cons.mp hr with rfl | hr
      · rw [foldl_cons, hout _ hnd.1, hc, if_pos rfl]
      · have hne : r.commandId ≠ c.commandId := by
          intro heq
          exact hnd.1 (heq ▸ mem_map_of_mem hr)
        rw [foldl_cons, hin r hr, hc, if_neg hne]
    · intro id hid
      rw [map_cons, mem_cons, not_or] at hid
      rw [foldl_cons, hout id hid.2, hc, if_neg hid.1]

/-- After a fold of upserts the ledger has, under each key, the entry of the
last record with that key. -/
theorem ledger_foldl_last (wall : Time) (key : String) :
    ∀ (records : List CommandRecord) (s : SQLiteCommandStore),
      (∀ r ∈ records, r.dedupeKey ≠ "") →
      (∀ s, ∀ r ∈ records, (f s r).ledger key = (s.upsertRecord r wall).ledger key ∧
        (f s r).dedupeRetentionSec = s.dedupeRetentionSec) →
      (records.foldl f s).dedupeRetentionSec = s.dedupeRetentionSec ∧
      (records.foldl f s).ledger key =
        match (records.filter (·.dedupeKey = key)).getLast? with
        | some r => some (ledgerEntry r s.dedupeRetentionSec wall)
        | none => s.ledger key := by
  intro records
  induction records with
  | nil =>
    intro s _ _
    exact ⟨rfl, rfl⟩
  | cons c rest ih =>
    intro s hkeys hf
    obtain ⟨hledger, hret⟩ := hf s c mem_cons_self
    obtain ⟨hret', hrest⟩ := ih (f s c) (fun r hr => hkeys r (mem_cons_of_mem _ hr))
      (fun s r hr => hf s r (mem_cons_of_mem _ hr))
    rw [foldl_cons]
    refine ⟨hret'.trans hret, ?_⟩
    rw [hrest, hledger, hret, ledger_upsertRecord s (hkeys c mem_cons_self)]
    by_cases h : c.dedupeKey = key
    · -- the entry of `c` stands until a later record of the key is written
      rw [filter_cons_of_pos (by simp [h]), getLast?_cons, if_pos h.symm]
      cases (rest.filter (·.dedupeKey = key)).getLast? with
      | some r => rfl
      | none => rfl
    · rw [filter_cons_of_neg (by simp [h]), if_neg (Ne.symm h)]

end SQLiteCommandStore

/-! ## Commands through the store -/

namespace CommandRecord

variable (record : CommandRecord)

theorem sameCommand_writtenOver (row : Option CommandRecord) :
    SameCommand record (record.writtenOver row) :=
  ⟨rfl, rfl, rfl, rfl, rfl, rfl⟩

@[simp] theorem writtenOver_status (row : Option CommandRecord) :
    (record.writtenOver row).status = record.status := rfl

theorem sameCommand_updatedRecord (status : CommandStatus) (resultPayload : Option Mapping)
    (error : Option String) (current : Time) :
    SameCommand record
      (SQLiteCommandStore.updatedRecord record status resultPayload error current) :=
  ⟨rfl, rfl, rfl, rfl, rfl, rfl⟩

theorem sameCommand_expiredRecord (includeDispatched : Bool) (now : Time)
    (record : CommandRecord) :
    SameCommand record (SQLiteCommandStore.expiredRecord includeDispatched now record) := by
  unfold SQLiteCommandStore.expiredRecord
  split
  · exact sameCommand_updatedRecord record _ _ _ _
  · exact .rfl

end CommandRecord

end TradingCore.Broker
