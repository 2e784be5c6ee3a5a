import TradingCore.Broker.CommandQueue

/-!
# What the queue operations do to a record

One specification for each operation of `CommandQueue`: the record found under
every command id afterwards. `WellFormed` is the shape every reachable queue
has: the sequence lists the keys of the dict in order, and a record is filed
under its own command id. Later modules reason through these lemmas and never
unfold an operation.
-/

namespace TradingCore.Broker

open Base CommandRecord List Dict

/-! ## Records -/

namespace CommandRecord

variable (digest : GatewayCommand → String)

@[simp] theorem create_attempts (command : GatewayCommand) (options : EnqueueOptions) (now : Time) :
    (create digest command options now).attempts = 0 := rfl

@[simp] theorem create_commandId (command : GatewayCommand) (options : EnqueueOptions)
    (now : Time) : (create digest command options now).commandId = command.commandId := rfl

theorem create_maxAttempts_pos (command : GatewayCommand) (options : EnqueueOptions) (now : Time) :
    0 < (create digest command options now).maxAttempts := by
  show 0 < (max (1 : Int) _).toNat
  omega

@[simp] theorem finish_status (record : CommandRecord) (status : CommandStatus) (now : Time)
    (error : String) (resultPayload : Option Mapping) :
    (record.finish status now error resultPayload).status = status := rfl

@[simp] theorem ack_status (record : CommandRecord) (status : CommandStatus)
    (resultPayload : Option Mapping) (error : Option String) (now : Time) :
    (record.ack status resultPayload error now).status = status := by
  unfold ack
  split
  · rename_i h
    exact h.symm
  · rfl

@[simp] theorem fail_status (record : CommandRecord) (error : String) (retryable : Bool)
    (now : Time) :
    (record.fail error retryable now).status =
      if record.requeues retryable now then .queued else .failed := by
  show (if record.requeues retryable now then _ else _ : CommandRecord).status = _
  split
  · rfl
  · rfl

variable {record : CommandRecord}

theorem expire_of_not_due {now : Time} (h : record.finished = true ∨ record.isExpired now = false) :
    record.expire now = record := by
  unfold expire
  rcases h with h | h
  · rw [if_pos h]
  · simp [h]

theorem expire_of_due {now : Time} (hf : record.finished = false)
    (he : record.isExpired now = true) :
    record.expire now = record.finish .expired now "COMMAND_TTL_EXPIRED" := by
  simp [expire, hf, he]

/-- What an operation on a record leaves alone. -/
structure SameCommand (a b : CommandRecord) : Prop where
  command : b.command = a.command
  commandId : b.commandId = a.commandId
  commandType : b.commandType = a.commandType
  dedupeKey : b.dedupeKey = a.dedupeKey
  expiresAt : b.expiresAt = a.expiresAt
  maxAttempts : b.maxAttempts = a.maxAttempts

theorem SameCommand.rfl {a : CommandRecord} : SameCommand a a :=
  ⟨Eq.refl _, Eq.refl _, Eq.refl _, Eq.refl _, Eq.refl _, Eq.refl _⟩

theorem SameCommand.trans {a b c : CommandRecord} (hab : SameCommand a b)
    (hbc : SameCommand b c) : SameCommand a c where
  command := hbc.command.trans hab.command
  commandId := hbc.commandId.trans hab.commandId
  commandType := hbc.commandType.trans hab.commandType
  dedupeKey := hbc.dedupeKey.trans hab.dedupeKey
  expiresAt := hbc.expiresAt.trans hab.expiresAt
  maxAttempts := hbc.maxAttempts.trans hab.maxAttempts

theorem sameCommand_finish (record : CommandRecord) (status : CommandStatus) (now : Time)
    (error : String) (resultPayload : Option Mapping) :
    SameCommand record (record.finish status now error resultPayload) :=
  ⟨rfl, rfl, rfl, rfl, rfl, rfl⟩

theorem sameCommand_dispatch (record : CommandRecord) (now : Time) :
    SameCommand record (record.dispatch now) :=
  ⟨rfl, rfl, rfl, rfl, rfl, rfl⟩

theorem sameCommand_expire (record : CommandRecord) (now : Time) :
    SameCommand record (record.expire now) := by
  unfold expire
  split
  · exact .rfl
  · split
    · exact sameCommand_finish record _ _ _ _
    · exact .rfl

theorem sameCommand_ack (record : CommandRecord) (status : CommandStatus)
    (resultPayload : Option Mapping) (error : Option String) (now : Time) :
    SameCommand record (record.ack status resultPayload error now) := by
  unfold ack
  split
  · exact ⟨rfl, rfl, rfl, rfl, rfl, rfl⟩
  · by_cases h : status = .acked
    · simp only [if_pos h]
      exact ⟨rfl, rfl, rfl, rfl, rfl, rfl⟩
    · simp only [if_neg h]
      exact sameCommand_finish record _ _ _ _

theorem sameCommand_fail (record : CommandRecord) (error : String) (retryable : Bool)
    (now : Time) : SameCommand record (record.fail error retryable now) := by
  show SameCommand record (if record.requeues retryable now then _ else _)
  split
  · exact ⟨rfl, rfl, rfl, rfl, rfl, rfl⟩
  · exact ⟨rfl, rfl, rfl, rfl, rfl, rfl⟩

@[simp] theorem ack_attempts (record : CommandRecord) (status : CommandStatus)
    (resultPayload : Option Mapping) (error : Option String) (now : Time) :
    (record.ack status resultPayload error now).attempts = record.attempts := by
  unfold ack
  split
  · rfl
  · by_cases h : status = .acked
    · simp only [if_pos h]
      rfl
    · simp only [if_neg h]
      rfl

@[simp] theorem fail_attempts (record : CommandRecord) (error : String) (retryable : Bool)
    (now : Time) : (record.fail error retryable now).attempts = record.attempts := by
  show (if record.requeues retryable now then _ else _ : CommandRecord).attempts = _
  split
  · rfl
  · rfl

@[simp] theorem expire_attempts (record : CommandRecord) (now : Time) :
    (record.expire now).attempts = record.attempts := by
  unfold expire
  split
  · rfl
  · split
    · rfl
    · rfl

/-- Only `QUEUED` and `DISPATCHED` records are unfinished. -/
theorem finished_eq_false :
    record.finished = false ↔ record.status = .queued ∨ record.status = .dispatched := by
  unfold finished
  cases record.status <;> simp [finishedStatuses]

theorem expire_status (record : CommandRecord) (now : Time) :
    (record.expire now).status =
      if record.finished = false ∧ record.isExpired now = true then .expired
      else record.status := by
  cases hf : record.finished with
  | true => rw [expire_of_not_due (.inl hf)]; simp
  | false =>
    cases he : record.isExpired now with
    | true => rw [expire_of_due hf he]; simp
    | false => rw [expire_of_not_due (.inr he)]; simp

end CommandRecord

theorem append_colon_ne_empty (a b : String) : a ++ ":" ++ b ≠ "" := by
  intro h
  have := congrArg String.length h
  simp [String.length_append] at this

theorem dedupeKeyForCommand_ne_empty (digest : GatewayCommand → String)
    (command : GatewayCommand) : dedupeKeyForCommand digest command ≠ "" := by
  unfold dedupeKeyForCommand
  split
  · assumption
  · -- every derived key joins its parts with colons
    repeat' split
    all_goals exact append_colon_ne_empty _ _

theorem CommandRecord.create_dedupeKey_ne_empty (digest : GatewayCommand → String)
    (command : GatewayCommand) (options : EnqueueOptions) (now : Time) :
    (create digest command options now).dedupeKey ≠ "" :=
  dedupeKeyForCommand_ne_empty digest command

/-! ## The queue -/

namespace CommandQueue

structure WellFormed (q : CommandQueue) : Prop where
  sequence_eq : q.sequence = q.records.keys
  filed : ∀ id record, q.records.get? id = some record →
    record.commandId = id ∧ record.command.commandId = id

theorem wellFormed_empty : WellFormed {} := by
  refine ⟨rfl, ?_⟩
  intro id record h
  cases h

variable {id : String} {record : CommandRecord} {q : CommandQueue}

theorem filed_set {records : Dict String CommandRecord}
    (hf : ∀ id record, records.get? id = some record →
      record.commandId = id ∧ record.command.commandId = id)
    (h : record.commandId = id ∧ record.command.commandId = id) :
    ∀ id' record', (records.set id record).get? id' = some record' →
      record'.commandId = id' ∧ record'.command.commandId = id' := by
  intro id' record' hget
  rw [get?_set] at hget
  by_cases hid : id' = id
  · rw [if_pos hid] at hget
    injection hget with hget
    rw [← hget, hid]
    exact h
  · rw [if_neg hid] at hget
    exact hf id' record' hget

theorem WellFormed.rewrite (hwf : q.WellFormed) {old : CommandRecord}
    (hold : q.records.get? id = some old) (hsame : SameCommand old record) :
    WellFormed { q with records := q.records.set id record } := by
  obtain ⟨hid, hcid⟩ := hwf.filed id old hold
  refine ⟨?_, filed_set hwf.filed ⟨hsame.commandId.trans hid, ?_⟩⟩
  · show q.sequence = (q.records.set id record).keys
    rw [keys_set_of_contains _ _ (contains_iff.mpr ⟨old, hold⟩)]
    exact hwf.sequence_eq
  · rw [hsame.command]
    exact hcid

/-! ### Enqueue and restore -/

theorem enqueue_cases (digest : GatewayCommand → String) (q : CommandQueue)
    (command : GatewayCommand) (options : EnqueueOptions) (now : Time) :
    ((q.enqueue digest command options now).2.accepted = false ∧
      (q.enqueue digest command options now).1.records = q.records ∧
      (q.enqueue digest command options now).1.sequence = q.sequence) ∨
    ((q.enqueue digest command options now).2.accepted = true ∧
      command.commandId ≠ "" ∧ q.records.get? command.commandId = none ∧
      q.activeDuplicate (dedupeKeyForCommand digest command) = none ∧
      (q.enqueue digest command options now).1.records =
        q.records.set command.commandId (create digest command options now) ∧
      (q.enqueue digest command options now).1.sequence = q.sequence ++ [command.commandId]) := by
  by_cases hid : command.commandId = ""
  · exact .inl (by simp [enqueue, hid])
  · cases hdup : q.activeDuplicate (dedupeKeyForCommand digest command) with
    | some duplicate =>
      have hdup' : q.activeDuplicate
          (create digest command options now).dedupeKey = some duplicate := hdup
      exact .inl (by simp [enqueue, hid, hdup'])
    | none =>
      have hdup' : q.activeDuplicate (create digest command options now).dedupeKey = none := hdup
      cases hget : q.records.get? command.commandId with
      | some existing => exact .inl (by simp [enqueue, hid, hdup', hget])
      | none => exact .inr (by simp [enqueue, hid, hdup', hget])

theorem WellFormed.enqueue (hwf : q.WellFormed) (digest : GatewayCommand → String)
    (command : GatewayCommand) (options : EnqueueOptions) (now : Time) :
    (q.enqueue digest command options now).1.WellFormed := by
  rcases enqueue_cases digest q command options now with ⟨-, hrec, hseq⟩ |
    ⟨-, -, hnone, -, hrec, hseq⟩
  · exact ⟨by rw [hrec, hseq]; exact hwf.sequence_eq, by rw [hrec]; exact hwf.filed⟩
  · refine ⟨?_, ?_⟩
    · rw [hrec, hseq, keys_set_of_absent _ _ hnone, hwf.sequence_eq]
    · rw [hrec]
      exact filed_set hwf.filed ⟨rfl, rfl⟩

theorem activeDuplicate_eq_none {dedupeKey : String} (hkey : dedupeKey ≠ "") :
    q.activeDuplicate dedupeKey = none ↔
      ∀ id record, q.records.get? id = some record → record.dedupeKey = dedupeKey →
        record.active = false := by
  unfold activeDuplicate
  rw [if_neg hkey, find?_eq_none]
  constructor
  · intro h id record hget hk
    have := h record (mem_values_iff.mpr ⟨id, hget⟩)
    simpa [hk] using this
  · intro h record hmem
    obtain ⟨id, hget⟩ := mem_values_iff.mp hmem
    by_cases hk : record.dedupeKey = dedupeKey
    · simp [h id record hget hk]
    · simp [hk]

theorem restore_get? (q : CommandQueue) (h : record.commandId ≠ "") (id : String) :
    (q.restore record).records.get? id =
      if id = record.commandId then some record else q.records.get? id := by
  unfold restore
  rw [if_neg h]
  exact get?_set _ _ _ _

theorem WellFormed.restore (hwf : q.WellFormed) (h : record.command.commandId = record.commandId) :
    (q.restore record).WellFormed := by
  unfold CommandQueue.restore
  split
  · exact hwf
  · refine ⟨?_, filed_set hwf.filed ⟨rfl, h⟩⟩
    show (if q.records.contains record.commandId then q.sequence
      else q.sequence ++ [record.commandId]) = (q.records.set record.commandId record).keys
    by_cases hc : q.records.contains record.commandId = true
    · rw [if_pos hc, keys_set_of_contains _ _ hc, hwf.sequence_eq]
    · have hnone := contains_eq_false.mp (Bool.eq_false_iff.mpr hc)
      rw [if_neg hc, keys_set_of_absent _ _ hnone, hwf.sequence_eq]

theorem foldl_restore_get? :
    ∀ (records : List CommandRecord) (q : CommandQueue),
      (records.map (·.commandId)).Nodup → (∀ r ∈ records, r.commandId ≠ "") →
      (∀ r ∈ records, (records.foldl restore q).records.get? r.commandId = some r) ∧
      ∀ id, id ∉ records.map (·.commandId) →
        (records.foldl restore q).records.get? id = q.records.get? id := by
  intro records
  induction records with
  | nil =>
    intro q _ _
    refine ⟨?_, fun _ _ => rfl⟩
    intro r hr
    cases hr
  | cons c rest ih =>
    intro q hnd hne
    rw [map_cons, nodup_cons] at hnd
    obtain ⟨hin, hout⟩ := ih (q.restore c) hnd.2 (fun r hr => hne r (mem_cons_of_mem _ hr))
    have hc := hne c mem_cons_self
    refine ⟨?_, ?_⟩
    · intro r hr
      rcases mem_cons.mp hr with rfl | hr
      · rw [foldl_cons, hout _ hnd.1, restore_get? q hc, if_pos rfl]
      · exact hin r hr
    · intro id hid
      rw [map_cons, mem_cons, not_or] at hid
      rw [foldl_cons, hout id hid.2, restore_get? q hc, if_neg hid.1]

theorem WellFormed.foldl_restore (hwf : q.WellFormed) :
    ∀ records : List CommandRecord, (∀ r ∈ records, r.command.commandId = r.commandId) →
      (records.foldl CommandQueue.restore q).WellFormed := by
  intro records
  induction records generalizing q with
  | nil =>
    intro _
    exact hwf
  | cons c rest ih =>
    intro h
    exact ih (hwf.restore (h c mem_cons_self)) (fun r hr => h r (mem_cons_of_mem _ hr))

/-! ### Ack, fail, cancel -/

theorem ack_get? (q : CommandQueue) (commandId : String) (status : CommandStatus)
    (resultPayload : Option Mapping) (error : Option String) (now : Time) (id : String) :
    (q.ack commandId status resultPayload error now).1.records.get? id =
      if id = commandId then
        (q.records.get? commandId).map fun r => r.ack status resultPayload error now
      else q.records.get? id := by
  unfold ack
  cases h : q.records.get? commandId with
  | none =>
    by_cases hid : id = commandId
    · rw [if_pos hid, hid]
      exact h
    · rw [if_neg hid]
  | some record => exact get?_set _ _ _ _

theorem WellFormed.ack (hwf : q.WellFormed) (commandId : String) (status : CommandStatus)
    (resultPayload : Option Mapping) (error : Option String) (now : Time) :
    (q.ack commandId status resultPayload error now).1.WellFormed := by
  unfold CommandQueue.ack
  cases h : q.records.get? commandId with
  | none => exact hwf
  | some record => exact hwf.rewrite h (sameCommand_ack record _ _ _ _)

theorem fail_get? (q : CommandQueue) (commandId error : String) (retryable : Bool) (now : Time)
    (id : String) :
    (q.fail commandId error retryable now).1.records.get? id =
      if id = commandId then
        (q.records.get? commandId).map fun r => r.fail error retryable now
      else q.records.get? id := by
  unfold fail
  cases h : q.records.get? commandId with
  | none =>
    by_cases hid : id = commandId
    · rw [if_pos hid, hid]
      exact h
    · rw [if_neg hid]
  | some record => exact get?_set _ _ _ _

theorem fail_handled (q : CommandQueue) (commandId error : String) (retryable : Bool)
    (now : Time) :
    (q.fail commandId error retryable now).2 = (q.records.get? commandId).isSome := by
  unfold fail
  cases q.records.get? commandId <;> rfl

theorem WellFormed.fail (hwf : q.WellFormed) (commandId error : String) (retryable : Bool)
    (now : Time) : (q.fail commandId error retryable now).1.WellFormed := by
  unfold CommandQueue.fail
  cases h : q.records.get? commandId with
  | none => exact hwf
  | some record => exact hwf.rewrite h (sameCommand_fail record _ _ _)

theorem cancel_cases (q : CommandQueue) (commandId : String) (now : Time) :
    (∃ record, q.records.get? commandId = some record ∧ record.status = .queued ∧
      q.cancel commandId now =
        ({ q with records := q.records.set commandId (record.finish .cancelled now) }, true)) ∨
    ((∀ record, q.records.get? commandId = some record → record.status ≠ .queued) ∧
      q.cancel commandId now = (q, false)) := by
  unfold cancel
  cases h : q.records.get? commandId with
  | none =>
    refine .inr ⟨?_, rfl⟩
    intro record hrec
    cases hrec
  | some record =>
    by_cases hs : record.status = .queued
    · exact .inl ⟨record, rfl, hs, if_neg (not_not_intro hs)⟩
    · refine .inr ⟨?_, if_pos hs⟩
      intro record' hrec
      injection hrec with hrec
      exact hrec ▸ hs

theorem WellFormed.cancel (hwf : q.WellFormed) (commandId : String) (now : Time) :
    (q.cancel commandId now).1.WellFormed := by
  rcases cancel_cases q commandId now with ⟨record, hget, -, heq⟩ | ⟨-, heq⟩
  · rw [heq]
    exact hwf.rewrite hget (sameCommand_finish record _ _ _ _)
  · rw [heq]
    exact hwf

/-! ### Expiry and pruning -/

@[simp] theorem expireOld_get? (q : CommandQueue) (now : Time) (id : String) :
    (q.expireOld now).1.records.get? id = (q.records.get? id).map (·.expire now) :=
  get?_mapVals _ _ _

section

variable (hwf : q.WellFormed)
include hwf

theorem WellFormed.expireOld (now : Time) : (q.expireOld now).1.WellFormed := by
  refine ⟨?_, ?_⟩
  · show q.sequence = (q.records.mapVals fun _ record => record.expire now).keys
    rw [keys_mapVals]
    exact hwf.sequence_eq
  · intro id record h
    rw [expireOld_get?, Option.map_eq_some_iff] at h
    obtain ⟨old, hold, rfl⟩ := h
    have hsame := sameCommand_expire old now
    obtain ⟨hid, hcid⟩ := hwf.filed id old hold
    exact ⟨hsame.commandId.trans hid, by rw [hsame.command]; exact hcid⟩

theorem WellFormed.prune_get? (olderThanSec : Int) (now : Time) (id : String) :
    (q.prune olderThanSec now).1.records.get? id =
      (q.records.get? id).filter fun record => !record.prunable olderThanSec now := by
  show (q.records.filter _).get? id = _
  rw [get?_filter]
  cases h : q.records.get? id with
  | none => rfl
  | some record =>
    have hmem : id ∈ q.sequence := by
      rw [hwf.sequence_eq]
      by_contra hnot
      rw [get?_eq_none.mpr hnot] at h
      cases h
    simp only [Option.filter_some, hmem, decide_true, Bool.true_and]

theorem WellFormed.prune (olderThanSec : Int) (now : Time) :
    (q.prune olderThanSec now).1.WellFormed := by
  refine ⟨?_, ?_⟩
  · show q.sequence.filter _ = (q.records.filter _).keys
    rw [hwf.sequence_eq]
    refine (keys_filter q.records ?_).symm
    intro id record h
    have hmem : id ∈ q.records.keys := by
      by_contra hnot
      rw [get?_eq_none.mpr hnot] at h
      cases h
    simp [h, hmem]
  · intro id record h
    rw [hwf.prune_get?, Option.filter_eq_some_iff] at h
    exact hwf.filed id record h.1

theorem values_map_commandId : q.records.values.map (·.commandId) = q.records.keys := by
  show (q.records.entries.map Prod.snd).map (·.commandId) = q.records.entries.map Prod.fst
  rw [map_map]
  refine map_congr_left ?_
  intro e he
  exact (hwf.filed e.1 e.2 (mem_entries_iff.mp he)).1

theorem mem_listAll {limit : Int} (h : record ∈ q.listAll limit) :
    q.records.get? record.commandId = some record := by
  unfold listAll at h
  obtain ⟨id, -, hget⟩ := mem_filterMap.mp (mem_of_mem_take h)
  rw [(hwf.filed id record hget).1]
  exact hget

theorem listAll_nodup (limit : Int) : ((q.listAll limit).map (·.commandId)).Nodup := by
  unfold listAll
  refine ((take_sublist _ _).map _).nodup ?_
  rw [hwf.sequence_eq, filterMap_reverse, keys_filterMap_get?, map_reverse,
    nodup_reverse, values_map_commandId hwf]
  exact q.records.nodup

end

/-! ### Dispatch -/

/-- What the dispatch loop does to the records under each id. `sent` are the
records handed out, as they stand afterwards. -/
structure Dispatched (before : Dict String CommandRecord) (now : Time)
    (after : Dict String CommandRecord) (sent : List CommandRecord) : Prop where
  nodup : (sent.map (·.commandId)).Nodup
  of_sent : ∀ record ∈ sent, ∃ old, before.get? record.commandId = some old ∧
    old.status = .queued ∧ old.attempts < old.maxAttempts ∧ record = old.dispatch now ∧
    after.get? record.commandId = some record
  of_unsent : ∀ id, id ∉ sent.map (·.commandId) →
    after.get? id = before.get? id ∨
    ∃ old, before.get? id = some old ∧ old.status = .queued ∧
      old.maxAttempts ≤ old.attempts ∧
      after.get? id = some (old.finish .failed now "MAX_ATTEMPTS_EXCEEDED")

/-- A write of an unqueued record before the loop is final, and under the other
ids the loop sees the dict without it. -/
theorem Dispatched.of_write {records after : Dict String CommandRecord} {now : Time}
    {sent : List CommandRecord} {w : CommandRecord}
    (hd : Dispatched (records.set id w) now after sent) (hnot : id ∉ sent.map (·.commandId))
    (hw : w.status ≠ .queued) :
    after.get? id = some w ∧
    (∀ record ∈ sent, ∃ old, records.get? record.commandId = some old ∧
      old.status = .queued ∧ old.attempts < old.maxAttempts ∧ record = old.dispatch now ∧
      after.get? record.commandId = some record) ∧
    ∀ id', id' ≠ id → id' ∉ sent.map (·.commandId) →
      after.get? id' = records.get? id' ∨
      ∃ old, records.get? id' = some old ∧ old.status = .queued ∧
        old.maxAttempts ≤ old.attempts ∧
        after.get? id' = some (old.finish .failed now "MAX_ATTEMPTS_EXCEEDED") := by
  refine ⟨?_, ?_, ?_⟩
  · rcases hd.of_unsent id hnot with h | ⟨old, hold, hst, -⟩
    · rw [h, get?_set_self]
    · rw [get?_set_self] at hold
      injection hold with hold
      exact absurd (hold ▸ hst) hw
  · intro r hr
    obtain ⟨old, hold, hrest⟩ := hd.of_sent r hr
    have hne : r.commandId ≠ id := by
      intro heq
      exact hnot (heq ▸ mem_map_of_mem hr)
    rw [get?_set_ne _ _ hne] at hold
    exact ⟨old, hold, hrest⟩
  · intro id' hne hid'
    have := hd.of_unsent id' hid'
    rw [get?_set_ne _ _ hne] at this
    exact this

theorem dispatched_nil (records : Dict String CommandRecord) (now : Time) :
    Dispatched records now records [] := by
  refine ⟨nodup_nil, ?_, fun id _ => .inl rfl⟩
  intro r hr
  cases hr

theorem dispatchLoop_spec (limit : Nat) (now : Time) :
    ∀ (candidates : List CommandRecord) (records : Dict String CommandRecord)
      (selected : List CommandRecord),
      (candidates.map (·.commandId)).Nodup →
      (∀ c ∈ candidates, records.get? c.commandId = some c ∧ c.status = .queued) →
      ∃ sent, (dispatchLoop limit now candidates records selected).2 = selected ++ sent ∧
        (∀ r ∈ sent, r.commandId ∈ candidates.map (·.commandId)) ∧
        Dispatched records now (dispatchLoop limit now candidates records selected).1 sent := by
  intro candidates
  induction candidates with
  | nil =>
    intro records selected _ _
    refine ⟨[], (append_nil _).symm, ?_, dispatched_nil records now⟩
    intro r hr
    cases hr
  | cons c rest ih =>
    intro records selected hnd hc
    obtain ⟨hget, hq⟩ := hc c mem_cons_self
    rw [map_cons, nodup_cons] at hnd
    -- the write for `c` leaves the later candidates where they are
    have hkeep : ∀ w, ∀ d ∈ rest,
        (records.set c.commandId w).get? d.commandId = some d ∧ d.status = .queued := by
      intro w d hd
      have hne : d.commandId ≠ c.commandId := by
        intro heq
        exact hnd.1 (heq ▸ mem_map_of_mem hd)
      rw [get?_set_ne _ _ hne]
      exact hc d (mem_cons_of_mem _ hd)
    have hfresh : ∀ sent : List CommandRecord,
        (∀ r ∈ sent, r.commandId ∈ rest.map (·.commandId)) →
        c.commandId ∉ sent.map (·.commandId) := by
      intro sent hin hmem
      obtain ⟨r, hr, hrid⟩ := mem_map.mp hmem
      exact hnd.1 (hrid ▸ hin r hr)
    unfold dispatchLoop
    by_cases hfull : selected.length ≥ limit
    · rw [if_pos hfull]
      refine ⟨[], (append_nil _).symm, ?_, dispatched_nil records now⟩
      intro r hr
      cases hr
    · rw [if_neg hfull]
      by_cases hmax : c.attempts ≥ c.maxAttempts
      · -- out of attempts: finished as failed, not handed out
        rw [if_pos hmax]
        obtain ⟨sent, hsel, hin, hd⟩ := ih
          (records.set c.commandId (c.finish .failed now "MAX_ATTEMPTS_EXCEEDED"))
          selected hnd.2 (hkeep _)
        obtain ⟨hlast, hsent, hunsent⟩ := hd.of_write (hfresh sent hin) (by simp)
        refine ⟨sent, hsel, fun r hr => mem_cons_of_mem _ (hin r hr), hd.nodup, hsent, ?_⟩
        intro id hid
        by_cases hic : id = c.commandId
        · rw [hic]
          exact .inr ⟨c, hget, hq, hmax, hlast⟩
        · exact hunsent id hic hid
      · -- handed out
        rw [if_neg hmax]
        obtain ⟨sent, hsel, hin, hd⟩ := ih (records.set c.commandId (c.dispatch now))
          (selected ++ [c.dispatch now]) hnd.2 (hkeep _)
        obtain ⟨hlast, hsent, hunsent⟩ := hd.of_write (hfresh sent hin)
          (by simp [CommandRecord.dispatch])
        refine ⟨c.dispatch now :: sent, ?_, ?_, ?_, ?_, ?_⟩
        · show (dispatchLoop limit now rest _ _).2 = _
          rw [hsel, append_assoc]
          rfl
        · intro r hr
          rcases mem_cons.mp hr with rfl | hr
          · exact mem_cons_self
          · exact mem_cons_of_mem _ (hin r hr)
        · rw [map_cons]
          exact nodup_cons.mpr ⟨hfresh sent hin, hd.nodup⟩
        · intro r hr
          rcases mem_cons.mp hr with rfl | hr
          · exact ⟨c, hget, hq, by omega, rfl, hlast⟩
          · exact hsent r hr
        · intro id hid
          rw [map_cons, mem_cons, not_or] at hid
          exact hunsent id hid.1 hid.2

section

variable (hwf : q.WellFormed)
include hwf

theorem mem_dispatchCandidates :
    record ∈ q.dispatchCandidates ↔
      q.records.get? record.commandId = some record ∧ record.status = .queued := by
  unfold dispatchCandidates
  rw [(perm_insertionSort _ _).mem_iff, mem_filter, hwf.sequence_eq,
    keys_filterMap_get?, mem_values_iff, decide_eq_true_eq]
  refine and_congr_left fun _ => ⟨?_, fun h => ⟨_, h⟩⟩
  rintro ⟨id, hid⟩
  rw [(hwf.filed id record hid).1]
  exact hid

theorem dispatchCandidates_nodup : (q.dispatchCandidates.map (·.commandId)).Nodup := by
  have hsub : ((q.records.values.filter (·.status = .queued)).map (·.commandId)).Nodup := by
    refine (filter_sublist.map _).nodup ?_
    rw [values_map_commandId hwf]
    exact q.records.nodup
  unfold dispatchCandidates
  rw [((perm_insertionSort _ _).map _).nodup_iff, hwf.sequence_eq, keys_filterMap_get?]
  exact hsub

/-- The specification of `dispatch`: expiry, then the loop. -/
theorem dispatch_spec (limit : Int) (now : Time) :
    ∃ sent, (q.dispatch limit now).2 = sent.map (·.command) ∧
      Dispatched (q.expireOld now).1.records now (q.dispatch limit now).1.records sent := by
  have hwf' := hwf.expireOld now
  obtain ⟨sent, hsel, -, hd⟩ := dispatchLoop_spec limit.toNat now
    (q.expireOld now).1.dispatchCandidates (q.expireOld now).1.records []
    (dispatchCandidates_nodup hwf') (fun c hc => (mem_dispatchCandidates hwf').mp hc)
  refine ⟨sent, ?_, hd⟩
  show map _ _ = _
  rw [hsel]
  rfl

theorem dispatch_get? (limit : Int) (now : Time)
    (h : (q.dispatch limit now).1.records.get? id = some record) :
    ∃ old, q.records.get? id = some old ∧ SameCommand old record := by
  obtain ⟨sent, -, hd⟩ := dispatch_spec hwf limit now
  have expired : ∀ {old : CommandRecord},
      (q.expireOld now).1.records.get? id = some old →
      ∃ first, q.records.get? id = some first ∧ SameCommand first old := by
    intro old hold
    rw [expireOld_get?, Option.map_eq_some_iff] at hold
    obtain ⟨first, hfirst, rfl⟩ := hold
    exact ⟨first, hfirst, sameCommand_expire first now⟩
  by_cases hid : id ∈ sent.map (·.commandId)
  · obtain ⟨r, hr, rfl⟩ := mem_map.mp hid
    obtain ⟨old, hold, -, -, hr', hafter⟩ := hd.of_sent r hr
    obtain ⟨first, hfirst, hsame⟩ := expired hold
    rw [hafter] at h
    injection h with h
    refine ⟨first, hfirst, ?_⟩
    rw [← h, hr']
    exact hsame.trans (sameCommand_dispatch old now)
  · rcases hd.of_unsent id hid with heq | ⟨old, hold, -, -, hafter⟩
    · rw [heq] at h
      exact expired h
    · obtain ⟨first, hfirst, hsame⟩ := expired hold
      rw [hafter] at h
      injection h with h
      refine ⟨first, hfirst, ?_⟩
      rw [← h]
      exact hsame.trans (sameCommand_finish old _ _ _ _)

end

theorem dispatchLoop_keys (limit : Nat) (now : Time) :
    ∀ (candidates : List CommandRecord) (records : Dict String CommandRecord)
      (selected : List CommandRecord),
      (∀ c ∈ candidates, c.commandId ∈ records.keys) →
      (dispatchLoop limit now candidates records selected).1.keys = records.keys := by
  intro candidates
  induction candidates with
  | nil =>
    intro records selected _
    rfl
  | cons c rest ih =>
    intro records selected hc
    have hset : ∀ w, (records.set c.commandId w).keys = records.keys := fun w =>
      place_keys_of_mem (hc c mem_cons_self)
    have hrest : ∀ w, ∀ d ∈ rest, d.commandId ∈ (records.set c.commandId w).keys := by
      intro w d hd
      rw [hset]
      exact hc d (mem_cons_of_mem _ hd)
    unfold dispatchLoop
    split
    · rfl
    · split
      · rw [ih _ _ (hrest _), hset]
      · show (dispatchLoop limit now rest _ _).1.keys = _
        rw [ih _ _ (hrest _), hset]

theorem WellFormed.dispatch (hwf : q.WellFormed) (limit : Int) (now : Time) :
    (q.dispatch limit now).1.WellFormed := by
  refine ⟨?_, ?_⟩
  · have hwf' := hwf.expireOld now
    show q.sequence =
      (dispatchLoop limit.toNat now (q.expireOld now).1.dispatchCandidates
        (q.expireOld now).1.records []).1.keys
    rw [dispatchLoop_keys, ← hwf'.sequence_eq]
    · rfl
    · intro c hc
      have hget := ((mem_dispatchCandidates hwf').mp hc).1
      by_contra hnot
      rw [get?_eq_none.mpr hnot] at hget
      cases hget
  · intro id record h
    obtain ⟨old, hold, hsame⟩ := dispatch_get? hwf limit now h
    obtain ⟨hid, hcid⟩ := hwf.filed id old hold
    exact ⟨hsame.commandId.trans hid, by rw [hsame.command]; exact hcid⟩

end CommandQueue

end TradingCore.Broker
