import TradingCore.Broker.StoreCopies

/-!
# Known commands

What `GatewayStateStore` answers about its commands: `get_command`, `duplicate_of` and the
`list_commands` of one type, newest first. With a store they read its rows, without one the
in-memory queue. `known_next` is the rule the readers rely on: a known command stays known through
every call but a prune of its own record and a restart that has no store.
-/

namespace TradingCore.Broker

open Base Copies List SQLiteCommandStore CommandRecord

/-! ## The copy that is read -/

def Copies.current (stored : Bool) (c : Copies) : Option CommandRecord :=
  if stored then c.row else c.memory

theorem Copies.has_of_current {stored : Bool} {c : Copies} {record : CommandRecord}
    (h : c.current stored = some record) : c.Has record := by
  unfold current at h
  split at h
  · exact .inr h
  · exact .inl h

namespace GatewayStateStore

def getCommand (g : GatewayStateStore) (commandId : String) : Option CommandRecord :=
  match g.commandStore with
  | some store => store.getRecord commandId
  | none => g.commandQueue.records.get? commandId

/-- `duplicate_of`: the id of the command that holds a dedupe key, the empty text if none does. -/
def duplicateOf (g : GatewayStateStore) (dedupeKey : String) (wall : Time) : String :=
  match g.commandStore with
  | some store => ((store.retainedDedupe dedupeKey wall).map (·.commandId)).getD ""
  | none => ((g.commandQueue.activeDuplicate dedupeKey).map (·.commandId)).getD ""

/-- The order of two rows that a listing shows: the later created first, then the later updated. -/
def listedBefore (a b : CommandRow) : Bool :=
  if CommandQueue.stampLe a.record.createdAt b.record.createdAt = false then true
  else if CommandQueue.stampLe b.record.createdAt a.record.createdAt = false then false
  else b.updatedAt ≤ a.updatedAt

/-- The records that `list_commands` of a type chooses from. Without a store it looks at every
type. -/
def listed (g : GatewayStateStore) (commandType : String) : List CommandRecord :=
  match g.commandStore with
  | some store =>
      ((store.gatewayCommands.values.filter fun row =>
        row.record.commandType = commandType).insertionSort fun a b => listedBefore a b).map
          (·.record)
  | none => g.commandQueue.sequence.reverse.filterMap g.commandQueue.records.get?

/-- `list_commands` of a type, finished ones included. -/
def listCommands (g : GatewayStateStore) (commandType : String) (limit : Nat) :
    List CommandRecord :=
  (g.listed commandType).take limit

theorem getCommand_eq (g : GatewayStateStore) (commandId : String) :
    g.getCommand commandId = (g.copies commandId).current g.stored := by
  unfold getCommand copies current stored
  cases g.commandStore with
  | none => rfl
  | some store => rfl

theorem mem_listCommands {g : GatewayStateStore} (hwf : g.WellFormed) {commandId : String}
    {record : CommandRecord} (h : g.getCommand commandId = some record) {limit : Nat}
    (hroom : (g.listed record.commandType).length ≤ limit) :
    record ∈ g.listCommands record.commandType limit := by
  unfold listCommands
  rw [take_of_length_le hroom]
  unfold getCommand at h
  unfold listed
  cases hs : g.commandStore with
  | none =>
    rw [hs] at h
    refine mem_filterMap.mpr ⟨commandId, ?_, h⟩
    rw [mem_reverse, hwf.queue.sequence_eq]
    exact Dict.mem_keys_iff.mpr ⟨record, h⟩
  | some store =>
    rw [hs] at h
    obtain ⟨row, hrow, rfl⟩ := Option.map_eq_some_iff.mp h
    refine mem_map_of_mem ?_
    rw [mem_insertionSort, mem_filter]
    exact ⟨Dict.mem_values_iff.mpr ⟨commandId, hrow⟩, by simp⟩

theorem getCommand_of_mem_listCommands {g : GatewayStateStore} (hwf : g.WellFormed)
    {commandType : String} {limit : Nat} {record : CommandRecord}
    (h : record ∈ g.listCommands commandType limit) :
    g.getCommand record.commandId = some record := by
  have hlisted : record ∈ g.listed commandType := mem_of_mem_take h
  unfold listed at hlisted
  unfold getCommand
  cases hs : g.commandStore with
  | none =>
    rw [hs] at hlisted
    obtain ⟨id, -, hid⟩ := mem_filterMap.mp hlisted
    rw [← (hwf.queue.filed id record hid).1] at hid
    exact hid
  | some store =>
    rw [hs] at hlisted
    obtain ⟨row, hrow, rfl⟩ := mem_map.mp hlisted
    rw [mem_insertionSort, mem_filter] at hrow
    obtain ⟨id, hid⟩ := Dict.mem_values_iff.mp hrow.1
    have hget : store.getRecord id = some row.record := by
      unfold getRecord
      rw [hid]
      rfl
    show store.getRecord row.record.commandId = _
    rw [((hwf.store store hs).filed id row.record hget).1, hget]

end GatewayStateStore

/-! ## Known stays known -/

namespace Copies

variable {stored : Bool} {c : Copies}

theorem current_put (record : CommandRecord) : ((c.put stored record).current stored).isSome := by
  unfold current put write
  cases stored <;> rfl

theorem current_isSome_of_map {c' : Copies} (hmemory : c.memory.isSome → c'.memory.isSome)
    (hrow : c.row.isSome → c'.row.isSome) (h : (c.current stored).isSome) :
    (c'.current stored).isSome := by
  unfold current at h ⊢
  cases stored with
  | true => exact hrow h
  | false => exact hmemory h

theorem current_ack (status : CommandStatus) (resultPayload : Option Mapping)
    (error : Option String) (now : Time) (h : (c.current stored).isSome) :
    ((c.ack status resultPayload error now).current stored).isSome := by
  refine current_isSome_of_map ?_ ?_ h
  · simp [ack]
  · simp [ack]

theorem current_expire (now : Time) (h : (c.current stored).isSome) :
    ((c.expire now).current stored).isSome := by
  refine current_isSome_of_map ?_ ?_ h
  · simp [expire]
  · simp [expire]

theorem current_fail (error : String) (retryable : Bool) (now : Time)
    (h : (c.current stored).isSome) :
    ((c.fail stored error retryable now).current stored).isSome := by
  unfold fail
  cases hm : c.memory with
  | some record => exact current_put _
  | none =>
    refine current_isSome_of_map ?_ ?_ h
    · simp [hm]
    · simp

theorem current_cancel (now : Time) (h : (c.current stored).isSome) :
    ((c.cancel stored now).current stored).isSome := by
  unfold cancel
  split
  · exact current_put _
  · refine current_isSome_of_map (c := c) ?_ ?_ h
    · exact fun hmemory => hmemory
    · simp

def pruned (stored : Bool) (record : CommandRecord) (olderThanSec : Int) (now : Time) : Bool :=
  if stored then prunable (now - max 0 olderThanSec) ⟨record, now⟩
  else record.prunable olderThanSec now

theorem current_prune {record : CommandRecord} {olderThanSec : Int} {now : Time}
    (h : c.current stored = some record) (hkept : pruned stored record olderThanSec now = false) :
    ((c.prune stored olderThanSec now).current stored).isSome := by
  unfold current at h ⊢
  unfold prune
  unfold pruned at hkept
  cases stored with
  | true =>
    simp only [if_true] at h hkept ⊢
    simp [h, hkept]
  | false =>
    simp only [Bool.false_eq_true, if_false] at h hkept ⊢
    simp [h, hkept]

end Copies

namespace GatewayStateStore

/-- A call that may make the gateway forget the command: a prune that deletes its record, or a
restart without a store. -/
def Forgets (g : GatewayStateStore) (s : Step) (commandId : String) : Prop :=
  match s.call with
  | .prune olderThanSec => ∃ record, g.getCommand commandId = some record ∧
      pruned g.stored record olderThanSec s.wall = true
  | .restart => g.stored = false
  | _ => False

theorem known_next {g : GatewayStateStore} (hwf : g.WellFormed)
    (digest : GatewayCommand → String) (s : Step) {id : String}
    (hknown : (g.getCommand id).isSome) (hkeeps : ¬ g.Forgets s id) :
    (((machine digest).next g s).getCommand id).isSome := by
  have hstored := stored_next digest g s
  rw [getCommand_eq] at hknown
  rw [getCommand_eq, hstored]
  obtain ⟨call, wall⟩ := s
  cases call with
  | enqueue command options now =>
    show (((g.enqueueCommand digest command options now wall).1.copies id).current _).isSome
    rcases copies_enqueue digest g command options now wall with
      ⟨-, hsame⟩ | ⟨-, -, -, -, hput⟩
    · rw [hsame]
      exact hknown
    · rw [hput]
      split
      · exact current_put _
      · exact hknown
  | dispatch limit now =>
    show (((g.dispatchCommands limit now wall).1.copies id).current _).isSome
    obtain ⟨sent, -, -, hsent, hunsent⟩ := copies_dispatch hwf limit now wall
    have hexpired := current_expire (now.getD wall) hknown
    by_cases hid : id ∈ sent.map (·.commandId)
    · obtain ⟨r, hr, rfl⟩ := mem_map.mp hid
      obtain ⟨-, old, -, -, -, -, hput⟩ := hsent r hr
      rw [hput]
      exact current_put _
    · rcases hunsent id hid with h | ⟨old, hold, -, -, h⟩
      · rw [h]
        exact hexpired
      · rw [h]
        refine current_isSome_of_map (c := (g.copies id).expire (now.getD wall)) ?_ ?_ hexpired
        · intro _
          rfl
        · exact fun hrow => hrow
  | ack commandId status resultPayload error =>
    show (((g.ackCommand commandId status resultPayload error wall).1.copies id).current _).isSome
    rw [copies_ack]
    split
    · next h => exact current_ack _ _ _ _ (h ▸ hknown)
    · exact hknown
  | fail commandId error retryable =>
    show (((g.failCommand commandId error retryable wall).1.copies id).current _).isSome
    rw [copies_fail hwf]
    split
    · next h => exact current_fail _ _ _ (h ▸ hknown)
    · exact hknown
  | cancel commandId =>
    show (((g.cancelCommand commandId wall).1.copies id).current _).isSome
    rw [copies_cancel hwf]
    split
    · next h => exact current_cancel _ (h ▸ hknown)
    · exact hknown
  | expireOld now =>
    show (((g.expireOldCommands now wall).1.copies id).current _).isSome
    rcases copies_expireOld hwf now wall id with h | ⟨record, -, -, h⟩
    · rw [h]
      exact current_expire _ hknown
    · rw [h]
      exact current_put _
  | prune olderThanSec =>
    show (((g.pruneCommands olderThanSec wall).1.copies id).current _).isSome
    rw [copies_prune hwf]
    obtain ⟨record, hrecord⟩ := Option.isSome_iff_exists.mp hknown
    refine current_prune hrecord ?_
    cases hpruned : pruned g.stored record olderThanSec wall with
    | false => rfl
    | true => exact absurd ⟨record, (getCommand_eq g id).trans hrecord, hpruned⟩ hkeeps
  | restart =>
    show (((g.restart wall).copies id).current _).isSome
    cases hs : g.stored with
    | false => exact absurd hs hkeeps
    | true =>
      rw [hs] at hknown
      rw [copies_restart hwf hs]
      unfold Copies.current Copies.restart at *
      simpa using hknown

end GatewayStateStore

/-! ## What an expiry leaves of a record -/

/-- The record is the old one, or the old one expired. -/
structure CommandRecord.ExpiredFrom (old record : CommandRecord) : Prop where
  command : record.command = old.command
  resultPayload : record.resultPayload = old.resultPayload
  status : record.status = old.status ∨ record.status = .expired

namespace CommandRecord

theorem ExpiredFrom.rfl {record : CommandRecord} : ExpiredFrom record record :=
  ⟨Eq.refl _, Eq.refl _, .inl (Eq.refl _)⟩

theorem ExpiredFrom.trans {a b c : CommandRecord} (hab : ExpiredFrom a b)
    (hbc : ExpiredFrom b c) : ExpiredFrom a c := by
  refine ⟨hbc.command.trans hab.command, hbc.resultPayload.trans hab.resultPayload, ?_⟩
  rcases hbc.status with hsame | hexpired
  · rw [hsame]
    exact hab.status
  · exact .inr hexpired

theorem expiredFrom_expire (record : CommandRecord) (now : Time) :
    ExpiredFrom record (record.expire now) := by
  unfold expire
  split
  · exact .rfl
  · split
    · exact ⟨Eq.refl _, Eq.refl _, .inr (Eq.refl _)⟩
    · exact .rfl

theorem expiredFrom_expiredRecord (includeDispatched : Bool) (now : Time)
    (record : CommandRecord) :
    ExpiredFrom record (expiredRecord includeDispatched now record) := by
  unfold expiredRecord
  split
  · exact ⟨Eq.refl _, Eq.refl _, .inr (Eq.refl _)⟩
  · exact .rfl

theorem expiredFrom_writtenOver (record : CommandRecord) (row : Option CommandRecord) :
    ExpiredFrom record (record.writtenOver row) := by
  unfold writtenOver
  cases row with
  | none => exact .rfl
  | some old => exact ⟨Eq.refl _, Eq.refl _, .inl (Eq.refl _)⟩

end CommandRecord

namespace GatewayStateStore

/-- Every copy that `expire_old_commands` leaves is an old one, or an old one expired. -/
theorem expiredFrom_expireOld {g : GatewayStateStore} (hwf : g.WellFormed) (now : Option Time)
    (wall : Time) {id : String} {record : CommandRecord}
    (hhas : ((g.expireOldCommands now wall).1.copies id).Has record) :
    ∃ old, (g.copies id).Has old ∧ ExpiredFrom old record := by
  have hexpire : ∀ record, ((g.copies id).expire (now.getD wall)).Has record →
      ∃ old, (g.copies id).Has old ∧ ExpiredFrom old record := by
    rintro record (hm | hr)
    · obtain ⟨old, hold, rfl⟩ := Option.map_eq_some_iff.mp hm
      exact ⟨old, .inl hold, expiredFrom_expire old _⟩
    · obtain ⟨old, hold, rfl⟩ := Option.map_eq_some_iff.mp hr
      exact ⟨old, .inr hold, expiredFrom_expiredRecord _ _ old⟩
  rcases copies_expireOld hwf now wall id with h | ⟨written, hm, -, h⟩
  · rw [h] at hhas
    exact hexpire record hhas
  · rw [h] at hhas
    obtain ⟨old, hold, hfrom⟩ := hexpire written (.inl hm)
    rcases hhas with hmemory | hrow
    · injection hmemory with hmemory
      exact ⟨old, hold, hmemory ▸ hfrom⟩
    · rw [row_put hrow]
      exact ⟨old, hold, hfrom.trans (expiredFrom_writtenOver _ _)⟩

end GatewayStateStore

end TradingCore.Broker
