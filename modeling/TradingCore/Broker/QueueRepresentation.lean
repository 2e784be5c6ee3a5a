import TradingCore.Broker.QueueLemmas

/-!
# The sequence and the records of the queue

The sequence lists the ids of the records whatever is called or restored, and a prune drops
the finished records that are old enough. A queued record has attempts left, unless an
acknowledgement or a restoration queues one that has none; `dispatch` fails such a record.
-/

namespace TradingCore.Broker.CommandQueue

open Base CommandRecord Dict

/-- A call on the queue, or the restoration of any record. -/
inductive Use
  | call (step : Step)
  | restore (record : CommandRecord)

def restoring (digest : GatewayCommand → String) : Machine CommandQueue Use (Option Answer) where
  step q
    | .call step => (q.step digest step).map id some
    | .restore record => (q.restore record, none)

/-- If it is queued, the record has attempts left. -/
def HasAttempts (record : CommandRecord) : Prop :=
  record.status = .queued → record.attempts < record.maxAttempts
deriving Decidable

def Bounded (records : Dict String CommandRecord) : Prop :=
  ∀ id record, records.get? id = some record → HasAttempts record

/-- The use queues no record that is out of attempts. -/
def Spares (q : CommandQueue) : Use → Prop
  | .call ⟨.ack commandId status _ _, _⟩ => ∀ record ∈ q.records.get? commandId,
      status = .queued → record.attempts < record.maxAttempts
  | .restore record => record.commandId ≠ "" → HasAttempts record
  | _ => True

/-- The sequence lists the keys, and a record is filed under its own id. -/
structure Represented (q : CommandQueue) : Prop where
  sequence_eq : q.sequence = q.records.keys
  filed : ∀ id record, q.records.get? id = some record → record.commandId = id

/-- A prune leaves the records that are unfinished or finished after the cutoff. -/
def PrunesOld (q : CommandQueue) : Prop :=
  ∀ olderThanSec now id record,
    (q.prune olderThanSec now).1.records.get? id = some record ↔
      q.records.get? id = some record ∧ ¬ (record.finished = true ∧
        ∃ finishedAt ∈ record.finishedAt, finishedAt + max 0 olderThanSec ≤ now)

variable {q : CommandQueue} {id : String} {record old : CommandRecord}
  {records : Dict String CommandRecord}

/-! ## What is filed -/

theorem filed_set_own (h : ∀ id record, records.get? id = some record → record.commandId = id)
    (hid : record.commandId = id) : ∀ id' record',
      (records.set id record).get? id' = some record' → record'.commandId = id' := by
  intro id' record' hget
  rw [get?_set] at hget
  split at hget
  · next heq =>
    injection hget with hget
    rw [← hget, heq, hid]
  · exact h id' record' hget

theorem dispatchLoop_filed (limit : Nat) (now : Time) (candidates : List CommandRecord) :
    ∀ (records : Dict String CommandRecord) (selected : List CommandRecord),
      (∀ id record, records.get? id = some record → record.commandId = id) →
      ∀ id record, (dispatchLoop limit now candidates records selected).1.get? id = some record →
        record.commandId = id := by
  induction candidates with
  | nil => exact fun _ _ h => h
  | cons candidate rest ih =>
    intro records selected h
    unfold dispatchLoop
    split
    · exact h
    · split
      · exact ih _ _ (filed_set_own h rfl)
      · exact ih _ _ (filed_set_own h rfl)

namespace Represented

theorem rewrite (h : q.Represented) (hold : q.records.get? id = some old)
    (hsame : record.commandId = old.commandId) :
    Represented { q with records := q.records.set id record } := by
  refine ⟨?_, filed_set_own h.filed (hsame.trans (h.filed id old hold))⟩
  show q.sequence = (q.records.set id record).keys
  rw [keys_set_of_contains _ _ (contains_iff.mpr ⟨old, hold⟩)]
  exact h.sequence_eq

variable (h : q.Represented)
include h

theorem mem_sequence : id ∈ q.sequence ↔ q.records.contains id = true := by
  rw [h.sequence_eq, contains_iff]
  exact mem_keys_iff

theorem enqueue (digest : GatewayCommand → String) (command : GatewayCommand)
    (options : EnqueueOptions) (now : Time) :
    (q.enqueue digest command options now).1.Represented := by
  rcases enqueue_cases digest q command options now with ⟨-, hrec, hseq⟩ |
    ⟨-, -, hnone, -, hrec, hseq⟩
  · exact ⟨by rw [hrec, hseq]; exact h.sequence_eq, by rw [hrec]; exact h.filed⟩
  · refine ⟨?_, ?_⟩
    · rw [hrec, hseq, keys_set_of_absent _ _ hnone, h.sequence_eq]
    · rw [hrec]
      exact filed_set_own h.filed rfl

theorem restore (record : CommandRecord) : (q.restore record).Represented := by
  unfold CommandQueue.restore
  split
  · exact h
  · refine ⟨?_, filed_set_own h.filed rfl⟩
    show (if q.records.contains record.commandId then q.sequence
      else q.sequence ++ [record.commandId]) = (q.records.set record.commandId record).keys
    by_cases hc : q.records.contains record.commandId = true
    · rw [if_pos hc, keys_set_of_contains _ _ hc, h.sequence_eq]
    · have hnone := contains_eq_false.mp (Bool.eq_false_iff.mpr hc)
      rw [if_neg hc, keys_set_of_absent _ _ hnone, h.sequence_eq]

theorem expireOld (now : Time) : (q.expireOld now).1.Represented := by
  refine ⟨?_, ?_⟩
  · show q.sequence = (q.records.mapVals fun _ record => record.expire now).keys
    rw [keys_mapVals]
    exact h.sequence_eq
  · intro id record hget
    rw [expireOld_get?, Option.map_eq_some_iff] at hget
    obtain ⟨old, hold, rfl⟩ := hget
    exact (sameCommand_expire old now).commandId.trans (h.filed id old hold)

theorem prune_iff (olderThanSec : Int) (now : Time) :
    (q.prune olderThanSec now).1.records.get? id = some record ↔
      q.records.get? id = some record ∧ record.prunable olderThanSec now = false := by
  show (q.records.filter _).get? id = _ ↔ _
  rw [get?_filter, Option.filter_eq_some_iff]
  refine and_congr_right fun hget => ?_
  have hmem : id ∈ q.sequence := h.mem_sequence.mpr (contains_iff.mpr ⟨record, hget⟩)
  simp [hmem]

theorem prunesOld : q.PrunesOld := by
  intro olderThanSec now id record
  rw [h.prune_iff]
  refine and_congr_right fun _ => ?_
  unfold prunable
  cases record.finishedAt with
  | none => simp
  | some finishedAt => simp

theorem prune (olderThanSec : Int) (now : Time) :
    (q.prune olderThanSec now).1.Represented := by
  refine ⟨?_, fun id record hget => h.filed id record ((h.prune_iff _ _).mp hget).1⟩
  show q.sequence.filter _ = (q.records.filter _).keys
  rw [h.sequence_eq]
  refine (keys_filter q.records ?_).symm
  intro id record hget
  have hmem : id ∈ q.records.keys := mem_keys_iff.mpr ⟨record, hget⟩
  simp [hget, hmem]

theorem dispatch (limit : Int) (now : Time) : (q.dispatch limit now).1.Represented := by
  have hexpired := h.expireOld now
  have hkeys : (q.dispatch limit now).1.records.keys = (q.expireOld now).1.records.keys := by
    refine dispatchLoop_keys _ _ _ _ _ ?_
    intro record hrecord
    unfold dispatchCandidates at hrecord
    rw [(List.perm_insertionSort _ _).mem_iff] at hrecord
    obtain ⟨id, -, hget⟩ := List.mem_filterMap.mp (List.mem_of_mem_filter hrecord)
    rw [hexpired.filed id record hget]
    exact mem_keys_iff.mpr ⟨record, hget⟩
  refine ⟨?_, ?_⟩
  · rw [hkeys]
    exact hexpired.sequence_eq
  · exact dispatchLoop_filed _ _ _ _ _ hexpired.filed

theorem next (digest : GatewayCommand → String) (use : Use) :
    ((restoring digest).next q use).Represented := by
  cases use with
  | restore record => exact h.restore record
  | call step =>
    obtain ⟨call, now⟩ := step
    cases call with
    | enqueue command options => exact h.enqueue digest command options now
    | dispatch limit => exact h.dispatch limit now
    | ack commandId status resultPayload error =>
      show (q.ack commandId status resultPayload error now).1.Represented
      unfold CommandQueue.ack
      cases hget : q.records.get? commandId with
      | none => exact h
      | some record => exact h.rewrite hget (sameCommand_ack record _ _ _ _).commandId
    | fail commandId error retryable =>
      show (q.fail commandId error retryable now).1.Represented
      unfold CommandQueue.fail
      cases hget : q.records.get? commandId with
      | none => exact h
      | some record => exact h.rewrite hget (sameCommand_fail record _ _ _).commandId
    | cancel commandId =>
      show (q.cancel commandId now).1.Represented
      rcases cancel_cases q commandId now with ⟨record, hget, -, heq⟩ | ⟨-, heq⟩
      · rw [heq]
        exact h.rewrite hget rfl
      · rw [heq]
        exact h
    | expireOld => exact h.expireOld now
    | prune olderThanSec => exact h.prune olderThanSec now

end Represented

/-! ## What is queued -/

theorem hasAttempts_of_not_queued (h : record.status ≠ .queued) : HasAttempts record :=
  fun hqueued => absurd hqueued h

theorem Bounded.set_iff (h : Bounded records) (id : String) (record : CommandRecord) :
    Bounded (records.set id record) ↔ HasAttempts record := by
  constructor
  · intro hset
    exact hset id record (get?_set_self _ _ _)
  · intro hrecord id' record' hget
    rw [get?_set] at hget
    split at hget
    · injection hget with hget
      exact hget ▸ hrecord
    · exact h id' record' hget

theorem Bounded.dispatchLoop (limit : Nat) (now : Time) (candidates : List CommandRecord) :
    ∀ {records : Dict String CommandRecord} (selected : List CommandRecord), Bounded records →
      Bounded (dispatchLoop limit now candidates records selected).1 := by
  induction candidates with
  | nil => exact fun _ h => h
  | cons candidate rest ih =>
    intro records selected h
    unfold CommandQueue.dispatchLoop
    split
    · exact h
    · split
      · exact ih _ ((h.set_iff _ _).mpr (hasAttempts_of_not_queued (by simp)))
      · exact ih _ ((h.set_iff _ _).mpr (hasAttempts_of_not_queued (by simp [CommandRecord.dispatch])))

theorem Bounded.expireOld (h : Bounded q.records) (now : Time) :
    Bounded (q.expireOld now).1.records := by
  intro id record hget
  rw [expireOld_get?, Option.map_eq_some_iff] at hget
  obtain ⟨old, hold, rfl⟩ := hget
  intro hqueued
  rw [expire_attempts, (sameCommand_expire old now).maxAttempts]
  rw [expire_status] at hqueued
  split at hqueued
  · cases hqueued
  · exact h id old hold hqueued

theorem hasAttempts_fail (record : CommandRecord) (error : String) (retryable : Bool)
    (now : Time) : HasAttempts (record.fail error retryable now) := by
  intro hqueued
  rw [fail_attempts, (sameCommand_fail record error retryable now).maxAttempts]
  rw [fail_status] at hqueued
  split at hqueued
  · next hrequeues =>
    unfold requeues at hrequeues
    simp only [Bool.and_eq_true, decide_eq_true_eq] at hrequeues
    exact hrequeues.1.2
  · cases hqueued

theorem Bounded.next_iff (hq : q.Represented) (h : Bounded q.records)
    (digest : GatewayCommand → String) (use : Use) :
    Bounded ((restoring digest).next q use).records ↔ q.Spares use := by
  cases use with
  | restore record =>
    show Bounded (q.restore record).records ↔ (_ → _)
    unfold restore
    by_cases hid : record.commandId = ""
    · simp only [if_pos hid]
      exact ⟨fun _ hne => absurd hid hne, fun _ => h⟩
    · simp only [if_neg hid]
      exact (h.set_iff _ _).trans ⟨fun hrecord _ => hrecord, fun hrecord => hrecord hid⟩
  | call step =>
    obtain ⟨call, now⟩ := step
    cases call with
    | enqueue command options =>
      refine iff_of_true ?_ trivial
      rcases enqueue_cases digest q command options now with ⟨-, hrec, -⟩ | ⟨-, -, -, -, hrec, -⟩
      · exact hrec ▸ h
      · refine hrec ▸ (h.set_iff _ _).mpr fun _ => ?_
        exact create_maxAttempts_pos digest command options now
    | dispatch limit => exact iff_of_true (.dispatchLoop _ _ _ _ (h.expireOld now)) trivial
    | ack commandId status resultPayload error =>
      show Bounded (q.ack commandId status resultPayload error now).1.records ↔
        ∀ record ∈ q.records.get? commandId, _
      unfold ack
      cases hget : q.records.get? commandId with
      | none => exact iff_of_true h (by simp)
      | some record =>
        refine (h.set_iff _ _).trans ?_
        unfold HasAttempts
        rw [ack_status, ack_attempts, (sameCommand_ack record _ _ _ _).maxAttempts]
        simp
    | fail commandId error retryable =>
      refine iff_of_true ?_ trivial
      show Bounded (q.fail commandId error retryable now).1.records
      unfold fail
      cases hget : q.records.get? commandId with
      | none => exact h
      | some record => exact (h.set_iff _ _).mpr (hasAttempts_fail record _ _ _)
    | cancel commandId =>
      refine iff_of_true ?_ trivial
      show Bounded (q.cancel commandId now).1.records
      rcases cancel_cases q commandId now with ⟨record, hget, -, heq⟩ | ⟨-, heq⟩
      · rw [heq]
        exact (h.set_iff _ _).mpr (hasAttempts_of_not_queued (by simp))
      · rw [heq]
        exact h
    | expireOld => exact iff_of_true (h.expireOld now) trivial
    | prune olderThanSec =>
      refine iff_of_true ?_ trivial
      intro id record hget
      exact h id record ((hq.prune_iff _ _).mp hget).1

/-! ## Runs -/

/-- In every run the sequence lists the ids of the records, each once, and a prune drops the
old finished ones; what is queued has attempts left throughout iff no acknowledgement and no
restoration queues a record that has none. -/
theorem represented_throughout (digest : GatewayCommand → String) (uses : List Use) :
    (restoring digest).Always (fun q => q.sequence.Nodup ∧
        (∀ id, id ∈ q.sequence ↔ q.records.contains id = true) ∧ q.PrunesOld) {} uses ∧
      ((restoring digest).Always (fun q => Bounded q.records) {} uses ↔
        (restoring digest).Guarded Spares {} uses) := by
  have hstart : Represented {} := by
    refine ⟨rfl, ?_⟩
    intro id record hget
    cases hget
  refine ⟨?_, ?_⟩
  · refine Machine.always_iff_prefix.mpr fun past _ => ?_
    have h : Represented ((restoring digest).run {} past) :=
      Machine.run_preserves (fun q use hq => hq.next digest use) hstart past
    refine ⟨?_, fun id => h.mem_sequence, h.prunesOld⟩
    rw [h.sequence_eq]
    exact nodup _
  · refine Machine.always_iff_guarded (I := Represented) ?_ ?_ hstart ?_
    · exact fun q use hq _ _ => hq.next digest use
    · exact fun q use hq h => Bounded.next_iff hq h digest use
    · intro id record hget
      cases hget

/-! ## Fixed runs -/

/-- A command is dispatched its one time and then acknowledged as queued. -/
theorem acked_as_queued : ¬ ∀ (digest : GatewayCommand → String) (uses : List Use),
    (restoring digest).Always (fun q => ∀ id record, q.records.get? id = some record →
      record.status = .queued → record.attempts < record.maxAttempts) {} uses := by
  intro h
  have halways := h (fun _ => "")
    [.call ⟨.enqueue { type := "send_order", commandId := "c1" } {}, 0⟩,
      .call ⟨.dispatch 1, 1⟩, .call ⟨.ack "c1" .queued none none, 2⟩]
  have hlast := Machine.always_iff_prefix.mp halways _ (List.prefix_refl _)
  exact absurd (hlast "c1" _ rfl rfl) (by decide)

end TradingCore.Broker.CommandQueue
