import TradingCore.Broker.StoreLemmas

/-!
# The two copies of a command

A command lives twice: as a record of the in-memory queue and as a row of the
store. This file says what each call of the gateway state store does to the pair
of one command, and that it never makes up a record: every copy it leaves
continues one that was there (`Derived`).
-/

namespace TradingCore.Broker

open Base CommandRecord SQLiteCommandStore Option

/-- The record of a command in memory and in its row. -/
@[ext] structure Copies where
  memory : Option CommandRecord
  row : Option CommandRecord
deriving DecidableEq

/-- `b` is a record of the command of `a`, with no fewer attempts. -/
structure CommandRecord.Continues (a b : CommandRecord) : Prop where
  same : SameCommand a b
  attempts : a.attempts ≤ b.attempts

namespace CommandRecord.Continues

theorem rfl {a : CommandRecord} : Continues a a := ⟨.rfl, Nat.le_refl _⟩

theorem trans {a b c : CommandRecord} (hab : Continues a b) (hbc : Continues b c) :
    Continues a c :=
  ⟨hab.same.trans hbc.same, Nat.le_trans hab.attempts hbc.attempts⟩

theorem finish (record : CommandRecord) (status : CommandStatus) (now : Time) (error : String)
    (resultPayload : Option Mapping) :
    Continues record (record.finish status now error resultPayload) :=
  ⟨sameCommand_finish record _ _ _ _, Nat.le_refl _⟩

theorem updatedRecord (record : CommandRecord) (status : CommandStatus)
    (resultPayload : Option Mapping) (error : Option String) (current : Time) :
    Continues record (updatedRecord record status resultPayload error current) := by
  refine ⟨sameCommand_updatedRecord record _ _ _ _, ?_⟩
  simp only [SQLiteCommandStore.updatedRecord]
  split
  · omega
  · omega

theorem expiredRecord (includeDispatched : Bool) (now : Time) (record : CommandRecord) :
    Continues record (expiredRecord includeDispatched now record) := by
  unfold SQLiteCommandStore.expiredRecord
  split
  · exact updatedRecord record _ _ _ _
  · exact .rfl

end CommandRecord.Continues

namespace Copies

/-- The row after an upsert of `record`; without a store there is none. -/
def write (stored : Bool) (c : Copies) (record : CommandRecord) : Option CommandRecord :=
  if stored then some (record.writtenOver c.row) else none

def put (stored : Bool) (c : Copies) (record : CommandRecord) : Copies :=
  ⟨some record, c.write stored record⟩

/-- One of the copies is `record`. -/
def Has (c : Copies) (record : CommandRecord) : Prop :=
  c.memory = some record ∨ c.row = some record

/-- `ack_command` on the command it names. -/
def ack (c : Copies) (status : CommandStatus) (resultPayload : Option Mapping)
    (error : Option String) (now : Time) : Copies :=
  ⟨c.memory.map fun r => r.ack status resultPayload error now,
   c.row.map fun r => updatedRecord r status resultPayload error now⟩

/-- `fail_command` on the command it names. -/
def fail (stored : Bool) (c : Copies) (error : String) (retryable : Bool) (now : Time) : Copies :=
  match c.memory with
  | some record => c.put stored (record.fail error retryable now)
  | none =>
      ⟨none, c.row.map fun r => updatedRecord r .failed none (some error) now⟩

/-- `cancel_command` on the command it names. -/
def cancel (stored : Bool) (c : Copies) (now : Time) : Copies :=
  match c.memory.filter (·.status = .queued) with
  | some record => c.put stored (record.finish .cancelled now)
  | none =>
      ⟨c.memory, c.row.map fun r =>
        if r.status = .queued then updatedRecord r .cancelled none none now
        else r⟩

def expire (c : Copies) (now : Time) : Copies :=
  ⟨c.memory.map (·.expire now), c.row.map (expiredRecord true now)⟩

/-- `prune_commands`: of the rows if there is a store, else of the queue. -/
def prune (stored : Bool) (c : Copies) (olderThanSec : Int) (now : Time) : Copies :=
  if stored then
    ⟨c.memory, c.row.filter fun r =>
      !prunable (now - max 0 olderThanSec) ⟨r, now⟩⟩
  else ⟨c.memory.filter fun r => !r.prunable olderThanSec now, c.row⟩

def restart (includeDispatched : Bool) (c : Copies) (now : Time) : Copies :=
  let row := c.row.map (expiredRecord includeDispatched now)
  ⟨row.filter fun r => r.status = .queued && !r.isExpired now, row⟩

variable {c : Copies} {record : CommandRecord}

theorem cancel_of_queued (h : c.memory = some record) (hq : record.status = .queued) (stored : Bool)
    (now : Time) : c.cancel stored now = c.put stored (record.finish .cancelled now) := by
  have hfilter : c.memory.filter (·.status = .queued) = some record := by
    rw [h, filter_some, if_pos (by simp [hq])]
  unfold cancel
  rw [hfilter]

theorem cancel_of_not_queued (h : ∀ record, c.memory = some record → record.status ≠ .queued)
    (stored : Bool) (now : Time) :
    c.cancel stored now = ⟨c.memory, c.row.map fun r =>
      if r.status = .queued then updatedRecord r .cancelled none none now
      else r⟩ := by
  have hfilter : c.memory.filter (·.status = .queued) = none := by
    cases hm : c.memory with
    | none => rfl
    | some record => rw [filter_some, if_neg (by simp [h record hm])]
  unfold cancel
  rw [hfilter]

theorem row_put {stored : Bool} {r : CommandRecord} (h : (c.put stored record).row = some r) :
    r = record.writtenOver c.row := by
  unfold put write at h
  dsimp only at h
  split at h
  · injection h with h
    exact h.symm
  · cases h

theorem has_put {stored : Bool} {a : CommandRecord} (h : (c.put stored record).Has a) :
    SameCommand record a := by
  rcases h with hm | hr
  · injection hm with hm
    rw [← hm]
    exact .rfl
  · rw [row_put hr]
    exact sameCommand_writtenOver record c.row

/-- Every copy in `c'` continues a copy in `c`. -/
def Derived (c c' : Copies) : Prop :=
  ∀ record, c'.Has record → ∃ old, c.Has old ∧ Continues old record

theorem Derived.trans {a b : Copies} (hab : Derived a b) (hbc : Derived b c) : Derived a c := by
  intro record h
  obtain ⟨mid, hmid, hcont⟩ := hbc record h
  obtain ⟨old, hold, hcont'⟩ := hab mid hmid
  exact ⟨old, hold, hcont'.trans hcont⟩

theorem derived_map {f h : CommandRecord → CommandRecord}
    (hf : ∀ r, Continues r (f r)) (hh : ∀ r, Continues r (h r))
    (c : Copies) : Derived c ⟨c.memory.map f, c.row.map h⟩ := by
  rintro record (hm | hr)
  · obtain ⟨old, hold, rfl⟩ := map_eq_some_iff.mp hm
    exact ⟨old, .inl hold, hf old⟩
  · obtain ⟨old, hold, rfl⟩ := map_eq_some_iff.mp hr
    exact ⟨old, .inr hold, hh old⟩

theorem derived_put {old : CommandRecord} (hold : c.Has old)
    (hcont : Continues old record) (stored : Bool) :
    Derived c (c.put stored record) := by
  rintro written (hm | hr)
  · injection hm with hm
    exact ⟨old, hold, hm ▸ hcont⟩
  · refine ⟨old, hold, ?_⟩
    rw [row_put hr]
    exact hcont.trans ⟨sameCommand_writtenOver record c.row, Nat.le_refl _⟩

theorem derived_of_sub {c' : Copies} (h : ∀ record, c'.Has record → c.Has record) :
    Derived c c' := by
  intro record hrec
  exact ⟨record, h record hrec, .rfl⟩

theorem derived_ack (c : Copies) (status : CommandStatus) (resultPayload : Option Mapping)
    (error : Option String) (now : Time) : Derived c (c.ack status resultPayload error now) := by
  refine derived_map (fun r => ?_) (fun r => .updatedRecord r _ _ _ _) c
  exact ⟨sameCommand_ack r _ _ _ _, (ack_attempts r _ _ _ _).ge⟩

theorem derived_fail (stored : Bool) (c : Copies) (error : String) (retryable : Bool)
    (now : Time) : Derived c (c.fail stored error retryable now) := by
  unfold fail
  cases hm : c.memory with
  | some record =>
    refine derived_put (.inl hm) ?_ stored
    exact ⟨sameCommand_fail record error retryable now,
      (fail_attempts record error retryable now).ge⟩
  | none =>
    rintro record (h | hr)
    · cases h
    · obtain ⟨old, hold, rfl⟩ := map_eq_some_iff.mp hr
      exact ⟨old, .inr hold, .updatedRecord old _ _ _ _⟩

theorem derived_cancel (stored : Bool) (c : Copies) (now : Time) :
    Derived c (c.cancel stored now) := by
  by_cases hq : ∃ record, c.memory = some record ∧ record.status = .queued
  · obtain ⟨record, hm, hst⟩ := hq
    rw [cancel_of_queued hm hst]
    exact derived_put (.inl hm) (.finish record _ _ _ _) stored
  · rw [cancel_of_not_queued (fun record hm hst => hq ⟨record, hm, hst⟩)]
    rintro record (hm | hr)
    · exact ⟨record, .inl hm, .rfl⟩
    · obtain ⟨old, hold, rfl⟩ := map_eq_some_iff.mp hr
      refine ⟨old, .inr hold, ?_⟩
      split
      · exact .updatedRecord old _ _ _ _
      · exact .rfl

theorem derived_expire (c : Copies) (now : Time) : Derived c (c.expire now) := by
  refine derived_map (fun r => ?_) (fun r => .expiredRecord true now r) c
  exact ⟨sameCommand_expire r now, (expire_attempts r now).ge⟩

theorem derived_prune (stored : Bool) (c : Copies) (olderThanSec : Int) (now : Time) :
    Derived c (c.prune stored olderThanSec now) := by
  refine derived_of_sub ?_
  unfold prune
  cases stored with
  | true =>
    rintro record (hm | hr)
    · exact .inl hm
    · exact .inr (filter_eq_some_iff.mp hr).1
  | false =>
    rintro record (hm | hr)
    · exact .inl (filter_eq_some_iff.mp hm).1
    · exact .inr hr

theorem derived_restart (includeDispatched : Bool) (c : Copies) (now : Time) :
    Derived c (c.restart includeDispatched now) := by
  have hrow : ∀ record, c.row.map
      (expiredRecord includeDispatched now) = some record →
      ∃ old, c.Has old ∧ Continues old record := by
    intro record hr
    obtain ⟨old, hold, rfl⟩ := map_eq_some_iff.mp hr
    exact ⟨old, .inr hold, .expiredRecord _ _ old⟩
  rintro record (hm | hr)
  · exact hrow record (filter_eq_some_iff.mp hm).1
  · exact hrow record hr

end Copies

end TradingCore.Broker
