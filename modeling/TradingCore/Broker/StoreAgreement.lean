import TradingCore.Broker.StoreCopies

/-!
# Memory and store

Every transition of a command is made twice: on its record in memory and on its row. When do the
two stay in step, so that a restart of Core loses no command and brings none back?

* `MatchesStore` — common commands have one status and one number of attempts, and a restart
  recovers exactly what the queue would still dispatch;
* `KeepsInStep` — the reports that the two copies treat alike.

A `DISPATCHED` ack raises the attempts of the row, not those in memory, to one; a `QUEUED` ack
brings back a command that the other copy may not have, or whose attempts are used up.
-/

namespace TradingCore.Broker

open Base CommandRecord SQLiteCommandStore Copies Option

/-- Would the queue still hand the command out at `now`? -/
def CommandRecord.dispatchable (record : CommandRecord) (now : Time) : Bool :=
  record.status = .queued && !record.isExpired now && record.attempts < record.maxAttempts

/-! ## One command -/

def InStep (c : Copies) : Prop :=
  ∀ m r, c.memory = some m → c.row = some r → m.status = r.status ∧ m.attempts = r.attempts

def Live (c : Copies) : Prop :=
  ∃ m, c.memory = some m ∧ m.status = .queued ∧ m.attempts < m.maxAttempts

def RowQueued (c : Copies) : Prop := ∃ r, c.row = some r ∧ r.status = .queued

def Uniform (c : Copies) : Prop :=
  ∀ a b, c.Has a → c.Has b → SameCommand a b

structure Matched (c : Copies) : Prop where
  inStep : InStep c
  waits : Live c ↔ RowQueued c

theorem CommandRecord.SameCommand.symm {a b : CommandRecord} (h : SameCommand a b) :
    SameCommand b a :=
  ⟨h.command.symm, h.commandId.symm, h.commandType.symm, h.dedupeKey.symm, h.expiresAt.symm,
    h.maxAttempts.symm⟩

theorem Uniform.of_derived {c c' : Copies} (h : Uniform c) (hd : Derived c c') :
    Uniform c' := by
  intro a b ha hb
  obtain ⟨a₀, ha₀, hsa⟩ := hd a ha
  obtain ⟨b₀, hb₀, hsb⟩ := hd b hb
  exact (hsa.same.symm.trans (h a₀ b₀ ha₀ hb₀)).trans hsb.same

theorem uniform_put (stored : Bool) (c : Copies) (record : CommandRecord) :
    Uniform (c.put stored record) := by
  intro a b ha hb
  exact (has_put ha).symm.trans (has_put hb)

theorem restart_memory (includeDispatched : Bool) (c : Copies) (now : Time) :
    (c.restart includeDispatched now).memory =
      c.row.filter fun r => r.status = .queued && !r.isExpired now := by
  unfold restart
  cases hr : c.row with
  | none => rfl
  | some r =>
    dsimp only
    rw [map_some, filter_some, filter_some]
    unfold expiredRecord
    by_cases hexp : expirable includeDispatched now ⟨r, now⟩ = true
    · -- an expired row is not recovered, neither before nor after its expiry
      rw [if_pos hexp]
      have hdue : r.isExpired now = true := by
        unfold expirable at hexp
        exact (Bool.and_eq_true _ _ ▸ hexp).2
      rw [if_neg (by simp [updatedRecord]), if_neg (by simp [hdue])]
    · rw [if_neg hexp]

theorem recovers_iff {c : Copies} (hu : Uniform c) (includeDispatched : Bool) :
    (∀ now, (c.restart includeDispatched now).memory.map (·.command) =
      (c.memory.filter (·.dispatchable now)).map (·.command)) ↔ (Live c ↔ RowQueued c) := by
  -- some time at which a record has not expired yet
  have hearly : ∀ record : CommandRecord, ∃ now, record.isExpired now = false := by
    intro record
    unfold isExpired
    cases record.expiresAt with
    | none => exact ⟨0, rfl⟩
    | some t =>
      refine ⟨t - 1, decide_eq_false ?_⟩
      exact Int.not_le.mpr (Int.sub_lt_self t Int.one_pos)
  have hsome : ∀ now, (∃ r, (c.restart includeDispatched now).memory = some r) ↔
      ∃ r, c.row = some r ∧ r.status = .queued ∧ r.isExpired now = false := by
    intro now
    rw [restart_memory]
    simp only [filter_eq_some_iff, Bool.and_eq_true, decide_eq_true_eq, Bool.not_eq_true']
  have hlive : ∀ now, (∃ m, c.memory.filter (·.dispatchable now) = some m) ↔
      ∃ m, c.memory = some m ∧ m.status = .queued ∧ m.isExpired now = false ∧
        m.attempts < m.maxAttempts := by
    intro now
    simp only [filter_eq_some_iff, dispatchable, Bool.and_eq_true,
      decide_eq_true_eq, Bool.not_eq_true', and_assoc]
  constructor
  · intro h
    have hex : ∀ now, (∃ r, (c.restart includeDispatched now).memory = some r) ↔
        ∃ m, c.memory.filter (·.dispatchable now) = some m := by
      intro now
      have := congrArg isSome (h now)
      rw [isSome_map, isSome_map] at this
      rw [← isSome_iff_exists, ← isSome_iff_exists, this]
    constructor
    · rintro ⟨m, hm, hq, hlt⟩
      obtain ⟨now, hnow⟩ := hearly m
      obtain ⟨r, hr, hrq, -⟩ := (hsome now).mp ((hex now).mpr ((hlive now).mpr
        ⟨m, hm, hq, hnow, hlt⟩))
      exact ⟨r, hr, hrq⟩
    · rintro ⟨r, hr, hq⟩
      obtain ⟨now, hnow⟩ := hearly r
      obtain ⟨m, hm, hmq, -, hlt⟩ := (hlive now).mp ((hex now).mp ((hsome now).mpr
        ⟨r, hr, hq, hnow⟩))
      exact ⟨m, hm, hmq, hlt⟩
  · intro h now
    rw [restart_memory]
    by_cases hlv : Live c
    · obtain ⟨m, hm, hq, hlt⟩ := hlv
      obtain ⟨r, hr, hrq⟩ := h.mp ⟨m, hm, hq, hlt⟩
      have hsame := hu m r (.inl hm) (.inr hr)
      have hdue : r.isExpired now = m.isExpired now := by
        unfold isExpired
        rw [hsame.expiresAt]
      rw [hm, hr, filter_some, filter_some]
      simp only [dispatchable, hq, hrq, hdue, hlt]
      cases m.isExpired now with
      | true => rfl
      | false => exact congrArg some hsame.command
    · have hrow : ¬ RowQueued c := fun hr => hlv (h.mpr hr)
      have hr : (c.row.filter fun r => r.status = .queued && !r.isExpired now) = none := by
        rw [filter_eq_none_iff]
        intro r hr hp
        simp only [Bool.and_eq_true, decide_eq_true_eq] at hp
        exact hrow ⟨r, hr, hp.1⟩
      have hm : c.memory.filter (·.dispatchable now) = none := by
        rw [filter_eq_none_iff]
        intro m hm hp
        simp only [dispatchable, Bool.and_eq_true, decide_eq_true_eq] at hp
        exact hlv ⟨m, hm, hp.1.1, hp.2⟩
      rw [hr, hm]

section Matched

variable {c : Copies}

variable {record : CommandRecord}

theorem not_live_put (hq : record.status ≠ .queued) (stored : Bool) :
    ¬ Live (c.put stored record) ∧ ¬ RowQueued (c.put stored record) := by
  refine ⟨?_, ?_⟩
  · rintro ⟨m, hm, hmq, -⟩
    injection hm with hm
    exact hq (hm ▸ hmq)
  · rintro ⟨r, hr, hrq⟩
    rw [row_put hr] at hrq
    exact hq hrq

theorem inStep_put (stored : Bool) (c : Copies) (record : CommandRecord) :
    InStep (c.put stored record) := by
  intro m r hm hr
  injection hm with hm
  rw [← hm, row_put hr]
  exact ⟨rfl, rfl⟩

theorem matched_put (hq : record.status ≠ .queued) (stored : Bool) :
    Matched (c.put stored record) :=
  ⟨inStep_put stored c record, iff_of_false (not_live_put hq stored).1 (not_live_put hq stored).2⟩

theorem matched_put_waiting (hq : record.status = .queued)
    (hlt : record.attempts < record.maxAttempts) : Matched (c.put true record) :=
  ⟨inStep_put true c record, iff_of_true ⟨record, rfl, hq, hlt⟩ ⟨_, rfl, hq⟩⟩

theorem matched_ack_iff (h : Matched c) (status : CommandStatus)
    (resultPayload : Option Mapping) (error : Option String) (now : Time) :
    Matched (c.ack status resultPayload error now) ↔
      (status = .dispatched → ∀ m r, c.memory = some m → c.row = some r → 1 ≤ m.attempts) ∧
      (status = .queued →
        ((∃ m, c.memory = some m ∧ m.attempts < m.maxAttempts) ↔ ∃ r, c.row = some r)) := by
  have hstep : InStep (c.ack status resultPayload error now) ↔
      (status = .dispatched → ∀ m r, c.memory = some m → c.row = some r → 1 ≤ m.attempts) := by
    constructor
    · intro hin hst m r hm hr
      have := (hin (m.ack status resultPayload error now)
        (updatedRecord r status resultPayload error now)
        (by unfold Copies.ack; rw [hm]; rfl) (by unfold Copies.ack; rw [hr]; rfl)).2
      simp only [ack_attempts, updatedRecord, hst, if_true] at this
      omega
    · intro hat m' r' hm' hr'
      obtain ⟨m, hm, rfl⟩ := map_eq_some_iff.mp hm'
      obtain ⟨r, hr, rfl⟩ := map_eq_some_iff.mp hr'
      obtain ⟨-, heq⟩ := h.inStep m r hm hr
      refine ⟨by rw [ack_status]; rfl, ?_⟩
      rw [ack_attempts]
      simp only [updatedRecord]
      split
      · rename_i hst
        have := hat hst m r hm hr
        omega
      · exact heq
  have hlive : Live (c.ack status resultPayload error now) ↔
      status = .queued ∧ ∃ m, c.memory = some m ∧ m.attempts < m.maxAttempts := by
    constructor
    · rintro ⟨m', hm', hq, hlt⟩
      obtain ⟨m, hm, rfl⟩ := map_eq_some_iff.mp hm'
      rw [ack_status] at hq
      rw [ack_attempts, (sameCommand_ack m status resultPayload error now).maxAttempts] at hlt
      exact ⟨hq, m, hm, hlt⟩
    · rintro ⟨hq, m, hm, hlt⟩
      refine ⟨m.ack status resultPayload error now, by unfold Copies.ack; rw [hm]; rfl, ?_, ?_⟩
      · rw [ack_status, hq]
      · rw [ack_attempts,
          (sameCommand_ack m status resultPayload error now).maxAttempts]
        exact hlt
  have hrow : RowQueued (c.ack status resultPayload error now) ↔
      status = .queued ∧ ∃ r, c.row = some r := by
    constructor
    · rintro ⟨r', hr', hq⟩
      obtain ⟨r, hr, rfl⟩ := map_eq_some_iff.mp hr'
      exact ⟨hq, r, hr⟩
    · rintro ⟨hq, r, hr⟩
      exact ⟨_, by unfold Copies.ack; rw [hr]; rfl, hq⟩
  constructor
  · rintro ⟨hin, hwaits⟩
    refine ⟨hstep.mp hin, ?_⟩
    intro hq
    rw [hlive, hrow] at hwaits
    constructor
    · intro hm
      exact (hwaits.mp ⟨hq, hm⟩).2
    · intro hr
      exact (hwaits.mpr ⟨hq, hr⟩).2
  · rintro ⟨hin, hwaits⟩
    refine ⟨hstep.mpr hin, ?_⟩
    rw [hlive, hrow]
    exact ⟨fun h => ⟨h.1, (hwaits h.1).mp h.2⟩, fun h => ⟨h.1, (hwaits h.1).mpr h.2⟩⟩

theorem matched_fail (c : Copies) (error : String) (retryable : Bool) (now : Time) :
    Matched (c.fail true error retryable now) := by
  unfold Copies.fail
  cases hm : c.memory with
  | some record =>
    dsimp only
    cases hreq : record.requeues retryable now with
    | true =>
      refine matched_put_waiting ?_ ?_
      · rw [fail_status, hreq, if_pos rfl]
      · rw [fail_attempts,
          (sameCommand_fail record error retryable now).maxAttempts]
        simp only [requeues, Bool.and_eq_true, decide_eq_true_eq] at hreq
        exact hreq.1.2
    | false =>
      refine matched_put ?_ true
      rw [fail_status, hreq]
      decide
  | none =>
    refine ⟨?_, iff_of_false ?_ ?_⟩
    · intro m r hm'
      cases hm'
    · rintro ⟨m, hm', -⟩
      cases hm'
    · rintro ⟨r', hr', hq⟩
      obtain ⟨r, -, rfl⟩ := map_eq_some_iff.mp hr'
      cases hq

section

variable (h : Matched c)
include h

theorem Matched.cancel (stored : Bool) (now : Time) : Matched (c.cancel stored now) := by
  by_cases hq : ∃ record, c.memory = some record ∧ record.status = .queued
  · obtain ⟨record, hm, hst⟩ := hq
    rw [cancel_of_queued hm hst]
    exact matched_put (by simp) stored
  · rw [cancel_of_not_queued fun record hm hst => hq ⟨record, hm, hst⟩]
    -- a queued row would have a queued record beside it
    have hrow : ∀ r, c.row = some r → r.status ≠ .queued := by
      intro r hr hrq
      obtain ⟨m, hm, hmq, -⟩ := h.waits.mpr ⟨r, hr, hrq⟩
      exact hq ⟨m, hm, hmq⟩
    have hsame : c.row.map (fun r => if r.status = .queued then
        updatedRecord r .cancelled none none now else r) = c.row := by
      cases hr : c.row with
      | none => rfl
      | some r => rw [map_some, if_neg (hrow r hr)]
    rw [hsame]
    exact h

theorem Matched.expire (hu : Uniform c) (now : Time) : Matched (c.expire now) := by
  have hdue : ∀ m r, c.memory = some m → c.row = some r → r.isExpired now = m.isExpired now := by
    intro m r hm hr
    unfold isExpired
    rw [(hu m r (.inl hm) (.inr hr)).expiresAt]
  -- what still waits after the expiry
  have hwait : ∀ record : CommandRecord, (record.expire now).status = .queued ↔
      record.status = .queued ∧ record.isExpired now = false := by
    intro record
    rw [expire_status]
    cases hexp : record.isExpired now with
    | true =>
      by_cases hq : record.status = .queued
      · simp [hq, finished, finishedStatuses]
      · simp only [and_true, hq, false_and, iff_false]
        split
        · decide
        · exact hq
    | false => simp
  refine ⟨?_, ?_⟩
  · intro m' r' hm' hr'
    obtain ⟨m, hm, rfl⟩ := map_eq_some_iff.mp hm'
    obtain ⟨r, hr, rfl⟩ := map_eq_some_iff.mp hr'
    obtain ⟨hst, hat⟩ := h.inStep m r hm hr
    refine ⟨?_, ?_⟩
    · rw [expiredRecord_status, expire_status,
        expire_status, hdue m r hm hr, ← hst]
      unfold finished
      rw [hst]
    · rw [expire_attempts, hat]
      unfold expiredRecord
      split
      · rfl
      · rfl
  · constructor
    · rintro ⟨m', hm', hq, hlt⟩
      obtain ⟨m, hm, rfl⟩ := map_eq_some_iff.mp hm'
      rw [expire_attempts, (sameCommand_expire m now).maxAttempts] at hlt
      obtain ⟨hmq, hmd⟩ := (hwait m).mp hq
      obtain ⟨r, hr, hrq⟩ := h.waits.mp ⟨m, hm, hmq, hlt⟩
      refine ⟨expiredRecord true now r, by unfold Copies.expire; rw [hr]; rfl, ?_⟩
      rw [expiredRecord_status]
      exact (hwait r).mpr ⟨hrq, by rw [hdue m r hm hr, hmd]⟩
    · rintro ⟨r', hr', hq⟩
      obtain ⟨r, hr, rfl⟩ := map_eq_some_iff.mp hr'
      rw [expiredRecord_status] at hq
      obtain ⟨hrq, hrd⟩ := (hwait r).mp hq
      obtain ⟨m, hm, hmq, hlt⟩ := h.waits.mpr ⟨r, hr, hrq⟩
      refine ⟨m.expire now, by unfold Copies.expire; rw [hm]; rfl, ?_, ?_⟩
      · exact (hwait m).mpr ⟨hmq, by rw [← hdue m r hm hr, hrd]⟩
      · rw [expire_attempts, (sameCommand_expire m now).maxAttempts]
        exact hlt

theorem Matched.exhausted {old : CommandRecord} (hm : c.memory = some old)
    (hq : old.status = .queued) (hle : old.maxAttempts ≤ old.attempts) (now : Time)
    (error : String) : Matched ⟨some (old.finish .failed now error), c.row⟩ := by
  have hrow : c.row = none := by
    cases hr : c.row with
    | none => rfl
    | some r =>
      have hrq : r.status = .queued := (h.inStep old r hm hr).1.symm.trans hq
      obtain ⟨m, hm', -, hlt⟩ := h.waits.mpr ⟨r, hr, hrq⟩
      rw [hm] at hm'
      injection hm' with hm'
      rw [← hm'] at hlt
      omega
  rw [hrow]
  refine ⟨?_, iff_of_false ?_ ?_⟩
  · intro m r _ hr
    cases hr
  · rintro ⟨m, hm', hmq, -⟩
    injection hm' with hm'
    rw [← hm'] at hmq
    cases hmq
  · rintro ⟨r, hr, -⟩
    cases hr

theorem Matched.prune (olderThanSec : Int) (now : Time) :
    Matched (c.prune true olderThanSec now) := by
  refine ⟨?_, ?_⟩
  · intro m r hm hr
    exact h.inStep m r hm (filter_eq_some_iff.mp hr).1
  · refine h.waits.trans ⟨?_, ?_⟩
    · rintro ⟨r, hr, hq⟩
      refine ⟨r, filter_eq_some_iff.mpr ⟨hr, ?_⟩, hq⟩
      simp [SQLiteCommandStore.prunable, finished, hq, finishedStatuses]
    · rintro ⟨r, hr, hq⟩
      exact ⟨r, (filter_eq_some_iff.mp hr).1, hq⟩

theorem Matched.restart (hu : Uniform c) (includeDispatched : Bool) (now : Time) :
    Matched (c.restart includeDispatched now) := by
  refine ⟨?_, ?_⟩
  · intro m r hm hr
    have hm' := (filter_eq_some_iff.mp hm).1
    have heq : m = r := by
      rw [show c.row.map _ = some r from hr] at hm'
      injection hm' with hm'
      exact hm'.symm
    rw [heq]
    exact ⟨rfl, rfl⟩
  · constructor
    · rintro ⟨m, hm, hq, -⟩
      exact ⟨m, (filter_eq_some_iff.mp hm).1, hq⟩
    · rintro ⟨r', hr', hq'⟩
      obtain ⟨r, hr, rfl⟩ := map_eq_some_iff.mp hr'
      have hkeep : expiredRecord includeDispatched now r = r := by
        unfold expiredRecord at hq' ⊢
        split at hq'
        · cases hq'
        · rename_i hexp
          rw [if_neg hexp]
      have hnot : r.isExpired now = false := by
        rw [hkeep] at hq'
        cases hexp : r.isExpired now with
        | false => rfl
        | true =>
          have hst := congrArg status hkeep
          simp [expiredRecord, expirable, hq', hexp, updatedRecord] at hst
      rw [hkeep] at hq'
      obtain ⟨m, hm, -, hlt⟩ := h.waits.mpr ⟨r, hr, hq'⟩
      refine ⟨r, ?_, hq', ?_⟩
      · rw [restart_memory, hr, filter_some, if_pos (by simp [hq', hnot])]
      · rw [← (h.inStep m r hm hr).2, (hu m r (.inl hm) (.inr hr)).maxAttempts]
        exact hlt

end

end Matched

/-! ## Runs -/

namespace GatewayStateStore

/-- Memory and store agree on the commands they share, and a restart, whenever
it comes, recovers exactly the commands that the queue would still dispatch. -/
def MatchesStore (g : GatewayStateStore) : Prop :=
  (∀ id m r, (g.copies id).memory = some m → (g.copies id).row = some r →
    m.status = r.status ∧ m.attempts = r.attempts) ∧
  ∀ now id, ((g.restart now).commandQueue.records.get? id).map (·.command) =
    ((g.commandQueue.records.get? id).filter (·.dispatchable now)).map (·.command)

/-- The step is not an ack that memory and row treat differently: a `DISPATCHED`
ack of a command that no dispatch has counted, or a `QUEUED` ack of a command
that has a row but no attempts left in memory, or the other way round. -/
def KeepsInStep (g : GatewayStateStore) (s : Step) : Prop :=
  match s.call with
  | .ack commandId status _ _ =>
      (status = .dispatched → ∀ m r, (g.copies commandId).memory = some m →
        (g.copies commandId).row = some r → 1 ≤ m.attempts) ∧
      (status = .queued →
        ((∃ m, (g.copies commandId).memory = some m ∧ m.attempts < m.maxAttempts) ↔
          ∃ r, (g.copies commandId).row = some r))
  | _ => True

/-- What the agreement argument asks of a state. -/
structure Backed (g : GatewayStateStore) : Prop where
  wellFormed : g.WellFormed
  stored : g.stored = true
  uniform : ∀ id, Uniform (g.copies id)

theorem backed_empty (retention : Int) (expireStaleDispatched : Bool) :
    (empty (some retention) expireStaleDispatched).Backed := by
  refine ⟨wellFormed_fresh _ _, rfl, ?_⟩
  intro id
  rw [copies_empty]
  rintro a b (ha | ha) hb
  · cases ha
  · cases ha

variable {g : GatewayStateStore}

theorem Backed.next (hb : g.Backed) (digest : GatewayCommand → String) (s : Step) :
    ((machine digest).next g s).Backed := by
  refine ⟨hb.wellFormed.next digest s (.inl hb.stored), ?_, ?_⟩
  · rw [stored_next]
    exact hb.stored
  · intro id
    rcases derived_next hb.wellFormed digest s (.inl hb.stored) id with
      hd | ⟨command, options, now, -, -, -, -, hput⟩
    · exact (hb.uniform id).of_derived hd
    · rw [hput]
      exact uniform_put _ _ _

/-- In every run with a command store, restarts among its steps: the record in memory and the row
with an id are of one command, and they go on from those at any earlier time, the same command
with no fewer attempts, unless a command with that id was accepted since. -/
theorem commands_continue (digest : GatewayCommand → String) (retention : Int)
    (expireStaleDispatched : Bool) (past later : List Step) (id : String) :
    let before := (machine digest).run (empty (some retention) expireStaleDispatched) past
    Uniform (((machine digest).run before later).copies id) ∧
      (Derived (before.copies id) (((machine digest).run before later).copies id) ∨
        ∃ between step command options now, between ++ [step] <+: later ∧
          step.call = .enqueue command options now ∧ command.commandId = id ∧
          (((machine digest).run before between).enqueueCommand digest command options now
            step.wall).2.accepted = true) := by
  intro before
  have hruns : ∀ {g : GatewayStateStore}, g.Backed → ∀ steps, ((machine digest).run g steps).Backed :=
    fun hb => Machine.run_preserves (I := Backed) (fun _ s hg => hg.next digest s) hb
  have hbacked := hruns (backed_empty retention expireStaleDispatched) past
  refine ⟨(hruns hbacked later).uniform id, ?_⟩
  have hstep : ∀ g s, g.Backed ∧ Derived (before.copies id) (g.copies id) →
      (((machine digest).next g s).Backed ∧
        Derived (before.copies id) (((machine digest).next g s).copies id)) ∨
      ∃ command options now, s.call = .enqueue command options now ∧ command.commandId = id ∧
        (g.enqueueCommand digest command options now s.wall).2.accepted = true := by
    rintro g s ⟨hb, hd⟩
    rcases derived_next hb.wellFormed digest s (.inl hb.stored) id with
      hnext | ⟨command, options, now, hcall, hid, haccepted, -⟩
    · exact .inl ⟨hb.next digest s, hd.trans hnext⟩
    · exact .inr ⟨command, options, now, hcall, hid.symm, haccepted⟩
  rcases Machine.pending_or_settled hstep ⟨hbacked, fun record h => ⟨record, h, .rfl⟩⟩ later with
    h | ⟨between, step, hpre, -, command, options, now, haccepts⟩
  · exact .inl h.2
  · exact .inr ⟨between, step, command, options, now, hpre, haccepts⟩

theorem matchesStore_iff (hb : g.Backed) : MatchesStore g ↔ ∀ id, Matched (g.copies id) := by
  have hrec : ∀ id, (∀ now, ((g.restart now).commandQueue.records.get? id).map (·.command) =
      ((g.commandQueue.records.get? id).filter (·.dispatchable now)).map (·.command)) ↔
      (Live (g.copies id) ↔ RowQueued (g.copies id)) := by
    intro id
    rw [← recovers_iff (hb.uniform id) g.expireStaleDispatchedOnRecovery]
    refine forall_congr' fun now => ?_
    rw [← copies_restart hb.wellFormed hb.stored]
    exact Iff.rfl
  constructor
  · rintro ⟨hin, hrecovers⟩ id
    exact ⟨hin id, (hrec id).mp fun now => hrecovers now id⟩
  · intro h
    exact ⟨fun id => (h id).inStep, fun now id => (hrec id).mpr (h id).waits now⟩

theorem matched_next_iff (hb : g.Backed) (h : ∀ id, Matched (g.copies id))
    (digest : GatewayCommand → String) (s : Step) :
    (∀ id, Matched (((machine digest).next g s).copies id)) ↔ KeepsInStep g s := by
  have hwf := hb.wellFormed
  have hstored := hb.stored
  obtain ⟨call, wall⟩ := s
  cases call with
  | enqueue command options now =>
    refine iff_of_true ?_ trivial
    intro id
    show Matched ((g.enqueueCommand digest command options now wall).1.copies id)
    rcases copies_enqueue digest g command options now wall with
      ⟨-, hsame⟩ | ⟨-, -, -, -, hput⟩
    · rw [hsame]
      exact h id
    · rw [hput, hstored]
      split
      · exact matched_put_waiting rfl (create_maxAttempts_pos digest command _ _)
      · exact h id
  | dispatch limit now =>
    refine iff_of_true ?_ trivial
    intro id
    show Matched ((g.dispatchCommands limit now wall).1.copies id)
    obtain ⟨sent, -, -, hsent, hunsent⟩ := copies_dispatch hwf limit now wall
    have hexp := (h id).expire (hb.uniform id) (now.getD wall)
    by_cases hid : id ∈ sent.map (·.commandId)
    · obtain ⟨r, hr, rfl⟩ := List.mem_map.mp hid
      obtain ⟨-, old, -, -, -, hr', hput⟩ := hsent r hr
      rw [hput]
      exact matched_put (by rw [hr']; simp [dispatch]) _
    · rcases hunsent id hid with heq | ⟨old, hold, hq, hle, heq⟩
      · rw [heq]
        exact hexp
      · rw [heq]
        exact hexp.exhausted hold hq hle _ _
  | ack commandId status resultPayload error =>
    have hself := matched_ack_iff (h commandId) status resultPayload error wall
    have hget := copies_ack g commandId status resultPayload error wall
    constructor
    · intro hall
      have hthis := hall commandId
      rw [show ((machine digest).next g ⟨.ack commandId status resultPayload error,
        wall⟩).copies commandId = _ from hget commandId, if_pos rfl] at hthis
      exact hself.mp hthis
    · intro hok id
      show Matched ((g.ackCommand commandId status resultPayload error wall).1.copies id)
      rw [hget]
      split
      · exact hself.mpr hok
      · exact h id
  | fail commandId error retryable =>
    refine iff_of_true ?_ trivial
    intro id
    show Matched ((g.failCommand commandId error retryable wall).1.copies id)
    rw [copies_fail hwf, hstored]
    split
    · exact matched_fail _ error retryable wall
    · exact h id
  | cancel commandId =>
    refine iff_of_true ?_ trivial
    intro id
    show Matched ((g.cancelCommand commandId wall).1.copies id)
    rw [copies_cancel hwf]
    split
    · exact (h commandId).cancel _ wall
    · exact h id
  | expireOld now =>
    refine iff_of_true ?_ trivial
    intro id
    show Matched ((g.expireOldCommands now wall).1.copies id)
    have hexp := (h id).expire (hb.uniform id) (now.getD wall)
    rcases copies_expireOld hwf now wall id with heq | ⟨record, -, hst, heq⟩
    · rw [heq]
      exact hexp
    · rw [heq]
      exact matched_put (by rw [hst]; decide) _
  | prune olderThanSec =>
    refine iff_of_true ?_ trivial
    intro id
    show Matched ((g.pruneCommands olderThanSec wall).1.copies id)
    rw [copies_prune hwf, hstored]
    exact (h id).prune olderThanSec wall
  | restart =>
    refine iff_of_true ?_ trivial
    intro id
    show Matched ((g.restart wall).copies id)
    rw [copies_restart hwf hstored]
    exact (h id).restart (hb.uniform id) _ wall

/-- **Memory and store agree, exactly.** In a run from an empty store, restarts
and prunings included, memory and store match in every state if and only if
every ack of the run is one that both treat alike. -/
theorem matchesStore_iff_keptInStep (digest : GatewayCommand → String) (retention : Int)
    (expireStaleDispatched : Bool) (steps : List Step) :
    (machine digest).Always MatchesStore (empty (some retention) expireStaleDispatched) steps ↔
      (machine digest).Guarded KeepsInStep (empty (some retention) expireStaleDispatched)
        steps := by
  have hstart : MatchesStore (empty (some retention) expireStaleDispatched) := by
    rw [matchesStore_iff (backed_empty retention expireStaleDispatched)]
    intro id
    rw [copies_empty]
    refine ⟨?_, iff_of_false ?_ ?_⟩
    · intro m r hm
      cases hm
    · rintro ⟨m, hm, -⟩
      cases hm
    · rintro ⟨r, hr, -⟩
      cases hr
  refine Machine.always_iff_guarded (P := MatchesStore) (I := Backed) ?_ ?_
    (backed_empty retention expireStaleDispatched) hstart
  · intro g s hb _ _
    exact hb.next digest s
  · intro g s hb h
    rw [matchesStore_iff (hb.next digest s)]
    exact matched_next_iff hb ((matchesStore_iff hb).mp h) digest s

/-- A `DISPATCHED` ack reaches a command that was never dispatched. -/
def earlyStartRun : List Step :=
  [⟨.enqueue { type := "login", commandId := "L" } {} none, 0⟩, ⟨.ack "L" .dispatched none none, 1⟩]

/-- Memory counts no attempt of it, the row counts one. -/
theorem early_start_splits_attempts :
    ¬ ∀ (digest : GatewayCommand → String) (retention : Int) (steps : List Step),
      (machine digest).Always MatchesStore (empty (some retention)) steps := by
  intro h
  have hm : (((machine fun _ => "").run (empty (some 86400)) earlyStartRun).copies
      "L").memory.map (·.attempts) = some 0 := by decide
  have hr : (((machine fun _ => "").run (empty (some 86400)) earlyStartRun).copies
      "L").row.map (·.attempts) = some 1 := by decide
  obtain ⟨m, hgm, hma⟩ := map_eq_some_iff.mp hm
  obtain ⟨r, hgr, hra⟩ := map_eq_some_iff.mp hr
  have hlast := Machine.always_iff_prefix.mp (h (fun _ => "") 86400 earlyStartRun)
    earlyStartRun (List.prefix_refl _)
  have := (hlast.1 "L" m r hgm hgr).2
  omega

end GatewayStateStore

end TradingCore.Broker
