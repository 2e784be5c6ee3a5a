import TradingCore.Broker.StoreCopies

/-!
# Finished statuses

`ACKED`, `FAILED`, `REJECTED`, `EXPIRED` and `CANCELLED` are the finished states of a command.
Neither `ack` nor `fail` looks at the status it overwrites, and an enqueue takes an id whose record
was pruned.

* `Absorbing` — over a run: a finished command keeps its status in every later state, in memory and
  in its row, and no later dispatch hands it out;
* `RespectsFinished` — of a step in its past: the report on a finished command repeats the status it
  finished with, and no finished command is enqueued anew.

`absorbing_iff_respected` says that the second is exactly what the first takes.
-/

namespace TradingCore.Broker

open Base CommandRecord Copies List Option SQLiteCommandStore

def settledStatuses : List CommandStatus := [.acked, .failed, .rejected, .expired, .cancelled]

/-- Where a status is read. -/
inductive View
  | memory
  | row

/-- The status of a command in a view, `none` while it has no record there. -/
def View.status : View → Copies → Option CommandStatus
  | .memory, c => c.memory.map (·.status)
  | .row, c => c.row.map (·.status)

/-! ## One command -/

/-- How the two copies of a command agree: the expiry is the same and so is the
status, except that a failure for want of attempts is not written back. -/
def Agree (c : Copies) : Prop :=
  ∀ m r, c.memory = some m → c.row = some r → m.expiresAt = r.expiresAt ∧
    (m.status = r.status ∨
      m.status = .failed ∧ (r.status = .queued ∨ r.status = .expired ∨ r.status = .cancelled))

/-- The copies of a command of which `S` says how it finished in each view. -/
structure Settling (S : View → CommandStatus → Prop) (c : Copies) : Prop where
  agree : Agree c
  backed : ∀ r, c.row = some r → ∃ m, c.memory = some m
  kept : ∀ view status, S view status → ∀ later, view.status c = some later → later = status
  row_kept : ∀ status, S .row status →
    ∃ m, c.memory = some m ∧ (m.status = status ∨ m.status = .failed)

section Settling

variable {S : View → CommandStatus → Prop} {c : Copies}

theorem unfinished_not_settled {status : CommandStatus}
    (h : status = .queued ∨ status = .dispatched) : status ∉ settledStatuses := by
  rcases h with rfl | rfl
  · decide
  · decide

variable {record : CommandRecord}

theorem finished_of_settled (h : record.status ∈ settledStatuses) : record.finished = true := by
  cases hf : record.finished with
  | true => rfl
  | false => exact absurd h (unfinished_not_settled (finished_eq_false.mp hf))

theorem Settling.open_of_unfinished (h : Settling S c)
    (hS : ∀ view status, S view status → status ∈ settledStatuses) {m : CommandRecord}
    (hm : c.memory = some m) (hq : m.status = .queued ∨ m.status = .dispatched) :
    ∀ view status, ¬ S view status := by
  intro view status hs
  have hmem := hS view status hs
  have hopen := unfinished_not_settled hq
  cases view with
  | memory =>
    have heq := h.kept .memory status hs m.status (by simp [View.status, hm])
    exact hopen (heq ▸ hmem)
  | row =>
    obtain ⟨m', hm', hst⟩ := h.row_kept status hs
    rw [hm] at hm'
    injection hm' with hm'
    rw [← hm'] at hst
    rcases hst with hst | hst
    · exact hopen (hst ▸ hmem)
    · exact hopen (hst ▸ by decide)

theorem agree_put (stored : Bool) (c : Copies) (record : CommandRecord) :
    Agree (c.put stored record) := by
  intro m r hm hr
  injection hm with hm
  rw [← hm, row_put hr]
  exact ⟨rfl, .inl rfl⟩

theorem status_put {stored : Bool} {c : Copies} {view : View} {later : CommandStatus}
    (h : view.status (c.put stored record) = some later) : later = record.status := by
  cases view with
  | memory =>
    injection h with h
    exact h.symm
  | row =>
    obtain ⟨r, hr, hstatus⟩ := map_eq_some_iff.mp h
    rw [← hstatus, row_put hr]
    rfl

theorem settling_put (stored : Bool) (h : ∀ view status, S view status → record.status = status) :
    Settling S (c.put stored record) where
  agree := agree_put stored c record
  backed := fun _ _ => ⟨record, rfl⟩
  kept := by
    intro view status hs later hl
    exact (status_put hl).trans (h view status hs)
  row_kept := fun status hs => ⟨record, rfl, .inl (h .row status hs)⟩

section

variable (h : Settling S c)
include h

theorem Settling.ack (status : CommandStatus) (resultPayload : Option Mapping)
    (error : Option String) (now : Time)
    (hnow : ∀ view current, view.status c = some current → current ∈ settledStatuses →
      S view current) (hS : ∀ view status, S view status → status ∈ settledStatuses)
    (hok : ∀ view current, view.status c = some current → ∀ settled, S view settled →
      status = settled) :
    Settling S (c.ack status resultPayload error now) where
  agree := by
    intro m r hm hr
    obtain ⟨m₀, hm₀, rfl⟩ := map_eq_some_iff.mp hm
    obtain ⟨r₀, hr₀, rfl⟩ := map_eq_some_iff.mp hr
    refine ⟨?_, .inl ?_⟩
    · rw [(sameCommand_ack m₀ status resultPayload error now).expiresAt,
        (sameCommand_updatedRecord r₀ status resultPayload error now).expiresAt]
      exact (h.agree m₀ r₀ hm₀ hr₀).1
    · rw [ack_status]
      rfl
  backed := by
    intro r hr
    obtain ⟨r₀, hr₀, -⟩ := map_eq_some_iff.mp hr
    obtain ⟨m₀, hm₀⟩ := h.backed r₀ hr₀
    exact ⟨_, by unfold Copies.ack; rw [hm₀]; rfl⟩
  kept := by
    intro view settled hs later hl
    cases view with
    | memory =>
      obtain ⟨m, hm, rfl⟩ := map_eq_some_iff.mp hl
      obtain ⟨m₀, hm₀, rfl⟩ := map_eq_some_iff.mp hm
      rw [ack_status]
      exact hok .memory m₀.status (by simp [View.status, hm₀]) settled hs
    | row =>
      obtain ⟨r, hr, rfl⟩ := map_eq_some_iff.mp hl
      obtain ⟨r₀, hr₀, rfl⟩ := map_eq_some_iff.mp hr
      exact hok .row r₀.status (by simp [View.status, hr₀]) settled hs
  row_kept := by
    intro settled hs
    obtain ⟨m₀, hm₀, hst⟩ := h.row_kept settled hs
    refine ⟨m₀.ack status resultPayload error now, by unfold Copies.ack; rw [hm₀]; rfl, ?_⟩
    rw [ack_status]
    -- the record in memory is finished, so the report repeats its status
    have hview : View.memory.status c = some m₀.status := by simp [View.status, hm₀]
    rcases hst with hst | hst
    · have hmem := hnow .memory m₀.status hview (hst ▸ hS .row settled hs)
      exact .inl ((hok .memory _ hview _ hmem).trans hst)
    · have hmem := hnow .memory m₀.status hview (by rw [hst]; decide)
      exact .inr ((hok .memory _ hview _ hmem).trans hst)

theorem Settling.fail (stored : Bool) (error : String) (retryable : Bool) (now : Time)
    (hok : ∀ record, c.memory = some record → ∀ view settled, S view settled →
      settled = .failed ∧ record.requeues retryable now = false) :
    Settling S (c.fail stored error retryable now) := by
  unfold Copies.fail
  cases hm : c.memory with
  | some record =>
    refine settling_put stored ?_
    intro view settled hs
    obtain ⟨hfail, hreq⟩ := hok record hm view settled hs
    rw [fail_status, hreq, hfail]
    rfl
  | none =>
    -- without a record in memory there is no row either
    have hrow : c.row = none := by
      cases hr : c.row with
      | none => rfl
      | some r =>
        obtain ⟨m, hm'⟩ := h.backed r hr
        rw [hm] at hm'
        cases hm'
    have heq : Copies.mk none (c.row.map fun r =>
        updatedRecord r .failed none (some error) now) = c := by
      rw [hrow]
      exact Copies.ext hm.symm hrow.symm
    show Settling S (Copies.mk none _)
    rw [heq]
    exact h

theorem Settling.cancel (hS : ∀ view status, S view status → status ∈ settledStatuses)
    (stored : Bool) (now : Time) : Settling S (c.cancel stored now) := by
  by_cases hq : ∃ record, c.memory = some record ∧ record.status = .queued
  · obtain ⟨record, hm, hst⟩ := hq
    rw [cancel_of_queued hm hst]
    refine settling_put stored ?_
    intro view status hs
    exact absurd hs (h.open_of_unfinished hS hm (.inl hst) view status)
  · have hnot : ∀ record, c.memory = some record → record.status ≠ .queued :=
      fun record hm hst => hq ⟨record, hm, hst⟩
    rw [cancel_of_not_queued hnot]
    refine ⟨?_, ?_, ?_, h.row_kept⟩
    · intro m r hm hr
      obtain ⟨r₀, hr₀, rfl⟩ := map_eq_some_iff.mp hr
      obtain ⟨hexp, hst⟩ := h.agree m r₀ hm hr₀
      split
      · rename_i hrq
        refine ⟨hexp, .inr ?_⟩
        rcases hst with hst | ⟨hst, -⟩
        · exact absurd (hst.trans hrq) (hnot m hm)
        · exact ⟨hst, .inr (.inr rfl)⟩
      · exact ⟨hexp, hst⟩
    · intro r hr
      obtain ⟨r₀, hr₀, -⟩ := map_eq_some_iff.mp hr
      exact h.backed r₀ hr₀
    · intro view status hs later hl
      cases view with
      | memory => exact h.kept .memory status hs later hl
      | row =>
        obtain ⟨r, hr, rfl⟩ := map_eq_some_iff.mp hl
        obtain ⟨r₀, hr₀, rfl⟩ := map_eq_some_iff.mp hr
        have hold := h.kept .row status hs r₀.status (by simp [View.status, hr₀])
        split
        · rename_i hrq
          exact absurd (hold ▸ hS .row status hs) (unfinished_not_settled (.inl hrq))
        · exact hold

theorem Settling.expire (hS : ∀ view status, S view status → status ∈ settledStatuses)
    (now : Time) : Settling S (c.expire now) := by
  -- a record with a finished status is left alone
  have hstay : ∀ record : CommandRecord, record.status ∈ settledStatuses →
      (record.expire now).status = record.status := by
    intro record hst
    rw [expire_of_not_due (.inl (finished_of_settled hst))]
  refine ⟨?_, ?_, ?_, ?_⟩
  · intro m r hm hr
    obtain ⟨m₀, hm₀, rfl⟩ := map_eq_some_iff.mp hm
    obtain ⟨r₀, hr₀, rfl⟩ := map_eq_some_iff.mp hr
    obtain ⟨hexp, hst⟩ := h.agree m₀ r₀ hm₀ hr₀
    refine ⟨?_, ?_⟩
    · rw [(sameCommand_expire m₀ now).expiresAt,
        (sameCommand_expiredRecord true now r₀).expiresAt, hexp]
    · rw [expiredRecord_status]
      have hdue : m₀.isExpired now = r₀.isExpired now := by
        unfold isExpired
        rw [hexp]
      rcases hst with hst | ⟨hst, hrow⟩
      · refine .inl ?_
        rw [expire_status, expire_status, hdue, hst]
        unfold finished
        rw [hst]
      · refine .inr ⟨(hstay m₀ (hst ▸ by decide)).trans hst, ?_⟩
        rw [expire_status]
        split
        · exact .inr (.inl rfl)
        · exact hrow
  · intro r hr
    obtain ⟨r₀, hr₀, -⟩ := map_eq_some_iff.mp hr
    obtain ⟨m₀, hm₀⟩ := h.backed r₀ hr₀
    exact ⟨_, by unfold Copies.expire; rw [hm₀]; rfl⟩
  · intro view status hs later hl
    have hold := h.kept view status hs
    cases view with
    | memory =>
      obtain ⟨m, hm, rfl⟩ := map_eq_some_iff.mp hl
      obtain ⟨m₀, hm₀, rfl⟩ := map_eq_some_iff.mp hm
      have heq := hold m₀.status (by simp [View.status, hm₀])
      exact (hstay m₀ (heq ▸ hS .memory status hs)).trans heq
    | row =>
      obtain ⟨r, hr, rfl⟩ := map_eq_some_iff.mp hl
      obtain ⟨r₀, hr₀, rfl⟩ := map_eq_some_iff.mp hr
      have heq := hold r₀.status (by simp [View.status, hr₀])
      rw [expiredRecord_status]
      exact (hstay r₀ (heq ▸ hS .row status hs)).trans heq
  · intro status hs
    obtain ⟨m₀, hm₀, hst⟩ := h.row_kept status hs
    refine ⟨m₀.expire now, by unfold Copies.expire; rw [hm₀]; rfl, ?_⟩
    rcases hst with hst | hst
    · exact .inl ((hstay m₀ (hst ▸ hS .row status hs)).trans hst)
    · exact .inr ((hstay m₀ (hst ▸ by decide)).trans hst)

theorem Settling.put_expired (hm : c.memory = some record) (hst : record.status = .expired)
    (stored : Bool) : Settling S (c.put stored record) := by
  refine settling_put stored ?_
  intro view status hs
  cases view with
  | memory => exact h.kept .memory status hs record.status (by simp [View.status, hm])
  | row =>
    obtain ⟨m, hm', hst'⟩ := h.row_kept status hs
    rw [hm] at hm'
    injection hm' with hm'
    rw [← hm', hst] at hst'
    rcases hst' with hst' | hst'
    · exact hst.trans hst'
    · cases hst'

theorem Settling.exhausted (hS : ∀ view status, S view status → status ∈ settledStatuses)
    {old : CommandRecord} (hm : c.memory = some old) (hq : old.status = .queued) (now : Time)
    (error : String) : Settling S ⟨some (old.finish .failed now error), c.row⟩ := by
  have hopen := h.open_of_unfinished hS hm (.inl hq)
  refine ⟨?_, fun _ _ => ⟨_, rfl⟩, ?_, ?_⟩
  · intro m r hm' hr
    injection hm' with hm'
    obtain ⟨hexp, hst⟩ := h.agree old r hm hr
    rw [← hm']
    refine ⟨hexp, .inr ⟨rfl, .inl ?_⟩⟩
    rcases hst with hst | ⟨hst, -⟩
    · exact hst.symm.trans hq
    · rw [hq] at hst
      cases hst
  · intro view status hs
    exact absurd hs (hopen view status)
  · intro status hs
    exact absurd hs (hopen .row status)

theorem Settling.prune (stored : Bool)
    (hrow : stored = false → c.row = none ∧ ∀ status, ¬ S .row status) (olderThanSec : Int)
    (now : Time) : Settling S (c.prune stored olderThanSec now) := by
  have hstatus : ∀ (view : View) later, view.status (c.prune stored olderThanSec now) = some later →
      view.status c = some later := by
    intro view later hl
    unfold Copies.prune at hl
    cases hst : stored with
    | true =>
      rw [hst, if_pos rfl] at hl
      cases view with
      | memory => exact hl
      | row =>
        obtain ⟨r, hr, hrs⟩ := map_eq_some_iff.mp hl
        exact map_eq_some_iff.mpr ⟨r, (filter_eq_some_iff.mp hr).1, hrs⟩
    | false =>
      rw [hst, if_neg (by decide)] at hl
      cases view with
      | memory =>
        obtain ⟨m, hm, hms⟩ := map_eq_some_iff.mp hl
        exact map_eq_some_iff.mpr ⟨m, (filter_eq_some_iff.mp hm).1, hms⟩
      | row => exact hl
  have hkept : ∀ (view : View) status, S view status → ∀ later,
      view.status (c.prune stored olderThanSec now) = some later → later = status :=
    fun view status hs later hl => h.kept view status hs later (hstatus view later hl)
  cases hst : stored with
  | true =>
    rw [hst] at hkept
    refine ⟨?_, ?_, hkept, h.row_kept⟩
    · intro m r hm hr
      exact h.agree m r hm (filter_eq_some_iff.mp hr).1
    · intro r hr
      exact h.backed r (filter_eq_some_iff.mp hr).1
  | false =>
    rw [hst] at hkept
    obtain ⟨hnone, hopen⟩ := hrow hst
    refine ⟨?_, ?_, hkept, fun status hs => absurd hs (hopen status)⟩
    · intro m r _ hr
      rw [show (c.prune false olderThanSec now).row = none from hnone] at hr
      cases hr
    · intro r hr
      rw [show (c.prune false olderThanSec now).row = none from hnone] at hr
      cases hr

theorem Settling.extend :
    Settling (fun view status => S view status ∨
      status ∈ settledStatuses ∧ view.status c = some status) c := by
  refine ⟨h.agree, h.backed, ?_, ?_⟩
  · rintro view status (hs | ⟨-, hv⟩) later hl
    · exact h.kept view status hs later hl
    · rw [hv] at hl
      injection hl with hl
      exact hl.symm
  · rintro status (hs | ⟨-, hv⟩)
    · exact h.row_kept status hs
    · obtain ⟨r, hr, hst⟩ := map_eq_some_iff.mp hv
      obtain ⟨m, hm⟩ := h.backed r hr
      refine ⟨m, hm, ?_⟩
      rcases (h.agree m r hm hr).2 with heq | ⟨heq, -⟩
      · exact .inl (heq.trans hst)
      · exact .inr heq

end

end Settling

namespace GatewayStateStore

variable (digest : GatewayCommand → String) (retention : Option Int)

def after (past : List Step) : GatewayStateStore :=
  (machine digest).run (empty retention) past

/-- The command had this finished status in the view at some point of the run. -/
def SettledIn (past : List Step) (id : String) (view : View) (status : CommandStatus) : Prop :=
  status ∈ settledStatuses ∧ ∃ earlier, earlier <+: past ∧
    view.status ((after digest retention earlier).copies id) = some status

/-- Finished commands stay as they are and are not handed out again. -/
def Absorbing (steps : List Step) : Prop :=
  ∀ past, past <+: steps → ∀ id view status, SettledIn digest retention past id view status →
    (∀ later, view.status ((after digest retention past).copies id) = some later → later = status) ∧
    ∀ s commands, past ++ [s] <+: steps →
      (machine digest).out (after digest retention past) s = .commands commands →
      ∀ command ∈ commands, command.commandId ≠ id

/-- The step leaves the commands that finished in its past alone. -/
def RespectsFinished (past : List Step) (s : Step) : Prop :=
  let g := after digest retention past
  match s.call with
  | .ack commandId status _ _ =>
      ∀ view current, view.status (g.copies commandId) = some current →
        ∀ settled, SettledIn digest retention past commandId view settled → status = settled
  | .fail commandId _ retryable =>
      ∀ record, (g.copies commandId).memory = some record →
        ∀ view settled, SettledIn digest retention past commandId view settled →
          settled = .failed ∧ record.requeues retryable s.wall = false
  | .enqueue command _ _ =>
      Admits digest g command s.wall →
        ∀ view settled, ¬ SettledIn digest retention past command.commandId view settled
  | _ => True

variable {digest} {retention}

theorem after_concat (past : List Step) (s : Step) :
    after digest retention (past ++ [s]) = (machine digest).next (after digest retention past) s :=
  Machine.run_concat _ _ _ _

theorem stored_after (past : List Step) :
    (after digest retention past).stored = retention.isSome := by
  have h := Machine.run_preserves (m := machine digest)
    (I := fun g => g.stored = retention.isSome) (fun g s hg => (stored_next digest g s).trans hg)
    (s := empty retention) (by cases retention <;> rfl)
  exact h past

/-! ## Runs -/

theorem settledIn_concat {past : List Step} {s : Step} {id : String} {view : View}
    {status : CommandStatus} :
    SettledIn digest retention (past ++ [s]) id view status ↔
      SettledIn digest retention past id view status ∨
      status ∈ settledStatuses ∧
        view.status ((after digest retention (past ++ [s])).copies id) = some status := by
  constructor
  · rintro ⟨hst, earlier, hpre, hv⟩
    rcases prefix_concat_iff.mp hpre with rfl | hpre
    · exact .inr ⟨hst, hv⟩
    · exact .inl ⟨hst, earlier, hpre, hv⟩
  · rintro (⟨hst, earlier, hpre, hv⟩ | ⟨hst, hv⟩)
    · exact ⟨hst, earlier, hpre.trans (prefix_append _ _), hv⟩
    · exact ⟨hst, _, prefix_refl _, hv⟩

theorem not_settledIn_row {past : List Step} {id : String} {status : CommandStatus}
    (h : retention = none) : ¬ SettledIn digest retention past id .row status := by
  rintro ⟨-, earlier, -, hv⟩
  have hs : (after digest retention earlier).stored = false := by
    rw [stored_after, h]
    rfl
  rw [View.status, row_of_not_stored hs] at hv
  cases hv

/-- What a run has established: the shape of the state, and how each command
settled. -/
structure Settled (digest : GatewayCommand → String) (retention : Option Int)
    (past : List Step) : Prop where
  wellFormed : (after digest retention past).WellFormed
  settling : ∀ id, Settling (fun view status => SettledIn digest retention past id view status)
    ((after digest retention past).copies id)

theorem settled_nil : Settled digest retention [] := by
  refine ⟨wellFormed_fresh retention true, ?_⟩
  intro id
  have hnone : (after digest retention []).copies id = ⟨none, none⟩ := copies_empty retention true id
  rw [hnone]
  have hopen : ∀ view status, ¬ SettledIn digest retention [] id view status := by
    rintro view status ⟨-, earlier, hpre, hv⟩
    rw [prefix_nil.mp hpre, hnone] at hv
    cases view <;> cases hv
  refine ⟨?_, ?_, ?_, ?_⟩
  · intro m r hm
    cases hm
  · intro r hr
    cases hr
  · intro view status hs
    exact absurd hs (hopen view status)
  · intro status hs
    exact absurd hs (hopen .row status)

section Step

variable {past : List Step}

section

variable (h : Settled digest retention past)
include h

theorem settling_next {s : Step} (hr : s.call ≠ .restart)
    (hok : RespectsFinished digest retention past s) (id : String) :
    Settling (fun view status => SettledIn digest retention past id view status)
      (((machine digest).next (after digest retention past) s).copies id) := by
  have hwf := h.wellFormed
  have hset := h.settling id
  have hS : ∀ view status, SettledIn digest retention past id view status →
      status ∈ settledStatuses := fun _ _ hs => hs.1
  have hnow : ∀ (view : View) current,
      view.status ((after digest retention past).copies id) = some current →
      current ∈ settledStatuses → SettledIn digest retention past id view current :=
    fun _ _ hv hst => ⟨hst, past, prefix_refl _, hv⟩
  obtain ⟨call, wall⟩ := s
  cases call with
  | enqueue command options now =>
    show Settling _ (((after digest retention past).enqueueCommand digest command options now
      wall).1.copies id)
    rcases copies_enqueue digest (after digest retention past) command options now wall with
      ⟨-, hsame⟩ | ⟨hacc, -, -, -, hput⟩
    · rw [hsame]
      exact hset
    · rw [hput]
      split
      · rename_i hid
        have hopen := hok ((accepted_iff digest _ command options now wall).mp hacc)
        refine settling_put _ ?_
        intro view status hs
        exact absurd (hid ▸ hs) (hopen view status)
      · exact hset
  | dispatch limit now =>
    show Settling _ (((after digest retention past).dispatchCommands limit now wall).1.copies id)
    obtain ⟨sent, -, -, hsent, hunsent⟩ := copies_dispatch hwf limit now wall
    have hexp := hset.expire hS (now.getD wall)
    by_cases hid : id ∈ sent.map (·.commandId)
    · obtain ⟨r, hr, rfl⟩ := mem_map.mp hid
      obtain ⟨-, old, hold, hq, -, -, hput⟩ := hsent r hr
      rw [hput]
      refine settling_put _ ?_
      intro view status hs
      exact absurd hs (hexp.open_of_unfinished hS hold (.inl hq) view status)
    · rcases hunsent id hid with heq | ⟨old, hold, hq, -, heq⟩
      · rw [heq]
        exact hexp
      · rw [heq]
        exact hexp.exhausted hS hold hq _ _
  | ack commandId status resultPayload error =>
    show Settling _ (((after digest retention past).ackCommand commandId status resultPayload
      error wall).1.copies id)
    rw [copies_ack]
    split
    · rename_i hid
      rw [← hid]
      exact hset.ack status resultPayload error wall hnow hS
        (fun view current hv settled hs => hok view current (hid ▸ hv) settled (hid ▸ hs))
    · exact hset
  | fail commandId error retryable =>
    show Settling _ (((after digest retention past).failCommand commandId error retryable
      wall).1.copies id)
    rw [copies_fail hwf]
    split
    · rename_i hid
      rw [← hid]
      exact hset.fail _ error retryable wall
        (fun record hm view settled hs => hok record (hid ▸ hm) view settled (hid ▸ hs))
    · exact hset
  | cancel commandId =>
    show Settling _ (((after digest retention past).cancelCommand commandId wall).1.copies id)
    rw [copies_cancel hwf]
    split
    · rename_i hid
      rw [← hid]
      exact hset.cancel hS _ wall
    · exact hset
  | expireOld now =>
    show Settling _ (((after digest retention past).expireOldCommands now wall).1.copies id)
    have hexp := hset.expire hS (now.getD wall)
    rcases copies_expireOld hwf now wall id with heq | ⟨record, hm, hst, heq⟩
    · rw [heq]
      exact hexp
    · rw [heq]
      exact hexp.put_expired hm hst _
  | prune olderThanSec =>
    show Settling _ (((after digest retention past).pruneCommands olderThanSec wall).1.copies id)
    rw [copies_prune hwf]
    refine hset.prune _ ?_ olderThanSec wall
    intro hns
    refine ⟨row_of_not_stored hns id, fun status => not_settledIn_row ?_⟩
    rw [stored_after] at hns
    exact not_isSome_iff_eq_none.mp (by simp [hns])
  | restart => exact absurd rfl hr

theorem Settled.next {s : Step} (hr : s.call ≠ .restart)
    (hok : RespectsFinished digest retention past s) : Settled digest retention (past ++ [s]) := by
  refine ⟨?_, ?_⟩
  · rw [after_concat]
    exact h.wellFormed.next digest s (.inr hr)
  · intro id
    have hnext := (settling_next h hr hok id).extend
    rw [← after_concat] at hnext
    have heq : (fun view status => SettledIn digest retention (past ++ [s]) id view status) =
        fun view status => SettledIn digest retention past id view status ∨
          status ∈ settledStatuses ∧
            view.status ((after digest retention (past ++ [s])).copies id) = some status := by
      funext view status
      exact propext settledIn_concat
    rw [heq]
    exact hnext

theorem Settled.not_dispatched {s : Step} {commands : List GatewayCommand}
    (hout : (machine digest).out (after digest retention past) s = .commands commands) {id : String}
    {view : View} {status : CommandStatus} (hs : SettledIn digest retention past id view status) :
    ∀ command ∈ commands, command.commandId ≠ id := by
  obtain ⟨call, wall⟩ := s
  cases call with
  | dispatch limit now =>
    have hout' : ((after digest retention past).dispatchCommands limit now wall).2 = commands :=
      Answer.commands.inj hout
    obtain ⟨sent, hcmd, -, hsent, -⟩ := copies_dispatch h.wellFormed limit now wall
    rw [hcmd] at hout'
    intro command hmem hid
    rw [← hout'] at hmem
    obtain ⟨r, hr, rfl⟩ := mem_map.mp hmem
    obtain ⟨hrid, old, hold, hq, -⟩ := hsent r hr
    rw [hrid] at hid
    rw [hid] at hold
    have hS : ∀ view status, SettledIn digest retention past id view status →
        status ∈ settledStatuses := fun _ _ hs => hs.1
    exact ((h.settling id).expire hS (now.getD wall)).open_of_unfinished hS hold (.inl hq)
      view status hs
  | enqueue command options now => cases hout
  | ack commandId status resultPayload error => cases hout
  | fail commandId error retryable => cases hout
  | cancel commandId => cases hout
  | expireOld now => cases hout
  | prune olderThanSec => cases hout
  | restart => cases hout

end

theorem respectsFinished_of_kept (hwf : (after digest retention past).WellFormed) {s : Step}
    (hkept : ∀ id view status, SettledIn digest retention past id view status →
      ∀ later, view.status ((after digest retention (past ++ [s])).copies id) = some later →
        later = status) :
    RespectsFinished digest retention past s := by
  simp only [after_concat] at hkept
  have hrowStored : ∀ {id status}, SettledIn digest retention past id .row status →
      (after digest retention past).stored = true := by
    intro id status hs
    rw [stored_after]
    cases hret : retention with
    | none => exact absurd hs (not_settledIn_row hret)
    | some sec => rfl
  obtain ⟨call, wall⟩ := s
  cases call with
  | enqueue command options now =>
    intro hadm view status hs
    have hacc := (accepted_iff digest _ command options now wall).mpr hadm
    rcases copies_enqueue digest (after digest retention past) command options now wall with
      ⟨hrej, -⟩ | ⟨-, -, -, -, hput⟩
    · rw [hacc] at hrej
      cases hrej
    · have hself := hput command.commandId
      rw [if_pos rfl] at hself
      have hq : view.status (((machine digest).next (after digest retention past)
          ⟨.enqueue command options now, wall⟩).copies command.commandId) = some .queued := by
        show view.status (((after digest retention past).enqueueCommand digest command options
          now wall).1.copies command.commandId) = some .queued
        rw [hself]
        cases view with
        | memory => rfl
        | row =>
          unfold View.status put write
          rw [hrowStored hs]
          rfl
      have heq := hkept command.commandId view status hs .queued hq
      exact unfinished_not_settled (.inl rfl) (heq ▸ hs.1)
  | ack commandId status resultPayload error =>
    intro view current hv settled hs
    refine hkept commandId view settled hs status ?_
    show view.status (((after digest retention past).ackCommand commandId status resultPayload
      error wall).1.copies commandId) = some status
    rw [copies_ack, if_pos rfl]
    cases view with
    | memory =>
      obtain ⟨m, hm, -⟩ := map_eq_some_iff.mp hv
      simp [View.status, Copies.ack, hm]
    | row =>
      obtain ⟨r, hr, -⟩ := map_eq_some_iff.mp hv
      simp [View.status, Copies.ack, hr, updatedRecord]
  | fail commandId error retryable =>
    intro record hm view settled hs
    have hlater : view.status (((machine digest).next (after digest retention past)
        ⟨.fail commandId error retryable, wall⟩).copies commandId) =
        some (record.fail error retryable wall).status := by
      show view.status (((after digest retention past).failCommand commandId error retryable
        wall).1.copies commandId) = _
      rw [copies_fail hwf, if_pos rfl]
      unfold Copies.fail
      rw [hm]
      cases view with
      | memory => rfl
      | row =>
        unfold View.status
        simp only [put, write]
        rw [hrowStored hs]
        rfl
    have heq := hkept commandId view settled hs _ hlater
    rw [fail_status] at heq
    cases hreq : record.requeues retryable wall with
    | true =>
      rw [hreq, if_pos rfl] at heq
      exact absurd (heq ▸ hs.1) (unfinished_not_settled (.inl rfl))
    | false =>
      rw [hreq, if_neg (by decide)] at heq
      exact ⟨heq.symm, rfl⟩
  | dispatch limit now => trivial
  | cancel commandId => trivial
  | expireOld now => trivial
  | prune olderThanSec => trivial
  | restart => trivial

end Step

theorem wellFormed_after {steps : List Step} (hr : ∀ s ∈ steps, s.call ≠ .restart) :
    ∀ past, past <+: steps → (after digest retention past).WellFormed := by
  refine prefix_induction (wellFormed_fresh retention true) ?_
  intro past s hpre hwf
  rw [after_concat]
  refine hwf.next digest s (.inr (hr s ?_))
  exact hpre.subset (mem_append_right past mem_cons_self)

/-- **Finished statuses are absorbing, exactly.** In a run without a restart,
from the empty state, with a store or without one: finished commands keep their
status and are not handed out again if and only if every report and enqueue of
the run respects the commands that have finished. -/
theorem absorbing_iff_respected (digest : GatewayCommand → String) (retention : Option Int)
    (steps : List Step) (hr : ∀ s ∈ steps, s.call ≠ .restart) :
    Absorbing digest retention steps ↔
      ∀ past s, past ++ [s] <+: steps → RespectsFinished digest retention past s := by
  constructor
  · intro habs past s hpre
    have hpast : past <+: steps := (prefix_append past [s]).trans hpre
    refine respectsFinished_of_kept (wellFormed_after hr past hpast) ?_
    intro id view status hs
    exact (habs (past ++ [s]) hpre id view status (settledIn_concat.mpr (.inl hs))).1
  · intro hok
    have hsettled : ∀ past, past <+: steps → Settled digest retention past := by
      refine prefix_induction settled_nil ?_
      intro past s hpre h
      refine h.next (hr s ?_) (hok past s hpre)
      exact hpre.subset (mem_append_right past mem_cons_self)
    intro past hpast id view status hs
    have h := hsettled past hpast
    refine ⟨(h.settling id).kept view status hs, ?_⟩
    intro s commands hpre hout
    exact h.not_dispatched hout hs

/-- A login is acknowledged; a failure report on it, still retryable, comes in
after that, and Core dispatches again. -/
def lateFailureRun : List Step :=
  [⟨.enqueue { type := "login", commandId := "L" } {} none, 0⟩,
   ⟨.dispatch 20 none, 1⟩,
   ⟨.ack "L" .acked none none, 2⟩,
   ⟨.fail "L" "late failure" true, 3⟩,
   ⟨.dispatch 20 none, 4⟩]

theorem absorbing_iff_respected_lateFailure :
    Absorbing (fun _ => "") (some 86400) lateFailureRun ↔
      ∀ past s, past ++ [s] <+: lateFailureRun →
        RespectsFinished (fun _ => "") (some 86400) past s :=
  absorbing_iff_respected _ _ lateFailureRun (by simp [lateFailureRun])

/-- The acknowledged login is handed out a second time. -/
theorem late_failure_revives :
    ¬ ∀ (digest : GatewayCommand → String) (retention : Option Int) (steps : List Step),
      (∀ s ∈ steps, s.call ≠ .restart) → Absorbing digest retention steps := by
  intro h
  have habs := h (fun _ => "") (some 86400) lateFailureRun (by simp [lateFailureRun])
  have hacked : SettledIn (fun _ => "") (some 86400) (lateFailureRun.take 4) "L" .memory .acked :=
    ⟨by decide, lateFailureRun.take 3, ⟨lateFailureRun.drop 3 |>.take 1, rfl⟩, by decide⟩
  have hagain := (habs (lateFailureRun.take 4) ( take_prefix 4 _) "L" .memory .acked hacked).2
    ⟨.dispatch 20 none, 4⟩ [{ type := "login", commandId := "L" }] ⟨[], rfl⟩ (by decide)
  exact hagain _ mem_cons_self rfl

end GatewayStateStore

end TradingCore.Broker
