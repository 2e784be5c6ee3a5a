import TradingCore.Broker.DispatchOnce

/-!
# The newest command under a dedupe key

Every write of a command record files the ledger entry of its dedupe key anew, so the entry belongs
to whichever command was written last. That should be the one accepted last.

* `LedgerNamesNewest` — in every state of a run the ledger names, under each key, the command
  accepted last, and no step that leaves this command alone brings its expiry forward;
* `WritesNewestLast` — of a step in its past: the record it writes back last under a key is that of
  the command accepted last.

`expire_old_commands` writes back the expired records of the queue from the newest to the oldest,
so an old record that is still in the queue comes last.
-/

namespace TradingCore.Broker

open Base List

namespace GatewayStateStore

/-! ## Runs -/

section Runs

variable (digest : GatewayCommand → String) (retention : Int) (expireStaleDispatched : Bool)

/-- The id of the command that a step and its answer accept under a key. -/
def acceptedUnder (key : String) : Step × Answer → Option String
  | (⟨.enqueue command _ _, _⟩, .enqueued result) =>
      if result.accepted = true ∧ dedupeKeyForCommand digest command = key then
        some command.commandId
      else none
  | _ => none

/-- The commands that a run accepts under a key, the newest one last. -/
def acceptedIds (past : List Step) (key : String) : List String :=
  (past.zip ((machine digest).outputs (empty (some retention) expireStaleDispatched)
    past)).filterMap (acceptedUnder digest key)

/-- The command that a run has accepted last under a key. -/
def newestAccepted (past : List Step) (key : String) : Option String :=
  (acceptedIds digest retention expireStaleDispatched past key).getLast?

/-- The ledger names, under each key, the command accepted last. -/
def NamesNewest (past : List Step) : Prop :=
  ∀ key, ((ran digest retention expireStaleDispatched past).ledger key).map (·.1) =
    newestAccepted digest retention expireStaleDispatched past key

/-- While the newest command of a key has its key retained, a step that neither
writes it back nor accepts a newer one does not shorten the retention. -/
def KeepsRetention (past : List Step) (s : Step) : Prop :=
  ∀ key id type t,
    (ran digest retention expireStaleDispatched past).ledger key = some (id, type, some t) →
    newestAccepted digest retention expireStaleDispatched past key = some id → s.wall < t →
    (∀ record ∈ (ran digest retention expireStaleDispatched past).writtenBack s,
      record.dedupeKey = key → record.commandId ≠ id) →
    acceptedUnder digest key
      (s, (machine digest).out (ran digest retention expireStaleDispatched past) s) = none →
    ∃ owner type' t', (ran digest retention expireStaleDispatched (past ++ [s])).ledger key =
      some (owner, type', some t') ∧ t ≤ t'

/-- The ledger always points at the newest accepted command. -/
def LedgerNamesNewest (steps : List Step) : Prop :=
  (∀ past, past <+: steps → NamesNewest digest retention expireStaleDispatched past) ∧
  ∀ past s, past ++ [s] <+: steps → KeepsRetention digest retention expireStaleDispatched past s

/-- The record that the step writes back last under a key is that of the command
accepted last. -/
def WritesNewestLast (past : List Step) (s : Step) : Prop :=
  ∀ key record,
    (ran digest retention expireStaleDispatched past).lastWritten s key = some record →
    newestAccepted digest retention expireStaleDispatched past key = some record.commandId

variable {digest} {retention} {expireStaleDispatched}

theorem newestAccepted_concat (past : List Step) (s : Step) (key : String) :
    newestAccepted digest retention expireStaleDispatched (past ++ [s]) key =
      (acceptedUnder digest key
        (s, (machine digest).out (ran digest retention expireStaleDispatched past) s)).or
      (newestAccepted digest retention expireStaleDispatched past key) := by
  unfold newestAccepted acceptedIds
  rw [Machine.zip_outputs_concat, filterMap_append, getLast?_append]
  congr 1
  show (filterMap (acceptedUnder digest key) [(s, (machine digest).out
    (ran digest retention expireStaleDispatched past) s)]).getLast? = _
  rw [filterMap_cons]
  cases acceptedUnder digest key
    (s, (machine digest).out (ran digest retention expireStaleDispatched past) s) with
  | none => rfl
  | some id => rfl

variable {s : Step} {past : List Step}

theorem acceptedUnder_none (key : String) (answer : Answer)
    (henq : ∀ command options now, s.call ≠ .enqueue command options now) :
    acceptedUnder digest key (s, answer) = none := by
  unfold acceptedUnder
  split
  · rename_i heq
    injection heq with hs
    exact absurd (congrArg Step.call hs) (henq _ _ _)
  · rfl

theorem acceptedUnder_enqueue (g : GatewayStateStore) (command : GatewayCommand)
    (options : EnqueueOptions) (now : Option Time) (wall : Time) (key : String) :
    acceptedUnder digest key (⟨.enqueue command options now, wall⟩,
        (machine digest).out g ⟨.enqueue command options now, wall⟩) =
      if (g.enqueueCommand digest command options now wall).2.accepted = true ∧
          dedupeKeyForCommand digest command = key then
        some command.commandId
      else none := rfl

/-! ### One step -/

theorem ledger_ran_enqueue (past : List Step) {command : GatewayCommand} {options : EnqueueOptions}
    {now : Option Time} (hcall : s.call = .enqueue command options now) (key : String) :
    (ran digest retention expireStaleDispatched (past ++ [s])).ledger key =
      if acceptedUnder digest key
          (s, (machine digest).out (ran digest retention expireStaleDispatched past) s) =
            some command.commandId then
        some (SQLiteCommandStore.ledgerEntry (created digest command options now s.wall)
          retention s.wall)
      else (ran digest retention expireStaleDispatched past).ledger key := by
  obtain ⟨call, wall⟩ := s
  obtain rfl : call = .enqueue command options now := hcall
  rw [ran_concat]
  have hled := (ledger_enqueueCommand (retaining_ran digest retention expireStaleDispatched past)
    digest command options now wall).2 key
  refine hled.trans ?_
  rw [acceptedUnder_enqueue]
  split
  · rw [if_pos rfl]
  · rw [if_neg nofun]

theorem ledger_ran_writtenBack (past : List Step)
    (henq : ∀ command options now, s.call ≠ .enqueue command options now)
    (hprune : ∀ olderThanSec, s.call ≠ .prune olderThanSec) (key : String) :
    (ran digest retention expireStaleDispatched (past ++ [s])).ledger key =
      match (ran digest retention expireStaleDispatched past).lastWritten s key with
      | some record => some (SQLiteCommandStore.ledgerEntry record retention s.wall)
      | none => (ran digest retention expireStaleDispatched past).ledger key := by
  rw [ran_concat]
  exact (writesBack_next (retaining_ran digest retention expireStaleDispatched past) digest
    henq hprune).ledger key

theorem NamesNewest.next (h : NamesNewest digest retention expireStaleDispatched past)
    (hprune : ∀ olderThanSec, s.call ≠ .prune olderThanSec)
    (hok : WritesNewestLast digest retention expireStaleDispatched past s) :
    NamesNewest digest retention expireStaleDispatched (past ++ [s]) := by
  intro key
  rw [newestAccepted_concat]
  by_cases henq : ∃ command options now, s.call = .enqueue command options now
  · obtain ⟨call, wall⟩ := s
    obtain ⟨command, options, now, rfl⟩ := henq
    rw [ledger_ran_enqueue past rfl, acceptedUnder_enqueue]
    split
    · rw [if_pos rfl]
      rfl
    · rw [if_neg nofun]
      exact h key
  · have henq' : ∀ command options now, s.call ≠ .enqueue command options now :=
      fun command options now hcall => henq ⟨command, options, now, hcall⟩
    rw [ledger_ran_writtenBack past henq' hprune, acceptedUnder_none key _ henq', Option.none_or]
    cases hlast : (ran digest retention expireStaleDispatched past).lastWritten s key with
    | none => exact h key
    | some record => exact (hok key record hlast).symm

theorem WritesNewestLast.keepsRetention
    (hok : WritesNewestLast digest retention expireStaleDispatched past s)
    (hprune : ∀ olderThanSec, s.call ≠ .prune olderThanSec) :
    KeepsRetention digest retention expireStaleDispatched past s := by
  intro key id type t hled hnew hlt hother hnone
  refine ⟨id, type, t, ?_, le_refl t⟩
  by_cases henq : ∃ command options now, s.call = .enqueue command options now
  · obtain ⟨command, options, now, hcall⟩ := henq
    rw [ledger_ran_enqueue past hcall, hnone, if_neg nofun]
    exact hled
  · rw [ledger_ran_writtenBack past (fun command options now hcall =>
      henq ⟨command, options, now, hcall⟩) hprune]
    cases hlast : (ran digest retention expireStaleDispatched past).lastWritten s key with
    | none => exact hled
    | some record =>
      -- the step would write the newest command back
      obtain ⟨hmem, hkey⟩ := lastWritten_spec hlast
      have hsame := (hok key record hlast).symm.trans hnew
      injection hsame with hsame
      exact absurd hsame (hother record hmem hkey)

theorem NamesNewest.writesNewestLast
    (h : NamesNewest digest retention expireStaleDispatched (past ++ [s]))
    (hprune : ∀ olderThanSec, s.call ≠ .prune olderThanSec) :
    WritesNewestLast digest retention expireStaleDispatched past s := by
  intro key record hlast
  have henq : ∀ command options now, s.call ≠ .enqueue command options now := by
    intro command options now hcall
    have hmem := (lastWritten_spec hlast).1
    unfold writtenBack at hmem
    rw [hcall] at hmem
    cases hmem
  have hnames := h key
  rw [newestAccepted_concat, acceptedUnder_none key _ henq, Option.none_or,
    ledger_ran_writtenBack past henq hprune, hlast] at hnames
  exact hnames.symm

theorem namesNewest_nil : NamesNewest digest retention expireStaleDispatched [] := by
  intro key
  rfl

end Runs

/-- **The ledger points at the newest command.** In a run on an empty store that
does not prune, the ledger names the command accepted last under every key, and
its retention is not shortened by the steps of older commands, precisely if what
each step writes back last under a key is the record of the command accepted
last. -/
theorem ledger_names_newest_iff (digest : GatewayCommand → String) (retention : Int)
    (expireStaleDispatched : Bool) (steps : List Step)
    (hprune : ∀ s ∈ steps, ∀ olderThanSec, s.call ≠ .prune olderThanSec) :
    LedgerNamesNewest digest retention expireStaleDispatched steps ↔
      ∀ past s, past ++ [s] <+: steps →
        WritesNewestLast digest retention expireStaleDispatched past s := by
  have hkept : ∀ past s, past ++ [s] <+: steps →
      ∀ olderThanSec, s.call ≠ .prune olderThanSec := by
    intro past s hpre
    exact hprune s (hpre.subset (mem_append_right past mem_cons_self))
  constructor
  · intro h past s hpre
    exact (h.1 (past ++ [s]) hpre).writesNewestLast (hkept past s hpre)
  · intro hok
    refine ⟨prefix_induction namesNewest_nil ?_, ?_⟩
    · intro past s hpre h
      exact h.next (hkept past s hpre) (hok past s hpre)
    · intro past s hpre
      exact (hok past s hpre).keepsRetention (hkept past s hpre)

/-! ## Fixed runs -/

/-- A request times out, is requested anew under its key, and Core sweeps its
expired commands. -/
def supersededRun : List Step :=
  [⟨.enqueue { type := "tr_request", commandId := "A", idempotencyKey := "K" }
     { ttlSec := some 10 } none, 0⟩,
   ⟨.dispatch 20 none, 1⟩,
   ⟨.expireOld none, 15⟩,
   ⟨.enqueue { type := "tr_request", commandId := "B", idempotencyKey := "K" }
     { ttlSec := some 100 } none, 20⟩,
   ⟨.expireOld none, 30⟩]

theorem supersededRun_keeps :
    ∀ s ∈ supersededRun, ∀ olderThanSec, s.call ≠ .prune olderThanSec := by
  intro s hs olderThanSec
  simp only [supersededRun, mem_cons, not_mem_nil, or_false] at hs
  rcases hs with rfl | rfl | rfl | rfl | rfl <;> exact nofun

theorem writesNewestLast_of_writtenBack {digest : GatewayCommand → String} {retention : Int}
    {expireStaleDispatched : Bool} {past : List Step} {s : Step}
    (h : ∀ record ∈ (ran digest retention expireStaleDispatched past).writtenBack s,
      newestAccepted digest retention expireStaleDispatched past record.dedupeKey =
        some record.commandId) :
    WritesNewestLast digest retention expireStaleDispatched past s := by
  intro key record hlast
  obtain ⟨hmem, hkey⟩ := lastWritten_spec hlast
  rw [← hkey]
  exact h record hmem

/-- Up to the second sweep the ledger is as it should be. -/
theorem ledger_names_newest_before_sweep :
    LedgerNamesNewest (fun _ => "") 86400 true (supersededRun.take 4) := by
  refine (ledger_names_newest_iff (fun _ => "") 86400 true (supersededRun.take 4)
    (fun s hs => supersededRun_keeps s (mem_of_mem_take hs))).mpr ?_
  refine forall_steps_cons.mpr ⟨writesNewestLast_of_writtenBack (by decide),
    forall_steps_cons.mpr ⟨writesNewestLast_of_writtenBack (by decide),
    forall_steps_cons.mpr ⟨writesNewestLast_of_writtenBack (by decide),
    forall_steps_cons.mpr ⟨writesNewestLast_of_writtenBack (by decide), forall_steps_nil⟩⟩⟩⟩

/-- The second sweep writes the old request back, so that the ledger names it again,
with the expiry it had. -/
theorem sweep_names_superseded_command :
    newestAccepted (fun _ => "") 86400 true supersededRun "K" = some "B" ∧
    (ran (fun _ => "") 86400 true (supersededRun.take 4)).ledger "K" =
      some ("B", "tr_request", some 120) ∧
    (ran (fun _ => "") 86400 true supersededRun).ledger "K" = some ("A", "tr_request", some 10) ∧
    ¬ LedgerNamesNewest (fun _ => "") 86400 true supersededRun := by
  refine ⟨by decide, by decide, by decide, ?_⟩
  intro h
  have hnames := h.1 supersededRun (prefix_refl _) "K"
  exact absurd hnames (by decide)

end GatewayStateStore

end TradingCore.Broker
