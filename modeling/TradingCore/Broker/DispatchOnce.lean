import TradingCore.Broker.StoreCopies

/-!
# Order commands across restarts

Two things are to keep Core from sending one order twice: the attempts of the command, which memory
and row both carry, and the dedupe ledger. Restarts, pruning and re-used command ids may come at any
time.

* `DispatchesWithinAttempts` — a run hands an order command out no more often than its
  `max_attempts` allow;
* `OneOrderPerKey` — while the retention of a dedupe key has not passed, one order command with
  that key is accepted;
* `KeepsOrdersUnique` — of a step in its past: no command is enqueued anew on the ledger entry that
  an order left behind, or under the id of an order that was handed out; and no other command's
  write-back takes over such an entry.
-/

namespace TradingCore.Broker

open Base SQLiteCommandStore CommandRecord List CommandQueue

namespace GatewayStateStore

def ledger (g : GatewayStateStore) (key : String) : Option (String × String × Option Time) :=
  g.commandStore.bind (·.ledger key)

/-- Does the ledger keep the key for an order command at `now`? -/
def RetainsOrderKey (g : GatewayStateStore) (key : String) (now : Time) : Prop :=
  ∃ owner type expiry, g.ledger key = some (owner, type, expiry) ∧ type ∈ orderCommandTypes ∧
    ∀ t, expiry = some t → now < t

/-- The records that a step upserts, besides the one of an accepted enqueue. -/
def writtenBack (g : GatewayStateStore) (s : Step) : List CommandRecord :=
  match s.call with
  | .dispatch limit now =>
      (g.commandQueue.dispatch limit (now.getD s.wall)).2.filterMap fun command =>
        (g.commandQueue.dispatch limit (now.getD s.wall)).1.records.get? command.commandId
  | .fail commandId error retryable =>
      ((g.commandQueue.records.get? commandId).map (·.fail error retryable s.wall)).toList
  | .cancel commandId =>
      (((g.commandQueue.records.get? commandId).filter (·.status = .queued)).map
        (·.finish .cancelled s.wall)).toList
  | .expireOld now =>
      ((g.commandQueue.expireOld (now.getD s.wall)).1.listAll 10000).filter (·.status = .expired)
  | _ => []

/-- The record that a step writes back last under a dedupe key. -/
def lastWritten (g : GatewayStateStore) (s : Step) (key : String) : Option CommandRecord :=
  ((g.writtenBack s).filter (·.dedupeKey = key)).getLast?

/-- What the ledger argument asks of a state: its shape, the retention period
of its store, and that no command has an empty dedupe key. -/
structure Retaining (retention : Int) (g : GatewayStateStore) : Prop where
  wellFormed : g.WellFormed
  retention_eq : ∃ store, g.commandStore = some store ∧ store.dedupeRetentionSec = retention
  keyed : ∀ id record, (g.copies id).Has record → record.dedupeKey ≠ ""

variable {retention : Int}

variable {g g' : GatewayStateStore} {s : Step}

theorem Retaining.stored (h : g.Retaining retention) : g.stored = true := by
  obtain ⟨store, hs, -⟩ := h.retention_eq
  unfold GatewayStateStore.stored
  rw [hs]
  rfl

theorem retaining_empty (retention : Int) (expireStaleDispatched : Bool) :
    (empty (some retention) expireStaleDispatched).Retaining retention := by
  refine ⟨wellFormed_fresh _ _, ⟨_, rfl, rfl⟩, ?_⟩
  intro id record h
  rw [copies_empty] at h
  rcases h with h | h
  · cases h
  · cases h

/-! ## The ledger, step by step -/

/-- What a step may do to a ledger entry: nothing, replace it by that of a
record it writes back or enqueues, or drop it when it has expired. -/
inductive LedgerStep (digest : GatewayCommand → String) (retention : Int)
    (g : GatewayStateStore) (s : Step) (key : String) : Option (String × String × Option Time) → Prop
  | same : LedgerStep digest retention g s key (g.ledger key)
  | written (record : CommandRecord) (hmem : record ∈ g.writtenBack s)
      (hkey : record.dedupeKey = key) :
      LedgerStep digest retention g s key (some (ledgerEntry record retention s.wall))
  | enqueued (command : GatewayCommand) (options : EnqueueOptions) (now : Option Time)
      (hcall : s.call = .enqueue command options now) (hadm : Admits digest g command s.wall)
      (hkey : dedupeKeyForCommand digest command = key) :
      LedgerStep digest retention g s key
        (some (ledgerEntry (created digest command options now s.wall) retention s.wall))
  | dropped (owner type : String) (t : Time) (hled : g.ledger key = some (owner, type, some t))
      (hexp : t ≤ s.wall) : LedgerStep digest retention g s key none

/-- What an operation leaves of the store, as far as the ledger goes. -/
structure Ledgered (digest : GatewayCommand → String) (retention : Int) (g g' : GatewayStateStore)
    (s : Step) : Prop where
  retention_eq : ∃ store, g'.commandStore = some store ∧ store.dedupeRetentionSec = retention
  ledger : ∀ key, LedgerStep digest retention g s key (g'.ledger key)

/-- A step that acts on the ledger through the records it writes back alone. -/
structure WritesBack (retention : Int) (g g' : GatewayStateStore) (s : Step) : Prop where
  retention_eq : ∃ store, g'.commandStore = some store ∧ store.dedupeRetentionSec = retention
  ledger : ∀ key, g'.ledger key = match g.lastWritten s key with
    | some record => some (ledgerEntry record retention s.wall)
    | none => g.ledger key

theorem lastWritten_spec {key : String} {record : CommandRecord}
    (h : g.lastWritten s key = some record) :
    record ∈ g.writtenBack s ∧ record.dedupeKey = key := by
  have hmem := mem_filter.mp (mem_of_getLast? h)
  exact ⟨hmem.1, of_decide_eq_true hmem.2⟩

theorem WritesBack.ledgered (h : WritesBack retention g g' s) (digest : GatewayCommand → String) :
    Ledgered digest retention g g' s := by
  refine ⟨h.retention_eq, ?_⟩
  intro key
  rw [h.ledger key]
  cases hlast : g.lastWritten s key with
  | none => exact .same
  | some record =>
    obtain ⟨hmem, hkey⟩ := lastWritten_spec hlast
    exact .written record hmem hkey

theorem written_keyed (h : g.Retaining retention) {record : CommandRecord}
    (hmem : record ∈ g.writtenBack s) : record.dedupeKey ≠ "" := by
  have hold : ∀ {id old}, g.commandQueue.records.get? id = some old → old.dedupeKey ≠ "" :=
    fun hget => h.keyed _ _ (.inl hget)
  obtain ⟨call, wall⟩ := s
  cases call with
  | dispatch limit now =>
    obtain ⟨command, -, hget⟩ := mem_filterMap.mp hmem
    obtain ⟨old, hget', hsame⟩ := dispatch_get? h.wellFormed.queue _ _ hget
    rw [hsame.dedupeKey]
    exact hold hget'
  | fail commandId error retryable =>
    obtain ⟨old, hget, rfl⟩ := Option.map_eq_some_iff.mp (Option.mem_toList.mp hmem)
    rw [(sameCommand_fail old error retryable wall).dedupeKey]
    exact hold hget
  | cancel commandId =>
    obtain ⟨old, hget, rfl⟩ := Option.map_eq_some_iff.mp (Option.mem_toList.mp hmem)
    rw [(sameCommand_finish old _ _ _ _).dedupeKey]
    exact hold (Option.filter_eq_some_iff.mp hget).1
  | expireOld now =>
    have hget := mem_listAll (h.wellFormed.queue.expireOld _) (mem_filter.mp hmem).1
    rw [expireOld_get?] at hget
    obtain ⟨old, hget', heq⟩ := Option.map_eq_some_iff.mp hget
    rw [← heq, (sameCommand_expire old _).dedupeKey]
    exact hold hget'
  | enqueue command options now => cases hmem
  | ack commandId status resultPayload error => cases hmem
  | prune olderThanSec => cases hmem
  | restart => cases hmem

theorem Retaining.store (h : g.Retaining retention) :
    ∃ store, g.commandStore = some store ∧ store.dedupeRetentionSec = retention ∧
      ∀ key, store.ledger key = g.ledger key := by
  obtain ⟨store, hs, hret⟩ := h.retention_eq
  refine ⟨store, hs, hret, ?_⟩
  intro key
  simp only [ledger, hs, Option.bind_some]

theorem writesBack_same (hnone : g.writtenBack s = []) {store : SQLiteCommandStore}
    (hg' : g'.commandStore = some store) (hret : store.dedupeRetentionSec = retention)
    (hled : ∀ key, store.ledger key = g.ledger key) : WritesBack retention g g' s := by
  refine ⟨⟨store, hg', hret⟩, ?_⟩
  intro key
  unfold lastWritten
  rw [hnone, ← hled key]
  simp only [ledger, hg', Option.bind_some]
  rfl

/-- An accepted enqueue files the ledger entry of its command, a rejected one
nothing. -/
theorem ledger_enqueueCommand (h : g.Retaining retention) (digest : GatewayCommand → String)
    (command : GatewayCommand) (options : EnqueueOptions) (now : Option Time) (wall : Time) :
    (∃ store, (g.enqueueCommand digest command options now wall).1.commandStore = some store ∧
      store.dedupeRetentionSec = retention) ∧
    ∀ key, (g.enqueueCommand digest command options now wall).1.ledger key =
      if (g.enqueueCommand digest command options now wall).2.accepted = true ∧
        dedupeKeyForCommand digest command = key then
        some (ledgerEntry (created digest command options now wall) retention wall)
      else g.ledger key := by
  obtain ⟨store, hs, hret, hled⟩ := h.store
  by_cases hid : command.commandId = ""
  · have heq : g.enqueueCommand digest command options now wall =
        (g, { accepted := false, reason := "COMMAND_ID_REQUIRED" }) := by
      unfold enqueueCommand
      rw [hs]
      exact if_pos hid
    rw [heq]
    refine ⟨⟨store, hs, hret⟩, ?_⟩
    intro key
    rw [if_neg (by simp)]
  · have hkey := create_dedupeKey_ne_empty digest command options (now.getD wall)
    have hstore : (g.enqueueCommand digest command options now wall).1.commandStore =
          some (store.enqueueRecord (create digest command options (now.getD wall)) wall).1 ∧
        (g.enqueueCommand digest command options now wall).2 = (store.enqueueRecord
          (create digest command options (now.getD wall)) wall).2 := by
      unfold enqueueCommand
      rw [hs]
      dsimp only
      rw [if_neg hid]
      exact ⟨rfl, rfl⟩
    have hafter : ∀ key, (g.enqueueCommand digest command options now wall).1.ledger key =
        (store.enqueueRecord
          (create digest command options (now.getD wall)) wall).1.ledger key := by
      intro key
      unfold ledger
      rw [hstore.1, Option.bind_some]
    rw [hstore.1, hstore.2]
    rcases enqueueRecord_cases store
        (create digest command options (now.getD wall)) wall with
      ⟨hrej, -, hsame, hret'⟩ | ⟨hacc, -, -, -, -, hwrite, hret'⟩
    · refine ⟨⟨_, rfl, hret'.trans hret⟩, ?_⟩
      intro key
      rw [hafter, hsame, hled, if_neg (by simp [hrej])]
    · refine ⟨⟨_, rfl, hret'.trans hret⟩, ?_⟩
      intro key
      rw [hafter, hwrite, ledger_upsertRecord store hkey, hret, hacc, hled]
      by_cases hk : key = (create digest command options (now.getD wall)).dedupeKey
      · rw [if_pos hk, if_pos ⟨rfl, hk.symm⟩]
      · rw [if_neg hk, if_neg (fun heq => hk heq.2.symm)]

theorem ledgered_enqueue (h : g.Retaining retention) (digest : GatewayCommand → String)
    (command : GatewayCommand) (options : EnqueueOptions) (now : Option Time) (wall : Time) :
    Ledgered digest retention g (g.enqueueCommand digest command options now wall).1
      ⟨.enqueue command options now, wall⟩ := by
  obtain ⟨hret, hled⟩ := ledger_enqueueCommand h digest command options now wall
  refine ⟨hret, ?_⟩
  intro key
  rw [hled key]
  split
  · rename_i hacc
    exact .enqueued command options now rfl
      ((accepted_iff digest g command options now wall).mp hacc.1) hacc.2
  · exact .same

theorem writesBack_foldl (h : g.Retaining retention) {store : SQLiteCommandStore}
    (hret : store.dedupeRetentionSec = retention) (hled : ∀ key, store.ledger key = g.ledger key)
    {f : SQLiteCommandStore → CommandRecord → SQLiteCommandStore}
    (hf : ∀ s', ∀ r ∈ g.writtenBack s, (∀ key, (f s' r).ledger key =
        (s'.upsertRecord r s.wall).ledger key) ∧ (f s' r).dedupeRetentionSec = s'.dedupeRetentionSec)
    (hg' : g'.commandStore = some ((g.writtenBack s).foldl f store)) :
    WritesBack retention g g' s := by
  have hfold := fun key => ledger_foldl_last (f := f) s.wall key
    (g.writtenBack s) store (fun r hr => written_keyed h hr)
    (fun s' r hr => ⟨(hf s' r hr).1 key, (hf s' r hr).2⟩)
  refine ⟨⟨_, hg', (hfold "").1.trans hret⟩, ?_⟩
  intro key
  have hkey : g'.ledger key = ((g.writtenBack s).foldl f store).ledger key := by
    simp only [ledger, hg', Option.bind_some]
  rw [hkey, (hfold key).2, hret, hled]
  rfl

theorem ledger_upsert_append (wall : Time) (store : SQLiteCommandStore) (r : CommandRecord)
    (event : CommandEvent) :
    (∀ key, ((store.upsertRecord r wall).appendEvent event).ledger key =
      (store.upsertRecord r wall).ledger key) ∧
    ((store.upsertRecord r wall).appendEvent event).dedupeRetentionSec =
      store.dedupeRetentionSec := by
  refine ⟨fun _ => rfl, ?_⟩
  rw [dedupeRetentionSec_appendEvent, dedupeRetentionSec_upsertRecord]

theorem writesBack_updateStatus (hnone : g.writtenBack s = []) {store : SQLiteCommandStore}
    (hret : store.dedupeRetentionSec = retention) (hled : ∀ key, store.ledger key = g.ledger key)
    {commandId : String} {status : CommandStatus} {resultPayload : Option Mapping}
    {error : Option String} {eventType message : String} {current : Time}
    (hg' : g'.commandStore = some
      (store.updateStatus commandId status resultPayload error eventType message current).1) :
    WritesBack retention g g' s := by
  apply writesBack_same hnone hg'
  · rw [dedupeRetentionSec_updateStatus]
    exact hret
  · intro key
    rw [ledger_updateStatus]
    exact hled key

section

variable (h : g.Retaining retention)
include h

theorem writesBack_dispatch (limit : Int) (now : Option Time) (wall : Time) :
    WritesBack retention g (g.dispatchCommands limit now wall).1 ⟨.dispatch limit now, wall⟩ := by
  obtain ⟨store, hs, hret, hled⟩ := h.store
  obtain ⟨hexp, hexpret⟩ := ledger_expireOldRecords store true (now.getD wall)
  obtain ⟨sent, hcmd, hd⟩ := dispatch_spec h.wellFormed.queue limit (now.getD wall)
  have hwfd := h.wellFormed.queue.dispatch limit (now.getD wall)
  have hfiled : ∀ r ∈ sent, (g.commandQueue.dispatch limit (now.getD wall)).1.records.get?
      r.command.commandId = some r := by
    intro r hr
    obtain ⟨old, -, -, -, -, hafter⟩ := hd.of_sent r hr
    rw [(hwfd.filed r.commandId r hafter).2]
    exact hafter
  -- the records written back are those handed out
  have hsent : g.writtenBack ⟨.dispatch limit now, wall⟩ = sent := by
    show (g.commandQueue.dispatch limit (now.getD wall)).2.filterMap _ = sent
    rw [hcmd, filterMap_map]
    refine Eq.trans (filterMap_congr (g := some) ?_) filterMap_some
    exact hfiled
  refine writesBack_foldl h (hexpret.trans hret) (fun key => (hexp key).trans (hled key))
    (f := fun s' r => persistDispatch (g.commandQueue.dispatch limit (now.getD wall)).1 wall
      s' r.command) ?_ ?_
  · intro s' r hr
    rw [hsent] at hr
    unfold persistDispatch
    rw [hfiled r hr]
    exact ledger_upsert_append wall s' r _
  · rw [hsent]
    unfold dispatchCommands
    rw [hs]
    show some ((g.commandQueue.dispatch limit (now.getD wall)).2.foldl _ _) = _
    rw [hcmd, foldl_map]

theorem writesBack_fail (commandId error : String) (retryable : Bool) (wall : Time) :
    WritesBack retention g (g.failCommand commandId error retryable wall).1
      ⟨.fail commandId error retryable, wall⟩ := by
  obtain ⟨store, hs, hret, hled⟩ := h.store
  have hhandled := fail_handled g.commandQueue commandId error retryable wall
  have hget := fail_get? g.commandQueue commandId error retryable wall commandId
  rw [if_pos rfl] at hget
  cases hm : g.commandQueue.records.get? commandId with
  | none =>
    rw [hm] at hhandled
    have hstore : (g.failCommand commandId error retryable wall).1.commandStore =
        some (store.updateStatus commandId .failed none (some error) "command_failed" error
          wall).1 := by
      unfold failCommand
      rw [hs]
      simp only [hhandled, Option.isSome_none]
    have hnone : g.writtenBack ⟨.fail commandId error retryable, wall⟩ = [] := by
      show ((g.commandQueue.records.get? commandId).map _).toList = _
      rw [hm]
      rfl
    exact writesBack_updateStatus hnone hret hled hstore
  | some record =>
    rw [hm] at hhandled hget
    refine writesBack_foldl h hret hled
      (f := fun s' r => (s'.upsertRecord r wall).appendEvent
        { commandId, eventType := "command_failed", statusTo := some r.status
          message := error, createdAt := some wall })
      (fun s' r _ => ledger_upsert_append wall s' r _) ?_
    have hback : g.writtenBack ⟨.fail commandId error retryable, wall⟩ =
        [record.fail error retryable wall] := by
      show ((g.commandQueue.records.get? commandId).map _).toList = _
      rw [hm]
      rfl
    rw [hback]
    unfold failCommand
    rw [hs]
    simp only [hhandled, Option.isSome_some, hget, Option.map_some]
    rfl

theorem writesBack_cancel (commandId : String) (wall : Time) :
    WritesBack retention g (g.cancelCommand commandId wall).1 ⟨.cancel commandId, wall⟩ := by
  obtain ⟨store, hs, hret, hled⟩ := h.store
  rcases cancel_cases g.commandQueue commandId wall with
    ⟨record, hm, hq, heq⟩ | ⟨hnot, heq⟩
  · refine writesBack_foldl h hret hled
      (f := fun s' r => (s'.upsertRecord r wall).appendEvent
        { commandId, eventType := "cancelled", statusTo := some .cancelled
          message := "cancelled before dispatch", createdAt := some wall })
      (fun s' r _ => ledger_upsert_append wall s' r _) ?_
    have hback : g.writtenBack ⟨.cancel commandId, wall⟩ = [record.finish .cancelled wall] := by
      show (((g.commandQueue.records.get? commandId).filter _).map _).toList = _
      rw [hm, Option.filter_some, if_pos (by simp [hq])]
      rfl
    rw [hback]
    unfold cancelCommand
    rw [heq, hs]
    simp only [Dict.get?_set_self]
    rfl
  · -- no record is written back; a queued row may have its status updated
    have hcase : (g.cancelCommand commandId wall).1.commandStore = some store ∨
        (g.cancelCommand commandId wall).1.commandStore = some (store.updateStatus commandId
          .cancelled none none "cancelled" "cancelled before dispatch" wall).1 := by
      unfold cancelCommand
      rw [heq, hs]
      dsimp only
      split
      · split
        · exact .inr rfl
        · exact .inl rfl
      · exact .inl rfl
    have hnone : g.writtenBack ⟨.cancel commandId, wall⟩ = [] := by
      show (((g.commandQueue.records.get? commandId).filter _).map _).toList = _
      cases hm : g.commandQueue.records.get? commandId with
      | none => rfl
      | some record =>
        rw [Option.filter_some, if_neg (by simp [hnot record hm])]
        rfl
    rcases hcase with hstore | hstore
    · exact writesBack_same hnone hstore hret hled
    · exact writesBack_updateStatus hnone hret hled hstore

theorem ledgered_prune (digest : GatewayCommand → String) (olderThanSec : Int) (wall : Time) :
    Ledgered digest retention g (g.pruneCommands olderThanSec wall).1
      ⟨.prune olderThanSec, wall⟩ := by
  obtain ⟨store, hs, hret, hled⟩ := h.store
  have hstore : (g.pruneCommands olderThanSec wall).1.commandStore =
      some ((store.pruneFinished olderThanSec wall).1.pruneDedupeKeys wall) := by
    unfold pruneCommands
    rw [hs]
  refine ⟨⟨_, hstore, hret⟩, ?_⟩
  intro key
  have hkey : (g.pruneCommands olderThanSec wall).1.ledger key =
      ((store.dedupeKeys.get? key).filter fun row =>
        DedupeRow.retainedAt row wall).map fun d => (d.commandId, d.commandType, d.expiresAt) := by
    show ((g.pruneCommands olderThanSec wall).1.commandStore).bind _ = _
    rw [hstore]
    show ((store.dedupeKeys.filter _).get? key).map _ = _
    rw [Dict.get?_filter]
  have hold : g.ledger key = (store.dedupeKeys.get? key).map
      fun d => (d.commandId, d.commandType, d.expiresAt) := (hled key).symm
  rw [hkey]
  cases hrow : store.dedupeKeys.get? key with
  | none =>
    rw [hrow] at hold
    rw [Option.filter_none, Option.map_none, ← Option.map_none (f := fun d : DedupeRow =>
      (d.commandId, d.commandType, d.expiresAt)), ← hold]
    exact .same
  | some row =>
    rw [hrow] at hold
    rw [Option.filter_some]
    by_cases hkeep : DedupeRow.retainedAt row wall = true
    · rw [if_pos hkeep, ← hold]
      exact .same
    · rw [if_neg hkeep]
      -- a row that is dropped has an expiry in the past
      unfold DedupeRow.retainedAt at hkeep
      cases hexp : row.expiresAt with
      | none => simp [hexp] at hkeep
      | some t =>
        rw [hexp, decide_eq_true_eq] at hkeep
        refine .dropped row.commandId row.commandType t ?_ (Int.not_lt.mp hkeep)
        rw [hold, Option.map_some, hexp]

theorem writesBack_next (digest : GatewayCommand → String)
    (henq : ∀ command options now, s.call ≠ .enqueue command options now)
    (hprune : ∀ olderThanSec, s.call ≠ .prune olderThanSec) :
    WritesBack retention g ((machine digest).next g s) s := by
  obtain ⟨store, hs, hret, hled⟩ := h.store
  obtain ⟨call, wall⟩ := s
  cases call with
  | enqueue command options now => exact absurd rfl (henq command options now)
  | dispatch limit now => exact writesBack_dispatch h limit now wall
  | ack commandId status resultPayload error =>
    have hstore : (g.ackCommand commandId status resultPayload error wall).1.commandStore =
        some (store.updateStatus commandId status resultPayload error (ackEventType status)
          (ackMessage resultPayload error) wall).1 := by
      unfold ackCommand
      rw [hs]
    exact writesBack_updateStatus rfl hret hled hstore
  | fail commandId error retryable => exact writesBack_fail h commandId error retryable wall
  | cancel commandId => exact writesBack_cancel h commandId wall
  | expireOld now =>
    obtain ⟨hexp, hexpret⟩ := ledger_expireOldRecords store true (now.getD wall)
    refine writesBack_foldl h (hexpret.trans hret)
      (fun key => (hexp key).trans (hled key)) (f := fun s' r => s'.upsertRecord r wall) ?_ ?_
    · intro s' r _
      exact ⟨fun _ => rfl, dedupeRetentionSec_upsertRecord s' r wall⟩
    · show (g.expireOldCommands now wall).1.commandStore = _
      unfold expireOldCommands writtenBack
      rw [hs]
  | prune olderThanSec => exact absurd rfl (hprune olderThanSec)
  | restart =>
    obtain ⟨hexp, hexpret⟩ := ledger_expireOldRecords store g.expireStaleDispatchedOnRecovery wall
    have hstore : (g.restart wall).commandStore =
        some (store.expireOldRecords g.expireStaleDispatchedOnRecovery wall).1 := by
      simp only [restart, recoverFromStore, hs]
    exact writesBack_same rfl hstore (hexpret.trans hret) fun key => (hexp key).trans (hled key)

/-- Every step acts on the ledger as `LedgerStep` says. -/
theorem ledgered_next (digest : GatewayCommand → String) (s : Step) :
    Ledgered digest retention g ((machine digest).next g s) s := by
  by_cases henq : ∃ command options now, s.call = .enqueue command options now
  · obtain ⟨call, wall⟩ := s
    obtain ⟨command, options, now, rfl⟩ := henq
    exact ledgered_enqueue h digest command options now wall
  · by_cases hprune : ∃ olderThanSec, s.call = .prune olderThanSec
    · obtain ⟨call, wall⟩ := s
      obtain ⟨olderThanSec, rfl⟩ := hprune
      exact ledgered_prune h digest olderThanSec wall
    · exact (writesBack_next h digest (fun command options now hcall =>
        henq ⟨command, options, now, hcall⟩) (fun olderThanSec hcall =>
        hprune ⟨olderThanSec, hcall⟩)).ledgered digest

theorem Retaining.next (digest : GatewayCommand → String) (s : Step) :
    ((machine digest).next g s).Retaining retention := by
  refine ⟨h.wellFormed.next digest s (.inl h.stored), (ledgered_next h digest s).retention_eq, ?_⟩
  intro id record hrec
  rcases derived_next h.wellFormed digest s (.inl h.stored) id with
    hd | ⟨command, options, now, -, -, -, -, hput⟩
  · obtain ⟨old, hold, hcont⟩ := hd record hrec
    rw [hcont.same.dedupeKey]
    exact h.keyed id old hold
  · rw [hput] at hrec
    rw [(Copies.has_put hrec).dedupeKey]
    exact create_dedupeKey_ne_empty digest command options _

end

/-! ## Runs -/

section Runs

variable (digest : GatewayCommand → String) (retention : Int) (expireStaleDispatched : Bool)

def ran (past : List Step) : GatewayStateStore :=
  (machine digest).run (empty (some retention) expireStaleDispatched) past

/-- Does the answer hand out an order command with this id? -/
def handsOutOrder (id : String) : Answer → Bool
  | .commands commands =>
      commands.any fun command => command.commandId = id && command.type ∈ orderCommandTypes
  | _ => false

/-- How often a run has handed out the order command with this id. -/
def orderDispatches (past : List Step) (id : String) : Nat :=
  ((machine digest).outputs (empty (some retention) expireStaleDispatched) past).countP
    (handsOutOrder id)

/-- In this state the step enqueues an order command with this key, and it is
accepted. -/
def AcceptsOrder (g : GatewayStateStore) (s : Step) (key : String) : Prop :=
  ∃ command options now, s.call = .enqueue command options now ∧
    command.type ∈ orderCommandTypes ∧ dedupeKeyForCommand digest command = key ∧
    (g.enqueueCommand digest command options now s.wall).2.accepted = true

/-- An order command is handed out no more often than its records, in memory or
in the store, at any time allow. -/
def DispatchesWithinAttempts (steps : List Step) : Prop :=
  ∀ id bound,
    (∀ past, past <+: steps → ∀ record,
      ((ran digest retention expireStaleDispatched past).copies id).Has record →
      record.command.type ∈ orderCommandTypes → record.maxAttempts ≤ bound) →
    orderDispatches digest retention expireStaleDispatched steps id ≤ bound

/-- Once an order command with a key is accepted, no other is as long as the
retention has not passed. -/
def OneOrderPerKey (steps : List Step) : Prop :=
  ∀ past s between t key, past ++ [s] ++ between ++ [t] <+: steps →
    AcceptsOrder digest (ran digest retention expireStaleDispatched past) s key →
    (∀ u ∈ between ++ [t], s.wall ≤ u.wall ∧ u.wall < s.wall + max 1 retention) →
    ¬ AcceptsOrder digest (ran digest retention expireStaleDispatched (past ++ [s] ++ between))
      t key

/-- The step does not make Core forget an order: an accepted enqueue takes no
key that the ledger keeps for an order (which is then the command's own, its row
being pruned) and gives an order no id under which one was handed out, and a
command that is no order is not written back on such a key. -/
def KeepsOrdersUnique (past : List Step) (s : Step) : Prop :=
  (∀ command options now, s.call = .enqueue command options now →
    Admits digest (ran digest retention expireStaleDispatched past) command s.wall →
    ¬ (ran digest retention expireStaleDispatched past).RetainsOrderKey
        (dedupeKeyForCommand digest command) s.wall ∧
    (command.type ∈ orderCommandTypes →
      orderDispatches digest retention expireStaleDispatched past command.commandId = 0)) ∧
  ∀ record ∈ (ran digest retention expireStaleDispatched past).writtenBack s,
    record.commandType ∉ orderCommandTypes →
    ¬ (ran digest retention expireStaleDispatched past).RetainsOrderKey record.dedupeKey s.wall

variable {digest} {retention} {expireStaleDispatched}

theorem ran_concat (past : List Step) (s : Step) :
    ran digest retention expireStaleDispatched (past ++ [s]) =
      (machine digest).next (ran digest retention expireStaleDispatched past) s :=
  Machine.run_concat _ _ _ _

theorem retaining_ran (digest : GatewayCommand → String) (retention : Int)
    (expireStaleDispatched : Bool) (past : List Step) :
    (ran digest retention expireStaleDispatched past).Retaining retention :=
  Machine.run_preserves (I := Retaining retention) (fun _ s h => h.next digest s)
    (retaining_empty retention expireStaleDispatched) past

theorem orderDispatches_concat (past : List Step) (s : Step) (id : String) :
    orderDispatches digest retention expireStaleDispatched (past ++ [s]) id =
      orderDispatches digest retention expireStaleDispatched past id +
        if handsOutOrder id ((machine digest).out
          (ran digest retention expireStaleDispatched past) s) then 1 else 0 := by
  unfold orderDispatches
  rw [Machine.outputs_append, countP_append]
  show _ + countP (handsOutOrder id) [(machine digest).out _ s] = _
  rw [countP_singleton]
  rfl

/-! ### Attempts -/

/-- The dispatches of an order command are counted by the attempts of each of
its copies. -/
def Counted (digest : GatewayCommand → String) (retention : Int) (expireStaleDispatched : Bool)
    (past : List Step) : Prop :=
  ∀ id record, ((ran digest retention expireStaleDispatched past).copies id).Has record →
    record.command.type ∈ orderCommandTypes →
    orderDispatches digest retention expireStaleDispatched past id ≤ record.attempts

/-- Only a dispatch hands out commands. An order it hands out was queued with
attempts left, and afterwards both copies count the dispatch. -/
theorem handsOut_cases {g : GatewayStateStore} (hwf : g.WellFormed)
    (digest : GatewayCommand → String) (s : Step) (id : String)
    (h : handsOutOrder id ((machine digest).out g s) = true) :
    ∃ old record, (g.copies id).Has old ∧ SameCommand old record ∧
      record.command.type ∈ orderCommandTypes ∧ old.attempts < record.maxAttempts ∧
      record.attempts = old.attempts + 1 ∧
      ((machine digest).next g s).copies id =
        ((g.copies id).expire (match s.call with
          | .dispatch _ now => now.getD s.wall
          | _ => s.wall)).put g.stored record := by
  obtain ⟨call, wall⟩ := s
  cases call with
  | dispatch limit now =>
    obtain ⟨sent, hcmd, -, hsent, -⟩ := copies_dispatch hwf limit now wall
    have hany : ((g.dispatchCommands limit now wall).2).any
        (fun command => command.commandId = id && command.type ∈ orderCommandTypes) = true := h
    rw [hcmd, any_map, any_eq_true] at hany
    obtain ⟨r, hr, hp⟩ := hany
    simp only [Function.comp, Bool.and_eq_true, decide_eq_true_eq] at hp
    obtain ⟨hrid, old, hold, -, hlt, hr', hput⟩ := hsent r hr
    have hid : r.commandId = id := hrid.symm.trans hp.1
    rw [hid] at hold hput
    obtain ⟨first, hfirst, hcont⟩ := Copies.derived_expire (g.copies id) (now.getD wall) old
      (.inl hold)
    obtain ⟨m, hm, hme⟩ := Option.map_eq_some_iff.mp hold
    have hsame := sameCommand_expire m (now.getD wall)
    rw [hme] at hsame
    have hatt : old.attempts = m.attempts := by
      rw [← hme, expire_attempts]
    refine ⟨m, r, .inl hm, ?_, hp.2, ?_, ?_, hput⟩
    · rw [hr']
      exact hsame.trans (sameCommand_dispatch old _)
    · rw [hr', (sameCommand_dispatch old _).maxAttempts, ← hatt]
      exact hlt
    · rw [hr', ← hatt]
      rfl
  | enqueue command options now => cases h
  | ack commandId status resultPayload error => cases h
  | fail commandId error retryable => cases h
  | cancel commandId => cases h
  | expireOld now => cases h
  | prune olderThanSec => cases h
  | restart => cases h

theorem counted_nil : Counted digest retention expireStaleDispatched [] := by
  intro id record hrec
  exact absurd hrec (by
    rw [show (ran digest retention expireStaleDispatched []).copies id = ⟨none, none⟩ from
      copies_empty _ _ id]
    rintro (h | h)
    · cases h
    · cases h)

variable {past : List Step} {key : String}

theorem Counted.next (h : Counted digest retention expireStaleDispatched past) {s : Step}
    (hok : KeepsOrdersUnique digest retention expireStaleDispatched past s) :
    Counted digest retention expireStaleDispatched (past ++ [s]) := by
  have hwf := (retaining_ran digest retention expireStaleDispatched past).wellFormed
  have hstored := (retaining_ran digest retention expireStaleDispatched past).stored
  intro id record hrec horder
  rw [ran_concat] at hrec
  rw [orderDispatches_concat]
  by_cases hout : handsOutOrder id ((machine digest).out
      (ran digest retention expireStaleDispatched past) s) = true
  · -- handed out: the attempts of both copies were raised
    obtain ⟨old, sent, hold, hsame, hsent, -, hatt, hput⟩ := handsOut_cases hwf digest s id hout
    rw [hput] at hrec
    have hcount := h id old hold (by rw [← hsame.command]; exact hsent)
    rw [if_pos hout]
    have hrecatt : record.attempts = sent.attempts := by
      rcases hrec with hm | hr
      · injection hm with hm
        rw [← hm]
      · rw [Copies.row_put hr]
        rfl
    omega
  · rw [if_neg hout, Nat.add_zero]
    rcases derived_next hwf digest s (.inl hstored) id with
      hd | ⟨command, options, now, hcall, hid, hacc, -, hput⟩
    · obtain ⟨old, hold, hcont⟩ := hd record hrec
      have hcount := h id old hold (by rw [← hcont.same.command]; exact horder)
      have := hcont.attempts
      omega
    · -- a fresh record: its id was not handed out before
      have hzero := (hok.1 command options now hcall
        ((accepted_iff digest _ command options now s.wall).mp hacc)).2
      rw [hput] at hrec
      have hcmd := (Copies.has_put hrec).command
      rw [hcmd] at horder
      rw [hid, hzero horder]
      exact Nat.zero_le _

theorem within_attempts {steps : List Step}
    (hok : ∀ past s, past ++ [s] <+: steps →
      KeepsOrdersUnique digest retention expireStaleDispatched past s) :
    DispatchesWithinAttempts digest retention expireStaleDispatched steps := by
  intro id bound hbound
  have hall : ∀ past, past <+: steps →
      Counted digest retention expireStaleDispatched past ∧
      orderDispatches digest retention expireStaleDispatched past id ≤ bound := by
    refine prefix_induction ⟨counted_nil, Nat.zero_le _⟩ ?_
    intro past s hpre hpast
    refine ⟨hpast.1.next (hok past s hpre), ?_⟩
    rw [orderDispatches_concat]
    by_cases hout : handsOutOrder id ((machine digest).out
        (ran digest retention expireStaleDispatched past) s) = true
    · have hwf := (retaining_ran digest retention expireStaleDispatched past).wellFormed
      obtain ⟨old, sent, hold, hsame, hsent, hlt, -, hput⟩ := handsOut_cases hwf digest s id hout
      have hcount := hpast.1 id old hold (by rw [← hsame.command]; exact hsent)
      have hmax : sent.maxAttempts ≤ bound := by
        refine hbound (past ++ [s]) hpre sent ?_ hsent
        rw [ran_concat, hput]
        exact .inl rfl
      rw [if_pos hout]
      omega
    · rw [if_neg hout]
      omega
  exact (hall steps (prefix_refl _)).2

/-! ### Keys -/

/-- The ledger keeps the key for an order until `limit`, at least. -/
def KeptUntil (g : GatewayStateStore) (key : String) (limit : Time) : Prop :=
  ∃ owner type t, g.ledger key = some (owner, type, some t) ∧ type ∈ orderCommandTypes ∧ limit ≤ t

theorem KeptUntil.retains {g : GatewayStateStore} {limit now : Time} (h : KeptUntil g key limit)
    (hlt : now < limit) : g.RetainsOrderKey key now := by
  obtain ⟨owner, type, t, hled, htype, hle⟩ := h
  refine ⟨owner, type, some t, hled, htype, ?_⟩
  intro t' ht'
  injection ht' with ht'
  rw [← ht']
  exact Int.lt_of_lt_of_le hlt hle

theorem orderEntry_expiry {record : CommandRecord} (h : record.commandType ∈ orderCommandTypes)
    (retention : Int) (wall : Time) :
    dedupeExpiresAt record retention wall = wall + max 1 retention := by
  unfold dedupeExpiresAt retainsDedupe
  rw [if_pos (by simp [h])]

theorem KeptUntil.next {s : Step} {limit : Time}
    (h : KeptUntil (ran digest retention expireStaleDispatched past) key limit)
    (hok : KeepsOrdersUnique digest retention expireStaleDispatched past s) (hlt : s.wall < limit)
    (hle : limit ≤ s.wall + max 1 retention) :
    KeptUntil (ran digest retention expireStaleDispatched (past ++ [s])) key limit := by
  have hretains := h.retains hlt
  obtain ⟨owner, type, t, hled, htype, hlim⟩ := h
  rw [ran_concat]
  have hstep := (ledgered_next (retaining_ran digest retention expireStaleDispatched past) digest s).ledger key
  unfold KeptUntil
  generalize ((machine digest).next (ran digest retention expireStaleDispatched past) s).ledger
    key = entry at hstep ⊢
  cases hstep with
  | same => exact ⟨owner, type, t, hled, htype, hlim⟩
  | written record hmem hkey =>
    by_cases horder : record.commandType ∈ orderCommandTypes
    · refine ⟨record.commandId, record.commandType, _, rfl, horder, ?_⟩
      rw [orderEntry_expiry horder]
      exact hle
    · exact absurd hretains (hkey ▸ hok.2 record hmem horder)
  | enqueued command options now hcall hadm hkey =>
    exact absurd hretains (hkey ▸ (hok.1 command options now hcall hadm).1)
  | dropped owner' type' t' hled' hexp =>
    rw [hled] at hled'
    simp only [Option.some.injEq, Prod.mk.injEq] at hled'
    have hle' : limit ≤ s.wall := Int.le_trans hlim (hled'.2.2 ▸ hexp)
    exact absurd hlt (Int.not_lt.mpr hle')

theorem kept_of_accepted {s : Step}
    (h : AcceptsOrder digest (ran digest retention expireStaleDispatched past) s key) :
    KeptUntil (ran digest retention expireStaleDispatched (past ++ [s])) key
      (s.wall + max 1 retention) := by
  obtain ⟨command, options, now, hcall, htype, hkey, hacc⟩ := h
  obtain ⟨call, wall⟩ := s
  obtain rfl : call = .enqueue command options now := hcall
  have hled := (ledger_enqueueCommand (retaining_ran digest retention expireStaleDispatched past)
    digest command options now wall).2 key
  rw [if_pos ⟨hacc, hkey⟩] at hled
  refine ⟨command.commandId, command.type, wall + max 1 retention, ?_, htype, le_refl _⟩
  rw [ran_concat]
  refine hled.trans ?_
  exact congrArg (fun t => some (command.commandId, command.type, some t))
    (orderEntry_expiry htype retention wall)

theorem one_order_per_key {steps : List Step}
    (hok : ∀ past s, past ++ [s] <+: steps →
      KeepsOrdersUnique digest retention expireStaleDispatched past s) :
    OneOrderPerKey digest retention expireStaleDispatched steps := by
  intro past s between t key hpre hacc hwalls hagain
  have hkept : ∀ mid, mid <+: between →
      KeptUntil (ran digest retention expireStaleDispatched (past ++ [s] ++ mid)) key
        (s.wall + max 1 retention) := by
    refine prefix_induction ?_ ?_
    · rw [append_nil]
      exact kept_of_accepted hacc
    · intro mid u hmid h
      obtain ⟨hge, hlt⟩ := hwalls u (mem_append_left _
        (hmid.subset (mem_append_right mid mem_cons_self)))
      have hstep : past ++ [s] ++ mid ++ [u] <+: steps := by
        refine IsPrefix.trans ?_ hpre
        rw [append_assoc, append_assoc (past ++ [s]) between]
        exact (prefix_append_right_inj _).mpr (hmid.trans (prefix_append _ _))
      rw [← append_assoc]
      exact h.next (hok _ u hstep) hlt (Int.add_le_add_right hge _)
  -- the second order would be taken on a key that is kept
  obtain ⟨command, options, now, hcall, -, hkey, hacc'⟩ := hagain
  obtain ⟨-, hlt⟩ := hwalls t (mem_append_right _ mem_cons_self)
  have hretains := (hkept between (prefix_refl _)).retains hlt
  have hfree := ((hok _ t hpre).1 command options now hcall
    ((accepted_iff digest _ command options now t.wall).mp hacc')).1
  rw [hkey] at hfree
  exact hfree hretains

end Runs

/-- **Order commands go out once.** In a run on an empty store, restarts,
prunings and re-used ids included, whose steps do not make Core forget an
order: every order command is handed out within its attempts, and one order at
a time is accepted on a dedupe key. -/
theorem orders_dispatched_once (digest : GatewayCommand → String) (retention : Int)
    (expireStaleDispatched : Bool) (steps : List Step)
    (hok : ∀ past s, past ++ [s] <+: steps →
      KeepsOrdersUnique digest retention expireStaleDispatched past s) :
    DispatchesWithinAttempts digest retention expireStaleDispatched steps ∧
      OneOrderPerKey digest retention expireStaleDispatched steps :=
  ⟨within_attempts hok, one_order_per_key hok⟩

/-- An order is sent, acknowledged and pruned, then enqueued again under its id
while the ledger keeps its key for it. -/
def prunedOrderRun : List Step :=
  [⟨.enqueue { type := "send_order", commandId := "X", idempotencyKey := "K" } {} none, 0⟩,
   ⟨.dispatch 20 none, 1⟩,
   ⟨.ack "X" .acked none none, 2⟩,
   ⟨.prune 0, 3⟩,
   ⟨.enqueue { type := "send_order", commandId := "X", idempotencyKey := "K" } {} none, 4⟩,
   ⟨.dispatch 20 none, 5⟩]

/-- The first two steps of it are as they should be. -/
theorem orders_dispatched_once_first :
    DispatchesWithinAttempts (fun _ => "") 86400 true (prunedOrderRun.take 2) ∧
      OneOrderPerKey (fun _ => "") 86400 true (prunedOrderRun.take 2) := by
  refine orders_dispatched_once (fun _ => "") 86400 true (prunedOrderRun.take 2) ?_
  refine forall_steps_cons.mpr ⟨⟨?_, ?_⟩, forall_steps_cons.mpr ⟨⟨?_, ?_⟩, forall_steps_nil⟩⟩
  · intro command options now _ _
    refine ⟨?_, fun _ => rfl⟩
    rintro ⟨owner, type, expiry, hled, -⟩
    cases hled
  · intro record hmem
    cases hmem
  · intro command options now hcall
    cases hcall
  · intro record hmem hnot
    have hall : ∀ r ∈ (ran (fun _ => "") 86400 true (prunedOrderRun.take 1)).writtenBack
        ⟨.dispatch 20 none, 1⟩, r.commandType ∈ orderCommandTypes := by decide
    exact absurd (hall record hmem) hnot

/-- The whole of it hands the order out twice, within one attempt. -/
theorem pruned_order_dispatched_twice :
    ¬ ∀ (digest : GatewayCommand → String) (retention : Int) (expireStaleDispatched : Bool)
      (steps : List Step),
      DispatchesWithinAttempts digest retention expireStaleDispatched steps ∧
        OneOrderPerKey digest retention expireStaleDispatched steps := by
  intro h
  have hall : ∀ past ∈ prunedOrderRun.inits,
      ((ran (fun _ => "") 86400 true past).copies "X").memory.all (·.maxAttempts ≤ 1) ∧
      ((ran (fun _ => "") 86400 true past).copies "X").row.all (·.maxAttempts ≤ 1) := by decide
  have hone : orderDispatches (fun _ => "") 86400 true prunedOrderRun "X" ≤ 1 := by
    refine (h (fun _ => "") 86400 true prunedOrderRun).1 "X" 1 ?_
    intro past hpast record hrec _
    obtain ⟨hm, hr⟩ := hall past ((mem_inits past prunedOrderRun).mpr hpast)
    rcases hrec with hrec | hrec
    · rw [hrec] at hm
      exact of_decide_eq_true hm
    · rw [hrec] at hr
      exact of_decide_eq_true hr
  exact absurd hone (by decide)

end GatewayStateStore

end TradingCore.Broker
