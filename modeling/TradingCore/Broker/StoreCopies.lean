import TradingCore.Broker.Copies
import TradingCore.Broker.GatewayState

/-!
# The gateway state store on copies

`copies` reads the record and the row of one id, and each call of the gateway
state store is specified by what it does to them:

* a report (`ack`, `fail`, `cancel`) rewrites the copies of the command it names;
* `dispatch`, `expireOld`, `prune` and `restart` act on every command, each on
  its own copies;
* an accepted `enqueue` puts a fresh record in both places.

Whatever holds of a command over whole runs is proved from these transitions.
-/

namespace TradingCore.Broker

open Base CommandQueue SQLiteCommandStore Copies Dict Option

namespace GatewayStateStore

def stored (g : GatewayStateStore) : Bool := g.commandStore.isSome

def copies (g : GatewayStateStore) (id : String) : Copies :=
  ⟨g.commandQueue.records.get? id, g.commandStore.bind (·.getRecord id)⟩

/-- The shape of every reachable gateway state store. -/
structure WellFormed (g : GatewayStateStore) : Prop where
  queue : g.commandQueue.WellFormed
  store : ∀ store, g.commandStore = some store → store.WellFormed
  unnamed : g.commandQueue.records.get? "" = none

/-- Core before its first command, with a store that retains dedupe keys for
`retention` seconds or without one. -/
def empty (retention : Option Int) (expireStaleDispatched : Bool := true) :
    GatewayStateStore :=
  { commandStore := retention.map fun sec => { dedupeRetentionSec := sec }
    expireStaleDispatchedOnRecovery := expireStaleDispatched }

theorem copies_empty (retention : Option Int) (expireStaleDispatched : Bool) (id : String) :
    (empty retention expireStaleDispatched).copies id = ⟨none, none⟩ := by
  cases retention <;> rfl

theorem wellFormed_fresh (retention : Option Int) (expireStaleDispatched : Bool) :
    (empty retention expireStaleDispatched).WellFormed := by
  refine ⟨wellFormed_empty, ?_, rfl⟩
  intro store hstore
  cases retention with
  | none => cases hstore
  | some sec =>
    injection hstore with hstore
    rw [← hstore]
    exact SQLiteCommandStore.wellFormed_fresh sec

variable {g : GatewayStateStore}

theorem row_of_not_stored (h : g.stored = false) (id : String) : (g.copies id).row = none := by
  unfold stored at h
  unfold copies
  cases hs : g.commandStore with
  | none => rfl
  | some store => simp [hs] at h

/-! ## Reports -/

theorem copies_ack (g : GatewayStateStore) (commandId : String) (status : CommandStatus)
    (resultPayload : Option Mapping) (error : Option String) (wall : Time) (id : String) :
    (g.ackCommand commandId status resultPayload error wall).1.copies id =
      if id = commandId then (g.copies commandId).ack status resultPayload error wall
      else g.copies id := by
  unfold ackCommand copies
  cases hs : g.commandStore with
  | none =>
    show Copies.mk ((g.commandQueue.ack _ _ _ _ _).1.records.get? id) none = _
    rw [ack_get?]
    by_cases h : id = commandId
    · rw [if_pos h, if_pos h]
      rfl
    · rw [if_neg h, if_neg h]
      rfl
  | some store =>
    show Copies.mk ((g.commandQueue.ack _ _ _ _ _).1.records.get? id)
      ((store.updateStatus _ _ _ _ _ _ _).1.getRecord id) = _
    rw [ack_get?, getRecord_updateStatus]
    by_cases h : id = commandId
    · rw [if_pos h, if_pos h, if_pos h]
      rfl
    · rw [if_neg h, if_neg h, if_neg h]
      rfl

theorem copies_fail (hwf : g.WellFormed) (commandId error : String) (retryable : Bool) (wall : Time)
    (id : String) :
    (g.failCommand commandId error retryable wall).1.copies id =
      if id = commandId then (g.copies commandId).fail g.stored error retryable wall
      else g.copies id := by
  have hhandled := fail_handled g.commandQueue commandId error retryable wall
  have hget := fail_get? g.commandQueue commandId error retryable wall
  unfold failCommand copies stored
  cases hs : g.commandStore with
  | none =>
    show Copies.mk ((g.commandQueue.fail _ _ _ _).1.records.get? id) none = _
    rw [hget]
    by_cases h : id = commandId
    · rw [if_pos h, if_pos h]
      cases hm : g.commandQueue.records.get? commandId with
      | none => rfl
      | some record => rfl
    · rw [if_neg h, if_neg h]
      rfl
  | some store =>
    cases hm : g.commandQueue.records.get? commandId with
    | none =>
      rw [hm] at hhandled
      simp only [hhandled, isSome_none]
      show Copies.mk ((g.commandQueue.fail _ _ _ _).1.records.get? id)
        ((store.updateStatus _ _ _ _ _ _ _).1.getRecord id) = _
      rw [hget, getRecord_updateStatus]
      by_cases h : id = commandId
      · rw [if_pos h, if_pos h, if_pos h, hm]
        rfl
      · rw [if_neg h, if_neg h, if_neg h]
        rfl
    | some record =>
      have hself := hget commandId
      rw [if_pos rfl, hm, map_some] at hself
      rw [hm] at hhandled
      simp only [hhandled, isSome_some, hself]
      -- the record that is written back is filed under the id it names
      have hid : (record.fail error retryable wall).commandId = commandId :=
        (CommandRecord.sameCommand_fail record error retryable wall).commandId.trans
          (hwf.queue.filed commandId record hm).1
      show Copies.mk ((g.commandQueue.fail _ _ _ _).1.records.get? id)
        ((store.upsertRecord _ wall).getRecord id) = _
      rw [hget, getRecord_upsertRecord, hid]
      by_cases h : id = commandId
      · rw [if_pos h, if_pos h, if_pos h, hm, h]
        rfl
      · rw [if_neg h, if_neg h, if_neg h]
        rfl

theorem copies_cancel (hwf : g.WellFormed) (commandId : String) (wall : Time) (id : String) :
    (g.cancelCommand commandId wall).1.copies id =
      if id = commandId then (g.copies commandId).cancel g.stored wall else g.copies id := by
  unfold cancelCommand
  rcases cancel_cases g.commandQueue commandId wall with
    ⟨record, hm, hq, heq⟩ | ⟨hnot, heq⟩
  · -- cancelled in memory, and written back
    rw [heq, cancel_of_queued hm hq]
    have hid : (record.finish .cancelled wall).commandId = commandId :=
      (hwf.queue.filed commandId record hm).1
    unfold copies stored
    cases hs : g.commandStore with
    | none =>
      show Copies.mk ((g.commandQueue.records.set commandId _).get? id) none = _
      rw [get?_set]
      by_cases h : id = commandId
      · rw [if_pos h, if_pos h]
        rfl
      · rw [if_neg h, if_neg h]
        rfl
    | some store =>
      simp only [get?_set_self]
      show Copies.mk ((g.commandQueue.records.set commandId _).get? id)
        ((store.upsertRecord _ wall).getRecord id) = _
      rw [get?_set, getRecord_upsertRecord, hid]
      by_cases h : id = commandId
      · rw [if_pos h, if_pos h, if_pos h, h]
        rfl
      · rw [if_neg h, if_neg h, if_neg h]
        rfl
  · -- not queued in memory: only a queued row can be cancelled
    rw [heq, cancel_of_not_queued hnot]
    unfold copies
    cases hs : g.commandStore with
    | none =>
      by_cases h : id = commandId
      · simp [h]
      · simp [h]
    | some store =>
      dsimp only
      cases hrow : store.getRecord commandId with
      | none =>
        by_cases h : id = commandId
        · simp [h, hrow]
        · simp [h]
      | some record =>
        dsimp only
        by_cases hst : record.status = .queued
        · rw [if_pos hst]
          show Copies.mk (g.commandQueue.records.get? id)
            ((store.updateStatus _ _ _ _ _ _ _).1.getRecord id) = _
          rw [getRecord_updateStatus]
          by_cases h : id = commandId
          · simp [h, hrow, hst]
          · simp [h]
        · rw [if_neg hst]
          by_cases h : id = commandId
          · simp [h, hrow, hst]
          · simp [h]

/-! ## Enqueue -/

/-- The record that an enqueue creates. -/
abbrev created (digest : GatewayCommand → String) (command : GatewayCommand)
    (options : EnqueueOptions) (now : Option Time) (wall : Time) : CommandRecord :=
  CommandRecord.create digest command options (now.getD wall)

/-- Would an enqueue of the command be accepted? -/
def Admits (digest : GatewayCommand → String) (g : GatewayStateStore) (command : GatewayCommand) (wall : Time) : Prop :=
  command.commandId ≠ "" ∧
  match g.commandStore with
  | some store =>
      store.gatewayCommands.contains command.commandId = false ∧
      ∀ retained, store.retainedDedupe (dedupeKeyForCommand digest command) wall = some retained →
        retained.commandId = command.commandId
  | none =>
      g.commandQueue.activeDuplicate (dedupeKeyForCommand digest command) = none ∧
      g.commandQueue.records.contains command.commandId = false

variable (digest : GatewayCommand → String)

/-- `Admits` is the test that an enqueue makes. -/
theorem accepted_iff (g : GatewayStateStore) (command : GatewayCommand) (options : EnqueueOptions)
    (now : Option Time) (wall : Time) :
    (g.enqueueCommand digest command options now wall).2.accepted = true ↔
      Admits digest g command wall := by
  unfold enqueueCommand Admits
  by_cases hid : command.commandId = ""
  · cases g.commandStore with
    | none => simp [enqueue, hid]
    | some store => simp [hid]
  · have hkey : (CommandRecord.create digest command options (now.getD wall)).dedupeKey =
        dedupeKeyForCommand digest command := rfl
    cases hs : g.commandStore with
    | none =>
      dsimp only
      unfold enqueue
      rw [if_neg hid]
      cases hdup : g.commandQueue.activeDuplicate (dedupeKeyForCommand digest command) with
      | some duplicate => simp [hkey, hdup]
      | none =>
        cases hrec : g.commandQueue.records.get? command.commandId with
        | some existing => simp [hkey, hdup, hrec, hid, contains]
        | none => simp [hkey, hdup, hrec, hid, contains]
    | some store =>
      dsimp only
      rw [if_neg hid]
      unfold enqueueRecord
      rw [CommandRecord.create_commandId, if_neg hid]
      by_cases hrow : store.gatewayCommands.contains command.commandId = true
      · simp [hrow]
      · rw [if_neg hrow]
        rw [hkey]
        cases hret : store.retainedDedupe (dedupeKeyForCommand digest command) wall with
        | none => simp [hrow, hid]
        | some retained =>
          by_cases hsame : retained.commandId = command.commandId
          · simp [hrow, hid, hsame, filter_some]
          · simp [hsame, filter_some]

/-- The two outcomes of `enqueue_command`. -/
theorem copies_enqueue (g : GatewayStateStore) (command : GatewayCommand) (options : EnqueueOptions)
    (now : Option Time) (wall : Time) :
    ((g.enqueueCommand digest command options now wall).2.accepted = false ∧
      ∀ id, (g.enqueueCommand digest command options now wall).1.copies id = g.copies id) ∨
    ((g.enqueueCommand digest command options now wall).2.accepted = true ∧
      command.commandId ≠ "" ∧
      (g.stored = true → (g.copies command.commandId).row = none) ∧
      (g.stored = false → (g.copies command.commandId).memory = none) ∧
      ∀ id, (g.enqueueCommand digest command options now wall).1.copies id =
        if id = command.commandId then
          (g.copies command.commandId).put g.stored (created digest command options now wall)
        else g.copies id) := by
  unfold enqueueCommand
  cases hs : g.commandStore with
  | none =>
    rcases enqueue_cases digest g.commandQueue command options (now.getD wall) with
      ⟨hacc, hrec, -⟩ | ⟨hacc, hid, hnone, -, hrec, -⟩
    · refine .inl ⟨hacc, ?_⟩
      intro id
      unfold copies
      rw [hs]
      show Copies.mk ((g.commandQueue.enqueue digest command options _).1.records.get? id) none = _
      rw [hrec]
      rfl
    · refine .inr ⟨hacc, hid, ?_, fun _ => hnone, ?_⟩
      · intro h
        simp [stored, hs] at h
      · intro id
        unfold copies stored
        rw [hs]
        show Copies.mk ((g.commandQueue.enqueue digest command options _).1.records.get? id) none = _
        rw [hrec, get?_set]
        by_cases h : id = command.commandId
        · rw [if_pos h, if_pos h]
          rfl
        · rw [if_neg h, if_neg h]
          rfl
  | some store =>
    dsimp only
    by_cases hid : command.commandId = ""
    · rw [if_pos hid]
      exact .inl ⟨rfl, fun _ => rfl⟩
    · rw [if_neg hid]
      rcases enqueueRecord_cases store
          (CommandRecord.create digest command options (now.getD wall)) wall with
        ⟨hacc, hrow, -⟩ | ⟨hres, -, hnone, -, hrow, -⟩
      · refine .inl ⟨hacc, ?_⟩
        intro id
        have hrow' := hrow id
        revert hacc hrow'
        generalize store.enqueueRecord _ wall = out
        obtain ⟨store', result⟩ := out
        intro hacc hrow'
        unfold copies
        rw [hs]
        simp only at hacc hrow'
        simp [hacc, hrow']
      · refine .inr ⟨?_, hid, ?_, ?_, ?_⟩
        · simp [hres]
        · intro _
          unfold copies
          rw [hs]
          exact hnone
        · intro h
          simp [stored, hs] at h
        · intro id
          have hrow' := hrow id
          rw [getRecord_upsertRecord] at hrow'
          simp only [hres]
          unfold copies stored
          rw [hs]
          show Copies.mk ((g.commandQueue.restore _).records.get? id)
            ((store.enqueueRecord _ wall).1.getRecord id) = _
          rw [restore_get? _ hid, hrow']
          have hcid : (CommandRecord.create digest command options (now.getD wall)).commandId =
              command.commandId := rfl
          by_cases h : id = command.commandId
          · rw [if_pos (h.trans hcid.symm), if_pos (h.trans hcid.symm), if_pos h, h]
            rfl
          · rw [if_neg (fun heq => h (heq.trans hcid)), if_neg (fun heq => h (heq.trans hcid)),
              if_neg h]
            rfl

/-! ## Dispatch -/

/-- `dispatch_commands` expires both copies of every command and hands out
`sent`; only a command that is handed out, or whose attempts are used up, is
touched beyond its expiry. -/
theorem copies_dispatch (hwf : g.WellFormed) (limit : Int) (now : Option Time) (wall : Time) :
    ∃ sent : List CommandRecord,
      (g.dispatchCommands limit now wall).2 = sent.map (·.command) ∧
      (sent.map (·.commandId)).Nodup ∧
      (∀ r ∈ sent, r.command.commandId = r.commandId ∧
        ∃ old, ((g.copies r.commandId).expire (now.getD wall)).memory = some old ∧
          old.status = .queued ∧ old.attempts < old.maxAttempts ∧
          r = old.dispatch (now.getD wall) ∧
          (g.dispatchCommands limit now wall).1.copies r.commandId =
            ((g.copies r.commandId).expire (now.getD wall)).put g.stored r) ∧
      ∀ id, id ∉ sent.map (·.commandId) →
        (g.dispatchCommands limit now wall).1.copies id = (g.copies id).expire (now.getD wall) ∨
        ∃ old, ((g.copies id).expire (now.getD wall)).memory = some old ∧
          old.status = .queued ∧ old.maxAttempts ≤ old.attempts ∧
          (g.dispatchCommands limit now wall).1.copies id =
            ⟨some (old.finish .failed (now.getD wall) "MAX_ATTEMPTS_EXCEEDED"),
             ((g.copies id).expire (now.getD wall)).row⟩ := by
  have hwfd := hwf.queue.dispatch limit (now.getD wall)
  obtain ⟨sent, hcmd, hd⟩ := dispatch_spec hwf.queue limit (now.getD wall)
  have hsent : ∀ r ∈ sent, r.command.commandId = r.commandId := by
    intro r hr
    obtain ⟨old, -, -, -, -, hafter⟩ := hd.of_sent r hr
    exact (hwfd.filed r.commandId r hafter).2
  -- the rows: expired, then written over for the commands handed out
  have hrows : (∀ r ∈ sent, ((g.dispatchCommands limit now wall).1.copies r.commandId).row =
        ((g.copies r.commandId).expire (now.getD wall)).write g.stored r) ∧
      ∀ id, id ∉ sent.map (·.commandId) →
        ((g.dispatchCommands limit now wall).1.copies id).row =
          ((g.copies id).expire (now.getD wall)).row := by
    unfold copies dispatchCommands stored
    cases hs : g.commandStore with
    | none => exact ⟨fun _ _ => rfl, fun _ _ => rfl⟩
    | some store =>
      have hfold := getRecord_foldl_write
        (f := fun s r => persistDispatch (g.commandQueue.dispatch limit (now.getD wall)).1
          wall s r.command) sent
        (store.expireOldRecords true (now.getD wall)).1 (by
          intro s r hr id
          obtain ⟨old, -, -, -, -, hafter⟩ := hd.of_sent r hr
          unfold persistDispatch
          rw [hsent r hr, hafter]
          dsimp only
          rw [getRecord_appendEvent, getRecord_upsertRecord]) hd.nodup
      have hlist : ((g.commandQueue.dispatch limit (now.getD wall)).2.foldl
          (persistDispatch (g.commandQueue.dispatch limit (now.getD wall)).1 wall)
          (store.expireOldRecords true (now.getD wall)).1) =
          sent.foldl (fun s r => persistDispatch
            (g.commandQueue.dispatch limit (now.getD wall)).1 wall s r.command)
            (store.expireOldRecords true (now.getD wall)).1 := by
        rw [hcmd, List.foldl_map]
      simp only [map_some, bind_some, hlist]
      refine ⟨?_, ?_⟩
      · intro r hr
        rw [hfold.1 r hr, getRecord_expireOldRecords]
        rfl
      · intro id hid
        rw [hfold.2 id hid, getRecord_expireOldRecords]
        rfl
  refine ⟨sent, hcmd, hd.nodup, ?_, ?_⟩
  · intro r hr
    obtain ⟨old, hold, hq, hlt, hr', hafter⟩ := hd.of_sent r hr
    rw [expireOld_get?] at hold
    refine ⟨hsent r hr, old, hold, hq, hlt, hr', ?_⟩
    exact Copies.ext hafter (hrows.1 r hr)
  · intro id hid
    rcases hd.of_unsent id hid with h | ⟨old, hold, hq, hle, hafter⟩
    · rw [expireOld_get?] at h
      exact .inl (Copies.ext h (hrows.2 id hid))
    · rw [expireOld_get?] at hold
      exact .inr ⟨old, hold, hq, hle, Copies.ext hafter (hrows.2 id hid)⟩

/-! ## Expiry, pruning, restart -/

/-- `expire_old_commands` expires both copies; an expired record in memory may
also be written over its row. -/
theorem copies_expireOld (hwf : g.WellFormed) (now : Option Time) (wall : Time) (id : String) :
    (g.expireOldCommands now wall).1.copies id = (g.copies id).expire (now.getD wall) ∨
    ∃ record, ((g.copies id).expire (now.getD wall)).memory = some record ∧
      record.status = .expired ∧
      (g.expireOldCommands now wall).1.copies id =
        ((g.copies id).expire (now.getD wall)).put g.stored record := by
  have hwfe := hwf.queue.expireOld (now.getD wall)
  unfold expireOldCommands
  cases hs : g.commandStore with
  | none =>
    refine .inl (Copies.ext (expireOld_get? _ _ _) ?_)
    unfold copies Copies.expire
    rw [hs]
    rfl
  | some store =>
    dsimp only
    have hfold := getRecord_foldl_write
      (f := fun store record => store.upsertRecord record wall)
      (((g.commandQueue.expireOld (now.getD wall)).1.listAll 10000).filter (·.status = .expired))
      (store.expireOldRecords true (now.getD wall)).1
      (fun s r _ id => getRecord_upsertRecord s r wall id)
      ((List.filter_sublist.map _).nodup (listAll_nodup hwfe 10000))
    by_cases hid : id ∈ (((g.commandQueue.expireOld (now.getD wall)).1.listAll 10000).filter
        (·.status = .expired)).map (·.commandId)
    · obtain ⟨r, hr, rfl⟩ := List.mem_map.mp hid
      obtain ⟨hlist, hst⟩ := List.mem_filter.mp hr
      have hmem := mem_listAll hwfe hlist
      refine .inr ⟨r, ?_, of_decide_eq_true hst, Copies.ext hmem ?_⟩
      · rw [expireOld_get?] at hmem
        exact hmem
      · have hrow := hfold.1 r hr
        rw [getRecord_expireOldRecords] at hrow
        simp only [copies, put, write, expire, stored, hs, bind_some, isSome_some, if_true]
        exact hrow
    · refine .inl (Copies.ext (expireOld_get? _ _ _) ?_)
      have hrow := hfold.2 id hid
      rw [getRecord_expireOldRecords] at hrow
      simp only [copies, expire, hs, bind_some]
      exact hrow

theorem copies_prune (hwf : g.WellFormed) (olderThanSec : Int) (wall : Time) (id : String) :
    (g.pruneCommands olderThanSec wall).1.copies id =
      (g.copies id).prune g.stored olderThanSec wall := by
  unfold pruneCommands copies Copies.prune stored
  cases hs : g.commandStore with
  | none =>
    show Copies.mk ((g.commandQueue.prune olderThanSec wall).1.records.get? id) none = _
    rw [hwf.queue.prune_get?]
    rfl
  | some store =>
    show Copies.mk (g.commandQueue.records.get? id)
      ((store.pruneFinished olderThanSec wall).1.getRecord id) = _
    rw [getRecord_pruneFinished]
    rfl

theorem copies_restart (hwf : g.WellFormed) (hs : g.stored = true) (wall : Time) (id : String) :
    (g.restart wall).copies id = (g.copies id).restart g.expireStaleDispatchedOnRecovery wall := by
  obtain ⟨store, hstore⟩ := isSome_iff_exists.mp hs
  have hwfs := hwf.store store hstore
  -- the rows that recovery loads
  have hwfe : (store.expireOldRecords g.expireStaleDispatchedOnRecovery wall).1.WellFormed := by
    refine ⟨?_, ?_⟩
    · intro id record h
      rw [getRecord_expireOldRecords] at h
      obtain ⟨old, hold, rfl⟩ := map_eq_some_iff.mp h
      have hsame := CommandRecord.sameCommand_expiredRecord g.expireStaleDispatchedOnRecovery wall old
      obtain ⟨hid, hcid⟩ := hwfs.filed id old hold
      exact ⟨hsame.commandId.trans hid, by rw [hsame.command]; exact hcid⟩
    · rw [getRecord_expireOldRecords, hwfs.named]
      rfl
  have hmem := mem_loadRecoverableRecords
    (s := (store.expireOldRecords g.expireStaleDispatchedOnRecovery wall).1) wall
  have hfold := foldl_restore_get?
    ((store.expireOldRecords g.expireStaleDispatchedOnRecovery wall).1.loadRecoverableRecords wall)
    {} (hwfe.loadRecoverableRecords_nodup wall) (by
      intro r hr hempty
      obtain ⟨id, hid, -, -⟩ := (hmem r).mp hr
      rw [(hwfe.filed id r hid).1.symm.trans hempty, hwfe.named] at hid
      cases hid)
  have hrow : ((g.restart wall).copies id).row = (g.copies id).row.map
      (expiredRecord g.expireStaleDispatchedOnRecovery wall) := by
    simp only [copies, restart, recoverFromStore, hstore, bind_some]
    exact getRecord_expireOldRecords store _ wall id
  refine Copies.ext ?_ hrow
  show ((g.restart wall).commandQueue).records.get? id = _
  simp only [restart, recoverFromStore, hstore]
  unfold Copies.restart
  have hrow' : (g.copies id).row.map
      (expiredRecord g.expireStaleDispatchedOnRecovery wall) =
      (store.expireOldRecords g.expireStaleDispatchedOnRecovery wall).1.getRecord id := by
    rw [getRecord_expireOldRecords]
    simp only [copies, hstore, bind_some]
  rw [hrow']
  by_cases hin : id ∈ ((store.expireOldRecords g.expireStaleDispatchedOnRecovery
      wall).1.loadRecoverableRecords wall).map (·.commandId)
  · obtain ⟨r, hr, rfl⟩ := List.mem_map.mp hin
    rw [hfold.1 r hr]
    obtain ⟨id, hid, hq, he⟩ := (hmem r).mp hr
    rw [(hwfe.filed id r hid).1, hid]
    dsimp only
    rw [filter_some, if_pos (by simp [hq, he])]
  · rw [hfold.2 id hin]
    show none = _
    symm
    rw [filter_eq_none_iff]
    intro r hr hp
    simp only [Bool.and_eq_true, decide_eq_true_eq, Bool.not_eq_true'] at hp
    refine hin (List.mem_map.mpr ⟨r, (hmem r).mpr ⟨id, hr, hp.1, hp.2⟩, ?_⟩)
    exact (hwfe.filed id r hr).1

/-! ## Every step -/

theorem stored_next (g : GatewayStateStore) (s : Step) :
    ((machine digest).next g s).stored = g.stored := by
  obtain ⟨call, wall⟩ := s
  cases call with
  | enqueue command options now =>
    show (g.enqueueCommand digest command options now wall).1.stored = g.stored
    unfold enqueueCommand stored
    cases hs : g.commandStore with
    | none => rfl
    | some store =>
      dsimp only
      split
      · rw [hs]
      · rfl
  | dispatch limit now =>
    show (g.dispatchCommands limit now wall).1.stored = g.stored
    unfold dispatchCommands stored
    cases g.commandStore <;> rfl
  | ack commandId status resultPayload error =>
    show (g.ackCommand commandId status resultPayload error wall).1.stored = g.stored
    unfold ackCommand stored
    cases hs : g.commandStore with
    | none => rfl
    | some store => rfl
  | fail commandId error retryable =>
    show (g.failCommand commandId error retryable wall).1.stored = g.stored
    unfold failCommand stored
    cases hs : g.commandStore with
    | none => rfl
    | some store =>
      dsimp only
      split
      · rfl
      · rfl
  | cancel commandId =>
    show (g.cancelCommand commandId wall).1.stored = g.stored
    unfold cancelCommand stored
    cases hs : g.commandStore with
    | none => rfl
    | some store =>
      dsimp only
      split
      · rfl
      · split
        · split
          · rfl
          · rfl
        · rfl
  | expireOld now =>
    show (g.expireOldCommands now wall).1.stored = g.stored
    unfold expireOldCommands stored
    cases hs : g.commandStore with
    | none => rfl
    | some store => rfl
  | prune olderThanSec =>
    show (g.pruneCommands olderThanSec wall).1.stored = g.stored
    unfold pruneCommands stored
    cases hs : g.commandStore with
    | none => rfl
    | some store => rfl
  | restart =>
    show (g.restart wall).stored = g.stored
    unfold restart recoverFromStore stored
    cases g.commandStore <;> rfl

section

variable (hwf : g.WellFormed)
include hwf

variable (digest : GatewayCommand → String)

/-- What a step does to the copies of a command: it derives them from the
copies before, or it is the accepted enqueue of that command. -/
theorem derived_next (s : Step) (hs : g.stored = true ∨ s.call ≠ .restart) (id : String) :
    Derived (g.copies id) (((machine digest).next g s).copies id) ∨
    ∃ command options now, s.call = .enqueue command options now ∧ id = command.commandId ∧
      (g.enqueueCommand digest command options now s.wall).2.accepted = true ∧
      id ≠ "" ∧
      ((machine digest).next g s).copies id =
        (g.copies id).put g.stored (created digest command options now s.wall) := by
  obtain ⟨call, wall⟩ := s
  cases call with
  | enqueue command options now =>
    rcases copies_enqueue digest g command options now wall with
      ⟨-, hsame⟩ | ⟨hacc, hnamed, -, -, hput⟩
    · refine .inl ?_
      show Derived _ ((g.enqueueCommand digest command options now wall).1.copies id)
      rw [hsame]
      exact derived_of_sub fun _ h => h
    · have hid := hput id
      by_cases h : id = command.commandId
      · rw [if_pos h, ← h] at hid
        exact .inr ⟨command, options, now, rfl, h, hacc, h ▸ hnamed, hid⟩
      · rw [if_neg h] at hid
        refine .inl ?_
        show Derived _ ((g.enqueueCommand digest command options now wall).1.copies id)
        rw [hid]
        exact derived_of_sub fun _ h => h
  | dispatch limit now =>
    refine .inl ?_
    show Derived _ ((g.dispatchCommands limit now wall).1.copies id)
    obtain ⟨sent, -, -, hsent, hunsent⟩ := copies_dispatch hwf limit now wall
    refine (derived_expire (g.copies id) (now.getD wall)).trans ?_
    by_cases hid : id ∈ sent.map (·.commandId)
    · obtain ⟨r, hr, rfl⟩ := List.mem_map.mp hid
      obtain ⟨-, old, hold, -, -, hr', hput⟩ := hsent r hr
      rw [hput]
      refine derived_put (.inl hold) ?_ g.stored
      rw [hr']
      exact ⟨CommandRecord.sameCommand_dispatch old _, Nat.le_succ _⟩
    · rcases hunsent id hid with h | ⟨old, hold, -, -, h⟩
      · rw [h]
        exact derived_of_sub fun _ h => h
      · rw [h]
        rintro record (hm | hr)
        · injection hm with hm
          exact ⟨old, .inl hold, hm ▸ .finish old _ _ _ _⟩
        · exact ⟨record, .inr hr, .rfl⟩
  | ack commandId status resultPayload error =>
    refine .inl ?_
    show Derived _ ((g.ackCommand commandId status resultPayload error wall).1.copies id)
    rw [copies_ack]
    split
    · rename_i h
      rw [h]
      exact derived_ack _ _ _ _ _
    · exact derived_of_sub fun _ h => h
  | fail commandId error retryable =>
    refine .inl ?_
    show Derived _ ((g.failCommand commandId error retryable wall).1.copies id)
    rw [copies_fail hwf]
    split
    · rename_i h
      rw [h]
      exact derived_fail _ _ _ _ _
    · exact derived_of_sub fun _ h => h
  | cancel commandId =>
    refine .inl ?_
    show Derived _ ((g.cancelCommand commandId wall).1.copies id)
    rw [copies_cancel hwf]
    split
    · rename_i h
      rw [h]
      exact derived_cancel _ _ _
    · exact derived_of_sub fun _ h => h
  | expireOld now =>
    refine .inl ?_
    show Derived _ ((g.expireOldCommands now wall).1.copies id)
    refine (derived_expire (g.copies id) (now.getD wall)).trans ?_
    rcases copies_expireOld hwf now wall id with h | ⟨record, hm, -, h⟩
    · rw [h]
      exact derived_of_sub fun _ h => h
    · rw [h]
      exact derived_put (.inl hm) .rfl g.stored
  | prune olderThanSec =>
    refine .inl ?_
    show Derived _ ((g.pruneCommands olderThanSec wall).1.copies id)
    rw [copies_prune hwf]
    exact derived_prune _ _ _ _
  | restart =>
    refine .inl ?_
    show Derived _ ((g.restart wall).copies id)
    rw [copies_restart hwf (hs.resolve_right (fun h => h rfl))]
    exact derived_restart _ _ _

theorem queue_wellFormed_next (s : Step) : ((machine digest).next g s).commandQueue.WellFormed := by
  have hq := hwf.queue
  obtain ⟨call, wall⟩ := s
  cases call with
  | enqueue command options now =>
    show (g.enqueueCommand digest command options now wall).1.commandQueue.WellFormed
    unfold enqueueCommand
    cases hs : g.commandStore with
    | none => exact hq.enqueue digest command options _
    | some store =>
      dsimp only
      split
      · exact hq
      · rcases enqueueRecord_cases store
            (CommandRecord.create digest command options (now.getD wall)) wall with
          ⟨hacc, -⟩ | ⟨hres, -⟩
        · revert hacc
          generalize store.enqueueRecord _ wall = out
          intro hacc
          simp only [hacc]
          exact hq
        · simp only [hres]
          exact hq.restore rfl
  | dispatch limit now => exact hq.dispatch limit _
  | ack commandId status resultPayload error =>
    show (g.ackCommand commandId status resultPayload error wall).1.commandQueue.WellFormed
    unfold ackCommand
    cases g.commandStore with
    | none => exact hq.ack commandId status resultPayload error wall
    | some store => exact hq.ack commandId status resultPayload error wall
  | fail commandId error retryable =>
    show (g.failCommand commandId error retryable wall).1.commandQueue.WellFormed
    unfold failCommand
    cases g.commandStore with
    | none => exact hq.fail commandId error retryable wall
    | some store =>
      dsimp only
      split
      · exact hq.fail commandId error retryable wall
      · exact hq.fail commandId error retryable wall
  | cancel commandId =>
    show (g.cancelCommand commandId wall).1.commandQueue.WellFormed
    have hc := hq.cancel commandId wall
    unfold cancelCommand
    cases g.commandStore with
    | none => exact hc
    | some store =>
      dsimp only
      split
      · exact hc
      · split
        · split
          · exact hc
          · exact hc
        · exact hc
  | expireOld now =>
    show (g.expireOldCommands now wall).1.commandQueue.WellFormed
    unfold expireOldCommands
    cases g.commandStore with
    | none => exact hq.expireOld _
    | some store => exact hq.expireOld _
  | prune olderThanSec =>
    show (g.pruneCommands olderThanSec wall).1.commandQueue.WellFormed
    unfold pruneCommands
    cases g.commandStore with
    | none => exact hq.prune olderThanSec wall
    | some store => exact hq
  | restart =>
    show (g.restart wall).commandQueue.WellFormed
    unfold restart recoverFromStore
    cases hs : g.commandStore with
    | none => exact wellFormed_empty
    | some store =>
      refine WellFormed.foldl_restore wellFormed_empty _ ?_
      intro r hr
      obtain ⟨id, hid, -, -⟩ := (mem_loadRecoverableRecords wall r).mp hr
      rw [getRecord_expireOldRecords] at hid
      obtain ⟨old, hold, rfl⟩ := map_eq_some_iff.mp hid
      have hsame := CommandRecord.sameCommand_expiredRecord
        g.expireStaleDispatchedOnRecovery wall old
      obtain ⟨h₁, h₂⟩ := (hwf.store store hs).filed id old hold
      rw [hsame.command, hsame.commandId, h₁, h₂]

theorem WellFormed.filed {id : String} {record : CommandRecord} (h : (g.copies id).Has record) :
    record.commandId = id ∧ record.command.commandId = id := by
  rcases h with hm | hr
  · exact hwf.queue.filed id record hm
  · cases hs : g.commandStore with
    | none =>
      simp [copies, hs] at hr
    | some store =>
      refine (hwf.store store hs).filed id record ?_
      simpa only [copies, hs, bind_some] using hr

theorem WellFormed.named (record : CommandRecord) : ¬ (g.copies "").Has record := by
  rintro (hm | hr)
  · rw [show (g.copies "").memory = none from hwf.unnamed] at hm
    cases hm
  · cases hs : g.commandStore with
    | none => simp [copies, hs] at hr
    | some store =>
      simp only [copies, hs, bind_some, (hwf.store store hs).named] at hr
      cases hr

theorem WellFormed.next (s : Step) (hs : g.stored = true ∨ s.call ≠ .restart) :
    ((machine digest).next g s).WellFormed := by
  have hcopies : ∀ id record, (((machine digest).next g s).copies id).Has record →
      (record.commandId = id ∧ record.command.commandId = id) ∧ id ≠ "" := by
    intro id record hrec
    have hold : ∀ old, (g.copies id).Has old → CommandRecord.SameCommand old record →
        (record.commandId = id ∧ record.command.commandId = id) ∧ id ≠ "" := by
      intro old hold hsame
      obtain ⟨h₁, h₂⟩ := hwf.filed hold
      refine ⟨⟨hsame.commandId.trans h₁, by rw [hsame.command]; exact h₂⟩, ?_⟩
      intro hempty
      rw [hempty] at hold
      exact hwf.named old hold
    rcases derived_next hwf digest s hs id with hd | ⟨command, options, now, -, hid, -, hne, hput⟩
    · obtain ⟨old, hhas, hcont⟩ := hd record hrec
      exact hold old hhas hcont.same
    · rw [hput] at hrec
      refine ⟨?_, hne⟩
      rcases hrec with hm | hr
      · injection hm with hm
        rw [← hm, hid]
        exact ⟨rfl, rfl⟩
      · rw [row_put hr, hid]
        exact ⟨rfl, rfl⟩
  refine ⟨queue_wellFormed_next hwf digest s, ?_, ?_⟩
  · intro store hstore
    have hrow : ∀ id, (((machine digest).next g s).copies id).row = store.getRecord id := by
      intro id
      simp only [copies, hstore, bind_some]
    refine ⟨?_, ?_⟩
    · intro id record hrec
      exact (hcopies id record (.inr ((hrow id).trans hrec))).1
    · cases hget : store.getRecord "" with
      | none => rfl
      | some record => exact absurd rfl (hcopies "" record (.inr ((hrow "").trans hget))).2
  · cases hget : ((machine digest).next g s).commandQueue.records.get? "" with
    | none => rfl
    | some record => exact absurd rfl (hcopies "" record (.inl hget)).2

end

end GatewayStateStore

end TradingCore.Broker
