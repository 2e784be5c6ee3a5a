import TradingCore.Broker.DispatchOnce
import TradingCore.Broker.KnownCommands

/-!
# The keys that a command holds

A command is enqueued under one dedupe key, and its records and the ledger entries that name it
stay under that key as long as no other command is enqueued under its id (`holdsOnly_next`). So the
command that `duplicate_of` answers for a key has no other key (`key_of_duplicateOf`), and commands
with different keys are different.
-/

namespace TradingCore.Broker

open Base CommandRecord Option CommandQueue

namespace GatewayStateStore

def outstanding (g : GatewayStateStore) (commandId : String) : Bool :=
  (g.getCommand commandId).any fun record => !record.finished

/-- The id is on record: a copy is filed under it, or a ledger entry names it. -/
def Named (g : GatewayStateStore) (id : String) : Prop :=
  (∃ record, (g.copies id).Has record) ∨ ∃ key entry, g.ledger key = some entry ∧ entry.1 = id

/-- All that is on record of a command is under one key. -/
structure HoldsOnly (g : GatewayStateStore) (id key : String) : Prop where
  copies : ∀ record, (g.copies id).Has record → record.dedupeKey = key
  ledger : ∀ other entry, g.ledger other = some entry → entry.1 = id → other = key

def KeyedOnce (g : GatewayStateStore) : Prop := ∀ id, ∃ key, g.HoldsOnly id key

/-- The shape of a reachable gateway state store, with or without a command store. -/
structure Serving (g : GatewayStateStore) : Prop where
  wellFormed : g.WellFormed
  retaining : g.stored = true → ∃ retention, g.Retaining retention

/-- The step enqueues the command, and it is accepted. -/
def Accepts (digest : GatewayCommand → String) (g : GatewayStateStore) (s : Step)
    (command : GatewayCommand) : Prop :=
  ∃ options now, s.call = .enqueue command options now ∧
    (g.enqueueCommand digest command options now s.wall).2.accepted = true

variable {g : GatewayStateStore} {digest : GatewayCommand → String} {id key : String}

/-! ## Without a store -/

theorem ledger_of_not_stored (h : g.stored = false) (key : String) : g.ledger key = none := by
  unfold stored at h
  unfold ledger
  cases hs : g.commandStore with
  | none => rfl
  | some store =>
    rw [hs] at h
    cases h

theorem restart_of_not_stored (h : g.stored = false) (wall : Time) :
    g.restart wall = empty none g.expireStaleDispatchedOnRecovery := by
  unfold stored at h
  unfold restart recoverFromStore
  cases hs : g.commandStore with
  | none => rfl
  | some store =>
    rw [hs] at h
    cases h

theorem wellFormed_next (hwf : g.WellFormed) (digest : GatewayCommand → String) (s : Step) :
    ((machine digest).next g s).WellFormed := by
  by_cases hrestart : g.stored = true ∨ s.call ≠ .restart
  · exact hwf.next digest s hrestart
  · rw [not_or, Bool.not_eq_true, not_not] at hrestart
    obtain ⟨hstored, hcall⟩ := hrestart
    obtain ⟨call, wall⟩ := s
    obtain rfl : call = .restart := hcall
    show (g.restart wall).WellFormed
    rw [restart_of_not_stored hstored]
    exact wellFormed_fresh _ _

theorem serving_empty (retention : Option Int) (expireStaleDispatched : Bool) :
    (empty retention expireStaleDispatched).Serving := by
  refine ⟨wellFormed_fresh retention expireStaleDispatched, fun hstored => ?_⟩
  cases retention with
  | none => cases hstored
  | some retention => exact ⟨retention, retaining_empty retention expireStaleDispatched⟩

theorem Serving.next (h : g.Serving) (digest : GatewayCommand → String) (s : Step) :
    ((machine digest).next g s).Serving := by
  refine ⟨wellFormed_next h.wellFormed digest s, fun hstored => ?_⟩
  rw [stored_next] at hstored
  obtain ⟨retention, hretaining⟩ := h.retaining hstored
  exact ⟨retention, hretaining.next digest s⟩

/-! ## One key a command -/

theorem holdsOnly_of_not_named (h : ¬ g.Named id) (key : String) : g.HoldsOnly id key := by
  refine ⟨?_, ?_⟩
  · intro record hrecord
    exact absurd (.inl ⟨record, hrecord⟩) h
  · intro other entry hentry hid
    exact absurd (.inr ⟨other, entry, hentry, hid⟩) h

theorem not_named_empty (retention : Option Int) (expireStaleDispatched : Bool) (id : String) :
    ¬ (empty retention expireStaleDispatched).Named id := by
  rintro (⟨record, hrecord⟩ | ⟨key, entry, hentry, -⟩)
  · rw [copies_empty] at hrecord
    rcases hrecord with hmemory | hrow
    · cases hmemory
    · cases hrow
  · cases retention with
    | none => cases hentry
    | some retention => cases hentry

theorem keyedOnce_empty (retention : Option Int) (expireStaleDispatched : Bool) :
    (empty retention expireStaleDispatched).KeyedOnce := fun id =>
  ⟨"", holdsOnly_of_not_named (not_named_empty retention expireStaleDispatched id) ""⟩

variable {record : CommandRecord} {commandId : String}

theorem writtenBack_from (hwf : g.WellFormed) {s : Step} (hmem : record ∈ g.writtenBack s) :
    ∃ old, (g.copies record.commandId).Has old ∧ old.dedupeKey = record.dedupeKey := by
  have hold : ∀ {id old}, g.commandQueue.records.get? id = some old →
      SameCommand old record →
        ∃ old, (g.copies record.commandId).Has old ∧ old.dedupeKey = record.dedupeKey := by
    intro id old hget hsame
    refine ⟨old, .inl ?_, hsame.dedupeKey.symm⟩
    rw [hsame.commandId, (hwf.queue.filed id old hget).1]
    exact hget
  obtain ⟨call, wall⟩ := s
  cases call with
  | dispatch limit now =>
    obtain ⟨command, -, hget⟩ := List.mem_filterMap.mp hmem
    obtain ⟨old, hget', hsame⟩ := dispatch_get? hwf.queue _ _ hget
    exact hold hget' hsame
  | fail commandId error retryable =>
    obtain ⟨old, hget, rfl⟩ := map_eq_some_iff.mp (mem_toList.mp hmem)
    exact hold hget (sameCommand_fail old error retryable wall)
  | cancel commandId =>
    obtain ⟨old, hget, rfl⟩ := map_eq_some_iff.mp (mem_toList.mp hmem)
    exact hold (filter_eq_some_iff.mp hget).1 (sameCommand_finish old ..)
  | expireOld now =>
    have hget := mem_listAll (hwf.queue.expireOld _) (List.mem_filter.mp hmem).1
    rw [expireOld_get?] at hget
    obtain ⟨old, hget', heq⟩ := map_eq_some_iff.mp hget
    exact hold hget' (heq ▸ sameCommand_expire old _)
  | enqueue command options now => cases hmem
  | ack commandId status resultPayload error => cases hmem
  | prune olderThanSec => cases hmem
  | restart => cases hmem

theorem holdsOnly_next (hg : g.Serving) (digest : GatewayCommand → String) (s : Step)
    (h : g.HoldsOnly id key)
    (hother : ∀ command, g.Accepts digest s command → command.commandId ≠ id) :
    ((machine digest).next g s).HoldsOnly id key := by
  cases hstored : g.stored with
  | false =>
    have hstored' := (stored_next digest g s).trans hstored
    refine ⟨?_, ?_⟩
    · intro record hrecord
      by_cases hrestart : s.call = .restart
      · obtain ⟨call, wall⟩ := s
        obtain rfl : call = .restart := hrestart
        change ((g.restart wall).copies id).Has record at hrecord
        rw [restart_of_not_stored hstored, copies_empty] at hrecord
        rcases hrecord with hmemory | hrow
        · cases hmemory
        · cases hrow
      · rcases derived_next hg.wellFormed digest s (.inr hrestart) id with
          hderived | ⟨command, options, now, hcall, rfl, haccepted, -, -⟩
        · obtain ⟨old, hold, hcontinues⟩ := hderived record hrecord
          rw [hcontinues.same.dedupeKey]
          exact h.copies old hold
        · exact absurd rfl (hother command ⟨options, now, hcall, haccepted⟩)
    · intro other entry hentry
      rw [ledger_of_not_stored hstored'] at hentry
      cases hentry
  | true =>
    obtain ⟨retention, hretaining⟩ := hg.retaining hstored
    refine ⟨?_, ?_⟩
    · intro record hrecord
      rcases derived_next hg.wellFormed digest s (.inl hstored) id with
        hderived | ⟨command, options, now, hcall, rfl, haccepted, -, -⟩
      · obtain ⟨old, hold, hcontinues⟩ := hderived record hrecord
        rw [hcontinues.same.dedupeKey]
        exact h.copies old hold
      · exact absurd rfl (hother command ⟨options, now, hcall, haccepted⟩)
    · intro other entry hentry hid
      have hstep := (ledgered_next hretaining digest s).ledger other
      rw [hentry] at hstep
      generalize hnext : some entry = next at hstep
      cases hstep with
      | same => exact h.ledger other entry hnext.symm hid
      | dropped => cases hnext
      | written record hmem hkey =>
        obtain rfl := some.inj hnext
        obtain ⟨old, hold, hsame⟩ := writtenBack_from hg.wellFormed hmem
        rw [show record.commandId = id from hid] at hold
        rw [← hkey, ← hsame]
        exact h.copies old hold
      | enqueued command options now hcall hadmits =>
        obtain rfl := some.inj hnext
        refine absurd hid (hother command ⟨options, now, hcall, ?_⟩)
        exact (accepted_iff digest g command options now s.wall).mpr hadmits

theorem holdsOnly_accepted (hg : g.Serving) {s : Step} {command : GatewayCommand}
    (hnew : ¬ g.Named command.commandId) (haccepts : g.Accepts digest s command) :
    ((machine digest).next g s).HoldsOnly command.commandId
      (dedupeKeyForCommand digest command) := by
  obtain ⟨options, now, hcall, haccepted⟩ := haccepts
  obtain ⟨call, wall⟩ := s
  obtain rfl : call = .enqueue command options now := hcall
  refine ⟨?_, ?_⟩
  · intro record hrecord
    rcases copies_enqueue digest g command options now wall with
      ⟨hrefused, -⟩ | ⟨-, -, -, -, hput⟩
    · rw [haccepted] at hrefused
      cases hrefused
    · have hself := hput command.commandId
      rw [if_pos rfl] at hself
      change ((g.enqueueCommand digest command options now wall).1.copies
        command.commandId).Has record at hrecord
      rw [hself] at hrecord
      exact (Copies.has_put hrecord).dedupeKey
  · intro other entry hentry hid
    cases hstored : g.stored with
    | false =>
      rw [ledger_of_not_stored ((stored_next digest g _).trans hstored)] at hentry
      cases hentry
    | true =>
      obtain ⟨retention, hretaining⟩ := hg.retaining hstored
      change (g.enqueueCommand digest command options now wall).1.ledger other = _ at hentry
      rw [(ledger_enqueueCommand hretaining digest command options now wall).2 other] at hentry
      by_cases hkey : dedupeKeyForCommand digest command = other
      · exact hkey.symm
      · rw [if_neg fun h => hkey h.2] at hentry
        exact absurd (.inr ⟨other, entry, hentry, hid⟩) hnew

theorem KeyedOnce.next (hg : g.Serving) (h : g.KeyedOnce) (digest : GatewayCommand → String)
    (s : Step) (hnew : ∀ command, g.Accepts digest s command → ¬ g.Named command.commandId) :
    ((machine digest).next g s).KeyedOnce := by
  intro id
  by_cases haccepts : ∃ command, g.Accepts digest s command ∧ command.commandId = id
  · obtain ⟨command, haccepts, rfl⟩ := haccepts
    exact ⟨_, holdsOnly_accepted hg (hnew command haccepts) haccepts⟩
  · obtain ⟨key, hkey⟩ := h id
    exact ⟨key, holdsOnly_next hg digest s hkey fun command hcommand hid =>
      haccepts ⟨command, hcommand, hid⟩⟩

theorem key_of_duplicateOf (hg : g.Serving) {wall : Time} (hduplicate : g.duplicateOf key wall = id)
    (hid : id ≠ "") {held : String} (h : g.HoldsOnly id held) : key = held := by
  unfold duplicateOf at hduplicate
  cases hs : g.commandStore with
  | none =>
    rw [hs] at hduplicate
    dsimp only at hduplicate
    cases hactive : g.commandQueue.activeDuplicate key with
    | none =>
      rw [hactive] at hduplicate
      exact absurd hduplicate.symm hid
    | some record =>
      rw [hactive] at hduplicate
      unfold activeDuplicate at hactive
      split at hactive
      · cases hactive
      · obtain ⟨hfound, hkey⟩ : record ∈ g.commandQueue.records.values ∧
            record.dedupeKey = key := by
          refine ⟨List.mem_of_find?_eq_some hactive, ?_⟩
          have := List.find?_some hactive
          rw [Bool.and_eq_true] at this
          exact of_decide_eq_true this.1
        obtain ⟨filed, hget⟩ := Dict.mem_values_iff.mp hfound
        have hfiled := (hg.wellFormed.queue.filed filed record hget).1
        rw [← hkey]
        refine h.copies record (.inl ?_)
        rw [← show record.commandId = id from hduplicate, hfiled]
        exact hget
  | some store =>
    rw [hs] at hduplicate
    dsimp only at hduplicate
    cases hretained : store.retainedDedupe key wall with
    | none =>
      rw [hretained] at hduplicate
      exact absurd hduplicate.symm hid
    | some row =>
      rw [hretained] at hduplicate
      unfold SQLiteCommandStore.retainedDedupe at hretained
      split at hretained
      · cases hretained
      · have hrow := (filter_eq_some_iff.mp hretained).1
        refine h.ledger key (row.commandId, row.commandType, row.expiresAt) ?_ hduplicate
        unfold ledger SQLiteCommandStore.ledger
        rw [hs, bind_some, hrow]
        rfl

theorem duplicateOf_enqueue {command : GatewayCommand} {wall : Time}
    (hfree : g.duplicateOf (dedupeKeyForCommand digest command) wall = "")
    (options : EnqueueOptions) (now : Option Time) :
    (g.enqueueCommand digest command options now wall).2.duplicateOf = "" ∨
      (g.enqueueCommand digest command options now wall).2.duplicateOf = command.commandId := by
  unfold duplicateOf at hfree
  unfold enqueueCommand
  cases hs : g.commandStore with
  | none =>
    rw [hs] at hfree
    dsimp only at hfree ⊢
    unfold enqueue
    by_cases hid : command.commandId = ""
    · rw [if_pos hid]
      exact .inl rfl
    · rw [if_neg hid]
      dsimp only [create_commandId]
      cases hactive : g.commandQueue.activeDuplicate (dedupeKeyForCommand digest command) with
      | some duplicate =>
        rw [hactive] at hfree
        rw [show (create digest command options (now.getD wall)).dedupeKey =
          dedupeKeyForCommand digest command from rfl, hactive]
        exact .inl hfree
      | none =>
        rw [show (create digest command options (now.getD wall)).dedupeKey =
          dedupeKeyForCommand digest command from rfl, hactive]
        dsimp only
        cases g.commandQueue.records.get? command.commandId with
        | some existing => exact .inr rfl
        | none => exact .inl rfl
  | some store =>
    rw [hs] at hfree
    dsimp only at hfree ⊢
    by_cases hid : command.commandId = ""
    · rw [if_pos hid]
      exact .inl rfl
    · rw [if_neg hid]
      unfold SQLiteCommandStore.enqueueRecord
      rw [create_commandId, if_neg hid]
      by_cases hrow : store.gatewayCommands.contains command.commandId = true
      · rw [if_pos hrow]
        exact .inr rfl
      · rw [if_neg hrow, show (create digest command options
          (now.getD wall)).dedupeKey = dedupeKeyForCommand digest command from rfl]
        cases hretained : (store.retainedDedupe (dedupeKeyForCommand digest command)
            wall).filter (fun retained => retained.commandId ≠ command.commandId) with
        | none => exact .inl rfl
        | some retained =>
          rw [(filter_eq_some_iff.mp hretained).1] at hfree
          exact .inl hfree

/-! ## Commands that are not finished -/

theorem outstanding_iff :
    g.outstanding commandId = true ↔
    ∃ record, (g.copies commandId).current g.stored = some record ∧ record.finished = false := by
  unfold outstanding
  rw [getCommand_eq, any_eq_true]
  simp only [Bool.not_eq_true']

theorem unfinished_of_expiredFrom {old : CommandRecord} (h : ExpiredFrom old record)
    (hunfinished : record.finished = false) : old.finished = false := by
  rcases h.status with hsame | hexpired
  · unfold finished at hunfinished ⊢
    rw [← hsame]
    exact hunfinished
  · unfold finished at hunfinished
    rw [hexpired] at hunfinished
    exact absurd hunfinished (by decide)

theorem current_expire_from {stored : Bool} {c : Copies} {now : Time}
    (h : (c.expire now).current stored = some record) :
    ∃ old, c.current stored = some old ∧ ExpiredFrom old record := by
  cases stored with
  | true =>
    obtain ⟨old, hold, rfl⟩ := map_eq_some_iff.mp h
    exact ⟨old, hold, expiredFrom_expiredRecord _ _ old⟩
  | false =>
    obtain ⟨old, hold, rfl⟩ := map_eq_some_iff.mp h
    exact ⟨old, hold, expiredFrom_expire old now⟩

theorem outstanding_expireOld (hwf : g.WellFormed) (now : Option Time) (wall : Time)
    (h : (g.expireOldCommands now wall).1.outstanding commandId = true) :
    g.outstanding commandId = true := by
  have hstored : (g.expireOldCommands now wall).1.stored = g.stored :=
    stored_next (fun _ => "") g ⟨.expireOld now, wall⟩
  obtain ⟨record, hrecord, hunfinished⟩ := outstanding_iff.mp h
  rw [hstored] at hrecord
  rcases copies_expireOld hwf now wall commandId with hcopies | ⟨written, -, hexpired, hcopies⟩
  · rw [hcopies] at hrecord
    obtain ⟨old, hold, hfrom⟩ := current_expire_from hrecord
    exact outstanding_iff.mpr ⟨old, hold, unfinished_of_expiredFrom hfrom hunfinished⟩
  · -- an expired record that is written back is finished in both places
    rw [hcopies] at hrecord
    have hstatus : record.status = .expired := by
      rcases Copies.has_of_current hrecord with hmemory | hrow
      · rw [← some.inj hmemory, hexpired]
      · rw [Copies.row_put hrow, writtenOver_status, hexpired]
    unfold finished at hunfinished
    rw [hstatus] at hunfinished
    exact absurd hunfinished (by decide)

theorem outstanding_enqueue (digest : GatewayCommand → String) (g : GatewayStateStore)
    (command : GatewayCommand) (options : EnqueueOptions) (now : Option Time) (wall : Time)
    (hother : commandId ≠ command.commandId) :
    (g.enqueueCommand digest command options now wall).1.outstanding commandId =
      g.outstanding commandId := by
  have hstored : (g.enqueueCommand digest command options now wall).1.stored = g.stored :=
    stored_next digest g ⟨.enqueue command options now, wall⟩
  unfold outstanding
  rw [getCommand_eq, getCommand_eq, hstored]
  rcases copies_enqueue digest g command options now wall with ⟨-, hsame⟩ | ⟨-, -, -, -, hput⟩
  · rw [hsame]
  · rw [hput, if_neg hother]

end GatewayStateStore

end TradingCore.Broker
