import TradingCore.Realtime.SubscriptionManager

/-!
# The manager and the Gateway agree when quiet

A code leaves the map of codes when its removal is asked for and enters it when its registration
is acknowledged; what is registered at the Gateway changes when a command is run. In between, a
command whose answer is awaited has to make up for the difference. It does so unless a removal is
rejected, a command is given up, or an answer undoes what was asked for since: the condition under
which a run keeps agreement says so event by event.
-/

namespace TradingCore.Realtime

open Base Candidates RealtimeWorld Exchange RealtimeCommand List Dict

/-! ## What a command is about -/

namespace RealtimeCommand

def Requests (command : RealtimeCommand) (code : String) : Prop :=
  command.commandType = .registerRealtime ∧ code ∈ command.codes
deriving Decidable

/-- Running the command registers the code on the screen. -/
def Registers (command : RealtimeCommand) (screen : Nat) (code : String) : Prop :=
  command.Requests code ∧ command.screenNo = some screen
deriving Decidable

/-- Running the command ends the registration of the code on the screen. -/
def Removes (command : RealtimeCommand) (screen : Nat) (code : String) : Prop :=
  command.commandType = .removeRealtime ∧ code ∈ command.codes ∧ command.screenNo = some screen ∨
    command.commandType = .removeAllRealtime
deriving Decidable

/-- The acknowledgement of the command takes the code out of the map of codes. -/
def Drops (command : RealtimeCommand) (code : String) : Prop :=
  command.commandType = .removeRealtime ∧ code ∈ command.codes ∨
    command.commandType = .removeAllRealtime
deriving Decidable

end RealtimeCommand

namespace IssuedCommand

/-- A registration that the manager does not record is settled by the command: it will be removed
when the command is run, or recorded when it is acknowledged. -/
def Settles (issued : IssuedCommand) (screen : Nat) (code : String) : Prop :=
  issued.outcome ≠ some true ∧ issued.command.Removes screen code ∨
    issued.outcome = some true ∧ issued.command.Registers screen code
deriving Decidable

/-- The command was run, and its acknowledgement will take the code out of the map of codes. -/
def WillDrop (issued : IssuedCommand) (code : String) : Prop :=
  issued.outcome = some true ∧ issued.command.Drops code
deriving Decidable

end IssuedCommand

namespace RealtimeCommandQueue

/-- The answer to a command of a kind is awaited. -/
def Awaits (queue : RealtimeCommandQueue) (p : IssuedCommand → Prop) : Prop :=
  ∃ entry ∈ queue.issued.entries, entry.2.ended = false ∧ p entry.2

/-- The answer to a command of a kind is awaited, besides that to one command. -/
def AwaitsOther (queue : RealtimeCommandQueue) (id : Nat) (p : IssuedCommand → Prop) : Prop :=
  ∃ entry ∈ queue.issued.entries, entry.1 ≠ id ∧ entry.2.ended = false ∧ p entry.2

instance (queue : RealtimeCommandQueue) (p : IssuedCommand → Prop) [DecidablePred p] :
    Decidable (queue.Awaits p) :=
  inferInstanceAs (Decidable (∃ entry ∈ queue.issued.entries, _))

instance (queue : RealtimeCommandQueue) (id : Nat) (p : IssuedCommand → Prop) [DecidablePred p] :
    Decidable (queue.AwaitsOther id p) :=
  inferInstanceAs (Decidable (∃ entry ∈ queue.issued.entries, _))

end RealtimeCommandQueue

/-! ## Agreement -/

namespace RealtimeWorld

def Idle (w : RealtimeWorld) : Prop := ∀ entry ∈ w.queue.issued.entries, entry.2.ended = true

/-- The codes registered at the Gateway, the recorded codes and the selected ones are the same. -/
structure Matches (settings : RealtimeSettings) (w : RealtimeWorld) : Prop where
  registered : ∀ code, (∃ screen, (screen, code) ∈ w.registered) ↔
    code ∈ w.manager.codeToScreen.keys
  selected : ∀ code, code ∈ w.manager.codeToScreen.keys ↔ code ∈ w.manager.targetCodes settings

/-- A code is pending only while a register command for it is outstanding. When none is, and two
more syncs ask for no command whatever the queue would make of it, the Gateway and the manager
match. -/
structure Agrees (settings : RealtimeSettings) (w : RealtimeWorld) : Prop where
  pending : ∀ code, w.manager.pendingRegisterByCode.get? code ≠ none →
    w.queue.Awaits fun issued => issued.command.Requests code
  quiet : w.Idle → ∀ first second : RealtimeCommand → Admission,
    (machine settings).outputs w [.sync first, .sync second] = [[], []] →
      Matches settings ((machine settings).run w [.sync first, .sync second])

/-! ## The condition -/

/-- The registration of a code that is about to leave the map of codes is known to a command: a
new one, or one whose answer is awaited. -/
def LetsGo (w : RealtimeWorld) (admission : Admission) (screen : Nat) (code : String) : Prop :=
  admission = .accept ∨ (screen, code) ∉ w.registered ∨
    w.queue.Awaits fun issued => issued.Settles screen code

/-- The Gateway runs a command that has ended: the manager records what it registers, or another
command settles it; and what it removes is about to be dropped. -/
def RunsLate (w : RealtimeWorld) (command : RealtimeCommand) : Prop :=
  (∀ code ∈ command.codes, ∀ screen ∈ command.screenNo, command.Registers screen code →
      w.manager.codeToScreen.get? code = some screen ∨
        w.queue.Awaits fun issued => issued.Settles screen code) ∧
    ∀ entry ∈ w.manager.codeToScreen.entries, command.Removes entry.2 entry.1 →
      w.queue.Awaits fun issued => issued.WillDrop entry.1

/-- A command is acknowledged: another command settles the registrations of the codes that it
takes off their screens, and what it records is still registered or about to be dropped. -/
def Acknowledges (w : RealtimeWorld) (id : Nat) (command : RealtimeCommand) : Prop :=
  (∀ entry ∈ w.manager.codeToScreen.entries, (entry.2, entry.1) ∈ w.registered →
      command.Drops entry.1 ∨ command.Requests entry.1 ∧ command.screenNo ≠ some entry.2 →
        w.queue.AwaitsOther id fun issued => issued.Settles entry.2 entry.1) ∧
    ∀ code ∈ command.codes, ∀ screen ∈ command.screenNo, command.Registers screen code →
      (screen, code) ∈ w.registered ∨ w.queue.AwaitsOther id fun issued => issued.WillDrop code

/-- A command is given up: what it was to settle is recorded or settled by another command, and
what its acknowledgement was to drop is registered or about to be dropped by another. -/
def GivesUp (w : RealtimeWorld) (id : Nat) (issued : IssuedCommand) : Prop :=
  (∀ entry ∈ w.registered, issued.Settles entry.1 entry.2 →
      w.manager.codeToScreen.get? entry.2 = some entry.1 ∨
        w.queue.AwaitsOther id fun other => other.Settles entry.1 entry.2) ∧
    ∀ entry ∈ w.manager.codeToScreen.entries, issued.WillDrop entry.1 →
      (entry.2, entry.1) ∈ w.registered ∨ w.queue.AwaitsOther id fun other => other.WillDrop entry.1

/-- The event loses sight of no registration. -/
def KeepsSight (settings : RealtimeSettings) (w : RealtimeWorld) : RealtimeEvent → Prop
  | .ensureSubscription code _ _ _ => normalizeCode code ≠ ""
  | .removeSubscription _ _ => True
  | .sync judge => ∀ entry ∈ w.manager.codeToScreen.entries,
      entry.1 ∉ w.manager.targetCodes settings →
        w.LetsGo (judge (removeCommand w.manager.subscriptionGeneration entry.2 [entry.1]))
          entry.2 entry.1
  | .markAllStale reason judge => ∀ entry ∈ w.manager.codeToScreen.entries,
      w.LetsGo (judge (removeAllCommand (w.manager.subscriptionGeneration + 1) reason))
        entry.2 entry.1
  | .execute id succeeds => ∀ issued ∈ w.queue.issued.get? id,
      issued.ended = true → issued.outcome = none → succeeds = true → w.RunsLate issued.command
  | .answer id .acked => ∀ issued ∈ w.queue.issued.get? id,
      issued.fits .acked = true → w.Acknowledges id issued.command
  | .answer _ (.failed true) => True
  | .answer id answer => ∀ issued ∈ w.queue.issued.get? id,
      issued.fits answer = true → w.GivesUp id issued
  | .lapse id => ∀ issued ∈ w.queue.issued.get? id,
      w.GivesUp id issued ∧ ∀ entry ∈ w.manager.pendingRegisterByCode.entries,
        issued.command.Requests entry.1 →
          w.queue.AwaitsOther id fun other => other.command.Requests entry.1

instance (w : RealtimeWorld) (admission : Admission) (screen : Nat) (code : String) :
    Decidable (w.LetsGo admission screen code) :=
  inferInstanceAs (Decidable (_ ∨ _))

instance (w : RealtimeWorld) (command : RealtimeCommand) : Decidable (w.RunsLate command) :=
  inferInstanceAs (Decidable (_ ∧ _))

instance (w : RealtimeWorld) (id : Nat) (command : RealtimeCommand) :
    Decidable (w.Acknowledges id command) :=
  inferInstanceAs (Decidable (_ ∧ _))

instance (w : RealtimeWorld) (id : Nat) (issued : IssuedCommand) :
    Decidable (w.GivesUp id issued) :=
  inferInstanceAs (Decidable (_ ∧ _))

instance (settings : RealtimeSettings) (w : RealtimeWorld) :
    ∀ event, Decidable (w.KeepsSight settings event)
  | .ensureSubscription .. | .removeSubscription .. | .sync .. | .markAllStale .. | .execute ..
  | .answer _ .acked | .answer _ (.failed true) | .answer _ (.failed false)
  | .answer _ .timedOut | .answer _ .expired | .lapse .. => by
      unfold KeepsSight
      infer_instance

end RealtimeWorld

/-! ## The queue -/

structure KeptCode (code : String) : Prop where
  clean : CleanCode code
  notBlank : code ≠ ""

/-- What the commands of the manager have in common: their codes are clean, and only a removal of
all has no screen. -/
structure RealtimeCommand.WellFormed (command : RealtimeCommand) : Prop where
  codes : ∀ code ∈ command.codes, KeptCode code
  screen : command.commandType ≠ .removeAllRealtime → ∃ screen, command.screenNo = some screen

variable {codes : List String}

theorem mem_cleanCodes (hclean : ∀ code ∈ codes, KeptCode code) {code : String} :
    code ∈ cleanCodes codes ↔ code ∈ codes := by
  unfold cleanCodes
  rw [Text.mem_distinct]
  constructor
  · rintro ⟨-, value, hvalue, rfl⟩
    rw [(hclean value hvalue).clean.strip, (hclean value hvalue).clean.upper]
    exact hvalue
  · intro hcode
    refine ⟨(hclean code hcode).notBlank, code, hcode, ?_⟩
    rw [(hclean code hcode).clean.strip, (hclean code hcode).clean.upper]

section

variable (hclean : ∀ code ∈ codes, KeptCode code)
include hclean

theorem normalizeCodes_of_kept : normalizeCodes codes = codes := by
  unfold normalizeCodes
  have hmap : codes.map normalizeCode = codes := by
    have hid := map_congr_left (g := id) fun code hcode =>
      (hclean code hcode).clean.normalizeCode
    rw [hid, map_id]
  rw [hmap, filter_eq_self]
  intro code hcode
  simpa using (hclean code hcode).notBlank

theorem registerCommand_wellFormed (generation screen : Nat) :
    (registerCommand generation screen codes).WellFormed where
  codes := fun code hcode => hclean code ((mem_cleanCodes hclean).mp hcode)
  screen := fun _ => ⟨screen, rfl⟩

theorem removeCommand_wellFormed (generation screen : Nat) :
    (removeCommand generation screen codes).WellFormed where
  codes := fun code hcode => hclean code ((mem_cleanCodes hclean).mp hcode)
  screen := fun _ => ⟨screen, rfl⟩

end

theorem registerCommand_requests (hclean : ∀ code ∈ codes, KeptCode code) (generation screen : Nat)
    {code : String} : (registerCommand generation screen codes).Requests code ↔ code ∈ codes := by
  unfold Requests registerCommand
  simp [mem_cleanCodes hclean]

theorem removeCommand_removes {code : String} (hkept : KeptCode code) (generation screen : Nat) :
    (removeCommand generation screen [code]).Removes screen code := by
  have hcodes : ∀ value ∈ [code], KeptCode value := by simpa using hkept
  unfold Removes removeCommand
  simp [mem_cleanCodes hcodes]

theorem cleanCodes_ne_nil (hclean : ∀ code ∈ codes, KeptCode code) (hne : codes ≠ []) :
    cleanCodes codes ≠ [] := by
  obtain ⟨code, hcode⟩ := exists_mem_of_ne_nil codes hne
  exact ne_nil_of_mem ((mem_cleanCodes hclean).mpr hcode)

theorem removeAllCommand_wellFormed (generation : Nat) (reason : String) :
    (removeAllCommand generation reason).WellFormed where
  codes := by
    intro code hcode
    exact absurd hcode not_mem_nil
  screen := by
    intro htype
    exact absurd rfl htype

namespace RealtimeCommandQueue

variable {queue : RealtimeCommandQueue} {p : IssuedCommand → Prop} {issued : IssuedCommand}

variable {id : Nat} {before after : RealtimeCommandQueue}

theorem Awaits.of_get? (hget : queue.issued.get? id = some issued) (hopen : issued.ended = false)
    (hp : p issued) : queue.Awaits p :=
  ⟨(id, issued), mem_entries_iff.mpr hget, hopen, hp⟩

theorem Awaits.imp {q : IssuedCommand → Prop} (himp : ∀ issued, p issued → q issued)
    (h : queue.Awaits p) : queue.Awaits q := by
  obtain ⟨entry, hentry, hopen, hp⟩ := h
  exact ⟨entry, hentry, hopen, himp _ hp⟩

theorem Awaits.or_other (hget : queue.issued.get? id = some issued) (h : queue.Awaits p) :
    issued.ended = false ∧ p issued ∨ queue.AwaitsOther id p := by
  obtain ⟨⟨id', other⟩, hentry, hopen, hp⟩ := h
  by_cases hid : id' = id
  · subst hid
    have hother := mem_entries_iff.mp hentry
    rw [hget] at hother
    injection hother with hother
    subst hother
    exact .inl ⟨hopen, hp⟩
  · exact .inr ⟨_, hentry, hid, hopen, hp⟩

/-- Every command of a queue is in the other. -/
def Extends (after before : RealtimeCommandQueue) : Prop :=
  ∀ id issued, before.issued.get? id = some issued → after.issued.get? id = some issued

theorem Awaits.mono (hext : after.Extends before) (h : before.Awaits p) : after.Awaits p := by
  obtain ⟨⟨id, issued⟩, hentry, hopen, hp⟩ := h
  exact Awaits.of_get? (hext id issued (mem_entries_iff.mp hentry)) hopen hp

theorem AwaitsOther.awaits
    (hframe : ∀ other, other ≠ id → after.issued.get? other = before.issued.get? other)
    (h : before.AwaitsOther id p) : after.Awaits p := by
  obtain ⟨⟨other, issued⟩, hentry, hne, hopen, hp⟩ := h
  exact Awaits.of_get? ((hframe other hne).trans (mem_entries_iff.mp hentry)) hopen hp

/-- The queue of the manager: its commands are well formed, and the next id is free. -/
structure WellFormed (queue : RealtimeCommandQueue) : Prop where
  commands : ∀ id issued, queue.issued.get? id = some issued → issued.command.WellFormed
  fresh : ∀ id issued, queue.issued.get? id = some issued → id < queue.nextId

structure Replaces (after before : RealtimeCommandQueue) (id : Nat)
    (change : Option IssuedCommand) : Prop where
  self : after.issued.get? id = change
  frame : ∀ other, other ≠ id → after.issued.get? other = before.issued.get? other
  wellFormed : after.WellFormed

theorem WellFormed.replaces_set (h : queue.WellFormed) {change : IssuedCommand}
    (hget : queue.issued.get? id = some issued) (hcommand : change.command = issued.command) :
    Replaces { queue with issued := queue.issued.set id change } queue id (some change) where
  self := get?_set_self _ _ _
  frame := fun other hne => get?_set_ne _ _ hne
  wellFormed := by
    refine ⟨?_, ?_⟩
    · intro id' other hother
      have hother' : (queue.issued.set id change).get? id' = some other := hother
      rw [get?_set] at hother'
      split at hother'
      · injection hother' with hother'
        rw [← hother', hcommand]
        exact h.commands id issued hget
      · exact h.commands id' other hother'
    · intro id' other hother
      have hother' : (queue.issued.set id change).get? id' = some other := hother
      rw [get?_set] at hother'
      split at hother'
      · next hid => exact hid ▸ h.fresh id issued hget
      · exact h.fresh id' other hother'

theorem WellFormed.replaces_filter (h : queue.WellFormed) (id : Nat) :
    Replaces { queue with issued := queue.issued.filter fun other _ => other ≠ id } queue id
      none := by
  have hfilter : ∀ other, (queue.issued.filter fun other _ => other ≠ id).get? other =
      if other = id then none else queue.issued.get? other := by
    intro other
    rw [get?_filter]
    by_cases hother : other = id
    · cases queue.issued.get? other <;> simp [hother]
    · cases queue.issued.get? other <;> simp [hother]
  have hsub : ∀ other issued, (queue.issued.filter fun other _ => other ≠ id).get? other =
      some issued → queue.issued.get? other = some issued := by
    intro other issued hget
    rw [hfilter] at hget
    split at hget
    · cases hget
    · exact hget
  refine ⟨(hfilter id).trans (if_pos rfl), fun other hne => (hfilter other).trans (if_neg hne), ?_⟩
  exact ⟨fun other issued hget => h.commands other issued (hsub other issued hget),
    fun other issued hget => h.fresh other issued (hsub other issued hget)⟩

/-- What `enqueue` does: every command stays, a new one is accepted with it, and a command that
is tracked has one with its key whose answer is awaited. -/
theorem enqueue_spec (h : queue.WellFormed) (admission : Admission) {command : RealtimeCommand}
    (hcommand : command.WellFormed) :
    (queue.enqueue admission command).1.WellFormed ∧
      (queue.enqueue admission command).1.Extends queue ∧
      (admission = .accept →
        (queue.enqueue admission command).1.Awaits fun issued => issued = { command }) ∧
      ((queue.enqueue admission command).2.pendingTrackable = true →
        (queue.enqueue admission command).1.Awaits fun issued =>
          issued.command.key = command.key) := by
  cases admission with
  | accept =>
    have hnew : ({ queue with
        issued := queue.issued.set queue.nextId { command }
        nextId := queue.nextId + 1 } : RealtimeCommandQueue).Awaits
          fun issued => issued = { command } :=
      Awaits.of_get? (get?_set_self _ _ _) rfl rfl
    refine ⟨⟨?_, ?_⟩, ?_, fun _ => hnew, fun _ => hnew.imp ?_⟩
    · intro id issued hget
      simp only [enqueue] at hget
      rw [get?_set] at hget
      split at hget
      · injection hget with hget
        exact hget ▸ hcommand
      · exact h.commands id issued hget
    · intro id issued hget
      simp only [enqueue] at hget ⊢
      rw [get?_set] at hget
      split at hget
      · omega
      · have := h.fresh id issued hget
        omega
    · intro id issued hget
      -- the next id is free, so no command is overwritten
      have hne : id ≠ queue.nextId := by
        have := h.fresh id issued hget
        omega
      exact (get?_set_ne _ _ hne).trans hget
    · rintro issued rfl
      rfl
  | duplicateActive =>
    simp only [enqueue]
    cases hfind : queue.issued.entries.find? fun entry =>
        !entry.2.ended && entry.2.command.key = command.key with
    | none =>
      refine ⟨h, fun id issued hget => hget, by simp, ?_⟩
      unfold RealtimeCommandReceipt.pendingTrackable
      simp
    | some existing =>
      have hexisting := find?_some hfind
      simp only [Bool.and_eq_true, Bool.not_eq_true', decide_eq_true_eq] at hexisting
      refine ⟨h, fun id issued hget => hget, by simp, fun _ => ?_⟩
      exact ⟨existing, mem_of_find?_eq_some hfind, hexisting.1, hexisting.2⟩
  | duplicateFinished =>
    have hfinished : Text.upper "ACKED" ∉ ["QUEUED", "DISPATCHED"] := by decide +kernel
    refine ⟨h, fun id issued hget => hget, by simp, ?_⟩
    unfold RealtimeCommandReceipt.pendingTrackable
    simp [enqueue, hfinished]

end RealtimeCommandQueue

variable {command : RealtimeCommand} {code : String} {manager : RealTimeSubscriptionManager}
  {record : SubscriptionRecord}

theorem RealtimeCommand.requests_of_key {other : RealtimeCommand} (h : command.Requests code)
    (hkey : other.key = command.key) : other.Requests code := by
  obtain ⟨htype, hcode⟩ := h
  unfold key at hkey
  rw [htype] at hkey
  cases hother : other.commandType with
  | registerRealtime =>
    rw [hother] at hkey
    have hsame : other = command := hkey
    rw [hsame]
    exact ⟨htype, hcode⟩
  | removeRealtime =>
    rw [hother] at hkey
    have := congrArg commandType hkey
    simp [htype] at this
  | removeAllRealtime =>
    rw [hother] at hkey
    have := congrArg commandType hkey
    simp [hother, htype] at this

theorem RealtimeCommand.Removes.drops {screen : Nat} (h : command.Removes screen code) :
    command.Drops code := by
  rcases h with ⟨htype, hcode, -⟩ | htype
  · exact .inl ⟨htype, hcode⟩
  · exact .inr htype

variable {settings : RealtimeSettings}

theorem RealtimeCommand.WellFormed.mem_execute (h : command.WellFormed)
    {registered : List (Nat × String)} {screen : Nat} :
    (screen, code) ∈ command.execute registered ↔
      (screen, code) ∈ registered ∧ ¬ command.Removes screen code ∨
        command.Registers screen code := by
  unfold execute Removes Registers Requests
  cases htype : command.commandType with
  | registerRealtime =>
    obtain ⟨placed, hplaced⟩ := h.screen (by simp [htype])
    have hblank : ∀ code ∈ command.codes, code ≠ "" := fun code hcode => (h.codes code hcode).notBlank
    by_cases hmem : (screen, code) ∈ registered
    · simp [hplaced, hmem]
    · simp only [hplaced, mem_append, hmem, false_or, mem_filter, mem_map,
        Prod.mk.injEq]
      constructor
      · rintro ⟨⟨code', ⟨hcode, -⟩, rfl, rfl⟩, -⟩
        exact .inr ⟨⟨trivial, hcode⟩, rfl⟩
      · rintro (⟨hfalse, -⟩ | ⟨⟨-, hcode⟩, hscreen⟩)
        · exact hfalse.elim
        · injection hscreen with hscreen
          exact ⟨⟨code, ⟨hcode, by simpa using hblank code hcode⟩, hscreen, rfl⟩, by simp⟩
  | removeRealtime =>
    obtain ⟨placed, hplaced⟩ := h.screen (by simp [htype])
    simp only [hplaced, mem_filter]
    simp
    tauto
  | removeAllRealtime => simp

/-! ## Records and batches -/

theorem RealTimeSubscriptionManager.mem_values_of_mem_targetRecords
    (h : record ∈ manager.targetRecords settings) : record ∈ manager.records.values := by
  unfold targetRecords at h
  dsimp only at h
  split at h
  · rw [mem_insertionSort] at h
    exact (mem_filter.mp h).1
  · rcases mem_append.mp h with h | h
    · rw [mem_insertionSort] at h
      exact (mem_filter.mp h).1
    · have h' := mem_of_mem_take h
      rw [mem_insertionSort] at h'
      exact (mem_filter.mp h').1

theorem mem_foldl_assignScreen (settings : RealtimeSettings) (record : SubscriptionRecord)
    (records : List SubscriptionRecord) :
    ∀ assigned : Dict Nat (List String) × Dict Nat (List SubscriptionRecord),
      (∃ screen batch, (records.foldl (assignScreen settings) assigned).2.get? screen =
          some batch ∧ record ∈ batch) ↔
        (∃ screen batch, assigned.2.get? screen = some batch ∧ record ∈ batch) ∨
          record ∈ records := by
  induction records with
  | nil => simp
  | cons next rest ih =>
    intro assigned
    rw [foldl_cons, ih, mem_cons, ← or_assoc]
    refine or_congr_left ?_
    unfold assignScreen
    dsimp only
    generalize screenForNewCode settings assigned.1 = placed
    constructor
    · rintro ⟨screen, batch, hget, hmem⟩
      by_cases hscreen : screen = placed
      · subst hscreen
        rw [get?_upsert_self, Option.some.injEq] at hget
        rcases mem_append.mp (hget ▸ hmem) with hold | hnext
        · cases hbatch : assigned.2.get? screen with
          | none =>
            rw [hbatch] at hold
            exact absurd hold not_mem_nil
          | some batch' =>
            rw [hbatch] at hold
            exact .inl ⟨screen, batch', hbatch, hold⟩
        · exact .inr (mem_singleton.mp hnext)
      · rw [get?_upsert_ne _ _ hscreen] at hget
        exact .inl ⟨screen, batch, hget, hmem⟩
    · rintro (⟨screen, batch, hget, hmem⟩ | rfl)
      · by_cases hscreen : screen = placed
        · subst hscreen
          refine ⟨screen, _, get?_upsert_self _ _ _, ?_⟩
          rw [hget]
          exact mem_append_left _ hmem
        · exact ⟨screen, batch, (get?_upsert_ne _ _ hscreen).trans hget, hmem⟩
      · exact ⟨placed, _, get?_upsert_self _ _ _, mem_append_right _ (mem_singleton_self _)⟩

theorem mem_batchesOf {records : List SubscriptionRecord} :
    (∃ batch ∈ (batchesOf settings manager records).entries, record ∈ batch.2) ↔
      record ∈ records := by
  have hfold := mem_foldl_assignScreen settings record
    (records.insertionSort fun a b : SubscriptionRecord =>
      a.registrationSortKey ≤ b.registrationSortKey)
    (manager.pendingRegisterByCode.entries.foldl
      (fun screens entry => addToScreen screens entry.2 entry.1) manager.screenToCodes, .empty)
  simp only [get?_empty, mem_insertionSort] at hfold
  refine Iff.trans ?_ (hfold.trans (by simp))
  constructor
  · rintro ⟨⟨screen, batch⟩, hentry, hmem⟩
    exact ⟨screen, batch, mem_entries_iff.mp hentry, hmem⟩
  · rintro ⟨screen, batch, hget, hmem⟩
    exact ⟨(screen, batch), mem_entries_iff.mpr hget, hmem⟩

/-- The records are filed under their own clean codes. -/
def Filed (records : Dict String SubscriptionRecord) : Prop :=
  ∀ code record, records.get? code = some record → record.code = code ∧ KeptCode code

theorem Filed.set {records : Dict String SubscriptionRecord} (h : Filed records)
    (hcode : record.code = code) (hkept : KeptCode code) : Filed (records.set code record) := by
  intro other kept hget
  rw [get?_set] at hget
  split at hget
  · next hother =>
      injection hget with hget
      rw [← hget, hother]
      exact ⟨hcode, hkept⟩
  · exact h other kept hget

theorem Filed.ensureSubscription (h : Filed manager.records) (source : String)
    (priority : Option Int) (isProtected : Option Bool) (hblank : normalizeCode code ≠ "") :
    Filed (manager.ensureSubscription code source priority isProtected).records := by
  have hkept : KeptCode (normalizeCode code) := ⟨cleanCode_normalizeCode code, hblank⟩
  unfold RealTimeSubscriptionManager.ensureSubscription
  dsimp only
  generalize normalizeCode code = cleanCode at hkept ⊢
  refine h.set ?_ hkept
  rw [SubscriptionRecord.addSource_code]
  cases hget : manager.records.get? cleanCode with
  | none => rfl
  | some record => exact (h cleanCode record hget).1

theorem Filed.removeSubscription (h : Filed manager.records) (code source : String) :
    Filed (manager.removeSubscription code source).records := by
  unfold RealTimeSubscriptionManager.removeSubscription
  dsimp only
  cases hget : manager.records.get? (normalizeCode code) with
  | none => exact h
  | some record =>
    obtain ⟨hcode, hkept⟩ := h _ record hget
    dsimp only
    split
    · intro other kept hother
      rw [get?_pop] at hother
      split at hother
      · cases hother
      · exact h other kept hother
    · refine h.set ?_ hkept
      rw [SubscriptionRecord.removeSource_code, hcode]

theorem RealTimeSubscriptionManager.removeSubscription_eq (manager : RealTimeSubscriptionManager)
    (code source : String) : manager.removeSubscription code source =
      { manager with records := (manager.removeSubscription code source).records } := by
  unfold removeSubscription
  dsimp only
  cases manager.records.get? (normalizeCode code) with
  | none => rfl
  | some record => rfl

/-! ## What an answer does to the maps -/

namespace RealTimeSubscriptionManager

theorem foldl_acknowledgeCode (settings : RealtimeSettings) (screen : Nat) (codes : List String)
    (manager : RealTimeSubscriptionManager) (code : String) :
    (codes.foldl (acknowledgeCode settings (some screen)) manager).records = manager.records ∧
      (codes.foldl (acknowledgeCode settings (some screen)) manager).codeToScreen.get? code =
        (if code ∈ codes then some screen else manager.codeToScreen.get? code) ∧
      (codes.foldl (acknowledgeCode settings (some screen)) manager).pendingRegisterByCode.get?
        code = if code ∈ codes then none else manager.pendingRegisterByCode.get? code := by
  refine ⟨?_, ?_, ?_⟩
  · induction codes generalizing manager with
    | nil => rfl
    | cons next rest ih => exact ih _
  · refine foldl_leaves (fun manager => manager.codeToScreen.get? code) ?_ codes manager
    intro before next
    exact get?_set _ _ _ _
  · refine foldl_leaves (fun manager => manager.pendingRegisterByCode.get? code) ?_ codes
      manager
    intro before next
    exact get?_pop _ _ _

theorem foldl_forgetCode (codes : List String) (manager : RealTimeSubscriptionManager)
    (code : String) :
    (codes.foldl forgetCode manager).records = manager.records ∧
      (codes.foldl forgetCode manager).codeToScreen.get? code =
        (if code ∈ codes then none else manager.codeToScreen.get? code) ∧
      (codes.foldl forgetCode manager).pendingRegisterByCode.get? code =
        if code ∈ codes then none else manager.pendingRegisterByCode.get? code := by
  refine ⟨?_, ?_, ?_⟩
  · induction codes generalizing manager with
    | nil => rfl
    | cons next rest ih => exact ih _
  · refine foldl_leaves (fun manager => manager.codeToScreen.get? code) ?_ codes manager
    intro before next
    exact get?_pop _ _ _
  · refine foldl_leaves (fun manager => manager.pendingRegisterByCode.get? code) ?_ codes
      manager
    intro before next
    exact get?_pop _ _ _

variable {command : RealtimeCommand}

/-- What an acknowledgement records: what the command registers, and what it leaves alone. -/
theorem applyCommandAck_spec (settings : RealtimeSettings) (manager : RealTimeSubscriptionManager)
    (hcommand : command.WellFormed) (code : String) :
    (manager.applyCommandAck settings command).records = manager.records ∧
      (∀ screen, (manager.applyCommandAck settings command).codeToScreen.get? code = some screen ↔
        command.Registers screen code ∨
          manager.codeToScreen.get? code = some screen ∧ ¬ command.Drops code ∧
            ¬ command.Requests code) ∧
      ((manager.applyCommandAck settings command).pendingRegisterByCode.get? code ≠ none →
        manager.pendingRegisterByCode.get? code ≠ none ∧ ¬ command.Requests code) := by
  unfold applyCommandAck Registers Drops Requests
  dsimp only
  rw [normalizeCodes_of_kept hcommand.codes]
  cases htype : command.commandType with
  | registerRealtime =>
    obtain ⟨placed, hplaced⟩ := hcommand.screen (by simp [htype])
    obtain ⟨hrecords, hscreen, hpending⟩ :=
      foldl_acknowledgeCode settings placed command.codes manager code
    simp only [hplaced]
    refine ⟨hrecords, ?_, ?_⟩
    · intro screen
      rw [hscreen]
      by_cases hcode : code ∈ command.codes
      · simp [hcode]
      · simp [hcode]
    · rw [hpending]
      by_cases hcode : code ∈ command.codes
      · simp [hcode]
      · simp [hcode]
  | removeRealtime =>
    obtain ⟨hrecords, hscreen, hpending⟩ := foldl_forgetCode command.codes manager code
    refine ⟨hrecords, ?_, ?_⟩
    · intro screen
      rw [hscreen]
      by_cases hcode : code ∈ command.codes
      · simp [hcode]
      · simp [hcode]
    · rw [hpending]
      by_cases hcode : code ∈ command.codes
      · simp [hcode]
      · simp [hcode]
  | removeAllRealtime =>
    obtain ⟨hrecords, hscreen, hpending⟩ :=
      foldl_forgetCode manager.codeToScreen.keys manager code
    refine ⟨hrecords, ?_, ?_⟩
    · intro screen
      rw [hscreen]
      by_cases hcode : code ∈ manager.codeToScreen.keys
      · simp [hcode]
      · simp [hcode, get?_eq_none.mpr hcode]
    · rw [hpending]
      by_cases hcode : code ∈ manager.codeToScreen.keys
      · simp [hcode]
      · simp [hcode]

theorem applyCommandFailed_spec (manager : RealTimeSubscriptionManager)
    (hcommand : command.WellFormed) (code : String) :
    (manager.applyCommandFailed command).records = manager.records ∧
      (manager.applyCommandFailed command).codeToScreen = manager.codeToScreen ∧
      ((manager.applyCommandFailed command).pendingRegisterByCode.get? code ≠ none →
        manager.pendingRegisterByCode.get? code ≠ none ∧ ¬ command.Requests code) := by
  unfold applyCommandFailed Requests
  dsimp only
  rw [normalizeCodes_of_kept hcommand.codes]
  cases htype : command.commandType with
  | registerRealtime =>
    refine ⟨rfl, rfl, ?_⟩
    dsimp only
    rw [foldl_leaves (fun map : Dict String Nat => map.get? code)
      (fun map next => get?_pop map next code) command.codes]
    by_cases hcode : code ∈ command.codes
    · simp [hcode]
    · simp [hcode]
  | removeRealtime => simp
  | removeAllRealtime => simp

end RealTimeSubscriptionManager

/-! ## The invariant -/

/-- Every registration is recorded or settled by a command whose answer is awaited, every recorded
code is registered or about to be dropped, and every pending code has a register command. -/
structure InStep (w : RealtimeWorld) : Prop where
  known : ∀ screen code, (screen, code) ∈ w.registered →
    w.manager.codeToScreen.get? code = some screen ∨
      w.queue.Awaits fun issued => issued.Settles screen code
  held : ∀ code screen, w.manager.codeToScreen.get? code = some screen →
    (screen, code) ∈ w.registered ∨ w.queue.Awaits fun issued => issued.WillDrop code
  pending : ∀ code, w.manager.pendingRegisterByCode.get? code ≠ none →
    w.queue.Awaits fun issued => issued.command.Requests code
  records : ∀ code record, w.manager.records.get? code = some record →
    record.code = code ∧ KeptCode code
  recorded : ∀ code screen, w.manager.codeToScreen.get? code = some screen → KeptCode code
  commands : w.queue.WellFormed

namespace InStep

theorem initial : InStep {} where
  known := by
    intro screen code hmem
    exact absurd hmem not_mem_nil
  held := by simp
  pending := by simp
  records := by simp
  recorded := by simp
  commands := ⟨by simp, by simp⟩

/-! ## Sources of codes -/

variable {w : RealtimeWorld} {x : Exchange} {settings : RealtimeSettings} {id : Nat}
  {issued : IssuedCommand} {queue : RealtimeCommandQueue}

theorem withRecords (h : InStep w) {records : Dict String SubscriptionRecord}
    (hrecords : ∀ code record, records.get? code = some record →
      record.code = code ∧ KeptCode code) :
    InStep { w with manager := { w.manager with records } } :=
  ⟨h.known, h.held, h.pending, hrecords, h.recorded, h.commands⟩

/-- `ensure_subscription`. -/
theorem ensureSubscription (h : InStep w) {code : String} (source : String) (priority : Option Int)
    (isProtected : Option Bool) (hblank : normalizeCode code ≠ "") :
    InStep { w with manager := w.manager.ensureSubscription code source priority isProtected } :=
  h.withRecords (Filed.ensureSubscription h.records source priority isProtected hblank)

/-- `remove_subscription`. -/
theorem removeSubscription (h : InStep w) (code source : String) :
    InStep { w with manager := w.manager.removeSubscription code source } := by
  rw [RealTimeSubscriptionManager.removeSubscription_eq]
  exact h.withRecords (Filed.removeSubscription h.records code source)

/-! ## Requests -/

theorem removeCode (h : InStep (w.afterExchange x)) (judge : RealtimeCommand → Admission)
    {code : String} (hgo : ∀ screen, x.manager.codeToScreen.get? code = some screen →
      (w.afterExchange x).LetsGo
        (judge (removeCommand x.manager.subscriptionGeneration screen [code])) screen code) :
    InStep (w.afterExchange (x.removeCode judge code)) := by
  unfold Exchange.removeCode
  cases hget : x.manager.codeToScreen.get? code with
  | none => exact h
  | some screen =>
    have hkept : KeptCode code := h.recorded code screen hget
    have hcodes : ∀ value ∈ [code], KeptCode value := by simpa using hkept
    have hcommand := removeCommand_wellFormed hcodes x.manager.subscriptionGeneration screen
    obtain ⟨hwell, hext, hnew, -⟩ := RealtimeCommandQueue.enqueue_spec h.commands
      (judge (removeCommand x.manager.subscriptionGeneration screen [code])) hcommand
    simp only [if_neg (cleanCodes_ne_nil hcodes (cons_ne_nil code []))]
    refine ⟨?_, ?_, ?_, h.records, ?_, hwell⟩
    · intro screen' code' hmem
      show (pop x.manager.codeToScreen code).get? code' = _ ∨ _
      rw [get?_pop]
      rcases h.known screen' code' hmem with hrecorded | hawaits
      · by_cases hcode : code' = code
        · -- the code that leaves the map is settled by its removal, or was before
          subst hcode
          have hscreen : screen' = screen := by
            have := hget.symm.trans hrecorded
            injection this with this
            exact this.symm
          subst hscreen
          rcases hgo screen' hget with haccept | hnot | hawaits
          · refine .inr ((hnew haccept).imp ?_)
            rintro issued rfl
            exact .inl ⟨by simp, removeCommand_removes hkept _ _⟩
          · exact absurd hmem hnot
          · exact .inr (hawaits.mono hext)
        · rw [if_neg hcode]
          exact .inl hrecorded
      · exact .inr (hawaits.mono hext)
    · intro code' screen' hrecorded
      have hrecorded' : (pop x.manager.codeToScreen code).get? code' = some screen' := hrecorded
      rw [get?_pop] at hrecorded'
      split at hrecorded'
      · cases hrecorded'
      · exact (h.held code' screen' hrecorded').imp_right (.mono hext)
    · intro code' hpending
      exact (h.pending code' hpending).mono hext
    · intro code' screen' hrecorded
      have hrecorded' : (pop x.manager.codeToScreen code).get? code' = some screen' := hrecorded
      rw [get?_pop] at hrecorded'
      split at hrecorded'
      · cases hrecorded'
      · exact h.recorded code' screen' hrecorded'

theorem letsGo_removeCode (h : InStep (w.afterExchange x)) (judge : RealtimeCommand → Admission)
    (code : String) {other : String} {screen : Nat}
    (hget : (x.removeCode judge code).manager.codeToScreen.get? other = some screen)
    (hgo : ∀ screen, x.manager.codeToScreen.get? other = some screen →
      (w.afterExchange x).LetsGo
        (judge (removeCommand x.manager.subscriptionGeneration screen [other])) screen other) :
    (w.afterExchange (x.removeCode judge code)).LetsGo
      (judge (removeCommand (x.removeCode judge code).manager.subscriptionGeneration screen
        [other])) screen other := by
  unfold Exchange.removeCode at hget ⊢
  cases hcode : x.manager.codeToScreen.get? code with
  | none =>
    rw [hcode] at hget
    exact hgo screen hget
  | some placed =>
    have hcodes : ∀ value ∈ [code], KeptCode value := by
      simpa using h.recorded code placed hcode
    have hcommand := removeCommand_wellFormed hcodes x.manager.subscriptionGeneration placed
    have hext := (RealtimeCommandQueue.enqueue_spec h.commands
      (judge (removeCommand x.manager.subscriptionGeneration placed [code])) hcommand).2.1
    rw [hcode] at hget
    simp only [if_neg (cleanCodes_ne_nil hcodes (cons_ne_nil code []))] at hget ⊢
    have hget' : (pop x.manager.codeToScreen code).get? other = some screen := hget
    rw [get?_pop] at hget'
    split at hget'
    · cases hget'
    · rcases hgo screen hget' with haccept | hnot | hawaits
      · exact .inl haccept
      · exact .inr (.inl hnot)
      · exact .inr (.inr (hawaits.mono hext))

theorem foldl_removeCode (judge : RealtimeCommand → Admission) {codes : List String} :
    ∀ {x : Exchange}, InStep (w.afterExchange x) →
      (∀ code ∈ codes, ∀ screen, x.manager.codeToScreen.get? code = some screen →
        (w.afterExchange x).LetsGo
          (judge (removeCommand x.manager.subscriptionGeneration screen [code])) screen code) →
      InStep (w.afterExchange (codes.foldl (Exchange.removeCode judge) x)) := by
  induction codes with
  | nil => exact fun h _ => h
  | cons code rest ih =>
    intro x h hgo
    apply ih (h.removeCode judge (hgo code mem_cons_self))
    intro other hother screen hget
    exact h.letsGo_removeCode judge code hget (hgo other (mem_cons_of_mem code hother))

theorem registerBatch (h : InStep (w.afterExchange x)) (judge : RealtimeCommand → Admission)
    {batch : Nat × List SubscriptionRecord} (hkept : ∀ record ∈ batch.2, KeptCode record.code) :
    InStep (w.afterExchange (x.registerBatch judge batch)) := by
  have hcodes : ∀ code ∈ batch.2.map (·.code), KeptCode code := by simpa using hkept
  unfold Exchange.registerBatch
  by_cases hasked : cleanCodes (batch.2.map (·.code)) = []
  · -- nothing is asked for, and nothing becomes pending
    simp only [if_pos hasked]
    exact ⟨h.known, h.held, h.pending, h.records, h.recorded, h.commands⟩
  · simp only [if_neg hasked]
    obtain ⟨hwell, hext, -, htracked⟩ := RealtimeCommandQueue.enqueue_spec h.commands
      (judge (registerCommand x.manager.subscriptionGeneration batch.1 (batch.2.map (·.code))))
      (registerCommand_wellFormed hcodes x.manager.subscriptionGeneration batch.1)
    refine ⟨?_, ?_, ?_, h.records, h.recorded, hwell⟩
    · intro screen code hmem
      exact (h.known screen code hmem).imp_right (.mono hext)
    · intro code screen hrecorded
      exact (h.held code screen hrecorded).imp_right (.mono hext)
    · intro code hpending
      by_cases hcode : code ∈ batch.2.map (·.code)
      · by_cases htrackable : (x.queue.enqueue (judge (registerCommand
            x.manager.subscriptionGeneration batch.1 (batch.2.map (·.code))))
            (registerCommand x.manager.subscriptionGeneration batch.1
              (batch.2.map (·.code)))).2.pendingTrackable = true
        · refine (htracked htrackable).imp ?_
          intro issued hkey
          exact requests_of_key ((registerCommand_requests hcodes _ _).mpr hcode) hkey
        · refine (h.pending code ?_).mono hext
          simpa [Exchange.request, afterExchange, htrackable] using hpending
      · refine (h.pending code ?_).mono hext
        intro hnone
        apply hpending
        simp only [afterExchange]
        split
        · exact (get?_upsertAll_of_notMem _ hcode).trans hnone
        · exact hnone

theorem foldl_registerBatch (judge : RealtimeCommand → Admission)
    {batches : List (Nat × List SubscriptionRecord)}
    (hkept : ∀ batch ∈ batches, ∀ record ∈ batch.2, KeptCode record.code) :
    ∀ {x : Exchange}, InStep (w.afterExchange x) →
      InStep (w.afterExchange (batches.foldl (Exchange.registerBatch judge) x)) := by
  induction batches with
  | nil => exact fun h => h
  | cons batch rest ih =>
    intro x h
    apply ih fun other hother => hkept other (mem_cons_of_mem batch hother)
    exact h.registerBatch judge (hkept batch mem_cons_self)

theorem registerRecords (h : InStep (w.afterExchange x)) (settings : RealtimeSettings)
    (judge : RealtimeCommand → Admission) {records : List SubscriptionRecord}
    (hkept : ∀ record ∈ records, KeptCode record.code) :
    InStep (w.afterExchange (x.registerRecords settings judge records)) := by
  unfold Exchange.registerRecords
  refine foldl_registerBatch judge ?_ h
  intro batch hbatch record hrecord
  exact hkept record (mem_batchesOf.mp ⟨batch, hbatch, hrecord⟩)

theorem kept_of_mem_targetRecords (h : InStep w) {record : SubscriptionRecord}
    (hrecord : record ∈ w.manager.targetRecords settings) : KeptCode record.code := by
  obtain ⟨code, hget⟩ := mem_values_iff.mp (RealTimeSubscriptionManager.mem_values_of_mem_targetRecords hrecord)
  obtain ⟨hcode, hkept⟩ := h.records code record hget
  exact hcode ▸ hkept

theorem sync_eq (h : InStep w) (settings : RealtimeSettings) (judge : RealtimeCommand → Admission) :
    ∃ removed, removed =
        (w.manager.unselected settings).foldl (Exchange.removeCode judge) w.exchange ∧
      w.exchange.sync settings judge = removed.registerRecords settings judge
        (removed.manager.unregistered (w.manager.targetRecords settings)) := by
  have hrecorded : ∀ code ∈ w.manager.unselected settings,
      ∃ screen, w.manager.codeToScreen.get? code = some screen := by
    intro code hcode
    exact mem_keys_iff.mp (mem_of_mem_filter hcode)
  have hblank : (w.manager.unselected settings).filter (· ≠ "") =
      w.manager.unselected settings := by
    rw [filter_eq_self]
    intro code hcode
    obtain ⟨screen, hget⟩ := hrecorded code hcode
    simpa using (h.recorded code screen hget).notBlank
  have hremoved : w.exchange.removeCodes settings judge (w.manager.unselected settings) =
      (w.manager.unselected settings).foldl (Exchange.removeCode judge) w.exchange := by
    unfold removeCodes
    simp only [hblank]
    split
    · next hnil =>
        rw [hnil]
        rfl
    · split
      · next hmissing =>
          obtain ⟨code, hcode, hnone⟩ := hmissing
          obtain ⟨screen, hget⟩ := hrecorded code hcode
          have hget' : w.exchange.manager.codeToScreen.get? code = some screen := hget
          rw [hnone] at hget'
          cases hget'
      · rfl
  refine ⟨_, rfl, ?_⟩
  rw [← hremoved]
  rfl

/-- `sync`. -/
theorem sync (h : InStep w) (judge : RealtimeCommand → Admission)
    (hsight : w.KeepsSight settings (.sync judge)) :
    InStep (w.afterExchange (w.exchange.sync settings judge)) := by
  obtain ⟨removed, hremoved, hsync⟩ := h.sync_eq settings judge
  rw [hsync]
  have hstep : InStep (w.afterExchange removed) := by
    rw [hremoved]
    refine foldl_removeCode judge h ?_
    intro code hcode screen hget
    have hnot : code ∉ w.manager.targetCodes settings := by
      simpa using (mem_filter.mp hcode).2
    exact hsight (code, screen) (mem_entries_iff.mpr hget) hnot
  refine hstep.registerRecords settings judge ?_
  intro record hrecord
  exact h.kept_of_mem_targetRecords (mem_of_mem_filter hrecord)

/-- `mark_all_stale`. -/
theorem markAllStale (h : InStep w) (reason : String) (judge : RealtimeCommand → Admission)
    (hsight : w.KeepsSight settings (.markAllStale reason judge)) :
    InStep (w.afterExchange (w.exchange.markAllStale judge reason)) := by
  obtain ⟨hwell, hext, hnew, -⟩ := RealtimeCommandQueue.enqueue_spec h.commands
    (judge (removeAllCommand (w.manager.subscriptionGeneration + 1) reason))
    (removeAllCommand_wellFormed (w.manager.subscriptionGeneration + 1) reason)
  unfold Exchange.markAllStale
  by_cases hactive : w.exchange.manager.codeToScreen.entries ≠ [] ∨
      w.exchange.manager.screenToCodes.entries ≠ []
  · simp only [if_pos hactive]
    refine ⟨?_, by simp [afterExchange], by simp [afterExchange],
      h.records, by simp [afterExchange], hwell⟩
    intro screen code hmem
    refine .inr ?_
    rcases h.known screen code hmem with hrecorded | hawaits
    · rcases hsight (code, screen) (mem_entries_iff.mpr hrecorded) with
        haccept | hnot | hawaits
      · refine (hnew haccept).imp ?_
        rintro issued rfl
        exact .inl ⟨by simp, .inr rfl⟩
      · exact absurd hmem hnot
      · exact hawaits.mono hext
    · exact hawaits.mono hext
  · -- nothing is recorded, so nothing is asked for
    simp only [if_neg hactive]
    refine ⟨?_, by simp [afterExchange], by simp [afterExchange],
      h.records, by simp [afterExchange], h.commands⟩
    intro screen code hmem
    refine .inr ((h.known screen code hmem).resolve_left ?_)
    intro hrecorded
    exact hactive (.inl (ne_nil_of_mem (mem_entries_iff.mpr hrecorded)))

/-! ## The Gateway runs a command -/

/-- `execute` of a command that was not run. -/
theorem executed (h : InStep w) (hget : w.queue.issued.get? id = some issued)
    (hidle : issued.outcome = none) {succeeds : Bool}
    (hqueue : queue.Replaces w.queue id (some { issued with outcome := some succeeds }))
    (hsight : w.KeepsSight settings (.execute id succeeds)) :
    InStep { w with
      queue
      registered := if succeeds then issued.command.execute w.registered
        else w.registered } := by
  have hcommand := h.commands.commands id issued hget
  have hlate : issued.ended = true → succeeds = true → w.RunsLate issued.command :=
    fun hended => hsight issued hget hended hidle
  refine ⟨?_, ?_, ?_, h.records, h.recorded, hqueue.wellFormed⟩
  · intro screen code hmem
    -- what was known before stays known, unless this command has just removed it
    have hold : (screen, code) ∈ w.registered →
        (succeeds = true → ¬ issued.command.Removes screen code) →
        w.manager.codeToScreen.get? code = some screen ∨
          queue.Awaits fun issued => issued.Settles screen code := by
      intro hmem hnot
      refine (h.known screen code hmem).imp_right fun hawaits => ?_
      rcases hawaits.or_other hget with ⟨hopen, ⟨-, hremoves⟩ | ⟨hran, -⟩⟩ | hother
      · cases succeeds with
        | false => exact .of_get? hqueue.self hopen (.inl ⟨by simp, hremoves⟩)
        | true => exact absurd hremoves (hnot rfl)
      · rw [hidle] at hran
        cases hran
      · exact hother.awaits hqueue.frame
    cases succeeds with
    | false => exact hold hmem (by simp)
    | true =>
      rcases hcommand.mem_execute.mp hmem with ⟨hmem, hnot⟩ | hregisters
      · exact hold hmem fun _ => hnot
      · cases hended : issued.ended with
        | false => exact .inr (.of_get? hqueue.self hended (.inr ⟨rfl, hregisters⟩))
        | true =>
          have hcode := (hlate hended rfl).1 code hregisters.1.2 screen hregisters.2 hregisters
          refine hcode.imp_right fun hawaits => ?_
          rcases hawaits.or_other hget with ⟨hopen, -⟩ | hother
          · rw [hended] at hopen
            cases hopen
          · exact hother.awaits hqueue.frame
  · intro code screen hrecorded
    rcases h.held code screen hrecorded with hmem | hawaits
    · cases succeeds with
      | false => exact .inl hmem
      | true =>
        by_cases hremoves : issued.command.Removes screen code
        · refine .inr ?_
          cases hended : issued.ended with
          | false => exact .of_get? hqueue.self hended ⟨rfl, hremoves.drops⟩
          | true =>
            have hawaits := (hlate hended rfl).2 (code, screen)
              (mem_entries_iff.mpr hrecorded) hremoves
            rcases hawaits.or_other hget with ⟨hopen, -⟩ | hother
            · rw [hended] at hopen
              cases hopen
            · exact hother.awaits hqueue.frame
        · exact .inl (hcommand.mem_execute.mpr (.inl ⟨hmem, hremoves⟩))
    · rcases hawaits.or_other hget with ⟨-, hran, -⟩ | hother
      · rw [hidle] at hran
        cases hran
      · exact .inr (hother.awaits hqueue.frame)
  · intro code hpending
    rcases (h.pending code hpending).or_other hget with ⟨hopen, hrequests⟩ | hother
    · exact .of_get? hqueue.self hopen hrequests
    · exact hother.awaits hqueue.frame

/-! ## An answer arrives -/

theorem acked (h : InStep w) (hget : w.queue.issued.get? id = some issued)
    (hran : issued.outcome = some true) (hqueue : queue.Replaces w.queue id none)
    (hsight : w.Acknowledges id issued.command) :
    InStep { w with manager := w.manager.applyCommandAck settings issued.command, queue } := by
  have hcommand := h.commands.commands id issued hget
  have hspec := w.manager.applyCommandAck_spec settings hcommand
  refine ⟨?_, ?_, ?_, ?_, ?_, hqueue.wellFormed⟩
  · intro screen code hmem
    show (w.manager.applyCommandAck settings issued.command).codeToScreen.get? code = _ ∨ _
    rw [(hspec code).2.1]
    rcases h.known screen code hmem with hrecorded | hawaits
    · by_cases htaken : issued.command.Drops code ∨
          issued.command.Requests code ∧ issued.command.screenNo ≠ some screen
      · exact .inr ((hsight.1 (code, screen) (mem_entries_iff.mpr hrecorded) hmem
          htaken).awaits hqueue.frame)
      · left
        by_cases hrequests : issued.command.Requests code
        · -- it is recorded on its own screen again
          refine .inl ⟨hrequests, ?_⟩
          by_contra hscreen
          exact htaken (.inr ⟨hrequests, hscreen⟩)
        · exact .inr ⟨hrecorded, fun hdrops => htaken (.inl hdrops), hrequests⟩
    · rcases hawaits.or_other hget with ⟨-, ⟨hnot, -⟩ | ⟨-, hregisters⟩⟩ | hother
      · exact absurd hran hnot
      · exact .inl (.inl hregisters)
      · exact .inr (hother.awaits hqueue.frame)
  · intro code screen hrecorded
    rcases ((hspec code).2.1 screen).mp hrecorded with hregisters | ⟨hbefore, hnot, -⟩
    · exact (hsight.2 code hregisters.1.2 screen hregisters.2 hregisters).imp_right fun hother =>
        hother.awaits hqueue.frame
    · refine (h.held code screen hbefore).imp_right fun hawaits => ?_
      rcases hawaits.or_other hget with ⟨-, -, hdrops⟩ | hother
      · exact absurd hdrops hnot
      · exact hother.awaits hqueue.frame
  · intro code hpending
    obtain ⟨hbefore, hnot⟩ := (hspec code).2.2 hpending
    rcases (h.pending code hbefore).or_other hget with ⟨-, hrequests⟩ | hother
    · exact absurd hrequests hnot
    · exact hother.awaits hqueue.frame
  · intro code record hrecord
    have hrecord' : (w.manager.applyCommandAck settings issued.command).records.get? code =
        some record := hrecord
    rw [(hspec code).1] at hrecord'
    exact h.records code record hrecord'
  · intro code screen hrecorded
    rcases ((hspec code).2.1 screen).mp hrecorded with hregisters | ⟨hbefore, -⟩
    · exact hcommand.codes code hregisters.1.2
    · exact h.recorded code screen hbefore

theorem triedAgain (h : InStep w) (hget : w.queue.issued.get? id = some issued)
    (hfailed : issued.outcome = some false)
    (hqueue : queue.Replaces w.queue id (some { issued with outcome := none })) :
    InStep { w with manager := w.manager.applyCommandFailed issued.command, queue } := by
  have hspec := w.manager.applyCommandFailed_spec (h.commands.commands id issued hget)
  have hrecords := (hspec "").1
  have hscreens := (hspec "").2.1
  refine ⟨?_, ?_, ?_, ?_, ?_, hqueue.wellFormed⟩
  · intro screen code hmem
    rw [hscreens]
    refine (h.known screen code hmem).imp_right fun hawaits => ?_
    rcases hawaits.or_other hget with ⟨hopen, ⟨-, hremoves⟩ | ⟨hran, -⟩⟩ | hother
    · exact .of_get? hqueue.self hopen (.inl ⟨by simp, hremoves⟩)
    · rw [hfailed] at hran
      cases hran
    · exact hother.awaits hqueue.frame
  · intro code screen hrecorded
    rw [hscreens] at hrecorded
    refine (h.held code screen hrecorded).imp_right fun hawaits => ?_
    rcases hawaits.or_other hget with ⟨-, hran, -⟩ | hother
    · rw [hfailed] at hran
      cases hran
    · exact hother.awaits hqueue.frame
  · intro code hpending
    obtain ⟨hbefore, hnot⟩ := (hspec code).2.2 hpending
    rcases (h.pending code hbefore).or_other hget with ⟨-, hrequests⟩ | hother
    · exact absurd hrequests hnot
    · exact hother.awaits hqueue.frame
  · rw [hrecords]
    exact h.records
  · rw [hscreens]
    exact h.recorded

variable {change : Option IssuedCommand}

theorem givenUp (h : InStep w) (hget : w.queue.issued.get? id = some issued)
    (hsight : w.GivesUp id issued) {manager : RealTimeSubscriptionManager}
    (hqueue : queue.Replaces w.queue id change) (hrecords : manager.records = w.manager.records)
    (hscreens : manager.codeToScreen = w.manager.codeToScreen)
    (hpending : ∀ code, manager.pendingRegisterByCode.get? code ≠ none →
      w.manager.pendingRegisterByCode.get? code ≠ none ∧
        (issued.command.Requests code →
          w.queue.AwaitsOther id fun other => other.command.Requests code)) :
    InStep { w with manager, queue } := by
  refine ⟨?_, ?_, ?_, ?_, ?_, hqueue.wellFormed⟩
  · intro screen code hmem
    rw [hscreens]
    rcases h.known screen code hmem with hrecorded | hawaits
    · exact .inl hrecorded
    · rcases hawaits.or_other hget with ⟨-, hsettles⟩ | hother
      · exact (hsight.1 (screen, code) hmem hsettles).imp_right fun hother =>
          hother.awaits hqueue.frame
      · exact .inr (hother.awaits hqueue.frame)
  · intro code screen hrecorded
    rw [hscreens] at hrecorded
    rcases h.held code screen hrecorded with hmem | hawaits
    · exact .inl hmem
    · rcases hawaits.or_other hget with ⟨-, hdrop⟩ | hother
      · exact (hsight.2 (code, screen) (mem_entries_iff.mpr hrecorded) hdrop).imp_right
          fun hother => hother.awaits hqueue.frame
      · exact .inr (hother.awaits hqueue.frame)
  · intro code hcode
    obtain ⟨hbefore, hrequested⟩ := hpending code hcode
    rcases (h.pending code hbefore).or_other hget with ⟨-, hrequests⟩ | hother
    · exact (hrequested hrequests).awaits hqueue.frame
    · exact hother.awaits hqueue.frame
  · rw [hrecords]
    exact h.records
  · rw [hscreens]
    exact h.recorded

theorem failed (h : InStep w) (hget : w.queue.issued.get? id = some issued)
    (hsight : w.GivesUp id issued) (hqueue : queue.Replaces w.queue id change) :
    InStep { w with manager := w.manager.applyCommandFailed issued.command, queue } := by
  have hspec := w.manager.applyCommandFailed_spec (h.commands.commands id issued hget)
  refine h.givenUp hget hsight hqueue (hspec "").1 (hspec "").2.1 ?_
  intro code hpending
  obtain ⟨hbefore, hnot⟩ := (hspec code).2.2 hpending
  exact ⟨hbefore, fun hrequests => absurd hrequests hnot⟩

/-! ## Runs -/

theorem next (h : InStep w) {event : RealtimeEvent} (hsight : w.KeepsSight settings event) :
    InStep ((RealtimeWorld.machine settings).next w event) := by
  unfold Machine.next RealtimeWorld.machine
  cases event with
  | ensureSubscription code source priority isProtected =>
    exact h.ensureSubscription source priority isProtected hsight
  | removeSubscription code source => exact h.removeSubscription code source
  | sync judge => exact h.sync judge hsight
  | markAllStale reason judge => exact h.markAllStale reason judge hsight
  | execute id succeeds =>
    unfold step
    dsimp only
    cases hget : w.queue.issued.get? id with
    | none => exact h
    | some issued =>
      by_cases hidle : issued.outcome = none
      · simp only [if_pos hidle]
        exact h.executed hget hidle (h.commands.replaces_set hget rfl) hsight
      · simp only [if_neg hidle]
        exact h
  | answer id answer =>
    unfold step
    dsimp only
    cases hget : w.queue.issued.get? id with
    | none => exact h
    | some issued =>
      by_cases hfits : issued.fits answer = true
      · simp only [if_pos hfits]
        cases answer with
        | acked =>
          exact h.acked hget (by simpa [IssuedCommand.fits] using hfits)
            (h.commands.replaces_filter id) (hsight issued hget hfits)
        | failed triedAgain =>
          cases triedAgain with
          | true =>
            exact h.triedAgain hget (by simpa [IssuedCommand.fits] using hfits)
              (h.commands.replaces_set hget rfl)
          | false =>
            exact h.failed hget (hsight issued hget hfits) (h.commands.replaces_filter id)
        | timedOut =>
          exact h.failed hget (hsight issued hget hfits) (h.commands.replaces_set hget rfl)
        | expired =>
          exact h.failed hget (hsight issued hget hfits) (h.commands.replaces_set hget rfl)
      · simp only [if_neg hfits]
        exact h
  | lapse id =>
    unfold step
    dsimp only
    cases hget : w.queue.issued.get? id with
    | none => exact h
    | some issued =>
      obtain ⟨hgives, hrequested⟩ := hsight issued hget
      refine h.givenUp hget hgives (h.commands.replaces_set hget rfl) rfl rfl ?_
      intro code hpending
      obtain ⟨screen, hscreen⟩ := Option.ne_none_iff_exists'.mp hpending
      exact ⟨hpending, hrequested (code, screen) (mem_entries_iff.mpr hscreen)⟩

end InStep

/-! ## Quiet syncs -/

namespace Exchange

theorem foldl_issued_le {β : Type} {step : Exchange → β → Exchange}
    (hstep : ∀ x b, x.issued.length ≤ (step x b).issued.length) (l : List β) (x : Exchange) :
    x.issued.length ≤ (l.foldl step x).issued.length := by
  induction l generalizing x with
  | nil => exact Nat.le_refl _
  | cons b rest ih => exact (hstep x b).trans (ih (step x b))

variable (judge : RealtimeCommand → Admission)

theorem request_issued_length (x : Exchange) (command : RealtimeCommand) :
    (x.request judge command).1.issued.length = x.issued.length + 1 := by
  unfold request
  simp

theorem removeCode_issued_le (x : Exchange) (code : String) :
    x.issued.length ≤ (x.removeCode judge code).issued.length := by
  unfold removeCode
  split
  · exact Nat.le_refl _
  · dsimp only
    split
    · exact Nat.le_refl _
    · rw [request_issued_length]
      omega

theorem registerBatch_issued (x : Exchange) (batch : Nat × List SubscriptionRecord) :
    (x.registerBatch judge batch).issued.length = x.issued.length +
      if cleanCodes (batch.2.map (·.code)) = [] then 0 else 1 := by
  unfold registerBatch
  by_cases hasked : cleanCodes (batch.2.map (·.code)) = []
  · simp only [if_pos hasked, Nat.add_zero]
  · simp only [if_neg hasked, request_issued_length]

theorem registerBatch_issued_le (x : Exchange) (batch : Nat × List SubscriptionRecord) :
    x.issued.length ≤ (x.registerBatch judge batch).issued.length := by
  rw [registerBatch_issued]
  omega

theorem registerRecords_issued_le (settings : RealtimeSettings)
    (judge : RealtimeCommand → Admission) (x : Exchange) (records : List SubscriptionRecord) :
    x.issued.length ≤ (x.registerRecords settings judge records).issued.length :=
  foldl_issued_le (registerBatch_issued_le judge) _ x

theorem registerRecords_issued (settings : RealtimeSettings) (judge : RealtimeCommand → Admission)
    (x : Exchange) {records : List SubscriptionRecord}
    (hkept : ∀ record ∈ records, KeptCode record.code) (hne : records ≠ []) :
    x.issued.length < (x.registerRecords settings judge records).issued.length := by
  obtain ⟨record, hrecord⟩ := exists_mem_of_ne_nil records hne
  have hfiled : ∃ batch ∈ (batchesOf settings x.manager records).entries, record ∈ batch.2 :=
    mem_batchesOf.mpr hrecord
  obtain ⟨batch, hbatch, hmem⟩ := hfiled
  have hasked : cleanCodes (batch.2.map (·.code)) ≠ [] := by
    refine cleanCodes_ne_nil ?_ (ne_nil_of_mem (mem_map_of_mem hmem))
    intro code hcode
    obtain ⟨other, hother, rfl⟩ := mem_map.mp hcode
    exact hkept other (mem_batchesOf.mp ⟨batch, hbatch, hother⟩)
  -- the batch with the record comes at some point, and its command with it
  obtain ⟨before, after, hsplit⟩ := append_of_mem hbatch
  unfold registerRecords
  rw [hsplit, foldl_append, foldl_cons]
  have hbefore := foldl_issued_le (registerBatch_issued_le judge) before x
  have hstep := registerBatch_issued judge (before.foldl (registerBatch judge) x) batch
  rw [if_neg hasked] at hstep
  have hafter := foldl_issued_le (registerBatch_issued_le judge) after
    (registerBatch judge (before.foldl (registerBatch judge) x) batch)
  omega

theorem removeCodes_issued {x : Exchange} {code : String} {screen : Nat}
    (hget : x.manager.codeToScreen.get? code = some screen) (hkept : KeptCode code)
    (judge : RealtimeCommand → Admission) (rest : List String) :
    x.issued.length < ((code :: rest).foldl (removeCode judge) x).issued.length := by
  have hcodes : ∀ value ∈ [code], KeptCode value := by simpa using hkept
  have hstep : (x.removeCode judge code).issued.length = x.issued.length + 1 := by
    unfold removeCode
    simp only [hget, if_neg (cleanCodes_ne_nil hcodes (cons_ne_nil code [])), request_issued_length]
  have hrest := foldl_issued_le (removeCode_issued_le judge) rest (x.removeCode judge code)
  rw [foldl_cons]
  omega

end Exchange

namespace InStep

variable {settings : RealtimeSettings}

/-- A sync that asks for nothing finds the selected codes recorded or pending, and no others
recorded; it changes nothing. -/
theorem sync_silent {w : RealtimeWorld} (h : InStep w) {judge : RealtimeCommand → Admission}
    (hsilent : (RealtimeWorld.machine settings).out w (.sync judge) = []) :
    (RealtimeWorld.machine settings).next w (.sync judge) = w ∧
      (∀ code ∈ w.manager.codeToScreen.keys, code ∈ w.manager.targetCodes settings) ∧
      ∀ code ∈ w.manager.targetCodes settings, w.manager.codeToScreen.get? code ≠ none ∨
        w.manager.pendingRegisterByCode.get? code ≠ none := by
  obtain ⟨removed, hremoved, hsync⟩ := h.sync_eq settings judge
  have hissued : (removed.registerRecords settings judge
      (removed.manager.unregistered (w.manager.targetRecords settings))).issued.length = 0 := by
    rw [← hsync]
    exact length_eq_zero_iff.mpr hsilent
  have hkept : ∀ record ∈ removed.manager.unregistered (w.manager.targetRecords settings),
      KeptCode record.code :=
    fun record hrecord => h.kept_of_mem_targetRecords (mem_of_mem_filter hrecord)
  have hunselected : w.manager.unselected settings = [] := by
    cases hcodes : w.manager.unselected settings with
    | nil => rfl
    | cons code rest =>
      -- a removal would have been asked for
      have hcode : code ∈ w.manager.codeToScreen.keys :=
        mem_of_mem_filter (hcodes ▸ mem_cons_self)
      obtain ⟨screen, hget⟩ := mem_keys_iff.mp hcode
      have hget' : w.exchange.manager.codeToScreen.get? code = some screen := hget
      have hlt := removeCodes_issued hget' (h.recorded code screen hget) judge rest
      have hle := registerRecords_issued_le settings judge removed
        (removed.manager.unregistered (w.manager.targetRecords settings))
      rw [hcodes] at hremoved
      rw [← hremoved] at hlt
      omega
  have hsame : removed = w.exchange := by
    rw [hremoved, hunselected]
    rfl
  have hunregistered : removed.manager.unregistered (w.manager.targetRecords settings) = [] := by
    by_contra hne
    have := registerRecords_issued settings judge removed hkept hne
    omega
  refine ⟨?_, ?_, ?_⟩
  · show w.afterExchange (w.exchange.sync settings judge) = w
    rw [hsync, hunregistered, hsame]
    rfl
  · intro code hcode
    by_contra hnot
    have hmem : code ∈ w.manager.unselected settings :=
      mem_filter.mpr ⟨hcode, by simpa using hnot⟩
    rw [hunselected] at hmem
    exact absurd hmem not_mem_nil
  · intro code hcode
    obtain ⟨record, hrecord, rfl⟩ := mem_map.mp hcode
    rw [hsame] at hunregistered
    by_contra hnone
    rw [not_or, not_not, not_not] at hnone
    have hmem : record ∈ w.exchange.manager.unregistered (w.manager.targetRecords settings) :=
      mem_filter.mpr ⟨hrecord, decide_eq_true hnone⟩
    rw [hunregistered] at hmem
    exact absurd hmem not_mem_nil

theorem agrees {w : RealtimeWorld} (h : InStep w) : w.Agrees settings := by
  refine ⟨h.pending, ?_⟩
  intro hidle first second houtputs
  obtain ⟨hfirst, hsecond⟩ := cons.inj houtputs
  obtain ⟨hnext, hselected, hfound⟩ := h.sync_silent hfirst
  have hrun : (RealtimeWorld.machine settings).run w [.sync first, .sync second] = w := by
    rw [hnext] at hsecond
    rw [Machine.run_cons, Machine.run_cons, hnext, (h.sync_silent (cons.inj hsecond).1).1]
    rfl
  have hnone : ∀ p, ¬ w.queue.Awaits p := by
    rintro p ⟨entry, hentry, hopen, -⟩
    rw [hidle entry hentry] at hopen
    cases hopen
  rw [hrun]
  refine ⟨?_, ?_⟩
  · intro code
    rw [mem_keys_iff]
    constructor
    · rintro ⟨screen, hmem⟩
      exact ⟨screen, (h.known screen code hmem).resolve_right (hnone _)⟩
    · rintro ⟨screen, hget⟩
      exact ⟨screen, (h.held code screen hget).resolve_right (hnone _)⟩
  · intro code
    refine ⟨hselected code, fun hcode => ?_⟩
    have hget := (hfound code hcode).resolve_right fun hpending =>
      hnone _ (h.pending code hpending)
    exact mem_keys_iff.mpr (Option.ne_none_iff_exists'.mp hget)

end InStep

namespace RealtimeWorld

/-- In every run whose events lose sight of no registration, the manager and the Gateway agree
whenever they are quiet, and no code stays pending after its command. -/
theorem always_agrees (settings : RealtimeSettings) {events : List RealtimeEvent}
    (h : (machine settings).Guarded (KeepsSight settings) {} events) :
    (machine settings).Always (Agrees settings) {} events := by
  have hstep : (machine settings).Always InStep {} events :=
    Machine.always_of_guarded (fun _ _ hbefore hsight => hbefore.next hsight) InStep.initial h
  exact hstep.imp fun _ hin => hin.agrees

/-! ## Fixed runs -/

/-- Two stocks are watched and registered; one is dropped, and its removal fails once and succeeds
when it is tried again. Two more syncs ask for nothing, with one stock registered. -/
theorem always_agrees_removedAgain :
    let accept : RealtimeCommand → Admission := fun _ => .accept
    let events : List RealtimeEvent :=
      [.ensureSubscription "A005930" "candidate_watch" none none,
       .ensureSubscription "000660" "holding" none none,
       .sync accept, .execute 0 true, .answer 0 .acked,
       .removeSubscription "005930" "candidate_watch",
       .sync accept, .execute 1 false, .answer 1 (.failed true), .execute 1 true,
       .answer 1 .acked]
    let last := (machine {}).run {} events
    (machine {}).Always (Agrees {}) {} events ∧
      (machine {}).outputs last [.sync accept, .sync accept] = [[], []] ∧
      last.registered = [(7000, "000660")] :=
  ⟨always_agrees {} (by decide +kernel), by decide +kernel, by decide +kernel⟩

/-- The removal fails for good: the stock stays registered at the Gateway, and the manager does
not know of it. -/
theorem failed_removal_stays_registered :
    let accept : RealtimeCommand → Admission := fun _ => .accept
    ¬ (machine {}).Always (Agrees {}) {}
      [.ensureSubscription "005930" "candidate_watch" none none,
       .sync accept, .execute 0 true, .answer 0 .acked,
       .removeSubscription "005930" "candidate_watch",
       .sync accept, .execute 1 false, .answer 1 (.failed false)] := by
  intro accept halways
  have hlast := Machine.always_iff_prefix.mp halways _ (prefix_refl _)
  have hidle : Idle ((machine {}).run {}
      [.ensureSubscription "005930" "candidate_watch" none none,
       .sync accept, .execute 0 true, .answer 0 .acked,
       .removeSubscription "005930" "candidate_watch",
       .sync accept, .execute 1 false, .answer 1 (.failed false)]) := by
    unfold Idle
    decide +kernel
  have hmatches := hlast.quiet hidle accept accept (by decide +kernel)
  have hregistered := (hmatches.registered "005930").mp ⟨7000, by decide +kernel⟩
  revert hregistered
  decide +kernel

end RealtimeWorld

end TradingCore.Realtime
