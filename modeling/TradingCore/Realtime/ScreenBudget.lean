import TradingCore.Base.Slots
import TradingCore.Realtime.GatewayAgreement
import TradingCore.Realtime.ManagerCalls
import Mathlib.Data.List.Dedup

/-!
# Screens are filled within the budget

The codes of the screens and the screens of the codes are two records of one thing; the screens
have a size, and the codes a budget. A sync keeps to both by what is registered and selected. It
does not take back a registration that is pending for a code no longer selected, and an
acknowledgement is recorded on whatever screen it names: the code stays listed on the screen it was
on, and room is not looked for. The condition leaves these out, call by call.
-/

namespace TradingCore.Realtime

open Base Candidates Exchange RealTimeSubscriptionManager Dict Option List

namespace RealTimeSubscriptionManager

/-! ## Representation and budget -/

/-- The codes of each screen, those whose registration is pending among them. -/
def screensWithPending (manager : RealTimeSubscriptionManager) : Dict Nat (List String) :=
  joinSlots manager.screenToCodes manager.pendingRegisterByCode.entries

/-- The records of `_target_records` that go first. -/
def protectedRecords (manager : RealTimeSubscriptionManager) : List SubscriptionRecord :=
  manager.records.values.filter (·.isProtected)

def budget (settings : RealtimeSettings) (manager : RealTimeSubscriptionManager) : Int :=
  max settings.maxCodes manager.protectedRecords.length

/-- The code is registered, or its registration is pending. -/
def Counts (manager : RealTimeSubscriptionManager) (code : String) : Prop :=
  manager.codeToScreen.get? code ≠ none ∨ manager.pendingRegisterByCode.get? code ≠ none

/-- Each code is listed on its screen alone, and no screen holds more codes than it has room for,
pending ones included. -/
structure Represents (settings : RealtimeSettings) (manager : RealTimeSubscriptionManager) :
    Prop where
  mirrors : Mirrors manager.codeToScreen manager.screenToCodes
  fits : ∀ screen, (slotMembers manager.screensWithPending screen).length ≤ settings.screenSize

/-- The codes registered or pending keep to the budget, and every protected record has its code
among them. -/
structure WithinBudget (settings : RealtimeSettings) (manager : RealTimeSubscriptionManager) :
    Prop where
  few : ((manager.codeToScreen.keys ++ manager.pendingRegisterByCode.keys).dedup.length : Int) ≤
    manager.budget settings
  includes : ∀ record ∈ manager.protectedRecords, manager.Counts record.code

/-- Every state of a run has its codes on its screens, and every sync of it keeps to the budget. -/
structure KeepsBudget (tracked : Bool) (settings : RealtimeSettings) (calls : List ManagerCall) :
    Prop where
  represents : (machine tracked settings).Always (Represents settings) {} calls
  budget : ∀ past judge, past ++ [.sync judge] <+: calls →
    ((machine tracked settings).run {} (past ++ [.sync judge])).WithinBudget settings

/-! ## The condition -/

/-- The screen on which an acknowledged code is recorded. -/
def resolvedScreen (settings : RealtimeSettings) (screenNo : Option Nat)
    (manager : RealTimeSubscriptionManager) (code : String) : Nat :=
  (screenNo
      <|> manager.pendingRegisterByCode.get? code
      <|> manager.targetScreenByCode.get? code
      <|> manager.codeToScreen.get? code).getD
    (screenForNewCode settings manager.screenToCodes)

/-- An acknowledged code is on no other screen than the one it is recorded on, and that one counts
it already or has room. -/
structure HasPlace (settings : RealtimeSettings) (screenNo : Option Nat)
    (manager : RealTimeSubscriptionManager) (code : String) : Prop where
  same : ∀ other, manager.codeToScreen.get? code = some other →
    other = manager.resolvedScreen settings screenNo code
  room : code ∈ slotMembers manager.screensWithPending
      (manager.resolvedScreen settings screenNo code) ∨
    (slotMembers manager.screensWithPending
      (manager.resolvedScreen settings screenNo code)).length < settings.screenSize

/-- Each of the acknowledged codes has a place when its turn comes. -/
def HavePlaces (settings : RealtimeSettings) (screenNo : Option Nat) :
    RealTimeSubscriptionManager → List String → Prop
  | _, [] => True
  | manager, code :: rest => HasPlace settings screenNo manager code ∧
      HavePlaces settings screenNo (manager.acknowledgeCode settings screenNo code) rest

/-- The selected codes and the pending ones that are not selected keep to the budget together; with
a tracker, no registration of a protected code is rejected. -/
structure LeavesRoom (tracked : Bool) (settings : RealtimeSettings)
    (manager : RealTimeSubscriptionManager) (judge : RealtimeCommand → Admission) : Prop where
  few : ((manager.targetCodes settings).length +
      (manager.pendingRegisterByCode.keys.filter (· ∉ manager.targetCodes settings)).length : Int) ≤
    manager.budget settings
  accepted : tracked = true → ∀ record ∈ manager.protectedRecords, ∀ command : RealtimeCommand,
    command.Requests record.code → judge command = .accept

/-- The calls under which screens and budget are kept. -/
def Admissible (tracked : Bool) (settings : RealtimeSettings)
    (manager : RealTimeSubscriptionManager) : ManagerCall → Prop
  | .ensureSubscription code _ _ _ => normalizeCode code ≠ ""
  | .sync judge => manager.LeavesRoom tracked settings judge
  | .commandAck command => command.commandType = .registerRealtime →
      HavePlaces settings command.screenNo manager (normalizeCodes command.codes)
  | _ => True

/-! ## Screens -/

variable {settings : RealtimeSettings} {manager after : RealTimeSubscriptionManager}

theorem addToScreen_eq (screens : Dict Nat (List String)) (screen : Nat) (code : String) :
    addToScreen screens screen code = joinSlot screens screen code := by
  unfold addToScreen joinSlot withCode
  rfl

theorem dropFromScreen_eq (screens : Dict Nat (List String)) (screen : Nat) (code : String) :
    dropFromScreen screens screen code = leaveSlot screens screen code := by
  unfold dropFromScreen leaveSlot
  cases screens.get? screen with
  | none => rfl
  | some codes => rfl

theorem mem_screensWithPending {screen : Nat} {code : String} :
    code ∈ slotMembers manager.screensWithPending screen ↔
      code ∈ slotMembers manager.screenToCodes screen ∨
        manager.pendingRegisterByCode.get? code = some screen := by
  unfold screensWithPending
  rw [mem_slotMembers_joinSlots, mem_entries_iff]

theorem length_screensWithPending_le
    (hmirrors : Mirrors manager.codeToScreen manager.screenToCodes) {screen : Nat}
    (codes : List String) (hcodes : ∀ code, manager.codeToScreen.get? code = some screen ∨
      manager.pendingRegisterByCode.get? code = some screen → code ∈ codes) :
    (slotMembers manager.screensWithPending screen).length ≤ codes.length := by
  refine length_joinSlots_le hmirrors.nodup ?_
  intro code hcode
  rw [mem_slotMembers_joinSlots, mem_entries_iff, ← hmirrors.mem] at hcode
  exact hcodes code hcode

namespace Represents

section

variable (h : manager.Represents settings)
include h

theorem mem_of_counted {screen : Nat} {code : String}
    (hcode : manager.codeToScreen.get? code = some screen ∨
      manager.pendingRegisterByCode.get? code = some screen) :
    code ∈ slotMembers manager.screensWithPending screen := by
  rw [mem_screensWithPending, ← h.mirrors.mem]
  exact hcode

theorem of_fewer (hmirrors : Mirrors after.codeToScreen after.screenToCodes)
    (hplaced : ∀ code screen, after.codeToScreen.get? code = some screen →
      manager.codeToScreen.get? code = some screen)
    (hpending : ∀ code screen, after.pendingRegisterByCode.get? code = some screen →
      manager.pendingRegisterByCode.get? code = some screen) :
    after.Represents settings where
  mirrors := hmirrors
  fits := by
    intro screen
    refine (length_screensWithPending_le hmirrors _ ?_).trans (h.fits screen)
    rintro code (hcode | hcode)
    · exact h.mem_of_counted (.inl (hplaced code screen hcode))
    · exact h.mem_of_counted (.inr (hpending code screen hcode))

theorem dropped {code : String} {screen : Nat} (hget : manager.codeToScreen.get? code = some screen)
    (hplace : after.codeToScreen = pop manager.codeToScreen code)
    (hscreens : after.screenToCodes = dropFromScreen manager.screenToCodes screen code)
    (hpending : ∀ other screen', after.pendingRegisterByCode.get? other = some screen' →
      manager.pendingRegisterByCode.get? other = some screen') : after.Represents settings := by
  have hgets : ∀ other, after.codeToScreen.get? other =
      if other = code then none else manager.codeToScreen.get? other := by
    intro other
    rw [hplace, get?_pop]
  refine h.of_fewer ?_ ?_ hpending
  · rw [hscreens, dropFromScreen_eq]
    refine h.mirrors.leave hget ?_ ?_
    · rw [hgets, if_pos rfl]
    · intro other hother
      rw [hgets, if_neg hother]
  · intro other screen' hother
    rw [hgets] at hother
    split at hother
    · cases hother
    · exact hother

end

end Represents

/-! ## Answers -/

theorem Represents.forgetCode (h : manager.Represents settings) (code : String) :
    (manager.forgetCode code).Represents settings := by
  have hpending : ∀ other screen,
      (manager.forgetCode code).pendingRegisterByCode.get? other = some screen →
        manager.pendingRegisterByCode.get? other = some screen := by
    intro other screen hother
    have hother' : (pop manager.pendingRegisterByCode code).get? other = some screen := hother
    rw [get?_pop] at hother'
    split at hother'
    · cases hother'
    · exact hother'
  cases hget : manager.codeToScreen.get? code with
  | some screen =>
    refine h.dropped hget rfl ?_ hpending
    unfold RealTimeSubscriptionManager.forgetCode
    rw [hget]
  | none =>
    -- the code is on no screen, and stays on none
    have hsame : ∀ other, (manager.forgetCode code).codeToScreen.get? other =
        manager.codeToScreen.get? other := by
      intro other
      show (pop manager.codeToScreen code).get? other = _
      rw [get?_pop]
      by_cases hother : other = code
      · rw [if_pos hother, hother, hget]
      · rw [if_neg hother]
    have hscreens : (manager.forgetCode code).screenToCodes = manager.screenToCodes := by
      unfold RealTimeSubscriptionManager.forgetCode
      rw [hget]
    refine h.of_fewer ?_ ?_ hpending
    · rw [hscreens]
      exact h.mirrors.congr hsame
    · intro other screen hother
      rw [hsame] at hother
      exact hother

theorem Represents.acknowledgeCode (h : manager.Represents settings) {screenNo : Option Nat}
    {code : String} (hplace : HasPlace settings screenNo manager code) :
    (manager.acknowledgeCode settings screenNo code).Represents settings := by
  obtain ⟨hsame, hroom⟩ := hplace
  have hplaced : ∀ other, (manager.acknowledgeCode settings screenNo code).codeToScreen.get? other =
      if other = code then some (manager.resolvedScreen settings screenNo code)
      else manager.codeToScreen.get? other := fun other => get?_set _ _ _ _
  have hpending : ∀ other,
      (manager.acknowledgeCode settings screenNo code).pendingRegisterByCode.get? other =
        if other = code then none else manager.pendingRegisterByCode.get? other :=
    fun other => get?_pop _ _ _
  have hmirrors : Mirrors (manager.acknowledgeCode settings screenNo code).codeToScreen
      (manager.acknowledgeCode settings screenNo code).screenToCodes := by
    show Mirrors _ (addToScreen manager.screenToCodes
      (manager.resolvedScreen settings screenNo code) code)
    rw [addToScreen_eq]
    refine h.mirrors.join hsame ?_ ?_
    · rw [hplaced, if_pos rfl]
    · intro other hother
      rw [hplaced, if_neg hother]
  generalize manager.resolvedScreen settings screenNo code = resolved at *
  -- a screen holds what it held, and the resolved one the code besides
  have hheld : ∀ screen other,
      (manager.acknowledgeCode settings screenNo code).codeToScreen.get? other = some screen ∨
        (manager.acknowledgeCode settings screenNo code).pendingRegisterByCode.get? other =
          some screen →
      other ∈ slotMembers manager.screensWithPending screen ∨ other = code ∧ screen = resolved := by
    intro screen other hother
    rw [hplaced, hpending] at hother
    by_cases hcode : other = code
    · subst hcode
      rw [if_pos rfl, if_pos rfl] at hother
      rcases hother with hother | hother
      · injection hother with hother
        exact .inr ⟨rfl, hother.symm⟩
      · cases hother
    · rw [if_neg hcode, if_neg hcode] at hother
      exact .inl (h.mem_of_counted hother)
  refine ⟨hmirrors, fun screen => ?_⟩
  by_cases hscreen : screen = resolved ∧ code ∉ slotMembers manager.screensWithPending screen
  · obtain ⟨rfl, hnew⟩ := hscreen
    refine (length_screensWithPending_le hmirrors
      (slotMembers manager.screensWithPending screen ++ [code]) ?_).trans ?_
    · intro other hother
      rcases hheld screen other hother with hmem | ⟨rfl, -⟩
      · exact mem_append_left _ hmem
      · exact mem_append_right _ (mem_singleton_self other)
    · have hlt := hroom.resolve_left hnew
      rw [length_append, length_singleton]
      omega
  · refine (length_screensWithPending_le hmirrors _ ?_).trans (h.fits screen)
    intro other hother
    rcases hheld screen other hother with hmem | ⟨rfl, hresolved⟩
    · exact hmem
    · by_contra hnew
      exact hscreen ⟨hresolved, hnew⟩

/-! ## Batches -/

/-- Records are assigned to screens with room: the screens hold what they held and the codes of
their batches. -/
structure Assigns (settings : RealtimeSettings) (held : Dict Nat (List String))
    (assigned : Dict Nat (List String) × Dict Nat (List SubscriptionRecord)) : Prop where
  fits : ∀ screen, (slotMembers assigned.1 screen).length ≤ settings.screenSize
  keeps : ∀ screen, ∀ code ∈ slotMembers held screen, code ∈ slotMembers assigned.1 screen
  filed : ∀ screen batch, assigned.2.get? screen = some batch →
    ∀ record ∈ batch, record.code ∈ slotMembers assigned.1 screen

def FiledOnce (batches : Dict Nat (List SubscriptionRecord)) : Prop :=
  ∀ screen batch other batch', batches.get? screen = some batch → batches.get? other = some batch' →
    ∀ record ∈ batch, ∀ record' ∈ batch', record.code = record'.code → screen = other

variable {assigned : Dict Nat (List String) × Dict Nat (List SubscriptionRecord)}
  {record : SubscriptionRecord} {held : Dict Nat (List String)}

theorem mem_batch_assignScreen {next : SubscriptionRecord} {screen : Nat}
    {batch : List SubscriptionRecord}
    (hget : (assignScreen settings assigned next).2.get? screen = some batch)
    (hmem : record ∈ batch) :
    (∃ earlier, assigned.2.get? screen = some earlier ∧ record ∈ earlier) ∨
      record = next ∧ screen = screenForNewCode settings assigned.1 := by
  unfold assignScreen at hget
  dsimp only at hget
  by_cases hscreen : screen = screenForNewCode settings assigned.1
  · subst hscreen
    rw [get?_upsert_self, some.injEq] at hget
    rcases mem_append.mp (hget ▸ hmem) with hearlier | hnext
    · cases hbatch : assigned.2.get? (screenForNewCode settings assigned.1) with
      | none =>
        rw [hbatch] at hearlier
        exact absurd hearlier not_mem_nil
      | some earlier =>
        rw [hbatch] at hearlier
        exact .inl ⟨earlier, rfl, hearlier⟩
    · exact .inr ⟨mem_singleton.mp hnext, rfl⟩
  · rw [get?_upsert_ne _ _ hscreen] at hget
    exact .inl ⟨batch, hget, hmem⟩

theorem Assigns.assignScreen (hsize : 0 < settings.screenSize) (h : Assigns settings held assigned)
    (record : SubscriptionRecord) :
    Assigns settings held (assignScreen settings assigned record) := by
  have hroom : (slotMembers assigned.1 (screenForNewCode settings assigned.1)).length <
      settings.screenSize := firstRoom_room hsize settings.screenBase assigned.1
  have hscreens : (Exchange.assignScreen settings assigned record).1 =
      joinSlot assigned.1 (screenForNewCode settings assigned.1) record.code :=
    addToScreen_eq _ _ _
  refine ⟨?_, ?_, ?_⟩
  · intro screen
    rw [hscreens]
    by_cases hscreen : screen = screenForNewCode settings assigned.1
    · rw [hscreen, slotMembers_joinSlot_self]
      split
      · exact hroom.le
      · rw [length_append, length_singleton]
        omega
    · rw [slotMembers_joinSlot_ne _ _ hscreen]
      exact h.fits screen
  · intro screen code hcode
    rw [hscreens, mem_slotMembers_joinSlot]
    exact .inl (h.keeps screen code hcode)
  · intro screen batch hget filed hfiled
    rw [hscreens, mem_slotMembers_joinSlot]
    rcases mem_batch_assignScreen hget hfiled with ⟨earlier, hearlier, hmem⟩ | ⟨rfl, hscreen⟩
    · exact .inl (h.filed screen earlier hearlier filed hmem)
    · exact .inr ⟨rfl, hscreen⟩

variable {batch : Nat × List SubscriptionRecord} {records : List SubscriptionRecord}

theorem Assigns.foldl (hsize : 0 < settings.screenSize) :
    ∀ {assigned : Dict Nat (List String) × Dict Nat (List SubscriptionRecord)},
      Assigns settings held assigned →
        Assigns settings held (records.foldl (Exchange.assignScreen settings) assigned) := by
  induction records with
  | nil => exact fun h => h
  | cons record rest ih => exact fun h => ih (h.assignScreen hsize record)

theorem filedOnce_foldl :
    ∀ {assigned : Dict Nat (List String) × Dict Nat (List SubscriptionRecord)},
      FiledOnce assigned.2 → (records.map (·.code)).Nodup →
      (∀ screen batch, assigned.2.get? screen = some batch → ∀ filed ∈ batch,
        filed.code ∉ records.map (·.code)) →
        FiledOnce (records.foldl (assignScreen settings) assigned).2 := by
  induction records with
  | nil => exact fun h _ _ => h
  | cons next rest ih =>
    intro assigned h hnodup hfresh
    rw [map_cons] at hnodup hfresh
    obtain ⟨hnext, hrest⟩ := nodup_cons.mp hnodup
    refine ih ?_ hrest ?_
    · intro screen batch other batch' hget hget' record hrecord record' hrecord' hsame
      rcases mem_batch_assignScreen hget hrecord with ⟨earlier, hearlier, hmem⟩ | ⟨rfl, hscreen⟩
      · rcases mem_batch_assignScreen hget' hrecord' with
          ⟨earlier', hearlier', hmem'⟩ | ⟨rfl, -⟩
        · exact h screen earlier other earlier' hearlier hearlier' record hmem record' hmem' hsame
        · -- the code of the next record is in no earlier batch
          refine absurd ?_ (hfresh screen earlier hearlier record hmem)
          rw [hsame]
          exact mem_cons_self
      · rcases mem_batch_assignScreen hget' hrecord' with
          ⟨earlier', hearlier', hmem'⟩ | ⟨-, hother⟩
        · refine absurd ?_ (hfresh other earlier' hearlier' record' hmem')
          rw [← hsame]
          exact mem_cons_self
        · rw [hscreen, hother]
    · intro screen batch hget filed hfiled hmem
      rcases mem_batch_assignScreen hget hfiled with ⟨earlier, hearlier, hold⟩ | ⟨rfl, -⟩
      · exact hfresh screen earlier hearlier filed hold (mem_cons_of_mem _ hmem)
      · exact hnext hmem

theorem batchesOf_spec (hsize : 0 < settings.screenSize) (h : manager.Represents settings)
    (hnodup : (records.map (·.code)).Nodup) :
    FiledOnce (batchesOf settings manager records) ∧
      ∃ held, Assigns settings manager.screensWithPending
        (held, batchesOf settings manager records) := by
  have hsorted : ((records.insertionSort fun a b : SubscriptionRecord =>
      a.registrationSortKey ≤ b.registrationSortKey).map (·.code)).Nodup :=
    ((perm_insertionSort _ records).map _).nodup_iff.mpr hnodup
  have hscreens : manager.pendingRegisterByCode.entries.foldl
      (fun screens entry => addToScreen screens entry.2 entry.1) manager.screenToCodes =
        manager.screensWithPending := by
    unfold screensWithPending joinSlots
    simp only [addToScreen_eq]
  have hstart : Assigns settings manager.screensWithPending
      (manager.screensWithPending, .empty) := by
    refine ⟨h.fits, fun _ _ hcode => hcode, ?_⟩
    intro screen batch hget
    cases hget
  unfold batchesOf
  rw [hscreens]
  refine ⟨filedOnce_foldl ?_ hsorted ?_, _, hstart.foldl hsize⟩
  · intro screen batch other batch' hget
    cases hget
  · intro screen batch hget
    cases hget

/-! ## Registrations -/

def InBatch (batches : List (Nat × List SubscriptionRecord)) (screen : Nat) (code : String) : Prop :=
  ∃ batch ∈ batches, batch.1 = screen ∧ code ∈ batch.2.map (·.code)

/-- What asking for batches does: codes are placed, or become pending, on the screens of their
batches; what counts goes on counting, and what is accepted counts. -/
structure Registers (tracked : Bool) (judge : RealtimeCommand → Admission)
    (batches : List (Nat × List SubscriptionRecord))
    (before after : RealTimeSubscriptionManager) : Prop where
  records : after.records = before.records
  placed : ∀ code screen, after.codeToScreen.get? code = some screen →
    before.codeToScreen.get? code = some screen ∨ InBatch batches screen code
  pending : ∀ code screen, after.pendingRegisterByCode.get? code = some screen →
    before.pendingRegisterByCode.get? code = some screen ∨ InBatch batches screen code
  counts : ∀ code, before.Counts code → after.Counts code
  asked : ∀ screen code, InBatch batches screen code →
    (tracked = true → ∀ command : RealtimeCommand, command.Requests code →
      judge command = .accept) → after.Counts code

theorem get?_upsertAll_screen (map : Dict String Nat) (codes : List String) (screen : Nat)
    (code : String) : (map.upsertAll codes fun _ _ => screen).get? code =
      if code ∈ codes then some screen else map.get? code := by
  refine foldl_leaves (fun map => map.get? code) ?_ codes map
  intro before next
  exact get?_set _ _ _ _

variable (judge : RealtimeCommand → Admission)

theorem registerDirectly_registers (manager : RealTimeSubscriptionManager)
    (batch : Nat × List SubscriptionRecord) :
    Registers false judge [batch] manager (manager.registerDirectly batch) := by
  have hplaced : ∀ code, (manager.registerDirectly batch).codeToScreen.get? code =
      if code ∈ batch.2.map (·.code) then some batch.1 else manager.codeToScreen.get? code :=
    get?_upsertAll_screen manager.codeToScreen _ batch.1
  refine ⟨rfl, ?_, fun _ _ hpending => .inl hpending, ?_, ?_⟩
  · intro code screen hget
    rw [hplaced] at hget
    by_cases hcode : code ∈ batch.2.map (·.code)
    · rw [if_pos hcode, some.injEq] at hget
      exact .inr ⟨batch, mem_singleton_self batch, hget, hcode⟩
    · rw [if_neg hcode] at hget
      exact .inl hget
  · rintro code (hcounts | hcounts)
    · refine .inl ?_
      rw [hplaced]
      split
      · exact some_ne_none _
      · exact hcounts
    · exact .inr hcounts
  · rintro screen code ⟨asked, hasked, -, hcode⟩ -
    rw [mem_singleton.mp hasked] at hcode
    refine .inl ?_
    rw [hplaced, if_pos hcode]
    exact some_ne_none _

theorem registerBatch_manager (x : Exchange) (batch : Nat × List SubscriptionRecord) :
    ∃ trackable : Bool, (x.registerBatch judge batch).manager =
        { x.manager with
          targetScreenByCode :=
            x.manager.targetScreenByCode.upsertAll (batch.2.map (·.code)) fun _ _ => batch.1
          pendingRegisterByCode := if trackable then
              x.manager.pendingRegisterByCode.upsertAll (batch.2.map (·.code)) fun _ _ => batch.1
            else x.manager.pendingRegisterByCode } ∧
      (cleanCodes (batch.2.map (·.code)) ≠ [] →
        judge (registerCommand x.manager.subscriptionGeneration batch.1
          (batch.2.map (·.code))) = .accept → trackable = true) := by
  unfold registerBatch
  by_cases hasked : cleanCodes (batch.2.map (·.code)) = []
  · simp only [if_pos hasked]
    exact ⟨false, rfl, fun hne => absurd hasked hne⟩
  · simp only [if_neg hasked]
    refine ⟨_, rfl, fun _ haccept => ?_⟩
    unfold Exchange.request
    rw [haccept]
    simp [RealtimeCommandQueue.enqueue, RealtimeCommandReceipt.pendingTrackable]

theorem registerBatch_registers (x : Exchange) (hkept : ∀ record ∈ batch.2, KeptCode record.code) :
    Registers true judge [batch] x.manager (x.registerBatch judge batch).manager ∧
      (x.registerBatch judge batch).manager.codeToScreen = x.manager.codeToScreen ∧
      (x.registerBatch judge batch).manager.screenToCodes = x.manager.screenToCodes := by
  obtain ⟨trackable, hmanager, haccepted⟩ := registerBatch_manager judge x batch
  rw [hmanager]
  have hcodes : ∀ code ∈ batch.2.map (·.code), KeptCode code := by simpa using hkept
  have hpending : ∀ code, (if trackable then
        x.manager.pendingRegisterByCode.upsertAll (batch.2.map (·.code)) fun _ _ => batch.1
      else x.manager.pendingRegisterByCode).get? code =
        if trackable = true ∧ code ∈ batch.2.map (·.code) then some batch.1
        else x.manager.pendingRegisterByCode.get? code := by
    intro code
    cases trackable with
    | true =>
      rw [if_pos rfl, get?_upsertAll_screen]
      simp only [true_and]
    | false => simp
  refine ⟨⟨rfl, fun _ _ hplaced => .inl hplaced, ?_, ?_, ?_⟩, rfl, rfl⟩
  · intro code screen hget
    dsimp only at hget
    rw [hpending] at hget
    split at hget
    · next hboth =>
        injection hget with hget
        exact .inr ⟨batch, mem_singleton_self batch, hget, hboth.2⟩
    · exact .inl hget
  · rintro code (hcounts | hcounts)
    · exact .inl hcounts
    · refine .inr ?_
      dsimp only
      rw [hpending]
      split
      · exact some_ne_none _
      · exact hcounts
  · rintro screen code ⟨asked, hasked, -, hcode⟩ haccept
    rw [mem_singleton.mp hasked] at hcode
    have htrackable : trackable = true := haccepted
      (cleanCodes_ne_nil hcodes (ne_nil_of_mem hcode))
      (haccept rfl _ ((registerCommand_requests hcodes _ _).mpr hcode))
    refine .inr ?_
    dsimp only
    rw [hpending, if_pos ⟨htrackable, hcode⟩]
    exact some_ne_none _

/-- Asking for one batch keeps the two records of places, if its codes are placed on no other
screen. -/
theorem registerBatchOf_registers (tracked : Bool) (judge : RealtimeCommand → Admission)
    (x : Exchange) (hmirrors : Mirrors x.manager.codeToScreen x.manager.screenToCodes)
    (hkept : ∀ record ∈ batch.2, KeptCode record.code)
    (hfree : ∀ code ∈ batch.2.map (·.code), ∀ other,
      x.manager.codeToScreen.get? code = some other → other = batch.1) :
    Registers tracked judge [batch] x.manager (x.registerBatchOf tracked judge batch).manager ∧
      Mirrors (x.registerBatchOf tracked judge batch).manager.codeToScreen
        (x.registerBatchOf tracked judge batch).manager.screenToCodes := by
  cases tracked with
  | true =>
    obtain ⟨hregisters, hplaces, hscreens⟩ := registerBatch_registers judge x hkept
    refine ⟨hregisters, ?_⟩
    show Mirrors (x.registerBatch judge batch).manager.codeToScreen
      (x.registerBatch judge batch).manager.screenToCodes
    rw [hplaces, hscreens]
    exact hmirrors
  | false =>
    refine ⟨registerDirectly_registers judge x.manager batch, ?_⟩
    have hjoined := hmirrors.joinEach hfree
    simp only [← addToScreen_eq] at hjoined
    exact hjoined

theorem Registers.cons {tracked : Bool} {judge : RealtimeCommand → Admission}
    {rest : List (Nat × List SubscriptionRecord)} {before middle last : RealTimeSubscriptionManager}
    (h : Registers tracked judge [batch] before middle)
    (h' : Registers tracked judge rest middle last) :
    Registers tracked judge (batch :: rest) before last := by
  have hfirst : ∀ {screen code}, InBatch [batch] screen code →
      InBatch (batch :: rest) screen code := by
    rintro screen code ⟨asked, hasked, hscreen⟩
    exact ⟨asked, mem_cons.mpr (.inl (mem_singleton.mp hasked)), hscreen⟩
  have hlater : ∀ {screen code}, InBatch rest screen code →
      InBatch (batch :: rest) screen code := by
    rintro screen code ⟨asked, hasked, hscreen⟩
    exact ⟨asked, mem_cons_of_mem batch hasked, hscreen⟩
  refine ⟨h'.records.trans h.records, ?_, ?_, fun code hcounts => h'.counts code (h.counts code
    hcounts), ?_⟩
  · intro code screen hget
    rcases h'.placed code screen hget with hmiddle | hin
    · exact (h.placed code screen hmiddle).imp_right hfirst
    · exact .inr (hlater hin)
  · intro code screen hget
    rcases h'.pending code screen hget with hmiddle | hin
    · exact (h.pending code screen hmiddle).imp_right hfirst
    · exact .inr (hlater hin)
  · rintro screen code ⟨asked, hasked, hin⟩ haccept
    rcases mem_cons.mp hasked with rfl | hrest
    · exact h'.counts code (h.asked screen code ⟨asked, mem_singleton_self asked, hin⟩ haccept)
    · exact h'.asked screen code ⟨asked, hrest, hin⟩ haccept

theorem foldl_registerBatchOf (tracked : Bool) (judge : RealtimeCommand → Admission)
    {batches : List (Nat × List SubscriptionRecord)}
    (hkept : ∀ batch ∈ batches, ∀ record ∈ batch.2, KeptCode record.code)
    (honce : ∀ screen other code, InBatch batches screen code → InBatch batches other code →
      screen = other) :
    ∀ {x : Exchange}, Mirrors x.manager.codeToScreen x.manager.screenToCodes →
      (∀ screen code, InBatch batches screen code → ∀ other,
        x.manager.codeToScreen.get? code = some other → other = screen) →
      Registers tracked judge batches x.manager
          (batches.foldl (registerBatchOf tracked judge) x).manager ∧
        Mirrors (batches.foldl (registerBatchOf tracked judge) x).manager.codeToScreen
          (batches.foldl (registerBatchOf tracked judge) x).manager.screenToCodes := by
  induction batches with
  | nil =>
    intro x hmirrors _
    refine ⟨⟨rfl, fun _ _ h => .inl h, fun _ _ h => .inl h, fun _ h => h, ?_⟩, hmirrors⟩
    rintro screen code ⟨batch, hbatch, -⟩
    exact absurd hbatch not_mem_nil
  | cons batch rest ih =>
    intro x hmirrors hfree
    have hlater : ∀ {screen code}, InBatch rest screen code →
        InBatch (batch :: rest) screen code := by
      rintro screen code ⟨asked, hasked, hscreen⟩
      exact ⟨asked, mem_cons_of_mem batch hasked, hscreen⟩
    have hhead : ∀ {screen code}, InBatch [batch] screen code →
        InBatch (batch :: rest) screen code := by
      rintro screen code ⟨asked, hasked, hscreen⟩
      exact ⟨asked, mem_cons.mpr (.inl (mem_singleton.mp hasked)), hscreen⟩
    obtain ⟨hregisters, hmirrors'⟩ := registerBatchOf_registers tracked judge x hmirrors
      (hkept batch mem_cons_self) fun code hcode =>
        hfree batch.1 code ⟨batch, mem_cons_self, rfl, hcode⟩
    obtain ⟨hrest, hlast⟩ := ih
      (fun other hother => hkept other (mem_cons_of_mem batch hother))
      (fun screen other code hin hin' => honce screen other code (hlater hin) (hlater hin'))
      hmirrors' (by
        intro screen code hin other hget
        rcases hregisters.placed code other hget with hplaced | hfirst
        · exact hfree screen code (hlater hin) other hplaced
        · exact honce other screen code (hhead hfirst) (hlater hin))
    exact ⟨hregisters.cons hrest, hlast⟩

/-! ## Selected records -/

theorem targetRecords_subperm (settings : RealtimeSettings)
    (manager : RealTimeSubscriptionManager) :
    Subperm (manager.targetRecords settings) manager.records.values := by
  unfold targetRecords
  dsimp only
  split
  · exact (perm_insertionSort _ _).subperm.trans filter_sublist.subperm
  · -- the regular records are cut, and the rest are all records
    have hregular := (take_sublist (max 0 (settings.maxCodes -
      ((manager.records.values.filter (·.isProtected)).insertionSort
        fun a b => b.recordSortKey ≤ a.recordSortKey).length)).toNat
      ((manager.records.values.filter fun record => !record.isProtected).insertionSort
        fun a b => b.recordSortKey ≤ a.recordSortKey))
    refine (Sublist.append_left hregular _).subperm.trans ?_
    refine ((perm_insertionSort _ _).append (perm_insertionSort _ _)).subperm.trans ?_
    exact (filter_append_perm (fun record : SubscriptionRecord => record.isProtected)
      manager.records.values).subperm

theorem mem_targetRecords_of_protected (h : record ∈ manager.protectedRecords) :
    record ∈ manager.targetRecords settings := by
  unfold targetRecords
  dsimp only
  split
  · exact (mem_insertionSort _).mpr h
  · exact mem_append_left _ ((mem_insertionSort _).mpr h)

/-! ## The invariant -/

/-- The records are filed under their codes, no code is blank, and the codes are on their
screens. -/
structure Sound (settings : RealtimeSettings) (manager : RealTimeSubscriptionManager) : Prop where
  represents : manager.Represents settings
  records : ∀ code record, manager.records.get? code = some record →
    record.code = code ∧ KeptCode code
  notBlank : ∀ code, manager.codeToScreen.get? code ≠ none → code ≠ ""

namespace Sound

theorem initial (settings : RealtimeSettings) :
    Sound settings ({} : RealTimeSubscriptionManager) where
  represents := ⟨.empty, fun screen => Nat.zero_le _⟩
  records := by simp
  notBlank := by simp

theorem kept_of_mem_values (h : manager.Sound settings) {record : SubscriptionRecord}
    (hrecord : record ∈ manager.records.values) : KeptCode record.code := by
  obtain ⟨code, hget⟩ := mem_values_iff.mp hrecord
  obtain ⟨hcode, hkept⟩ := h.records code record hget
  exact hcode ▸ hkept

theorem nodup_targetCodes (h : manager.Sound settings) (settings' : RealtimeSettings) :
    ((manager.targetRecords settings').map (·.code)).Nodup := by
  have hcodes : manager.records.values.map (·.code) = manager.records.keys := by
    unfold values Dict.keys
    rw [List.map_map]
    refine map_congr_left ?_
    rintro ⟨code, record⟩ hentry
    exact (h.records code record (mem_entries_iff.mp hentry)).1
  obtain ⟨some, hperm, hsub⟩ := targetRecords_subperm settings' manager
  refine (hperm.map _).nodup_iff.mp ((hsub.map _).nodup ?_)
  rw [hcodes]
  exact manager.records.nodup

variable {x : Exchange} {codes : List String}

theorem registerRecordsOf (hsize : 0 < settings.screenSize) (h : x.manager.Sound settings)
    (tracked : Bool) (judge : RealtimeCommand → Admission) {records : List SubscriptionRecord}
    (hrecords : ∀ record ∈ records, record ∈ x.manager.records.values)
    (hnodup : (records.map (·.code)).Nodup)
    (hfree : ∀ record ∈ records, x.manager.codeToScreen.get? record.code = none) :
    (x.registerRecordsOf tracked settings judge records).manager.Sound settings ∧
      Registers tracked judge (batchesOf settings x.manager records).entries x.manager
        (x.registerRecordsOf tracked settings judge records).manager := by
  obtain ⟨honce, held, hassigns⟩ := batchesOf_spec hsize h.represents hnodup
  have hmem : ∀ batch ∈ (batchesOf settings x.manager records).entries,
      ∀ record ∈ batch.2, record ∈ records :=
    fun batch hbatch record hrecord => mem_batchesOf.mp ⟨batch, hbatch, hrecord⟩
  have hkept : ∀ batch ∈ (batchesOf settings x.manager records).entries,
      ∀ record ∈ batch.2, KeptCode record.code :=
    fun batch hbatch record hrecord =>
      h.kept_of_mem_values (hrecords record (hmem batch hbatch record hrecord))
  obtain ⟨hregisters, hmirrors⟩ := foldl_registerBatchOf tracked judge hkept (by
    rintro screen other code ⟨batch, hbatch, rfl, hcode⟩ ⟨batch', hbatch', rfl, hcode'⟩
    obtain ⟨record, hrecord, rfl⟩ := mem_map.mp hcode
    obtain ⟨record', hrecord', hsame⟩ := mem_map.mp hcode'
    exact honce _ _ _ _ (mem_entries_iff.mp hbatch) (mem_entries_iff.mp hbatch')
      record hrecord record' hrecord' hsame.symm) h.represents.mirrors (by
    rintro screen code ⟨batch, hbatch, -, hcode⟩ other hget
    obtain ⟨record, hrecord, rfl⟩ := mem_map.mp hcode
    rw [hfree record (hmem batch hbatch record hrecord)] at hget
    cases hget)
  change Registers tracked judge _ x.manager
    (x.registerRecordsOf tracked settings judge records).manager at hregisters
  change Mirrors (x.registerRecordsOf tracked settings judge records).manager.codeToScreen
    (x.registerRecordsOf tracked settings judge records).manager.screenToCodes at hmirrors
  generalize (x.registerRecordsOf tracked settings judge records).manager = registered at *
  have hheld : ∀ screen code, InBatch (batchesOf settings x.manager records).entries
      screen code → code ∈ slotMembers held screen := by
    rintro screen code ⟨batch, hbatch, rfl, hcode⟩
    obtain ⟨record, hrecord, rfl⟩ := mem_map.mp hcode
    exact hassigns.filed batch.1 batch.2 (mem_entries_iff.mp hbatch) record hrecord
  refine ⟨⟨⟨hmirrors, fun screen => ?_⟩, ?_, ?_⟩, hregisters⟩
  · -- what a screen counts after is on the screens that the records were assigned to
    refine (length_screensWithPending_le hmirrors (slotMembers held screen) ?_).trans
      (hassigns.fits screen)
    rintro code (hget | hget)
    · rcases hregisters.placed code screen hget with hbefore | hin
      · exact hassigns.keeps screen code (h.represents.mem_of_counted (.inl hbefore))
      · exact hheld screen code hin
    · rcases hregisters.pending code screen hget with hbefore | hin
      · exact hassigns.keeps screen code (h.represents.mem_of_counted (.inr hbefore))
      · exact hheld screen code hin
  · rw [hregisters.records]
    exact h.records
  · intro code hplaced
    obtain ⟨screen, hget⟩ := ne_none_iff_exists'.mp hplaced
    rcases hregisters.placed code screen hget with hbefore | ⟨batch, hbatch, -, hcode⟩
    · exact h.notBlank code (by simp [hbefore])
    · obtain ⟨record, hrecord, rfl⟩ := mem_map.mp hcode
      exact (hkept batch hbatch record hrecord).notBlank

/-! ## Removals -/

theorem removeCode (h : x.manager.Sound settings) (judge : RealtimeCommand → Admission)
    (code : String) : (x.removeCode judge code).manager.Sound settings := by
  cases hget : x.manager.codeToScreen.get? code with
  | none =>
    unfold Exchange.removeCode
    rw [hget]
    exact h
  | some screen =>
    obtain ⟨hplaces, hscreens⟩ := removeCode_manager judge hget
    refine ⟨h.represents.dropped hget hplaces hscreens ?_, ?_, ?_⟩
    · intro other screen' hother
      rwa [removeCode_pending] at hother
    · rw [removeCode_records]
      exact h.records
    · intro other hother
      rw [hplaces, get?_pop] at hother
      split at hother
      · exact absurd rfl hother
      · exact h.notBlank other hother

variable (judge : RealtimeCommand → Admission)

theorem removeEach :
    ∀ {x : Exchange}, x.manager.Sound settings →
      (x.removeEach judge codes).manager.Sound settings := by
  induction codes with
  | nil => exact fun h => h
  | cons code rest ih =>
    intro x h
    unfold Exchange.removeEach
    split
    · exact h
    · exact ih (h.removeCode judge code)

theorem removeCodesOf (hsize : 0 < settings.screenSize) (h : x.manager.Sound settings)
    (tracked : Bool) (judge : RealtimeCommand → Admission) (codes : List String) :
    (x.removeCodesOf tracked settings judge codes).manager.Sound settings := by
  unfold Exchange.removeCodesOf
  dsimp only
  split
  · exact h
  · split
    · have hcleared : Sound settings
          { x.manager with codeToScreen := .empty, screenToCodes := .empty } := by
        refine ⟨h.represents.of_fewer .empty ?_ fun _ _ hpending => hpending, h.records, ?_⟩
        · intro code screen hget
          cases hget
        · intro code hplaced
          exact absurd rfl hplaced
      exact (registerRecordsOf (x := { x.removeAllClientRealtime judge _ with
        manager := { x.manager with codeToScreen := .empty, screenToCodes := .empty } })
        hsize hcleared tracked judge
        (fun _ => mem_values_of_mem_targetRecords) (hcleared.nodup_targetCodes settings)
        fun _ _ => rfl).1
    · exact h.removeEach judge

theorem get?_foldl_removeCode :
    ∀ {x : Exchange} {code : String},
      (codes.foldl (Exchange.removeCode judge) x).manager.codeToScreen.get? code =
        if code ∈ codes then none else x.manager.codeToScreen.get? code := by
  intro x code
  refine foldl_leaves (fun x : Exchange => x.manager.codeToScreen.get? code) ?_ codes x
  intro x next
  cases hget : x.manager.codeToScreen.get? next with
  | none =>
    unfold Exchange.removeCode
    rw [hget]
    by_cases hcode : code = next
    · rw [if_pos hcode, hcode, hget]
    · rw [if_neg hcode]
  | some screen => rw [(removeCode_manager judge hget).1, get?_pop]

theorem foldl_removeCode (codes : List String) :
    ∀ {x : Exchange}, x.manager.Sound settings →
      (codes.foldl (Exchange.removeCode judge) x).manager.Sound settings ∧
        (codes.foldl (Exchange.removeCode judge) x).manager.records = x.manager.records ∧
        (codes.foldl (Exchange.removeCode judge) x).manager.pendingRegisterByCode =
          x.manager.pendingRegisterByCode := by
  induction codes with
  | nil => exact fun h => ⟨h, rfl, rfl⟩
  | cons code rest ih =>
    intro x h
    obtain ⟨hsound, hrecords, hpending⟩ := ih (h.removeCode judge code)
    refine ⟨hsound, ?_, ?_⟩
    · rw [foldl_cons, hrecords, removeCode_records]
    · rw [foldl_cons, hpending, removeCode_pending]

/-! ## Syncs -/

/-- A sync removes what is not selected and registers what is: afterwards the codes on screens are
selected, the pending ones are or were pending before, and what was accepted counts. -/
theorem syncOf (hsize : 0 < settings.screenSize) (h : x.manager.Sound settings) (tracked : Bool)
    (judge : RealtimeCommand → Admission) :
    (x.syncOf tracked settings judge).manager.Sound settings ∧
      (x.syncOf tracked settings judge).manager.records = x.manager.records ∧
      (∀ code, (x.syncOf tracked settings judge).manager.Counts code →
        code ∈ x.manager.targetCodes settings ∨ x.manager.pendingRegisterByCode.get? code ≠ none) ∧
      ∀ record ∈ x.manager.targetRecords settings,
        (tracked = true → ∀ command : RealtimeCommand, command.Requests record.code →
          judge command = .accept) →
        (x.syncOf tracked settings judge).manager.Counts record.code := by
  unfold Exchange.syncOf
  dsimp only
  rw [removeCodesOf_unselected]
  obtain ⟨hremoved, hrecords, hpending⟩ := foldl_removeCode judge
    ((x.manager.unselected settings).filter (· ≠ "")) h
  have hselected : ∀ code,
      (((x.manager.unselected settings).filter (· ≠ "")).foldl (Exchange.removeCode judge)
        x).manager.codeToScreen.get? code ≠ none → code ∈ x.manager.targetCodes settings := by
    intro code hplaced
    rw [get?_foldl_removeCode] at hplaced
    by_contra hnot
    split at hplaced
    · exact hplaced rfl
    · next hkept =>
        refine hkept (mem_filter.mpr ⟨mem_filter.mpr ⟨?_, by simpa using hnot⟩,
          by simpa using h.notBlank code hplaced⟩)
        exact mem_keys_iff.mpr (ne_none_iff_exists'.mp hplaced)
  generalize ((x.manager.unselected settings).filter (· ≠ "")).foldl (Exchange.removeCode judge) x =
    removed at *
  have hvalues : ∀ record ∈ removed.manager.unregistered (x.manager.targetRecords settings),
      record ∈ removed.manager.records.values := by
    intro record hrecord
    rw [hrecords]
    exact mem_values_of_mem_targetRecords (mem_of_mem_filter hrecord)
  have hnodup : ((removed.manager.unregistered (x.manager.targetRecords settings)).map
      (·.code)).Nodup :=
    (filter_sublist.map _).nodup (h.nodup_targetCodes settings)
  have hfree : ∀ record ∈ removed.manager.unregistered (x.manager.targetRecords settings),
      removed.manager.codeToScreen.get? record.code = none := by
    intro record hrecord
    exact (of_decide_eq_true (mem_filter.mp hrecord).2).1
  obtain ⟨hsound, hregisters⟩ := hremoved.registerRecordsOf hsize tracked judge hvalues hnodup hfree
  refine ⟨hsound, hregisters.records.trans hrecords, ?_, ?_⟩
  · -- a code of a batch is the code of a selected record
    have hbatch : ∀ screen code, InBatch (batchesOf settings removed.manager
        (removed.manager.unregistered (x.manager.targetRecords settings))).entries screen code →
          code ∈ x.manager.targetCodes settings := by
      rintro screen code ⟨batch, hbatch, -, hcode⟩
      obtain ⟨record, hrecord, rfl⟩ := mem_map.mp hcode
      exact mem_map_of_mem (mem_of_mem_filter (mem_batchesOf.mp ⟨batch, hbatch, hrecord⟩))
    rintro code (hcounts | hcounts)
    · obtain ⟨screen, hget⟩ := ne_none_iff_exists'.mp hcounts
      rcases hregisters.placed code screen hget with hbefore | hin
      · exact .inl (hselected code (by simp [hbefore]))
      · exact .inl (hbatch screen code hin)
    · obtain ⟨screen, hget⟩ := ne_none_iff_exists'.mp hcounts
      rcases hregisters.pending code screen hget with hbefore | hin
      · rw [hpending] at hbefore
        exact .inr (by simp [hbefore])
      · exact .inl (hbatch screen code hin)
  · intro record hrecord haccept
    by_cases hcounts : removed.manager.Counts record.code
    · exact hregisters.counts record.code hcounts
    · -- the record is registered in this sync
      unfold Counts at hcounts
      rw [not_or, not_not, not_not] at hcounts
      have hunregistered : record ∈
          removed.manager.unregistered (x.manager.targetRecords settings) :=
        mem_filter.mpr ⟨hrecord, decide_eq_true hcounts⟩
      obtain ⟨batch, hbatch, hmem⟩ := mem_batchesOf.mpr hunregistered
      exact hregisters.asked batch.1 record.code ⟨batch, hbatch, rfl, mem_map_of_mem hmem⟩ haccept

theorem withinBudget_sync (hsize : 0 < settings.screenSize) {tracked : Bool}
    (h : manager.Sound settings) {judge : RealtimeCommand → Admission}
    (hroom : manager.LeavesRoom tracked settings judge) :
    (manager.handle tracked settings (.sync judge)).WithinBudget settings := by
  obtain ⟨-, hrecords, hcounts, hasked⟩ := syncOf hsize (x := manager.exchange) h tracked judge
  change (manager.handle tracked settings (.sync judge)).records = manager.records at hrecords
  change ∀ code, (manager.handle tracked settings (.sync judge)).Counts code → _ at hcounts
  change ∀ record ∈ manager.targetRecords settings, _ →
    (manager.handle tracked settings (.sync judge)).Counts record.code at hasked
  generalize manager.handle tracked settings (.sync judge) = synced at *
  have hprotected : synced.protectedRecords = manager.protectedRecords := by
    unfold protectedRecords
    rw [hrecords]
  refine ⟨?_, ?_⟩
  · have hbudget : synced.budget settings = manager.budget settings := by
      unfold budget
      rw [hprotected]
    have hsubset : (synced.codeToScreen.keys ++ synced.pendingRegisterByCode.keys).dedup ⊆
        manager.targetCodes settings ++
          manager.pendingRegisterByCode.keys.filter (· ∉ manager.targetCodes settings) := by
      intro code hcode
      have hcount : synced.Counts code := by
        rcases mem_append.mp (mem_dedup.mp hcode) with hkey | hkey
        · exact .inl (ne_none_iff_exists'.mpr (mem_keys_iff.mp hkey))
        · exact .inr (ne_none_iff_exists'.mpr (mem_keys_iff.mp hkey))
      by_cases htarget : code ∈ manager.targetCodes settings
      · exact mem_append_left _ htarget
      · have hpending := (hcounts code hcount).resolve_left htarget
        refine mem_append_right _ (mem_filter.mpr ⟨?_, by simpa using htarget⟩)
        exact mem_keys_iff.mpr (ne_none_iff_exists'.mp hpending)
    have hlength := (subperm_of_subset (nodup_dedup _) hsubset).length_le
    rw [length_append] at hlength
    have hfew := hroom.few
    rw [hbudget]
    omega
  · intro record hrecord
    rw [hprotected] at hrecord
    exact hasked record (mem_targetRecords_of_protected hrecord) fun htracked =>
      hroom.accepted htracked record hrecord

/-! ## Runs -/

theorem withRecords (h : manager.Sound settings) {records : Dict String SubscriptionRecord}
    (hrecords : Filed records) :
    Sound settings { manager with records } :=
  ⟨⟨h.represents.mirrors, h.represents.fits⟩, hrecords, h.notBlank⟩

theorem markAllStale (h : manager.Sound settings) (judge : RealtimeCommand → Admission)
    (reason : String) :
    (manager.exchange.markAllStale judge reason).manager.Sound settings := by
  have hrecords : (manager.exchange.markAllStale judge reason).manager.records =
      manager.records := by
    unfold Exchange.markAllStale
    dsimp only
    split <;> rfl
  refine ⟨h.represents.of_fewer .empty ?_ ?_, ?_, ?_⟩
  · intro code screen hget
    cases hget
  · intro code screen hget
    cases hget
  · rw [hrecords]
    exact h.records
  · intro code hplaced
    exact absurd rfl hplaced

theorem acknowledgeCode (h : manager.Sound settings) {screenNo : Option Nat} {code : String}
    (hplace : HasPlace settings screenNo manager code) (hblank : code ≠ "") :
    (manager.acknowledgeCode settings screenNo code).Sound settings := by
  refine ⟨h.represents.acknowledgeCode hplace, h.records, ?_⟩
  intro other hplaced
  have hplaced' : (manager.codeToScreen.set code
      (manager.resolvedScreen settings screenNo code)).get? other ≠ none := hplaced
  rw [get?_set] at hplaced'
  split at hplaced'
  · next hother => exact hother ▸ hblank
  · exact h.notBlank other hplaced'

theorem foldl_acknowledgeCode {screenNo : Option Nat} (hblank : ∀ code ∈ codes, code ≠ "") :
    ∀ {manager : RealTimeSubscriptionManager}, manager.Sound settings →
      HavePlaces settings screenNo manager codes →
        (codes.foldl (RealTimeSubscriptionManager.acknowledgeCode settings screenNo)
          manager).Sound settings := by
  induction codes with
  | nil => exact fun h _ => h
  | cons code rest ih =>
    intro manager h hplaces
    exact ih (fun other hother => hblank other (mem_cons_of_mem code hother))
      (h.acknowledgeCode hplaces.1 (hblank code mem_cons_self)) hplaces.2

theorem foldl_forgetCode :
    ∀ {manager : RealTimeSubscriptionManager}, manager.Sound settings →
      (codes.foldl forgetCode manager).Sound settings := by
  induction codes with
  | nil => exact fun h => h
  | cons code rest ih =>
    intro manager h
    refine ih ⟨h.represents.forgetCode code, h.records, ?_⟩
    intro other hplaced
    have hplaced' : (pop manager.codeToScreen code).get? other ≠ none := hplaced
    rw [get?_pop] at hplaced'
    split at hplaced'
    · exact absurd rfl hplaced'
    · exact h.notBlank other hplaced'

theorem applyCommandFailed (h : manager.Sound settings) (command : RealtimeCommand) :
    (manager.applyCommandFailed command).Sound settings := by
  unfold RealTimeSubscriptionManager.applyCommandFailed
  dsimp only
  cases command.commandType with
  | registerRealtime =>
    refine ⟨h.represents.of_fewer h.represents.mirrors (fun _ _ hget => hget) ?_, h.records,
      h.notBlank⟩
    intro code screen hget
    have hleaves : ((normalizeCodes command.codes).foldl pop
        manager.pendingRegisterByCode).get? code =
          if code ∈ normalizeCodes command.codes then none
          else manager.pendingRegisterByCode.get? code :=
      foldl_leaves (fun map : Dict String Nat => map.get? code)
        (fun map next => get?_pop map next code) _ _
    change _ = some screen at hget
    rw [hleaves] at hget
    split at hget
    · cases hget
    · exact hget
  | removeRealtime => exact ⟨⟨h.represents.mirrors, h.represents.fits⟩, h.records, h.notBlank⟩
  | removeAllRealtime => exact ⟨⟨h.represents.mirrors, h.represents.fits⟩, h.records, h.notBlank⟩

theorem next (hsize : 0 < settings.screenSize) {tracked : Bool} (h : manager.Sound settings)
    {call : ManagerCall} (hcall : Admissible tracked settings manager call) :
    ((machine tracked settings).next manager call).Sound settings := by
  unfold Machine.next machine
  cases call with
  | ensureSubscription code source priority isProtected =>
    exact h.withRecords (Filed.ensureSubscription h.records source priority isProtected hcall)
  | removeSubscription code source =>
    show (manager.removeSubscription code source).Sound settings
    rw [removeSubscription_eq]
    exact h.withRecords (Filed.removeSubscription h.records code source)
  | sync judge => exact (syncOf hsize (x := manager.exchange) h tracked judge).1
  | removeRealtime codes judge =>
    exact removeCodesOf hsize (x := manager.exchange) h tracked judge _
  | markAllStale reason judge => exact h.markAllStale judge reason
  | commandAck command =>
    show (manager.applyCommandAck settings command).Sound settings
    unfold applyCommandAck
    dsimp only
    cases htype : command.commandType with
    | registerRealtime =>
      refine foldl_acknowledgeCode ?_ h (hcall htype)
      intro code hcode
      simpa using (mem_filter.mp hcode).2
    | removeRealtime => exact foldl_forgetCode h
    | removeAllRealtime => exact foldl_forgetCode h
  | commandFailed command => exact h.applyCommandFailed command

end Sound

end RealTimeSubscriptionManager

end TradingCore.Realtime
