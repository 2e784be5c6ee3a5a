import TradingCore.Realtime.SubscriptionManager

/-!
# Every call of the subscription manager

`RealTimeSubscriptionManager` of `trading/strategy/realtime.py` with a lifecycle tracker or without
one, under all of its calls: what is ensured and removed, `sync`, `remove_realtime`,
`mark_all_stale`, and the acknowledgement or failure of any command. Without a tracker no
registration is pending: a code counts as registered as soon as its registration is asked for.
-/

namespace TradingCore.Realtime

open Base Candidates List

namespace RealTimeSubscriptionManager

/-- One batch of `_register_records` without a tracker. -/
def registerDirectly (manager : RealTimeSubscriptionManager)
    (batch : Nat × List SubscriptionRecord) : RealTimeSubscriptionManager :=
  let codes := batch.2.map (·.code)
  { manager with
    targetScreenByCode := manager.targetScreenByCode.upsertAll codes fun _ _ => batch.1
    codeToScreen := manager.codeToScreen.upsertAll codes fun _ _ => batch.1
    screenToCodes := codes.foldl (fun screens code => addToScreen screens batch.1 code)
      manager.screenToCodes }

end RealTimeSubscriptionManager

namespace Exchange

/-- One batch of `_register_records`. -/
def registerBatchOf (tracked : Bool) (judge : RealtimeCommand → Admission) (x : Exchange)
    (batch : Nat × List SubscriptionRecord) : Exchange :=
  let x' := x.registerBatch judge batch
  if tracked then x' else { x' with manager := x.manager.registerDirectly batch }

/-- `_register_records`. -/
def registerRecordsOf (tracked : Bool) (settings : RealtimeSettings)
    (judge : RealtimeCommand → Admission) (x : Exchange) (records : List SubscriptionRecord) :
    Exchange :=
  (batchesOf settings x.manager records).entries.foldl (registerBatchOf tracked judge) x

/-- The loop of `_remove_codes`. A code that comes a second time is on no screen any more: the
code raises there, and the rest stays. -/
def removeEach (judge : RealtimeCommand → Admission) : Exchange → List String → Exchange
  | x, [] => x
  | x, code :: rest =>
      match x.manager.codeToScreen.get? code with
      | none => x
      | some _ => removeEach judge (x.removeCode judge code) rest

/-- `_remove_codes`. -/
def removeCodesOf (tracked : Bool) (settings : RealtimeSettings)
    (judge : RealtimeCommand → Admission) (x : Exchange) (codes : List String) : Exchange :=
  let codes := codes.filter (· ≠ "")
  if codes = [] then x
  else if ∃ code ∈ codes, x.manager.codeToScreen.get? code = none then
    let x := x.removeAllClientRealtime judge "REALTIME_REMOVE_ALL_FALLBACK"
    let x := { x with
      manager := { x.manager with codeToScreen := .empty, screenToCodes := .empty } }
    x.registerRecordsOf tracked settings judge (x.manager.targetRecords settings)
  else x.removeEach judge codes

/-- `sync`. -/
def syncOf (tracked : Bool) (settings : RealtimeSettings) (judge : RealtimeCommand → Admission)
    (x : Exchange) : Exchange :=
  let targets := x.manager.targetRecords settings
  let x' := x.removeCodesOf tracked settings judge (x.manager.unselected settings)
  x'.registerRecordsOf tracked settings judge (x'.manager.unregistered targets)

def removeRealtime (tracked : Bool) (settings : RealtimeSettings)
    (judge : RealtimeCommand → Admission) (x : Exchange) (codes : List String) : Exchange :=
  x.removeCodesOf tracked settings judge (codes.map normalizeCode)

/-! ## Removing codes one by one -/

variable (judge : RealtimeCommand → Admission)

@[simp] theorem removeCode_records (x : Exchange) (code : String) :
    (x.removeCode judge code).manager.records = x.manager.records := by
  unfold removeCode
  split
  · rfl
  · dsimp only
    split <;> rfl

@[simp] theorem removeCode_pending (x : Exchange) (code : String) :
    (x.removeCode judge code).manager.pendingRegisterByCode =
      x.manager.pendingRegisterByCode := by
  unfold removeCode
  split
  · rfl
  · dsimp only
    split <;> rfl

theorem removeCode_manager {x : Exchange} {code : String} {screen : Nat}
    (hget : x.manager.codeToScreen.get? code = some screen) :
    (x.removeCode judge code).manager.codeToScreen = pop x.manager.codeToScreen code ∧
      (x.removeCode judge code).manager.screenToCodes =
        dropFromScreen x.manager.screenToCodes screen code := by
  unfold removeCode
  rw [hget]
  dsimp only
  split <;> exact ⟨rfl, rfl⟩

theorem removeEach_eq_foldl {codes : List String} (hnodup : codes.Nodup) :
    ∀ {x : Exchange},
      (∀ code ∈ codes, x.manager.codeToScreen.get? code ≠ none) →
        x.removeEach judge codes = codes.foldl (removeCode judge) x := by
  induction codes with
  | nil => exact fun _ => rfl
  | cons code rest ih =>
    intro x hmapped
    obtain ⟨hfresh, hrest⟩ := nodup_cons.mp hnodup
    cases hget : x.manager.codeToScreen.get? code with
    | none => exact absurd hget (hmapped code mem_cons_self)
    | some screen =>
      rw [removeEach, hget, foldl_cons]
      refine ih hrest ?_
      intro other hother
      rw [(removeCode_manager judge hget).1, get?_pop, if_neg]
      · exact hmapped other (mem_cons_of_mem code hother)
      · rintro rfl
        exact hfresh hother

theorem removeCodesOf_unselected (tracked : Bool) (settings : RealtimeSettings)
    (judge : RealtimeCommand → Admission) (x : Exchange) :
    x.removeCodesOf tracked settings judge (x.manager.unselected settings) =
      ((x.manager.unselected settings).filter (· ≠ "")).foldl (removeCode judge) x := by
  have hmapped : ∀ code ∈ (x.manager.unselected settings).filter (· ≠ ""),
      x.manager.codeToScreen.get? code ≠ none := by
    intro code hcode hnone
    have hkey : code ∈ x.manager.codeToScreen.keys :=
      mem_of_mem_filter (mem_of_mem_filter hcode)
    exact Dict.get?_eq_none.mp hnone hkey
  have hnodup : ((x.manager.unselected settings).filter (· ≠ "")).Nodup :=
    (x.manager.codeToScreen.nodup.filter _).filter _
  unfold removeCodesOf
  dsimp only
  split
  · next hnil =>
      rw [hnil]
      rfl
  · rw [if_neg]
    · exact removeEach_eq_foldl judge hnodup hmapped
    · rintro ⟨code, hcode, hnone⟩
      exact hmapped code hcode hnone

end Exchange

/-! ## Calls -/

/-- A call of the manager. What becomes of the commands that it asks for is part of it. -/
inductive ManagerCall
  | ensureSubscription (code source : String) (priority : Option Int) (isProtected : Option Bool)
  | removeSubscription (code source : String)
  | sync (judge : RealtimeCommand → Admission)
  | removeRealtime (codes : List String) (judge : RealtimeCommand → Admission)
  | markAllStale (reason : String) (judge : RealtimeCommand → Admission)
  | commandAck (command : RealtimeCommand)
  | commandFailed (command : RealtimeCommand)

namespace RealTimeSubscriptionManager

def exchange (manager : RealTimeSubscriptionManager) : Exchange := { manager, queue := {} }

def handle (tracked : Bool) (settings : RealtimeSettings) (manager : RealTimeSubscriptionManager) :
    ManagerCall → RealTimeSubscriptionManager
  | .ensureSubscription code source priority isProtected =>
      manager.ensureSubscription code source priority isProtected
  | .removeSubscription code source => manager.removeSubscription code source
  | .sync judge => (manager.exchange.syncOf tracked settings judge).manager
  | .removeRealtime codes judge =>
      (manager.exchange.removeRealtime tracked settings judge codes).manager
  | .markAllStale reason judge => (manager.exchange.markAllStale judge reason).manager
  | .commandAck command => manager.applyCommandAck settings command
  | .commandFailed command => manager.applyCommandFailed command

def machine (tracked : Bool) (settings : RealtimeSettings) :
    Machine RealTimeSubscriptionManager ManagerCall Unit :=
  ⟨fun manager call => (manager.handle tracked settings call, ())⟩

end RealTimeSubscriptionManager

end TradingCore.Realtime
