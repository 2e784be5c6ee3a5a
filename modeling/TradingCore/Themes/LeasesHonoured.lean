import TradingCore.Themes.ExpansionLease

/-!
# Leases are honoured

A code is kept registered while a theme targets it, while it is protected, and until the minimum
hold of each of its leases has passed. The hold counts from the selection of the lease: from its
first one, and from a later one that finds the lease expired. A lease that is selected again this
way keeps the hold and the first tick of the period before.

* `mem_removableCodes` — a code is removable when all its leases have expired;
* `leases_honoured_iff` — the leases are honoured throughout a run exactly when the leases that
  are selected again neither bring an old tick, nor take one, nor lapse within their hold.
-/

namespace TradingCore.Themes

open Base Candidates ExpansionLeaseStatus ExpansionLeaseManager ExpansionLease List Dict Option

/-! ## The selections of a run -/

/-- A selection of a lease that was absent, or expired. -/
structure Selection where
  time : Int
  hold : Int
  again : Bool
deriving DecidableEq

/-- The manager, with the latest selection of each lease and the last call. -/
structure Watched where
  manager : ExpansionLeaseManager
  selected : String × String → Option Selection
  lastCall : Option Reconcile

def selectedAfter (w : Watched) (call : Reconcile) (key : String × String) : Option Selection :=
  match call.targetByKey.get? key with
  | none => w.selected key
  | some target =>
      match w.manager.leases.get? key with
      | none => some ⟨call.current, target.hold, false⟩
      | some lease =>
          if lease.status = expired then some ⟨call.current, target.hold, true⟩
          else w.selected key

def leaseWatch : Machine Watched Reconcile ExpansionLeaseSnapshot where
  step w call :=
    ({ manager := (w.manager.reconcile call).1
       selected := selectedAfter w call
       lastCall := some call }, (w.manager.reconcile call).2)

def Watched.new (cooldownSec : Int) : Watched :=
  { manager := { cooldownSec := max 0 cooldownSec }, selected := fun _ => none, lastCall := none }

structure Honoured (w : Watched) : Prop where
  /-- No current target is removable. -/
  targets : ∀ call ∈ w.lastCall, ∀ target ∈ call.targets,
    normalizeCode target.code ∉ w.manager.removableCodes
  /-- No protected code is. -/
  isProtected : ∀ call ∈ w.lastCall, ∀ code ∈ call.protectedCodes,
    normalizeCode code ∉ w.manager.removableCodes
  /-- A lease of a removable code has been held for the minimum hold of its selection. -/
  held : ∀ call ∈ w.lastCall, ∀ key lease selection, w.manager.leases.get? key = some lease →
    w.selected key = some selection → lease.code ∈ w.manager.removableCodes →
      selection.time + seconds selection.hold ≤ call.current
  /-- The first tick of a lease selected again is not older than that selection. -/
  ticks : ∀ key lease selection, w.manager.leases.get? key = some lease →
    w.selected key = some selection → selection.again = true → lease.firstFreshTickAt ≠ none →
      ∃ tick ∈ lease.firstPostSubscriptionTickAt, selection.time ≤ tick

/-! ## The condition -/

/-- A lease that is not a target expires: its hold and its cooldown, or its time to live, are
over. -/
def ExpansionLease.expires (lease : ExpansionLease) (isProtected : Bool) (now : Int) : Prop :=
  ¬ isProtected ∧ ¬ before now lease.minimumHoldUntil ∧
    (before now lease.expiresAt = true →
      lease.status = removalPending ∧ ¬ before now lease.cooldownUntil)

/-- No theme targets the code any more, and all its leases expire. -/
def Lapses (w : Watched) (call : Reconcile) (code : String) : Prop :=
  (∀ target ∈ call.targets, normalizeCode target.code ≠ code) ∧
    ∀ key lease, w.manager.leases.get? key = some lease → key.1 = code →
      lease.expires (code ∈ call.protectedCodeSet) call.current

/-- The call honours the leases that are, or were, selected again. -/
structure HonoursAgain (w : Watched) (call : Reconcile) : Prop where
  /-- A lease selected again brings no tick older than the selection. -/
  brings : ∀ key target lease, call.targetByKey.get? key = some target →
    w.manager.leases.get? key = some lease → lease.status = expired →
      lease.firstFreshTickAt ≠ none →
        ∃ tick ∈ lease.firstPostSubscriptionTickAt, call.current ≤ tick
  /-- One without a tick takes none that is older. -/
  takes : ∀ key target lease selection event, call.targetByKey.get? key = some target →
    w.manager.leases.get? key = some lease → lease.firstFreshTickAt = none →
      selectedAfter w call key = some selection → selection.again = true →
        call.freshEvents.get? key.1 = some event →
          ((lease.refreshLease target call.current).noteActive (key.1 ∈ call.activeCodeSet)
            call.current).postSubscriptionFreshTick event →
            ∃ tick ∈ event.tickAt, selection.time ≤ tick
  /-- One whose code lapses has been held. -/
  lapses : ∀ code, Lapses w call code → ∀ key lease selection, key.1 = code →
    w.manager.leases.get? key = some lease → w.selected key = some selection →
      selection.again = true → selection.time + seconds selection.hold ≤ call.current

/-! ## Removable codes -/

namespace ExpansionLeaseManager

variable (m : ExpansionLeaseManager)

theorem getD_codeStatuses (code : String) :
    m.codeStatuses.getD code [] =
      (m.leases.values.filter fun lease => lease.code = code).map (·.status) := by
  have hfold : ∀ (leases : List ExpansionLease) (d : Dict String (List ExpansionLeaseStatus)),
      (leases.foldl (fun statuses lease =>
        statuses.set lease.code (statuses.getD lease.code [] ++ [lease.status])) d).getD code [] =
        d.getD code [] ++ (leases.filter fun lease => lease.code = code).map (·.status) := by
    intro leases
    induction leases with
    | nil => exact fun d => (append_nil _).symm
    | cons lease rest ih =>
      intro d
      rw [foldl_cons, ih]
      unfold Dict.getD
      rw [get?_set]
      by_cases hcode : lease.code = code
      · rw [if_pos hcode.symm, hcode, filter_cons_of_pos (by simp [hcode])]
        simp
      · rw [if_neg (Ne.symm hcode), filter_cons_of_neg (by simp [hcode])]
  exact hfold _ _

theorem mem_removableCodes (code : String) :
    code ∈ m.removableCodes ↔
      (∃ key lease, m.leases.get? key = some lease ∧ lease.code = code) ∧
        ∀ key lease, m.leases.get? key = some lease → lease.code = code →
          lease.status = expired := by
  have hvalues : ∀ lease, lease ∈ m.leases.values ↔ ∃ key, m.leases.get? key = some lease :=
    fun _ => mem_values_iff
  have hfiled : code ∈ m.removableCodes ↔ m.codeStatuses.getD code [] ≠ [] ∧
      ∀ status ∈ m.codeStatuses.getD code [], status ∉ retainedStatuses := by
    unfold removableCodes Dict.getD
    rw [mem_mergeSort, List.mem_map]
    constructor
    · rintro ⟨⟨code', statuses⟩, hmem, rfl⟩
      obtain ⟨hentry, hkept⟩ := mem_filter.mp hmem
      rw [mem_entries_iff.mp hentry]
      simpa using hkept
    · intro hkept
      cases hget : m.codeStatuses.get? code with
      | none =>
        rw [hget] at hkept
        exact absurd rfl hkept.1
      | some statuses =>
        rw [hget] at hkept
        refine ⟨(code, statuses), mem_filter.mpr ⟨mem_entries_iff.mpr hget, ?_⟩, rfl⟩
        simpa using hkept
  have hexpired : ∀ status : ExpansionLeaseStatus,
      status ∉ retainedStatuses ↔ status = expired := by
    intro status
    cases status <;> decide
  rw [hfiled, getD_codeStatuses]
  constructor
  · rintro ⟨hsome, hall⟩
    refine ⟨?_, ?_⟩
    · obtain ⟨status, hmem⟩ := exists_mem_of_ne_nil _ hsome
      obtain ⟨lease, hlease, -⟩ := mem_map.mp hmem
      obtain ⟨hvalue, hcode⟩ := mem_filter.mp hlease
      obtain ⟨key, hget⟩ := (hvalues lease).mp hvalue
      exact ⟨key, lease, hget, of_decide_eq_true hcode⟩
    · intro key lease hget hcode
      refine (hexpired _).mp (hall _ (mem_map_of_mem (mem_filter.mpr ⟨?_, ?_⟩)))
      · exact (hvalues lease).mpr ⟨key, hget⟩
      · exact decide_eq_true hcode
  · rintro ⟨⟨key, lease, hget, hcode⟩, hall⟩
    refine ⟨?_, ?_⟩
    · have hmem : lease ∈ m.leases.values.filter fun lease => lease.code = code :=
        mem_filter.mpr ⟨(hvalues lease).mpr ⟨key, hget⟩, decide_eq_true hcode⟩
      exact ne_nil_of_mem (mem_map_of_mem hmem)
    · intro status hmem
      obtain ⟨lease', hlease', rfl⟩ := mem_map.mp hmem
      obtain ⟨hvalue, hcode'⟩ := mem_filter.mp hlease'
      obtain ⟨key', hget'⟩ := (hvalues lease').mp hvalue
      exact (hexpired _).mpr (hall key' lease' hget' (of_decide_eq_true hcode'))

end ExpansionLeaseManager

/-! ## One call on one lease -/

section Lease

variable (lease : ExpansionLease) (now : Int)

variable (isActive : Bool)

@[simp] theorem noteActive_status : (lease.noteActive isActive now).status = lease.status := by
  unfold noteActive
  split <;> rfl

@[simp] theorem noteActive_code : (lease.noteActive isActive now).code = lease.code := by
  unfold noteActive
  split <;> rfl

@[simp] theorem noteActive_minimumHoldUntil :
    (lease.noteActive isActive now).minimumHoldUntil = lease.minimumHoldUntil := by
  unfold noteActive
  split <;> rfl

@[simp] theorem noteActive_firstFreshTickAt :
    (lease.noteActive isActive now).firstFreshTickAt = lease.firstFreshTickAt := by
  unfold noteActive
  split <;> rfl

@[simp] theorem noteActive_firstPostSubscriptionTickAt :
    (lease.noteActive isActive now).firstPostSubscriptionTickAt =
      lease.firstPostSubscriptionTickAt := by
  unfold noteActive
  split <;> rfl

theorem noteTick_cases (event : Option FreshTickEvent) :
    (lease.noteTick event now = lease ∧
        (lease.firstFreshTickAt = none → ∀ e ∈ event, lease.postSubscriptionFreshTick e = false)) ∨
      ∃ e, event = some e ∧ lease.firstFreshTickAt = none ∧
        lease.postSubscriptionFreshTick e = true ∧
        lease.noteTick event now =
          { lease with
            firstFreshTickAt := some now
            firstPostSubscriptionTickAt := e.tickAt
            firstTickSourceEventId := e.sourceEventId
            reasonCodes := dedupe (lease.reasonCodes ++ ["THEME_EXPANSION_TICK_READY"]) } := by
  unfold noteTick
  cases event with
  | none => exact .inl ⟨rfl, fun _ _ h => nomatch h⟩
  | some e =>
    dsimp only
    split
    · next htakes => exact .inr ⟨e, rfl, htakes.1, htakes.2, rfl⟩
    · next hnot =>
        refine .inl ⟨rfl, fun hnone e' he' => ?_⟩
        obtain rfl := some.inj he'
        exact Bool.eq_false_iff.mpr fun htakes => hnot ⟨hnone, htakes⟩

theorem noteTick_keeps (event : Option FreshTickEvent) :
    (lease.noteTick event now).status = lease.status ∧
      (lease.noteTick event now).code = lease.code ∧
      (lease.noteTick event now).minimumHoldUntil = lease.minimumHoldUntil := by
  rcases noteTick_cases lease now event with ⟨hsame, -⟩ | ⟨e, -, -, -, htaken⟩
  · rw [hsame]
    exact ⟨rfl, rfl, rfl⟩
  · rw [htaken]
    exact ⟨rfl, rfl, rfl⟩

theorem release_keeps (cooldownSec : Int) (isProtected : Bool) :
    (lease.release cooldownSec isProtected now).1.code = lease.code ∧
      (lease.release cooldownSec isProtected now).1.minimumHoldUntil = lease.minimumHoldUntil ∧
      (lease.release cooldownSec isProtected now).1.firstFreshTickAt = lease.firstFreshTickAt ∧
      (lease.release cooldownSec isProtected now).1.firstPostSubscriptionTickAt =
        lease.firstPostSubscriptionTickAt := by
  unfold release
  (repeat' split) <;> exact ⟨rfl, rfl, rfl, rfl⟩

theorem release_expired_iff (cooldownSec : Int) (isProtected : Bool) :
    (lease.release cooldownSec isProtected now).1.status = expired ↔
      lease.expires isProtected now := by
  unfold release expires
  by_cases hprotected : isProtected = true
  · rw [if_pos hprotected]
    simp [hprotected]
  · rw [if_neg hprotected]
    by_cases hhold : before now lease.minimumHoldUntil = true
    · rw [if_pos hhold]
      simp [hhold]
    · rw [if_neg hhold]
      by_cases hpending : lease.status = removalPending
      · rw [if_pos hpending]
        split
        · next hkept => simp [hpending, hkept.1, hkept.2]
        · next hover =>
            simp only [hprotected, hhold, hpending, true_and, true_iff]
            exact ⟨Bool.false_ne_true, Bool.false_ne_true, fun hexpires hcooldown => hover ⟨hcooldown, hexpires⟩⟩
      · rw [if_neg hpending]
        split
        · next hover =>
            simp only [hprotected, hhold, true_iff]
            exact ⟨Bool.false_ne_true, Bool.false_ne_true, fun hexpires => absurd hexpires hover⟩
        · next hlater =>
            simp only [hpending, false_and, imp_false, hlater, and_false, reduceCtorEq]

end Lease

/-! ## One call on the manager -/

-- no proof below looks into the code
attribute [local irreducible] normalizeCode

section Call

variable {m : ExpansionLeaseManager} {call : Reconcile}

theorem get?_reconcile (m : ExpansionLeaseManager) (call : Reconcile) (key : String × String) :
    (m.reconcile call).1.leases.get? key =
      match call.targetByKey.get? key with
      | some target => some (targetLease call key target (m.leases.get? key))
      | none => (m.leases.get? key).map fun lease =>
        (lease.release m.cooldownSec (key.1 ∈ call.protectedCodeSet) call.current).1 := by
  unfold reconcile
  dsimp only
  rw [get?_mapVals]
  unfold renewed released
  rw [get?_foldl_upsert]
  cases htarget : call.targetByKey.get? key with
  | some target =>
    rw [contains_iff.mpr ⟨target, htarget⟩]
    rfl
  | none =>
    rw [contains_eq_false.mpr htarget]
    rfl

theorem targetLease_spec (call : Reconcile) (key : String × String)
    (target : FocusedExpansionTarget) (old : Option ExpansionLease) :
    let lease := targetLease call key target old
    lease.status = active ∧
      lease.code = (old.map (·.code)).getD (normalizeCode target.code) ∧
      lease.minimumHoldUntil =
        (old.map (·.minimumHoldUntil)).getD (some (call.current + seconds target.hold)) := by
  have hselect : (selectLease target call.current old).status = active ∧
      (selectLease target call.current old).code =
        (old.map (·.code)).getD (normalizeCode target.code) ∧
      (selectLease target call.current old).minimumHoldUntil =
        (old.map (·.minimumHoldUntil)).getD (some (call.current + seconds target.hold)) := by
    cases old with
    | none =>
      unfold selectLease newLease
      exact ⟨rfl, by dsimp only [map_none, getD_none], rfl⟩
    | some lease => exact ⟨rfl, rfl, rfl⟩
  obtain ⟨hstatus, hcode, hhold⟩ := noteTick_keeps
    ((selectLease target call.current old).noteActive (key.1 ∈ call.activeCodeSet) call.current)
    call.current (call.freshEvents.get? key.1)
  rw [noteActive_status] at hstatus
  rw [noteActive_code] at hcode
  rw [noteActive_minimumHoldUntil] at hhold
  exact ⟨hstatus.trans hselect.1, hcode.trans hselect.2.1, hhold.trans hselect.2.2⟩

variable {target : FocusedExpansionTarget}

theorem code_of_targetByKey {key : String × String} (h : call.targetByKey.get? key = some target) :
    target ∈ call.targets ∧ normalizeCode target.code = key.1 ∧ key.1 ≠ "" := by
  unfold Reconcile.targetByKey at h
  rw [get?_ofList_map (fun target : FocusedExpansionTarget =>
    (normalizeCode target.code, target.themeId))] at h
  have hmem := mem_of_find?_eq_some h
  have hfound := find?_some h
  have hkey := of_decide_eq_true hfound
  obtain ⟨htarget, hcode⟩ := mem_filter.mp (mem_reverse.mp hmem)
  obtain rfl := hkey
  exact ⟨htarget, rfl, of_decide_eq_true hcode⟩

theorem targetByKey_of_mem (h : target ∈ call.targets) (hcode : normalizeCode target.code ≠ "") :
    ∃ target', call.targetByKey.get? (normalizeCode target.code, target.themeId) =
      some target' := by
  unfold Reconcile.targetByKey
  rw [get?_ofList_map (fun target : FocusedExpansionTarget =>
    (normalizeCode target.code, target.themeId))]
  refine isSome_iff_exists.mp (find?_isSome.mpr ⟨target, ?_, by simp⟩)
  exact mem_reverse.mpr (mem_filter.mpr ⟨h, decide_eq_true hcode⟩)

end Call

/-! ## What the manager keeps true -/

/-- The leases are filed under their codes, their selections are known, those selected once hold
as long as their selection asks for, and none expires within its hold. -/
structure Leased (w : Watched) : Prop where
  code : ∀ key lease, w.manager.leases.get? key = some lease → lease.code = key.1 ∧ key.1 ≠ ""
  selected : ∀ key lease, w.manager.leases.get? key = some lease →
    ∃ selection, w.selected key = some selection ∧
      (selection.again = false →
        lease.minimumHoldUntil = some (selection.time + seconds selection.hold))

theorem leased_new (cooldownSec : Int) : Leased (.new cooldownSec) :=
  ⟨fun _ _ h => (nomatch h), fun _ _ h => (nomatch h)⟩

theorem leased_next {w : Watched} (h : Leased w) (call : Reconcile) :
    Leased (leaseWatch.next w call) := by
  constructor
  · intro key lease hget
    change (w.manager.reconcile call).1.leases.get? key = some lease at hget
    rw [get?_reconcile] at hget
    cases htarget : call.targetByKey.get? key with
    | some target =>
      rw [htarget] at hget
      obtain rfl := some.inj hget
      obtain ⟨-, hcode, hne⟩ := code_of_targetByKey htarget
      refine ⟨(targetLease_spec call key target _).2.1.trans ?_, hne⟩
      cases hold : w.manager.leases.get? key with
      | none => exact hcode
      | some old => exact (h.code key old hold).1
    | none =>
      rw [htarget] at hget
      obtain ⟨old, hold, rfl⟩ := map_eq_some_iff.mp hget
      rw [(release_keeps old call.current _ _).1]
      exact h.code key old hold
  · intro key lease hget
    change (w.manager.reconcile call).1.leases.get? key = some lease at hget
    show ∃ selection, selectedAfter w call key = some selection ∧ _
    unfold selectedAfter
    rw [get?_reconcile] at hget
    cases htarget : call.targetByKey.get? key with
    | some target =>
      rw [htarget] at hget
      obtain rfl := some.inj hget
      dsimp only
      cases hold : w.manager.leases.get? key with
      | none =>
        exact ⟨_, rfl, fun _ => (targetLease_spec call key target none).2.2⟩
      | some old =>
        dsimp only
        split
        · exact ⟨_, rfl, fun hagain => (nomatch hagain)⟩
        · obtain ⟨selection, hselected, honce⟩ := h.selected key old hold
          refine ⟨selection, hselected, fun hagain => ?_⟩
          rw [(targetLease_spec call key target (some old)).2.2]
          exact honce hagain
    | none =>
      rw [htarget] at hget
      obtain ⟨old, hold, rfl⟩ := map_eq_some_iff.mp hget
      rw [(release_keeps old call.current _ _).2.1]
      exact h.selected key old hold

/-! ## One call -/

section Step

variable {w : Watched} {call : Reconcile}

variable {key : String × String} {lease : ExpansionLease}

theorem lease_next (hget : (w.manager.reconcile call).1.leases.get? key = some lease) :
    (∃ target, call.targetByKey.get? key = some target ∧
        lease = targetLease call key target (w.manager.leases.get? key)) ∨
      ∃ old, call.targetByKey.get? key = none ∧ w.manager.leases.get? key = some old ∧
        lease = (old.release w.manager.cooldownSec (key.1 ∈ call.protectedCodeSet)
          call.current).1 := by
  rw [get?_reconcile] at hget
  cases htarget : call.targetByKey.get? key with
  | some target =>
    rw [htarget] at hget
    exact .inl ⟨target, rfl, (some.inj hget).symm⟩
  | none =>
    rw [htarget] at hget
    obtain ⟨old, hold, rfl⟩ := map_eq_some_iff.mp hget
    exact .inr ⟨old, rfl, hold, rfl⟩

theorem get?_released {old : ExpansionLease} (hnone : call.targetByKey.get? key = none)
    (hold : w.manager.leases.get? key = some old) :
    (w.manager.reconcile call).1.leases.get? key =
      some (old.release w.manager.cooldownSec (key.1 ∈ call.protectedCodeSet) call.current).1 := by
  rw [get?_reconcile, hnone, hold]
  rfl

theorem targetByKey_none (h : ∀ target ∈ call.targets, normalizeCode target.code ≠ key.1) :
    call.targetByKey.get? key = none := by
  cases htarget : call.targetByKey.get? key with
  | none => rfl
  | some target =>
    obtain ⟨hmem, hcode, -⟩ := code_of_targetByKey htarget
    exact absurd hcode (h target hmem)

theorem removable_next (h : Leased w) (code : String) :
    code ∈ (w.manager.reconcile call).1.removableCodes ↔
      (∃ key lease, w.manager.leases.get? key = some lease ∧ key.1 = code) ∧
        Lapses w call code := by
  rw [mem_removableCodes]
  have hcode : ∀ key lease, (w.manager.reconcile call).1.leases.get? key = some lease →
      lease.code = key.1 ∧ key.1 ≠ "" := (leased_next h call).code
  constructor
  · rintro ⟨⟨key, lease, hget, hlease⟩, hall⟩
    obtain ⟨hkey, hne⟩ := hcode key lease hget
    -- the lease of a target is active
    have htargets : ∀ target ∈ call.targets, normalizeCode target.code ≠ code := by
      intro target hmem heq
      obtain ⟨target', htarget⟩ := targetByKey_of_mem hmem (by rw [heq, ← hlease, hkey]; exact hne)
      have hget' : (w.manager.reconcile call).1.leases.get?
          (normalizeCode target.code, target.themeId) = some (targetLease call
            (normalizeCode target.code, target.themeId) target'
            (w.manager.leases.get? (normalizeCode target.code, target.themeId))) := by
        rw [get?_reconcile, htarget]
      have hexpired := hall _ _ hget' ((hcode _ _ hget').1.trans heq)
      rw [(targetLease_spec _ _ _ _).1] at hexpired
      cases hexpired
    have hnone : ∀ key : String × String, key.1 = code → call.targetByKey.get? key = none :=
      fun key hkey => targetByKey_none (hkey ▸ htargets)
    refine ⟨?_, htargets, ?_⟩
    · rcases lease_next hget with ⟨target, htarget, -⟩ | ⟨old, -, hold, -⟩
      · rw [hnone key (hkey.symm.trans hlease)] at htarget
        cases htarget
      · exact ⟨key, old, hold, hkey.symm.trans hlease⟩
    · intro key' old hold hkey'
      have hget' := get?_released (hnone key' hkey') hold
      rw [← hkey']
      exact (release_expired_iff _ _ _ _).mp (hall _ _ hget' ((hcode _ _ hget').1.trans hkey'))
  · rintro ⟨⟨key, lease, hget, hkey⟩, htargets, hall⟩
    have hnone : ∀ key : String × String, key.1 = code → call.targetByKey.get? key = none :=
      fun key hkey => targetByKey_none (hkey ▸ htargets)
    refine ⟨⟨key, _, get?_released (hnone key hkey) hget, ?_⟩, ?_⟩
    · rw [(release_keeps _ _ _ _).1, (h.code key lease hget).1]
      exact hkey
    · intro key' lease' hget' hlease'
      have hkey' : key'.1 = code := (hcode key' lease' hget').1.symm.trans hlease'
      rcases lease_next hget' with ⟨target, htarget, -⟩ | ⟨old, -, hold, rfl⟩
      · rw [hnone key' hkey'] at htarget
        cases htarget
      · refine (release_expired_iff _ _ _ _).mpr ?_
        rw [hkey']
        exact hall key' old hold hkey'

theorem hold_passed {isProtected : Bool} {now until_ : Int}
    (hexpires : lease.expires isProtected now) (hhold : lease.minimumHoldUntil = some until_) :
    until_ ≤ now := by
  obtain ⟨-, hnot, -⟩ := hexpires
  rw [hhold] at hnot
  have hle : ¬ now < until_ := fun hlt => hnot (decide_eq_true hlt)
  omega

theorem targetLease_tick (call : Reconcile) (key : String × String)
    (target : FocusedExpansionTarget) (lease : ExpansionLease) :
    let new := targetLease call key target (some lease)
    (new.firstFreshTickAt = lease.firstFreshTickAt ∧
        new.firstPostSubscriptionTickAt = lease.firstPostSubscriptionTickAt ∧
        (lease.firstFreshTickAt = none → ∀ event ∈ call.freshEvents.get? key.1,
          ((lease.refreshLease target call.current).noteActive (key.1 ∈ call.activeCodeSet)
            call.current).postSubscriptionFreshTick event = false)) ∨
      ∃ event, call.freshEvents.get? key.1 = some event ∧ lease.firstFreshTickAt = none ∧
        ((lease.refreshLease target call.current).noteActive (key.1 ∈ call.activeCodeSet)
          call.current).postSubscriptionFreshTick event = true ∧
        new.firstFreshTickAt = some call.current ∧
        new.firstPostSubscriptionTickAt = event.tickAt := by
  have hfresh : ((lease.refreshLease target call.current).noteActive
      (key.1 ∈ call.activeCodeSet) call.current).firstFreshTickAt = lease.firstFreshTickAt :=
    noteActive_firstFreshTickAt _ _ _
  have hpost : ((lease.refreshLease target call.current).noteActive
      (key.1 ∈ call.activeCodeSet) call.current).firstPostSubscriptionTickAt =
        lease.firstPostSubscriptionTickAt := noteActive_firstPostSubscriptionTickAt _ _ _
  unfold targetLease selectLease
  dsimp only
  rcases noteTick_cases ((lease.refreshLease target call.current).noteActive
      (key.1 ∈ call.activeCodeSet) call.current) call.current (call.freshEvents.get? key.1) with
    ⟨hsame, hrejects⟩ | ⟨event, hevent, hnone, htakes, htaken⟩
  · rw [hsame, hfresh, hpost]
    rw [hfresh] at hrejects
    exact .inl ⟨rfl, rfl, hrejects⟩
  · rw [htaken]
    rw [hfresh] at hnone
    exact .inr ⟨event, hevent, hnone, htakes, rfl, rfl⟩

theorem selectedAfter_none (hnone : call.targetByKey.get? key = none) :
    selectedAfter w call key = w.selected key := by
  unfold selectedAfter
  rw [hnone]

variable {target : FocusedExpansionTarget}

theorem selectedAfter_some (htarget : call.targetByKey.get? key = some target)
    (hget : w.manager.leases.get? key = some lease) :
    selectedAfter w call key =
      if lease.status = expired then some ⟨call.current, target.hold, true⟩
      else w.selected key := by
  unfold selectedAfter
  rw [htarget, hget]

theorem get?_target (htarget : call.targetByKey.get? key = some target) :
    (w.manager.reconcile call).1.leases.get? key =
      some (targetLease call key target (w.manager.leases.get? key)) := by
  rw [get?_reconcile, htarget]

theorem honoured_next (h : Leased w) (hhonoured : Honoured w) (hagain : HonoursAgain w call) :
    Honoured (leaseWatch.next w call) := by
  constructor
  · rintro _ ⟨⟩ target hmem hremovable
    exact ((removable_next h _).mp hremovable).2.1 target hmem rfl
  · rintro _ ⟨⟩ code hmem hremovable
    obtain ⟨⟨key, lease, hget, hkey⟩, -, hall⟩ := (removable_next h _).mp hremovable
    refine (hall key lease hget hkey).1 (decide_eq_true ?_)
    refine mem_filter.mpr ⟨mem_map_of_mem hmem, decide_eq_true ?_⟩
    rw [← hkey]
    exact (h.code key lease hget).2
  · rintro _ ⟨⟩ key lease selection hget hselected hremovable
    have hnext := (leased_next h call).code key lease hget
    rw [hnext.1] at hremovable
    have hlapses := ((removable_next h _).mp hremovable).2
    rcases lease_next hget with ⟨target, htarget, -⟩ | ⟨old, hnone, hold, rfl⟩
    · rw [targetByKey_none hlapses.1] at htarget
      cases htarget
    · change selectedAfter w call key = some selection at hselected
      rw [selectedAfter_none hnone] at hselected
      cases hkind : selection.again with
      | true => exact hagain.lapses key.1 hlapses key old selection rfl hold hselected hkind
      | false =>
        obtain ⟨selection', hselected', honce⟩ := h.selected key old hold
        rw [hselected] at hselected'
        obtain rfl := some.inj hselected'
        exact hold_passed (hlapses.2 key old hold rfl) (honce hkind)
  · intro key lease selection hget hselected hkind hfresh
    change selectedAfter w call key = some selection at hselected
    rcases lease_next hget with ⟨target, htarget, rfl⟩ | ⟨old, hnone, hold, rfl⟩
    · cases hold : w.manager.leases.get? key with
      | none =>
        -- a first selection
        unfold selectedAfter at hselected
        rw [htarget, hold] at hselected
        obtain rfl := some.inj hselected
        cases hkind
      | some old =>
        rw [hold] at hfresh
        rcases targetLease_tick call key target old with
          ⟨hsame, hpost, -⟩ | ⟨event, hevent, hfirst, htakes, -, hpost⟩
        · rw [hpost]
          rw [hsame] at hfresh
          rw [selectedAfter_some htarget hold] at hselected
          split at hselected
          · next hexpired =>
              obtain rfl := some.inj hselected
              exact hagain.brings key target old htarget hold hexpired hfresh
          · exact hhonoured.ticks key old selection hold hselected hkind hfresh
        · rw [hpost]
          exact hagain.takes key target old selection event htarget hold hfirst hselected hkind
            hevent htakes
    · obtain ⟨-, -, hkept, hpost⟩ := release_keeps old call.current w.manager.cooldownSec
        (key.1 ∈ call.protectedCodeSet)
      rw [hkept] at hfresh
      rw [hpost]
      rw [selectedAfter_none hnone] at hselected
      exact hhonoured.ticks key old selection hold hselected hkind hfresh

theorem honoursAgain_of_next (h : Leased w) (hnext : Honoured (leaseWatch.next w call)) :
    HonoursAgain w call := by
  constructor
  · intro key target lease htarget hget hexpired hfresh
    have hget' := get?_target (w := w) htarget
    rw [hget] at hget'
    have hselected : selectedAfter w call key = some ⟨call.current, target.hold, true⟩ := by
      rw [selectedAfter_some htarget hget, if_pos hexpired]
    rcases targetLease_tick call key target lease with
      ⟨hsame, hpost, -⟩ | ⟨event, -, hfirst, -⟩
    · rw [← hpost]
      exact hnext.ticks key _ _ hget' hselected rfl (by rw [hsame]; exact hfresh)
    · exact absurd hfirst hfresh
  · intro key target lease selection event htarget hget hfresh hselected hkind hevent htakes
    have hget' := get?_target (w := w) htarget
    rw [hget] at hget'
    rcases targetLease_tick call key target lease with
      ⟨-, -, hrejects⟩ | ⟨event', hevent', -, -, htaken, hpost⟩
    · rw [hrejects hfresh event hevent] at htakes
      cases htakes
    · rw [hevent] at hevent'
      obtain rfl := some.inj hevent'
      rw [← hpost]
      exact hnext.ticks key _ selection hget' hselected hkind (by rw [htaken]; simp)
  · intro code hlapses key lease selection hkey hget hselected hkind
    have hnone : call.targetByKey.get? key = none := targetByKey_none (hkey ▸ hlapses.1)
    have hget' := get?_released hnone hget
    refine hnext.held call rfl key _ selection hget' ?_ ?_
    · exact (selectedAfter_none hnone).trans hselected
    · show _ ∈ (w.manager.reconcile call).1.removableCodes
      rw [(release_keeps _ _ _ _).1, (h.code key lease hget).1, hkey]
      exact (removable_next h code).mpr ⟨⟨key, lease, hget, hkey⟩, hlapses⟩

end Step

/-! ## Runs -/

theorem honoured_new (cooldownSec : Int) : Honoured (.new cooldownSec) :=
  ⟨fun _ h => (nomatch h), fun _ h => (nomatch h), fun _ h => (nomatch h),
    fun _ _ _ h => (nomatch h)⟩

/-- The leases are honoured throughout a run exactly when every call honours those that are
selected again. -/
theorem leases_honoured_iff (cooldownSec : Int) (calls : List Reconcile) :
    leaseWatch.Always Honoured (.new cooldownSec) calls ↔
      leaseWatch.Guarded HonoursAgain (.new cooldownSec) calls := by
  refine Machine.always_iff_guarded (I := Leased) ?_ ?_ (leased_new cooldownSec)
    (honoured_new cooldownSec)
  · intro w call h _ _
    exact leased_next h call
  · intro w call h hhonoured
    exact ⟨honoursAgain_of_next h, honoured_next h hhonoured⟩

/-! ## A fixed run -/

/-- A theme selects a code for 10 seconds, and it ticks. -/
def firstPeriod : List Reconcile :=
  [{ targets := [{ code := "000001", themeId := "ai", minimumHoldSec := 10 }], now := seconds 0 },
    { targets := [{ code := "000001", themeId := "ai", minimumHoldSec := 10 }], now := seconds 5
      freshTickEvents := [("000001", { tickAt := some (some (seconds 5)) })] },
    { now := seconds 100 }]

/-- The theme selects it again, to be held for 300 seconds. -/
def selectsAgain : Reconcile :=
  { targets := [{ code := "000001", themeId := "ai", minimumHoldSec := 300 }], now := seconds 200 }

def selectsNothing : Reconcile := { now := seconds 300 }

/-- The lease selected again brings the tick of the first period, and its code is removable 100
seconds later. -/
theorem lease_selected_again_not_honoured :
    ¬ Honoured (leaseWatch.run (.new 60) (firstPeriod ++ [selectsAgain])) ∧
      ¬ Honoured (leaseWatch.run (.new 60) (firstPeriod ++ [selectsAgain, selectsNothing])) := by
  refine ⟨?_, ?_⟩
  · generalize hrun : leaseWatch.run (.new 60) (firstPeriod ++ [selectsAgain]) = w
    have hselected : w.selected ("000001", "ai") = some ⟨seconds 200, 300, true⟩ := by
      rw [← hrun]
      decide +kernel
    have hticks : (w.manager.leases.get? ("000001", "ai")).map (fun lease =>
        (lease.firstFreshTickAt, lease.firstPostSubscriptionTickAt)) =
          some (some (seconds 5), some (seconds 5)) := by
      rw [← hrun]
      decide +kernel
    intro h
    obtain ⟨lease, hget, htick⟩ := map_eq_some_iff.mp hticks
    obtain ⟨hfresh, hpost⟩ := Prod.mk.inj htick
    obtain ⟨tick, hmem, hle⟩ := h.ticks _ lease _ hget hselected rfl (by rw [hfresh]; simp)
    rw [hpost] at hmem
    rw [← some.inj hmem] at hle
    exact absurd hle (by decide)
  · generalize hrun : leaseWatch.run (.new 60)
      (firstPeriod ++ [selectsAgain, selectsNothing]) = w
    have hselected : w.selected ("000001", "ai") = some ⟨seconds 200, 300, true⟩ := by
      rw [← hrun]
      decide +kernel
    have hcode : (w.manager.leases.get? ("000001", "ai")).map (·.code) = some "000001" := by
      rw [← hrun]
      decide +kernel
    have hremovable : "000001" ∈ w.manager.removableCodes := by
      rw [← hrun]
      decide +kernel
    have hlast : w.lastCall = some selectsNothing := by
      rw [← hrun]
      rfl
    intro h
    obtain ⟨lease, hget, hlease⟩ := map_eq_some_iff.mp hcode
    have hheld := h.held _ hlast _ lease _ hget hselected (by rw [hlease]; exact hremovable)
    exact absurd hheld (by decide)

end TradingCore.Themes
