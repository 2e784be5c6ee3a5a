import TradingCore.Realtime.SubscriptionLifecycle

/-!
# When a subscription is fresh

A release clears the transport flag and the decision flag, and leaves the acknowledgement. A
tick that comes late verifies the released subscription again, and a selection puts it back to
waiting for its first tick. A failed command marks a fresh subscription as failed and leaves it
fresh.

`always_sound_iff`: exactly which runs keep the fresh snapshots sound.
-/

namespace TradingCore.Realtime

open Base Candidates RealtimeSubscriptionLifecycleSnapshot RealtimeSubscriptionLifecycleState Dict

/-! ## Runs -/

inductive TrackerEvent where
  /-- `on_requested`. -/
  | requested (code : String)
  /-- `on_target_selected`. -/
  | targetSelected (records : List String)
  /-- `on_budget_deferred`. -/
  | budgetDeferred (records : List String)
  /-- `on_command_enqueued`. -/
  | commandEnqueued (receipt : Option RealtimeCommandReceipt)
  /-- `on_command_started`. -/
  | commandStarted (payload : CommandPayload)
  /-- `on_command_ack`. -/
  | commandAck (payload : CommandPayload)
  /-- `on_command_failed`. -/
  | commandFailed (payload : CommandPayload)
  /-- `on_release_requested`. -/
  | releaseRequested (receipt : Option RealtimeCommandReceipt) (codes : List String)
  /-- `on_price_tick`. -/
  | priceTick (payload : TickPayload)
  /-- `refresh_staleness`. -/
  | refreshStaleness (code : String)

section

variable (readTime : String → Option Int) (utcText : String → String) (maxTickAgeMs : Int)

def RealtimeSubscriptionLifecycleTracker.handle (t : RealtimeSubscriptionLifecycleTracker)
    (now : Moment) : TrackerEvent → RealtimeSubscriptionLifecycleTracker
  | .requested code => t.onRequested code
  | .targetSelected records => t.onTargetSelected readTime records
  | .budgetDeferred records => t.onBudgetDeferred records
  | .commandEnqueued receipt => t.onCommandEnqueued receipt
  | .commandStarted payload => t.onCommandStarted payload
  | .commandAck payload => t.onCommandAck readTime utcText maxTickAgeMs payload now
  | .commandFailed payload => t.onCommandFailed payload
  | .releaseRequested receipt codes => t.onReleaseRequested receipt codes
  | .priceTick payload => t.onPriceTick readTime utcText maxTickAgeMs payload now
  | .refreshStaleness code => t.onRefreshStaleness readTime maxTickAgeMs code now

/-- A tracker, and beside it the codes whose last register acknowledgement no remove or
remove-all acknowledgement has followed, each with the baseline of that acknowledgement. -/
structure WatchedTracker where
  tracker : RealtimeSubscriptionLifecycleTracker
  live : Dict String String

open RealtimeSubscriptionLifecycleTracker in
def WatchedTracker.liveAfter (w : WatchedTracker) (now : Moment) :
    TrackerEvent → Dict String String
  | .commandAck payload =>
      if payload.commandType = "register_realtime" then
        if ackStatus payload = "ACKED" then
          w.live.upsertAll (w.tracker.eventCodes payload) fun _ _ =>
            ackBaseline utcText payload now
        else w.live
      else if payload.commandType = "remove_all_realtime" then .empty
      else if payload.commandType = "remove_realtime" then
        w.live.filter fun code _ => code ∉ w.tracker.eventCodes payload
      else w.live
  | _ => w.live

/-- The tracker as a machine. Each event comes at some moment. -/
def machine : Machine WatchedTracker (TrackerEvent × Moment) Unit where
  step w input :=
    ({ tracker := w.tracker.handle readTime utcText maxTickAgeMs input.2 input.1
       live := w.liveAfter utcText input.2 input.1 }, ())

/-! ## Soundness -/

/-- A fresh snapshot has a live transport, is neither released nor failed, and its last tick is
not older than the baseline of a register acknowledgement that no release has followed. One
that waits for its first tick has such an acknowledgement. -/
def SoundAt (snapshot : RealtimeSubscriptionLifecycleSnapshot) (live : Option String) : Prop :=
  (snapshot.lifecycleState = .activeFresh ∨ snapshot.decisionFresh = true →
      snapshot.transportActive = true ∧ snapshot.released = false ∧ snapshot.failed = false ∧
        ∃ baseline, live = some baseline ∧ ∃ tickAt,
          parseTime readTime snapshot.lastTickAtUtc = some tickAt ∧
            ∀ b, parseTime readTime baseline = some b → b ≤ tickAt) ∧
    (snapshot.lifecycleState = .ackedWaitFirstTick → live.isSome = true)

def WatchedTracker.Sound (w : WatchedTracker) : Prop :=
  ∀ code, SoundAt readTime (w.tracker.snapshotOf code) (w.live.get? code)

/-! ## When it stays so -/

/-- Neither released nor failed, and acknowledged since the last release. -/
def Clear (snapshot : RealtimeSubscriptionLifecycleSnapshot) (live : Option String) : Prop :=
  snapshot.released = false ∧ snapshot.failed = false ∧ live.isSome = true
deriving Decidable

/-- The tick counts as the first tick of an acknowledged subscription, and is young enough. -/
def CountsAsFresh (now : Moment) (tick : TickEvidence)
    (snapshot : RealtimeSubscriptionLifecycleSnapshot) : Prop :=
  snapshot.acked = true ∧ tick.source = "REALTIME" ∧
    beforeBaseline readTime snapshot.registrationAckBaselineAtUtc tick.tickAt = false ∧
      (parseTime readTime tick.tickAt).any (youngAt maxTickAgeMs now) = true
deriving Decidable

/-- The last tick of a verified subscription is still young enough. -/
def StaysFresh (now : Moment) (snapshot : RealtimeSubscriptionLifecycleSnapshot) : Prop :=
  snapshot.acked = true ∧ snapshot.firstTickVerified = true ∧ snapshot.transportActive = true ∧
    (parseTime readTime (lastTick snapshot)).any (youngAt maxTickAgeMs now) = true
deriving Decidable

def WatchedTracker.FailsNoFresh (w : WatchedTracker) (payload : CommandPayload) : Prop :=
  ∀ code ∈ w.tracker.eventCodes payload, (w.tracker.snapshotOf code).decisionFresh = false
deriving Decidable

open RealtimeSubscriptionLifecycleTracker in
/-- The event meets no flags that are left over: a young tick and a refresh find the code clear,
a selection puts only an acknowledged code back to waiting, and a failed command is not about a
fresh code. -/
def WatchedTracker.MeetsNoLeftovers (w : WatchedTracker) : TrackerEvent × Moment → Prop
  | (.targetSelected records, _) =>
      ∀ code ∈ normalizeCodes records,
        targetSelectionPreservedState (w.tracker.snapshotOf code) = .ackedWaitFirstTick →
          (w.live.get? code).isSome = true
  | (.commandFailed payload, _) => isRealtimeCommand payload.commandType → w.FailsNoFresh payload
  | (.commandAck payload, _) =>
      payload.commandType = "register_realtime" → ackStatus payload ≠ "ACKED" →
        w.FailsNoFresh payload
  | (.priceTick payload, now) =>
      normalizeCode payload.code ≠ "" →
        CountsAsFresh readTime maxTickAgeMs now (tickEvidence utcText payload now)
            (w.tracker.snapshotOf (normalizeCode payload.code)) →
          Clear (w.tracker.snapshotOf (normalizeCode payload.code))
            (w.live.get? (normalizeCode payload.code))
  | (.refreshStaleness code, now) =>
      StaysFresh readTime maxTickAgeMs now (w.tracker.snapshotOf (normalizeCode code)) →
        Clear (w.tracker.snapshotOf (normalizeCode code)) (w.live.get? (normalizeCode code))
  | (.requested _, _) | (.budgetDeferred _, _) | (.commandEnqueued _, _)
  | (.commandStarted _, _) | (.releaseRequested _ _, _) => True

end

/-! ## The invariant -/

section

variable {readTime : String → Option Int} {utcText : String → String} {maxTickAgeMs : Int}
variable {s : RealtimeSubscriptionLifecycleSnapshot} {live : Option String}

/-- What the flags of a snapshot owe each other in every run. -/
structure Settled (readTime : String → Option Int) (s : RealtimeSubscriptionLifecycleSnapshot)
    (live : Option String) : Prop where
  active_verified : s.lifecycleState.active = true → s.firstTickVerified = true
  state_fresh : s.lifecycleState = .activeFresh → s.decisionFresh = true
  fresh_verified : s.decisionFresh = true → s.firstTickVerified = true
  fresh_transport : s.decisionFresh = true → s.transportActive = true
  verified_acked : s.firstTickVerified = true → s.acked = true
  verified_tick : s.firstTickVerified = true →
    (∃ tickAt, parseTime readTime s.lastTickAtUtc = some tickAt) ∧
      beforeBaseline readTime s.registrationAckBaselineAtUtc s.lastTickAtUtc = false
  acked_baseline : s.acked = true → ∀ b, live = some b → b = s.registrationAckBaselineAtUtc
  live_requested : live.isSome = true → s.lifecycleState ≠ .notRequested

theorem settled_blank : Settled readTime {} none := by
  constructor <;> simp [active]

/-- Soundness of a settled snapshot, in its flags. -/
def FlagsSound (s : RealtimeSubscriptionLifecycleSnapshot) (live : Option String) : Prop :=
  (s.decisionFresh = true → Clear s live) ∧
    (s.lifecycleState = .ackedWaitFirstTick → live.isSome = true)

theorem soundAt_iff (h : Settled readTime s live) : SoundAt readTime s live ↔ FlagsSound s live := by
  constructor
  · rintro ⟨hfresh, hwait⟩
    refine ⟨fun hdecision => ?_, hwait⟩
    obtain ⟨-, hreleased, hfailed, baseline, hlive, -⟩ := hfresh (.inr hdecision)
    exact ⟨hreleased, hfailed, by simp [hlive]⟩
  · rintro ⟨hfresh, hwait⟩
    refine ⟨fun hstate => ?_, hwait⟩
    have hdecision : s.decisionFresh = true := hstate.elim h.state_fresh id
    obtain ⟨hreleased, hfailed, hlive⟩ := hfresh hdecision
    obtain ⟨baseline, hbaseline⟩ := Option.isSome_iff_exists.mp hlive
    have hverified := h.fresh_verified hdecision
    obtain ⟨⟨tickAt, htick⟩, hnotBefore⟩ := h.verified_tick hverified
    have heq := h.acked_baseline (h.verified_acked hverified) baseline hbaseline
    refine ⟨h.fresh_transport hdecision, hreleased, hfailed, baseline, hbaseline, tickAt, htick, ?_⟩
    intro b hb
    rw [heq] at hb
    simpa [beforeBaseline, hb, htick] using hnotBefore

/-! ## One snapshot -/

theorem lastTick_of_parse {tickAt : Int} (h : parseTime readTime s.lastTickAtUtc = some tickAt) :
    lastTick s = s.lastTickAtUtc := by
  unfold lastTick
  rw [if_neg]
  intro hblank
  rw [hblank] at h
  exact absurd h (by simp [parseTime, Text.strip])

variable {state : RealtimeSubscriptionLifecycleState}

theorem settled_transition (h : Settled readTime s live)
    (hactive : state.active = true → s.firstTickVerified = true)
    (hfresh : state = .activeFresh → s.decisionFresh = true) (hstate : state ≠ .notRequested) :
    Settled readTime (s.transition state) live :=
  ⟨hactive, hfresh, h.fresh_verified, h.fresh_transport, h.verified_acked, h.verified_tick,
    h.acked_baseline, fun _ => hstate⟩

theorem flagsSound_transition (h : s.decisionFresh = true → Clear s live)
    (hwait : state = .ackedWaitFirstTick → live.isSome = true) :
    FlagsSound (s.transition state) live :=
  ⟨h, hwait⟩

theorem preservedState_cases (s : RealtimeSubscriptionLifecycleSnapshot) :
    s.lifecycleState.preserved = true ∧
        targetSelectionPreservedState s = s.lifecycleState ∨
      s.firstTickVerified = true ∧ targetSelectionPreservedState s = .ofFresh s.decisionFresh ∨
      (targetSelectionPreservedState s).active = false := by
  unfold targetSelectionPreservedState
  split
  · rename_i hpreserved
    exact .inl ⟨hpreserved, rfl⟩
  · split
    · rename_i hboth
      simp only [Bool.and_eq_true] at hboth
      exact .inr (.inl ⟨hboth.2, rfl⟩)
    · refine .inr (.inr ?_)
      split
      · rfl
      · split
        · rfl
        · split <;> rfl

theorem preserved_or_selected (s : RealtimeSubscriptionLifecycleSnapshot) :
    (targetSelectionPreservedState s).preserved = true ∨
      targetSelectionPreservedState s = .targetSelected := by
  unfold targetSelectionPreservedState
  split
  · rename_i hpreserved
    exact .inl hpreserved
  · split
    · cases s.decisionFresh <;> exact .inl rfl
    · split
      · exact .inl rfl
      · split
        · exact .inl rfl
        · split
          · exact .inl rfl
          · exact .inr rfl

section

variable (h : Settled readTime s live)
include h

theorem verified_of_active (hactive : (targetSelectionPreservedState s).active = true) :
    s.firstTickVerified = true := by
  rcases preservedState_cases s with ⟨-, hstate⟩ | ⟨hverified, -⟩ | hnot
  · rw [hstate] at hactive
    exact h.active_verified hactive
  · exact hverified
  · rw [hnot] at hactive
    exact absurd hactive (by simp)

theorem fresh_of_activeFresh (hstate : targetSelectionPreservedState s = .activeFresh) :
    s.decisionFresh = true := by
  rcases preservedState_cases s with ⟨-, hsame⟩ | ⟨-, hsame⟩ | hnot
  · exact h.state_fresh (hsame ▸ hstate)
  · rw [hsame] at hstate
    simpa using hstate
  · rw [hstate] at hnot
    exact absurd hnot (by decide)

theorem selectTarget_eq :
    selectTarget readTime s =
      transition
        { s with
          requested := true
          targetSelected := true
          budgetDeferred := false
          released := false
          failed := false }
        (targetSelectionPreservedState s) := by
  unfold selectTarget
  rw [if_neg]
  rintro ⟨hactive, hbefore⟩
  obtain ⟨⟨tickAt, htick⟩, hnotBefore⟩ := h.verified_tick (verified_of_active h hactive)
  rw [lastTick_of_parse htick, hnotBefore] at hbefore
  exact absurd hbefore (by simp)

end

theorem preservedState_transition (p : RealtimeSubscriptionLifecycleSnapshot)
    (henqueued : p.commandEnqueued = s.commandEnqueued)
    (hdispatched : p.commandDispatched = s.commandDispatched) (hacked : p.acked = s.acked)
    (htransport : p.transportActive = s.transportActive)
    (hverified : p.firstTickVerified = s.firstTickVerified) :
    targetSelectionPreservedState (p.transition (targetSelectionPreservedState s)) =
      targetSelectionPreservedState s := by
  by_cases hpreserved : (targetSelectionPreservedState s).preserved = true
  · rw [targetSelectionPreservedState, transition_lifecycleState, if_pos hpreserved]
  · have hselected := (preserved_or_selected s).resolve_left hpreserved
    rw [hselected]
    have hflags := hselected
    unfold targetSelectionPreservedState at hflags ⊢
    simp only [transition_lifecycleState, transition_transportActive, transition_firstTickVerified,
      transition_acked, transition_commandDispatched, transition_commandEnqueued, henqueued,
      hdispatched, hacked, htransport, hverified]
    split at hflags
    · rename_i hstate
      rw [hflags] at hstate
      exact absurd hstate (by decide)
    · split at hflags
      · cases hfresh : s.decisionFresh <;> rw [hfresh] at hflags <;>
          exact absurd hflags (by decide)
      · rename_i hboth
        rw [if_neg (by decide), if_neg hboth]
        exact hflags

/-! ## What each handler makes of a snapshot -/

section

variable (h : Settled readTime s live)
include h

theorem settled_selectTarget : Settled readTime (selectTarget readTime s) live := by
  rw [selectTarget_eq h]
  refine settled_transition
    ⟨h.active_verified, h.state_fresh, h.fresh_verified, h.fresh_transport, h.verified_acked,
      h.verified_tick, h.acked_baseline, h.live_requested⟩
    (verified_of_active h) (fresh_of_activeFresh h) ?_
  rcases preserved_or_selected s with hpreserved | hselected
  · intro hnot
    rw [hnot] at hpreserved
    exact absurd hpreserved (by decide)
  · rw [hselected]
    decide

theorem flagsSound_selectTarget (hsound : FlagsSound s live)
    (hwait : targetSelectionPreservedState s = .ackedWaitFirstTick → live.isSome = true) :
    FlagsSound (selectTarget readTime s) live := by
  rw [selectTarget_eq h]
  exact flagsSound_transition (fun hfresh => ⟨rfl, rfl, (hsound.1 hfresh).2.2⟩) hwait

theorem preservedState_selectTarget :
    targetSelectionPreservedState (selectTarget readTime s) = targetSelectionPreservedState s := by
  rw [selectTarget_eq h]
  exact preservedState_transition _ rfl rfl rfl rfl rfl

end

theorem settled_enqueue (dispatched : Bool) (h : Settled readTime s live) :
    Settled readTime (enqueue dispatched s) live := by
  unfold enqueue
  by_cases hkeep : preserveActive s = true
  · have hverified : s.firstTickVerified = true := by
      simp only [preserveActive, Bool.and_eq_true] at hkeep
      exact hkeep.1.2
    simp only [hkeep, Bool.true_and, if_true]
    refine settled_transition
      ⟨h.active_verified, h.state_fresh, h.fresh_verified, h.fresh_transport, h.verified_acked,
        h.verified_tick, h.acked_baseline, h.live_requested⟩
      (fun _ => hverified) h.state_fresh ?_
    intro hnot
    simp [preserveActive, hnot, active] at hkeep
  · rw [Bool.not_eq_true] at hkeep
    simp only [hkeep, Bool.false_and, if_false, Bool.false_eq_true]
    cases dispatched <;> constructor <;> simp [active]

theorem flagsSound_enqueue (dispatched : Bool) (hsound : FlagsSound s live) :
    FlagsSound (enqueue dispatched s) live := by
  unfold enqueue
  by_cases hkeep : preserveActive s = true
  · have hactive : s.lifecycleState.active = true := by
      simp only [preserveActive, Bool.and_eq_true] at hkeep
      exact hkeep.2
    simp only [hkeep, Bool.true_and, if_true]
    refine flagsSound_transition (fun hfresh => ⟨rfl, rfl, (hsound.1 hfresh).2.2⟩) ?_
    intro hwait
    rw [hwait] at hactive
    exact absurd hactive (by decide)
  · rw [Bool.not_eq_true] at hkeep
    simp only [hkeep, Bool.false_and, if_false, Bool.false_eq_true]
    cases dispatched <;> simp [FlagsSound]

theorem settled_acknowledge (baseline : String) (s : RealtimeSubscriptionLifecycleSnapshot) :
    Settled readTime (acknowledge baseline s) (some baseline) := by
  unfold acknowledge
  constructor <;> simp [active]

variable (now : Moment)

theorem settled_verifyFirstTick (tick : TickEvidence) (h : Settled readTime s live) :
    Settled readTime (verifyFirstTick readTime maxTickAgeMs now tick s) live := by
  unfold verifyFirstTick
  split
  · exact h
  · rename_i hacked
    rw [not_or, Bool.not_eq_false] at hacked
    split
    · exact h
    · rename_i tickAt htick
      split
      · exact h
      · rename_i hnotBefore
        rw [Bool.not_eq_true] at hnotBefore
        constructor
        · exact fun _ => rfl
        · intro hstate
          simpa using hstate
        · exact fun _ => rfl
        · exact fun _ => rfl
        · exact fun _ => hacked.1
        · exact fun _ => ⟨⟨tickAt, htick⟩, hnotBefore⟩
        · exact h.acked_baseline
        · simp

theorem flagsSound_verifyFirstTick_iff (tick : TickEvidence) (hsound : FlagsSound s live) :
    FlagsSound (verifyFirstTick readTime maxTickAgeMs now tick s) live ↔
      (CountsAsFresh readTime maxTickAgeMs now tick s → Clear s live) := by
  unfold verifyFirstTick CountsAsFresh
  split
  · rename_i hnot
    refine iff_of_true hsound ?_
    rintro ⟨hacked, hsource, -, -⟩
    simp [hacked, hsource] at hnot
  · rename_i hboth
    rw [not_or, Bool.not_eq_false, not_not] at hboth
    obtain ⟨hacked, hsource⟩ := hboth
    split
    · rename_i htick
      refine iff_of_true hsound ?_
      rintro ⟨-, -, -, hyoung⟩
      simp [htick] at hyoung
    · rename_i tickAt htick
      split
      · rename_i hbefore
        refine iff_of_true hsound ?_
        rintro ⟨-, -, hnotBefore, -⟩
        rw [hbefore] at hnotBefore
        exact absurd hnotBefore (by simp)
      · rename_i hnotBefore
        rw [Bool.not_eq_true] at hnotBefore
        cases hyoung : youngAt maxTickAgeMs now tickAt with
        | true => simp [FlagsSound, Clear, hacked, hsource, htick, hnotBefore, hyoung]
        | false => simp [FlagsSound, htick, hyoung]

theorem settled_acknowledgeRegister (baseline : String) (evidence : Option TickEvidence)
    (s : RealtimeSubscriptionLifecycleSnapshot) :
    Settled readTime (acknowledgeRegister readTime maxTickAgeMs now baseline evidence s)
      (some baseline) := by
  unfold acknowledgeRegister
  cases evidence with
  | none => exact settled_acknowledge baseline s
  | some tick => exact settled_verifyFirstTick now tick (settled_acknowledge baseline s)

theorem flagsSound_acknowledgeRegister (baseline : String) (evidence : Option TickEvidence)
    (s : RealtimeSubscriptionLifecycleSnapshot) :
    FlagsSound (acknowledgeRegister readTime maxTickAgeMs now baseline evidence s)
      (some baseline) := by
  have hack : FlagsSound (acknowledge baseline s) (some baseline) :=
    flagsSound_transition (fun _ => ⟨rfl, rfl, rfl⟩) fun _ => rfl
  unfold acknowledgeRegister
  cases evidence with
  | none => exact hack
  | some tick => exact (flagsSound_verifyFirstTick_iff now tick hack).mpr fun _ => ⟨rfl, rfl, rfl⟩

theorem settled_acknowledgeRelease (h : Settled readTime s live) :
    Settled readTime (acknowledgeRelease s) none := by
  unfold acknowledgeRelease
  constructor
  · simp [active]
  · simp
  · simp
  · simp
  · exact h.verified_acked
  · exact h.verified_tick
  · simp
  · simp

theorem settled_refreshStaleness (h : Settled readTime s live) :
    Settled readTime (refreshStaleness readTime maxTickAgeMs now s) live := by
  unfold refreshStaleness
  split
  · exact h
  · rename_i hready
    simp only [not_or, Bool.not_eq_false] at hready
    obtain ⟨hacked, hverified, htransport⟩ := hready
    split
    · exact h
    · dsimp only
      split
      · constructor
        · exact fun _ => hverified
        · intro hstate
          simpa using hstate
        · exact fun _ => hverified
        · exact fun _ => htransport
        · exact h.verified_acked
        · exact h.verified_tick
        · exact h.acked_baseline
        · simp
      · exact h

theorem flagsSound_refreshStaleness_iff (hsound : FlagsSound s live) :
    FlagsSound (refreshStaleness readTime maxTickAgeMs now s) live ↔
      (StaysFresh readTime maxTickAgeMs now s → Clear s live) := by
  unfold refreshStaleness StaysFresh
  split
  · rename_i hnot
    refine iff_of_true hsound ?_
    rintro ⟨hacked, hverified, htransport, -⟩
    simp [hacked, hverified, htransport] at hnot
  · rename_i hready
    simp only [not_or, Bool.not_eq_false] at hready
    obtain ⟨hacked, hverified, htransport⟩ := hready
    split
    · rename_i htick
      refine iff_of_true hsound ?_
      rintro ⟨-, -, -, hyoung⟩
      simp [htick] at hyoung
    · rename_i tickAt htick
      cases hyoung : youngAt maxTickAgeMs now tickAt with
      | true =>
        dsimp only
        split
        · simp [FlagsSound, Clear, hacked, hverified, htransport, htick, hyoung]
        · -- nothing changes: the snapshot is fresh already
          rename_i hsame
          simp only [not_or, not_not] at hsame
          refine iff_of_true hsound fun _ => hsound.1 hsame.2.1
      | false =>
        dsimp only
        split
        · simp [FlagsSound, htick, hyoung]
        · refine iff_of_true hsound ?_
          simp [htick, hyoung]

/-! ## Replaced snapshots -/

def WatchedTracker.Settles (readTime : String → Option Int) (w : WatchedTracker) : Prop :=
  ∀ code, Settled readTime (w.tracker.snapshotOf code) (w.live.get? code)

namespace WatchedTracker

open RealtimeSubscriptionLifecycleTracker

variable {w : WatchedTracker}

theorem sound_iff (h : w.Settles readTime) :
    w.Sound readTime ↔ ∀ code, FlagsSound (w.tracker.snapshotOf code) (w.live.get? code) := by
  unfold Sound
  exact forall_congr' fun code => soundAt_iff (h code)

variable {f : RealtimeSubscriptionLifecycleSnapshot → RealtimeSubscriptionLifecycleSnapshot}

variable (codes : List String)

theorem settles_updateAll (h : w.Settles readTime)
    (hf : ∀ live s, Settled readTime s live → Settled readTime (f s) live) :
    Settles readTime { w with tracker := w.tracker.updateAll codes fun _ => f } :=
  fun code => snapshotOf_updateAll_keeps codes
    (R := fun s => Settled readTime s (w.live.get? code)) (hf _) (h code)

theorem sound_updateAll (h : w.Settles readTime) (hsound : w.Sound readTime)
    (hf : ∀ live s, Settled readTime s live → Settled readTime (f s) live)
    (hflags : ∀ live s, FlagsSound s live → FlagsSound (f s) live) :
    Sound readTime { w with tracker := w.tracker.updateAll codes fun _ => f } := by
  rw [sound_iff (settles_updateAll codes h hf)]
  rw [sound_iff h] at hsound
  exact fun code => snapshotOf_updateAll_keeps codes
    (R := fun s => FlagsSound s (w.live.get? code)) (hflags _) (hsound code)

/-- A handler that changes no flag of a fresh snapshot. -/
structure Quiet (readTime : String → Option Int)
    (f : RealtimeSubscriptionLifecycleSnapshot → RealtimeSubscriptionLifecycleSnapshot) :
    Prop where
  settled : ∀ live s, Settled readTime s live → Settled readTime (f s) live
  flags : ∀ live s, FlagsSound s live → FlagsSound (f s) live

theorem quiet_request : Quiet readTime request where
  settled _ _ h := settled_transition
    ⟨h.active_verified, h.state_fresh, h.fresh_verified, h.fresh_transport, h.verified_acked,
      h.verified_tick, h.acked_baseline, h.live_requested⟩
    (by simp [active]) (by simp) (by simp)
  flags _ _ h := flagsSound_transition h.1 (by simp)

theorem quiet_deferBudget : Quiet readTime deferBudget where
  settled _ _ _ := by
    unfold deferBudget
    constructor <;> simp [active]
  flags _ _ _ := flagsSound_transition (by simp) (by simp)

theorem quiet_enqueue (dispatched : Bool) : Quiet readTime (enqueue dispatched) where
  settled _ _ h := settled_enqueue dispatched h
  flags _ _ h := flagsSound_enqueue dispatched h

theorem quiet_start : Quiet readTime start where
  settled _ _ h := settled_transition
    ⟨h.active_verified, h.state_fresh, h.fresh_verified, h.fresh_transport, h.verified_acked,
      h.verified_tick, h.acked_baseline, h.live_requested⟩
    (by simp [active]) (by simp) (by simp)
  flags _ _ h := flagsSound_transition h.1 (by simp)

theorem quiet_requestRelease : Quiet readTime requestRelease where
  settled _ _ h := settled_transition h (by simp [active]) (by simp) (by simp)
  flags _ _ h := flagsSound_transition h.1 (by simp)

theorem settled_fail (h : Settled readTime s live) : Settled readTime (fail s) live :=
  settled_transition
    ⟨h.active_verified, h.state_fresh, h.fresh_verified, h.fresh_transport, h.verified_acked,
      h.verified_tick, h.acked_baseline, h.live_requested⟩
    (by simp [active]) (by simp) (by simp)

theorem sound_fail_iff (h : w.Settles readTime) (hsound : w.Sound readTime) :
    Sound readTime { w with tracker := w.tracker.updateAll codes fun _ => fail } ↔
      ∀ code ∈ codes, (w.tracker.snapshotOf code).decisionFresh = false := by
  rw [sound_iff (settles_updateAll codes h fun _ _ => settled_fail)]
  rw [sound_iff h] at hsound
  constructor
  · intro hafter code hcode
    by_contra hfresh
    rw [Bool.not_eq_false] at hfresh
    have hboth := snapshotOf_updateAll_reaches (f := fun _ => fail)
      (R := fun s => s.decisionFresh = true)
      (Q := fun s => s.decisionFresh = true ∧ s.failed = true)
      (fun _ hs => ⟨hs, rfl⟩) (fun _ hs => ⟨hs.1, rfl⟩) hcode hfresh
    have hclear := (hafter code).1 hboth.1
    rw [Clear, hboth.2] at hclear
    exact absurd hclear.2.1 (by simp)
  · intro hnone code
    by_cases hcode : code ∈ codes
    · have hdead := snapshotOf_updateAll_reaches (f := fun _ => fail)
        (R := fun s => s.decisionFresh = false)
        (Q := fun s => s.decisionFresh = false ∧ s.lifecycleState = .failed)
        (fun _ hs => ⟨hs, rfl⟩) (fun _ hs => ⟨hs.1, rfl⟩) hcode (hnone code hcode)
      constructor
      · intro hfresh
        rw [hdead.1] at hfresh
        exact absurd hfresh (by simp)
      · intro hwait
        rw [hdead.2] at hwait
        exact absurd hwait (by simp)
    · rw [snapshotOf_updateAll_of_notMem hcode]
      exact hsound code

theorem sound_selectTarget_iff (h : w.Settles readTime) (hsound : w.Sound readTime) :
    Sound readTime { w with tracker := w.tracker.updateAll codes fun _ => selectTarget readTime } ↔
      ∀ code ∈ codes,
        targetSelectionPreservedState (w.tracker.snapshotOf code) = .ackedWaitFirstTick →
          (w.live.get? code).isSome = true := by
  rw [sound_iff (settles_updateAll codes h fun _ _ => settled_selectTarget)]
  rw [sound_iff h] at hsound
  constructor
  · intro hafter code hcode hwait
    have hstate := snapshotOf_updateAll_reaches (f := fun _ => selectTarget readTime)
      (R := fun s => Settled readTime s (w.live.get? code) ∧
        targetSelectionPreservedState s = .ackedWaitFirstTick)
      (Q := fun s => Settled readTime s (w.live.get? code) ∧
        targetSelectionPreservedState s = .ackedWaitFirstTick ∧
          s.lifecycleState = .ackedWaitFirstTick)
      (fun s hs => ⟨settled_selectTarget hs.1, (preservedState_selectTarget hs.1).trans hs.2, by
        rw [selectTarget_eq hs.1]
        exact hs.2⟩)
      (fun s hs => ⟨settled_selectTarget hs.1, (preservedState_selectTarget hs.1).trans hs.2.1, by
        rw [selectTarget_eq hs.1]
        exact hs.2.1⟩)
      hcode ⟨h code, hwait⟩
    exact (hafter code).2 hstate.2.2
  · intro hlive code
    by_cases hcode : code ∈ codes
    · have hkept := snapshotOf_updateAll_keeps (t := w.tracker) codes
        (f := fun _ => selectTarget readTime)
        (R := fun s => Settled readTime s (w.live.get? code) ∧
          FlagsSound s (w.live.get? code) ∧
            (targetSelectionPreservedState s = .ackedWaitFirstTick →
              (w.live.get? code).isSome = true))
        (fun s hs => ⟨settled_selectTarget hs.1, flagsSound_selectTarget hs.1 hs.2.1 hs.2.2, by
          rw [preservedState_selectTarget hs.1]
          exact hs.2.2⟩)
        ⟨h code, hsound code, hlive code hcode⟩
      exact hkept.2.1
    · rw [snapshotOf_updateAll_of_notMem hcode]
      exact hsound code

theorem sound_set_iff {t : RealtimeSubscriptionLifecycleTracker} {code : String}
    (hset : t.snapshots = w.tracker.snapshots.set code s) (h : w.Settles readTime)
    (hsettled : Settled readTime s (w.live.get? code)) :
    Settles readTime { w with tracker := t } ∧
      (w.Sound readTime →
        (Sound readTime { w with tracker := t } ↔ FlagsSound s (w.live.get? code))) := by
  have hself : t.snapshotOf code = s := by
    unfold snapshotOf
    rw [hset, get?_set_self]
    rfl
  have hother : ∀ code', code' ≠ code → t.snapshotOf code' = w.tracker.snapshotOf code' := by
    intro code' hne
    unfold snapshotOf
    rw [hset, get?_set_ne _ _ hne]
  have hsettles : Settles readTime { w with tracker := t } := by
    intro code'
    by_cases hcode : code' = code
    · subst hcode
      show Settled readTime (t.snapshotOf code') _
      rw [hself]
      exact hsettled
    · show Settled readTime (t.snapshotOf code') _
      rw [hother code' hcode]
      exact h code'
  refine ⟨hsettles, fun hsound => ?_⟩
  rw [sound_iff hsettles]
  rw [sound_iff h] at hsound
  constructor
  · intro hafter
    have hflags := hafter code
    rwa [hself] at hflags
  · intro hflags code'
    by_cases hcode : code' = code
    · subst hcode
      show FlagsSound (t.snapshotOf code') _
      rw [hself]
      exact hflags
    · show FlagsSound (t.snapshotOf code') _
      rw [hother code' hcode]
      exact hsound code'

/-! ## Acknowledgements -/

variable (maxTickAgeMs) in
theorem sound_register (now : Moment) (baseline : String) (h : w.Settles readTime) :
    let w' : WatchedTracker :=
      { tracker := w.tracker.updateAll codes fun code =>
          acknowledgeRegister readTime maxTickAgeMs now baseline
            (w.tracker.latestTickEvidence.get? code)
        live := w.live.upsertAll codes fun _ _ => baseline }
    w'.Settles readTime ∧ (w.Sound readTime → w'.Sound readTime) := by
  intro w'
  have hcases : ∀ code,
      (w'.live.get? code = some baseline ∧
        Settled readTime (w'.tracker.snapshotOf code) (some baseline) ∧
          FlagsSound (w'.tracker.snapshotOf code) (some baseline)) ∨
      (w'.live.get? code = w.live.get? code ∧
        w'.tracker.snapshotOf code = w.tracker.snapshotOf code) := by
    intro code
    by_cases hcode : code ∈ codes
    · have hlive : w'.live.get? code = some baseline :=
        upsertAll_reaches (R := fun _ => True) (Q := (· = some baseline))
          (fun _ _ => rfl) (fun _ _ => rfl) hcode w.live trivial
      have hsound : ∀ s, Settled readTime
            (acknowledgeRegister readTime maxTickAgeMs now baseline
              (w.tracker.latestTickEvidence.get? code) s) (some baseline) ∧
          FlagsSound (acknowledgeRegister readTime maxTickAgeMs now baseline
            (w.tracker.latestTickEvidence.get? code) s) (some baseline) := fun s =>
        ⟨settled_acknowledgeRegister now baseline _ s, flagsSound_acknowledgeRegister now baseline _ s⟩
      have hsnapshot := snapshotOf_updateAll_reaches (t := w.tracker)
        (f := fun code => acknowledgeRegister readTime maxTickAgeMs now baseline
          (w.tracker.latestTickEvidence.get? code))
        (R := fun _ => True)
        (Q := fun s => Settled readTime s (some baseline) ∧ FlagsSound s (some baseline))
        (fun s _ => hsound s) (fun s _ => hsound s) hcode trivial
      exact .inl ⟨hlive, hsnapshot⟩
    · exact .inr ⟨get?_upsertAll_of_notMem w.live hcode, snapshotOf_updateAll_of_notMem hcode⟩
  have hsettles : w'.Settles readTime := by
    intro code
    rcases hcases code with ⟨hlive, hsettled, -⟩ | ⟨hlive, hsame⟩
    · rw [hlive]
      exact hsettled
    · rw [hlive, hsame]
      exact h code
  refine ⟨hsettles, fun hsound => ?_⟩
  rw [sound_iff hsettles]
  rw [sound_iff h] at hsound
  intro code
  rcases hcases code with ⟨hlive, -, hflags⟩ | ⟨hlive, hsame⟩
  · rw [hlive]
    exact hflags
  · rw [hlive, hsame]
    exact hsound code

theorem sound_release {live' : Dict String String} (hgone : ∀ code ∈ codes, live'.get? code = none)
    (hkept : ∀ code, code ∉ codes → live'.get? code = w.live.get? code) (h : w.Settles readTime) :
    let w' : WatchedTracker :=
      { tracker := w.tracker.updateAll codes fun _ => acknowledgeRelease
        live := live' }
    w'.Settles readTime ∧ (w.Sound readTime → w'.Sound readTime) := by
  intro w'
  have hreleased : ∀ code ∈ codes,
      Settled readTime (w'.tracker.snapshotOf code) none ∧
        (w'.tracker.snapshotOf code).decisionFresh = false ∧
          (w'.tracker.snapshotOf code).lifecycleState = .released :=
    fun code hcode => snapshotOf_updateAll_reaches (f := fun _ => acknowledgeRelease)
      (R := fun s => Settled readTime s (w.live.get? code))
      (Q := fun s => Settled readTime s none ∧ s.decisionFresh = false ∧
        s.lifecycleState = .released)
      (fun _ hs => ⟨settled_acknowledgeRelease hs, rfl, rfl⟩)
      (fun _ hs => ⟨settled_acknowledgeRelease hs.1, rfl, rfl⟩) hcode (h code)
  have hsettles : w'.Settles readTime := by
    intro code
    by_cases hcode : code ∈ codes
    · rw [hgone code hcode]
      exact (hreleased code hcode).1
    · rw [hkept code hcode, show w'.tracker.snapshotOf code = w.tracker.snapshotOf code from
        snapshotOf_updateAll_of_notMem hcode]
      exact h code
  refine ⟨hsettles, fun hsound => ?_⟩
  rw [sound_iff hsettles]
  rw [sound_iff h] at hsound
  intro code
  by_cases hcode : code ∈ codes
  · obtain ⟨-, hfresh, hstate⟩ := hreleased code hcode
    constructor
    · intro hdecision
      rw [hfresh] at hdecision
      exact absurd hdecision (by simp)
    · intro hwait
      rw [hstate] at hwait
      exact absurd hwait (by simp)
  · rw [hkept code hcode, show w'.tracker.snapshotOf code = w.tracker.snapshotOf code from
      snapshotOf_updateAll_of_notMem hcode]
    exact hsound code

/-! ## One event -/

theorem Quiet.step (hf : Quiet readTime f) (codes : List String) (h : w.Settles readTime) :
    Settles readTime { w with tracker := w.tracker.updateAll codes fun _ => f } ∧
      (w.Sound readTime →
        (Sound readTime { w with tracker := w.tracker.updateAll codes fun _ => f } ↔ True)) :=
  ⟨settles_updateAll codes h hf.settled,
    fun hsound => iff_of_true (sound_updateAll codes h hsound hf.settled hf.flags) trivial⟩

theorem step_commandFailed (payload : CommandPayload) (h : w.Settles readTime) :
    Settles readTime { w with tracker := w.tracker.onCommandFailed payload } ∧
      (w.Sound readTime →
        (Sound readTime { w with tracker := w.tracker.onCommandFailed payload } ↔
          (isRealtimeCommand payload.commandType → w.FailsNoFresh payload))) := by
  unfold onCommandFailed
  split
  · rename_i hcommand
    refine ⟨settles_updateAll _ h fun _ _ => settled_fail, fun hsound => ?_⟩
    rw [sound_fail_iff _ h hsound]
    exact ⟨fun hnone _ => hnone, fun hnone => hnone hcommand⟩
  · rename_i hcommand
    exact ⟨h, fun hsound => iff_of_true hsound fun hreal => absurd hreal hcommand⟩

theorem step_commandEnqueued (receipt : Option RealtimeCommandReceipt)
    (h : w.Settles readTime) :
    Settles readTime { w with tracker := w.tracker.onCommandEnqueued receipt } ∧
      (w.Sound readTime →
        (Sound readTime { w with tracker := w.tracker.onCommandEnqueued receipt } ↔ True)) := by
  unfold onCommandEnqueued
  cases receipt with
  | none => exact ⟨h, fun hsound => iff_of_true hsound trivial⟩
  | some receipt =>
    dsimp only
    generalize (if receipt.duplicateOf = "" then _ else _ : Dict String (List String)) = commands
    split
    · exact ⟨h, fun hsound => iff_of_true hsound trivial⟩
    · exact (quiet_enqueue _).step
        (w := { w with tracker := { w.tracker with commandCodes := commands } }) _ h

theorem step_commandAck (payload : CommandPayload) (now : Moment) (h : w.Settles readTime) :
    ((machine readTime utcText maxTickAgeMs).next w (.commandAck payload, now)).Settles readTime ∧
      (w.Sound readTime →
        (((machine readTime utcText maxTickAgeMs).next w (.commandAck payload, now)).Sound
            readTime ↔
          (payload.commandType = "register_realtime" → ackStatus payload ≠ "ACKED" →
            w.FailsNoFresh payload))) := by
  show Settles readTime
      { tracker := w.tracker.onCommandAck readTime utcText maxTickAgeMs payload now
        live := w.liveAfter utcText now (.commandAck payload) } ∧ (_ → (Sound readTime
      { tracker := w.tracker.onCommandAck readTime utcText maxTickAgeMs payload now
        live := w.liveAfter utcText now (.commandAck payload) } ↔ _))
  unfold onCommandAck liveAfter
  by_cases hregister : payload.commandType = "register_realtime"
  · by_cases hacked : ackStatus payload = "ACKED"
    · simp only [hregister, hacked, if_true, ne_eq, not_true_eq_false, if_false]
      have hregistered := sound_register maxTickAgeMs (w.tracker.eventCodes payload) now
        (ackBaseline utcText payload now) h
      exact ⟨hregistered.1, fun hsound =>
        iff_of_true (hregistered.2 hsound) fun _ hnot => hnot.elim⟩
    · -- a refused register command fails its codes
      simp only [hregister, hacked, if_true, ne_eq, not_false_eq_true, if_false]
      obtain ⟨hsettles, hiff⟩ := step_commandFailed payload h
      refine ⟨hsettles, fun hsound => (hiff hsound).trans ?_⟩
      simp [isRealtimeCommand, hregister]
  · simp only [hregister, if_false, false_implies, iff_true]
    by_cases hall : payload.commandType = "remove_all_realtime"
    · simp only [hall, if_true]
      refine sound_release w.tracker.snapshots.keys (fun _ _ => rfl) ?_ h
      -- a code without a snapshot was never acknowledged
      intro code hcode
      by_contra hlive
      apply (h code).live_requested (Option.isSome_iff_ne_none.mpr (Ne.symm hlive))
      unfold snapshotOf
      rw [get?_eq_none.mpr hcode]
      rfl
    · simp only [hall, if_false]
      by_cases hremove : payload.commandType = "remove_realtime"
      · simp only [hremove, if_true]
        refine sound_release (w.tracker.eventCodes payload) ?_ ?_ h
        · intro code hcode
          simp [get?_filter, hcode]
        · intro code hcode
          cases hlive : w.live.get? code with
          | none => simp [get?_filter, hlive]
          | some baseline => simp [get?_filter, hlive, hcode]
      · simp only [hremove, if_false]
        exact ⟨h, id⟩

theorem step_priceTick (payload : TickPayload) (now : Moment) (h : w.Settles readTime) :
    ((machine readTime utcText maxTickAgeMs).next w (.priceTick payload, now)).Settles readTime ∧
      (w.Sound readTime →
        (((machine readTime utcText maxTickAgeMs).next w (.priceTick payload, now)).Sound
            readTime ↔
          w.MeetsNoLeftovers readTime utcText maxTickAgeMs (.priceTick payload, now))) := by
  show Settles readTime
      { w with tracker := w.tracker.onPriceTick readTime utcText maxTickAgeMs payload now } ∧
    (_ → (Sound readTime
      { w with tracker := w.tracker.onPriceTick readTime utcText maxTickAgeMs payload now } ↔ _))
  unfold onPriceTick MeetsNoLeftovers
  by_cases hcode : normalizeCode payload.code = ""
  · simp only [hcode, if_true]
    exact ⟨h, fun hsound => iff_of_true hsound fun hne => absurd rfl hne⟩
  · simp only [hcode, if_false, ne_eq, not_false_eq_true, true_implies]
    generalize normalizeCode payload.code = code
    cases hget : w.tracker.snapshots.get? code with
    | none =>
      refine ⟨h, fun hsound => iff_of_true hsound ?_⟩
      rintro ⟨hacked, -⟩
      simp [snapshotOf, hget] at hacked
    | some snapshot =>
      have hsnapshot : w.tracker.snapshotOf code = snapshot := by simp [snapshotOf, hget]
      have hold := h code
      rw [hsnapshot] at hold ⊢
      obtain ⟨hsettles, hiff⟩ := sound_set_iff
        (t := { w.tracker with
          latestTickEvidence := w.tracker.latestTickEvidence.set code
            (tickEvidence utcText payload now)
          snapshots := w.tracker.snapshots.set code (verifyFirstTick readTime maxTickAgeMs now
            (tickEvidence utcText payload now) snapshot) })
        rfl h (settled_verifyFirstTick now (tickEvidence utcText payload now) hold)
      refine ⟨hsettles, fun hsound => (hiff hsound).trans ?_⟩
      have hflags := (sound_iff h).mp hsound code
      rw [hsnapshot] at hflags
      exact flagsSound_verifyFirstTick_iff now _ hflags

theorem step_refreshStaleness (code : String) (now : Moment) (h : w.Settles readTime) :
    ((machine readTime utcText maxTickAgeMs).next w (.refreshStaleness code, now)).Settles
        readTime ∧
      (w.Sound readTime →
        (((machine readTime utcText maxTickAgeMs).next w (.refreshStaleness code, now)).Sound
            readTime ↔
          w.MeetsNoLeftovers readTime utcText maxTickAgeMs (.refreshStaleness code, now))) := by
  show Settles readTime
      { w with tracker := w.tracker.onRefreshStaleness readTime maxTickAgeMs code now } ∧
    (_ → (Sound readTime
      { w with tracker := w.tracker.onRefreshStaleness readTime maxTickAgeMs code now } ↔ _))
  unfold onRefreshStaleness MeetsNoLeftovers
  dsimp only
  generalize normalizeCode code = clean
  cases hget : w.tracker.snapshots.get? clean with
  | none =>
    refine ⟨h, fun hsound => iff_of_true hsound ?_⟩
    rintro ⟨hacked, -⟩
    simp [snapshotOf, hget] at hacked
  | some snapshot =>
    have hsnapshot : w.tracker.snapshotOf clean = snapshot := by simp [snapshotOf, hget]
    have hold := h clean
    rw [hsnapshot] at hold
    simp only [hsnapshot]
    obtain ⟨hsettles, hiff⟩ := sound_set_iff
      (t := { w.tracker with
        snapshots := w.tracker.snapshots.set clean
          (refreshStaleness readTime maxTickAgeMs now snapshot) })
      rfl h (settled_refreshStaleness now hold)
    refine ⟨hsettles, fun hsound => (hiff hsound).trans ?_⟩
    have hflags := (sound_iff h).mp hsound clean
    rw [hsnapshot] at hflags
    exact flagsSound_refreshStaleness_iff now hflags

theorem step (input : TrackerEvent × Moment) (h : w.Settles readTime) :
    ((machine readTime utcText maxTickAgeMs).next w input).Settles readTime ∧
      (w.Sound readTime →
        (((machine readTime utcText maxTickAgeMs).next w input).Sound readTime ↔
          w.MeetsNoLeftovers readTime utcText maxTickAgeMs input)) := by
  obtain ⟨event, now⟩ := input
  cases event with
  | requested code => exact quiet_request.step _ h
  | targetSelected records =>
    exact ⟨settles_updateAll _ h fun _ _ => settled_selectTarget,
      fun hsound => sound_selectTarget_iff _ h hsound⟩
  | budgetDeferred records => exact quiet_deferBudget.step _ h
  | commandEnqueued receipt => exact step_commandEnqueued receipt h
  | commandStarted payload =>
    show Settles readTime { w with tracker := w.tracker.onCommandStarted payload } ∧
      (_ → (Sound readTime { w with tracker := w.tracker.onCommandStarted payload } ↔ True))
    unfold onCommandStarted
    split
    · exact ⟨h, fun hsound => iff_of_true hsound trivial⟩
    · exact quiet_start.step _ h
  | commandAck payload => exact step_commandAck payload now h
  | commandFailed payload => exact step_commandFailed payload h
  | releaseRequested receipt codes =>
    cases receipt with
    | none => exact ⟨h, fun hsound => iff_of_true hsound trivial⟩
    | some receipt => exact quiet_requestRelease.step _ h
  | priceTick payload => exact step_priceTick payload now h
  | refreshStaleness code => exact step_refreshStaleness code now h

end WatchedTracker

def watchedStart : WatchedTracker := ⟨emptyTracker, .empty⟩

theorem settles_start : watchedStart.Settles readTime := fun _ => settled_blank

/-- A run keeps every snapshot sound exactly when none of its events meets flags that are left
over: from a release, for a late tick, a refresh or a selection; from a fresh time, for a
failure. -/
theorem always_sound_iff (readTime : String → Option Int) (utcText : String → String)
    (maxTickAgeMs : Int) (inputs : List (TrackerEvent × Moment)) :
    (machine readTime utcText maxTickAgeMs).Always (WatchedTracker.Sound readTime) watchedStart
        inputs ↔
      (machine readTime utcText maxTickAgeMs).Guarded
        (WatchedTracker.MeetsNoLeftovers readTime utcText maxTickAgeMs) watchedStart inputs := by
  refine Machine.always_iff_guarded (I := WatchedTracker.Settles readTime)
    (fun w input h _ _ => (WatchedTracker.step input h).1)
    (fun w input h hsound => (WatchedTracker.step input h).2 hsound) settles_start ?_
  rw [WatchedTracker.sound_iff settles_start]
  exact fun code => ⟨by simp [watchedStart, emptyTracker,
      RealtimeSubscriptionLifecycleTracker.snapshotOf], by simp [watchedStart, emptyTracker,
      RealtimeSubscriptionLifecycleTracker.snapshotOf]⟩

end

/-! ## Fixed runs -/

def readMillis (text : String) : Option Int :=
  if text.toList.all Char.isDigit then
    some (text.toList.foldl (fun n c => 10 * n + (c.toNat - '0'.toNat)) 0)
  else none

def samsungCommand (commandType commandId : String) : CommandPayload where
  commandType := commandType
  commandId := commandId
  codes := ["005930"]

def lateTick : List (TrackerEvent × Moment) :=
  [(.commandAck (samsungCommand "register_realtime" "reg-1"), ⟨"1000", 1000⟩),
    (.commandAck (samsungCommand "remove_realtime" "rem-1"), ⟨"2000", 2000⟩),
    (.priceTick { code := "005930", timestamp := "2001" }, ⟨"2002", 2002⟩)]

/-- The late tick makes the released subscription fresh. -/
theorem late_tick_is_fresh :
    ¬ (machine readMillis id 10000).Always (WatchedTracker.Sound readMillis) watchedStart
        lateTick := by
  intro h
  have hlast := Machine.always_iff_prefix.mp h _ List.prefix_rfl "005930"
  obtain ⟨-, hreleased, -⟩ := hlast.1 (.inr (by decide +kernel))
  exact absurd hreleased (by decide +kernel)

end TradingCore.Realtime
