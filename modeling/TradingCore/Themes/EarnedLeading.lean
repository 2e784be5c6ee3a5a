import TradingCore.Base.Streak
import TradingCore.Themes.StateMachine

/-!
# A leading theme has earned it

When a theme enters `LEADING_THEME` it was spreading, under the same leader, for the cycles and the
seconds that the configuration asks for. The counts that the snapshots carry say less: the cycles
of a state go on while the dwell time holds it, and the seconds of a leader are added up from the
last signal, which a stale cycle does not renew. `leading_is_earned` holds of the runs in which
neither happens.
-/

namespace TradingCore.Themes

open Base List Option Machine Streak ThemeCoreState

/-! ## One theme in a run -/

/-- The cohort of a theme in a cycle: of several under one id, the one whose snapshot is kept. -/
def ThemeCycle.cohortOf (cycle : ThemeCycle) (theme : String) : Option ThemeCohortSnapshot :=
  cycle.cohorts.reverse.find? (·.themeId = theme)

/-- The state machine, with the time of its last cycle. -/
structure ThemeRun where
  machine : ThemeStateMachine := {}
  lastCycleAt : Option Int := none

namespace ThemeRun

def snapshotOf (run : ThemeRun) (theme : String) : Option ThemeStateSnapshot :=
  run.machine.previous.get? theme

def system (config : ThemeStateConfig) : Machine ThemeRun ThemeCycle (List ThemeStateSnapshot) :=
  ⟨fun run cycle =>
    ({ machine := (run.machine.apply config cycle).1, lastCycleAt := some cycle.now },
      (run.machine.apply config cycle).2)⟩

theorem snapshotOf_next (config : ThemeStateConfig) (run : ThemeRun) (cycle : ThemeCycle)
    {theme : String} {item : ThemeStateSnapshot}
    (h : ((system config).next run cycle).snapshotOf theme = some item) :
    ∃ cohort, cycle.cohortOf theme = some cohort ∧
      item = applyOne config (run.snapshotOf theme) cohort cycle.now := by
  have hget : ((system config).next run cycle).snapshotOf theme =
      ((cycle.cohorts.map fun cohort : ThemeCohortSnapshot => applyOne config
        (run.snapshotOf cohort.themeId) cohort cycle.now).filter
          (·.themeId ≠ "")).reverse.find? (·.themeId = theme) :=
    Dict.get?_ofList_map ThemeStateSnapshot.themeId _ theme
  rw [hget, ← filter_reverse, find?_filter, ← map_reverse, find?_map] at h
  obtain ⟨cohort, hfind, rfl⟩ := map_eq_some_iff.mp h
  have hid : cohort.themeId ≠ "" ∧ cohort.themeId = theme := by
    simpa [applyOne] using find?_some hfind
  have hsame : cycle.cohorts.reverse.find? (·.themeId = theme) = some cohort := by
    rw [← hfind]
    congr 1
    funext other
    -- an entry under the theme's id has an id
    by_cases hother : other.themeId = theme
    · simp [applyOne, hother, ← hid.2, hid.1]
    · simp [applyOne, hother]
  refine ⟨cohort, hsame, ?_⟩
  rw [hid.2]

/-! ## What a snapshot says of the past -/

/-- The theme was raw `SPREADING_THEME` in the cycle. -/
def Spreads (config : ThemeStateConfig) (theme : String) (run : ThemeRun) (cycle : ThemeCycle) :
    Prop :=
  ∃ cohort ∈ cycle.cohortOf theme,
    (gracedState config (run.snapshotOf theme) cohort cycle.now).1 = .spreadingTheme

/-- The theme had the leader in the cycle, or was stale and reported none. -/
def Led (theme leader : String) (_ : ThemeRun) (cycle : ThemeCycle) : Prop :=
  ∃ cohort ∈ cycle.cohortOf theme,
    (cohort.leaderSymbol = leader ∨ staleBlocked cohort = true ∧ cohort.leaderSymbol = "")
deriving Decidable

/-- For the cycles and the seconds of the configuration the theme spread, under one leader. -/
structure Earned (config : ThemeStateConfig) (theme : String) (past : List ThemeCycle)
    (now : Int) (item : ThemeStateSnapshot) : Prop where
  cycles : ∃ start, (system config).Streak ThemeCycle.now (Spreads config theme) {} past
    config.minLeadingPersistenceCycles start
  seconds : ∃ start, (system config).Streak ThemeCycle.now (Spreads config theme) {} past 1
    start ∧ start + config.minLeadingPersistenceSec ≤ now
  leader : ∃ start, (system config).Streak ThemeCycle.now (Led theme item.leaderSymbol) {} past
    config.minLeaderStabilityCycles start ∧ start + config.minLeaderStabilitySec ≤ now

/-- Whenever a theme enters `LEADING_THEME` in the run, it has earned it. -/
def LeadingEarned (config : ThemeStateConfig) (cycles : List ThemeCycle) : Prop :=
  ∀ past cycle, past ++ [cycle] <+: cycles → ∀ theme item,
    ((system config).run {} (past ++ [cycle])).snapshotOf theme = some item →
    item.themeState = .leadingTheme →
    (∀ before ∈ ((system config).run {} past).snapshotOf theme, before.themeState ≠ .leadingTheme) →
    Earned config theme (past ++ [cycle]) cycle.now item

def OnTime (run : ThemeRun) (cycle : ThemeCycle) : Prop :=
  ∀ last ∈ run.lastCycleAt, last ≤ cycle.now
deriving Decidable

/-- The dwell time keeps a theme spreading or leading that no longer spreads: it is not fading
and has not been in its state for long enough. -/
def DwellHolds (config : ThemeStateConfig) (previous : ThemeStateSnapshot)
    (cohort : ThemeCohortSnapshot) (now : Int) : Prop :=
  let graced := gracedState config (some previous) cohort now
  previous.themeState.spreads = true ∧ graced.1 ≠ .spreadingTheme ∧
    ¬ (isFading previous cohort graced.2.1 config = true ∧
      staleGraceActive (some previous) cohort config now = false) ∧
    elapsedSec previous.stateEnteredAt now < config.stateMinDwellSec
deriving Decidable

/-- The leader goes on although the last cycle brought no signal: the time since the last signal,
which is added to the time of the leader, was added in part before. -/
def SignalLags (config : ThemeStateConfig) (lastCycleAt : Option Int)
    (previous : ThemeStateSnapshot) (cohort : ThemeCohortSnapshot) (now : Int) : Prop :=
  sameLeader (some previous) cohort (gracedState config (some previous) cohort now).1 = true ∧
    ∃ last ∈ lastCycleAt, ∃ signal ∈ previous.lastSignalAt, signal < last
deriving Decidable

/-- The counts of every theme of the cycle say what they stand for. -/
def CountsRight (config : ThemeStateConfig) (run : ThemeRun) (cycle : ThemeCycle) : Prop :=
  ∀ cohort ∈ cycle.cohorts, ∀ previous ∈ run.snapshotOf cohort.themeId,
    ¬ DwellHolds config previous cohort cycle.now ∧
      ¬ SignalLags config run.lastCycleAt previous cohort cycle.now
deriving Decidable

/-! ## What a cycle does to a theme -/

variable {config : ThemeStateConfig} {previous : Option ThemeStateSnapshot}
  {cohort : ThemeCohortSnapshot} {now : Int}

theorem applyDwell_timing (config : ThemeStateConfig) (previous : ThemeStateSnapshot)
    (candidate : ThemeCoreState) (timing : Timing) (now : Int) :
    (applyDwell config previous candidate timing now).2.1.spreadingSince = timing.spreadingSince ∧
      (applyDwell config previous candidate timing now).2.1.leaderStabilityCount =
        timing.leaderStabilityCount ∧
      (applyDwell config previous candidate timing now).2.1.leaderStabilitySec =
        timing.leaderStabilitySec := by
  unfold applyDwell
  split
  · simp
  · split
    · simp
    · split
      · split <;> simp
      · simp

theorem applyDwellAndRecovery_timing (config : ThemeStateConfig)
    (previous : Option ThemeStateSnapshot) (candidate : ThemeCoreState) (timing : Timing)
    (now : Int) :
    (applyDwellAndRecovery config previous candidate timing now).2.1.spreadingSince =
        timing.spreadingSince ∧
      (applyDwellAndRecovery config previous candidate timing now).2.1.leaderStabilityCount =
        timing.leaderStabilityCount ∧
      (applyDwellAndRecovery config previous candidate timing now).2.1.leaderStabilitySec =
        timing.leaderStabilitySec := by
  unfold applyDwellAndRecovery
  cases previous with
  | none =>
    dsimp only
    split <;> simp
  | some previous =>
    dsimp only
    split
    · generalize (if previous.recoveryPendingSince = none then (1 : Int)
        else previous.recoveryCycleCount + 1) = recoveryCycles
      split
      · simp
      · exact applyDwell_timing _ _ _ _ _
    · exact applyDwell_timing _ _ _ _ _

/-- The state that a cycle leaves is the candidate state, fading, or held by the dwell time. -/
theorem applyDwell_state (config : ThemeStateConfig) (previous : ThemeStateSnapshot)
    (candidate : ThemeCoreState) (timing : Timing) (now : Int) :
    (applyDwell config previous candidate timing now).1 = candidate ∨
      (applyDwell config previous candidate timing now).1 = .fadingTheme ∨
      (applyDwell config previous candidate timing now).1 = previous.themeState ∧
        candidate ≠ .fadingTheme ∧
        elapsedSec previous.stateEnteredAt now < config.stateMinDwellSec := by
  unfold applyDwell
  split
  · exact .inl rfl
  · next hcandidate =>
      split
      · exact .inr (.inl rfl)
      · split
        · next hdwell => exact .inr (.inr ⟨rfl, hcandidate, hdwell.2.2⟩)
        · exact .inl rfl

theorem applyDwellAndRecovery_state (config : ThemeStateConfig)
    (previous : Option ThemeStateSnapshot) (candidate : ThemeCoreState) (timing : Timing)
    (now : Int) :
    (applyDwellAndRecovery config previous candidate timing now).1 = candidate ∨
      (applyDwellAndRecovery config previous candidate timing now).1 = .fadingTheme ∨
      ∃ before, previous = some before ∧
        (applyDwellAndRecovery config previous candidate timing now).1 = before.themeState ∧
        candidate ≠ .fadingTheme ∧
        elapsedSec before.stateEnteredAt now < config.stateMinDwellSec := by
  cases previous with
  | none => exact .inl rfl
  | some previous =>
    have hdwell := fun timing => applyDwell_state config previous candidate timing now
    unfold applyDwellAndRecovery
    dsimp only
    split
    · generalize (if previous.recoveryPendingSince = none then (1 : Int)
        else previous.recoveryCycleCount + 1) = recoveryCycles
      split
      · exact .inr (.inl rfl)
      · exact (hdwell _).imp_right (Or.imp_right fun h => ⟨previous, rfl, h⟩)
    · exact (hdwell _).imp_right (Or.imp_right fun h => ⟨previous, rfl, h⟩)

theorem candidateState_cases (config : ThemeStateConfig) (previous : Option ThemeStateSnapshot)
    (cohort : ThemeCohortSnapshot) (raw : ThemeCoreState) (score : Rat) (timing : Timing)
    (now : Int) :
    (candidateState config previous cohort raw score timing now).1 = .fadingTheme ∧
        (∃ before, previous = some before ∧ isFading before cohort score config = true ∧
          staleGraceActive previous cohort config now = false) ∨
      (candidateState config previous cohort raw score timing now).1 = .leadingTheme ∧
        raw = .spreadingTheme ∧ leadingConfirmed timing config = true ∧
        (staleBlocked cohort = false ∨ staleGraceActive previous cohort config now = true) ∨
      (candidateState config previous cohort raw score timing now).1 = raw := by
  unfold candidateState
  dsimp only
  split
  · next hfading =>
      refine .inl ⟨rfl, ?_⟩
      cases previous with
      | none => simp [activeFading] at hfading
      | some before =>
        simp only [activeFading, Bool.and_eq_true, Bool.not_eq_true'] at hfading
        exact ⟨before, rfl, hfading.1.2, hfading.2⟩
  · split
    · next hspread =>
        split
        · next hconfirmed =>
            exact .inr (.inl ⟨rfl, hspread.1, hconfirmed.1, by simpa using hconfirmed.2⟩)
        · exact .inr (.inr hspread.1.symm)
    · exact .inr (.inr rfl)

theorem candidateState_of_fading {raw : ThemeCoreState} {score : Rat} {timing : Timing}
    (hfading : activeFading previous cohort score config = true)
    (hgrace : staleGraceActive previous cohort config now = false) :
    (candidateState config previous cohort raw score timing now).1 = .fadingTheme := by
  unfold candidateState
  dsimp only
  rw [if_pos ⟨hfading, by rw [hgrace]; rfl⟩]

theorem gracedState_ne_leading (config : ThemeStateConfig) (previous : Option ThemeStateSnapshot)
    (cohort : ThemeCohortSnapshot) (now : Int) :
    (gracedState config previous cohort now).1 ≠ .leadingTheme := by
  have hraw : (rawState config cohort (themeScore cohort)).1 ≠ .leadingTheme := by
    unfold rawState
    repeat' split
    all_goals simp
  unfold gracedState
  dsimp only
  split
  · cases previous with
    | none => exact hraw
    | some before =>
      dsimp only
      split
      · simp
      · exact hraw
  · exact hraw

theorem applyOne_cases (config : ThemeStateConfig) (previous : Option ThemeStateSnapshot)
    (cohort : ThemeCohortSnapshot) (now : Int) :
    let raw := (gracedState config previous cohort now).1
    let measured := timing previous cohort raw now
    (applyOne config previous cohort now).themeState = .fadingTheme ∨
      ((applyOne config previous cohort now).themeState = .leadingTheme ∧
        raw = .spreadingTheme ∧ leadingConfirmed measured config = true ∧
        (staleBlocked cohort = false ∨ staleGraceActive previous cohort config now = true)) ∨
      (applyOne config previous cohort now).themeState = raw ∨
      ∃ before, previous = some before ∧
        (applyOne config previous cohort now).themeState = before.themeState ∧
        (candidateState config previous cohort raw (gracedState config previous cohort now).2.1
          measured now).1 ≠ .fadingTheme ∧
        elapsedSec before.stateEnteredAt now < config.stateMinDwellSec := by
  intro raw measured
  have hcandidate := candidateState_cases config previous cohort raw
    (gracedState config previous cohort now).2.1 measured now
  rcases applyDwellAndRecovery_state config previous (candidateState config previous cohort raw
    (gracedState config previous cohort now).2.1 measured now).1 measured now with
    hstate | hstate | hstate
  · rw [← hstate] at hcandidate
    rcases hcandidate with ⟨h, -⟩ | h | h
    · exact .inl h
    · exact .inr (.inl h)
    · exact .inr (.inr (.inl h))
  · exact .inl hstate
  · exact .inr (.inr (.inr hstate))

theorem applyOne_spreads
    (h : (applyOne config previous cohort now).themeState.spreads = true) :
    (gracedState config previous cohort now).1 = .spreadingTheme ∨
      ∃ before, previous = some before ∧ DwellHolds config before cohort now := by
  by_cases hraw : (gracedState config previous cohort now).1 = .spreadingTheme
  · exact .inl hraw
  refine .inr ?_
  rcases applyOne_cases config previous cohort now with
    hcase | ⟨-, hspread, -⟩ | hcase | ⟨before, rfl, hstate, hcandidate, hdwell⟩
  · rw [hcase] at h
    simp [spreads] at h
  · exact absurd hspread hraw
  · rw [hcase] at h
    have hleading := gracedState_ne_leading config previous cohort now
    simp [spreads, hraw, hleading] at h
  · rw [hstate] at h
    refine ⟨before, rfl, h, hraw, ?_, hdwell⟩
    rintro ⟨hfading, hgrace⟩
    refine hcandidate (candidateState_of_fading ?_ hgrace)
    have hactive : before.themeState.active = true := by
      simp only [spreads, mem_cons, not_mem_nil, or_false,
        decide_eq_true_eq] at h
      simp only [active, mem_cons, not_mem_nil, or_false,
        decide_eq_true_eq]
      tauto
    simp only [activeFading, hactive, hfading, Bool.and_self]

/-- A theme enters `LEADING_THEME` in a cycle in which it spreads and its persistence is
confirmed. -/
theorem applyOne_enters (h : (applyOne config previous cohort now).themeState = .leadingTheme)
    (hbefore : ∀ before ∈ previous, before.themeState ≠ .leadingTheme) :
    (gracedState config previous cohort now).1 = .spreadingTheme ∧
      leadingConfirmed (timing previous cohort (gracedState config previous cohort now).1 now)
        config = true ∧
      (staleBlocked cohort = false ∨ staleGraceActive previous cohort config now = true) := by
  rcases applyOne_cases config previous cohort now with
    hcase | ⟨-, hspread⟩ | hcase | ⟨before, rfl, hstate, -⟩
  · rw [h] at hcase
    cases hcase
  · exact hspread
  · rw [h] at hcase
    exact absurd hcase.symm (gracedState_ne_leading config previous cohort now)
  · rw [h] at hstate
    exact absurd hstate.symm (hbefore before rfl)

/-! ## The invariant -/

/-- What the measures of a snapshot stand for, after a run whose last cycle was at `last`. -/
structure Tracked (config : ThemeStateConfig) (theme : String) (past : List ThemeCycle)
    (last : Int) (item : ThemeStateSnapshot) : Prop where
  counted : item.persistenceCount = item.stateCycleCount
  spread : item.themeState.spreads = true → ∃ start,
    (system config).Streak ThemeCycle.now (Spreads config theme) {} past item.stateCycleCount start
  since : ∀ start ∈ item.spreadingSince,
    (system config).Streak ThemeCycle.now (Spreads config theme) {} past 1 start ∧ start ≤ last
  leader : item.leaderSymbol ≠ "" → ∃ start,
    (system config).Streak ThemeCycle.now (Led theme item.leaderSymbol) {} past
      item.leaderStabilityCount start ∧ start + item.leaderStabilitySec ≤ last

section Step

variable {theme : String} {past : List ThemeCycle} {cycle : ThemeCycle}

theorem cohortOf_spec (h : cycle.cohortOf theme = some cohort) :
    cohort ∈ cycle.cohorts ∧ cohort.themeId = theme := by
  refine ⟨mem_reverse.mp (mem_of_find?_eq_some h), ?_⟩
  simpa using find?_some h

theorem spread_next (hcohort : cycle.cohortOf theme = some cohort)
    (hprevious : ((system config).run {} past).snapshotOf theme = previous)
    (hright : CountsRight config ((system config).run {} past) cycle)
    (hbefore : ∀ before ∈ previous, ∃ last, Tracked config theme past last before)
    (h : (applyOne config previous cohort cycle.now).themeState.spreads = true) :
    ∃ start, (system config).Streak ThemeCycle.now (Spreads config theme) {} (past ++ [cycle])
      (applyOne config previous cohort cycle.now).stateCycleCount start := by
  obtain ⟨hmem, hid⟩ := cohortOf_spec hcohort
  have hspreads : Spreads config theme ((system config).run {} past) cycle := by
    refine ⟨cohort, hcohort, ?_⟩
    rw [hprevious]
    refine (applyOne_spreads h).resolve_right ?_
    rintro ⟨before, rfl, hdwell⟩
    exact (hright cohort hmem before (by rw [hid]; exact hprevious)).1 hdwell
  cases previous with
  | none => exact ⟨cycle.now, begins hspreads (Int.le_refl 1)⟩
  | some before =>
    by_cases hstays : before.themeState =
        (applyOne config (some before) cohort cycle.now).themeState
    · obtain ⟨last, htracked⟩ := hbefore before rfl
      obtain ⟨start, hstreak⟩ := htracked.spread (hstays ▸ h)
      refine ⟨start, (hstreak.goesOn hspreads).shorten ?_⟩
      have hcount : (applyOne config (some before) cohort cycle.now).stateCycleCount =
          before.stateCycleCount + 1 := by
        unfold applyOne at hstays ⊢
        simp only at hstays ⊢
        rw [if_pos (by simpa using hstays)]
        rfl
      omega
    · refine ⟨cycle.now, begins hspreads ?_⟩
      unfold applyOne at hstays ⊢
      simp only at hstays ⊢
      rw [if_neg (by simpa using hstays)]

variable {before : ThemeStateSnapshot}

theorem timing_of_same {raw : ThemeCoreState} (now : Int)
    (h : sameLeader (some before) cohort raw = true) :
    (timing (some before) cohort raw now).leaderStabilityCount =
        before.leaderStabilityCount + 1 ∧
      (timing (some before) cohort raw now).leaderStabilitySec =
        before.leaderStabilitySec + elapsedSec before.lastSignalAt now := by
  unfold timing
  simp [h]

theorem timing_of_other {raw : ThemeCoreState} (now : Int)
    (h : sameLeader previous cohort raw = false) :
    (timing previous cohort raw now).leaderStabilityCount =
        (if cohort.leaderSymbol = "" then 0 else 1) ∧
      (timing previous cohort raw now).leaderStabilitySec = 0 := by
  unfold timing
  cases previous with
  | none => simp
  | some before => simp [h]

theorem elapsedSec_le {last now : Int} {lastCycleAt : Option Int} (hlast : last ∈ lastCycleAt)
    (hle : last ≤ now)
    (hlags : ¬ ∃ last ∈ lastCycleAt, ∃ signal ∈ before.lastSignalAt, signal < last) :
    elapsedSec before.lastSignalAt now ≤ now - last := by
  unfold elapsedSec
  cases hsignal : before.lastSignalAt with
  | none =>
    dsimp only
    omega
  | some signal =>
    have : ¬ signal < last := fun hlt => hlags ⟨last, hlast, signal, hsignal, hlt⟩
    dsimp only
    omega

theorem applyOne_timing (config : ThemeStateConfig) (previous : Option ThemeStateSnapshot)
    (cohort : ThemeCohortSnapshot) (now : Int) :
    (applyOne config previous cohort now).spreadingSince =
        (timing previous cohort (gracedState config previous cohort now).1 now).spreadingSince ∧
      (applyOne config previous cohort now).leaderStabilityCount = (timing previous cohort
        (gracedState config previous cohort now).1 now).leaderStabilityCount ∧
      (applyOne config previous cohort now).leaderStabilitySec = (timing previous cohort
        (gracedState config previous cohort now).1 now).leaderStabilitySec :=
  applyDwellAndRecovery_timing _ _ _ _ _

theorem applyOne_leaderSymbol (config : ThemeStateConfig) (previous : Option ThemeStateSnapshot)
    (cohort : ThemeCohortSnapshot) (now : Int) :
    (applyOne config previous cohort now).leaderSymbol =
      if cohort.leaderSymbol = "" then
        if staleGraceActive previous cohort config now then previous.elim "" (·.leaderSymbol)
        else ""
      else cohort.leaderSymbol := rfl

section

variable (hcohort : cycle.cohortOf theme = some cohort)
include hcohort

variable (hprevious : ((system config).run {} past).snapshotOf theme = previous)
    (htime : OnTime ((system config).run {} past) cycle)
    (hright : CountsRight config ((system config).run {} past) cycle)
    (hbefore : ∀ before ∈ previous, ∃ last ∈ ((system config).run {} past).lastCycleAt,
      Tracked config theme past last before)
include hprevious htime hright hbefore

theorem leader_next
    (hne : (applyOne config previous cohort cycle.now).leaderSymbol ≠ "") :
    ∃ start, (system config).Streak ThemeCycle.now
        (Led theme (applyOne config previous cohort cycle.now).leaderSymbol) {} (past ++ [cycle])
        (applyOne config previous cohort cycle.now).leaderStabilityCount start ∧
      start + (applyOne config previous cohort cycle.now).leaderStabilitySec ≤ cycle.now := by
  obtain ⟨hmem, hid⟩ := cohortOf_spec hcohort
  obtain ⟨-, hcount, hsec⟩ := applyOne_timing config previous cohort cycle.now
  rw [hcount, hsec]
  rw [applyOne_leaderSymbol] at hne ⊢
  generalize hraw : (gracedState config previous cohort cycle.now).1 = raw
  cases hsame : sameLeader previous cohort raw with
  | true =>
    cases previous with
    | none => simp [sameLeader] at hsame
    | some before =>
      obtain ⟨last, hlast, htracked⟩ := hbefore before rfl
      have hbound := elapsedSec_le hlast (htime last hlast)
        fun hlags => (hright cohort hmem before (by rw [hid]; exact hprevious)).2
          ⟨by rw [hraw]; exact hsame, hlags⟩
      have hmeasured := timing_of_same cycle.now hsame
      simp only [sameLeader, decide_eq_true_eq] at hsame
      obtain ⟨hnamed, hsame'⟩ := hsame
      obtain ⟨start, hstreak, hstart⟩ := htracked.leader hnamed
      -- the leader that is kept is the one of the last snapshot
      have hleader : before.leaderSymbol =
          if cohort.leaderSymbol = "" then
            if staleGraceActive (some before) cohort config cycle.now then before.leaderSymbol
            else ""
          else cohort.leaderSymbol := by
        rcases hsame' with hreported | ⟨-, -, hblank⟩
        · rw [if_neg (hreported ▸ hnamed), hreported]
        · rw [if_pos hblank] at hne ⊢
          split at hne
          · next hgrace => rw [if_pos hgrace]
          · exact absurd rfl hne
      have hled : Led theme before.leaderSymbol ((system config).run {} past) cycle := by
        refine ⟨cohort, hcohort, ?_⟩
        rcases hsame' with hreported | ⟨-, hstale, hblank⟩
        · exact .inl hreported.symm
        · exact .inr ⟨hstale, hblank⟩
      rw [hmeasured.1, hmeasured.2, elim_some, ← hleader]
      exact ⟨start, hstreak.goesOn hled, by omega⟩
  | false =>
    obtain ⟨hcounted, hseconds⟩ := timing_of_other cycle.now hsame
    rw [hcounted, hseconds]
    by_cases hblank : cohort.leaderSymbol = ""
    · rw [if_pos hblank] at hne ⊢
      rw [if_pos hblank]
      have hstale : staleBlocked cohort = true := by
        cases hgrace : staleGraceActive previous cohort config cycle.now with
        | false =>
          rw [hgrace] at hne
          simp at hne
        | true =>
          cases previous with
          | none => simp [staleGraceActive] at hgrace
          | some before =>
            simp only [staleGraceActive, decide_eq_true_eq] at hgrace
            exact hgrace.2.1
      exact ⟨cycle.now, begins ⟨cohort, hcohort, .inr ⟨hstale, hblank⟩⟩ (by omega), by omega⟩
    · rw [if_neg hblank, if_neg hblank]
      exact ⟨cycle.now, begins ⟨cohort, hcohort, .inl rfl⟩ (Int.le_refl 1), by omega⟩

omit hright in
theorem since_next :
    ∀ start ∈ (applyOne config previous cohort cycle.now).spreadingSince,
      (system config).Streak ThemeCycle.now (Spreads config theme) {} (past ++ [cycle]) 1 start ∧
        start ≤ cycle.now := by
  intro start hstart
  rw [(applyOne_timing config previous cohort cycle.now).1] at hstart
  have hsince : start ∈ since ((gracedState config previous cohort cycle.now).1 =
      .spreadingTheme) (previous.bind (·.spreadingSince)) cycle.now := hstart
  unfold since at hsince
  split at hsince
  · next hraw =>
      have hspreads : Spreads config theme ((system config).run {} past) cycle := by
        refine ⟨cohort, hcohort, ?_⟩
        rw [hprevious]
        simpa using hraw
      injection hsince with hsince
      cases hold : previous.bind (·.spreadingSince) with
      | none =>
        rw [hold, getD_none] at hsince
        subst hsince
        exact ⟨begins hspreads (Int.le_refl 1), Int.le_refl _⟩
      | some old =>
        rw [hold, getD_some] at hsince
        subst hsince
        obtain ⟨before, rfl, hspread⟩ := bind_eq_some_iff.mp hold
        obtain ⟨last, hlast, htracked⟩ := hbefore before rfl
        obtain ⟨hstreak, hle⟩ := htracked.since old hspread
        have := htime last hlast
        exact ⟨(hstreak.goesOn hspreads).shorten (by omega), by omega⟩
  · cases hsince

theorem tracked_next :
    Tracked config theme (past ++ [cycle]) cycle.now
      (applyOne config previous cohort cycle.now) where
  counted := rfl
  spread := spread_next hcohort hprevious hright fun before hsome => by
    obtain ⟨last, -, htracked⟩ := hbefore before hsome
    exact ⟨last, htracked⟩
  since := since_next hcohort hprevious htime hbefore
  leader := leader_next hcohort hprevious htime hright hbefore

/-- A theme that enters `LEADING_THEME` has earned it. -/
theorem earned_of_enters
    (h : (applyOne config previous cohort cycle.now).themeState = .leadingTheme)
    (hnew : ∀ before ∈ previous, before.themeState ≠ .leadingTheme) :
    Earned config theme (past ++ [cycle]) cycle.now
      (applyOne config previous cohort cycle.now) := by
  obtain ⟨hraw, hconfirmed, hfresh⟩ := applyOne_enters h hnew
  obtain ⟨hsince, hcount, hsec⟩ := applyOne_timing config previous cohort cycle.now
  simp only [leadingConfirmed, decide_eq_true_eq] at hconfirmed
  obtain ⟨hcycles, hseconds, hstable, hstableSec⟩ := hconfirmed
  have hspreads : Spreads config theme ((system config).run {} past) cycle := by
    refine ⟨cohort, hcohort, ?_⟩
    rw [hprevious]
    exact hraw
  refine ⟨?_, ?_, ?_⟩
  · unfold timing at hcycles
    dsimp only at hcycles
    cases previous with
    | none => exact ⟨cycle.now, begins hspreads hcycles⟩
    | some before =>
      dsimp only at hcycles
      split at hcycles
      · next hgoesOn =>
          obtain ⟨last, -, htracked⟩ := hbefore before rfl
          obtain ⟨start, hstreak⟩ := htracked.spread hgoesOn.2
          rw [htracked.counted] at hcycles
          exact ⟨start, (hstreak.goesOn hspreads).shorten hcycles⟩
      · exact ⟨cycle.now, begins hspreads hcycles⟩
  · have hmeasured : (timing previous cohort (gracedState config previous cohort cycle.now).1
        cycle.now).spreadingSince = some ((previous.bind (·.spreadingSince)).getD cycle.now) := by
      show since _ _ _ = _
      unfold since
      rw [if_pos (by simpa using hraw)]
    have hstart := since_next hcohort hprevious htime hbefore
      ((previous.bind (·.spreadingSince)).getD cycle.now) (hsince.trans hmeasured)
    have hage : config.minLeadingPersistenceSec ≤
        elapsedSec (some ((previous.bind (·.spreadingSince)).getD cycle.now)) cycle.now := by
      have hage := hseconds
      unfold timing at hage hmeasured
      dsimp only at hage hmeasured
      rw [hmeasured] at hage
      exact hage
    unfold elapsedSec at hage
    dsimp only at hage
    exact ⟨_, hstart.1, by omega⟩
  · by_cases hnamed : (applyOne config previous cohort cycle.now).leaderSymbol = ""
    · -- no leader was ever asked for
      have hblank : cohort.leaderSymbol = "" := by
        by_contra hblank
        rw [applyOne_leaderSymbol, if_neg hblank] at hnamed
        exact hblank hnamed
      have hother : sameLeader previous cohort
          (gracedState config previous cohort cycle.now).1 = false := by
        cases previous with
        | none => rfl
        | some before =>
          by_contra hsame
          simp only [sameLeader, Bool.not_eq_false, decide_eq_true_eq, hblank] at hsame
          rcases hsame.2 with hbefore | ⟨-, hstale, -⟩
          · exact hsame.1 hbefore
          · rcases hfresh with hfresh | hgrace
            · rw [hfresh] at hstale
              cases hstale
            · rw [applyOne_leaderSymbol, if_pos hblank, if_pos hgrace] at hnamed
              exact hsame.1 hnamed
      obtain ⟨hcounted, hcountedSec⟩ := timing_of_other cycle.now hother
      rw [hcounted, if_pos hblank] at hstable
      rw [hcountedSec] at hstableSec
      rw [hnamed]
      exact ⟨cycle.now, begins ⟨cohort, hcohort, .inl hblank⟩ (by omega), by omega⟩
    · obtain ⟨start, hstreak, hstart⟩ := leader_next hcohort hprevious htime hright hbefore hnamed
      rw [hcount] at hstreak
      rw [hsec] at hstart
      exact ⟨start, hstreak.shorten hstable, by omega⟩

end

end Step

/-! ## Runs -/

theorem tracked_of_guarded {cycles : List ThemeCycle}
    (h : (system config).Guarded (fun run cycle => OnTime run cycle ∧ CountsRight config run cycle)
      {} cycles) :
    ∀ past, past <+: cycles → ∀ theme before,
      ((system config).run {} past).snapshotOf theme = some before →
        ∃ last ∈ ((system config).run {} past).lastCycleAt,
          Tracked config theme past last before := by
  refine prefix_induction ?_ ?_
  · intro theme before hsome
    simp [snapshotOf] at hsome
  · intro past cycle hpre ih theme before hsome
    obtain ⟨htime, hright⟩ := h.of_prefix hpre
    rw [run_concat] at hsome ⊢
    obtain ⟨cohort, hcohort, rfl⟩ := snapshotOf_next config _ cycle hsome
    exact ⟨cycle.now, rfl, tracked_next hcohort rfl htime hright (ih theme)⟩

/-- In every run of cycles in time order in which the dwell time holds no theme that does not
spread, and no leader goes on from a signal before the last cycle, every theme that enters
`LEADING_THEME` has spread for the cycles and the seconds of the configuration, and had its leader
for those of the stability. -/
theorem leading_is_earned (config : ThemeStateConfig) {cycles : List ThemeCycle}
    (h : (system config).Guarded (fun run cycle => OnTime run cycle ∧ CountsRight config run cycle)
      {} cycles) :
    LeadingEarned config cycles := by
  intro past cycle hpre theme item hsome hleading hnew
  obtain ⟨htime, hright⟩ := h.of_prefix hpre
  rw [run_concat] at hsome
  obtain ⟨cohort, hcohort, rfl⟩ := snapshotOf_next config _ cycle hsome
  have hbefore := tracked_of_guarded h past ((prefix_append past [cycle]).trans hpre) theme
  exact earned_of_enters hcohort rfl htime hright hbefore hleading hnew

/-! ## Fixed runs -/

def strongCohort (leader : String) (stale : Bool) : ThemeCohortSnapshot where
  themeId := "ai"
  memberCount := 5
  seedMemberCount := 5
  realtimeValidCount := 5
  strongCount := 3
  leaderCount := 2
  strongRatio := 3 / 5
  themeTurnoverKrw := 30000000000
  weightedReturnPct := 11 / 2
  leaderSymbol := leader
  coverageRatio := 1
  cohesionPassed := true
  reasonCodes := if stale then ["SIGNAL_STALE"] else []

def threeCycles : List ThemeCycle :=
  [⟨[strongCohort "000001" false], 0⟩, ⟨[strongCohort "000001" false], 15⟩,
   ⟨[strongCohort "000001" false], 31⟩]

/-- After three strong cycles in half a minute the theme leads, and has earned it. -/
theorem leading_is_earned_threeCycles :
    ∃ item, ((system {}).run {} threeCycles).snapshotOf "ai" = some item ∧
      item.themeState = .leadingTheme ∧ Earned {} "ai" threeCycles 31 item := by
  have hleading : (((system {}).run {} threeCycles).snapshotOf "ai").map (·.themeState) =
      some .leadingTheme := by decide +kernel
  obtain ⟨item, hsome, hstate⟩ := map_eq_some_iff.mp hleading
  refine ⟨item, hsome, hstate, ?_⟩
  exact leading_is_earned {} (by decide +kernel) (threeCycles.take 2)
    ⟨[strongCohort "000001" false], 31⟩ (prefix_refl _) "ai" item hsome hstate
    (by decide +kernel)

def staleCycles : List ThemeCycle :=
  [⟨[strongCohort "000001" false], 0⟩, ⟨[strongCohort "000001" false], 15⟩,
   ⟨[strongCohort "000002" false], 20⟩, ⟨[strongCohort "000002" true], 25⟩,
   ⟨[strongCohort "000002" true], 30⟩, ⟨[strongCohort "000002" false], 33⟩]

/-- The stale cycles add the time since the last signal again and again: the theme leads thirteen
seconds after its leader has changed, where twenty are asked for. -/
theorem stale_cycles_count_again : ¬ LeadingEarned {} staleCycles := by
  intro h
  have hleading : (((system {}).run {} staleCycles).snapshotOf "ai").map
      (fun item => (item.themeState, item.leaderSymbol)) = some (.leadingTheme, "000002") := by
    decide +kernel
  obtain ⟨item, hsome, hstate⟩ := map_eq_some_iff.mp hleading
  obtain ⟨hstate, hleader⟩ := Prod.mk.inj hstate
  have hearned := h (staleCycles.take 5) ⟨[strongCohort "000002" false], 33⟩
    (prefix_refl _) "ai" item hsome hstate (by decide +kernel)
  obtain ⟨start, ⟨first, rest, ⟨before, hpast, hled⟩, hfirst, -⟩, hlong⟩ := hearned.leader
  rw [hleader] at hled
  have hstart : first.now + 20 ≤ 33 := hfirst ▸ hlong
  cases before with
  | nil =>
    -- the streak would begin under the first leader
    rw [nil_append] at hpast
    rw [← hpast] at hled
    revert hled
    decide +kernel
  | cons cycle before =>
    have hmem : first ∈ staleCycles.tail := by
      have htail := (cons.inj hpast).2
      show first ∈ staleCycles.tail
      rw [show staleCycles.tail = before ++ first :: rest from htail]
      exact mem_append_right _ mem_cons_self
    have hlate : ∀ late ∈ staleCycles.tail, 15 ≤ late.now := by decide
    have := hlate first hmem
    omega

end ThemeRun

end TradingCore.Themes
