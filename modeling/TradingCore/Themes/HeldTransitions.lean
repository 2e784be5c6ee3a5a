import TradingCore.Themes.EarnedLeading

/-!
# Transitions wait for their time

A theme stays fading for its hold time, and does not recover before it has looked recovered for
the cycles and the seconds of the configuration; an active theme stays in its state for the dwell
time unless it fades. The times that a snapshot carries are the times of the cycles in which the
theme entered its state, and in which it began to look recovered.
-/

namespace TradingCore.Themes

open Base Machine

/-! ## What the snapshots stand for -/

/-- The state that a cycle would move a theme to, if it were not held. -/
def candidateOf (config : ThemeStateConfig) (previous : Option ThemeStateSnapshot)
    (cohort : ThemeCohortSnapshot) (now : Int) : ThemeCoreState :=
  let graced := gracedState config previous cohort now
  (candidateState config previous cohort graced.1 graced.2.1
    (timing previous cohort graced.1 now) now).1

namespace ThemeRun

/-- The last snapshot of the theme is in the state. -/
def InState (state : ThemeCoreState) (theme : String) (run : ThemeRun) : Prop :=
  ∃ item ∈ run.snapshotOf theme, item.themeState = state

/-- The theme is fading, and would move to a state of recovery in the cycle. -/
def Recovers (config : ThemeStateConfig) (theme : String) (run : ThemeRun) (cycle : ThemeCycle) :
    Prop :=
  InState .fadingTheme theme run ∧ ∃ cohort ∈ cycle.cohortOf theme,
    (candidateOf config (run.snapshotOf theme) cohort cycle.now).recovery = true

/-- A cycle that takes a theme from one snapshot to the next lets it leave its state in time: out
of fading after the hold time, into recovery when it is confirmed, and out of an active state,
unless it fades, after the dwell time. -/
structure InTime (config : ThemeStateConfig) (theme : String) (past : List ThemeCycle)
    (cycle : ThemeCycle) (before after : ThemeStateSnapshot) : Prop where
  held : before.themeState = .fadingTheme → after.themeState ≠ .fadingTheme →
    ∃ entered, (system config).Since ThemeCycle.now (InState .fadingTheme theme) {} past entered ∧
      entered + config.fadingMinHoldSec ≤ cycle.now
  confirmed : before.themeState = .fadingTheme → after.themeState.recovery = true →
    ∃ start, (system config).Streak ThemeCycle.now (Recovers config theme) {} (past ++ [cycle])
        config.recoveryConfirmCycles start ∧
      start + config.recoveryConfirmSec ≤ cycle.now
  dwelt : before.themeState.active = true → after.themeState ≠ before.themeState →
    after.themeState ≠ .fadingTheme →
    ∃ entered, (system config).Since ThemeCycle.now (InState before.themeState theme) {} past
        entered ∧ entered + config.stateMinDwellSec ≤ cycle.now

/-! ## What holds a theme -/

section Dwell

variable {config : ThemeStateConfig} {previous : ThemeStateSnapshot} {candidate : ThemeCoreState}
  {timing : Timing} {now : Int}

theorem applyDwell_recovery :
    (applyDwell config previous candidate timing now).2.1.recoveryPendingSince =
        timing.recoveryPendingSince ∧
      (applyDwell config previous candidate timing now).2.1.recoveryCycleCount =
        timing.recoveryCycleCount := by
  unfold applyDwell
  split
  · exact ⟨rfl, rfl⟩
  · split
    · exact ⟨rfl, rfl⟩
    · split
      · split <;> exact ⟨rfl, rfl⟩
      · exact ⟨rfl, rfl⟩

/-- A theme leaves its state, other than into fading, for the candidate state, and only when the
hold time and the dwell time are over. -/
theorem applyDwell_leaves
    (hleaves : (applyDwell config previous candidate timing now).1 ≠ previous.themeState)
    (hfading : (applyDwell config previous candidate timing now).1 ≠ .fadingTheme) :
    (applyDwell config previous candidate timing now).1 = candidate ∧
      (previous.themeState = .fadingTheme → config.fadingMinHoldSec ≤
        elapsedSec (previous.fadingSince <|> previous.stateEnteredAt) now) ∧
      (previous.themeState.dwellProtected = true →
        config.stateMinDwellSec ≤ elapsedSec previous.stateEnteredAt now) := by
  unfold applyDwell at hleaves hfading ⊢
  split at hfading
  · next hcandidate => exact absurd hcandidate hfading
  · next hcandidate =>
      rw [if_neg hcandidate] at hleaves ⊢
      split at hfading
      · exact absurd rfl hfading
      · next hhold =>
          rw [if_neg hhold] at hleaves ⊢
          split at hfading
          · next hdwell =>
              rw [if_pos hdwell] at hleaves
              exact absurd rfl hleaves
          · next hdwell =>
              rw [if_neg hdwell] at hleaves ⊢
              refine ⟨rfl, ?_, ?_⟩
              · intro hbefore
                by_contra hshort
                exact hhold ⟨hbefore, by omega⟩
              · intro hprotected
                by_contra hshort
                exact hdwell ⟨Ne.symm hleaves, hprotected, by omega⟩

theorem applyDwell_fadingSince_keeps {start : Int} (hbefore : previous.themeState = .fadingTheme)
    (hstart : previous.fadingSince = some start)
    (h : (applyDwell config previous candidate timing now).1 = .fadingTheme) :
    (applyDwell config previous candidate timing now).2.1.fadingSince = some start := by
  unfold applyDwell at h ⊢
  split
  · simp [hstart]
  · next hcandidate =>
      split
      · simp [hstart]
      · next hhold =>
          rw [if_neg hcandidate, if_neg hhold] at h
          split
          · simp [hstart]
          · next hdwell =>
              rw [if_neg hdwell] at h
              exact absurd h hcandidate

theorem applyDwell_fadingSince_begins (hbefore : previous.themeState ≠ .fadingTheme)
    (hnone : previous.fadingSince = none)
    (h : (applyDwell config previous candidate timing now).1 = .fadingTheme) :
    (applyDwell config previous candidate timing now).2.1.fadingSince = some now := by
  unfold applyDwell at h ⊢
  split
  · simp [hnone]
  · next hcandidate =>
      rw [if_neg hcandidate, if_neg fun hboth => hbefore hboth.1] at h
      split at h
      · exact absurd h hbefore
      · exact absurd h hcandidate

/-- The cycles in which a theme looked recovered, the present one included. -/
def recoveryCycles (previous : ThemeStateSnapshot) : Int :=
  if previous.recoveryPendingSince = none then 1 else previous.recoveryCycleCount + 1

theorem applyDwellAndRecovery_cases (config : ThemeStateConfig) (previous : ThemeStateSnapshot)
    (candidate : ThemeCoreState) (timing : Timing) (now : Int) :
    let moved := applyDwellAndRecovery config (some previous) candidate timing now
    let since := previous.recoveryPendingSince.getD now
    let confirmed :=
      { timing with recoveryPendingSince := none, recoveryCycleCount := 0 }
    (previous.themeState = .fadingTheme ∧ candidate.recovery = true) ∧
        moved.1 = .fadingTheme ∧ moved.2.1 = { timing with
          recoveryPendingSince := some since
          recoveryCycleCount := recoveryCycles previous } ∨
      (previous.themeState = .fadingTheme ∧ candidate.recovery = true) ∧
        config.recoveryConfirmSec ≤ elapsedSec (some since) now ∧
        config.recoveryConfirmCycles ≤ recoveryCycles previous ∧
        moved.1 = (applyDwell config previous candidate confirmed now).1 ∧
        moved.2.1 = (applyDwell config previous candidate confirmed now).2.1 ∨
      ¬ (previous.themeState = .fadingTheme ∧ candidate.recovery = true) ∧
        moved = applyDwell config previous candidate timing now := by
  unfold applyDwellAndRecovery recoveryCycles
  dsimp only
  generalize (if previous.recoveryPendingSince = none then (1 : Int)
    else previous.recoveryCycleCount + 1) = cycles
  split
  · next hrecovers =>
      split
      · exact .inl ⟨hrecovers, rfl, rfl⟩
      · next hconfirmed => exact .inr (.inl ⟨hrecovers, by omega, by omega, rfl, rfl⟩)
  · next hother => exact .inr (.inr ⟨hother, rfl⟩)

end Dwell

/-! ## The invariant -/

/-- What the times of a snapshot stand for, after a run whose last cycle was at `last`. -/
structure Timed (config : ThemeStateConfig) (theme : String) (past : List ThemeCycle)
    (last : Int) (item : ThemeStateSnapshot) : Prop where
  entered : ∃ start, item.stateEnteredAt = some start ∧ start ≤ last ∧
    (system config).Since ThemeCycle.now (InState item.themeState theme) {} past start
  fading : item.themeState = .fadingTheme → item.fadingSince = item.stateEnteredAt
  other : item.themeState ≠ .fadingTheme → item.fadingSince = none
  recovering : ∀ start ∈ item.recoveryPendingSince, start ≤ last ∧
    (system config).Streak ThemeCycle.now (Recovers config theme) {} past item.recoveryCycleCount start

section Step

variable {config : ThemeStateConfig} {theme : String} {past : List ThemeCycle}
  {cycle : ThemeCycle} {cohort : ThemeCohortSnapshot} {before : ThemeStateSnapshot} {last : Int}

def movedOf (config : ThemeStateConfig) (previous : Option ThemeStateSnapshot)
    (cohort : ThemeCohortSnapshot) (now : Int) : ThemeCoreState × Timing × List String :=
  applyDwellAndRecovery config previous (candidateOf config previous cohort now)
    (timing previous cohort (gracedState config previous cohort now).1 now) now

theorem applyOne_moved (config : ThemeStateConfig) (previous : Option ThemeStateSnapshot)
    (cohort : ThemeCohortSnapshot) (now : Int) :
    (applyOne config previous cohort now).themeState = (movedOf config previous cohort now).1 ∧
      (applyOne config previous cohort now).recoveryPendingSince =
        (movedOf config previous cohort now).2.1.recoveryPendingSince ∧
      (applyOne config previous cohort now).recoveryCycleCount =
        (movedOf config previous cohort now).2.1.recoveryCycleCount ∧
      (applyOne config previous cohort now).fadingSince =
        if (movedOf config previous cohort now).1 = .fadingTheme then
          (movedOf config previous cohort now).2.1.fadingSince
        else none := ⟨rfl, rfl, rfl, rfl⟩

theorem applyOne_stateEnteredAt (config : ThemeStateConfig) (before : ThemeStateSnapshot)
    (cohort : ThemeCohortSnapshot) (now : Int) :
    (applyOne config (some before) cohort now).stateEnteredAt =
      if before.themeState = (applyOne config (some before) cohort now).themeState then
        some (before.stateEnteredAt.getD now)
      else some now := by
  unfold applyOne
  dsimp only
  split
  · next hstays =>
      rw [if_pos (by simpa using hstays)]
      rfl
  · next hleaves => rw [if_neg (by simpa using hleaves)]

section

variable (hcohort : cycle.cohortOf theme = some cohort)
include hcohort

theorem recovering_next (hprevious : ((system config).run {} past).snapshotOf theme = some before)
    (htimed : Timed config theme past last before) (hlast : last ≤ cycle.now)
    (hfading : before.themeState = .fadingTheme)
    (hrecovery : (candidateOf config (some before) cohort cycle.now).recovery = true) :
    before.recoveryPendingSince.getD cycle.now ≤ cycle.now ∧
      (system config).Streak ThemeCycle.now (Recovers config theme) {} (past ++ [cycle])
        (recoveryCycles before) (before.recoveryPendingSince.getD cycle.now) := by
  have hrecovers : Recovers config theme ((system config).run {} past) cycle := by
    refine ⟨⟨before, hprevious, hfading⟩, cohort, hcohort, ?_⟩
    rw [hprevious]
    exact hrecovery
  unfold recoveryCycles
  cases hpending : before.recoveryPendingSince with
  | none => exact ⟨Int.le_refl _, Streak.begins hrecovers (Int.le_refl 1)⟩
  | some start =>
    obtain ⟨hle, hstreak⟩ := htimed.recovering start hpending
    rw [if_neg (Option.some_ne_none start)]
    exact ⟨hle.trans hlast, hstreak.goesOn hrecovers⟩

theorem timed_next {previous : Option ThemeStateSnapshot}
    (hprevious : ((system config).run {} past).snapshotOf theme = previous)
    (hnext : ((system config).run {} (past ++ [cycle])).snapshotOf theme =
      some (applyOne config previous cohort cycle.now))
    (hbefore : ∀ before ∈ previous, ∃ last ≤ cycle.now, Timed config theme past last before) :
    Timed config theme (past ++ [cycle]) cycle.now (applyOne config previous cohort cycle.now) := by
  obtain ⟨hstate, hpending, hcount, hsince⟩ := applyOne_moved config previous cohort cycle.now
  have hnow : InState (applyOne config previous cohort cycle.now).themeState theme
      ((system config).run {} (past ++ [cycle])) := ⟨_, hnext, rfl⟩
  cases previous with
  | none =>
    have hnew : ¬ InState (applyOne config none cohort cycle.now).themeState theme
        ((system config).run {} past) := by
      rintro ⟨item, hitem, -⟩
      rw [hprevious] at hitem
      cases hitem
    refine ⟨⟨cycle.now, rfl, Int.le_refl _, Since.begins hnew hnow⟩, ?_, ?_, ?_⟩
    · intro hfading
      rw [hsince, if_pos (hstate.symm.trans hfading)]
      have hcandidate : candidateOf config none cohort cycle.now = .fadingTheme :=
        hstate.symm.trans hfading
      unfold movedOf applyDwellAndRecovery
      dsimp only
      rw [if_pos hcandidate]
      rfl
    · intro hother
      rw [hsince, if_neg fun hfading => hother (hstate.trans hfading)]
    · intro start hstart
      rw [hpending] at hstart
      unfold movedOf applyDwellAndRecovery at hstart
      dsimp only at hstart
      split at hstart <;> cases hstart
  | some before =>
    obtain ⟨last, hle, htimed⟩ := hbefore before rfl
    obtain ⟨start, hentered, hstart, hlasts⟩ := htimed.entered
    have hcases := applyDwellAndRecovery_cases config before
      (candidateOf config (some before) cohort cycle.now)
      (timing (some before) cohort (gracedState config (some before) cohort cycle.now).1
        cycle.now) cycle.now
    dsimp only at hcases
    change _ ∧ (movedOf config (some before) cohort cycle.now).1 = _ ∧
        (movedOf config (some before) cohort cycle.now).2.1 = _ ∨
      _ ∧ _ ∧ _ ∧ (movedOf config (some before) cohort cycle.now).1 = _ ∧
        (movedOf config (some before) cohort cycle.now).2.1 = _ ∨
      _ ∧ movedOf config (some before) cohort cycle.now = _ at hcases
    refine ⟨?_, ?_, ?_, ?_⟩
    · rw [applyOne_stateEnteredAt]
      by_cases hstays : before.themeState =
          (applyOne config (some before) cohort cycle.now).themeState
      · rw [if_pos hstays, hentered]
        rw [hstays] at hlasts
        exact ⟨start, rfl, hstart.trans hle, hlasts.goesOn hnow⟩
      · rw [if_neg hstays]
        refine ⟨cycle.now, rfl, Int.le_refl _, Since.begins ?_ hnow⟩
        rintro ⟨item, hitem, hsame⟩
        rw [hprevious] at hitem
        injection hitem with hitem
        exact hstays (hitem ▸ hsame)
    · intro hfading
      rw [applyOne_stateEnteredAt, hsince, if_pos (hstate.symm.trans hfading)]
      have hmoved := hstate.symm.trans hfading
      by_cases hwas : before.themeState = .fadingTheme
      · have hsame : before.fadingSince = some start := (htimed.fading hwas).trans hentered
        rw [if_pos (hwas.trans hfading.symm), hentered, Option.getD_some]
        rcases hcases with ⟨-, -, htiming⟩ | ⟨-, -, -, hdwell, htiming⟩ | ⟨-, hdwell⟩
        · -- waiting for the confirmation, the theme keeps the time of its last snapshot
          rw [htiming]
          exact hsame
        · rw [htiming]
          exact applyDwell_fadingSince_keeps hwas hsame (hdwell ▸ hmoved)
        · rw [hdwell] at hmoved ⊢
          exact applyDwell_fadingSince_keeps hwas hsame hmoved
      · rw [if_neg fun hstays => hwas (hstays.trans hfading)]
        rcases hcases with ⟨⟨hfalse, -⟩, -⟩ | ⟨⟨hfalse, -⟩, -⟩ | ⟨-, hdwell⟩
        · exact absurd hfalse hwas
        · exact absurd hfalse hwas
        · rw [hdwell] at hmoved ⊢
          exact applyDwell_fadingSince_begins hwas (htimed.other hwas) hmoved
    · intro hother
      rw [hsince, if_neg fun hfading => hother (hstate.trans hfading)]
    · intro since hmem
      rw [hpending] at hmem
      rw [hcount]
      rcases hcases with ⟨⟨hwas, hrecovery⟩, -, htiming⟩ | ⟨-, -, -, -, htiming⟩ | ⟨-, hdwell⟩
      · rw [htiming] at hmem ⊢
        injection hmem with hmem
        subst hmem
        exact recovering_next hcohort hprevious htimed hle hwas hrecovery
      · rw [htiming, applyDwell_recovery.1] at hmem
        cases hmem
      · rw [hdwell, applyDwell_recovery.1] at hmem
        cases hmem

theorem inTime_next (hprevious : ((system config).run {} past).snapshotOf theme = some before)
    (htimed : Timed config theme past last before) (hlast : last ≤ cycle.now) :
    InTime config theme past cycle before (applyOne config (some before) cohort cycle.now) := by
  obtain ⟨hstate, -⟩ := applyOne_moved config (some before) cohort cycle.now
  obtain ⟨entered, hentered, hle, hlasts⟩ := htimed.entered
  have hage : elapsedSec before.stateEnteredAt cycle.now = cycle.now - entered := by
    rw [hentered]
    unfold elapsedSec
    dsimp only
    omega
  have hcases := applyDwellAndRecovery_cases config before
    (candidateOf config (some before) cohort cycle.now)
    (timing (some before) cohort (gracedState config (some before) cohort cycle.now).1
      cycle.now) cycle.now
  dsimp only at hcases
  change _ ∧ (movedOf config (some before) cohort cycle.now).1 = _ ∧ _ ∨
    _ ∧ _ ∧ _ ∧ (movedOf config (some before) cohort cycle.now).1 = _ ∧ _ ∨
    _ ∧ movedOf config (some before) cohort cycle.now = _ at hcases
  rw [← hstate] at hcases
  -- whatever leaves its state, other than into fading, went through the dwell time
  have hleaves : (applyOne config (some before) cohort cycle.now).themeState ≠
        before.themeState →
      (applyOne config (some before) cohort cycle.now).themeState ≠ .fadingTheme →
      (applyOne config (some before) cohort cycle.now).themeState =
          candidateOf config (some before) cohort cycle.now ∧
        (before.themeState = .fadingTheme → config.fadingMinHoldSec ≤
          elapsedSec (before.fadingSince <|> before.stateEnteredAt) cycle.now) ∧
        (before.themeState.dwellProtected = true →
          config.stateMinDwellSec ≤ elapsedSec before.stateEnteredAt cycle.now) := by
    intro hnot hfading
    rcases hcases with ⟨-, hwaits, -⟩ | ⟨-, -, -, hdwell, -⟩ | ⟨-, hdwell⟩
    · exact absurd hwaits hfading
    · rw [hdwell] at hnot hfading ⊢
      exact applyDwell_leaves hnot hfading
    · have hmoved := hstate.trans (congrArg Prod.fst hdwell)
      rw [hmoved] at hnot hfading ⊢
      exact applyDwell_leaves hnot hfading
  refine ⟨?_, ?_, ?_⟩
  · intro hwas hfading
    obtain ⟨-, hhold, -⟩ := hleaves (fun hsame => hfading (hsame.trans hwas)) hfading
    have hheld := hhold hwas
    have hsame : (before.fadingSince <|> before.stateEnteredAt) = before.stateEnteredAt := by
      rw [htimed.fading hwas, hentered]
      rfl
    rw [hsame, hage] at hheld
    exact ⟨entered, hwas ▸ hlasts, by omega⟩
  · intro hwas hrecovery
    have hfading : (applyOne config (some before) cohort cycle.now).themeState ≠ .fadingTheme := by
      intro hfading
      rw [hfading] at hrecovery
      simp [ThemeCoreState.recovery] at hrecovery
    obtain ⟨hcandidate, -⟩ := hleaves (fun hsame => hfading (hsame.trans hwas)) hfading
    rw [hcandidate] at hrecovery
    obtain ⟨hstart, hstreak⟩ :=
      recovering_next hcohort hprevious htimed hlast hwas hrecovery
    rcases hcases with ⟨-, hwaits, -⟩ | ⟨-, hseconds, hcycles, -⟩ | ⟨hother, -⟩
    · exact absurd hwaits hfading
    · refine ⟨_, hstreak.shorten hcycles, ?_⟩
      unfold elapsedSec at hseconds
      dsimp only at hseconds
      omega
    · exact absurd ⟨hwas, hrecovery⟩ hother
  · intro hactive hnot hfading
    obtain ⟨-, -, hdwell⟩ := hleaves hnot hfading
    have hprotected : before.themeState.dwellProtected = true := by
      simp only [ThemeCoreState.active, ThemeCoreState.dwellProtected, decide_eq_true_eq,
        List.mem_cons, List.not_mem_nil, or_false] at hactive ⊢
      tauto
    have hlong := hdwell hprotected
    rw [hage] at hlong
    exact ⟨entered, hlasts, by omega⟩

end

end Step

/-! ## Runs -/

theorem timed_of_guarded {config : ThemeStateConfig} {cycles : List ThemeCycle}
    (h : (system config).Guarded OnTime {} cycles) :
    ∀ past, past <+: cycles → ∀ theme before,
      ((system config).run {} past).snapshotOf theme = some before →
        ∃ last ∈ ((system config).run {} past).lastCycleAt, Timed config theme past last before := by
  refine prefix_induction ?_ ?_
  · intro theme before hsome
    simp [snapshotOf] at hsome
  · intro past cycle hpre ih theme before hsome
    have htime := h.of_prefix hpre
    have hnext := hsome
    rw [run_concat] at hsome
    obtain ⟨cohort, hcohort, rfl⟩ := snapshotOf_next config _ cycle hsome
    refine ⟨cycle.now, by rw [run_concat]; rfl, timed_next hcohort rfl hnext ?_⟩
    intro before hbefore
    obtain ⟨last, hlast, htimed⟩ := ih theme before hbefore
    exact ⟨last, htime last hlast, htimed⟩

/-- In every run of cycles in time order, every theme that is present in two consecutive cycles
leaves fading only after its hold time and, for a state of recovery, only when it has looked
recovered for the cycles and the seconds of the configuration, and leaves an active state for
another that is not fading only after the dwell time. -/
theorem transitions_inTime (config : ThemeStateConfig) {cycles : List ThemeCycle}
    (h : (system config).Guarded OnTime {} cycles) :
    ∀ past cycle, past ++ [cycle] <+: cycles → ∀ theme before after,
      ((system config).run {} past).snapshotOf theme = some before →
      ((system config).run {} (past ++ [cycle])).snapshotOf theme = some after →
      InTime config theme past cycle before after := by
  intro past cycle hpre theme before after hbefore hafter
  obtain ⟨last, hlast, htimed⟩ :=
    timed_of_guarded h past ((List.prefix_append past [cycle]).trans hpre) theme before hbefore
  rw [run_concat] at hafter
  obtain ⟨cohort, hcohort, rfl⟩ := snapshotOf_next config _ cycle hafter
  rw [hbefore]
  exact inTime_next hcohort hbefore htimed (h.of_prefix hpre last hlast)

/-! ## Fixed runs -/

def weakCohort : ThemeCohortSnapshot :=
  { strongCohort "000001" false with weightedReturnPct := -1 }

def fadingCycles : List ThemeCycle :=
  [⟨[strongCohort "000001" false], 0⟩, ⟨[weakCohort], 10⟩, ⟨[strongCohort "000001" false], 20⟩,
   ⟨[strongCohort "000001" false], 35⟩, ⟨[strongCohort "000001" false], 50⟩]

/-- The theme spreads again in the third such cycle, thirty seconds after the first and forty
after it began to fade. -/
theorem transitions_inTime_recovered :
    ∃ before after,
      ((system {}).run {} (fadingCycles.take 4)).snapshotOf "ai" = some before ∧
      ((system {}).run {} fadingCycles).snapshotOf "ai" = some after ∧
      before.themeState = .fadingTheme ∧ after.themeState = .spreadingTheme ∧
      InTime {} "ai" (fadingCycles.take 4) ⟨[strongCohort "000001" false], 50⟩ before after := by
  have hfading : (((system {}).run {} (fadingCycles.take 4)).snapshotOf "ai").map
      (·.themeState) = some .fadingTheme := by decide +kernel
  have hspreading : (((system {}).run {} fadingCycles).snapshotOf "ai").map (·.themeState) =
      some .spreadingTheme := by decide +kernel
  obtain ⟨before, hbefore, hstate⟩ := Option.map_eq_some_iff.mp hfading
  obtain ⟨after, hafter, hstate'⟩ := Option.map_eq_some_iff.mp hspreading
  refine ⟨before, after, hbefore, hafter, hstate, hstate', ?_⟩
  exact transitions_inTime {} (by decide +kernel) (fadingCycles.take 4)
    ⟨[strongCohort "000001" false], 50⟩ (List.prefix_refl _) "ai" before after hbefore hafter

end ThemeRun

end TradingCore.Themes
