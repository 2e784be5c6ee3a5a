import TradingCore.Base.Dict
import TradingCore.Base.Machine
import Mathlib.Data.Rat.Floor

/-!
# The theme state machine

`ThemeStateMachine` of `trading/theme_engine/state_machine.py`: once a cycle, every theme's cohort
is classified, and what was seen of the theme before, kept in its last snapshot, decides whether
the theme moves to that state. The state after the substitution of a stale cohort within its grace
is called raw here too: `_candidate_state` and `_timing` see no other.

Times are whole seconds, and the blank text of a time is `none`. Ratios, turnovers and scores are
exact numbers.
-/

namespace TradingCore.Themes

open Base

/-! ## States -/

inductive ThemeCoreState
  | universeEmpty
  | seedWait
  | dataWait
  | watchTheme
  | emergingTheme
  | leaderOnlyTheme
  | spreadingTheme
  | leadingTheme
  | fadingTheme
  | weakTheme
deriving DecidableEq

namespace ThemeCoreState

def value : ThemeCoreState → String
  | universeEmpty => "UNIVERSE_EMPTY"
  | seedWait => "SEED_WAIT"
  | dataWait => "DATA_WAIT"
  | watchTheme => "WATCH_THEME"
  | emergingTheme => "EMERGING_THEME"
  | leaderOnlyTheme => "LEADER_ONLY_THEME"
  | spreadingTheme => "SPREADING_THEME"
  | leadingTheme => "LEADING_THEME"
  | fadingTheme => "FADING_THEME"
  | weakTheme => "WEAK_THEME"

/-- `_ACTIVE_STATES`. -/
def active (state : ThemeCoreState) : Bool :=
  state ∈ [leadingTheme, spreadingTheme, leaderOnlyTheme]

/-- `_RECOVERY_STATES`. -/
def recovery (state : ThemeCoreState) : Bool :=
  state ∈ [leadingTheme, spreadingTheme, leaderOnlyTheme, emergingTheme]

/-- `_DWELL_PROTECTED_STATES`. -/
def dwellProtected (state : ThemeCoreState) : Bool :=
  state ∈ [leadingTheme, spreadingTheme, leaderOnlyTheme, fadingTheme]

def spreads (state : ThemeCoreState) : Bool := state ∈ [spreadingTheme, leadingTheme]

end ThemeCoreState

structure ThemeStateConfig where
  minLeadingPersistenceCycles : Int := 3
  minLeadingPersistenceSec : Int := 30
  minLeaderStabilityCycles : Int := 2
  minLeaderStabilitySec : Int := 20
  stateMinDwellSec : Int := 15
  fadingMinHoldSec : Int := 30
  recoveryConfirmCycles : Int := 3
  recoveryConfirmSec : Int := 30
  signalStaleGraceSec : Int := 20
  leadingScoreThreshold : Rat := 70
  spreadingScoreThreshold : Rat := 50
  emergingScoreThreshold : Rat := 35
  fadingScoreDelta : Rat := -15

/-- `ThemeCohortSnapshot`, with what the state machine reads of it. -/
structure ThemeCohortSnapshot where
  themeId : String
  memberCount : Int := 0
  seedMemberCount : Int := 0
  realtimeValidCount : Int := 0
  strongCount : Int := 0
  leaderCount : Int := 0
  strongRatio : Rat := 0
  themeTurnoverKrw : Rat := 0
  weightedReturnPct : Rat := 0
  leaderSymbol : String := ""
  coLeaderSymbols : List String := []
  coverageRatio : Rat := 0
  cohesionPassed : Bool := false
  leaderOnlyCandidate : Bool := false
  dataQualityReason : String := ""
  reasonCodes : List String := []

structure ThemeStateSnapshot where
  themeId : String
  themeState : ThemeCoreState := .seedWait
  previousState : Option ThemeCoreState := none
  persistenceCount : Int := 1
  themeScore : Rat := 0
  themeScoreDelta : Rat := 0
  leaderSymbol : String := ""
  previousLeaderSymbol : String := ""
  coLeaderSymbols : List String := []
  leaderChanged : Bool := false
  leaderStabilityCount : Int := 1
  dataQualityReason : String := ""
  reasonCodes : List String := []
  stateEnteredAt : Option Int := none
  stateAgeSec : Int := 0
  stateCycleCount : Int := 1
  strongSince : Option Int := none
  spreadingSince : Option Int := none
  leadingSince : Option Int := none
  fadingSince : Option Int := none
  recoveryPendingSince : Option Int := none
  recoveryCycleCount : Int := 0
  temporalPersistenceSec : Int := 0
  leaderStabilitySec : Int := 0
  lastStrongAt : Option Int := none
  lastFreshSignalAt : Option Int := none

/-! ## What is read off a cohort -/

def elapsedSec (timestamp : Option Int) (now : Int) : Int :=
  match timestamp with
  | none => 0
  | some time => max 0 (now - time)

/-- `round(x, 4)`: to the nearest, and a half to the even. -/
def round4 (x : Rat) : Rat :=
  let scaled := x * 10000
  let below := scaled.floor
  let rest := scaled - below
  let rounded := if rest < 1 / 2 then below
    else if 1 / 2 < rest then below + 1
    else if below % 2 = 0 then below
    else below + 1
  rounded / 10000

def themeScore (cohort : ThemeCohortSnapshot) : Rat :=
  max 0 (min 100
    (25 * min 1 (cohort.themeTurnoverKrw / 20000000000)
      + 25 * min 1 (cohort.strongRatio * 2)
      + 20 * min 1 ((cohort.leaderCount : Rat) / 3)
      + 15 * min 1 (max 0 (cohort.weightedReturnPct + 1) / 8)
      + 15 * min 1 cohort.coverageRatio))

def staleBlocked (cohort : ThemeCohortSnapshot) : Bool :=
  cohort.dataQualityReason ∈ ["TR_BACKFILL_ONLY", "CANDLE_WARMUP"] ∨
    "SIGNAL_STALE" ∈ cohort.reasonCodes

/-- The time of the last fresh signal, or else of the last strong one. -/
def ThemeStateSnapshot.lastSignalAt (previous : ThemeStateSnapshot) : Option Int :=
  previous.lastFreshSignalAt <|> previous.lastStrongAt

def staleGraceActive (previous : Option ThemeStateSnapshot) (cohort : ThemeCohortSnapshot)
    (config : ThemeStateConfig) (now : Int) : Bool :=
  match previous with
  | none => false
  | some previous =>
      previous.themeState.active ∧ staleBlocked cohort ∧ previous.lastSignalAt ≠ none ∧
        elapsedSec previous.lastSignalAt now ≤ config.signalStaleGraceSec

def isFading (previous : ThemeStateSnapshot) (cohort : ThemeCohortSnapshot) (score : Rat)
    (config : ThemeStateConfig) : Bool :=
  let previousLeaders := if previous.leaderSymbol = "" then 0 else 1
  score - previous.themeScore ≤ config.fadingScoreDelta ∨
    cohort.leaderCount < previousLeaders ∨ cohort.weightedReturnPct ≤ 0

def rawState (config : ThemeStateConfig) (cohort : ThemeCohortSnapshot) (score : Rat) :
    ThemeCoreState × List String :=
  if cohort.memberCount ≤ 0 ∧ cohort.themeId = "" then (.universeEmpty, ["UNMAPPED_SEED"])
  else if cohort.memberCount ≤ 0 then (.universeEmpty, ["THEME_MEMBERSHIP_MISSING"])
  else if cohort.seedMemberCount ≤ 0 then (.seedWait, ["SEED_WAIT"])
  else if cohort.dataQualityReason ∈
      ["REALTIME_COVERAGE_LOW", "TR_BACKFILL_ONLY", "CANDLE_WARMUP"] then
    (.dataWait, [cohort.dataQualityReason])
  else if cohort.leaderOnlyCandidate then (.leaderOnlyTheme, ["LEADER_ONLY_COHORT"])
  else if cohort.cohesionPassed ∧ config.leadingScoreThreshold ≤ score then
    (.spreadingTheme, ["LEADING_REQUIRES_PERSISTENCE", "LEADING_REQUIRES_TIME_HYSTERESIS"])
  else if cohort.cohesionPassed ∧ config.spreadingScoreThreshold ≤ score then
    (.spreadingTheme, [])
  else if 0 < cohort.strongCount ∧ config.emergingScoreThreshold ≤ score then
    (.emergingTheme, [])
  else if 0 < cohort.seedMemberCount then (.watchTheme, [])
  else (.weakTheme, [])

/-! ## Timing -/

/-- What `_timing` measures. -/
structure Timing where
  strongSince : Option Int
  spreadingSince : Option Int
  leadingSince : Option Int
  fadingSince : Option Int
  recoveryPendingSince : Option Int := none
  recoveryCycleCount : Int := 0
  temporalPersistenceSec : Int
  temporalPersistenceCycles : Int
  leaderStabilityCount : Int
  leaderStabilitySec : Int
  lastStrongAt : Option Int
  lastFreshSignalAt : Option Int

/-- The leader has not changed: the cohort reports it, or is stale and reports none. -/
def sameLeader (previous : Option ThemeStateSnapshot) (cohort : ThemeCohortSnapshot)
    (rawState : ThemeCoreState) : Bool :=
  match previous with
  | none => false
  | some previous =>
      previous.leaderSymbol ≠ "" ∧ (previous.leaderSymbol = cohort.leaderSymbol ∨
        (rawState = .spreadingTheme ∧ staleBlocked cohort ∧ cohort.leaderSymbol = ""))

def since (active : Bool) (previous : Option Int) (now : Int) : Option Int :=
  if active then some (previous.getD now) else none

def timing (previous : Option ThemeStateSnapshot) (cohort : ThemeCohortSnapshot)
    (rawState : ThemeCoreState) (now : Int) : Timing :=
  let strongActive : Bool :=
    0 < cohort.strongCount ∧ rawState ∉ [.dataWait, .seedWait, .weakTheme]
  let spreadingActive : Bool := rawState = .spreadingTheme
  let same := sameLeader previous cohort rawState
  let elapsedSinceLast := match previous with
    | none => 0
    | some previous => elapsedSec previous.lastSignalAt now
  let strongSince := since strongActive (previous.bind (·.strongSince)) now
  let spreadingSince := since spreadingActive (previous.bind (·.spreadingSince)) now
  let freshSignal : Bool :=
    0 < cohort.realtimeValidCount ∧ rawState ≠ .dataWait ∧ !staleBlocked cohort
  { strongSince
    spreadingSince
    leadingSince := since spreadingActive (previous.bind (·.leadingSince)) now
    fadingSince := previous.bind (·.fadingSince)
    temporalPersistenceSec := elapsedSec (spreadingSince <|> strongSince) now
    temporalPersistenceCycles := match previous with
      | none => 1
      | some previous =>
          if spreadingActive ∧ previous.themeState.spreads then previous.persistenceCount + 1
          else 1
    leaderStabilityCount := match previous with
      | none => if cohort.leaderSymbol = "" then 0 else 1
      | some previous =>
          if same then previous.leaderStabilityCount + 1
          else if cohort.leaderSymbol = "" then 0 else 1
    leaderStabilitySec := match previous with
      | none => 0
      | some previous =>
          if same then previous.leaderStabilitySec + elapsedSinceLast else 0
    lastStrongAt := if strongActive then some now else previous.bind (·.lastStrongAt)
    lastFreshSignalAt := if freshSignal then some now else previous.bind (·.lastFreshSignalAt) }

def leadingConfirmed (timing : Timing) (config : ThemeStateConfig) : Bool :=
  config.minLeadingPersistenceCycles ≤ timing.temporalPersistenceCycles ∧
    config.minLeadingPersistenceSec ≤ timing.temporalPersistenceSec ∧
    config.minLeaderStabilityCycles ≤ timing.leaderStabilityCount ∧
    config.minLeaderStabilitySec ≤ timing.leaderStabilitySec

/-! ## The next state -/

def activeFading (previous : Option ThemeStateSnapshot) (cohort : ThemeCohortSnapshot)
    (score : Rat) (config : ThemeStateConfig) : Bool :=
  match previous with
  | none => false
  | some previous => previous.themeState.active && isFading previous cohort score config

/-- `_candidate_state`, with the reasons that it adds. -/
def candidateState (config : ThemeStateConfig) (previous : Option ThemeStateSnapshot)
    (cohort : ThemeCohortSnapshot) (rawState : ThemeCoreState) (score : Rat) (timing : Timing)
    (now : Int) : ThemeCoreState × List String :=
  let grace := staleGraceActive previous cohort config now
  let fading := activeFading previous cohort score config
  if fading ∧ !grace then
    (.fadingTheme, [(previous.elim "" fun previous => previous.themeState.value) ++ "_TO_FADING"])
  else
    let suppressed := if fading then ["FADING_SUPPRESSED_BY_STALE_GRACE"] else []
    if rawState = .spreadingTheme ∧ config.leadingScoreThreshold ≤ score then
      if leadingConfirmed timing config ∧ (!staleBlocked cohort ∨ grace) then
        (.leadingTheme, suppressed ++ ["LEADING_PERSISTENCE_CONFIRMED"])
      else (.spreadingTheme, suppressed ++ ["LEADING_TIME_HYSTERESIS_WAIT"])
    else (rawState, suppressed)

/-- The part of `_apply_dwell_and_recovery` after a recovery was confirmed or none is due. -/
def applyDwell (config : ThemeStateConfig) (previous : ThemeStateSnapshot)
    (candidate : ThemeCoreState) (timing : Timing) (now : Int) :
    ThemeCoreState × Timing × List String :=
  if candidate = .fadingTheme then
    (candidate, { timing with fadingSince := previous.fadingSince <|> some now }, [])
  else if previous.themeState = .fadingTheme ∧
      elapsedSec (previous.fadingSince <|> previous.stateEnteredAt) now <
        config.fadingMinHoldSec then
    (.fadingTheme,
      { timing with fadingSince := previous.fadingSince <|> previous.stateEnteredAt <|> some now },
      ["FADING_MIN_HOLD_ACTIVE"])
  else if previous.themeState ≠ candidate ∧ previous.themeState.dwellProtected ∧
      elapsedSec previous.stateEnteredAt now < config.stateMinDwellSec then
    (previous.themeState,
      if previous.themeState = .fadingTheme then
        { timing with fadingSince := previous.fadingSince <|> previous.stateEnteredAt }
      else timing,
      ["STATE_MIN_DWELL_ACTIVE"])
  else (candidate, timing, [])

def applyDwellAndRecovery (config : ThemeStateConfig) (previous : Option ThemeStateSnapshot)
    (candidate : ThemeCoreState) (timing : Timing) (now : Int) :
    ThemeCoreState × Timing × List String :=
  match previous with
  | none =>
      (candidate,
        if candidate = .fadingTheme then { timing with fadingSince := some now } else timing, [])
  | some previous =>
      if previous.themeState = .fadingTheme ∧ candidate.recovery then
        let recoverySince := previous.recoveryPendingSince.getD now
        let recoveryCycles :=
          if previous.recoveryPendingSince = none then 1 else previous.recoveryCycleCount + 1
        if elapsedSec (some recoverySince) now < config.recoveryConfirmSec ∨
            recoveryCycles < config.recoveryConfirmCycles then
          (.fadingTheme,
            { timing with
              recoveryPendingSince := some recoverySince
              recoveryCycleCount := recoveryCycles },
            ["FADING_RECOVERY_REQUIRES_CONFIRMATION"])
        else
          let (state, timing, reasons) := applyDwell config previous candidate
            { timing with recoveryPendingSince := none, recoveryCycleCount := 0 } now
          (state, timing, "FADING_RECOVERY_CONFIRMED" :: reasons)
      else applyDwell config previous candidate timing now

/-! ## A cycle -/

/-- The raw state of a cohort and its score, a stale cohort within its grace taken as spreading
still, with the reasons of both. -/
def gracedState (config : ThemeStateConfig) (previous : Option ThemeStateSnapshot)
    (cohort : ThemeCohortSnapshot) (now : Int) : ThemeCoreState × Rat × List String :=
  let score := themeScore cohort
  let (state, reasons) := rawState config cohort score
  if staleGraceActive previous cohort config now then
    let reasons := reasons ++ ["SIGNAL_STALE_GRACE_ACTIVE"]
    match previous with
    | none => (state, score, reasons)
    | some previous =>
        if previous.themeState.spreads then
          (.spreadingTheme, max score previous.themeScore, reasons)
        else (state, score, reasons)
  else (state, score, reasons)

def applyOne (config : ThemeStateConfig) (previous : Option ThemeStateSnapshot)
    (cohort : ThemeCohortSnapshot) (now : Int) : ThemeStateSnapshot :=
  let grace := staleGraceActive previous cohort config now
  let graced := gracedState config previous cohort now
  let measured := timing previous cohort graced.1 now
  let candidate := candidateState config previous cohort graced.1 graced.2.1 measured now
  let moved := applyDwellAndRecovery config previous candidate.1 measured now
  let final := moved.1
  let timing := moved.2.1
  let stays : Bool := match previous with
    | none => false
    | some previous => previous.themeState = final
  let stateEnteredAt :=
    if stays then (previous.bind (·.stateEnteredAt)).getD now else now
  let stateCycleCount :=
    if stays then previous.elim 1 (·.stateCycleCount + 1) else 1
  let keptLeader := if grace then previous.elim "" (·.leaderSymbol) else ""
  let leaderSymbol := if cohort.leaderSymbol = "" then keptLeader else cohort.leaderSymbol
  { themeId := cohort.themeId
    themeState := final
    previousState := previous.map (·.themeState)
    persistenceCount := stateCycleCount
    themeScore := round4 graced.2.1
    themeScoreDelta := previous.elim 0 fun previous =>
      round4 (graced.2.1 - previous.themeScore)
    leaderSymbol
    previousLeaderSymbol := previous.elim "" (·.leaderSymbol)
    coLeaderSymbols :=
      if cohort.coLeaderSymbols = [] then
        if grace then previous.elim [] (·.coLeaderSymbols) else []
      else cohort.coLeaderSymbols
    leaderChanged := previous.elim false fun previous =>
      previous.leaderSymbol ≠ "" ∧ previous.leaderSymbol ≠ leaderSymbol
    leaderStabilityCount := timing.leaderStabilityCount
    dataQualityReason := cohort.dataQualityReason
    reasonCodes :=
      (cohort.reasonCodes ++ graced.2.2 ++ candidate.2 ++ moved.2.2).eraseDups
    stateEnteredAt := some stateEnteredAt
    stateAgeSec := elapsedSec (some stateEnteredAt) now
    stateCycleCount
    strongSince := timing.strongSince
    spreadingSince := timing.spreadingSince
    leadingSince := timing.leadingSince
    fadingSince := if final = .fadingTheme then timing.fadingSince else none
    recoveryPendingSince := timing.recoveryPendingSince
    recoveryCycleCount := timing.recoveryCycleCount
    temporalPersistenceSec := timing.temporalPersistenceSec
    leaderStabilitySec := timing.leaderStabilitySec
    lastStrongAt := timing.lastStrongAt
    lastFreshSignalAt := timing.lastFreshSignalAt }

/-- One cycle: the cohorts that are applied, and the time in whole seconds. -/
structure ThemeCycle where
  cohorts : List ThemeCohortSnapshot
  now : Int

/-- `ThemeStateMachine`: the last snapshots by theme. -/
structure ThemeStateMachine where
  previous : Dict String ThemeStateSnapshot := .empty

/-- `apply`. A theme without an id is classified and not kept. -/
def ThemeStateMachine.apply (config : ThemeStateConfig) (machine : ThemeStateMachine)
    (cycle : ThemeCycle) : ThemeStateMachine × List ThemeStateSnapshot :=
  let current := cycle.cohorts.map fun cohort =>
    applyOne config (machine.previous.get? cohort.themeId) cohort cycle.now
  ({ previous := .ofList
      ((current.filter (·.themeId ≠ "")).map fun item => (item.themeId, item)) },
    current)

/-- The state machine, answering with the snapshots of a cycle. -/
def ThemeStateMachine.machine (config : ThemeStateConfig) :
    Machine ThemeStateMachine ThemeCycle (List ThemeStateSnapshot) :=
  ⟨fun machine cycle => machine.apply config cycle⟩

end TradingCore.Themes
