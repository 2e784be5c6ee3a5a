import TradingCore.Candidates.Models
import TradingCore.Themes.StateMachine

/-!
# The leadership handover

`LeadershipHandoverEngine` of `trading/theme_engine/leadership_handover.py`: the themes of a cycle
come ranked, and each gets a status from its last snapshot, the incumbent and the theme that may
take over. The engine remembers the incumbent and the snapshots of the last cycle.
-/

namespace TradingCore.Themes

open Base

inductive ThemeLeadershipStatus
  | neutral
  | incumbent
  | challenger
  | takeoverPending
  | takeoverConfirmed
  | losingLeadership
  | rotatedOut
deriving DecidableEq

def ThemeLeadershipStatus.leads (status : ThemeLeadershipStatus) : Bool :=
  status ∈ [incumbent, takeoverConfirmed]

structure ThemeLeadershipSnapshot where
  themeId : String
  currentRank : Int := 0
  status : ThemeLeadershipStatus := .neutral
  recentFlowScore : Rat := 0
  leadershipScore : Rat := 0
  flowShare : Rat := 0
  flowShareDelta : Rat := 0
  statusEnteredAt : Option Int := none
  statusAgeSec : Int := 0
  statusCycleCount : Int := 0
  challengerCycleCount : Int := 0
  takeoverPendingCycleCount : Int := 0
  incumbentCycleCount : Int := 0
  lastRankedAt : Option Int := none
  incumbentSince : Option Int := none
  challengerSince : Option Int := none
  takeoverPendingSince : Option Int := none
  takeoverConfirmedAt : Option Int := none
  losingSince : Option Int := none
  losingCycleCount : Int := 0
  recoveryPendingSince : Option Int := none
  recoveryCycleCount : Int := 0
  rotatedOutUntil : Option Int := none
  previousIncumbentThemeId : String := ""
  handoverReasonCodes : List String := []
  themeState : Option ThemeStateSnapshot := none

structure ThemeLeadershipTransition where
  themeId : String
  previousStatus : ThemeLeadershipStatus
  currentStatus : ThemeLeadershipStatus
  detectedAt : Int
  previousIncumbentThemeId : String
  currentIncumbentThemeId : String
  reasonCodes : List String

/-- `LeadershipHandoverConfig`, with the fields that the engine reads. -/
structure LeadershipHandoverConfig where
  minConfirmSec : Int := 30
  minConfirmCycles : Int := 3
  minScoreAdvantage : Rat := 5
  minFlowShareAdvantage : Rat := 3 / 100
  rotatedOutCooldownSec : Int := 60
  losingConfirmCycles : Int := 2
  losingConfirmSec : Int := 20
  incumbentRecoveryConfirmCycles : Int := 2
  incumbentRecoveryConfirmSec : Int := 20

/-! ## Takeovers -/

def canTakeover (item : ThemeLeadershipSnapshot) : Bool :=
  match item.themeState with
  | none => false
  | some state =>
      state.themeState ∈ [.leadingTheme, .spreadingTheme, .leaderOnlyTheme] ∧
        state.dataQualityReason ∉ ["TR_BACKFILL_ONLY", "CANDLE_WARMUP", "REALTIME_COVERAGE_LOW"] ∧
        "SIGNAL_STALE" ∉ state.reasonCodes ∧ 0 < item.leadershipScore

def challengerAdvantage (top : ThemeLeadershipSnapshot)
    (incumbent : Option ThemeLeadershipSnapshot) (config : LeadershipHandoverConfig) : Bool :=
  match incumbent with
  | none => true
  | some incumbent =>
      config.minScoreAdvantage ≤ top.leadershipScore - incumbent.leadershipScore ∧
        config.minFlowShareAdvantage ≤ top.flowShare - incumbent.flowShare

def takeoverCandidate (top : Option ThemeLeadershipSnapshot) (previousIncumbent : String)
    (incumbentPrevious : Option ThemeLeadershipSnapshot) (config : LeadershipHandoverConfig) :
    String :=
  match top with
  | none => ""
  | some top =>
      if canTakeover top = false then ""
      else if previousIncumbent = "" ∨ top.themeId = previousIncumbent then top.themeId
      else if challengerAdvantage top incumbentPrevious config then top.themeId
      else ""

def takeoverConfirmed (item : ThemeLeadershipSnapshot)
    (incumbent : Option ThemeLeadershipSnapshot) (statusEnteredAt : Option Int)
    (pendingCycleCount now : Int) (config : LeadershipHandoverConfig) : Bool :=
  canTakeover item ∧ challengerAdvantage item incumbent config ∧
    config.minConfirmSec ≤ elapsedSec statusEnteredAt now ∧
    config.minConfirmCycles ≤ pendingCycleCount

def pendingCycleCount (previous : Option ThemeLeadershipSnapshot)
    (status : ThemeLeadershipStatus) : Int :=
  if status ≠ .takeoverPending then 0
  else match previous with
    | none => 1
    | some previous =>
        if previous.status = .takeoverPending then previous.takeoverPendingCycleCount + 1 else 1

/-! ## Losing and recovering -/

def flowCollapse (item : ThemeLeadershipSnapshot) : Bool :=
  item.flowShareDelta ≤ -5 / 100 ∨ item.recentFlowScore ≤ 5

def cyclesSince (since : Option Int) (count : Int) : Int :=
  if since = none then 1 else count + 1

def losingConfirmed (previous : Option ThemeLeadershipSnapshot) (item : ThemeLeadershipSnapshot)
    (now : Int) (config : LeadershipHandoverConfig) : Bool :=
  let losingSince := previous.bind (·.losingSince)
  let losingCycles := cyclesSince losingSince (previous.elim 0 (·.losingCycleCount))
  flowCollapse item ∧ config.losingConfirmSec ≤ elapsedSec (losingSince <|> some now) now ∧
    config.losingConfirmCycles ≤ losingCycles

def losingSince (previous : Option ThemeLeadershipSnapshot) (item : ThemeLeadershipSnapshot)
    (status : ThemeLeadershipStatus) (now : Int) : Option Int :=
  if status = .losingLeadership ∨ flowCollapse item then
    previous.bind (·.losingSince) <|> some now
  else none

def losingCycleCount (previous : Option ThemeLeadershipSnapshot) (item : ThemeLeadershipSnapshot)
    (status : ThemeLeadershipStatus) : Int :=
  if status = .losingLeadership ∨ flowCollapse item then
    cyclesSince (previous.bind (·.losingSince)) (previous.elim 0 (·.losingCycleCount))
  else 0

def losingCooldownElapsed (previous : ThemeLeadershipSnapshot) (now : Int)
    (config : LeadershipHandoverConfig) : Bool :=
  let started := previous.statusEnteredAt <|> previous.losingSince
  started ≠ none ∧ config.rotatedOutCooldownSec ≤ elapsedSec started now

def incumbentRecovering (item : ThemeLeadershipSnapshot) : Bool :=
  canTakeover item ∧ item.currentRank ≤ 2 ∧ 10 < item.recentFlowScore ∧
    -1 / 100 ≤ item.flowShareDelta

def incumbentRecoveryConfirmed (previous item : ThemeLeadershipSnapshot) (now : Int)
    (config : LeadershipHandoverConfig) : Bool :=
  let recoveryCycles := cyclesSince previous.recoveryPendingSince previous.recoveryCycleCount
  incumbentRecovering item ∧
    config.incumbentRecoveryConfirmSec ≤
      elapsedSec (previous.recoveryPendingSince <|> some now) now ∧
    config.incumbentRecoveryConfirmCycles ≤ recoveryCycles

/-- The theme stays in `LOSING_LEADERSHIP` and recovers. -/
def recoveringOn (previous : Option ThemeLeadershipSnapshot) (item : ThemeLeadershipSnapshot)
    (status : ThemeLeadershipStatus) : Bool :=
  previous.map (·.status) = some .losingLeadership ∧ status = .losingLeadership ∧
    incumbentRecovering item

def recoveryPendingSince (previous : Option ThemeLeadershipSnapshot)
    (item : ThemeLeadershipSnapshot) (status : ThemeLeadershipStatus) (now : Int) : Option Int :=
  if recoveringOn previous item status then
    previous.bind (·.recoveryPendingSince) <|> some now
  else none

def recoveryCycleCount (previous : Option ThemeLeadershipSnapshot)
    (item : ThemeLeadershipSnapshot) (status : ThemeLeadershipStatus) : Int :=
  if recoveringOn previous item status then
    cyclesSince (previous.bind (·.recoveryPendingSince)) (previous.elim 0 (·.recoveryCycleCount))
  else 0

/-! ## The status of a theme -/

def statusSince (previous : Option ThemeLeadershipSnapshot) (status : ThemeLeadershipStatus)
    (now : Int) (matching : List ThemeLeadershipStatus) : Option Int :=
  if status ∉ matching then none
  else match previous with
    | none => some now
    | some previous =>
        if previous.status = status then
          match status with
          | .takeoverPending =>
              previous.takeoverPendingSince <|> previous.statusEnteredAt <|> some now
          | .challenger => previous.challengerSince <|> previous.statusEnteredAt <|> some now
          | _ => previous.incumbentSince <|> previous.statusEnteredAt <|> some now
        else some now

def handoverReasons (item : ThemeLeadershipSnapshot) (previous : Option ThemeLeadershipSnapshot)
    (status : ThemeLeadershipStatus) : List String :=
  (match previous with
    | none => []
    | some previous =>
        if item.currentRank ≠ previous.currentRank then ["THEME_RANK_CHANGED"] else []) ++
  (match status with
    | .takeoverPending => ["TAKEOVER_REQUIRES_SECONDS_AND_CYCLES"]
    | .takeoverConfirmed => ["TAKEOVER_CONFIRMED"]
    | .losingLeadership => ["INCUMBENT_FLOW_COLLAPSE"]
    | .incumbent =>
        if previous.map (·.status) = some .incumbent ∧ flowCollapse item then
          ["INCUMBENT_GRACE_ACTIVE"]
        else []
    | .rotatedOut => ["ROTATED_OUT_COOLDOWN_CONFIRMED"]
    | _ => [])

/-- The last snapshot of a theme that was losing its leadership. -/
def losingBefore (previous : Option ThemeLeadershipSnapshot) : Option ThemeLeadershipSnapshot :=
  previous.filter (·.status = .losingLeadership)

/-- `_status`. -/
def statusOf (config : LeadershipHandoverConfig) (item : ThemeLeadershipSnapshot)
    (previous : Option ThemeLeadershipSnapshot) (takeoverTheme previousIncumbent : String)
    (incumbentReference : Option ThemeLeadershipSnapshot) (now : Int) : ThemeLeadershipStatus :=
  if canTakeover item = false then
    match losingBefore previous with
    | some previous =>
        if losingCooldownElapsed previous now config then .rotatedOut else .losingLeadership
    | none => .neutral
  else if previousIncumbent = "" ∧ item.currentRank = 1 then .incumbent
  else if item.themeId = previousIncumbent then
    match losingBefore previous with
    | some previous =>
        if incumbentRecoveryConfirmed previous item now config then .incumbent
        else if losingCooldownElapsed previous now config ∧ incumbentRecovering item = false then
          .rotatedOut
        else .losingLeadership
    | none =>
        if flowCollapse item ∧ losingConfirmed previous item now config then .losingLeadership
        else .incumbent
  else if item.themeId = takeoverTheme ∧ challengerAdvantage item incumbentReference config then
    .takeoverPending
  else if item.currentRank ≤ 3 then .challenger
  else .neutral

/-! ## The engine -/

/-- `LeadershipHandoverEngine`: the incumbent, blank for none, and the last snapshots. -/
structure LeadershipHandoverEngine where
  previous : Dict String ThemeLeadershipSnapshot := .empty
  incumbentThemeId : String := ""

/-- One call: the ranked themes, and the time in whole seconds. -/
structure RankedCycle where
  ranked : List ThemeLeadershipSnapshot
  now : Int

namespace LeadershipHandoverEngine

def incumbentPrevious (engine : LeadershipHandoverEngine) : Option ThemeLeadershipSnapshot :=
  if engine.incumbentThemeId = "" then none else engine.previous.get? engine.incumbentThemeId

/-- What is known of the incumbent: its entry in the list, or else its last snapshot. -/
def incumbentReference (engine : LeadershipHandoverEngine)
    (ranked : List ThemeLeadershipSnapshot) : Option ThemeLeadershipSnapshot :=
  ranked.find? (fun item =>
      engine.incumbentThemeId ≠ "" ∧ item.themeId = engine.incumbentThemeId) <|>
    engine.incumbentPrevious

def takeoverTheme (engine : LeadershipHandoverEngine) (config : LeadershipHandoverConfig)
    (ranked : List ThemeLeadershipSnapshot) : String :=
  takeoverCandidate ranked.head? engine.incumbentThemeId (engine.incumbentReference ranked) config

/-- The status of an entry before a takeover is confirmed, the time that it was entered, and the
cycles it has been pending. -/
def pendingOf (engine : LeadershipHandoverEngine) (config : LeadershipHandoverConfig)
    (cycle : RankedCycle) (item : ThemeLeadershipSnapshot) :
    ThemeLeadershipStatus × Int × Int :=
  let previous := engine.previous.get? item.themeId
  let status := statusOf config item previous (engine.takeoverTheme config cycle.ranked)
    engine.incumbentThemeId (engine.incumbentReference cycle.ranked) cycle.now
  let statusEnteredAt := match previous with
    | none => cycle.now
    | some previous =>
        if previous.status = status then previous.statusEnteredAt.getD cycle.now else cycle.now
  (status, statusEnteredAt, pendingCycleCount previous status)

def confirms (engine : LeadershipHandoverEngine) (config : LeadershipHandoverConfig)
    (cycle : RankedCycle) (item : ThemeLeadershipSnapshot) : Bool :=
  let pending := engine.pendingOf config cycle item
  pending.1 = .takeoverPending ∧
    takeoverConfirmed item engine.incumbentPrevious (some pending.2.1) pending.2.2 cycle.now config

def updateItem (engine : LeadershipHandoverEngine) (config : LeadershipHandoverConfig)
    (cycle : RankedCycle) (item : ThemeLeadershipSnapshot) : ThemeLeadershipSnapshot :=
  let previous := engine.previous.get? item.themeId
  let pending := engine.pendingOf config cycle item
  let confirmed := engine.confirms config cycle item
  let status := if confirmed then .takeoverConfirmed else pending.1
  let statusEnteredAt := if confirmed then cycle.now else pending.2.1
  { item with
    status
    statusEnteredAt := some statusEnteredAt
    statusAgeSec := if confirmed then 0 else elapsedSec (some statusEnteredAt) cycle.now
    statusCycleCount :=
      if confirmed then 1
      else if previous.map (·.status) = some status then
        previous.elim 1 (·.statusCycleCount + 1)
      else 1
    challengerCycleCount :=
      if status = .challenger then previous.elim 1 (·.challengerCycleCount + 1) else 0
    takeoverPendingCycleCount :=
      if status = .takeoverPending ∨ status = .takeoverConfirmed then pending.2.2 else 0
    incumbentCycleCount :=
      if status.leads then previous.elim 1 (·.incumbentCycleCount + 1) else 0
    lastRankedAt := some cycle.now
    incumbentSince := statusSince previous status cycle.now [.incumbent, .takeoverConfirmed]
    challengerSince := statusSince previous status cycle.now [.challenger]
    takeoverPendingSince := statusSince previous status cycle.now [.takeoverPending]
    takeoverConfirmedAt :=
      if status = .takeoverConfirmed ∧ previous.map (·.status) ≠ some status then some cycle.now
      else item.takeoverConfirmedAt
    losingSince := losingSince previous item status cycle.now
    losingCycleCount := losingCycleCount previous item status
    recoveryPendingSince := recoveryPendingSince previous item status cycle.now
    recoveryCycleCount := recoveryCycleCount previous item status
    rotatedOutUntil :=
      if status = .rotatedOut then some cycle.now else previous.bind (·.rotatedOutUntil)
    previousIncumbentThemeId := engine.incumbentThemeId
    handoverReasonCodes :=
      Candidates.dedupe (item.handoverReasonCodes ++ handoverReasons item previous status) }

def transitionOf (engine : LeadershipHandoverEngine) (cycle : RankedCycle)
    (updated : ThemeLeadershipSnapshot) : Option ThemeLeadershipTransition :=
  match engine.previous.get? updated.themeId with
  | none => none
  | some previous =>
      if previous.status = updated.status then none
      else some
        { themeId := updated.themeId
          previousStatus := previous.status
          currentStatus := updated.status
          detectedAt := cycle.now
          previousIncumbentThemeId := engine.incumbentThemeId
          currentIncumbentThemeId :=
            if updated.status.leads then updated.themeId else engine.incumbentThemeId
          reasonCodes := updated.handoverReasonCodes }

/-- The incumbent after a cycle: the theme confirmed last, if it has an id, or else the first
leader. -/
def nextIncumbent (engine : LeadershipHandoverEngine) (config : LeadershipHandoverConfig)
    (cycle : RankedCycle) (updated : List ThemeLeadershipSnapshot) : String :=
  let confirmedTheme :=
    ((cycle.ranked.filter (engine.confirms config cycle)).getLast?.map (·.themeId)).getD ""
  if confirmedTheme ≠ "" then confirmedTheme
  else match updated.find? (·.status.leads) with
    | some incumbent => incumbent.themeId
    | none => engine.incumbentThemeId

def apply (config : LeadershipHandoverConfig) (engine : LeadershipHandoverEngine)
    (cycle : RankedCycle) :
    LeadershipHandoverEngine × List ThemeLeadershipSnapshot × List ThemeLeadershipTransition :=
  let updated := cycle.ranked.map (engine.updateItem config cycle)
  ({ previous := .ofList
       ((updated.filter (·.themeId ≠ "")).map fun item => (item.themeId, item))
     incumbentThemeId := engine.nextIncumbent config cycle updated },
    updated, updated.filterMap (engine.transitionOf cycle))

/-- The engine, answering with the snapshots and the transitions of a cycle. -/
def machine (config : LeadershipHandoverConfig) :
    Machine LeadershipHandoverEngine RankedCycle
      (List ThemeLeadershipSnapshot × List ThemeLeadershipTransition) :=
  ⟨apply config⟩

end LeadershipHandoverEngine

end TradingCore.Themes
