import TradingCore.Base.Value
import TradingCore.Candidates.Codes
import Mathlib.Data.Rat.Defs

/-!
# Candidates

A candidate is a stock of one trade date with two states: the legacy state of its row
(`trading/strategy/models.py`) and the runtime state of `trading/runtime_ports.py`, written v2,
that its metadata hold. The metadata are one structure with an optional part for each section
that a service writes. Columns and metadata that decide nothing here (the market, the strategy
profile, raw payloads) are left out. Scores are exact numbers.
-/

namespace TradingCore.Candidates

open Base

/-! ## States -/

inductive CandidateState
  | detected
  | hydrating
  | watching
  | waitData
  | ready
  | orderDecided
  | orderSent
  | filled
  | blocked
  | expired
  | removed
  | cancelled
deriving DecidableEq

inductive CandidateRuntimeState
  | discovered
  | hydrating
  | watching
  | setupReady
  | timingReady
  | orderIntentCreated
  | orderPending
  | positionOpen
  | exitPending
  | closed
  | removed
  | expired
deriving DecidableEq

namespace CandidateRuntimeState

def value : CandidateRuntimeState → String
  | discovered => "DISCOVERED"
  | hydrating => "HYDRATING"
  | watching => "WATCHING"
  | setupReady => "SETUP_READY"
  | timingReady => "TIMING_READY"
  | orderIntentCreated => "ORDER_INTENT_CREATED"
  | orderPending => "ORDER_PENDING"
  | positionOpen => "POSITION_OPEN"
  | exitPending => "EXIT_PENDING"
  | closed => "CLOSED"
  | removed => "REMOVED"
  | expired => "EXPIRED"

/-- The runtime state a text names, `none` where the constructor of the enumeration raises. -/
def ofValue? : String → Option CandidateRuntimeState
  | "DISCOVERED" => some discovered
  | "HYDRATING" => some hydrating
  | "WATCHING" => some watching
  | "SETUP_READY" => some setupReady
  | "TIMING_READY" => some timingReady
  | "ORDER_INTENT_CREATED" => some orderIntentCreated
  | "ORDER_PENDING" => some orderPending
  | "POSITION_OPEN" => some positionOpen
  | "EXIT_PENDING" => some exitPending
  | "CLOSED" => some closed
  | "REMOVED" => some removed
  | "EXPIRED" => some expired
  | _ => none

@[simp] theorem ofValue?_value (state : CandidateRuntimeState) :
    ofValue? state.value = some state := by
  cases state <;> rfl

@[simp] theorem value_ne_empty (state : CandidateRuntimeState) : state.value ≠ "" := by
  cases state <;> simp [value]

end CandidateRuntimeState

inductive CandidateBlockingStage
  | none
  | data
  | theme
  | market
  | role
  | price
  | risk
  | order
  | system
deriving DecidableEq

inductive BlockType
  | none
  | temporary
  | final
deriving DecidableEq

inductive CandidateSourceType
  | condition
  | conditionSearch
  | openingBurst
  | themeWatch
  | themeBoard
  | leadingStock
  | manualWatch
  | manualDebug
deriving DecidableEq

/-! ## Metadata -/

/-- The section `candidate_fsm`. Texts that are absent are empty. -/
structure CandidateFsm where
  v2State : String := ""
  blockingStage : CandidateBlockingStage := .none
  primaryReasonCode : String := ""
  reasonCodes : List String := []
  nextRequiredAction : String := ""
  sourceEventIds : List String := []
  lastTransitionAt : String := ""
  latestTickFresh : String := ""
  freshnessStatus : String := ""
  priceSource : String := ""

/-- The section `candidate_hydration`. Texts that are absent are empty, counts are zero, and a time
is in seconds. -/
structure CandidateHydration where
  basicHydrationComplete : Value := .none
  status : Value := .none
  parsed : Mapping := .empty
  failureStatus : String := ""
  commandId : String := ""
  idempotencyKey : String := ""
  priority : String := ""
  purpose : String := ""
  basicHydrationBlockingReasons : List String := []
  realtimeEntryDataReady : Bool := false
  marketDataMerged : Bool := false
  lastError : String := ""
  retryCount : Nat := 0
  retryGeneration : Nat := 0
  retryAfterAt : Option Int := none

/-- An entry of the source map: one source of the candidate and whether it is active. -/
structure SourceEntry where
  sourceType : String
  sourceId : String
  sourceRank : Int
  sourceScore : Rat
  themeId : String
  themeName : String
  stockRole : String
  reasonCodes : List String
  detectedAt : String
  active : Bool
  removedAt : String := ""

/-- The section `candidate_ingestion`: the sources of the candidate under their keys, and what
is recorded of the active ones. -/
structure CandidateIngestion where
  sourceMap : Dict String SourceEntry := .empty
  activeSourceTypes : List String := []
  primarySource : String := ""
  primarySourceId : String := ""
  primaryThemeId : String := ""
  themeName : String := ""
  stockRole : String := ""
  score : Rat := 0
  reasonCodes : List String := []
  lastSourceEventAt : String := ""

inductive CandidateLifecycleReadiness
  | discovered
  | hydrating
  | hydrationComplete
  | hydrationRetryWait
  | hydrationFailed
  | terminal
deriving DecidableEq

inductive CandidateEvaluationEligibility
  | eligible
  | terminal
  | noActiveSource
  | hydrationIncomplete
  | hydrationRetryWait
  | hydrationFailed
  | v2StateNotEvaluable
deriving DecidableEq

/-- What the state contract reads off a candidate. -/
structure CandidateStateContractSnapshot where
  code : String
  tradeDate : String
  durableState : CandidateState
  projectedState : CandidateState
  v2State : CandidateRuntimeState
  blockingStage : CandidateBlockingStage
  primaryReasonCode : String
  lifecycleReadiness : CandidateLifecycleReadiness
  evaluationEligibility : CandidateEvaluationEligibility
  evaluationEligible : Bool
  hydrationComplete : Bool
  activeSourceExists : Bool
  terminal : Bool
  reconciled : Bool := false
  reconcileReason : String := ""

/-- The section `candidate_state_contract`: the last change of the legacy state. -/
structure CandidateStateContract where
  snapshot : CandidateStateContractSnapshot
  reconciledAt : String
  reconcileReason : String

/-- The metadata of a candidate. A section that is absent or empty is `none`. -/
structure CandidateMetadata where
  candidateFsm : CandidateFsm := {}
  candidateHydration : Option CandidateHydration := none
  candidateIngestion : Option CandidateIngestion := none
  candidateStateContract : Option CandidateStateContract := none
  entryTimingSource : String := ""
  gateUsableForEntry : Bool := false
  primarySource : String := ""
  primarySourceId : String := ""
  primaryThemeId : String := ""
  themeName : String := ""
  stockRole : String := ""
  sourceScore : Rat := 0
  reasonCodes : List String := []
  bestThemeId : String := ""
  sourceRemovedAt : String := ""
  candidateGenerationSeq : Option Nat := none
  candidateInstanceId : Option String := none

/-- A row of `candidates`. -/
structure Candidate where
  tradeDate : String
  code : String
  name : String := ""
  sources : List CandidateSourceType := []
  priority : Int := 0
  themeIds : List String := []
  state : CandidateState := .detected
  detectedAt : String := ""
  lastSeenAt : String := ""
  expiresAt : String := ""
  conditionNames : List String := []
  blockType : BlockType := .none
  recheckAfterSec : Int := 0
  canRecover : Bool := false
  metadata : CandidateMetadata := {}

/-- `_dedupe`: the stripped texts of a list, each once, without empty ones. -/
def dedupe (values : List String) : List String := Text.distinct Text.strip values

end TradingCore.Candidates
