import TradingCore.Base.Machine
import TradingCore.Candidates.StateContract

/-!
# The candidate state machine

`CandidateFsmService` of `trading/strategy/candidate_fsm.py`: every event computes a target
runtime state, from the runtime state, the legacy state or neither, and `apply` writes it and has
the state contract reconciled. `targetOf` collects the targets and `moves_handle` shows that every
handler goes there.
-/

namespace TradingCore.Candidates

open Base Text

inductive CandidateReasonCode
  | latestTickMissing
  | latestTickStale
  | trBackfillPriceOnly
  | hydrationPending
  | themeNotReady
  | marketRiskOff
  | roleNotAllowed
  | priceTimingNotReady
  | chaseRisk
  | vwapOverextended
  | orderRiskBlocked
  | orderRiskRejected
  | orderManagerObserveOnly
  | reconcileRequired
  | stopNewBuy
  | gatewayUnhealthy
  | conditionInclude
  | conditionRemove
  | hydrationRequested
  | hydrationResult
  | realtimeTickFresh
  | observeReadyOrderDisabled

def CandidateReasonCode.value : CandidateReasonCode → String
  | latestTickMissing => "LATEST_TICK_MISSING"
  | latestTickStale => "LATEST_TICK_STALE"
  | trBackfillPriceOnly => "TR_BACKFILL_PRICE_ONLY"
  | hydrationPending => "HYDRATION_PENDING"
  | themeNotReady => "THEME_NOT_READY"
  | marketRiskOff => "MARKET_RISK_OFF"
  | roleNotAllowed => "ROLE_NOT_ALLOWED"
  | priceTimingNotReady => "PRICE_TIMING_NOT_READY"
  | chaseRisk => "CHASE_RISK"
  | vwapOverextended => "VWAP_OVEREXTENDED"
  | orderRiskBlocked => "ORDER_RISK_BLOCKED"
  | orderRiskRejected => "ORDER_RISK_REJECTED"
  | orderManagerObserveOnly => "ORDER_MANAGER_OBSERVE_ONLY"
  | reconcileRequired => "RECONCILE_REQUIRED"
  | stopNewBuy => "STOP_NEW_BUY"
  | gatewayUnhealthy => "GATEWAY_UNHEALTHY"
  | conditionInclude => "CONDITION_INCLUDE"
  | conditionRemove => "CONDITION_REMOVE"
  | hydrationRequested => "HYDRATION_REQUESTED"
  | hydrationResult => "HYDRATION_RESULT"
  | realtimeTickFresh => "REALTIME_TICK_FRESH"
  | observeReadyOrderDisabled => "OBSERVE_READY_ORDER_DISABLED"

/-- `NEXT_REQUIRED_ACTION`. -/
def nextRequiredActions : List (CandidateReasonCode × String) :=
  [(.latestTickMissing, "WAIT_REALTIME_TICK"),
   (.latestTickStale, "WAIT_FRESH_REALTIME_TICK"),
   (.trBackfillPriceOnly, "WAIT_REALTIME_TICK"),
   (.hydrationPending, "WAIT_TR_BACKFILL"),
   (.themeNotReady, "WAIT_THEME_STRENGTH"),
   (.marketRiskOff, "WAIT_MARKET_RECOVERY"),
   (.roleNotAllowed, "WAIT_ROLE_ALLOWED"),
   (.priceTimingNotReady, "WAIT_PRICE_OR_VWAP_RECOVERY"),
   (.orderRiskBlocked, "CHECK_ORDER_RISK"),
   (.orderRiskRejected, "CHECK_ORDER_RISK"),
   (.orderManagerObserveOnly, "WAIT_ORDER_MANAGER_ENABLEMENT"),
   (.reconcileRequired, "RECONCILE_ORDER_STATE"),
   (.stopNewBuy, "WAIT_RISK_RECOVERY"),
   (.gatewayUnhealthy, "CHECK_GATEWAY_HEALTH"),
   (.observeReadyOrderDisabled, "WAIT_ORDER_MANAGER_PR")]

/-- `NEXT_REQUIRED_ACTION.get(reason_code, "")`. -/
def nextRequiredActionFor (reason : String) : String :=
  ((nextRequiredActions.find? fun entry => entry.1.value = reason).map (·.2)).getD ""

structure TransitionSource where
  eventId : String := ""
  eventType : String := ""
  component : String := "CandidateFsmService"

/-- `CandidateStateTransition`, without the id that is drawn for it. -/
structure CandidateStateTransition where
  tradeDate : String
  code : String
  fromState : CandidateRuntimeState
  toState : CandidateRuntimeState
  blockingStage : CandidateBlockingStage
  reasonCode : String
  reasonCodes : List String
  nextRequiredAction : String
  source : TransitionSource
  occurredAt : String
  details : Mapping
  metadata : CandidateFsm

/-- `v2_state` of the state machine. -/
def v2State (candidate : Candidate) : CandidateRuntimeState :=
  match CandidateRuntimeState.ofValue? candidate.metadata.candidateFsm.v2State with
  | some state => state
  | none => legacyToV2State candidate.state

def hasFreshRealtimeTick (candidate : Candidate) : Bool :=
  let fsm := candidate.metadata.candidateFsm
  let metadata := candidate.metadata
  lower fsm.latestTickFresh = "true" ∨
    (upper fsm.priceSource = "REALTIME" ∧ upper fsm.freshnessStatus = "FRESH") ∨
    upper metadata.entryTimingSource = "REALTIME_TICK" ∨
    (metadata.gateUsableForEntry ∧ upper metadata.entryTimingSource = "REALTIME_TICK")

def sourceEventIdsAfter (fsm : CandidateFsm) (eventId : String) : List String :=
  let existing := fsm.sourceEventIds.filter (· ≠ "")
  let all := if eventId ≠ "" ∧ eventId ∉ existing then existing ++ [eventId] else existing
  all.drop (all.length - 20)

/-- The section `candidate_fsm` that `_apply` writes. -/
def CandidateFsm.written (fsm : CandidateFsm) (target : CandidateRuntimeState) (reason : String)
    (stage : CandidateBlockingStage) (eventId : String) (details : Mapping) (now : String) :
    CandidateFsm :=
  { v2State := target.value
    blockingStage := stage
    primaryReasonCode := reason
    reasonCodes := dedupe (fsm.reasonCodes ++ [reason])
    nextRequiredAction := nextRequiredActionFor reason
    sourceEventIds := sourceEventIdsAfter fsm eventId
    lastTransitionAt := now
    latestTickFresh :=
      if details.contains "is_fresh" then
        if (details.value "is_fresh").truthy then "true" else "false"
      else fsm.latestTickFresh
    freshnessStatus :=
      if (details.value "freshness_status").truthy then details.textOr "freshness_status"
      else fsm.freshnessStatus
    priceSource :=
      if (details.value "price_source").truthy then details.textOr "price_source"
      else fsm.priceSource }

/-- `CandidateFsmService`: the state contract that it reconciles, none without a database. -/
structure CandidateFsmService where
  contract : Option CandidateStateContractService

def sourceEventId (payload : Mapping) : String :=
  ((payload.value "source_event_id").or ((payload.value "event_id").or (.str ""))).text

/-- Is the payload of a tick a fresh price of the realtime feed? -/
def freshRealtimePayload (payload : Mapping) : Bool :=
  (payload.value "is_fresh").truthy ∧
    upper ((payload.value "price_source").or (.str "REALTIME")).text ≠ "TR_BACKFILL"

def waitsOrWatches (candidate : Candidate) : Prop := candidate.state ∈ [.waitData, .watching]
deriving Decidable

/-- The runtime state that `promote` gives when `target` is asked for. -/
def promoteTarget (candidate : Candidate) (target : CandidateRuntimeState) :
    CandidateRuntimeState :=
  if target ∈ [.setupReady, .timingReady] ∧ ¬ hasFreshRealtimeTick candidate then .watching
  else target

/-- The runtime state that `apply_blocking_reason` gives. -/
def blockingTarget (candidate : Candidate) (stage : CandidateBlockingStage) :
    CandidateRuntimeState :=
  let current := if waitsOrWatches candidate then legacyToV2State candidate.state
    else v2State candidate
  if current ∈ [.setupReady, .timingReady] ∧ stage = .data then .watching else current

namespace CandidateFsmService

variable (service : CandidateFsmService)

def contractHydratedActive (candidate : Candidate) : Bool :=
  match service.contract with
  | none => false
  | some contract =>
      let snapshot := contract.snapshot candidate
      snapshot.hydrationComplete ∧ snapshot.activeSourceExists ∧ ¬ snapshot.terminal

def conditionIncludeTarget (candidate : Candidate) : CandidateRuntimeState :=
  let current := v2State candidate
  if current ∈ [.watching, .setupReady, .timingReady] then current
  else if current ∈ [.removed, .expired, .closed] then
    if service.contractHydratedActive candidate then .watching else .discovered
  else if waitsOrWatches candidate ∧ service.contractHydratedActive candidate then .watching
  else .discovered

def reconcileStateContract (candidate : Candidate) (now : String) : Candidate :=
  match service.contract with
  | none => candidate
  | some contract => (contract.reconcileCandidate candidate now).1

/-- `_apply`: the candidate after it, and the transition that is saved. -/
def apply (candidate : Candidate) (target : CandidateRuntimeState) (reason : String)
    (stage : CandidateBlockingStage) (source : TransitionSource) (details : Mapping)
    (now : String) : Candidate × CandidateStateTransition :=
  let fsm := candidate.metadata.candidateFsm.written target reason stage source.eventId details now
  let written := { candidate with metadata := { candidate.metadata with candidateFsm := fsm } }
  (service.reconcileStateContract written now,
    { tradeDate := candidate.tradeDate
      code := candidate.code
      fromState := v2State candidate
      toState := target
      blockingStage := stage
      reasonCode := reason
      reasonCodes := [reason]
      nextRequiredAction := nextRequiredActionFor reason
      source
      occurredAt := now
      details
      metadata := fsm })

/-- `promote`. A ready state without a fresh tick becomes `WATCHING`, blocked for data. -/
def promote (candidate : Candidate) (target : CandidateRuntimeState) (reason : String)
    (stage : CandidateBlockingStage) (source : TransitionSource) (details : Mapping)
    (now : String) : Candidate × CandidateStateTransition :=
  if target ∈ [.setupReady, .timingReady] ∧ ¬ hasFreshRealtimeTick candidate then
    service.apply candidate (promoteTarget candidate target)
      CandidateReasonCode.latestTickMissing.value .data source details now
  else service.apply candidate (promoteTarget candidate target) reason stage source details now

def applyBlockingReason (candidate : Candidate) (stage : CandidateBlockingStage)
    (reason : String) (details : Mapping) (source : TransitionSource) (now : String) :
    Candidate × CandidateStateTransition :=
  service.apply candidate (blockingTarget candidate stage) reason stage source details now

def onConditionInclude (candidate : Candidate) (payload : Mapping) (now : String) :
    Candidate × CandidateStateTransition :=
  service.promote candidate (service.conditionIncludeTarget candidate)
    CandidateReasonCode.conditionInclude.value .none
    { eventId := sourceEventId payload
      eventType := "condition_include"
      component := "CandidateIngestionService" }
    payload now

def onConditionRemove (candidate : Candidate) (payload : Mapping) (now : String) :
    Candidate × CandidateStateTransition :=
  let target := if candidate.state = .removed then .removed else v2State candidate
  service.promote candidate target CandidateReasonCode.conditionRemove.value .none
    { eventId := sourceEventId payload
      eventType := "condition_remove"
      component := "CandidateIngestionService" }
    payload now

def onHydrationRequested (candidate : Candidate) (now : String) :
    Candidate × CandidateStateTransition :=
  service.promote candidate .hydrating CandidateReasonCode.hydrationRequested.value .data
    { eventType := "hydration_request", component := "CandidateHydrator" } .empty now

def onHydrationResult (candidate : Candidate) (result : Mapping) (now : String) :
    Candidate × CandidateStateTransition :=
  let source : TransitionSource :=
    { eventId := result.textOr "source_event_id"
      eventType := "hydration_result"
      component := "CandidateHydrator" }
  if hasFreshRealtimeTick candidate then
    service.promote candidate .watching CandidateReasonCode.realtimeTickFresh.value .none source
      result now
  else
    let reason : CandidateReasonCode :=
      if (result.value "market_data_merged").truthy then .trBackfillPriceOnly
      else .latestTickMissing
    service.applyBlockingReason candidate .data reason.value result source now

def onRealtimeTick (candidate : Candidate) (payload : Mapping) (now : String) :
    Candidate × CandidateStateTransition :=
  let source : TransitionSource :=
    { eventId := payload.textOr "source_event_id"
      eventType := "price_tick"
      component := "MarketDataService" }
  if freshRealtimePayload payload then
    service.promote candidate .watching CandidateReasonCode.realtimeTickFresh.value .none source
      payload now
  else
    let reason : CandidateReasonCode :=
      if upper (payload.textOr "price_source") = "TR_BACKFILL" then .trBackfillPriceOnly
      else if payload.entries ≠ [] then .latestTickStale
      else .latestTickMissing
    service.applyBlockingReason candidate .data reason.value payload source now

/-! ## The machine -/

end CandidateFsmService

/-- The events of the state machine. -/
inductive FsmEvent
  | conditionInclude (payload : Mapping)
  | conditionRemove (payload : Mapping)
  | hydrationRequested
  | hydrationResult (result : Mapping)
  | realtimeTick (payload : Mapping)
  | blockingReason (stage : CandidateBlockingStage) (reason : String) (details : Mapping)
      (source : TransitionSource)

namespace CandidateFsmService

variable (service : CandidateFsmService)

/-- The handler of an event, received at the time `now`. -/
def handle (candidate : Candidate) : FsmEvent × String → Candidate × CandidateStateTransition
  | (.conditionInclude payload, now) => service.onConditionInclude candidate payload now
  | (.conditionRemove payload, now) => service.onConditionRemove candidate payload now
  | (.hydrationRequested, now) => service.onHydrationRequested candidate now
  | (.hydrationResult result, now) => service.onHydrationResult candidate result now
  | (.realtimeTick payload, now) => service.onRealtimeTick candidate payload now
  | (.blockingReason stage reason details source, now) =>
      service.applyBlockingReason candidate stage reason details source now

def machine : Machine Candidate (FsmEvent × String) CandidateStateTransition := ⟨service.handle⟩

def targetOf (candidate : Candidate) : FsmEvent → CandidateRuntimeState
  | .conditionInclude _ => promoteTarget candidate (service.conditionIncludeTarget candidate)
  | .conditionRemove _ =>
      promoteTarget candidate (if candidate.state = .removed then .removed else v2State candidate)
  | .hydrationRequested => .hydrating
  | .hydrationResult _ =>
      if hasFreshRealtimeTick candidate then .watching else blockingTarget candidate .data
  | .realtimeTick payload =>
      if freshRealtimePayload payload then .watching else blockingTarget candidate .data
  | .blockingReason stage _ _ _ => blockingTarget candidate stage

/-- The result of a handler that moves the candidate to `target` and says so. -/
structure Moves (candidate : Candidate) (result : Candidate × CandidateStateTransition)
    (target : CandidateRuntimeState) : Prop where
  v2State : v2State result.1 = target
  fromState : result.2.fromState = TradingCore.Candidates.v2State candidate
  toState : result.2.toState = target

variable {service}

variable (candidate : Candidate)

theorem reconcileStateContract_fsm (now : String) :
    (service.reconcileStateContract candidate now).metadata.candidateFsm =
      candidate.metadata.candidateFsm := by
  unfold reconcileStateContract
  cases service.contract with
  | none => rfl
  | some contract =>
    obtain ⟨state, lastSeenAt, record, h⟩ := contract.reconcileCandidate_frame candidate now
    simp only [h]

theorem moves_apply (target : CandidateRuntimeState) (reason : String)
    (stage : CandidateBlockingStage) (source : TransitionSource) (details : Mapping)
    (now : String) :
    Moves candidate (service.apply candidate target reason stage source details now) target where
  v2State := by
    unfold TradingCore.Candidates.v2State
    simp [apply, reconcileStateContract_fsm, CandidateFsm.written]
  fromState := rfl
  toState := rfl

theorem moves_promote_of_eq {candidate : Candidate} {asked target : CandidateRuntimeState}
    {reason : String} {stage : CandidateBlockingStage} {source : TransitionSource}
    {details : Mapping} {now : String} (h : promoteTarget candidate asked = target) :
    Moves candidate (service.promote candidate asked reason stage source details now) target := by
  subst h
  unfold promote
  split
  · exact moves_apply ..
  · exact moves_apply ..

@[simp] theorem promoteTarget_hydrating : promoteTarget candidate .hydrating = .hydrating := by
  simp [promoteTarget]

@[simp] theorem promoteTarget_watching : promoteTarget candidate .watching = .watching := by
  simp [promoteTarget]

theorem moves_handle (event : FsmEvent) (now : String) :
    Moves candidate (service.handle candidate (event, now)) (service.targetOf candidate event) := by
  cases event with
  | conditionInclude payload => exact moves_promote_of_eq rfl
  | conditionRemove payload => exact moves_promote_of_eq rfl
  | hydrationRequested =>
    unfold handle onHydrationRequested targetOf
    exact moves_promote_of_eq (promoteTarget_hydrating candidate)
  | hydrationResult result =>
    unfold handle onHydrationResult targetOf
    dsimp only
    split
    · exact moves_promote_of_eq (promoteTarget_watching candidate)
    · exact moves_apply ..
  | realtimeTick payload =>
    unfold handle onRealtimeTick targetOf
    dsimp only
    split
    · exact moves_promote_of_eq (promoteTarget_watching candidate)
    · exact moves_apply ..
  | blockingReason stage reason details source => exact moves_apply ..

theorem v2State_next (event : FsmEvent) (now : String) :
    v2State (service.machine.next candidate (event, now)) = service.targetOf candidate event :=
  (moves_handle candidate event now).v2State

/-! ## What the machine keeps -/

/-- What the machine may do to a candidate besides its own section: reconcile the legacy state. -/
structure Follows (before after : Candidate) : Prop where
  tradeDate : after.tradeDate = before.tradeDate
  code : after.code = before.code
  candidateIngestion : after.metadata.candidateIngestion = before.metadata.candidateIngestion
  primarySource : after.metadata.primarySource = before.metadata.primarySource
  primarySourceId : after.metadata.primarySourceId = before.metadata.primarySourceId
  state : after.state = before.state ∨
    (activeSourceExists before = true ∧ after.state = .watching) ∨
      (before.state ∈ [.detected, .hydrating, .waitData] ∧ after.state = .waitData)

theorem follows_apply (target : CandidateRuntimeState) (reason : String)
    (stage : CandidateBlockingStage) (source : TransitionSource) (details : Mapping)
    (now : String) :
    Follows candidate (service.apply candidate target reason stage source details now).1 := by
  unfold apply reconcileStateContract
  dsimp only
  cases service.contract with
  | none => exact ⟨rfl, rfl, rfl, rfl, rfl, .inl rfl⟩
  | some contract =>
    -- the section written before the reconciliation is none that it looks at here
    generalize candidate.metadata.candidateFsm.written target reason stage source.eventId details
      now = fsm
    dsimp only
    rcases contract.reconcileCandidate_cases
        { candidate with metadata := { candidate.metadata with candidateFsm := fsm } } now with
      h | ⟨-, ⟨-, hactive, h⟩ | ⟨hstate, h⟩⟩
    · rw [h]
      exact ⟨rfl, rfl, rfl, rfl, rfl, .inl rfl⟩
    · rw [h]
      exact ⟨rfl, rfl, rfl, rfl, rfl, .inr (.inl ⟨hactive, rfl⟩)⟩
    · rw [h]
      exact ⟨rfl, rfl, rfl, rfl, rfl, .inr (.inr ⟨hstate, rfl⟩)⟩

theorem follows_promote (target : CandidateRuntimeState) (reason : String)
    (stage : CandidateBlockingStage) (source : TransitionSource) (details : Mapping)
    (now : String) :
    Follows candidate (service.promote candidate target reason stage source details now).1 := by
  unfold promote
  split
  · exact follows_apply ..
  · exact follows_apply ..

end CandidateFsmService

end TradingCore.Candidates
