import TradingCore.Candidates.Models

/-!
# The state contract of a candidate

`trading/strategy/candidate_state_contract.py`: what the legacy state of a candidate should be,
given its runtime state, its hydration and its sources, and the reconciliation that moves the
legacy state there where the contract allows it. `reconcileCandidate_cases` says once all that a
reconciliation can do.
-/

namespace TradingCore.Candidates

open Base Text

def legacyToV2State : CandidateState → CandidateRuntimeState
  | .detected => .discovered
  | .hydrating => .hydrating
  | .watching => .watching
  | .waitData => .watching
  | .ready => .timingReady
  | .orderDecided => .orderIntentCreated
  | .orderSent => .orderPending
  | .filled => .positionOpen
  | .blocked => .watching
  | .expired => .expired
  | .removed => .removed
  | .cancelled => .closed

/-- `CandidateStateContractService`: the switch of the contract, and the number that `float`
reads from a text, `none` where it raises. -/
structure CandidateStateContractService where
  enabled : Bool
  readFloat : String → Option Rat

/-- `_bool`. -/
def boolOf : Value → Bool
  | .bool b => b
  | value =>
      lower (strip (value.or (.str "")).text) ∈ ["1", "true", "yes", "y", "on"]

/-- The readiness as `_lifecycle_readiness` decides it. -/
def lifecycleReadiness (candidate : Candidate) (hydrated terminal : Bool) :
    CandidateLifecycleReadiness :=
  let status := match candidate.metadata.candidateHydration with
    | none => ""
    | some hydration => upper (hydration.status.or (.str "")).text
  if terminal then .terminal
  else if status = "RETRY_WAIT" then .hydrationRetryWait
  else if status = "FAILED" then .hydrationFailed
  else if candidate.state = .hydrating ∨ status = "PENDING" then .hydrating
  else if hydrated then .hydrationComplete
  else .discovered

def activeSourceExists (candidate : Candidate) : Bool :=
  match candidate.metadata.candidateIngestion with
  | none =>
      (candidate.state = .watching ∧ candidate.sources = []) ∨ candidate.sources ≠ [] ∨
        candidate.metadata.primarySource ≠ ""
  | some ingestion =>
      if ∃ item ∈ ingestion.activeSourceTypes, item ≠ "" then true
      else if ingestion.sourceMap.entries ≠ [] then ∃ entry ∈ ingestion.sourceMap.values, entry.active
      else
        candidate.sources ≠ [] ∨ candidate.metadata.primarySource ≠ "" ∨
          ingestion.primarySource ≠ ""

def isTerminal (candidate : Candidate) : Bool :=
  candidate.state ∈ [.removed, .expired, .cancelled]

/-- `v2_state` of the contract: a candidate that waits for data is not taken for a discovered
one. -/
def contractV2State (candidate : Candidate) : CandidateRuntimeState :=
  match CandidateRuntimeState.ofValue? candidate.metadata.candidateFsm.v2State with
  | some fsmState =>
      if candidate.state ∈ [.waitData, .watching] ∧ fsmState ∈ [.discovered, .hydrating] then
        legacyToV2State candidate.state
      else fsmState
  | none => legacyToV2State candidate.state

def eligibility (candidate : Candidate) (v2State : CandidateRuntimeState)
    (hydrated active terminal : Bool) : CandidateEvaluationEligibility :=
  if terminal then .terminal
  else
    let readiness := lifecycleReadiness candidate hydrated terminal
    if readiness = .hydrationRetryWait then .hydrationRetryWait
    else if readiness = .hydrationFailed then .hydrationFailed
    else if ¬ active then .noActiveSource
    else if ¬ hydrated then .hydrationIncomplete
    else if v2State ∉ [.watching, .setupReady, .timingReady] then .v2StateNotEvaluable
    else .eligible

def reconcileReason (previous target : CandidateState) : String :=
  if previous = .waitData ∧ target = .watching then "LEGACY_WAIT_DATA_CONTRACT_REPAIR"
  else if target = .watching then "HYDRATION_COMPLETE_EVALUATION_ELIGIBLE"
  else "CANDIDATE_STATE_CONTRACT_PROJECTED"

namespace CandidateStateContractService

def float (service : CandidateStateContractService) (value : Value) : Rat :=
  let text := strip (value.or (.str "0")).text
  (service.readFloat (.ofList (text.toList.filter (· ∉ [',', '+', '%'])))).getD 0

def basicHydrationPayloadComplete (service : CandidateStateContractService)
    (candidate : Candidate) (parsed : Mapping) : Bool :=
  let code := normalizeCode (if candidate.code ≠ "" then candidate.code else parsed.textOr "code")
  let price := service.float ((parsed.value "current_price").or (parsed.value "price"))
  let prevClose := service.float (parsed.value "prev_close")
  let changeRate := service.float ((parsed.value "change_rate").or (parsed.value "change_rate_pct"))
  code ≠ "" ∧ price > 0 ∧ (changeRate ≠ 0 ∨ prevClose > 0)

def hydrationComplete (service : CandidateStateContractService) (candidate : Candidate) : Bool :=
  match candidate.metadata.candidateHydration with
  | none => candidate.state = .watching
  | some hydration =>
      if boolOf hydration.basicHydrationComplete then true
      else if upper (hydration.status.or (.str "")).text ∉ ["ACKED", "MERGED", "OK"] then false
      else service.basicHydrationPayloadComplete candidate hydration.parsed

def projectLegacyState (service : CandidateStateContractService) (candidate : Candidate) :
    CandidateState :=
  if isTerminal candidate then candidate.state
  else
    let readiness := lifecycleReadiness candidate (service.hydrationComplete candidate) false
    match contractV2State candidate with
    | .discovered => .detected
    | .hydrating => .hydrating
    | .watching | .setupReady | .timingReady =>
        if readiness = .hydrationComplete then .watching else .waitData
    | .removed => .removed
    | .expired => .expired
    | .closed => .cancelled
    | _ => candidate.state

def snapshot (service : CandidateStateContractService) (candidate : Candidate) :
    CandidateStateContractSnapshot :=
  let v2State := contractV2State candidate
  let terminal := isTerminal candidate
  let active := activeSourceExists candidate
  let hydrated := service.hydrationComplete candidate
  let result := eligibility candidate v2State hydrated active terminal
  { code := normalizeCode candidate.code
    tradeDate := candidate.tradeDate
    durableState := candidate.state
    projectedState := service.projectLegacyState candidate
    v2State
    blockingStage := candidate.metadata.candidateFsm.blockingStage
    primaryReasonCode := candidate.metadata.candidateFsm.primaryReasonCode
    lifecycleReadiness := lifecycleReadiness candidate hydrated terminal
    evaluationEligibility := result
    evaluationEligible := result = .eligible
    hydrationComplete := hydrated
    activeSourceExists := active
    terminal }

def stateChangeAllowed (candidate : Candidate) (target : CandidateState)
    (snapshot : CandidateStateContractSnapshot) : Bool :=
  if isTerminal candidate then false
  else
    match target with
    | .watching =>
        snapshot.lifecycleReadiness = .hydrationComplete ∧ snapshot.hydrationComplete ∧
          snapshot.activeSourceExists
    | .waitData => candidate.state ∈ [.detected, .hydrating, .waitData]
    | _ => false

/-- The candidate with its legacy state moved to `target`. -/
def withState (service : CandidateStateContractService) (candidate : Candidate)
    (target : CandidateState) (now : String) : Candidate :=
  let reason := reconcileReason candidate.state target
  { candidate with
    state := target
    lastSeenAt := if candidate.lastSeenAt ≠ "" then candidate.lastSeenAt else now
    metadata := { candidate.metadata with
      candidateStateContract := some
        { snapshot := service.snapshot candidate
          reconciledAt := now
          reconcileReason := reason } } }

/-- `reconcile_candidate`: the candidate after it, and the snapshot it answers. -/
def reconcileCandidate (service : CandidateStateContractService) (candidate : Candidate)
    (now : String) : Candidate × CandidateStateContractSnapshot :=
  let snapshot := service.snapshot candidate
  if ¬ service.enabled ∨ snapshot.terminal then (candidate, snapshot)
  else
    let target := service.projectLegacyState candidate
    if candidate.state ≠ target ∧ stateChangeAllowed candidate target snapshot then
      let reconciled := service.withState candidate target now
      (reconciled, { service.snapshot reconciled with
        reconciled := true
        reconcileReason := reconcileReason candidate.state target })
    else (candidate, snapshot)

/-- All that a reconciliation can do: nothing, or move a live candidate to `WATCHING` when it is
hydrated and has an active source, or to `WAIT_DATA` from a stage before it. -/
theorem reconcileCandidate_cases (service : CandidateStateContractService)
    (candidate : Candidate) (now : String) :
    (service.reconcileCandidate candidate now).1 = candidate ∨
      isTerminal candidate = false ∧
        (service.hydrationComplete candidate = true ∧ activeSourceExists candidate = true ∧
            (service.reconcileCandidate candidate now).1 =
              service.withState candidate .watching now ∨
          candidate.state ∈ [.detected, .hydrating, .waitData] ∧
            (service.reconcileCandidate candidate now).1 =
              service.withState candidate .waitData now) := by
  unfold reconcileCandidate
  dsimp only
  by_cases hoff : ¬ service.enabled ∨ (service.snapshot candidate).terminal
  · exact .inl (by rw [if_pos hoff])
  · rw [if_neg hoff]
    have hlive : isTerminal candidate = false := by
      have hterminal : ¬ (service.snapshot candidate).terminal := fun h => hoff (.inr h)
      simpa [snapshot] using hterminal
    by_cases hmove : candidate.state ≠ service.projectLegacyState candidate ∧
        stateChangeAllowed candidate (service.projectLegacyState candidate)
          (service.snapshot candidate)
    · rw [if_pos hmove]
      refine .inr ⟨hlive, ?_⟩
      have hallowed := hmove.2
      generalize service.projectLegacyState candidate = target at hallowed ⊢
      unfold stateChangeAllowed at hallowed
      rw [hlive] at hallowed
      -- only the two targets below are ever allowed
      cases target <;> simp at hallowed
      case watching => exact .inl ⟨hallowed.2.1, hallowed.2.2, rfl⟩
      case waitData => exact .inr ⟨by simpa using hallowed, rfl⟩
    · exact .inl (by rw [if_neg hmove])

theorem reconcileCandidate_frame (service : CandidateStateContractService)
    (candidate : Candidate) (now : String) :
    ∃ state lastSeenAt contract, (service.reconcileCandidate candidate now).1 =
      { candidate with
        state := state
        lastSeenAt := lastSeenAt
        metadata := { candidate.metadata with candidateStateContract := contract } } := by
  rcases service.reconcileCandidate_cases candidate now with h | ⟨-, ⟨-, -, h⟩ | ⟨-, h⟩⟩
  · exact ⟨candidate.state, candidate.lastSeenAt, candidate.metadata.candidateStateContract, h⟩
  · exact ⟨_, _, _, h⟩
  · exact ⟨_, _, _, h⟩

end CandidateStateContractService

end TradingCore.Candidates
