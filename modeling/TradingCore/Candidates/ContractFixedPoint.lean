import TradingCore.Candidates.StateContract

/-!
# The fixed point of the state contract

A reconciliation settles a candidate if a second one changes nothing, and if the candidate is
eligible for evaluation afterwards only in the legacy state `WATCHING`. `settles_iff` says exactly
which candidates are settled.

Eligibility does not ask for the legacy state, and the projection has a rule of its own: a candidate
that is `HYDRATING`, or whose hydration is `PENDING`, is not complete, whatever its data say. So a
hydrated candidate in `HYDRATING` first goes to `WAIT_DATA`, where it counts as eligible, and only a
second reconciliation brings it to `WATCHING`.
-/

namespace TradingCore.Candidates

open Base

/-! ## Readiness and eligibility -/

/-- The status of the hydration, as the contract reads it. -/
def hydrationStatus (candidate : Candidate) : String :=
  match candidate.metadata.candidateHydration with
  | none => ""
  | some hydration => Text.upper (hydration.status.or (.str "")).text

def CandidateRuntimeState.evaluable (state : CandidateRuntimeState) : Bool :=
  state ∈ [watching, setupReady, timingReady]

theorem lifecycleReadiness_live (candidate : Candidate) (hydrated : Bool) :
    lifecycleReadiness candidate hydrated false =
      if hydrationStatus candidate = "RETRY_WAIT" then .hydrationRetryWait
      else if hydrationStatus candidate = "FAILED" then .hydrationFailed
      else if candidate.state = .hydrating ∨ hydrationStatus candidate = "PENDING" then .hydrating
      else if hydrated then .hydrationComplete
      else .discovered := by
  unfold lifecycleReadiness
  rfl

/-- When the readiness of a live candidate is `HYDRATION_COMPLETE`. -/
theorem readiness_complete_iff {candidate : Candidate} {hydrated : Bool} :
    lifecycleReadiness candidate hydrated false = .hydrationComplete ↔
      hydrationStatus candidate ∉ ["RETRY_WAIT", "FAILED"] ∧ candidate.state ≠ .hydrating ∧
        hydrationStatus candidate ≠ "PENDING" ∧ hydrated = true := by
  rw [lifecycleReadiness_live]
  by_cases hretry : hydrationStatus candidate = "RETRY_WAIT"
  · simp [hretry]
  · by_cases hfailed : hydrationStatus candidate = "FAILED"
    · simp [hfailed]
    · by_cases hhydrating : candidate.state = .hydrating ∨ hydrationStatus candidate = "PENDING"
      · simp only [if_neg hretry, if_neg hfailed, if_pos hhydrating, reduceCtorEq, false_iff]
        rintro ⟨-, hstate, hpending, -⟩
        exact hhydrating.elim hstate hpending
      · have hboth := not_or.mp hhydrating
        cases hydrated <;> simp [hretry, hfailed, hboth.1, hboth.2]

namespace CandidateStateContractService

variable {service : CandidateStateContractService} {candidate : Candidate} {now : String}

theorem eligible_iff :
    (service.snapshot candidate).evaluationEligible = true ↔
      isTerminal candidate = false ∧ hydrationStatus candidate ∉ ["RETRY_WAIT", "FAILED"] ∧
        activeSourceExists candidate = true ∧ service.hydrationComplete candidate = true ∧
          (contractV2State candidate).evaluable = true := by
  show decide (eligibility candidate _ _ _ _ = .eligible) = true ↔ _
  rw [decide_eq_true_iff]
  unfold eligibility
  cases hterminal : isTerminal candidate with
  | true => simp
  | false =>
    simp only [Bool.false_eq_true, if_false]
    rw [lifecycleReadiness_live]
    by_cases hretry : hydrationStatus candidate = "RETRY_WAIT"
    · simp [hretry]
    by_cases hfailed : hydrationStatus candidate = "FAILED"
    · simp [hfailed]
    simp only [if_neg hretry, if_neg hfailed]
    have hother : ∀ readiness : CandidateLifecycleReadiness, readiness =
        (if candidate.state = .hydrating ∨ hydrationStatus candidate = "PENDING" then .hydrating
        else if service.hydrationComplete candidate then .hydrationComplete else .discovered) →
          readiness ≠ .hydrationRetryWait ∧ readiness ≠ .hydrationFailed := by
      rintro readiness rfl
      split
      · simp
      · split <;> simp
    obtain ⟨hnotRetry, hnotFailed⟩ := hother _ rfl
    rw [if_neg hnotRetry, if_neg hnotFailed]
    cases activeSourceExists candidate with
    | false => simp
    | true =>
      cases service.hydrationComplete candidate with
      | false => simp
      | true =>
        simp only [not_true_eq_false, if_false]
        by_cases hstate : (contractV2State candidate).evaluable = true
        · have hmem : contractV2State candidate ∈
              [.watching, .setupReady, .timingReady] := of_decide_eq_true hstate
          rw [if_neg (not_not.mpr hmem)]
          simp [hretry, hfailed, hstate]
        · have hmem : contractV2State candidate ∉
              [.watching, .setupReady, .timingReady] := fun h => hstate (decide_eq_true h)
          rw [if_pos hmem]
          simp [hstate]

/-! ## What one reconciliation does -/

theorem reconcile_eq_self (h : service.enabled = false ∨ isTerminal candidate = true ∨
    (contractV2State candidate).evaluable = false) :
    (service.reconcileCandidate candidate now).1 = candidate := by
  unfold reconcileCandidate
  by_cases hoff : ¬ service.enabled ∨ (service.snapshot candidate).terminal
  · simp only [if_pos hoff]
  · simp only [if_neg hoff]
    have hon : service.enabled = true := by simpa using fun h => hoff (.inl h)
    have hlive : isTerminal candidate = false := by
      have hterminal : ¬ (service.snapshot candidate).terminal := fun h => hoff (.inr h)
      simpa [snapshot] using hterminal
    rcases h with h | h | hstate
    · rw [hon] at h
      cases h
    · rw [hlive] at h
      cases h
    -- the projection is the legacy state itself, or one that no reconciliation may choose
    have hstay : ¬ (candidate.state ≠ service.projectLegacyState candidate ∧
        stateChangeAllowed candidate (service.projectLegacyState candidate)
          (service.snapshot candidate)) := by
      rintro ⟨hne, hallowed⟩
      unfold stateChangeAllowed projectLegacyState at hallowed
      unfold projectLegacyState at hne
      rw [hlive] at hne hallowed
      cases hv2 : contractV2State candidate with
      | watching => rw [hv2] at hstate; cases hstate
      | setupReady => rw [hv2] at hstate; cases hstate
      | timingReady => rw [hv2] at hstate; cases hstate
      | _ => simp [hv2] at hne hallowed
    rw [if_neg hstay]

/-- An evaluated candidate goes to `WATCHING` when it is complete and has a source, and to
`WAIT_DATA` when it is not complete and still at the beginning. -/
theorem reconcile_evaluable (hon : service.enabled = true) (hlive : isTerminal candidate = false)
    (hstate : (contractV2State candidate).evaluable = true) :
    (service.reconcileCandidate candidate now).1 =
      if lifecycleReadiness candidate (service.hydrationComplete candidate) false =
          .hydrationComplete then
        if candidate.state ≠ .watching ∧ activeSourceExists candidate = true then
          service.withState candidate .watching now
        else candidate
      else if candidate.state ∈ [.detected, .hydrating] then
        service.withState candidate .waitData now
      else candidate := by
  have hproject : service.projectLegacyState candidate =
      if lifecycleReadiness candidate (service.hydrationComplete candidate) false =
        .hydrationComplete then .watching else .waitData := by
    unfold projectLegacyState
    rw [hlive]
    cases hv2 : contractV2State candidate with
    | watching => rfl
    | setupReady => rfl
    | timingReady => rfl
    | _ => rw [hv2] at hstate; cases hstate
  have hterminal : (service.snapshot candidate).terminal = false := hlive
  have hreadiness : (service.snapshot candidate).lifecycleReadiness =
      lifecycleReadiness candidate (service.hydrationComplete candidate) false := by
    show lifecycleReadiness candidate _ (isTerminal candidate) = _
    rw [hlive]
  unfold reconcileCandidate
  simp only [hon, hterminal, not_true_eq_false, Bool.false_eq_true, or_self, if_false, hproject]
  by_cases hcomplete : lifecycleReadiness candidate (service.hydrationComplete candidate) false =
      .hydrationComplete
  · have hhydrated := (readiness_complete_iff.mp hcomplete).2.2.2
    simp only [if_pos hcomplete]
    have hallowed : stateChangeAllowed candidate .watching (service.snapshot candidate) =
        activeSourceExists candidate := by
      unfold stateChangeAllowed
      rw [hlive, hreadiness, hcomplete]
      simp [snapshot, hhydrated]
    rw [hallowed]
    split <;> rfl
  · simp only [if_neg hcomplete]
    have hallowed : stateChangeAllowed candidate .waitData (service.snapshot candidate) =
        decide (candidate.state ∈ [.detected, .hydrating, .waitData]) := by
      unfold stateChangeAllowed
      rw [hlive]
      simp
    rw [hallowed]
    cases hcandidate : candidate.state <;> simp

/-! ## What a change of the legacy state leaves alone -/

section WithState

variable {target : CandidateState}

@[simp] theorem state_withState : (service.withState candidate target now).state = target := rfl

theorem hydrationStatus_withState :
    hydrationStatus (service.withState candidate target now) = hydrationStatus candidate := rfl

theorem hydrationComplete_withState (hfrom : candidate.state ≠ .watching)
    (hto : target ≠ .watching) :
    service.hydrationComplete (service.withState candidate target now) =
      service.hydrationComplete candidate := by
  show (match candidate.metadata.candidateHydration with
    | none => decide (target = CandidateState.watching)
    | some _ => _) = _
  unfold hydrationComplete
  cases candidate.metadata.candidateHydration with
  | none => simp [hfrom, hto]
  | some hydration => rfl

theorem activeSourceExists_withState (hfrom : candidate.state ≠ .watching)
    (hto : target ≠ .watching) :
    activeSourceExists (service.withState candidate target now) = activeSourceExists candidate := by
  unfold activeSourceExists
  dsimp only [withState]
  cases candidate.metadata.candidateIngestion with
  | none =>
    show decide ((target = .watching ∧ _) ∨ _) = decide ((candidate.state = .watching ∧ _) ∨ _)
    simp only [hfrom, hto, false_and, false_or]
  | some ingestion => rfl

/-- A candidate that is evaluated stays so when it goes to `WAIT_DATA` or `WATCHING`. -/
theorem evaluable_withState (hstate : (contractV2State candidate).evaluable = true)
    (hto : target ∈ [.waitData, .watching]) :
    (contractV2State (service.withState candidate target now)).evaluable = true := by
  have hlegacy : (legacyToV2State target).evaluable = true := by
    simp only [List.mem_cons, List.not_mem_nil, or_false] at hto
    rcases hto with rfl | rfl <;> rfl
  unfold contractV2State at hstate ⊢
  dsimp only [withState]
  cases hraw : CandidateRuntimeState.ofValue? candidate.metadata.candidateFsm.v2State with
  | none => exact hlegacy
  | some fsmState =>
    rw [hraw] at hstate
    show (if target ∈ [.waitData, .watching] ∧ fsmState ∈ [.discovered, .hydrating] then
      legacyToV2State target else fsmState).evaluable = true
    by_cases hearly : fsmState ∈ [.discovered, .hydrating]
    · rw [if_pos ⟨hto, hearly⟩]
      exact hlegacy
    · rw [if_neg fun h => hearly h.2]
      simpa only [hearly, and_false, if_false] using hstate

theorem isTerminal_withState (hto : target ∈ [.waitData, .watching]) :
    isTerminal (service.withState candidate target now) = false := by
  simp only [List.mem_cons, List.not_mem_nil, or_false] at hto
  show decide (target ∈ [.removed, .expired, .cancelled]) = false
  rcases hto with rfl | rfl <;> rfl

end WithState

/-! ## The candidates that settle -/

/-- A second reconciliation changes nothing, and eligible means `WATCHING`. -/
def Settles (service : CandidateStateContractService) (candidate : Candidate) (now : String) :
    Prop :=
  let reconciled := (service.reconcileCandidate candidate now).1
  (service.reconcileCandidate reconciled now).1 = reconciled ∧
    ((service.snapshot reconciled).evaluationEligible = true → reconciled.state = .watching)

/-- The candidate would be evaluated: it has the data, a source and a runtime state for it, and
its hydration did not fail. -/
def Evaluated (service : CandidateStateContractService) (candidate : Candidate) : Prop :=
  isTerminal candidate = false ∧ hydrationStatus candidate ∉ ["RETRY_WAIT", "FAILED"] ∧
    activeSourceExists candidate = true ∧ service.hydrationComplete candidate = true ∧
      (contractV2State candidate).evaluable = true

/-- The contract is switched on, and neither the legacy state nor the status of the hydration
says that the hydration still runs. -/
def Projected (service : CandidateStateContractService) (candidate : Candidate) : Prop :=
  service.enabled = true ∧ candidate.state ≠ .hydrating ∧ hydrationStatus candidate ≠ "PENDING"

/-- A candidate that a reconciliation leaves alone is settled iff it is not evaluated or is in
`WATCHING`. -/
theorem settles_of_eq_self (h : (service.reconcileCandidate candidate now).1 = candidate) :
    service.Settles candidate now ↔
      (service.Evaluated candidate → candidate.state = .watching) := by
  unfold Settles
  dsimp only
  rw [h, h, eligible_iff]
  exact ⟨fun hsettles => hsettles.2, fun hsettles => ⟨rfl, hsettles⟩⟩

/-- Being evaluated does not change when a candidate goes to `WAIT_DATA`. -/
theorem evaluated_withState (hfrom : candidate.state ≠ .watching)
    (hlive : isTerminal candidate = false)
    (hstate : (contractV2State candidate).evaluable = true) :
    service.Evaluated (service.withState candidate .waitData now) ↔ service.Evaluated candidate := by
  unfold Evaluated
  rw [isTerminal_withState (by simp), hydrationStatus_withState,
    activeSourceExists_withState hfrom (by simp), hydrationComplete_withState hfrom (by simp),
    evaluable_withState hstate (by simp), hlive, hstate]

/-- A candidate in `WATCHING` stays there. -/
theorem reconcile_watching (hstate : candidate.state = .watching) :
    (service.reconcileCandidate candidate now).1 = candidate := by
  by_cases hself : service.enabled = false ∨ isTerminal candidate = true ∨
      (contractV2State candidate).evaluable = false
  · exact reconcile_eq_self hself
  · simp only [not_or, Bool.not_eq_false, Bool.not_eq_true] at hself
    rw [reconcile_evaluable hself.1 hself.2.1 hself.2.2, hstate]
    simp

/-- A candidate in `WAIT_DATA` that is not evaluated stays there. -/
theorem reconcile_waitData (hstate : candidate.state = .waitData)
    (hnot : ¬ service.Evaluated candidate) :
    (service.reconcileCandidate candidate now).1 = candidate := by
  by_cases hself : service.enabled = false ∨ isTerminal candidate = true ∨
      (contractV2State candidate).evaluable = false
  · exact reconcile_eq_self hself
  · simp only [not_or, Bool.not_eq_false, Bool.not_eq_true] at hself
    obtain ⟨hon, hlive, hevaluable⟩ := hself
    rw [reconcile_evaluable hon hlive hevaluable]
    by_cases hcomplete : lifecycleReadiness candidate (service.hydrationComplete candidate) false =
        .hydrationComplete
    · have hready := readiness_complete_iff.mp hcomplete
      have hinactive : activeSourceExists candidate ≠ true := fun hactive =>
        hnot ⟨hlive, hready.1, hactive, hready.2.2.2, hevaluable⟩
      rw [if_pos hcomplete, if_neg fun h => hinactive h.2]
    · rw [if_neg hcomplete, hstate]
      simp

theorem not_projected (hcomplete : lifecycleReadiness candidate
    (service.hydrationComplete candidate) false ≠ .hydrationComplete)
    (hevaluated : service.Evaluated candidate) : ¬ service.Projected candidate := by
  rintro ⟨-, hstate, hpending⟩
  exact hcomplete (readiness_complete_iff.mpr
    ⟨hevaluated.2.1, hstate, hpending, hevaluated.2.2.2.1⟩)

/-- A candidate settles in one step iff it is not evaluated at all, is in `WATCHING` already, or
nothing says that its hydration still runs. -/
theorem settles_iff (service : CandidateStateContractService) (candidate : Candidate)
    (now : String) :
    service.Settles candidate now ↔
      (service.Evaluated candidate → candidate.state = .watching ∨ service.Projected candidate) := by
  by_cases hself : service.enabled = false ∨ isTerminal candidate = true ∨
      (contractV2State candidate).evaluable = false
  · -- nothing happens
    rw [settles_of_eq_self (reconcile_eq_self hself)]
    refine forall_congr' fun hevaluated => ?_
    have hoff : service.enabled = false := by
      rcases hself with hoff | hterminal | hstate
      · exact hoff
      · exact absurd (hevaluated.1.symm.trans hterminal) (by simp)
      · exact absurd (hevaluated.2.2.2.2.symm.trans hstate) (by simp)
    refine ⟨Or.inl, ?_⟩
    rintro (hwatching | hprojected)
    · exact hwatching
    · exact absurd (hprojected.1.symm.trans hoff) (by simp)
  · simp only [not_or, Bool.not_eq_false, Bool.not_eq_true] at hself
    obtain ⟨hon, hlive, hstate⟩ := hself
    have hstep : (service.reconcileCandidate candidate now).1 = _ :=
      reconcile_evaluable hon hlive hstate
    by_cases hcomplete : lifecycleReadiness candidate (service.hydrationComplete candidate) false =
        .hydrationComplete
    · rw [if_pos hcomplete] at hstep
      by_cases hmove : candidate.state ≠ .watching ∧ activeSourceExists candidate = true
      · -- it goes to `WATCHING` and stays there
        rw [if_pos hmove] at hstep
        have hprojected : service.Projected candidate :=
          ⟨hon, (readiness_complete_iff.mp hcomplete).2.1,
            (readiness_complete_iff.mp hcomplete).2.2.1⟩
        refine iff_of_true ?_ fun _ => Or.inr hprojected
        unfold Settles
        rw [hstep]
        exact ⟨reconcile_watching rfl, fun _ => rfl⟩
      · rw [if_neg hmove] at hstep
        have hwatching : service.Evaluated candidate → candidate.state = .watching := by
          intro hevaluated
          by_contra hne
          exact hmove ⟨hne, hevaluated.2.2.1⟩
        rw [settles_of_eq_self hstep]
        exact iff_of_true hwatching fun hevaluated => Or.inl (hwatching hevaluated)
    · rw [if_neg hcomplete] at hstep
      have hwaits := not_projected hcomplete
      by_cases hmove : candidate.state ∈ [.detected, .hydrating]
      · -- it goes to `WAIT_DATA`; it stays there, and is not eligible, iff it is not evaluated
        rw [if_pos hmove] at hstep
        have hfrom : candidate.state ≠ .watching := by
          intro hwatching
          rw [hwatching] at hmove
          simp at hmove
        have hsame := @evaluated_withState service candidate now hfrom hlive hstate
        have hright : (service.Evaluated candidate →
            candidate.state = .watching ∨ service.Projected candidate) ↔
              ¬ service.Evaluated candidate :=
          ⟨fun h hevaluated => (h hevaluated).elim hfrom (hwaits hevaluated),
            fun h hevaluated => absurd hevaluated h⟩
        rw [hright]
        unfold Settles
        rw [hstep]
        constructor
        · intro hsettles hevaluated
          have heligible := hsettles.2 (eligible_iff.mpr (hsame.mpr hevaluated))
          exact absurd heligible (by simp)
        · intro hnot
          refine ⟨reconcile_waitData (by simp) fun h => hnot (hsame.mp h), ?_⟩
          exact fun heligible => absurd (hsame.mp (eligible_iff.mp heligible)) hnot
      · rw [if_neg hmove] at hstep
        rw [settles_of_eq_self hstep]
        exact ⟨fun h hevaluated => Or.inl (h hevaluated),
          fun h hevaluated => (h hevaluated).resolve_right (hwaits hevaluated)⟩

/-! ## A fixed run -/

/-- A candidate whose hydration is acknowledged while its row still says `HYDRATING`. -/
def hydratedCandidate : Candidate :=
  { tradeDate := "2026-01-05", code := "005930", state := .hydrating, sources := [.condition]
    metadata := {
      candidateFsm := { v2State := "WATCHING" }
      candidateHydration := some
        { status := .str "ACKED", basicHydrationComplete := .bool true } } }

/-- The first reconciliation takes it to `WAIT_DATA`, where it is eligible for evaluation. -/
theorem hydrated_candidate_needs_two_steps :
    let service : CandidateStateContractService := { enabled := true, readFloat := fun _ => none }
    ¬ service.Settles hydratedCandidate "2026-01-05T09:30:00" := by
  intro service hsettles
  have hfirst : (service.reconcileCandidate hydratedCandidate "2026-01-05T09:30:00").1.state =
      .waitData := by decide
  have heligible : (service.snapshot (service.reconcileCandidate hydratedCandidate
      "2026-01-05T09:30:00").1).evaluationEligible = true := by decide
  exact absurd (hsettles.2 heligible) (by rw [hfirst]; decide)

end CandidateStateContractService

end TradingCore.Candidates
