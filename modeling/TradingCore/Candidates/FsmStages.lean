import TradingCore.Candidates.Fsm

/-!
# Stages that no event may roll back

From the order intent on, a candidate is meant to keep its runtime state whatever market data and
sources say of it, and a candidate that was removed, expired or closed to come back through a
condition include only. The handlers do not all look at the stage that a candidate has reached:
an include and a hydration request never do, a fresh tick does not, and a blocking reason goes by
the legacy state when that is `WAIT_DATA` or `WATCHING`. `holdsStages_iff` gives the runs in which
the stages are held.
-/

namespace TradingCore.Candidates

open Base List

/-! ## Held stages -/

namespace CandidateRuntimeState

/-- The stages from the order intent to the pending exit. -/
def InOrderStage (state : CandidateRuntimeState) : Prop :=
  state ∈ [orderIntentCreated, orderPending, positionOpen, exitPending]
deriving Decidable

def Ended (state : CandidateRuntimeState) : Prop := state ∈ [removed, expired, closed]
deriving Decidable

def Held (state : CandidateRuntimeState) : Prop := state.InOrderStage ∨ state.Ended
deriving Decidable

theorem Held.notMem {state : CandidateRuntimeState} (h : state.Held) :
    state ∉ [discovered, hydrating, watching, setupReady, timingReady] := by
  revert h
  cases state <;> decide

end CandidateRuntimeState

def FsmEvent.IsInclude : FsmEvent → Prop
  | .conditionInclude _ => True
  | _ => False

namespace CandidateFsmService

variable (service : CandidateFsmService)

/-- A candidate in an order stage stays at that stage, and one that ended is left by condition
includes only. -/
def HoldsStages (candidate : Candidate) (events : List (FsmEvent × String)) : Prop :=
  ((v2State candidate).InOrderStage →
      service.machine.Always (fun now => v2State now = v2State candidate) candidate events) ∧
    service.machine.Guarded (fun before event => (v2State before).Ended →
      v2State (service.machine.next before event) ≠ v2State before → event.1.IsInclude)
      candidate events

end CandidateFsmService

/-- The event finds the candidate as its handler needs it to leave the stage alone. No include
and no hydration request does; a hydration result and a tick must bring no fresh price; and the
legacy state must not be one that the handler prefers to the runtime state. -/
def LeavesStageAlone (candidate : Candidate) : FsmEvent → Prop
  | .conditionInclude _ => False
  | .conditionRemove _ => candidate.state = .removed → v2State candidate = .removed
  | .hydrationRequested => False
  | .hydrationResult _ => hasFreshRealtimeTick candidate = false ∧ ¬ waitsOrWatches candidate
  | .realtimeTick payload => freshRealtimePayload payload = false ∧ ¬ waitsOrWatches candidate
  | .blockingReason .. => ¬ waitsOrWatches candidate

/-! ## One event -/

section OneEvent

variable {candidate : Candidate}

theorem promoteTarget_of_held {target : CandidateRuntimeState} (h : target.Held) :
    promoteTarget candidate target = target := by
  have hnot := h.notMem
  simp only [mem_cons, not_or] at hnot
  simp [promoteTarget, hnot]

theorem legacyToV2State_of_waits (h : waitsOrWatches candidate) :
    legacyToV2State candidate.state = .watching := by
  unfold waitsOrWatches at h
  simp only [mem_cons, not_mem_nil, or_false] at h
  rcases h with h | h <;> rw [h] <;> rfl

section

variable (h : (v2State candidate).Held)
include h

theorem blockingTarget_eq_iff (stage : CandidateBlockingStage) :
    blockingTarget candidate stage = v2State candidate ↔ ¬ waitsOrWatches candidate := by
  have hnot := h.notMem
  simp only [mem_cons, not_or] at hnot
  unfold blockingTarget
  by_cases hwaits : waitsOrWatches candidate
  · -- the legacy state maps to `WATCHING`, which is no held stage
    simp [hwaits, legacyToV2State_of_waits hwaits, Ne.symm hnot.2.2.1]
  · simp [hwaits, hnot]

variable {service : CandidateFsmService}

theorem conditionIncludeTarget_ne :
    promoteTarget candidate (service.conditionIncludeTarget candidate) ≠ v2State candidate := by
  have hnot := h.notMem
  simp only [mem_cons, not_or] at hnot
  have htarget : service.conditionIncludeTarget candidate ∈
      [CandidateRuntimeState.watching, CandidateRuntimeState.discovered] := by
    unfold CandidateFsmService.conditionIncludeTarget
    simp only [mem_cons, hnot, not_mem_nil, or_self, if_false]
    split
    · split <;> simp
    · split <;> simp
  simp only [mem_cons, not_mem_nil, or_false] at htarget
  rcases htarget with htarget | htarget
  · simp [htarget, promoteTarget, Ne.symm hnot.2.2.1]
  · simp [htarget, promoteTarget, Ne.symm hnot.1]

theorem targetOf_eq_iff (event : FsmEvent) :
    service.targetOf candidate event = v2State candidate ↔ LeavesStageAlone candidate event := by
  have hnot := h.notMem
  simp only [mem_cons, not_or] at hnot
  unfold CandidateFsmService.targetOf LeavesStageAlone
  cases event with
  | conditionInclude payload => simp [conditionIncludeTarget_ne h]
  | conditionRemove payload =>
    by_cases hremoved : candidate.state = .removed
    · have htarget : promoteTarget candidate .removed = .removed :=
        promoteTarget_of_held (by decide)
      simp only [hremoved, if_true, htarget, true_imp_iff]
      exact eq_comm
    · simp [hremoved, promoteTarget_of_held h]
  | hydrationRequested => simp [Ne.symm hnot.2.1]
  | hydrationResult result =>
    by_cases hfresh : hasFreshRealtimeTick candidate = true
    · simp [hfresh, Ne.symm hnot.2.2.1]
    · simp [hfresh, blockingTarget_eq_iff h]
  | realtimeTick payload =>
    by_cases hfresh : freshRealtimePayload payload = true
    · simp [hfresh, Ne.symm hnot.2.2.1]
    · simp [hfresh, blockingTarget_eq_iff h]
  | blockingReason stage reason details source => exact blockingTarget_eq_iff h stage

end

end OneEvent

/-! ## Runs -/

namespace CandidateFsmService

variable {service : CandidateFsmService}

theorem always_orderStage_iff {candidate : Candidate} (h : (v2State candidate).InOrderStage)
    (events : List (FsmEvent × String)) :
    service.machine.Always (fun now => v2State now = v2State candidate) candidate events ↔
      service.machine.Guarded (fun before event => LeavesStageAlone before event.1) candidate
        events := by
  refine Machine.always_iff_guarded (I := fun _ => True)
    (P := fun now => v2State now = v2State candidate) (fun _ _ _ _ _ => trivial) ?_ trivial rfl
  intro before event _ hbefore
  have hheld : (v2State before).Held := by
    rw [hbefore]
    exact .inl h
  rw [v2State_next, ← hbefore]
  exact targetOf_eq_iff hheld event.1

/-- The stages are held along a run exactly if, while the candidate is in the order stage it
started in, every event leaves that stage alone, and every event but an include that meets an
ended candidate leaves it alone. -/
theorem holdsStages_iff (service : CandidateFsmService) (candidate : Candidate)
    (events : List (FsmEvent × String)) :
    service.HoldsStages candidate events ↔
      ((v2State candidate).InOrderStage →
          service.machine.Guarded (fun before event => LeavesStageAlone before event.1) candidate
            events) ∧
        service.machine.Guarded (fun before event => (v2State before).Ended →
          ¬ event.1.IsInclude → LeavesStageAlone before event.1) candidate events := by
  unfold HoldsStages
  refine and_congr (forall_congr' fun h => always_orderStage_iff h events) ?_
  refine Machine.guarded_iff_guarded (I := fun _ => True) (fun _ _ _ _ => trivial) ?_ trivial
  intro before event _
  refine forall_congr' fun hended => ?_
  rw [v2State_next, ne_eq, targetOf_eq_iff (.inr hended)]
  exact not_imp_comm

/-! ## Fixed runs -/

/-- A held stock is included again by a condition: it is taken for newly discovered. -/
theorem included_position_is_discovered :
    ¬ HoldsStages ⟨some { enabled := true, readFloat := fun _ => none }⟩
      { tradeDate := "2026-06-17"
        code := "005930"
        sources := [.conditionSearch]
        state := .filled
        metadata := { candidateFsm := { v2State := "POSITION_OPEN" } } }
      [(.conditionInclude .empty, "2026-06-17T09:30:00")] := by
  intro h
  have hstays := (h.1 (by decide)).2
  exact absurd hstays (by decide)

end CandidateFsmService

end TradingCore.Candidates
