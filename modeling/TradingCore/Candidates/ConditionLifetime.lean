import TradingCore.Candidates.ConditionSteps

/-!
# How long a condition candidate lives

`CandidateLifecycle` and the remaining operations of `CandidateCollector`
(`trading/strategy/candidates.py`), with other services moving the candidates between states.
Neither the removal nor the expiry knows the states in which a candidate waits for its data.
The texts of the errors are left out.
-/

namespace TradingCore.Candidates

open Base Dict CandidateCollector

/-! ## The lifecycle -/

namespace CandidateLifecycle

def allowed : CandidateState → List CandidateState
  | .detected => [.hydrating, .watching, .waitData, .blocked, .removed, .expired]
  | .hydrating => [.watching, .waitData, .blocked, .removed, .expired]
  | .watching => [.detected, .hydrating, .waitData, .ready, .blocked, .removed, .expired]
  | .waitData => [.hydrating, .watching, .blocked, .removed, .expired]
  | .ready => [.watching, .waitData, .blocked, .removed, .expired]
  | .blocked => [.hydrating, .watching, .waitData, .ready, .removed, .expired]
  | .removed => [.detected]
  | .expired => [.detected]
  | _ => []

/-- Whether `validate_transition` returns. -/
def validateTransition (fromState : Option CandidateState) (toState : CandidateState) : Bool :=
  if toState ∈ [.orderDecided, .orderSent, .filled, .cancelled] then false
  else
    match fromState with
    | none => toState = .detected
    | some fromState => fromState = toState ∨ toState ∈ allowed fromState

end CandidateLifecycle

namespace CandidateCollector

def watched (candidate : Candidate) : Candidate :=
  { candidate with state := .watching, blockType := .none, canRecover := false, recheckAfterSec := 0 }

section
variable (parseDatetime : String → Int) (current : Int) (keepAlive : Candidate → Bool)

/-- The candidate is at or past its time to live, and nothing keeps it. -/
def Due (candidate : Candidate) : Prop :=
  candidate.expiresAt ≠ "" ∧ parseDatetime candidate.expiresAt ≤ current ∧
    keepAlive candidate = false
deriving Decidable

/-- `expire_stale` does not skip the state. -/
def Expirable (candidate : Candidate) : Prop :=
  (candidate.state = .blocked → candidate.blockType = .temporary) ∧
    candidate.state ∈ [.detected, .watching, .ready, .blocked]
deriving Decidable

def expireStale (table : CandidateTable) (today : String) : CandidateTable :=
  table.mapVals fun _ candidate =>
    if candidate.tradeDate = today ∧ Expirable candidate ∧ Due parseDatetime current keepAlive candidate then
      { candidate with state := .expired }
    else candidate

end

end CandidateCollector

/-! ## Calls -/

/-- A call of the collector, or a move that another service makes. -/
inductive LifeCall
  | included (event : BrokerConditionEvent) (clock : Clock)
  | removed (event : BrokerConditionEvent) (clock : Clock)
  | markWatching (key : String × String)
  | expireStale (today : String) (current : Int) (keepAlive : Candidate → Bool)
  | moved (key : String × String) (state : CandidateState) (blockType : BlockType)

namespace LifeCall

variable (parseDatetime : String → Int)

def perform (table : CandidateTable) : LifeCall → CandidateTable
  | included event clock => handleConditionInclude table event clock
  | removed event clock => handleConditionRemove table event clock
  | markWatching key =>
      match table.get? key with
      | none => table
      | some candidate =>
          if CandidateLifecycle.validateTransition candidate.state .watching then
            table.save (watched candidate)
          else table
  | expireStale today current keepAlive =>
      CandidateCollector.expireStale parseDatetime current keepAlive table today
  | moved key state blockType =>
      match table.get? key with
      | none => table
      | some candidate => table.save { candidate with state, blockType }

/-- The transitions that a call asks the lifecycle for. -/
def transitions (table : CandidateTable) : LifeCall → List (Option CandidateState × CandidateState)
  | included event clock =>
      if ¬ isValidStockCode event.code then []
      else
        match table.get? (event.candidateKey clock) with
        | none => [(none, .detected)]
        | some existing =>
            if existing.state ∈ [.removed, .expired] then [(some existing.state, .detected)] else []
  | removed event clock =>
      if ¬ isValidStockCode event.code then []
      else
        match table.get? (event.candidateKey clock) with
        | none => []
        | some candidate =>
            if (CandidateCollector.withdrawn candidate event clock).sources = [] ∧
                candidate.state ∈ [.detected, .watching, .ready, .blocked] then
              [(some candidate.state, .removed)]
            else []
  | markWatching key =>
      match table.get? key with
      | none => []
      | some candidate => [(some candidate.state, .watching)]
  | expireStale today current keepAlive =>
      (table.values.filter fun candidate =>
        candidate.tradeDate = today ∧ Expirable candidate ∧
          Due parseDatetime current keepAlive candidate).map fun candidate =>
        (some candidate.state, .expired)
  | moved _ _ _ => []

/-- The call raises: the candidate is missing, or the lifecycle refuses a transition. -/
def Raises (table : CandidateTable) (call : LifeCall) : Prop :=
  (match call with
    | markWatching key => table.get? key = none
    | _ => False) ∨
  ∃ change ∈ call.transitions parseDatetime table,
    CandidateLifecycle.validateTransition change.1 change.2 = false

/-- What is asked of a call: it does not raise, the removal of the last condition of a candidate
without other sources leaves it removed, and no such candidate of the day outlives its time. -/
def EndsLives (table : CandidateTable) (call : LifeCall) : Prop :=
  ¬ call.Raises parseDatetime table ∧
    match call with
    | removed event clock =>
        isValidStockCode event.code = true → ∀ candidate ∈ table.get? (event.candidateKey clock),
          candidate.sources = [.condition] → candidate.conditionNames = [event.conditionName] →
            ∀ candidate' ∈ (call.perform parseDatetime table).get? (event.candidateKey clock),
              candidate'.state = .removed
    | expireStale today current keepAlive =>
        ∀ key candidate, table.get? key = some candidate → candidate.tradeDate = today →
          candidate.sources = [.condition] →
          CandidateCollector.Due parseDatetime current keepAlive candidate →
            ∀ candidate' ∈ (call.perform parseDatetime table).get? key,
              candidate'.state ∈ [CandidateState.removed, .expired]
    | _ => True

/-- The states that the calls know: a condition leaves no candidate that waits for data or has
expired, the time to live ends for none that waits for data or is blocked for longer, and what is
watched is there and open. -/
def Covered (table : CandidateTable) : LifeCall → Prop
  | removed event clock =>
      isValidStockCode event.code = true → ∀ candidate ∈ table.get? (event.candidateKey clock),
        candidate.sources = [.condition] → candidate.conditionNames = [event.conditionName] →
          candidate.state ∈ [.detected, .watching, .ready, .blocked, .removed]
  | expireStale today current keepAlive =>
      ∀ key candidate, table.get? key = some candidate → candidate.tradeDate = today →
        candidate.sources = [.condition] →
        Due parseDatetime current keepAlive candidate →
          Expirable candidate ∨ candidate.state ∈ [.removed, .expired]
  | markWatching key =>
      ∃ candidate ∈ table.get? key,
        candidate.state ∈ [.detected, .hydrating, .watching, .waitData, .ready, .blocked]
  | _ => True

def machine : Machine CandidateTable LifeCall Unit :=
  ⟨fun table call => (call.perform parseDatetime table, ())⟩

end LifeCall

/-! ## One call -/

/-- Every candidate is stored under its own key. -/
def CandidateTable.Keyed (table : CandidateTable) : Prop :=
  ∀ key, ∀ candidate ∈ table.get? key, (candidate.tradeDate, candidate.code) = key

theorem CandidateTable.Keyed.save {table : CandidateTable} (h : table.Keyed)
    (candidate : Candidate) : (table.save candidate).Keyed := by
  intro key found hfound
  rw [get?_save rfl] at hfound
  split at hfound
  · rename_i hkey
    rw [hkey, ← Option.some.inj hfound]
  · exact h key found hfound

namespace LifeCall

variable {parseDatetime : String → Int} {table : CandidateTable}

theorem keyed_perform (h : table.Keyed) (call : LifeCall) :
    CandidateTable.Keyed (call.perform parseDatetime table) := by
  cases call with
  | included event clock =>
    unfold perform handleConditionInclude
    dsimp only
    split
    · exact h
    · split
      · exact h.save _
      · exact h.save _
  | removed event clock =>
    unfold perform handleConditionRemove
    dsimp only
    split
    · exact h
    · split
      · exact h
      · exact h.save _
  | markWatching key =>
    unfold perform
    dsimp only
    split
    · exact h
    · split
      · exact h.save _
      · exact h
  | expireStale today current keepAlive =>
    intro key found hfound
    unfold perform CandidateCollector.expireStale at hfound
    dsimp only at hfound
    rw [get?_mapVals] at hfound
    obtain ⟨candidate, hget, rfl⟩ := Option.map_eq_some_iff.mp hfound
    have hkey := h key candidate hget
    split
    · exact hkey
    · exact hkey
  | moved key state blockType =>
    unfold perform
    dsimp only
    split
    · exact h
    · exact h.save _

theorem raises_iff (call : LifeCall) : call.Raises parseDatetime table ↔
    ∃ key, call = markWatching key ∧
      ¬ ∃ candidate ∈ table.get? key,
        candidate.state ∈ [.detected, .hydrating, .watching, .waitData, .ready, .blocked] := by
  have hallowed : ∀ from_ ∈ [CandidateState.detected, .watching, .ready, .blocked],
      CandidateLifecycle.validateTransition from_ .removed = true ∧
        CandidateLifecycle.validateTransition from_ .expired = true := by decide
  have hreopened : ∀ from_ ∈ [CandidateState.removed, .expired],
      CandidateLifecycle.validateTransition from_ .detected = true := by decide
  unfold Raises transitions
  cases call with
  | included event clock =>
    refine iff_of_false ?_ (by simp)
    dsimp only
    split
    · simp
    · split
      · simp [CandidateLifecycle.validateTransition]
      · split
        · rename_i hstate
          simp [hreopened _ hstate]
        · simp
  | removed event clock =>
    refine iff_of_false ?_ (by simp)
    dsimp only
    split
    · simp
    · split
      · simp
      · split
        · rename_i hstate
          simp [(hallowed _ hstate.2).1]
        · simp
  | markWatching key =>
    dsimp only
    cases hget : table.get? key with
    | none => simp [hget]
    | some candidate =>
      have hwatch : CandidateLifecycle.validateTransition candidate.state .watching = false ↔
          candidate.state ∉ [.detected, .hydrating, .watching, .waitData, .ready, .blocked] := by
        cases candidate.state <;> decide
      simpa [hget] using hwatch
  | expireStale today current keepAlive =>
    refine iff_of_false ?_ (by simp)
    rintro (hmissing | ⟨change, hchange, hrefused⟩)
    · exact hmissing
    · obtain ⟨candidate, hmem, rfl⟩ := List.mem_map.mp hchange
      have hfilter := of_decide_eq_true (List.mem_filter.mp hmem).2
      rw [(hallowed _ hfilter.2.1.2).2] at hrefused
      cases hrefused
  | moved key state blockType => exact iff_of_false (by simp) (by simp)

theorem endsLives_iff (h : table.Keyed) (call : LifeCall) :
    call.EndsLives parseDatetime table ↔ call.Covered parseDatetime table := by
  unfold EndsLives Covered
  rw [raises_iff]
  cases call with
  | included event clock => simp
  | moved key state blockType => simp
  | markWatching key =>
    constructor
    · rintro ⟨hraises, -⟩
      by_contra hnone
      exact hraises ⟨key, rfl, hnone⟩
    · intro hfound
      refine ⟨?_, trivial⟩
      rintro ⟨key', heq, hnone⟩
      cases heq
      exact hnone hfound
  | removed event clock =>
    simp only [reduceCtorEq, false_and, exists_false, not_false_eq_true, true_and]
    refine forall_congr' fun hvalid => forall₂_congr fun candidate hget => ?_
    refine forall₂_congr fun hsources hnames => ?_
    have hafter := get?_handleConditionRemove (h (event.candidateKey clock))
      (event.candidateKey clock)
    rw [if_pos rfl, show table.get? _ = some candidate from hget, Option.map_some,
      if_pos hvalid] at hafter
    unfold perform
    simp only [hafter, Option.mem_some_iff, forall_eq']
    unfold CandidateCollector.withdrawn
    simp only [hnames, hsources, List.erase_cons_head]
    cases candidate.state <;> simp
  | expireStale today current keepAlive =>
    simp only [reduceCtorEq, false_and, exists_false, not_false_eq_true, true_and]
    refine forall₃_congr fun key candidate hget => forall₃_congr fun htoday hsources hdue => ?_
    unfold perform CandidateCollector.expireStale
    simp only [get?_mapVals, hget, Option.map_some, Option.mem_some_iff, forall_eq', htoday,
      hdue, true_and, and_true]
    by_cases hexpirable : Expirable candidate
    · simp [hexpirable]
    · simp [hexpirable]

/-! ## Runs -/

/-- Every call of a run from an empty table does what is asked, iff the calls know the states of
the candidates that they find. -/
theorem lives_end (parseDatetime : String → Int) (calls : List LifeCall) :
    (machine parseDatetime).Guarded (fun table call => call.EndsLives parseDatetime table)
        .empty calls ↔
      (machine parseDatetime).Guarded (fun table call => call.Covered parseDatetime table)
        .empty calls := by
  refine Machine.guarded_iff_guarded (I := CandidateTable.Keyed) ?_ ?_ ?_
  · exact fun table call hkeyed _ => keyed_perform hkeyed call
  · exact fun table call hkeyed => endsLives_iff hkeyed call
  · exact fun key candidate hget => absurd hget (by simp [empty, get?, find])

/-! ## Fixed calls -/

/-- The last condition leaves a candidate while its data is requested. -/
theorem hydrating_outlives_conditions : ¬ ∀ (parseDatetime : String → Int)
    (calls : List LifeCall), (machine parseDatetime).Guarded
      (fun table call => call.EndsLives parseDatetime table) .empty calls := by
  intro h
  let event : BrokerConditionEvent :=
    { conditionName := "leaders", code := "005930", named := by decide, coded := by decide +kernel }
  let clock : Clock := ⟨"2026-01-05T09:10:00", "2026-01-05", "2026-01-05T09:40:00"⟩
  have hrun := h (fun _ => 0) [.included event clock,
    .moved ("2026-01-05", "005930") .hydrating .none, .removed event clock]
  have hlast := hrun.2.2.1.2 (by decide +kernel)
  revert hlast
  decide +kernel

end LifeCall

end TradingCore.Candidates
