import TradingCore.Market.MarketRegime
import Mathlib.Tactic.Linarith

/-!
# Worse inputs never loosen a policy

A status has a rank, from expansion to risk-off. What decides a rank is a condition that worse
inputs keep, and the policy of a side only tightens as the rank of either side rises.
-/

namespace TradingCore.Market

open Base Candidates List SideInputs

/-! ## Ranks -/

def MarketRegimeStatus.rank : MarketRegimeStatus → ℕ
  | .expansion => 0
  | .selective => 1
  | .choppy => 2
  | .weak => 3
  | .riskOff => 4
  | .dataWait | .marketClosed => 5

/-- The second policy is no looser than the first. -/
structure Tightens (before after : SidePolicy) : Prop where
  multiplier : after.multiplier ≤ before.multiplier
  block : before.block = true → after.block = true

/-- The size of a side's entries while the market as a whole is calm. -/
def calmSize (own other : ℕ) : ℚ :=
  if 3 ≤ own then 0
  else if own = 2 then 35 / 100
  else if own = 1 ∨ 2 ≤ other then 6 / 10
  else 1

theorem calmSize_nonneg (own other : ℕ) : 0 ≤ calmSize own other := by
  unfold calmSize
  split_ifs <;> norm_num

theorem calmSize_antitone {own own' other other' : ℕ} (hown : own ≤ own')
    (hother : other ≤ other') : calmSize own' other' ≤ calmSize own other := by
  unfold calmSize
  split_ifs <;> first | omega | norm_num

section Policy

variable {own own' other other' : MarketRegimeStatus}

theorem systemicRiskOffState_iff (hown : own.rank < 5) (hother : other.rank < 5) :
    (systemicRiskOffState own other true).1 = true ↔ 3 ≤ own.rank ∧ 3 ≤ other.rank ∧
      7 ≤ own.rank + other.rank := by
  cases own <;> cases other <;> revert hown hother <;> decide

theorem marketPolicyForSide_calm (hown : own.rank < 5) (hother : other.rank < 5) :
    (marketPolicyForSide own other true false true).multiplier = calmSize own.rank other.rank ∧
      ((marketPolicyForSide own other true false true).block = true ↔ 3 ≤ own.rank) := by
  cases own <;> cases other <;> revert hown hother <;> decide +kernel

theorem marketPolicyForSide_systemic (own other : MarketRegimeStatus) :
    (marketPolicyForSide own other true true true).multiplier = 0 ∧
      (marketPolicyForSide own other true true true).block = true := by
  cases own <;> exact ⟨rfl, rfl⟩

theorem marketPolicyForSide_tightens (hown : own.rank ≤ own'.rank) (hown' : own'.rank < 5)
    (hother : other.rank ≤ other'.rank) (hother' : other'.rank < 5) :
    Tightens
      (marketPolicyForSide own other true (systemicRiskOffState own other true).1 true)
      (marketPolicyForSide own' other' true (systemicRiskOffState own' other' true).1 true) := by
  have hlow : own.rank < 5 := hown.trans_lt hown'
  have hlow' : other.rank < 5 := hother.trans_lt hother'
  have hbefore := systemicRiskOffState_iff hlow hlow'
  have hafter := systemicRiskOffState_iff hown' hother'
  obtain ⟨hsize, hblock⟩ := marketPolicyForSide_calm hlow hlow'
  obtain ⟨hsize', hblock'⟩ := marketPolicyForSide_calm hown' hother'
  obtain ⟨hnone, hall⟩ := marketPolicyForSide_systemic own other
  obtain ⟨hnone', hall'⟩ := marketPolicyForSide_systemic own' other'
  cases hsystemic : (systemicRiskOffState own other true).1 with
  | true =>
    -- what was systemic stays so
    have hstays : (systemicRiskOffState own' other' true).1 = true :=
      hafter.mpr (by have := hbefore.mp hsystemic; omega)
    rw [hstays]
    exact ⟨(hnone'.trans hnone.symm).le, fun _ => hall'⟩
  | false =>
    cases hsystemic' : (systemicRiskOffState own' other' true).1 with
    | true => exact ⟨hnone'.trans_le (hsize ▸ calmSize_nonneg ..), fun _ => hall'⟩
    | false =>
      refine ⟨?_, fun h => hblock'.mpr ((hblock.mp h).trans hown)⟩
      rw [hsize, hsize']
      exact calmSize_antitone hown hother

end Policy

theorem systemicRiskOffState_comm (own other : MarketRegimeStatus) :
    (systemicRiskOffState own other true).1 = (systemicRiskOffState other own true).1 := by
  cases own <;> cases other <;> decide

/-! ## Classification -/

structure Worse (before after : SideInputs) : Prop where
  indexReturnPct : after.indexReturnPct ≤ before.indexReturnPct
  slope5mPct : after.slope5mPct = before.slope5mPct ∨ ∃ slope slope' : ℚ,
    before.slope5mPct = some slope ∧ after.slope5mPct = some slope' ∧ slope' ≤ slope
  lowBreakRecent : before.lowBreakRecent = true → after.lowBreakRecent = true
  breadthPct : after.breadth.breadthPct ≤ before.breadth.breadthPct
  validQuoteCount : after.breadth.validQuoteCount = before.breadth.validQuoteCount
  strongCount : after.breadth.strongCount = before.breadth.strongCount
  dataQualityFlags : after.breadth.dataQualityFlags = before.breadth.dataQualityFlags

theorem Worse.refl (inputs : SideInputs) : Worse inputs inputs :=
  ⟨le_rfl, .inl rfl, id, le_rfl, rfl, rfl, rfl⟩

namespace MarketRegimeConfig

variable (config : MarketRegimeConfig) (side : MarketSide) (inputs : SideInputs)

def BreadthWeak : Prop :=
  inputs.trustedBreadth = true ∧ inputs.indexReturnPct < 0 ∧ 0 < inputs.breadth.validQuoteCount ∧
    inputs.breadth.breadthPct ≤ config.breadthWeakPct

def Pressed : Prop :=
  inputs.indexReturnPct ≤ config.weakThreshold side ∨
    inputs.lowBreakRecent = true ∧ config.BreadthWeak inputs

/-- A side expands unless it is under pressure. -/
def Expands : Prop :=
  1 / 2 ≤ inputs.indexReturnPct ∧ (∀ slope ∈ inputs.slope5mPct, 0 ≤ slope) ∧
    (inputs.trustedBreadth = false ∨ config.breadthExpansionPct ≤ inputs.breadth.breadthPct)
deriving Decidable

instance : Decidable (config.Pressed side inputs) :=
  inferInstanceAs (Decidable (_ ∨ _ ∧ _ ∧ _))

theorem score_scored (rules : List (Bool × String × ℚ)) :
    (scored rules).2 = (rules.map fun rule => if rule.1 then rule.2.2 else 0).sum := by
  unfold scored
  induction rules with
  | nil => rfl
  | cons rule rest ih =>
    cases hrule : rule.1 <;> simp_all

theorem status_calmSide (hweak : ¬inputs.indexReturnPct ≤ config.weakThreshold side) :
    (config.calmSide side inputs).1 = if config.Expands inputs then .expansion
      else if 0 < inputs.breadth.strongCount ∨ inputs.trustedBreadth = false then .selective
      else .choppy := by
  have habove : config.weakThreshold side ≤ inputs.indexReturnPct := (not_le.mp hweak).le
  unfold calmSide
  by_cases hexpands : config.Expands inputs
  · rw [if_pos hexpands]
    unfold Expands at hexpands
    rw [if_pos hexpands]
  · rw [if_neg hexpands]
    unfold Expands at hexpands
    rw [if_neg hexpands]
    by_cases hstrong : 0 < inputs.breadth.strongCount
    · rw [if_pos ⟨habove, hstrong⟩, if_pos (.inl hstrong)]
    · cases htrusted : inputs.trustedBreadth <;> simp [hstrong, habove]

theorem status_classifySide :
    (config.classifySide side inputs false).1 =
      if inputs.indexReturnPct ≤ config.riskOffThreshold side then .riskOff
      else if config.Pressed side inputs then .weak
      else if config.Expands inputs then .expansion
      else if 0 < inputs.breadth.strongCount ∨ inputs.trustedBreadth = false then .selective
      else .choppy := by
  unfold classifySide
  rw [if_neg Bool.false_ne_true]
  simp only [score_scored, riskOffRules, weakRules, cons_append, nil_append,
    map_cons, map_nil, sum_cons, sum_nil, decide_eq_true_eq, add_zero]
  -- the rule on the breadth alone never makes a side risk-off
  by_cases hrisk : inputs.indexReturnPct ≤ config.riskOffThreshold side
  · rw [if_pos hrisk, if_pos hrisk, if_pos (by split_ifs <;> norm_num)]
  rw [if_neg hrisk, if_neg hrisk, if_neg (by split_ifs <;> norm_num)]
  by_cases hweak : inputs.indexReturnPct ≤ config.weakThreshold side
  · have hpressed : config.Pressed side inputs := .inl hweak
    rw [if_pos hweak, if_pos (by split_ifs <;> norm_num), if_pos hpressed]
  have hbreadth : ¬(inputs.trustedBreadth = true ∧
      inputs.indexReturnPct ≤ config.weakThreshold side ∧ 0 < inputs.breadth.validQuoteCount ∧
        inputs.breadth.breadthPct ≤ config.breadthRiskOffPct) := fun h => hweak h.2.1
  rw [if_neg hweak, if_neg hbreadth]
  by_cases hlow : inputs.lowBreakRecent = true
  · by_cases hfalling : config.BreadthWeak inputs
    · have hpressed : config.Pressed side inputs := .inr ⟨hlow, hfalling⟩
      unfold BreadthWeak at hfalling
      rw [if_pos hpressed, if_pos hlow, if_pos hfalling, if_pos (by norm_num)]
    · have hpressed : ¬config.Pressed side inputs := fun h =>
        hfalling (h.resolve_left hweak).2
      unfold BreadthWeak at hfalling
      rw [if_neg hpressed, if_pos hlow, if_neg hfalling, if_neg (by norm_num)]
      exact config.status_calmSide side inputs hweak
  · have hpressed : ¬config.Pressed side inputs := fun h => hlow (h.resolve_left hweak).1
    rw [if_neg hpressed, if_neg hlow, if_neg (by split_ifs <;> norm_num)]
    exact config.status_calmSide side inputs hweak

variable {side} {before after : SideInputs}

theorem Pressed.worse (h : config.Pressed side before) (hworse : Worse before after) :
    config.Pressed side after := by
  have hindex := hworse.indexReturnPct
  rcases h with hweak | ⟨hlow, htrusted, hfalling, hquotes, hbreadth⟩
  · exact .inl (hindex.trans hweak)
  · refine .inr ⟨hworse.lowBreakRecent hlow, ?_, hindex.trans_lt hfalling, ?_, ?_⟩
    · rw [← htrusted, trustedBreadth, trustedBreadth, hworse.dataQualityFlags]
    · exact hworse.validQuoteCount ▸ hquotes
    · exact hworse.breadthPct.trans hbreadth

theorem Expands.better (h : config.Expands after) (hworse : Worse before after) :
    config.Expands before := by
  obtain ⟨hindex, hslope, hbreadth⟩ := h
  refine ⟨hindex.trans hworse.indexReturnPct, ?_, ?_⟩
  · intro slope hsome
    rcases hworse.slope5mPct with hsame | ⟨higher, lower, hhigher, hlower, hle⟩
    · exact hslope slope (hsame ▸ hsome)
    · rw [hhigher] at hsome
      cases hsome
      exact (hslope lower hlower).trans hle
  · refine hbreadth.imp (fun htrusted => ?_) fun hwide => hwide.trans hworse.breadthPct
    rw [← htrusted, trustedBreadth, trustedBreadth, hworse.dataQualityFlags]

theorem rank_classifySide (side : MarketSide) (hworse : Worse before after) :
    (config.classifySide side before false).1.rank ≤ (config.classifySide side after false).1.rank ∧
      (config.classifySide side after false).1.rank < 5 := by
  have hindex := hworse.indexReturnPct
  have hpressed : config.Pressed side before → config.Pressed side after := (·.worse _ hworse)
  have hexpands : config.Expands after → config.Expands before := (·.better _ hworse)
  have htrusted : after.trustedBreadth = before.trustedBreadth := by
    rw [trustedBreadth, trustedBreadth, hworse.dataQualityFlags]
  rw [status_classifySide, status_classifySide, hworse.strongCount, htrusted]
  split_ifs <;> first
    | exact ⟨by decide, by decide⟩
    | exact absurd (hpressed ‹_›) ‹_›
    | exact absurd (hexpands ‹_›) ‹_›
    | exact absurd (hindex.trans ‹_›) ‹_›

end MarketRegimeConfig

/-! ## The policies of a cycle -/

/-- The policies of the candidates, from the inputs of both sides: the market is open and both
indices have data. -/
def policiesOf (config : MarketRegimeConfig) (resolution : Candidate → MarketSideResolution)
    (globalStatus : MarketRegimeStatus) (candidates : List Candidate) (kospi kosdaq : SideInputs) :
    Dict String CandidateMarketPolicy :=
  candidatePolicies resolution (config.classifySide .kospi kospi false).1
    (config.classifySide .kosdaq kosdaq false).1 globalStatus true candidates

theorem get?_candidatePolicies (resolution : Candidate → MarketSideResolution)
    (kospi kosdaq globalStatus : MarketRegimeStatus) (marketOpen : Bool)
    (candidates : List Candidate) (code : String) :
    (candidatePolicies resolution kospi kosdaq globalStatus marketOpen candidates).get? code =
      ((candidates.filter (·.state ∈ [.watching, .waitData])).reverse.find?
        (·.code = code)).map (candidatePolicy resolution kospi kosdaq globalStatus marketOpen) := by
  rw [candidatePolicies, Dict.get?_ofList, ← map_reverse, find?_map, Option.map_map]
  rfl

/-- When the inputs of either side get worse, no candidate of a known side gets a larger size, and
none that was blocked is let in. -/
theorem policies_tighten (config : MarketRegimeConfig)
    (resolution : Candidate → MarketSideResolution)
    (globalStatus globalStatus' : MarketRegimeStatus) (candidates : List Candidate)
    {kospi kospi' kosdaq kosdaq' : SideInputs} (hkospi : Worse kospi kospi')
    (hkosdaq : Worse kosdaq kosdaq') (code : String) (policy : CandidateMarketPolicy)
    (hget : (policiesOf config resolution globalStatus candidates kospi kosdaq).get? code =
      some policy) (hknown : policy.marketSide ≠ .unknown) :
    ∃ policy', (policiesOf config resolution globalStatus' candidates kospi' kosdaq').get? code =
        some policy' ∧ policy'.marketSide = policy.marketSide ∧
      policy'.positionSizeMultiplierHint ≤ policy.positionSizeMultiplierHint ∧
        (policy.blockNewEntry = true → policy'.blockNewEntry = true) := by
  obtain ⟨hrank, hlow⟩ := config.rank_classifySide .kospi hkospi
  obtain ⟨hrank', hlow'⟩ := config.rank_classifySide .kosdaq hkosdaq
  unfold policiesOf at hget ⊢
  generalize (config.classifySide .kospi kospi false).1 = before at *
  generalize (config.classifySide .kospi kospi' false).1 = after at *
  generalize (config.classifySide .kosdaq kosdaq false).1 = before' at *
  generalize (config.classifySide .kosdaq kosdaq' false).1 = after' at *
  rw [get?_candidatePolicies] at hget ⊢
  obtain ⟨candidate, hfound, rfl⟩ := Option.map_eq_some_iff.mp hget
  rw [hfound]
  refine ⟨_, rfl, rfl, ?_⟩
  have hside : (candidatePolicy resolution before before' globalStatus true candidate).marketSide =
    (resolution candidate).side := rfl
  rw [hside] at hknown
  dsimp only [candidatePolicy]
  generalize (resolution candidate).side = side at hknown ⊢
  cases side with
  | unknown => exact absurd rfl hknown
  | kospi =>
    have htightens := marketPolicyForSide_tightens hrank hlow hrank' hlow'
    exact ⟨htightens.multiplier, htightens.block⟩
  | kosdaq =>
    have htightens := marketPolicyForSide_tightens hrank' hlow' hrank hlow
    rw [systemicRiskOffState_comm, systemicRiskOffState_comm after'] at htightens
    exact ⟨htightens.multiplier, htightens.block⟩

/-! ## A fixed cycle -/

def rising : SideInputs := { indexReturnPct := 1, breadth := { breadthPct := 1 } }

def falling : SideInputs := { rising with indexReturnPct := -3, lowBreakRecent := true }

theorem policies_tighten_falling :
    ∃ policy', (policiesOf {} (fun _ => { side := .kospi }) .riskOff
        [{ tradeDate := "2026-01-05", code := "005930", state := .watching }]
        falling rising).get? "005930" = some policy' ∧
      policy'.marketSide = .kospi ∧ policy'.positionSizeMultiplierHint ≤ 1 ∧
        (false = true → policy'.blockNewEntry = true) := by
  have hfalls : Worse rising falling :=
    ⟨by decide +kernel, .inl rfl, fun _ => rfl, le_rfl, rfl, rfl, rfl⟩
  have hexpands : ∀ side, (({} : MarketRegimeConfig).classifySide side rising false).1 =
      .expansion := by
    intro side
    rw [MarketRegimeConfig.status_classifySide]
    cases side <;> decide +kernel
  refine policies_tighten {} (fun _ => { side := .kospi }) .expansion .riskOff _ hfalls
    (Worse.refl rising) "005930"
    (candidatePolicy (fun _ => { side := .kospi }) .expansion .expansion .expansion true
      { tradeDate := "2026-01-05", code := "005930", state := .watching }) ?_ (by decide)
  rw [policiesOf, hexpands, hexpands, get?_candidatePolicies]
  rfl

end TradingCore.Market
