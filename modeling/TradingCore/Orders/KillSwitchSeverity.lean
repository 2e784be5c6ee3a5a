import TradingCore.Orders.Pipeline

/-!
# The severity of the kill switch

`OrderKillSwitchManager.evaluate` (`trading/strategy/kill_switch.py`) looks at six conditions, each
of which demands a state. The state it returns is to be the most severe of those demanded, so that
one more condition never makes it milder. Its rules are applied one after the other, and the last,
for consecutive losses, sets `REDUCE_ONLY` over whatever the rules before it have set.
-/

namespace TradingCore.Orders

open KillSwitchState

/-! ## The most severe of some states -/

namespace KillSwitchState

def worse (a b : KillSwitchState) : KillSwitchState :=
  if a.severity ≤ b.severity then b else a

def mostSevere (states : List KillSwitchState) : KillSwitchState :=
  states.foldr worse .normal

theorem severity_injective {a b : KillSwitchState} (h : a.severity = b.severity) : a = b := by
  cases a <;> cases b <;> first | rfl | cases h

theorem severity_worse (a b : KillSwitchState) :
    (worse a b).severity = max a.severity b.severity := by
  unfold worse
  split
  · next h => exact (max_eq_right h).symm
  · next h => exact (max_eq_left (Nat.le_of_not_le h)).symm

variable {states : List KillSwitchState}

theorem severity_le_mostSevere {state : KillSwitchState} (h : state ∈ states) :
    state.severity ≤ (mostSevere states).severity := by
  induction states with
  | nil => cases h
  | cons first rest ih =>
    show _ ≤ (worse first (mostSevere rest)).severity
    rw [severity_worse]
    rcases List.mem_cons.mp h with rfl | hrest
    · exact le_max_left ..
    · exact le_trans (ih hrest) (le_max_right ..)

theorem mostSevere_le {bound : Nat} (h : ∀ state ∈ states, state.severity ≤ bound) :
    (mostSevere states).severity ≤ bound := by
  induction states with
  | nil => exact Nat.zero_le bound
  | cons first rest ih =>
    show (worse first (mostSevere rest)).severity ≤ bound
    rw [severity_worse]
    exact max_le (h first List.mem_cons_self)
      (ih fun state hmem => h state (List.mem_cons_of_mem first hmem))

theorem mostSevere_eq {state : KillSwitchState}
    (hbound : ∀ other ∈ states, other.severity ≤ state.severity)
    (hreached : state = .normal ∨ state ∈ states) : mostSevere states = state := by
  refine severity_injective (Nat.le_antisymm (mostSevere_le hbound) ?_)
  rcases hreached with rfl | hmem
  · exact Nat.zero_le _
  · exact severity_le_mostSevere hmem

end KillSwitchState

/-! ## The conditions -/

/-- A condition that `evaluate` looks at. -/
inductive KillSwitchCondition
  | manual
  | positionRisk
  | stopNewEntry
  | dailyLossPct
  | dailyLossKrw
  | consecutiveLosses
deriving DecidableEq

def KillSwitchCondition.demands : KillSwitchCondition → KillSwitchState
  | .manual | .positionRisk | .dailyLossPct | .dailyLossKrw => .killSwitchActive
  | .stopNewEntry => .stopNewBuy
  | .consecutiveLosses => .reduceOnly

def KillSwitchCondition.all : List KillSwitchCondition :=
  [.manual, .positionRisk, .stopNewEntry, .dailyLossPct, .dailyLossKrw, .consecutiveLosses]

theorem KillSwitchCondition.mem_all (condition : KillSwitchCondition) : condition ∈ all := by
  cases condition <;> decide

/-- What `evaluate` is called with. -/
structure RiskInputs where
  db : Database
  config : OrderManagerConfig
  portfolio : PortfolioRisk
  tradeDate : String

namespace RiskInputs

variable (inputs : RiskInputs)

/-- The state that `evaluate` returns. -/
def state : KillSwitchState :=
  (inputs.db.evaluate inputs.config inputs.portfolio inputs.tradeDate).state

/-- The row that `evaluate` starts from. -/
def previous : KillSwitchRow := inputs.db.latestState inputs.tradeDate

/-- Is the condition met? With the switch disabled none is looked at. -/
def Triggers (condition : KillSwitchCondition) : Prop :=
  inputs.config.killSwitchEnabled = true ∧
    match condition with
    | .manual => inputs.previous.manualActive = true
    | .positionRisk => inputs.portfolio.killSwitchRecommended = true
    | .stopNewEntry => inputs.portfolio.stopNewEntryRecommended = true
    | .dailyLossPct => inputs.portfolio.dailyRealizedPnlPct ≤ inputs.config.dailyLossLimitPct
    | .dailyLossKrw =>
        orRat inputs.portfolio.dailyRealizedPnlKrw inputs.portfolio.dailyRealizedPnl ≤
          -absRat inputs.config.dailyLossLimitKrw
    | .consecutiveLosses =>
        inputs.config.consecutiveLossLimit ≤ inputs.previous.consecutiveLossCount

instance (condition : KillSwitchCondition) : Decidable (inputs.Triggers condition) :=
  match condition with
  | .manual | .positionRisk | .stopNewEntry | .dailyLossPct | .dailyLossKrw | .consecutiveLosses =>
      instDecidableAnd

def demanded : List KillSwitchState :=
  (KillSwitchCondition.all.filter fun condition => inputs.Triggers condition).map (·.demands)

/-- The state is the most severe demanded, and no inputs with fewer conditions met have a more
severe one. -/
def SevereEnough : Prop :=
  inputs.state = mostSevere inputs.demanded ∧
    ∀ fewer : RiskInputs, (∀ condition, fewer.Triggers condition → inputs.Triggers condition) →
      fewer.state.severity ≤ inputs.state.severity

/-- The rule for consecutive losses is applied over a condition that demands more. -/
def Masked : Prop :=
  ¬ inputs.Triggers .manual ∧ inputs.Triggers .consecutiveLosses ∧
    (inputs.Triggers .positionRisk ∨ inputs.Triggers .dailyLossPct ∨ inputs.Triggers .dailyLossKrw)

variable {inputs}

theorem mem_demanded {state : KillSwitchState} :
    state ∈ inputs.demanded ↔
      ∃ condition, inputs.Triggers condition ∧ condition.demands = state := by
  simp only [demanded, List.mem_map, List.mem_filter, decide_eq_true_eq,
    KillSwitchCondition.mem_all, true_and]

/-! ## What the rules set -/

theorem state_eq (inputs : RiskInputs) :
    inputs.state =
      if inputs.Triggers .manual then .killSwitchActive
      else if inputs.Triggers .consecutiveLosses then .reduceOnly
      else if inputs.Triggers .positionRisk ∨ inputs.Triggers .dailyLossPct ∨
          inputs.Triggers .dailyLossKrw then .killSwitchActive
      else if inputs.Triggers .stopNewEntry then .stopNewBuy
      else .normal := by
  unfold state Database.evaluate OrderManagerConfig.automaticState Triggers previous
  by_cases henabled : inputs.config.killSwitchEnabled = true
  · simp only [henabled, not_true_eq_false, if_false, true_and]
    split
    · rfl
    · split
      · rfl
      · split
        · next hkrw => simp [hkrw]
        · next hkrw =>
            split
            · next hpct => simp [hpct]
            · next hpct =>
                simp only [hpct, hkrw, or_false]
                split
                · rfl
                · split <;> rfl
  · simp [henabled]

theorem state_le_demanded (inputs : RiskInputs) :
    inputs.state.severity ≤ (mostSevere inputs.demanded).severity := by
  have hmet : ∀ condition, inputs.Triggers condition →
      condition.demands.severity ≤ (mostSevere inputs.demanded).severity :=
    fun condition h =>
      severity_le_mostSevere (mem_demanded.mpr ⟨condition, h, rfl⟩)
  rw [state_eq]
  split
  · next h => exact hmet .manual h
  · split
    · next h => exact hmet .consecutiveLosses h
    · split
      · next h =>
          rcases h with h | h | h
          · exact hmet .positionRisk h
          · exact hmet .dailyLossPct h
          · exact hmet .dailyLossKrw h
      · split
        · next h => exact hmet .stopNewEntry h
        · exact Nat.zero_le _

theorem demanded_mono {fewer : RiskInputs}
    (h : ∀ condition, fewer.Triggers condition → inputs.Triggers condition) :
    (mostSevere fewer.demanded).severity ≤ (mostSevere inputs.demanded).severity := by
  refine mostSevere_le ?_
  intro state hmem
  obtain ⟨condition, htriggers, rfl⟩ := mem_demanded.mp hmem
  exact severity_le_mostSevere (mem_demanded.mpr ⟨condition, h _ htriggers, rfl⟩)

theorem demands_le_state (h : ¬ inputs.Masked) {condition : KillSwitchCondition}
    (hmet : inputs.Triggers condition) : condition.demands.severity ≤ inputs.state.severity := by
  have hactive : ∀ state : KillSwitchState,
      state.severity ≤ killSwitchActive.severity := by
    intro state
    cases state <;> decide
  rw [state_eq]
  by_cases hmanual : inputs.Triggers .manual
  · rw [if_pos hmanual]
    exact hactive _
  · rw [if_neg hmanual]
    by_cases hlosses : inputs.Triggers .consecutiveLosses
    · -- nothing that demands more is met
      rw [if_pos hlosses]
      cases condition with
      | manual => exact absurd hmet hmanual
      | positionRisk => exact absurd ⟨hmanual, hlosses, .inl hmet⟩ h
      | dailyLossPct => exact absurd ⟨hmanual, hlosses, .inr (.inl hmet)⟩ h
      | dailyLossKrw => exact absurd ⟨hmanual, hlosses, .inr (.inr hmet)⟩ h
      | stopNewEntry => decide
      | consecutiveLosses => decide
    · rw [if_neg hlosses]
      split
      · exact hactive _
      · next hnone =>
          rw [not_or, not_or] at hnone
          cases condition with
          | manual => exact absurd hmet hmanual
          | positionRisk => exact absurd hmet hnone.1
          | dailyLossPct => exact absurd hmet hnone.2.1
          | dailyLossKrw => exact absurd hmet hnone.2.2
          | stopNewEntry => rw [if_pos hmet]; decide
          | consecutiveLosses => exact absurd hmet hlosses

theorem state_eq_mostSevere (h : ¬ inputs.Masked) :
    inputs.state = mostSevere inputs.demanded := by
  symm
  refine mostSevere_eq ?_ ?_
  · intro other hmem
    obtain ⟨condition, htriggers, rfl⟩ := mem_demanded.mp hmem
    exact demands_le_state h htriggers
  · rw [state_eq]
    split_ifs with hmanual hlosses hactive hstop
    · exact .inr (mem_demanded.mpr ⟨.manual, hmanual, rfl⟩)
    · exact .inr (mem_demanded.mpr ⟨.consecutiveLosses, hlosses, rfl⟩)
    · right
      rcases hactive with h | h | h
      · exact mem_demanded.mpr ⟨.positionRisk, h, rfl⟩
      · exact mem_demanded.mpr ⟨.dailyLossPct, h, rfl⟩
      · exact mem_demanded.mpr ⟨.dailyLossKrw, h, rfl⟩
    · exact .inr (mem_demanded.mpr ⟨.stopNewEntry, hstop, rfl⟩)
    · exact .inl rfl

theorem state_ne_mostSevere (h : inputs.Masked) :
    inputs.state ≠ mostSevere inputs.demanded := by
  obtain ⟨hmanual, hlosses, hactive⟩ := h
  have hstate : inputs.state = .reduceOnly := by
    rw [state_eq, if_neg hmanual, if_pos hlosses]
  have hdemanded : killSwitchActive ∈ inputs.demanded := by
    rcases hactive with h | h | h
    · exact mem_demanded.mpr ⟨.positionRisk, h, rfl⟩
    · exact mem_demanded.mpr ⟨.dailyLossPct, h, rfl⟩
    · exact mem_demanded.mpr ⟨.dailyLossKrw, h, rfl⟩
  have hle := severity_le_mostSevere hdemanded
  rw [hstate]
  intro heq
  rw [← heq] at hle
  exact absurd hle (by decide)

end RiskInputs

/-- **The severity of the kill switch is monotone** exactly where the rule for consecutive losses
is not applied over a condition that demands the active switch: there the state is the most severe
demanded, and inputs with fewer conditions met have none that is more severe. -/
theorem kill_switch_severe_iff (inputs : RiskInputs) : inputs.SevereEnough ↔ ¬ inputs.Masked := by
  constructor
  · intro h hmasked
    exact RiskInputs.state_ne_mostSevere hmasked h.1
  · intro h
    have hstate := RiskInputs.state_eq_mostSevere h
    refine ⟨hstate, ?_⟩
    intro fewer hfewer
    rw [hstate]
    exact le_trans (RiskInputs.state_le_demanded fewer) (RiskInputs.demanded_mono hfewer)

/-- A day ten percent down, after the given number of losses in a row. -/
def lossDay (losses : Int) : RiskInputs where
  db := { killSwitchStates :=
    [{ tradeDate := "2025-01-02", state := .normal, consecutiveLossCount := losses }] }
  config := {}
  portfolio := { dailyRealizedPnlPct := -10 }
  tradeDate := "2025-01-02"

/-- The losses in a row make the switch milder. -/
theorem losses_soften_kill_switch :
    (lossDay 0).state = .killSwitchActive ∧ (lossDay 2).state = .reduceOnly ∧
      ¬ (lossDay 2).SevereEnough := by
  refine ⟨by decide +kernel, by decide +kernel, ?_⟩
  intro h
  exact absurd h.1 (by decide +kernel)

end TradingCore.Orders
