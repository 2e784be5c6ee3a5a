import TradingCore.LiveSim.PositionRuntime

/-!
# The accounts of a live-sim position

`upsert_live_sim_position_from_fill` (`storage/db.py`) with the realized result of a position. The
columns that neither branch reads back are left out. The average is the exact quotient, rounded
once; results are whole amounts.

* `position_accounts_balance` — over any fills that sell no more than is held, the quantities add
  up, a position is closed exactly when it is empty, and its average price is within the prices of
  its purchases;
* `realized_pnl_of_empty` — the result of an empty position is what its sales brought less what
  its purchases cost, less what rounding the average adds to the books (half a unit for a share at
  most) and the money of shares that were not held.
-/

namespace TradingCore.LiveSim

open Base List Dict
open Orders (orText orInt)

/-! ## The rows -/

/-- A row of `live_sim_positions` with its `realized_pnl`. -/
structure AccountedPosition extends PositionRow where
  realizedPnl : Int := 0

def fillSide (order : PositionOrder) (fill : PositionFill) : String :=
  Text.lower (orText fill.side order.side)

/-- The `position_id` that a fill is filed under. -/
def fillPositionId (order : PositionOrder) (fill : PositionFill) : String :=
  positionIdFor (orText order.accountIdMasked fill.accountIdMasked) (orText order.code fill.code)
    order.candidateInstanceId

namespace AccountedPosition

def opened (order : PositionOrder) (fill : PositionFill) : AccountedPosition where
  candidateInstanceId := order.candidateInstanceId
  code := orText order.code fill.code
  name := order.name
  accountIdMasked := maskAccount (orText order.accountIdMasked fill.accountIdMasked)
  openedAt := fill.eventTime

variable (p : AccountedPosition)

def afterBuy (fillQty fillPrice : Int) : AccountedPosition :=
  { p with toPositionRow := p.toPositionRow.afterBuy fillQty fillPrice }

def afterSell (fillQty fillPrice : Int) (now : String) : AccountedPosition :=
  let entryAvg := orInt p.entryAvgPrice fillPrice
  let sellQty := min fillQty p.currentQty
  { p with
    toPositionRow := p.toPositionRow.afterSell fillQty now
    realizedPnl := p.realizedPnl + (fillPrice - entryAvg) * sellQty }

def afterFill (side : String) (fill : PositionFill) : AccountedPosition :=
  let fillQty := max 0 fill.fillQty
  let fillPrice := max 0 fill.fillPrice
  if side = "buy" then p.afterBuy fillQty fillPrice
  else if side = "sell" then p.afterSell fillQty fillPrice fill.eventTime
  else p

end AccountedPosition

abbrev AccountTable := Dict String AccountedPosition

namespace AccountTable

def current (table : AccountTable) (order : PositionOrder) (fill : PositionFill) :
    AccountedPosition :=
  (table.get? (fillPositionId order fill)).getD (.opened order fill)

/-- `upsert_live_sim_position_from_fill`. -/
def recordFill (table : AccountTable) (order : PositionOrder) (fill : PositionFill) :
    AccountTable :=
  table.set (fillPositionId order fill)
    ((table.current order fill).afterFill (fillSide order fill) fill)

def after (table : AccountTable) (fills : List (PositionOrder × PositionFill)) : AccountTable :=
  fills.foldl (fun table entry => table.recordFill entry.1 entry.2) table

end AccountTable

/-! ## The law of the quantities -/

def buyPrices (id : String) (fills : List (PositionOrder × PositionFill)) : List Int :=
  (fills.filter fun entry => fillPositionId entry.1 entry.2 = id ∧
    fillSide entry.1 entry.2 = "buy").map (·.2.fillPrice)

/-- A purchase of something, or a sale of no more than is held. -/
def Covered (table : AccountTable) (entry : PositionOrder × PositionFill) : Prop :=
  0 < entry.2.fillQty ∧ 0 < entry.2.fillPrice ∧
    (fillSide entry.1 entry.2 = "buy" ∨
      fillSide entry.1 entry.2 = "sell" ∧
        entry.2.fillQty ≤ (table.current entry.1 entry.2).currentQty)

/-- The accounts of a position, given the prices of its purchases. -/
structure Balanced (prices : List Int) (p : AccountedPosition) : Prop where
  quantities : p.entryQty = p.currentQty + p.realizedQty
  held : 0 ≤ p.currentQty
  closed : p.status = .closed ↔ p.currentQty = 0
  least : ∃ price ∈ prices, price ≤ p.entryAvgPrice
  most : ∃ price ∈ prices, p.entryAvgPrice ≤ price

/-! ## Averages -/

section Averages

variable {oldAvg oldQty fillPrice fillQty : Int}

section

variable (hold : 0 ≤ oldQty)
include hold

theorem le_averageAfterBuy {bound : Int} (hqty : 0 < fillQty) (havg : oldQty ≠ 0 → bound ≤ oldAvg)
    (hprice : bound ≤ fillPrice) : bound ≤ averageAfterBuy oldAvg oldQty fillPrice fillQty := by
  unfold averageAfterBuy
  rw [if_pos (by omega)]
  by_cases hzero : oldQty = 0
  · rw [if_pos hzero]
    exact hprice
  · rw [if_neg hzero]
    refine le_roundHalfEven (by omega) ?_
    have hbooked := Int.mul_le_mul_of_nonneg_right (havg hzero) hold
    have hbought := Int.mul_le_mul_of_nonneg_right hprice hqty.le
    rw [Int.mul_add]
    omega

theorem averageAfterBuy_le {bound : Int} (hqty : 0 < fillQty) (havg : oldQty ≠ 0 → oldAvg ≤ bound)
    (hprice : fillPrice ≤ bound) : averageAfterBuy oldAvg oldQty fillPrice fillQty ≤ bound := by
  unfold averageAfterBuy
  rw [if_pos (by omega)]
  by_cases hzero : oldQty = 0
  · rw [if_pos hzero]
    exact hprice
  · rw [if_neg hzero]
    refine roundHalfEven_le (by omega) ?_
    have hbooked := Int.mul_le_mul_of_nonneg_right (havg hzero) hold
    have hbought := Int.mul_le_mul_of_nonneg_right hprice hqty.le
    rw [Int.mul_add]
    omega

theorem exists_le_average {prices : List Int} (hqty : 0 < fillQty)
    (h : oldQty ≠ 0 → ∃ price ∈ prices, price ≤ oldAvg) :
    ∃ price ∈ prices ++ [fillPrice], price ≤ averageAfterBuy oldAvg oldQty fillPrice fillQty := by
  by_cases hlow : oldQty ≠ 0 ∧ oldAvg ≤ fillPrice
  · obtain ⟨price, hmem, hle⟩ := h hlow.1
    exact ⟨price, mem_append_left _ hmem,
      le_averageAfterBuy hold hqty (fun _ => hle) (hle.trans hlow.2)⟩
  · refine ⟨fillPrice, mem_append_right _ mem_cons_self,
      le_averageAfterBuy hold hqty ?_ (le_refl _)⟩
    intro hne
    by_contra hlt
    exact hlow ⟨hne, by omega⟩

theorem exists_average_le {prices : List Int} (hqty : 0 < fillQty)
    (h : oldQty ≠ 0 → ∃ price ∈ prices, oldAvg ≤ price) :
    ∃ price ∈ prices ++ [fillPrice], averageAfterBuy oldAvg oldQty fillPrice fillQty ≤ price := by
  by_cases hhigh : oldQty ≠ 0 ∧ fillPrice ≤ oldAvg
  · obtain ⟨price, hmem, hle⟩ := h hhigh.1
    exact ⟨price, mem_append_left _ hmem,
      averageAfterBuy_le hold hqty (fun _ => hle) (hhigh.2.trans hle)⟩
  · refine ⟨fillPrice, mem_append_right _ mem_cons_self,
      averageAfterBuy_le hold hqty ?_ (le_refl _)⟩
    intro hne
    by_contra hlt
    exact hhigh ⟨hne, by omega⟩

end

end Averages

/-! ## One fill -/

/-- A row to which fills have been applied, or one that is about to be opened. -/
def BalancedOrNew (prices : List Int) (p : AccountedPosition) : Prop :=
  Balanced prices p ∨ p.entryQty = 0 ∧ p.currentQty = 0 ∧ p.realizedQty = 0

theorem BalancedOrNew.buy {prices : List Int} {p : AccountedPosition}
    (h : BalancedOrNew prices p) {fillQty fillPrice : Int} (hqty : 0 < fillQty) :
    Balanced (prices ++ [fillPrice]) (p.afterBuy fillQty fillPrice) := by
  have hquantities : p.entryQty = p.currentQty + p.realizedQty ∧ 0 ≤ p.currentQty := by
    rcases h with h | ⟨hentry, hcurrent, hrealized⟩
    · exact ⟨h.quantities, h.held⟩
    · omega
  have hleast : p.currentQty ≠ 0 → ∃ price ∈ prices, price ≤ p.entryAvgPrice := by
    intro hne
    rcases h with h | ⟨-, hcurrent, -⟩
    · exact h.least
    · exact absurd hcurrent hne
  have hmost : p.currentQty ≠ 0 → ∃ price ∈ prices, p.entryAvgPrice ≤ price := by
    intro hne
    rcases h with h | ⟨-, hcurrent, -⟩
    · exact h.most
    · exact absurd hcurrent hne
  constructor
  · show p.entryQty + fillQty = p.currentQty + fillQty + p.realizedQty
    omega
  · show 0 ≤ p.currentQty + fillQty
    omega
  · show LiveSimPositionStatus.opened = .closed ↔ p.currentQty + fillQty = 0
    refine ⟨nofun, fun hzero => ?_⟩
    omega
  · exact exists_le_average hquantities.2 hqty hleast
  · exact exists_average_le hquantities.2 hqty hmost

theorem Balanced.sell {prices : List Int} {p : AccountedPosition} (h : Balanced prices p)
    {fillQty fillPrice : Int} (hqty : 0 < fillQty) (hheld : fillQty ≤ p.currentQty)
    (now : String) : Balanced prices (p.afterSell fillQty fillPrice now) := by
  have hquantities := h.quantities
  have hsold : min fillQty p.currentQty = fillQty := min_eq_left hheld
  have hleft : max 0 (p.currentQty - min fillQty p.currentQty) = p.currentQty - fillQty := by
    rw [hsold]
    exact max_eq_right (by omega)
  constructor
  · show p.entryQty = max 0 (p.currentQty - min fillQty p.currentQty) +
      (p.realizedQty + min fillQty p.currentQty)
    rw [hleft, hsold]
    omega
  · exact le_max_left ..
  · show (if max 0 (p.currentQty - min fillQty p.currentQty) ≤ 0 then
        LiveSimPositionStatus.closed else p.status) = .closed ↔
      max 0 (p.currentQty - min fillQty p.currentQty) = 0
    rw [hleft]
    by_cases hempty : p.currentQty - fillQty ≤ 0
    · rw [if_pos hempty]
      exact ⟨fun _ => by omega, fun _ => rfl⟩
    · rw [if_neg hempty, h.closed]
      exact ⟨fun hzero => by omega, fun hzero => by omega⟩
  · exact h.least
  · exact h.most

namespace AccountTable

variable {table : AccountTable} {order : PositionOrder} {fill : PositionFill}

theorem get?_recordFill (id : String) :
    (table.recordFill order fill).get? id =
      if id = fillPositionId order fill then
        some ((table.current order fill).afterFill (fillSide order fill) fill)
      else table.get? id :=
  get?_set _ _ _ _

/-- Every row has the accounts of its purchases. -/
def Accounts (table : AccountTable) (fills : List (PositionOrder × PositionFill)) : Prop :=
  ∀ id p, table.get? id = some p → Balanced (buyPrices id fills) p

theorem Accounts.current {fills : List (PositionOrder × PositionFill)}
    (h : Accounts table fills) (order : PositionOrder) (fill : PositionFill) :
    BalancedOrNew (buyPrices (fillPositionId order fill) fills) (table.current order fill) := by
  unfold AccountTable.current
  cases hget : table.get? (fillPositionId order fill) with
  | none => exact .inr ⟨rfl, rfl, rfl⟩
  | some p => exact .inl (h _ p hget)

theorem Accounts.recordFill {past : List (PositionOrder × PositionFill)}
    (h : Accounts table past) (hcovered : Covered table (order, fill)) :
    Accounts (table.recordFill order fill) (past ++ [(order, fill)]) := by
  obtain ⟨hqty, hprice, hside⟩ := hcovered
  intro id p hget
  rw [get?_recordFill] at hget
  unfold buyPrices
  rw [filter_append, map_append]
  by_cases hid : id = fillPositionId order fill
  · rw [if_pos hid] at hget
    obtain rfl := Option.some.inj hget
    subst hid
    have hcurrent := h.current order fill
    unfold AccountedPosition.afterFill
    rw [max_eq_right hqty.le, max_eq_right hprice.le]
    rcases hside with hbuy | ⟨hsell, hheld⟩
    · rw [if_pos hbuy, filter_cons_of_pos (by simp [hbuy])]
      exact hcurrent.buy hqty
    · have hnot : fillSide order fill ≠ "buy" := by
        rw [show fillSide order fill = "sell" from hsell]
        decide
      rw [if_neg hnot, if_pos hsell, filter_cons_of_neg (by simp [hnot]), filter_nil,
        map_nil, append_nil]
      rcases hcurrent with hbalanced | ⟨-, hempty, -⟩
      · exact hbalanced.sell hqty hheld _
      · -- nothing is held that could be sold
        have hnone : fill.fillQty ≤ 0 := hempty ▸ hheld
        exact absurd hqty (Int.not_lt.mpr hnone)
  · rw [if_neg hid] at hget
    rw [filter_cons_of_neg (by simp [Ne.symm hid]), filter_nil, map_nil, append_nil]
    exact h id p hget

theorem after_concat (table : AccountTable) (past : List (PositionOrder × PositionFill))
    (entry : PositionOrder × PositionFill) :
    table.after (past ++ [entry]) = (table.after past).recordFill entry.1 entry.2 :=
  foldl_concat ..

end AccountTable

open AccountTable in
/-- **The accounts of a position balance.** After any purchases, and sales of no more than is held
when they are applied, every position has bought what it holds and has sold, holds no less than
nothing, is closed exactly when it is empty, and its average price is within the prices of its
purchases. -/
theorem position_accounts_balance (fills : List (PositionOrder × PositionFill))
    (hcovered : ∀ past entry, past ++ [entry] <+: fills → Covered (after empty past) entry) :
    ∀ id p, (after empty fills).get? id = some p → Balanced (buyPrices id fills) p := by
  have hall : ∀ past, past <+: fills → Accounts (after empty past) past := by
    refine prefix_induction ?_ ?_
    · intro id p hget
      cases hget
    · intro past entry hpre h
      rw [after_concat]
      exact h.recordFill (hcovered past entry hpre)
  exact hall fills (prefix_refl _)

/-! ## The law of the result -/

def turnover (side id : String) (fills : List (PositionOrder × PositionFill)) : Int :=
  ((fills.filter fun entry => fillPositionId entry.1 entry.2 = id ∧
    fillSide entry.1 entry.2 = side).map fun entry => entry.2.fillQty * entry.2.fillPrice).sum

def proceeds (id : String) (fills : List (PositionOrder × PositionFill)) : Int :=
  turnover "sell" id fills

def cost (id : String) (fills : List (PositionOrder × PositionFill)) : Int :=
  turnover "buy" id fills

namespace AccountedPosition

def books (p : AccountedPosition) : Int := p.realizedPnl - p.entryAvgPrice * p.currentQty

/-- What a fill adds to the books beside its money: the remainder of rounding the average, times
the shares held at it, or the money of shares that were not held. -/
def slip (p : AccountedPosition) (side : String) (fill : PositionFill) : Int :=
  if side = "buy" then
    averageAfterBuy p.entryAvgPrice p.currentQty fill.fillPrice fill.fillQty *
        (p.currentQty + fill.fillQty) -
      (p.entryAvgPrice * p.currentQty + fill.fillQty * fill.fillPrice)
  else if side = "sell" then (fill.fillQty - min fill.fillQty p.currentQty) * fill.fillPrice
  else 0

end AccountedPosition

/-- The slips of the fills of a position, one fill after the other. -/
def slips (id : String) : AccountTable → List (PositionOrder × PositionFill) → Int
  | _, [] => 0
  | table, entry :: rest =>
      (if fillPositionId entry.1 entry.2 = id then
        (table.current entry.1 entry.2).slip (fillSide entry.1 entry.2) entry.2
      else 0) + slips id (table.recordFill entry.1 entry.2) rest

/-- A bound on twice the slip of a fill: the shares held after a purchase, or twice the money of
shares that were not held. -/
def AccountedPosition.leeway (p : AccountedPosition) (side : String) (fill : PositionFill) : Int :=
  if side = "buy" then p.currentQty + fill.fillQty
  else if side = "sell" then 2 * ((fill.fillQty - min fill.fillQty p.currentQty) * fill.fillPrice)
  else 0

/-- The leeways of the fills of a position, one fill after the other. -/
def leeways (id : String) : AccountTable → List (PositionOrder × PositionFill) → Int
  | _, [] => 0
  | table, entry :: rest =>
      (if fillPositionId entry.1 entry.2 = id then
        (table.current entry.1 entry.2).leeway (fillSide entry.1 entry.2) entry.2
      else 0) + leeways id (table.recordFill entry.1 entry.2) rest

def AccountedPosition.Priced (p : AccountedPosition) : Prop :=
  0 ≤ p.currentQty ∧ (p.currentQty ≠ 0 → 0 < p.entryAvgPrice)

theorem turnover_cons (side id : String) (entry : PositionOrder × PositionFill)
    (rest : List (PositionOrder × PositionFill)) :
    turnover side id (entry :: rest) =
      (if fillPositionId entry.1 entry.2 = id ∧ fillSide entry.1 entry.2 = side then
        entry.2.fillQty * entry.2.fillPrice
      else 0) + turnover side id rest := by
  unfold turnover
  rw [filter_cons]
  split
  · next h =>
      rw [if_pos (of_decide_eq_true h), map_cons, sum_cons]
  · next h =>
      rw [if_neg (by simpa using h), zero_add]

theorem turnover_eq_add (side id : String) (entry : PositionOrder × PositionFill)
    (rest : List (PositionOrder × PositionFill)) :
    turnover side id (entry :: rest) = turnover side id [entry] + turnover side id rest := by
  rw [turnover_cons, turnover_cons side id entry []]
  show _ = _ + 0 + _
  rw [add_zero]

namespace AccountedPosition

variable {p : AccountedPosition} {fill : PositionFill}

theorem Priced.afterFill (h : p.Priced) (hqty : 0 < fill.fillQty) (hprice : 0 < fill.fillPrice)
    (side : String) : (p.afterFill side fill).Priced := by
  unfold AccountedPosition.afterFill
  rw [max_eq_right hqty.le, max_eq_right hprice.le]
  dsimp only
  split
  · refine ⟨?_, fun _ => le_averageAfterBuy h.1 hqty h.2 hprice⟩
    show 0 ≤ p.currentQty + fill.fillQty
    have := h.1
    omega
  · split
    · refine ⟨le_max_left .., fun hne => h.2 ?_⟩
      intro hzero
      refine hne ?_
      show max 0 (p.currentQty - min fill.fillQty p.currentQty) = 0
      omega
    · exact h

theorem books_afterFill (h : p.Priced) (hqty : 0 < fill.fillQty) (hprice : 0 < fill.fillPrice)
    (side : String) :
    (p.afterFill side fill).books = p.books +
      (if side = "sell" then fill.fillQty * fill.fillPrice else 0) -
      (if side = "buy" then fill.fillQty * fill.fillPrice else 0) - p.slip side fill := by
  unfold AccountedPosition.afterFill AccountedPosition.slip
  rw [max_eq_right hqty.le, max_eq_right hprice.le]
  dsimp only
  by_cases hbuy : side = "buy"
  · have hnot : side ≠ "sell" := by
      rw [hbuy]
      decide
    rw [if_pos hbuy, if_neg hnot, if_pos hbuy, if_pos hbuy]
    show p.realizedPnl - averageAfterBuy p.entryAvgPrice p.currentQty fill.fillPrice
      fill.fillQty * (p.currentQty + fill.fillQty) =
        p.realizedPnl - p.entryAvgPrice * p.currentQty + 0 - _ - _
    ring
  · rw [if_neg hbuy, if_neg hbuy, if_neg hbuy]
    by_cases hsell : side = "sell"
    · rw [if_pos hsell, if_pos hsell, if_pos hsell]
      show p.realizedPnl + (fill.fillPrice - orInt p.entryAvgPrice fill.fillPrice) *
          min fill.fillQty p.currentQty -
            p.entryAvgPrice * max 0 (p.currentQty - min fill.fillQty p.currentQty) =
        p.realizedPnl - p.entryAvgPrice * p.currentQty + fill.fillQty * fill.fillPrice - 0 - _
      have hleft : max 0 (p.currentQty - min fill.fillQty p.currentQty) =
          p.currentQty - min fill.fillQty p.currentQty := max_eq_right (by omega)
      rw [hleft]
      by_cases hempty : p.currentQty = 0
      · -- nothing is held, and nothing is sold
        have hnone : min fill.fillQty p.currentQty = 0 := by
          rw [hempty]
          exact min_eq_right hqty.le
        rw [hnone, hempty]
        ring
      · have havg := h.2 hempty
        rw [orInt, if_neg (by omega)]
        ring
    · rw [if_neg hsell, if_neg hsell, if_neg hsell]
      ring

theorem slip_within (h : p.Priced) (hqty : 0 < fill.fillQty) (hprice : 0 < fill.fillPrice)
    (side : String) :
    2 * p.slip side fill ≤ p.leeway side fill ∧ -p.leeway side fill ≤ 2 * p.slip side fill := by
  have hheld := h.1
  unfold AccountedPosition.slip AccountedPosition.leeway
  split
  · have hnew : 0 < p.currentQty + fill.fillQty := by omega
    unfold averageAfterBuy
    rw [if_pos hnew]
    by_cases hzero : p.currentQty = 0
    · -- the first price is the average
      rw [if_pos hzero, hzero]
      have hsame : fill.fillPrice * (0 + fill.fillQty) -
          (p.entryAvgPrice * 0 + fill.fillQty * fill.fillPrice) = 0 := by ring
      rw [hsame]
      omega
    · rw [if_neg hzero, mul_comm fill.fillQty fill.fillPrice]
      exact two_mul_roundHalfEven_sub hnew
  · split
    · have hmoney := Int.mul_nonneg
        (show 0 ≤ fill.fillQty - min fill.fillQty p.currentQty by omega) hprice.le
      omega
    · omega

end AccountedPosition

namespace AccountTable

variable {table : AccountTable} {order : PositionOrder} {fill : PositionFill}

def booked (table : AccountTable) (id : String) : Int :=
  match table.get? id with
  | none => 0
  | some p => p.books

def Priced (table : AccountTable) : Prop := ∀ id p, table.get? id = some p → p.Priced

theorem Priced.current (h : table.Priced) (order : PositionOrder) (fill : PositionFill) :
    (table.current order fill).Priced := by
  unfold AccountTable.current
  cases hget : table.get? (fillPositionId order fill) with
  | none => exact ⟨le_refl _, fun hne => absurd rfl hne⟩
  | some p => exact h _ p hget

theorem Priced.recordFill (h : table.Priced) (hqty : 0 < fill.fillQty)
    (hprice : 0 < fill.fillPrice) : (table.recordFill order fill).Priced := by
  intro id p hget
  rw [get?_recordFill] at hget
  split at hget
  · obtain rfl := Option.some.inj hget
    exact (h.current order fill).afterFill hqty hprice _
  · exact h id p hget

theorem booked_current (table : AccountTable) (order : PositionOrder) (fill : PositionFill) :
    table.booked (fillPositionId order fill) = (table.current order fill).books := by
  unfold booked AccountTable.current
  cases table.get? (fillPositionId order fill) with
  | none => rfl
  | some p => rfl

theorem booked_recordFill (h : table.Priced) (hqty : 0 < fill.fillQty)
    (hprice : 0 < fill.fillPrice) (id : String) :
    (table.recordFill order fill).booked id =
      table.booked id + proceeds id [(order, fill)] - cost id [(order, fill)] -
        if fillPositionId order fill = id then
          (table.current order fill).slip (fillSide order fill) fill
        else 0 := by
  unfold proceeds cost
  rw [turnover_cons, turnover_cons]
  show (match (table.recordFill order fill).get? id with
    | none => 0
    | some p => p.books) = _ + (_ + 0) - (_ + 0) - _
  rw [get?_recordFill]
  by_cases hid : fillPositionId order fill = id
  · subst hid
    have hbooks := AccountedPosition.books_afterFill (h.current order fill) hqty hprice
      (fillSide order fill)
    rw [if_pos rfl, if_pos rfl, booked_current]
    simp only [true_and, add_zero]
    exact hbooks
  · rw [if_neg (Ne.symm hid), if_neg (fun hand => hid hand.1), if_neg (fun hand => hid hand.1),
      if_neg hid]
    unfold booked
    simp

variable {fills : List (PositionOrder × PositionFill)}

theorem booked_after (h : table.Priced)
    (hfills : ∀ entry ∈ fills, 0 < entry.2.fillQty ∧ 0 < entry.2.fillPrice) (id : String) :
    (table.after fills).booked id =
      table.booked id + proceeds id fills - cost id fills - slips id table fills := by
  induction fills generalizing table with
  | nil =>
    show table.booked id = table.booked id + 0 - 0 - 0
    omega
  | cons entry rest ih =>
    obtain ⟨order, fill⟩ := entry
    obtain ⟨hqty, hprice⟩ : 0 < fill.fillQty ∧ 0 < fill.fillPrice :=
      hfills (order, fill) mem_cons_self
    have hstep : (table.recordFill order fill).booked id = _ :=
      booked_recordFill h hqty hprice id
    have hnext : (table.recordFill order fill).Priced := h.recordFill hqty hprice
    have hrest := ih hnext fun entry hmem => hfills entry (mem_cons_of_mem _ hmem)
    have hproceeds : proceeds id ((order, fill) :: rest) =
        proceeds id [(order, fill)] + proceeds id rest := turnover_eq_add "sell" id _ rest
    have hcost : cost id ((order, fill) :: rest) =
        cost id [(order, fill)] + cost id rest := turnover_eq_add "buy" id _ rest
    have hslips : slips id table ((order, fill) :: rest) =
        (if fillPositionId order fill = id then
          (table.current order fill).slip (fillSide order fill) fill
        else 0) + slips id (table.recordFill order fill) rest := rfl
    show ((table.recordFill order fill).after rest).booked id = _
    rw [hrest, hstep, hproceeds, hcost, hslips]
    ring

theorem slips_within (h : table.Priced)
    (hfills : ∀ entry ∈ fills, 0 < entry.2.fillQty ∧ 0 < entry.2.fillPrice) (id : String) :
    2 * slips id table fills ≤ leeways id table fills ∧
      -leeways id table fills ≤ 2 * slips id table fills := by
  induction fills generalizing table with
  | nil => exact ⟨le_refl _, le_refl _⟩
  | cons entry rest ih =>
    obtain ⟨order, fill⟩ := entry
    obtain ⟨hqty, hprice⟩ : 0 < fill.fillQty ∧ 0 < fill.fillPrice :=
      hfills (order, fill) mem_cons_self
    have hnext : (table.recordFill order fill).Priced := h.recordFill hqty hprice
    have hrest := ih hnext fun entry hmem => hfills entry (mem_cons_of_mem _ hmem)
    have hslip := AccountedPosition.slip_within (h.current order fill) hqty hprice
      (fillSide order fill)
    have hslips : slips id table ((order, fill) :: rest) =
        (if fillPositionId order fill = id then
          (table.current order fill).slip (fillSide order fill) fill
        else 0) + slips id (table.recordFill order fill) rest := rfl
    have hleeways : leeways id table ((order, fill) :: rest) =
        (if fillPositionId order fill = id then
          (table.current order fill).leeway (fillSide order fill) fill
        else 0) + leeways id (table.recordFill order fill) rest := rfl
    rw [hslips, hleeways]
    split
    · omega
    · omega

end AccountTable

open AccountTable in
/-- **The result of an empty position** is what its sales brought less what its purchases cost,
less the slips of its fills. These are at most half a unit for each share held after a purchase,
and the money of the shares that were sold without being held. -/
theorem realized_pnl_of_empty (fills : List (PositionOrder × PositionFill))
    (hfills : ∀ entry ∈ fills, 0 < entry.2.fillQty ∧ 0 < entry.2.fillPrice)
    (id : String) (p : AccountedPosition) (hget : (after empty fills).get? id = some p)
    (hempty : p.currentQty = 0) :
    p.realizedPnl = proceeds id fills - cost id fills - slips id empty fills ∧
      2 * |slips id empty fills| ≤ leeways id empty fills := by
  have hstart : Priced empty := by
    intro id p hnone
    cases hnone
  have hbooks := booked_after hstart hfills id
  have hwithin := slips_within hstart hfills id
  have hpnl : (after empty fills).booked id = p.realizedPnl := by
    unfold booked
    rw [hget]
    show p.realizedPnl - p.entryAvgPrice * p.currentQty = p.realizedPnl
    rw [hempty]
    ring
  have hnone : booked empty id = 0 := rfl
  rw [hpnl, hnone] at hbooks
  refine ⟨by omega, ?_⟩
  rcases abs_choice (slips id empty fills) with habs | habs
  · rw [habs]
    exact hwithin.1
  · rw [habs]
    omega

/-! ## Fixed fills -/

def exampleFill (side : String) (fillQty fillPrice : Int) : PositionOrder × PositionFill :=
  ({ code := "005930", side }, { fillQty, fillPrice })

def evenFills : List (PositionOrder × PositionFill) :=
  [exampleFill "buy" 1 100, exampleFill "buy" 1 102, exampleFill "sell" 2 103]

def oddFills : List (PositionOrder × PositionFill) :=
  [exampleFill "buy" 1 100, exampleFill "buy" 1 101, exampleFill "sell" 2 100]

def exampleId : String := "LIVE_SIM::005930:no_ci"

theorem position_accounts_balance_even :
    ∃ p, (AccountTable.after empty evenFills).get? exampleId = some p ∧
      Balanced (buyPrices exampleId evenFills) p := by
  refine ⟨_, rfl, position_accounts_balance evenFills ?_ exampleId _ rfl⟩
  refine forall_steps_cons.mpr ⟨⟨by decide, by decide, .inl (by decide +kernel)⟩, ?_⟩
  refine forall_steps_cons.mpr ⟨⟨by decide, by decide, .inl (by decide +kernel)⟩, ?_⟩
  refine forall_steps_cons.mpr ⟨⟨by decide, by decide, .inr (by decide +kernel)⟩, ?_⟩
  exact forall_steps_nil

/-- The odd fills slip by one. -/
theorem realized_pnl_of_empty_odd :
    ∃ p, (AccountTable.after empty oddFills).get? exampleId = some p ∧
      p.realizedPnl = proceeds exampleId oddFills - cost exampleId oddFills -
        slips exampleId empty oddFills ∧
      2 * |slips exampleId empty oddFills| ≤ leeways exampleId empty oddFills :=
  ⟨_, rfl, realized_pnl_of_empty oddFills (by decide) exampleId _ rfl (by decide +kernel)⟩

/-- The result of the odd fills is nothing, though they cost one more than they brought. -/
theorem realized_pnl_hides_loss :
    ∃ p, (AccountTable.after empty oddFills).get? exampleId = some p ∧
      p.currentQty = 0 ∧ p.status = .closed ∧ p.realizedPnl = 0 ∧
      p.realizedPnl ≠ proceeds exampleId oddFills - cost exampleId oddFills := by
  refine ⟨_, rfl, ?_⟩
  decide +kernel

end TradingCore.LiveSim
