import TradingCore.Simulation.FillSimulator

/-!
# Fills of limit orders

What `simulate_fill` reports for a limit order: a price between the quote, rounded away from the
order, and the limit, rounded towards it. Both are grid prices, so the price is one. An order
without a price has the quote itself for a limit, or else the last price, as it stands; its fill
is at that price, on the grid or not.

* `limit_fill_iff` — the fill is as a limit order's should be exactly if the order has a price or
  what stands in for it fits the grid.
-/

namespace TradingCore.Simulation

open Base Prices Option
open Themes (round4)

/-! ## What is asked for -/

def IsGridPrice (x : Rat) : Prop := ∃ g : Int, x = g ∧ GridPrice g

/-- A fill at a price as a limit order's should be: within the limit, not better than the quote,
at a grid price, and of a share that tells whether the amount of the order is known. -/
structure LimitFill (r : FillSimulationResult) (price : Rat) : Prop where
  buy_limit : r.side = .buy → ∀ limit : Int, r.roundedRequestedPrice = some limit → price ≤ limit
  sell_limit : r.side = .sell → ∀ limit : Int, r.roundedRequestedPrice = some limit →
    (limit : Rat) ≤ price
  buy_quote : r.side = .buy → ∀ ask, r.bestAsk = some ask → ask ≤ price
  sell_quote : r.side = .sell → ∀ bid, r.bestBid = some bid →
    ∀ rounded : Int, roundPriceToTick bid .sell .aggressive = some rounded → price ≤ rounded
  grid : IsGridPrice price
  ratio : (0 < r.fillRatio ∧ r.fillRatio ≤ 1) ↔ ∃ amount, r.orderAmount = some amount ∧ 0 < amount

def Priced (order : Order) : Prop := ∃ price, order.price.float? = some price ∧ 0 < price

/-- Rounded to four digits, what stands in for the price of an order is a grid price, and not
better than the quote. A bid below one is sold to at one. -/
def BenchmarkFits (side : Side) (bestBid bestAsk last : Option Rat) : Prop :=
  match side, quoteOf side bestBid bestAsk with
  | .buy, some ask => IsGridPrice (round4 ask) ∧ ask ≤ round4 ask
  | .sell, some bid => bid < 1 ∨ IsGridPrice (round4 bid) ∧ round4 bid ≤ bid
  | _, none => ∃ price, last = some price ∧ IsGridPrice (round4 price)

/-! ## Rounding to four digits -/

theorem round4_eq (x : Rat) : ∃ digits : Int, round4 x = digits / 10000 ∧
    (digits = (x * 10000).floor ∨
      digits = (x * 10000).floor + 1 ∧ ((x * 10000).floor : Rat) < x * 10000) := by
  unfold round4
  refine ⟨_, rfl, ?_⟩
  split_ifs with h1 h2 h3
  · exact .inl rfl
  · exact .inr ⟨rfl, by linarith⟩
  · exact .inl rfl
  · exact .inr ⟨rfl, by linarith⟩

theorem le_round4 {m : Int} {x : Rat} (h : (m : Rat) / 10000 ≤ x) :
    (m : Rat) / 10000 ≤ round4 x := by
  obtain ⟨digits, heq, hdigits⟩ := round4_eq x
  have hfloor : m ≤ (x * 10000).floor := Rat.le_floor_iff.mpr (by linarith)
  have hle : (m : Rat) ≤ digits := by exact_mod_cast (by omega : m ≤ digits)
  rw [heq]
  linarith

theorem round4_le {m : Int} {x : Rat} (h : x ≤ (m : Rat) / 10000) :
    round4 x ≤ (m : Rat) / 10000 := by
  obtain ⟨digits, heq, hdigits⟩ := round4_eq x
  have hfloor := Rat.floor_le (x * 10000)
  have hle : (digits : Rat) ≤ m := by
    rcases hdigits with rfl | ⟨rfl, hlt⟩
    · linarith
    · have hlt' : ((x * 10000).floor : Rat) < m := by linarith
      have : (x * 10000).floor < m := by exact_mod_cast hlt'
      exact_mod_cast this
  rw [heq]
  linarith

theorem round4_intCast (n : Int) : round4 n = n := by
  have hn : (n : Rat) = ((n * 10000 : Int) : Rat) / 10000 := by
    push_cast
    linarith
  refine le_antisymm ?_ ?_
  · calc round4 n ≤ ((n * 10000 : Int) : Rat) / 10000 := round4_le hn.le
      _ = n := hn.symm
  · calc (n : Rat) = ((n * 10000 : Int) : Rat) / 10000 := hn
      _ ≤ round4 n := le_round4 hn.ge

/-! ## The share filled -/

theorem positive?_eq_some_iff {x : Option Rat} {y : Rat} :
    positive? x = some y ↔ x = some y ∧ 0 < y := by
  unfold positive?
  rw [filter_eq_some_iff, decide_eq_true_eq]

theorem positive?_eq_none_iff {x : Option Rat} :
    positive? x = none ↔ ∀ y, x = some y → y ≤ 0 := by
  unfold positive?
  simp only [filter_eq_none_iff, decide_eq_true_eq, not_lt]

theorem fillRatio_iff (amount tradeValue strength : Option Rat) (spread : Option Int)
    (style : OrderStyle) (config : FillSimulationConfig) :
    (0 < (fillRatio amount tradeValue strength spread style config).1 ∧
      (fillRatio amount tradeValue strength spread style config).1 ≤ 1) ↔
    ∃ a, amount = some a ∧ 0 < a := by
  unfold fillRatio
  cases hamount : positive? amount with
  | none =>
    refine iff_of_false (fun h => absurd h.1 (lt_irrefl _)) ?_
    rintro ⟨a, ha, hpos⟩
    exact absurd (positive?_eq_none_iff.mp hamount a ha) (not_le.mpr hpos)
  | some a =>
    refine iff_of_true ?_ ⟨a, positive?_eq_some_iff.mp hamount⟩
    dsimp only
    -- whatever the ratio is, it is cut off at 0.05 and one
    have hbounds : ∀ ratio : Rat, 0 < round4 (max (1 / 20) (min 1 ratio)) ∧
        round4 (max (1 / 20) (min 1 ratio)) ≤ 1 := by
      intro ratio
      have hlow : ((500 : Int) : Rat) / 10000 ≤ max (1 / 20) (min 1 ratio) :=
        le_max_of_le_left (by norm_num)
      have hhigh : max (1 / 20) (min 1 ratio) ≤ ((10000 : Int) : Rat) / 10000 :=
        max_le (by norm_num) (min_le_of_left_le (by norm_num))
      have := le_round4 hlow
      have := round4_le hhigh
      push_cast at *
      constructor <;> linarith
    exact hbounds _

/-! ## What a fill tells -/

/-- The price of an order that meets a reference, within what it asks for. -/
def clamp (side : Side) (rounded requested : Rat) : Rat :=
  match side with
  | .buy => min rounded requested
  | .sell => max rounded requested

/-- What a limit order is measured against where there is no quote. -/
def ReferenceFor (side : Side) (requested : Rat) (bestBid bestAsk last : Option Rat)
    (reference : Rat) : Prop :=
  match quoteOf side bestBid bestAsk with
  | some quote => reference = quote
  | none => ∃ observed, last = some observed ∧
      reference = quoteFallback side (some requested) observed

variable {side : Side} {last bestBid bestAsk : Option Rat} {base r : FillSimulationResult}
  {config : FillSimulationConfig} {f reference : Rat} {rounded : Int}

variable {requested : Rat} {limit : Int}

theorem fillPrice_eq_some {style : OrderStyle} {price : Rat} {fallback : String}
    (hstyle : style ≠ .market) (hne : requested ≠ 0)
    (h : fillPrice side style (some requested) last bestBid bestAsk = (some price, fallback)) :
    ∃ reference rounded, ReferenceFor side requested bestBid bestAsk last reference ∧
      roundPriceToTick reference side .aggressive = some rounded ∧
      price = clamp side rounded requested := by
  have hfilter : (some requested).filter (style ≠ .market ∧ · ≠ 0) = some requested := by
    simp [hstyle, hne]
  unfold fillPrice at h
  rw [hfilter] at h
  unfold ReferenceFor
  cases hquote : quoteOf side bestBid bestAsk with
  | some quote =>
    rw [hquote] at h
    dsimp only [bind_some] at h
    cases hround : roundPriceToTick quote side .aggressive with
    | none =>
      rw [hround] at h
      cases h
    | some rounded =>
      rw [hround] at h
      refine ⟨quote, rounded, rfl, hround, ?_⟩
      cases side <;> cases h <;> rfl
  | none =>
    rw [hquote] at h
    cases last with
    | none => cases h
    | some observed =>
      dsimp only [bind_some] at h
      cases hround : roundPriceToTick (quoteFallback side (some requested) observed) side
          .aggressive with
      | none =>
        rw [hround] at h
        cases h
      | some rounded =>
        rw [hround] at h
        refine ⟨_, rounded, ⟨observed, rfl, rfl⟩, hround, ?_⟩
        cases side <;> cases h <;> rfl

/-- The result of a fill passes on what the base result says. -/
structure FilledFrom (base r : FillSimulationResult) (config : FillSimulationConfig) : Prop where
  side : r.side = base.side
  rounded : r.roundedRequestedPrice = base.roundedRequestedPrice
  bestBid : r.bestBid = base.bestBid
  bestAsk : r.bestAsk = base.bestAsk
  amount : r.orderAmount = base.orderAmount
  ratio : r.fillRatio = (fillRatio base.orderAmount base.tradeValue base.executionStrength
    base.spreadTicks base.orderStyle config).1

theorem checks_of_filled (hbase : base.fillPrice = none)
    (h : (resultOf base config).fillPrice = some f) :
    ¬ base.tickAgeSec.any (config.staleTickAgeSec < ·) ∧
    ¬ (base.orderStyle ≠ .market ∧ base.requestedPrice.getD 0 = 0) ∧
    ¬ (base.orderStyle ≠ .market ∧ limitPriceHit base.side base.requestedPrice base.observedPrice
      base.bestBid base.bestAsk = some false) := by
  unfold resultOf at h
  by_cases hstale : base.tickAgeSec.any (config.staleTickAgeSec < ·)
  · rw [if_pos hstale] at h
    cases hbase.symm.trans h
  rw [if_neg hstale] at h
  by_cases hmissing : base.orderStyle ≠ .market ∧ base.requestedPrice.getD 0 = 0
  · rw [if_pos hmissing] at h
    cases hbase.symm.trans h
  rw [if_neg hmissing] at h
  by_cases hmissed : base.orderStyle ≠ .market ∧ limitPriceHit base.side base.requestedPrice
      base.observedPrice base.bestBid base.bestAsk = some false
  · dsimp only at h
    rw [if_pos hmissed] at h
    cases hbase.symm.trans h
  exact ⟨hstale, hmissing, hmissed⟩

theorem resultOf_filled (hbase : base.fillPrice = none) (hstyle : base.orderStyle ≠ .market)
    (h : (resultOf base config).fillPrice = some f) :
    FilledFrom base (resultOf base config) config ∧
    ∃ requested reference rounded,
      base.requestedPrice = some requested ∧
      limitPriceHit base.side (some requested) base.observedPrice base.bestBid base.bestAsk ≠
        some false ∧
      ReferenceFor base.side requested base.bestBid base.bestAsk base.observedPrice reference ∧
      roundPriceToTick reference base.side .aggressive = some rounded ∧
      0 < clamp base.side rounded requested ∧ f = round4 (clamp base.side rounded requested) := by
  obtain ⟨hstale, hmissing, hmissed⟩ := checks_of_filled hbase h
  obtain ⟨requested, hrequested, hne⟩ : ∃ requested, base.requestedPrice = some requested ∧
      requested ≠ 0 := by
    cases hrequested : base.requestedPrice with
    | none =>
      rw [hrequested] at hmissing
      exact absurd ⟨hstyle, rfl⟩ hmissing
    | some requested =>
      refine ⟨requested, rfl, fun hzero => hmissing ⟨hstyle, ?_⟩⟩
      rw [hrequested]
      exact hzero
  unfold resultOf at h ⊢
  dsimp only at h ⊢
  rw [if_neg hstale, if_neg hmissing, if_neg hmissed] at h ⊢
  cases hfill : fillPrice base.side base.orderStyle base.requestedPrice base.observedPrice
      base.bestBid base.bestAsk with
  | mk price fallback =>
    rw [hfill] at h
    cases hprice : positive? price with
    | none =>
      dsimp only at h
      rw [hprice] at h
      cases hbase.symm.trans h
    | some x =>
      dsimp only at h
      rw [hprice] at h
      obtain ⟨rfl, hpos⟩ := positive?_eq_some_iff.mp hprice
      rw [hrequested] at hfill
      obtain ⟨reference, rounded, href, hround, rfl⟩ := fillPrice_eq_some hstyle hne hfill
      refine ⟨⟨rfl, rfl, rfl, rfl, rfl, rfl⟩, requested, reference, rounded, hrequested, ?_,
        href, hround, hpos, (some.inj h).symm⟩
      intro hhit
      rw [← hrequested] at hhit
      exact hmissed ⟨hstyle, hhit⟩

/-! ## Orders with a price -/

theorem fallback_tick (side : Side) (requested : Option Rat) (observed : Rat) :
    ∃ tick : Rat, 1 ≤ tick ∧ quoteFallback side requested observed =
      match side with
      | .buy => observed + tick
      | .sell => observed - tick := by
  have hsize : ∀ (x : Rat) (t : Int), krxStockTickSize x = some t → 1 ≤ t := by
    intro x t h
    unfold krxStockTickSize at h
    split_ifs at h <;> cases h <;> decide
  refine ⟨_, ?_, rfl⟩
  have htick : 1 ≤ ((krxStockTickSize observed).or (requested.bind krxStockTickSize)).getD 1 := by
    cases hobserved : krxStockTickSize observed with
    | some t => exact hsize observed t hobserved
    | none =>
      cases hrequested : requested.bind krxStockTickSize with
      | none => exact le_refl (1 : Int)
      | some t =>
        obtain ⟨x, -, ht⟩ := bind_eq_some_iff.mp hrequested
        exact hsize x t ht
  exact_mod_cast htick

theorem rounded_pos {direction : Direction}
    (h : roundPriceToTick reference side direction = some rounded) : 0 < reference := by
  by_contra hle
  rw [roundPriceToTick_nonpos (not_lt.mp hle)] at h
  cases h

theorem buy_rounded (h : roundPriceToTick reference .buy .aggressive = some rounded) :
    GridPrice rounded ∧ reference ≤ rounded ∧ ∀ g, GridPrice g → reference ≤ g → rounded ≤ g := by
  obtain ⟨r, hround, hspec⟩ :=
    @roundPriceToTick_up reference .buy .aggressive (rounded_pos h) (by simp [RoundsDown])
  rw [h] at hround
  cases hround
  exact hspec

theorem sell_rounded (h : roundPriceToTick reference .sell .aggressive = some rounded) :
    GridPrice rounded ∧ (rounded : Rat) ≤ max 1 reference ∧
      ∀ g, GridPrice g → g ≤ reference → g ≤ rounded := by
  obtain ⟨r, hround, hspec⟩ :=
    @roundPriceToTick_down reference .sell .aggressive (rounded_pos h) (by simp [RoundsDown])
  rw [h] at hround
  cases hround
  exact hspec

theorem clamp_grid (hlimit : GridPrice limit)
    (hhit : limitPriceHit side (some limit) last bestBid bestAsk ≠ some false)
    (href : ReferenceFor side limit bestBid bestAsk last reference)
    (hround : roundPriceToTick reference side .aggressive = some rounded) :
    ∃ g : Int, clamp side rounded limit = g ∧ GridPrice g ∧
      (side = .buy → g ≤ limit ∧ ∀ ask, bestAsk = some ask → ask ≤ g) ∧
      (side = .sell → limit ≤ g ∧ ∀ bid, bestBid = some bid → g = rounded ∧ reference = bid) := by
  have hpos : positive? (some (limit : Rat)) = some (limit : Rat) :=
    positive?_eq_some_iff.mpr ⟨rfl, by exact_mod_cast hlimit.1⟩
  unfold limitPriceHit at hhit
  rw [hpos] at hhit
  cases side with
  | buy =>
    obtain ⟨hgrid, hle, hleast⟩ := buy_rounded hround
    refine ⟨min rounded limit, by simp [clamp], ?_, fun _ => ⟨min_le_right _ _, ?_⟩, nofun⟩
    · rcases min_choice rounded limit with heq | heq <;> rw [heq] <;> assumption
    · intro ask hask
      subst hask
      obtain rfl : reference = ask := href
      have hmet : reference ≤ limit := by
        by_contra hnot
        exact hhit (congrArg some (decide_eq_false hnot))
      push_cast
      exact le_min hle hmet
  | sell =>
    obtain ⟨hgrid, hle, hgreatest⟩ := sell_rounded hround
    refine ⟨max rounded limit, by simp [clamp], ?_, nofun, fun _ => ⟨le_max_right _ _, ?_⟩⟩
    · rcases max_choice rounded limit with heq | heq <;> rw [heq] <;> assumption
    · intro bid hbid
      subst hbid
      obtain rfl : reference = bid := href
      have hmet : (limit : Rat) ≤ reference := by
        by_contra hnot
        exact hhit (congrArg some (decide_eq_false hnot))
      exact ⟨max_eq_left (hgreatest limit hlimit hmet), rfl⟩

theorem limitFill_of_limit (hfilled : FilledFrom base r config) (hlimit : GridPrice limit)
    (hbase : base.roundedRequestedPrice = some limit)
    (hhit : limitPriceHit base.side (some limit) base.observedPrice base.bestBid base.bestAsk ≠
      some false)
    (href : ReferenceFor base.side limit base.bestBid base.bestAsk base.observedPrice reference)
    (hround : roundPriceToTick reference base.side .aggressive = some rounded) :
    LimitFill r (round4 (clamp base.side rounded limit)) := by
  obtain ⟨g, hg, hgrid, hbuy, hsell⟩ := clamp_grid hlimit hhit href hround
  rw [hg, round4_intCast]
  constructor
  · intro hside limit' hlimit'
    rw [hfilled.rounded, hbase] at hlimit'
    cases hlimit'
    exact_mod_cast (hbuy (hfilled.side ▸ hside)).1
  · intro hside limit' hlimit'
    rw [hfilled.rounded, hbase] at hlimit'
    cases hlimit'
    exact_mod_cast (hsell (hfilled.side ▸ hside)).1
  · intro hside ask hask
    exact (hbuy (hfilled.side ▸ hside)).2 ask (hfilled.bestAsk ▸ hask)
  · intro hside bid hbid rounded' hrounded'
    have hbaseSide : base.side = .sell := hfilled.side ▸ hside
    obtain ⟨rfl, rfl⟩ := (hsell hbaseSide).2 bid (hfilled.bestBid ▸ hbid)
    rw [hbaseSide, hrounded'] at hround
    cases hround
    exact le_rfl
  · exact ⟨g, rfl, hgrid⟩
  · rw [hfilled.ratio, hfilled.amount]
    exact fillRatio_iff ..

theorem limitFill_of_priced (hnone : base.fillPrice = none) (hstyle : base.orderStyle ≠ .market)
    (hlimit : GridPrice limit) (hrounded : base.roundedRequestedPrice = some limit)
    (hrequested : base.requestedPrice = some (limit : Rat))
    (hfill : (resultOf base config).fillPrice = some f) : LimitFill (resultOf base config) f := by
  obtain ⟨hfilled, requested, reference, rounded, hreq, hhit, href, hround, -, rfl⟩ :=
    resultOf_filled hnone hstyle hfill
  obtain rfl : requested = limit := some.inj (hreq.symm.trans hrequested)
  exact limitFill_of_limit hfilled hlimit hrounded hhit href hround

/-! ## Orders without a price -/

theorem clamp_benchmark (hrequested : (quoteOf side bestBid bestAsk).or last = some requested)
    (href : ReferenceFor side requested bestBid bestAsk last reference)
    (hround : roundPriceToTick reference side .aggressive = some rounded)
    (hpos : 0 < clamp side rounded requested) :
    clamp side rounded requested =
      if side = .sell ∧ quoteOf side bestBid bestAsk ≠ none ∧ requested < 1 then 1
      else requested := by
  unfold ReferenceFor at href
  cases hquote : quoteOf side bestBid bestAsk with
  | some quote =>
    rw [hquote] at href hrequested
    obtain rfl : reference = quote := href
    obtain rfl : reference = requested := some.inj hrequested
    have hposref := rounded_pos hround
    cases side with
    | buy =>
      rw [if_neg (by simp)]
      exact min_eq_right (buy_rounded hround).2.1
    | sell =>
      by_cases hlt : reference < 1
      · rw [if_pos ⟨rfl, nofun, hlt⟩]
        rw [roundPriceToTick_small hposref hlt] at hround
        cases hround
        exact max_eq_left (by exact_mod_cast hlt.le)
      · rw [if_neg (by simp [hlt])]
        have hle := (sell_rounded hround).2.1
        rw [max_eq_right (not_lt.mp hlt)] at hle
        exact max_eq_right hle
  | none =>
    rw [hquote] at href hrequested
    obtain rfl : last = some requested := hrequested
    obtain ⟨observed, hobserved, href⟩ := href
    obtain rfl : requested = observed := some.inj hobserved
    obtain ⟨tick, htick, hfallback⟩ := fallback_tick side (some requested) requested
    rw [← href] at hfallback
    rw [if_neg (by simp)]
    cases side with
    | buy =>
      have hle := (buy_rounded hround).2.1
      refine min_eq_right ?_
      dsimp only at hfallback
      linarith
    | sell =>
      have hle := (sell_rounded hround).2.1
      have hposref := rounded_pos hround
      dsimp only at hfallback
      refine max_eq_right (hle.trans (max_le ?_ ?_)) <;> linarith

theorem limitFill_iff_of_no_limit (hfilled : FilledFrom base r config)
    (hbase : base.roundedRequestedPrice = none) :
    LimitFill r f ↔ IsGridPrice f ∧
      (base.side = .buy → ∀ ask, base.bestAsk = some ask → ask ≤ f) ∧
      (base.side = .sell → ∀ bid, base.bestBid = some bid → ∀ rounded : Int,
        roundPriceToTick bid .sell .aggressive = some rounded → f ≤ rounded) := by
  have hnone : ∀ limit : Int, r.roundedRequestedPrice ≠ some limit := by
    intro limit h
    rw [hfilled.rounded, hbase] at h
    cases h
  constructor
  · intro h
    refine ⟨h.grid, fun hside ask hask => ?_, fun hside bid hbid => ?_⟩
    · exact h.buy_quote (hfilled.side.trans hside) ask (hfilled.bestAsk.trans hask)
    · exact h.sell_quote (hfilled.side.trans hside) bid (hfilled.bestBid.trans hbid)
  · rintro ⟨hgrid, hbuy, hsell⟩
    refine ⟨fun _ limit h => absurd h (hnone limit), fun _ limit h => absurd h (hnone limit),
      fun hside ask hask => ?_, fun hside bid hbid => ?_, hgrid, ?_⟩
    · exact hbuy (hfilled.side ▸ hside) ask (hfilled.bestAsk ▸ hask)
    · exact hsell (hfilled.side ▸ hside) bid (hfilled.bestBid ▸ hbid)
    · rw [hfilled.ratio, hfilled.amount]
      exact fillRatio_iff ..

theorem limitFill_iff_benchmark (hfilled : FilledFrom base r config)
    (hbase : base.roundedRequestedPrice = none)
    (hrequested : (quoteOf base.side base.bestBid base.bestAsk).or base.observedPrice =
      some requested)
    (href : ReferenceFor base.side requested base.bestBid base.bestAsk base.observedPrice reference)
    (hround : roundPriceToTick reference base.side .aggressive = some rounded)
    (hpos : 0 < clamp base.side rounded requested) :
    LimitFill r (round4 (clamp base.side rounded requested)) ↔
      BenchmarkFits base.side base.bestBid base.bestAsk base.observedPrice := by
  rw [limitFill_iff_of_no_limit hfilled hbase, clamp_benchmark hrequested href hround hpos]
  unfold ReferenceFor at href
  unfold BenchmarkFits
  generalize base.side = side at *
  cases hquote : quoteOf side base.bestBid base.bestAsk with
  | none =>
    rw [hquote] at hrequested
    have hlast : base.observedPrice = some requested := hrequested
    rw [if_neg (by simp), hlast]
    -- the quote that is missing is the one of the side
    cases side with
    | buy =>
      have hask : base.bestAsk = none := hquote
      rw [hask]
      simp
    | sell =>
      have hbid : base.bestBid = none := hquote
      rw [hbid]
      simp
  | some quote =>
    rw [hquote] at hrequested href
    obtain rfl : quote = requested := some.inj hrequested
    obtain rfl : reference = quote := href
    cases side with
    | buy =>
      have hask : base.bestAsk = some reference := hquote
      rw [if_neg (by simp), hask]
      simp
    | sell =>
      have hbid : base.bestBid = some reference := hquote
      obtain ⟨hgrid, hle, hgreatest⟩ := sell_rounded hround
      rw [hbid]
      by_cases hlt : reference < 1
      · rw [if_pos ⟨rfl, nofun, hlt⟩]
        refine iff_of_true ⟨?_, nofun, ?_⟩ (.inl hlt)
        · exact ⟨1, round4_intCast 1, by decide⟩
        · intro _ bid hbid' rounded' hrounded'
          obtain rfl := some.inj hbid'
          rw [roundPriceToTick_small (rounded_pos hround) hlt] at hrounded'
          cases hrounded'
          exact (round4_intCast 1).le
      · rw [if_neg (by simp [hlt])]
        constructor
        · rintro ⟨hfit, -, hquoted⟩
          have hbelow := hquoted rfl reference rfl rounded hround
          rw [max_eq_right (not_lt.mp hlt)] at hle
          exact .inr ⟨hfit, hbelow.trans hle⟩
        · rintro (hsmall | ⟨⟨g, hg, hfit⟩, hbelow⟩)
          · exact absurd hsmall hlt
          · refine ⟨⟨g, hg, hfit⟩, nofun, ?_⟩
            intro _ bid hbid' rounded' hrounded'
            obtain rfl := some.inj hbid'
            rw [hround] at hrounded'
            cases hrounded'
            rw [hg] at hbelow ⊢
            exact_mod_cast hgreatest g hfit hbelow

theorem limitFill_iff_of_unpriced (hnone : base.fillPrice = none)
    (hstyle : base.orderStyle ≠ .market) (hrounded : base.roundedRequestedPrice = none)
    (hrequested : base.requestedPrice =
      (quoteOf base.side base.bestBid base.bestAsk).or base.observedPrice)
    (hfill : (resultOf base config).fillPrice = some f) :
    LimitFill (resultOf base config) f ↔
      BenchmarkFits base.side base.bestBid base.bestAsk base.observedPrice := by
  obtain ⟨hfilled, requested, reference, rounded, hreq, -, href, hround, hpos, rfl⟩ :=
    resultOf_filled hnone hstyle hfill
  exact limitFill_iff_benchmark hfilled hrounded (hrequested.symm.trans hreq) href hround hpos

/-! ## Limit orders -/

theorem limit_grid {price : Rat} (hpos : 0 < price) (side : Side) :
    ∃ limit : Int, roundPriceToTick price side .passive = some limit ∧ GridPrice limit := by
  by_cases hdown : RoundsDown side .passive
  · obtain ⟨limit, hround, hgrid, -⟩ := roundPriceToTick_down hpos hdown
    exact ⟨limit, hround, hgrid⟩
  · obtain ⟨limit, hround, hgrid, -⟩ := roundPriceToTick_up hpos hdown
    exact ⟨limit, hround, hgrid⟩

section Base

variable (order : Order) (target : Option Int) (observed : Option Tick)
  (config : FillSimulationConfig) (depth vi : Option Fields)

theorem baseResult_orderStyle :
    (baseResult order target observed config depth vi).orderStyle = orderStyle order := rfl

theorem baseResult_fillPrice :
    (baseResult order target observed config depth vi).fillPrice = none := rfl

theorem baseResult_quote (target : Int) (tick : Tick) :
    (baseResult order (some target) (some tick) config depth vi).side = sideOf order ∧
    (baseResult order (some target) (some tick) config depth vi).bestBid = tick.bestBid.float? ∧
    (baseResult order (some target) (some tick) config depth vi).bestAsk = tick.bestAsk.float? ∧
    (baseResult order (some target) (some tick) config depth vi).observedPrice =
      tick.price.float? := by
  unfold baseResult
  dsimp only [bind_some]
  exact ⟨rfl, rfl, rfl, rfl⟩

variable {order}

theorem baseResult_priced {price : Rat} {limit : Int}
    (hprice : positive? order.price.float? = some price)
    (hlimit : roundPriceToTick price (sideOf order) .passive = some limit) :
    (baseResult order target observed config depth vi).roundedRequestedPrice = some limit ∧
      (baseResult order target observed config depth vi).requestedPrice = some (limit : Rat) := by
  have hrounded : (positive? order.price.float?).bind
      (roundPriceToTick · (sideOf order) .passive) = some limit := by
    rw [hprice]
    exact hlimit
  refine ⟨hrounded, ?_⟩
  unfold baseResult
  dsimp only
  rw [hrounded]
  rfl

theorem baseResult_unpriced (hprice : positive? order.price.float? = none) :
    (baseResult order target observed config depth vi).roundedRequestedPrice = none ∧
      (baseResult order target observed config depth vi).requestedPrice =
        (quoteOf (baseResult order target observed config depth vi).side
          (baseResult order target observed config depth vi).bestBid
          (baseResult order target observed config depth vi).bestAsk).or
          (baseResult order target observed config depth vi).observedPrice := by
  unfold baseResult
  dsimp only
  rw [hprice]
  simp only [bind_none, map_none, none_or, and_self]

end Base

theorem observed_of_filled {order : Order} {ticks : List Tick} {config : FillSimulationConfig}
    {depth vi : Option Fields} {r : FillSimulationResult} {f : Rat}
    (h : simulateFill order ticks config depth vi = some r) (hfill : r.fillPrice = some f) :
    ∃ target tick, observedTick ticks target = some tick ∧
      r = fillAt order (some target) (some tick) config depth vi := by
  have hskipped : ∀ target, (fillAt order target none config depth vi).fillPrice = none :=
    fun _ => rfl
  unfold simulateFill at h
  cases htime : parseTime order.dated with
  | none =>
    rw [htime] at h
    obtain rfl := some.inj h
    rw [hskipped] at hfill
    cases hfill
  | some time =>
    rw [htime] at h
    obtain ⟨target, -, rfl⟩ := map_eq_some_iff.mp h
    cases hobserved : observedTick ticks target with
    | none =>
      rw [hobserved, hskipped] at hfill
      cases hfill
    | some tick => exact ⟨target, tick, hobserved, rfl⟩

/-- A fill reported for a limit order is as it should be exactly if the order has a price of its own
or what stands in for it fits the grid. The tick is the one that the simulator looks at. -/
theorem limit_fill_iff {order : Order} {ticks : List Tick} {config : FillSimulationConfig}
    {depth vi : Option Fields} {r : FillSimulationResult} {f : Rat}
    (h : simulateFill order ticks config depth vi = some r) (hstyle : orderStyle order ≠ .market)
    (hfill : r.fillPrice = some f) :
    ∃ target tick, observedTick ticks target = some tick ∧
      r = fillAt order (some target) (some tick) config depth vi ∧
      (LimitFill r f ↔ Priced order ∨ BenchmarkFits (sideOf order) tick.bestBid.float?
        tick.bestAsk.float? tick.price.float?) := by
  obtain ⟨target, tick, hobserved, rfl⟩ := observed_of_filled h hfill
  refine ⟨target, tick, hobserved, rfl, ?_⟩
  have hresult : fillAt order (some target) (some tick) config depth vi =
      resultOf (baseResult order (some target) (some tick) config depth vi) config := by
    unfold fillAt
    rw [if_neg nofun]
  rw [hresult] at hfill ⊢
  have hstyle' := baseResult_orderStyle order (some target) (some tick) config depth vi
  have hnone := baseResult_fillPrice order (some target) (some tick) config depth vi
  obtain ⟨hside, hbid, hask, hlast⟩ := baseResult_quote order config depth vi target tick
  rw [← hstyle'] at hstyle
  cases hprice : positive? order.price.float? with
  | some price =>
    obtain ⟨hraw, hpos⟩ := positive?_eq_some_iff.mp hprice
    obtain ⟨limit, hlimit, hgrid⟩ := limit_grid hpos (sideOf order)
    obtain ⟨hrounded, hrequested⟩ := baseResult_priced (some target) (some tick) config depth vi
      hprice hlimit
    exact iff_of_true (limitFill_of_priced hnone hstyle hgrid hrounded hrequested hfill)
      (.inl ⟨price, hraw, hpos⟩)
  | none =>
    have hunpriced : ¬ Priced order := by
      rintro ⟨price, hraw, hpos⟩
      exact absurd (positive?_eq_none_iff.mp hprice price hraw) (not_le.mpr hpos)
    obtain ⟨hrounded, hrequested⟩ := baseResult_unpriced (some target) (some tick) config depth vi
      hprice
    rw [limitFill_iff_of_unpriced hnone hstyle hrounded hrequested hfill,
      or_iff_right hunpriced, hside, hbid, hask, hlast]

/-! ## Fixed orders -/

def limitOrder (price : Int) : Order :=
  { createdAt := .str "2026-06-01T09:00:00", price := .int price, quantity := .int 10 }

def askTick (price bestAsk : Int) : Tick :=
  { timestamp := .str "2026-06-01T09:00:01", price := .int price, bestAsk := .int bestAsk }

/-- A limit of 10010 is filled at an offer of 9990. -/
theorem limit_fill_9990 : ∃ r,
    simulateFill (limitOrder 10010) [askTick 9980 9990] {} none none = some r ∧
      r.fillPrice = some 9990 ∧ LimitFill r 9990 := by
  have hfilled : (simulateFill (limitOrder 10010) [askTick 9980 9990] {} none none).map
      (·.fillPrice) = some (some 9990) := by decide +kernel
  obtain ⟨r, hr, hfill⟩ := map_eq_some_iff.mp hfilled
  obtain ⟨_, _, _, _, hiff⟩ := limit_fill_iff hr (by decide +kernel) hfill
  exact ⟨r, hr, hfill, hiff.mpr (.inl ⟨10010, by decide +kernel, by decide⟩)⟩

/-- Without a price, an order is filled at an offer of 10005, which is no grid price. -/
theorem unpriced_fill_off_grid : ∃ r,
    simulateFill (limitOrder 0) [askTick 10000 10005] {} none none = some r ∧
      orderStyle (limitOrder 0) = .limit ∧ r.fillPrice = some 10005 ∧ ¬ LimitFill r 10005 := by
  have hfilled : (simulateFill (limitOrder 0) [askTick 10000 10005] {} none none).map
      (·.fillPrice) = some (some 10005) := by decide +kernel
  obtain ⟨r, hr, hfill⟩ := map_eq_some_iff.mp hfilled
  refine ⟨r, hr, by decide +kernel, hfill, fun h => ?_⟩
  obtain ⟨g, hg, hgrid⟩ := h.grid
  obtain rfl : g = 10005 := by exact_mod_cast hg.symm
  exact absurd hgrid (by decide)

end TradingCore.Simulation
