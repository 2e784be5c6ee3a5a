import Mathlib.Data.Rat.Floor
import Mathlib.Tactic.Positivity
import TradingCore.Base.NthNext
import TradingCore.Prices.TickSizes

/-!
# The price grid

A grid price is a multiple of the tick size of its band. The fill simulator rounds a price to the
grid in four ways. A price is rounded with the tick size of its own band, and that is right also at
the edges, since the lower edge of each band is a multiple of the tick sizes on both sides of it.

* `isGreatest_floor`, `isLeast_ceil` — rounding with the tick size of the price's band;
* `roundPriceToTick_nearest` — the four ways find the nearest grid price on their side.
-/

namespace TradingCore.Prices

open Base

/-- A side of an order. -/
inductive Side
  | buy | sell
deriving DecidableEq

/-- Which way `round_price_to_tick` rounds. -/
inductive Direction
  | passive | aggressive

def krxStockTickSize (price : Rat) : Option Int :=
  if price ≤ 0 then none
  else if price < 2000 then some 1
  else if price < 5000 then some 5
  else if price < 20000 then some 10
  else if price < 50000 then some 50
  else if price < 200000 then some 100
  else if price < 500000 then some 500
  else some 1000

def roundPriceToTick (price : Rat) (side : Side) (direction : Direction) : Option Int :=
  match krxStockTickSize price with
  | none => none
  | some tick =>
      let rounded := match direction, side with
        | .aggressive, .buy => ⌈price / tick⌉ * tick
        | .aggressive, .sell => ⌊price / tick⌋ * tick
        | .passive, .buy => ⌊price / tick⌋ * tick
        | .passive, .sell => ⌈price / tick⌉ * tick
      some (max tick rounded)

def GridPrice (g : Int) : Prop := 0 < g ∧ g % tickSize g = 0

instance : DecidablePred GridPrice := fun _ => inferInstanceAs (Decidable (_ ∧ _))

def OnGrid (g : ℕ) : Prop := GridPrice g

instance : DecidablePred OnGrid := fun g => inferInstanceAs (Decidable (GridPrice g))

/-! ## Bands -/

/-- The rounding goes down: passive buys and aggressive sells. -/
def RoundsDown (side : Side) (direction : Direction) : Prop :=
  (side = .buy ∧ direction = .passive) ∨ (side = .sell ∧ direction = .aggressive)

/-- `r` is the greatest grid price up to `price` if the rounding goes down, else the least one from
`price` on. -/
def NearestGridPrice (price : Rat) (side : Side) (direction : Direction) (r : Int) : Prop :=
  (RoundsDown side direction → IsGreatest {g : Int | GridPrice g ∧ (g : Rat) ≤ price} r) ∧
    (¬ RoundsDown side direction → IsLeast {g : Int | GridPrice g ∧ price ≤ (g : Rat)} r)

/-- The prices from `lo` up to `hi` are a band of the tick size. Its upper edge is a grid price, of
the next band if there is one. -/
structure Band (lo hi tick : Int) : Prop where
  lo_pos : 0 < lo
  tick_pos : 0 < tick
  lo_dvd : tick ∣ lo
  hi_dvd : tick ∣ hi
  size : ∀ x, lo ≤ x → x < hi → tickSize x = tick
  top : GridPrice hi

theorem tickSize_pos (x : Int) : 0 < tickSize x := by
  unfold tickSize
  dsimp only
  split_ifs <;> decide

theorem tickSize_mono {x y : Int} (hx : 0 ≤ x) (hle : x ≤ y) : tickSize x ≤ tickSize y := by
  unfold tickSize
  dsimp only
  split_ifs <;> omega

theorem exists_band {price : Rat} (h : 1 ≤ price) :
    ∃ lo hi tick : Int, Band lo hi tick ∧ (lo : Rat) ≤ price ∧ price < hi ∧
      krxStockTickSize price = some tick := by
  have hband : ∀ lo hi tick : Int, 0 < lo → 0 < tick → lo % tick = 0 → hi % tick = 0 →
      (∀ x, lo ≤ x → x < hi → tickSize x = tick) → GridPrice hi → Band lo hi tick :=
    fun lo hi tick hlo htick hdvd hdvd' hsize htop =>
      ⟨hlo, htick, Int.dvd_of_emod_eq_zero hdvd, Int.dvd_of_emod_eq_zero hdvd', hsize, htop⟩
  unfold krxStockTickSize
  rw [if_neg (by linarith)]
  split_ifs with h1 h2 h3 h4 h5 h6
  · exact ⟨1, 2000, 1, hband _ _ _ (by decide) (by decide) (by decide) (by decide)
      (fun x _ _ => by unfold tickSize; dsimp only; split_ifs <;> omega) (by decide),
      by exact_mod_cast h, by exact_mod_cast h1, rfl⟩
  · exact ⟨2000, 5000, 5, hband _ _ _ (by decide) (by decide) (by decide) (by decide)
      (fun x _ _ => by unfold tickSize; dsimp only; split_ifs <;> omega) (by decide),
      by exact_mod_cast not_lt.mp h1, by exact_mod_cast h2, rfl⟩
  · exact ⟨5000, 20000, 10, hband _ _ _ (by decide) (by decide) (by decide) (by decide)
      (fun x _ _ => by unfold tickSize; dsimp only; split_ifs <;> omega) (by decide),
      by exact_mod_cast not_lt.mp h2, by exact_mod_cast h3, rfl⟩
  · exact ⟨20000, 50000, 50, hband _ _ _ (by decide) (by decide) (by decide) (by decide)
      (fun x _ _ => by unfold tickSize; dsimp only; split_ifs <;> omega) (by decide),
      by exact_mod_cast not_lt.mp h3, by exact_mod_cast h4, rfl⟩
  · exact ⟨50000, 200000, 100, hband _ _ _ (by decide) (by decide) (by decide) (by decide)
      (fun x _ _ => by unfold tickSize; dsimp only; split_ifs <;> omega) (by decide),
      by exact_mod_cast not_lt.mp h4, by exact_mod_cast h5, rfl⟩
  · exact ⟨200000, 500000, 500, hband _ _ _ (by decide) (by decide) (by decide) (by decide)
      (fun x _ _ => by unfold tickSize; dsimp only; split_ifs <;> omega) (by decide),
      by exact_mod_cast not_lt.mp h5, by exact_mod_cast h6, rfl⟩
  · -- the last band has no upper edge; any grid price above will do
    have hfloor : 500000 ≤ ⌊price⌋ := Int.le_floor.mpr (by exact_mod_cast not_lt.mp h6)
    refine ⟨500000, 1000 * (⌊price⌋ + 1), 1000, hband _ _ _ (by decide) (by decide) (by decide)
      (by omega) (fun x _ _ => by unfold tickSize; dsimp only; split_ifs <;> omega) ⟨by omega, ?_⟩,
      by exact_mod_cast not_lt.mp h6, ?_, rfl⟩
    · unfold tickSize
      dsimp only
      split_ifs <;> omega
    · have hlt := Int.lt_floor_add_one price
      have : (0 : Rat) ≤ ⌊price⌋ := by exact_mod_cast (by omega : (0 : Int) ≤ ⌊price⌋)
      push_cast
      linarith

theorem Band.mem_grid {lo hi tick x : Int} (hband : Band lo hi tick) (hlo : lo ≤ x) (hhi : x < hi) :
    GridPrice x ↔ tick ∣ x := by
  have := hband.lo_pos
  unfold GridPrice
  rw [hband.size x hlo hhi]
  exact ⟨fun h => Int.dvd_of_emod_eq_zero h.2, fun h => ⟨by omega, Int.emod_eq_zero_of_dvd h⟩⟩

theorem exists_band_int {x : Int} (h : 0 < x) :
    ∃ lo hi, Band lo hi (tickSize x) ∧ lo ≤ x ∧ x < hi := by
  obtain ⟨lo, hi, tick, hband, hlo, hhi, -⟩ :=
    @exists_band (x : Rat) (by exact_mod_cast (by omega : (1 : Int) ≤ x))
  have hlo : lo ≤ x := by exact_mod_cast hlo
  have hhi : x < hi := by exact_mod_cast hhi
  exact ⟨lo, hi, by rw [hband.size x hlo hhi]; exact hband, hlo, hhi⟩

/-! ## Rounding -/

section Rounding

variable {lo hi tick : Int} {price : Rat}

theorem isGreatest_floor (hband : Band lo hi tick) (hlo : (lo : Rat) ≤ price)
    (hhi : price < hi) :
    IsGreatest {g : Int | GridPrice g ∧ (g : Rat) ≤ price} (⌊price / tick⌋ * tick) := by
  have htick : (0 : Rat) < tick := by exact_mod_cast hband.tick_pos
  have hle : ((⌊price / tick⌋ * tick : Int) : Rat) ≤ price := by
    push_cast
    exact (le_div_iff₀ htick).mp (Int.floor_le _)
  have hmax : ∀ g : Int, tick ∣ g → (g : Rat) ≤ price → g ≤ ⌊price / tick⌋ * tick := by
    rintro _ ⟨k, rfl⟩ hg
    have hk : k ≤ ⌊price / tick⌋ := by
      refine Int.le_floor.mpr ((le_div_iff₀ htick).mpr ?_)
      push_cast at hg
      linarith
    rw [Int.mul_comm]
    exact Int.mul_le_mul_of_nonneg_right hk hband.tick_pos.le
  have hin : lo ≤ ⌊price / tick⌋ * tick := hmax lo hband.lo_dvd hlo
  refine ⟨⟨(hband.mem_grid hin ?_).mpr (Int.dvd_mul_left ..), hle⟩, ?_⟩
  · exact_mod_cast lt_of_le_of_lt hle hhi
  · rintro g ⟨hg, hgle⟩
    by_cases hbelow : g < lo
    · omega
    · have hghi : g < hi := by exact_mod_cast lt_of_le_of_lt hgle hhi
      exact hmax g ((hband.mem_grid (by omega) hghi).mp hg) hgle

theorem isLeast_ceil (hband : Band lo hi tick) (hlo : (lo : Rat) ≤ price) (hhi : price < hi) :
    IsLeast {g : Int | GridPrice g ∧ price ≤ (g : Rat)} (⌈price / tick⌉ * tick) := by
  have htick : (0 : Rat) < tick := by exact_mod_cast hband.tick_pos
  have hge : price ≤ ((⌈price / tick⌉ * tick : Int) : Rat) := by
    push_cast
    exact (div_le_iff₀ htick).mp (Int.le_ceil _)
  have hmin : ∀ g : Int, tick ∣ g → price ≤ (g : Rat) → ⌈price / tick⌉ * tick ≤ g := by
    rintro _ ⟨k, rfl⟩ hg
    have hk : ⌈price / tick⌉ ≤ k := by
      refine Int.ceil_le.mpr ((div_le_iff₀ htick).mpr ?_)
      push_cast at hg
      linarith
    rw [Int.mul_comm tick]
    exact Int.mul_le_mul_of_nonneg_right hk hband.tick_pos.le
  have hin : ⌈price / tick⌉ * tick ≤ hi := hmin hi hband.hi_dvd hhi.le
  have hlo' : lo ≤ ⌈price / tick⌉ * tick := by exact_mod_cast hlo.trans hge
  refine ⟨⟨?_, hge⟩, ?_⟩
  · -- the price found is in the band or its upper edge
    rcases lt_or_eq_of_le hin with hlt | heq
    · exact (hband.mem_grid hlo' hlt).mpr (Int.dvd_mul_left ..)
    · rw [heq]
      exact hband.top
  · rintro g ⟨hg, hgle⟩
    by_cases habove : hi ≤ g
    · omega
    · have hlog : lo ≤ g := by exact_mod_cast hlo.trans hgle
      exact hmin g ((hband.mem_grid hlog (by omega)).mp hg) hgle

theorem le_of_gridPrice {g : Int} (hband : Band lo hi tick) (hg : GridPrice g) (hlo : lo ≤ g)
    (hhi : g ≤ hi) : tick ≤ g := by
  have hdvd : tick ∣ g := by
    rcases lt_or_eq_of_le hhi with hlt | heq
    · exact (hband.mem_grid hlo hlt).mp hg
    · rw [heq]
      exact hband.hi_dvd
  exact Int.le_of_dvd hg.1 hdvd

theorem roundPriceToTick_nearest (h : 1 ≤ price) (side : Side) (direction : Direction) :
    ∃ r, roundPriceToTick price side direction = some r ∧
      NearestGridPrice price side direction r := by
  obtain ⟨lo, hi, tick, hband, hlo, hhi, hsize⟩ := exists_band h
  have hfloor := isGreatest_floor hband hlo hhi
  have hceil := isLeast_ceil hband hlo hhi
  have hlohi : lo < hi := by exact_mod_cast lt_of_le_of_lt hlo hhi
  have hmaxFloor : max tick (⌊price / tick⌋ * tick) = ⌊price / tick⌋ * tick := by
    refine max_eq_right (le_of_gridPrice hband hfloor.1.1 ?_ ?_)
    · exact hfloor.2 ⟨(hband.mem_grid le_rfl hlohi).mpr hband.lo_dvd, hlo⟩
    · exact_mod_cast hfloor.1.2.trans hhi.le
  have hmaxCeil : max tick (⌈price / tick⌉ * tick) = ⌈price / tick⌉ * tick := by
    refine max_eq_right (le_of_gridPrice hband hceil.1.1 ?_ (hceil.2 ⟨hband.top, hhi.le⟩))
    exact_mod_cast hlo.trans hceil.1.2
  unfold roundPriceToTick NearestGridPrice RoundsDown
  rw [hsize]
  cases side with
  | buy =>
    cases direction with
    | passive => exact ⟨_, rfl, by simpa [hmaxFloor] using hfloor⟩
    | aggressive => exact ⟨_, rfl, by simpa [hmaxCeil] using hceil⟩
  | sell =>
    cases direction with
    | passive => exact ⟨_, rfl, by simpa [hmaxCeil] using hceil⟩
    | aggressive => exact ⟨_, rfl, by simpa [hmaxFloor] using hfloor⟩

variable {side : Side} {direction : Direction}

theorem NearestGridPrice.eq_of_grid {g r : Int} (h : NearestGridPrice g side direction r)
    (hg : GridPrice g) : r = g := by
  by_cases hdown : RoundsDown side direction
  · have hgreatest := h.1 hdown
    exact hgreatest.unique ⟨⟨hg, le_rfl⟩, fun x hx => by exact_mod_cast hx.2⟩
  · have hleast := h.2 hdown
    exact hleast.unique ⟨⟨hg, le_rfl⟩, fun x hx => by exact_mod_cast hx.2⟩

theorem NearestGridPrice.mono {price' : Rat} {r r' : Int}
    (h : NearestGridPrice price side direction r) (h' : NearestGridPrice price' side direction r')
    (hle : price ≤ price') : r ≤ r' := by
  by_cases hdown : RoundsDown side direction
  · exact (h'.1 hdown).2 ⟨(h.1 hdown).1.1, (h.1 hdown).1.2.trans hle⟩
  · exact (h.2 hdown).2 ⟨(h'.2 hdown).1.1, hle.trans (h'.2 hdown).1.2⟩

theorem NearestGridPrice.gridPrice {r : Int} (h : NearestGridPrice price side direction r) :
    GridPrice r := by
  by_cases hdown : RoundsDown side direction
  · exact (h.1 hdown).1.1
  · exact (h.2 hdown).1.1

variable {side : Side} {direction : Direction}

theorem roundPriceToTick_nonpos (h : price ≤ 0) :
    roundPriceToTick price side direction = none := by
  unfold roundPriceToTick krxStockTickSize
  rw [if_pos h]

theorem roundPriceToTick_small (hpos : 0 < price) (hlt : price < 1) :
    roundPriceToTick price side direction = some 1 := by
  have hfloor : ⌊price⌋ = 0 := Int.floor_eq_zero_iff.mpr ⟨hpos.le, hlt⟩
  have hceil : ⌈price⌉ = 1 := by
    refine Int.ceil_eq_iff.mpr ⟨?_, ?_⟩
    · push_cast
      linarith
    · push_cast
      exact hlt.le
  unfold roundPriceToTick krxStockTickSize
  rw [if_neg (by linarith), if_pos (by linarith)]
  cases direction <;> cases side <;> simp [hfloor, hceil]

theorem roundPriceToTick_up (hpos : 0 < price) (hup : ¬ RoundsDown side direction) :
    ∃ r : Int, roundPriceToTick price side direction = some r ∧ GridPrice r ∧ price ≤ r ∧
      ∀ g, GridPrice g → price ≤ g → r ≤ g := by
  rcases lt_or_ge price 1 with hlt | hge
  · refine ⟨1, roundPriceToTick_small hpos hlt, by decide, by exact_mod_cast hlt.le, ?_⟩
    intro g hg _
    have := hg.1
    omega
  · obtain ⟨r, hround, hnearest⟩ := roundPriceToTick_nearest hge side direction
    obtain ⟨⟨hgrid, hle⟩, hleast⟩ := hnearest.2 hup
    exact ⟨r, hround, hgrid, hle, fun g hg hge => hleast ⟨hg, hge⟩⟩

theorem roundPriceToTick_down (hpos : 0 < price) (hdown : RoundsDown side direction) :
    ∃ r : Int, roundPriceToTick price side direction = some r ∧ GridPrice r ∧
      (r : Rat) ≤ max 1 price ∧ ∀ g, GridPrice g → g ≤ price → g ≤ r := by
  rcases lt_or_ge price 1 with hlt | hge
  · refine ⟨1, roundPriceToTick_small hpos hlt, by decide, by simp, ?_⟩
    intro g hg hle
    have hg1 : (1 : Rat) ≤ g := by exact_mod_cast (by have := hg.1; omega : (1 : Int) ≤ g)
    linarith
  · obtain ⟨r, hround, hnearest⟩ := roundPriceToTick_nearest hge side direction
    obtain ⟨⟨hgrid, hle⟩, hgreatest⟩ := hnearest.1 hdown
    exact ⟨r, hround, hgrid, le_max_of_le_right hle, fun g hg hle => hgreatest ⟨hg, hle⟩⟩

end Rounding

end TradingCore.Prices
