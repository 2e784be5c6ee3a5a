import TradingCore.Prices.PriceGrid

/-!
# Counting ticks

The tick provider counts ticks from a grid price. A tick up is a tick of the band that it starts
in, which leads to the next grid price. A tick down is of that band too, and from the lower edge of
a band that is too much: below the edge the grid prices are closer to each other.

* `addTicks_eq` — ticks up count grid prices;
* `subtractTicks_spec` — ticks down count grid prices exactly as long as they stay in the band, and
  else skip some of them;
* `ticks_count_iff` — so they undo each other only inside a band.
-/

namespace TradingCore.Prices

open Base TickSizeProvider

/-- The rounding of a price finds the nearest grid price, keeps it, and is monotone. -/
def RoundsRight (price : Rat) (side : Side) (direction : Direction) : Prop :=
  ∃ r, roundPriceToTick price side direction = some r ∧
    NearestGridPrice price side direction r ∧
    roundPriceToTick r side direction = some r ∧
    ∀ price' ≥ price, ∃ r' ≥ r, roundPriceToTick price' side direction = some r'

/-- From a grid price, `n` ticks up and `n` ticks down lead to the `n`-th grid price on that side
and back. -/
structure TicksCount (g n : ℕ) : Prop where
  up : standard.addTicks g n = nthNext OnGrid g n
  down : n ≤ countBefore OnGrid g → standard.subtractTicks g n = nthPrevious OnGrid g n
  up_down : standard.subtractTicks (standard.addTicks g n) n = g
  down_up : n ≤ countBefore OnGrid g → standard.addTicks (standard.subtractTicks g n) n = g

theorem roundsRight {price : Rat} (h : 1 ≤ price) (side : Side) (direction : Direction) :
    RoundsRight price side direction := by
  obtain ⟨r, hround, hnearest⟩ := roundPriceToTick_nearest h side direction
  have hr : (1 : Rat) ≤ r := by
    have := hnearest.gridPrice.1
    exact_mod_cast (by omega : (1 : Int) ≤ r)
  refine ⟨r, hround, hnearest, ?_, ?_⟩
  · obtain ⟨r', hround', hnearest'⟩ := roundPriceToTick_nearest hr side direction
    rw [hround', hnearest'.eq_of_grid hnearest.gridPrice]
  · intro price' hle
    obtain ⟨r', hround', hnearest'⟩ := roundPriceToTick_nearest (h.trans hle) side direction
    exact ⟨r', hnearest.mono hnearest' hle, hround'⟩

/-! ## Ticks up -/

def nextPrice (g : ℕ) : ℕ := g + (tickSize g).toNat

theorem nextPrice_cast (g : ℕ) : (nextPrice g : Int) = g + tickSize g := by
  have := tickSize_pos g
  unfold nextPrice
  omega

theorem add_tickSize_le {g lo hi : Int} (hg : GridPrice g) (hband : Band lo hi (tickSize g))
    (hlo : lo ≤ g) (hhi : g < hi) : g + tickSize g ≤ hi := by
  have hdvd : tickSize g ∣ hi - g :=
    Int.dvd_sub hband.hi_dvd ((hband.mem_grid hlo hhi).mp hg)
  have := Int.le_of_dvd (by omega) hdvd
  omega

theorem stepsTo_nextPrice : StepsTo OnGrid nextPrice where
  mem := by
    intro g hg
    unfold OnGrid at hg ⊢
    rw [nextPrice_cast]
    obtain ⟨lo, hi, hband, hlo, hhi⟩ := exists_band_int hg.1
    have hpos := hband.tick_pos
    rcases lt_or_eq_of_le (add_tickSize_le hg hband hlo hhi) with hlt | heq
    · exact (hband.mem_grid (by omega) hlt).mpr
        (Int.dvd_add (Int.dvd_of_emod_eq_zero hg.2) (Int.dvd_refl _))
    · rw [heq]
      exact hband.top
  lt := by
    intro g _
    have := tickSize_pos g
    have := nextPrice_cast g
    omega
  none := by
    intro g hg x hlt hlt' hx
    unfold OnGrid at hg hx
    have hnext := nextPrice_cast g
    obtain ⟨lo, hi, hband, hlo, hhi⟩ := exists_band_int hg.1
    have hle := add_tickSize_le hg hband hlo hhi
    -- both are multiples of the band's tick size, and less than one of them apart
    have hdvd : tickSize g ∣ (x : Int) - g :=
      Int.dvd_sub ((hband.mem_grid (by omega) (by omega)).mp hx) ((hband.mem_grid hlo hhi).mp hg)
    have := Int.le_of_dvd (by omega) hdvd
    omega

theorem up_eq (x : Int) : standard.up x = x + tickSize x := by
  unfold up standard
  dsimp only

theorem down_eq (x : Int) : standard.down x = max 0 (x - tickSize x) := by
  unfold down standard
  dsimp only

theorem iterate_up (g n : ℕ) : standard.up^[n] (g : Int) = (nextPrice^[n] g : ℕ) := by
  induction n with
  | zero => rfl
  | succ n ih =>
    rw [Function.iterate_succ_apply', Function.iterate_succ_apply', ih, nextPrice_cast, up_eq]

theorem addTicks_eq {g : ℕ} (hg : OnGrid g) (n : ℕ) :
    standard.addTicks g n = nthNext OnGrid g n := by
  unfold addTicks
  rw [max_eq_right (Int.natCast_nonneg g), Int.toNat_natCast, iterate_up,
    nthNext_eq_iterate stepsTo_nextPrice hg]

/-! ## Ticks down -/

theorem tickSize_dvd {x y : Int} (hx : 0 ≤ x) (hle : x ≤ y) : tickSize x ∣ tickSize y := by
  refine Int.dvd_of_emod_eq_zero ?_
  unfold tickSize
  dsimp only
  split_ifs <;> omega

theorem down_grid {x : Int} (hx : GridPrice x) :
    standard.down x < x ∧ (standard.down x = 0 ∨ GridPrice (standard.down x)) := by
  have hpos := tickSize_pos x
  obtain ⟨hx0, hmod⟩ := hx
  rw [down_eq]
  refine ⟨by omega, ?_⟩
  rcases le_or_gt (x - tickSize x) 0 with hle | hgt
  · exact .inl (max_eq_left hle)
  · right
    rw [max_eq_right hgt.le]
    refine ⟨hgt, Int.emod_eq_zero_of_dvd ?_⟩
    -- the tick sizes of the lower bands divide those of the higher ones
    have hdvd : tickSize x ∣ x - tickSize x :=
      Int.dvd_sub (Int.dvd_of_emod_eq_zero hmod) (Int.dvd_refl _)
    exact (tickSize_dvd hgt.le (by omega)).trans hdvd

theorem le_of_lt_nextPrice {x : Int} {y : ℕ} (hx : x = 0 ∨ GridPrice x) (hy : OnGrid y)
    (hlt : x < nextPrice y) : x ≤ y := by
  rcases hx with rfl | hgrid
  · exact Int.natCast_nonneg y
  · by_contra hgt
    obtain ⟨x, rfl⟩ := Int.eq_ofNat_of_zero_le hgrid.1.le
    exact stepsTo_nextPrice.none y hy x (by omega) (by omega) hgrid

theorem subtractTicks_spec {g : ℕ} (hg : OnGrid g) (n : ℕ) (hn : n ≤ countBefore OnGrid g) :
    tickSize (nthPrevious OnGrid g n) ≤ tickSize g ∧
    (standard.subtractTicks g n = 0 ∨ GridPrice (standard.subtractTicks g n)) ∧
    standard.subtractTicks g n ≤ nthPrevious OnGrid g n ∧
    (standard.subtractTicks g n = nthPrevious OnGrid g n ↔
      tickSize (nthPrevious OnGrid g n) = tickSize g) := by
  unfold subtractTicks
  rw [max_eq_right (Int.natCast_nonneg g), Int.toNat_natCast]
  induction n with
  | zero =>
    rw [nthPrevious_zero hg]
    exact ⟨le_rfl, .inr hg, le_rfl, iff_of_true rfl rfl⟩
  | succ n ih =>
    obtain ⟨htick, hgrid, hle, hiff⟩ := ih (by omega)
    have hnext := next_nthPrevious_succ stepsTo_nextPrice hg hn
    have hy := (stepsTo_nextPrice.nthPrevious_spec hg hn).1
    rw [Function.iterate_succ_apply']
    set y := nthPrevious OnGrid g (n + 1)
    set d := standard.down^[n] (g : Int)
    rw [← hnext] at htick hle hiff
    have hcast := nextPrice_cast y
    have hypos : (0 : Int) < y := hy.1
    have hmono : tickSize y ≤ tickSize (nextPrice y) :=
      tickSize_mono hypos.le (by have := tickSize_pos y; omega)
    by_cases hsame : d = nextPrice y
    · -- nothing was skipped so far; the step is a tick of the band it starts in
      have hdown : standard.down d = max 0 (y + tickSize y - tickSize (nextPrice y)) := by
        rw [hsame, down_eq, hcast]
      have hticks := hiff.mp hsame
      have hd : GridPrice d := by
        rw [hsame]
        exact stepsTo_nextPrice.mem y hy
      rw [← hticks]
      refine ⟨hmono, (down_grid hd).2, by omega, by omega⟩
    · -- a price skipped stays skipped
      have hdlt : d < nextPrice y := lt_of_le_of_ne hle hsame
      have hticks : tickSize (nextPrice y) ≠ tickSize g := fun h => hsame (hiff.mpr h)
      have hdy : d ≤ y := le_of_lt_nextPrice hgrid hy hdlt
      have hdown : standard.down d < y ∧
          (standard.down d = 0 ∨ GridPrice (standard.down d)) := by
        rcases hgrid with hzero | hd
        · rw [hzero]
          exact ⟨hypos, .inl rfl⟩
        · exact ⟨lt_of_lt_of_le (down_grid hd).1 hdy, (down_grid hd).2⟩
      refine ⟨by omega, hdown.2, hdown.1.le, ?_⟩
      exact iff_of_false (by omega) (by omega)

/-! ## Both ways -/

/-- Ticks up and down lead to the grid prices counted and back exactly if the tick size of the grid
price counted is that of the start, on both sides; rounding always finds the nearest grid price. -/
theorem ticks_count_iff {g : ℕ} (hg : OnGrid g) (n : ℕ) :
    ((∀ price ≥ 1, ∀ side direction, RoundsRight price side direction) ∧ TicksCount g n) ↔
      tickSize (nthNext OnGrid g n) = tickSize g ∧
        (n ≤ countBefore OnGrid g → tickSize (nthPrevious OnGrid g n) = tickSize g) := by
  have hadd := addTicks_eq hg n
  have hnext : OnGrid (nthNext OnGrid g n) := by
    rw [nthNext_eq_iterate stepsTo_nextPrice hg]
    exact (stepsTo_nextPrice.iterate hg n).1
  obtain ⟨hcount, hback⟩ := nthPrevious_nthNext stepsTo_nextPrice hg n
  -- from the `n`-th next grid price, `g` is the `n`-th previous one
  have hundo := (subtractTicks_spec hnext n hcount).2.2.2
  rw [hback] at hundo
  constructor
  · rintro ⟨-, hticks⟩
    refine ⟨?_, fun hn => (subtractTicks_spec hg n hn).2.2.2.mp (hticks.down hn)⟩
    have hup := hticks.up_down
    rw [hadd] at hup
    exact (hundo.mp hup).symm
  · rintro ⟨hup, hdown⟩
    refine ⟨fun price h side direction => roundsRight h side direction, hadd, ?_, ?_, ?_⟩
    · intro hn
      exact (subtractTicks_spec hg n hn).2.2.2.mpr (hdown hn)
    · rw [hadd]
      exact hundo.mpr hup.symm
    · intro hn
      obtain ⟨hmem, -⟩ := stepsTo_nextPrice.nthPrevious_spec hg hn
      rw [(subtractTicks_spec hg n hn).2.2.2.mpr (hdown hn), addTicks_eq hmem,
        nthNext_eq_iterate stepsTo_nextPrice hmem, iterate_nthPrevious stepsTo_nextPrice hg hn]

/-! ## Fixed prices -/

/-- One tick from 2500, both ways: 2505 and 2495 are in its band. -/
theorem ticks_count_2500 :
    (∀ price ≥ 1, ∀ side direction, RoundsRight price side direction) ∧ TicksCount 2500 1 := by
  have hg : OnGrid 2500 := by decide
  refine (ticks_count_iff hg 1).mpr ⟨?_, ?_⟩
  · rw [nthNext_eq_iterate stepsTo_nextPrice hg]
    decide
  · intro hn
    -- the grid price before 2500 is not below 2000, where one would be between
    have hnext := next_nthPrevious_succ stepsTo_nextPrice hg hn
    rw [nthPrevious_zero hg] at hnext
    have hcast := nextPrice_cast (nthPrevious OnGrid 2500 1)
    have hpos := tickSize_pos (nthPrevious OnGrid 2500 1)
    rw [hnext] at hcast
    generalize (nthPrevious OnGrid 2500 1 : Int) = y at hcast hpos ⊢
    unfold tickSize at hcast hpos ⊢
    dsimp only at hcast hpos ⊢
    split_ifs at hcast hpos ⊢ <;> omega

/-- A tick down from 2000 leads to 1995, though 1999 is the grid price before; so a tick up from
1999 is not undone by a tick down. -/
theorem tick_down_from_edge :
    standard.addTicks 1999 1 = 2000 ∧ standard.subtractTicks 2000 1 = 1995 ∧
      GridPrice 1999 ∧ ¬ TicksCount 1999 1 := by
  refine ⟨by decide, by decide, by decide, ?_⟩
  intro h
  exact absurd h.up_down (by decide)

end TradingCore.Prices
