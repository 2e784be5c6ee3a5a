import Mathlib.Logic.Function.Iterate

/-!
# Tick sizes

The price grid of `trading/rules.py`, and the provider of `strategy/entry.py` that counts ticks up
and down from a price. A provider of one's own has other tick sizes.
-/

namespace TradingCore.Prices

/-- `tick_size`: the step of a price's band. -/
def tickSize (price : Int) : Int :=
  let price : Int := price.natAbs
  if price < 2000 then 1
  else if price < 5000 then 5
  else if price < 20000 then 10
  else if price < 50000 then 50
  else if price < 200000 then 100
  else if price < 500000 then 500
  else 1000

/-- A `TickSizeProvider`, known by its tick sizes. -/
structure TickSizeProvider where
  tickSize : Int → Int

namespace TickSizeProvider

def standard : TickSizeProvider := ⟨Prices.tickSize⟩

def up (provider : TickSizeProvider) (value : Int) : Int := value + provider.tickSize value

def down (provider : TickSizeProvider) (value : Int) : Int :=
  max 0 (value - provider.tickSize value)

def addTicks (provider : TickSizeProvider) (price count : Int) : Int :=
  provider.up^[count.toNat] (max 0 price)

def subtractTicks (provider : TickSizeProvider) (price count : Int) : Int :=
  provider.down^[count.toNat] (max 0 price)

end TickSizeProvider

end TradingCore.Prices
