import TradingCore.Simulation.FillSimulator

/-!
# The tick that the fill simulator looks at

The simulator reads times as they stand on the clock, in whole seconds. Where all times are
written with one offset, that is right but for the fractions of the seconds: the tick that counts
is the first from the order's time on, latency included, or else the last one before.

* `observedTick_right` — the tick that counts, by the clock;
* `looks_at_right_tick` — the tick that counts, by the instants;
* `overlooks_instants` — without one offset, or within a second, it is another tick.
-/

namespace TradingCore.Simulation

open Base Prices List Option

/-! ## What is asked for -/

/-- At the times given, the tick that counts is the first one from the target on, or else the last
one before; there is none if no tick has a time. -/
def RightTick (time : Tick → Option Int) (target : Int) (ticks : List Tick) :
    Option Tick → Prop
  | none => ∀ tick ∈ ticks, time tick = none
  | some observed => observed ∈ ticks ∧ ∃ seen, time observed = some seen ∧
      ((target ≤ seen ∧ ∀ tick ∈ ticks, ∀ i, time tick = some i → target ≤ i → seen ≤ i) ∨
        (seen < target ∧ ∀ tick ∈ ticks, ∀ i, time tick = some i → i < target ∧ i ≤ seen))

def instant? (text : String) : Option Int := (dateTime? text).map DateTime.instant

def second? (text : String) : Option Int :=
  (dateTime? text).map fun d => { d with microsecond := 0 }.instant

def hasOffset (offset : Int) (text : String) : Bool :=
  (dateTime? text).all fun d => d.offset.getD 0 = offset

/-- All times of an order and its ticks are written with one offset. -/
def OneOffset (offset : Int) (order : Order) (ticks : List Tick) : Prop :=
  hasOffset offset order.dated ∧ ∀ tick ∈ ticks, hasOffset offset (tickTimestamp tick)
deriving Decidable

def tickInstant (tick : Tick) : Option Int := instant? (tickTimestamp tick)

def tickSecond (tick : Tick) : Option Int := second? (tickTimestamp tick)

/-- An order dated with another text for the same second. -/
structure SameOrder (order order' : Order) : Prop where
  side : order'.side = order.side
  hoga : order'.hoga = order.hoga
  price : order'.price = order.price
  orderAmount : order'.orderAmount = order.orderAmount
  quantity : order'.quantity = order.quantity
  others : order'.others = order.others
  second : second? order'.dated = second? order.dated

/-- A tick dated with another text for the same second. -/
def SameTick (tick tick' : Tick) : Prop :=
  tickSecond tick' = tickSecond tick ∧
    ∃ timestamp receivedAt createdAt, tick' = { tick with timestamp, receivedAt, createdAt }

/-- The same ticks, in any order and notation. -/
def SameTicks (ticks ticks' : List Tick) : Prop :=
  (∀ tick ∈ ticks, ∃ tick' ∈ ticks', SameTick tick tick') ∧
    ∀ tick' ∈ ticks', ∃ tick ∈ ticks, SameTick tick tick'

def DistinctSeconds (ticks : List Tick) : Prop :=
  ∀ tick ∈ ticks, ∀ tick' ∈ ticks, tickSecond tick = tickSecond tick' →
    tickSecond tick ≠ none → tick = tick'

/-! ## The tick that counts, by the clock -/

theorem pairwise_sortedTicks (ticks : List Tick) :
    (sortedTicks ticks).Pairwise fun a b => (tickTime a).getD 0 ≤ (tickTime b).getD 0 := by
  have : IsTrans Tick fun a b => (tickTime a).getD 0 ≤ (tickTime b).getD 0 :=
    ⟨fun _ _ _ => le_trans⟩
  have : Std.Total fun a b : Tick => (tickTime a).getD 0 ≤ (tickTime b).getD 0 :=
    ⟨fun _ _ => le_total _ _⟩
  exact pairwise_insertionSort _ ticks

variable {ticks : List Tick} {target : Int}

variable {tick : Tick} {time : Tick → Option Int}

theorem mem_sortedTicks : tick ∈ sortedTicks ticks ↔ tick ∈ ticks := mem_insertionSort _

theorem timed_iff {p : Int → Bool} :
    (tickTime tick).any p = true ↔ ∃ i, tickTime tick = some i ∧ p i = true :=
  any_eq_true p _

theorem firstTickAtOrAfter_spec {observed : Tick}
    (h : firstTickAtOrAfter (sortedTicks ticks) target = some observed) :
    observed ∈ ticks ∧ ∃ seen, tickTime observed = some seen ∧ target ≤ seen ∧
      ∀ tick ∈ ticks, ∀ i, tickTime tick = some i → target ≤ i → seen ≤ i := by
  obtain ⟨hat, front, back, hsplit, hfront⟩ := find?_eq_some_iff_append.mp h
  obtain ⟨seen, htime, hle⟩ := timed_iff.mp hat
  refine ⟨mem_sortedTicks.mp (mem_of_find?_eq_some h), seen, htime, of_decide_eq_true hle, ?_⟩
  intro tick hmem i hi hlei
  have hsorted := pairwise_sortedTicks ticks
  have hmem := mem_sortedTicks.mpr hmem
  rw [hsplit] at hsorted hmem
  rcases mem_append.mp hmem with hin | hin
  · -- the ticks in front are before the target
    have hbefore := hfront tick hin
    rw [hi] at hbefore
    simp only [any_some, Bool.not_eq_true', decide_eq_false_iff_not, not_le] at hbefore
    omega
  · rcases mem_cons.mp hin with rfl | hin
    · rw [htime] at hi
      cases hi
      exact le_rfl
    · have := (pairwise_cons.mp (pairwise_append.mp hsorted).2.1).1 tick hin
      rwa [htime, hi] at this

theorem latestTickAtOrBefore_spec {observed : Tick}
    (h : latestTickAtOrBefore (sortedTicks ticks) target = some observed) :
    observed ∈ ticks ∧ ∃ seen, tickTime observed = some seen ∧ seen ≤ target ∧
      ∀ tick ∈ ticks, ∀ i, tickTime tick = some i → i ≤ target → i ≤ seen := by
  obtain ⟨front, hsplit⟩ := getLast?_eq_some_iff.mp h
  have hmem := mem_filter.mp (mem_of_getLast? h)
  obtain ⟨seen, htime, hle⟩ := timed_iff.mp hmem.2
  refine ⟨mem_sortedTicks.mp hmem.1, seen, htime, of_decide_eq_true hle, ?_⟩
  intro tick hmem i hi hlei
  have hsorted := (pairwise_sortedTicks ticks).filter fun tick => (tickTime tick).any (· ≤ target)
  have hin : tick ∈ front ++ [observed] := by
    rw [← hsplit]
    exact mem_filter.mpr ⟨mem_sortedTicks.mpr hmem, timed_iff.mpr ⟨i, hi, decide_eq_true hlei⟩⟩
  rw [hsplit] at hsorted
  rcases mem_append.mp hin with hin | hin
  · have := (pairwise_append.mp hsorted).2.2 tick hin observed mem_cons_self
    rwa [htime, hi] at this
  · rw [mem_singleton.mp hin, htime] at hi
    cases hi
    exact le_rfl

theorem timeless_of_none (h : observedTick ticks target = none) (hmem : tick ∈ ticks) :
    tickTime tick = none := by
  obtain ⟨hfirst, hlatest⟩ := or_eq_none_iff.mp h
  cases htime : tickTime tick with
  | none => rfl
  | some i =>
    have hmem := mem_sortedTicks.mpr hmem
    have hbefore : ¬ target ≤ i := by
      intro hle
      exact absurd (timed_iff.mpr ⟨i, htime, decide_eq_true hle⟩)
        (find?_eq_none.mp hfirst tick hmem)
    have hin : tick ∈ (sortedTicks ticks).filter fun tick => (tickTime tick).any (· ≤ target) :=
      mem_filter.mpr ⟨hmem, timed_iff.mpr ⟨i, htime, decide_eq_true (by omega)⟩⟩
    rw [getLast?_eq_none_iff.mp hlatest] at hin
    cases hin

theorem observedTick_right (ticks : List Tick) (target : Int) :
    RightTick tickTime target ticks (observedTick ticks target) := by
  cases hobserved : observedTick ticks target with
  | none => exact fun tick hmem => timeless_of_none hobserved hmem
  | some observed =>
    rcases or_eq_some_iff.mp hobserved with hfirst | ⟨hnone, hlatest⟩
    · obtain ⟨hmem, seen, htime, hle, hleast⟩ := firstTickAtOrAfter_spec hfirst
      exact ⟨hmem, seen, htime, .inl ⟨hle, hleast⟩⟩
    · obtain ⟨hmem, seen, htime, hle, hlast⟩ := latestTickAtOrBefore_spec hlatest
      -- no tick is from the target on, this one included
      have hbefore : ∀ tick ∈ ticks, ∀ i, tickTime tick = some i → i < target := by
        intro tick hmem i hi
        by_contra hge
        exact absurd (timed_iff.mpr ⟨i, hi, decide_eq_true (not_lt.mp hge)⟩)
          (find?_eq_none.mp hnone tick (mem_sortedTicks.mpr hmem))
      refine ⟨hmem, seen, htime, .inr ⟨hbefore observed hmem seen htime, ?_⟩⟩
      intro tick hmem i hi
      have hlt := hbefore tick hmem i hi
      exact ⟨hlt, hlast tick hmem i hi hlt.le⟩

/-! ## By the instants -/

theorem parseTime_eq {offset : Int} {text : String} (h : hasOffset offset text) :
    parseTime text = (second? text).map (· + offset) := by
  unfold parseTime second?
  cases hparsed : dateTime? text with
  | none => rfl
  | some d =>
    rw [hasOffset, hparsed] at h
    have hoffset : d.offset.getD 0 = offset := of_decide_eq_true h
    refine congrArg some ?_
    show _ = _ - d.offset.getD 0 + offset
    rw [hoffset, Int.sub_add_cancel]
    exact Int.sub_zero _

theorem RightTick.shift {time' : Tick → Option Int} {offset : Int} {observed : Option Tick}
    (htime : ∀ tick ∈ ticks, time' tick = (time tick).map (· + offset))
    (h : RightTick time' (target + offset) ticks observed) :
    RightTick time target ticks observed := by
  have hiff : ∀ tick ∈ ticks, ∀ i, time tick = some i → time' tick = some (i + offset) := by
    intro tick hmem i hi
    rw [htime tick hmem, hi]
    rfl
  cases observed with
  | none =>
    intro tick hmem
    have hnone := h tick hmem
    rw [htime tick hmem] at hnone
    exact map_eq_none_iff.mp hnone
  | some observed =>
    obtain ⟨hmem, seen', hseen', hor⟩ := h
    rw [htime observed hmem] at hseen'
    obtain ⟨seen, hseen, rfl⟩ := map_eq_some_iff.mp hseen'
    refine ⟨hmem, seen, hseen, ?_⟩
    rcases hor with ⟨hle, hleast⟩ | ⟨hlt, hlast⟩
    · refine .inl ⟨by omega, fun tick hmem i hi hle => ?_⟩
      have := hleast tick hmem _ (hiff tick hmem i hi) (by omega)
      omega
    · refine .inr ⟨by omega, fun tick hmem i hi => ?_⟩
      have := hlast tick hmem _ (hiff tick hmem i hi)
      omega

theorem RightTick.time_unique {a b : Tick} (ha : RightTick time target ticks (some a))
    (hb : RightTick time target ticks (some b)) : time a = time b ∧ time a ≠ none := by
  obtain ⟨hamem, i, hi, ha⟩ := ha
  obtain ⟨hbmem, j, hj, hb⟩ := hb
  have hij : i = j := by
    rcases ha with ⟨hle, hleast⟩ | ⟨hlt, hlast⟩
    · rcases hb with ⟨hle', hleast'⟩ | ⟨-, hlast'⟩
      · have := hleast b hbmem j hj hle'
        have := hleast' a hamem i hi hle
        omega
      · have := hlast' a hamem i hi
        omega
    · have := hlast b hbmem j hj
      rcases hb with ⟨hle', -⟩ | ⟨-, hlast'⟩
      · omega
      · have := hlast' a hamem i hi
        omega
  rw [hi, hj, hij]
  exact ⟨rfl, nofun⟩

theorem RightTick.transfer {ticks' : List Tick} (hsame : SameTicks ticks ticks') {observed' : Tick}
    (h : RightTick tickSecond target ticks' (some observed')) :
    ∃ observed, SameTick observed observed' ∧ RightTick tickSecond target ticks (some observed) := by
  obtain ⟨hmem', seen, hseen, hor⟩ := h
  obtain ⟨observed, hmem, hobserved⟩ := hsame.2 observed' hmem'
  refine ⟨observed, hobserved, hmem, seen, by rw [← hobserved.1, hseen], ?_⟩
  have hother : ∀ tick ∈ ticks, ∀ i, tickSecond tick = some i →
      ∃ tick' ∈ ticks', tickSecond tick' = some i := by
    intro tick hmem i hi
    obtain ⟨tick', hmem', htick⟩ := hsame.1 tick hmem
    exact ⟨tick', hmem', by rw [htick.1, hi]⟩
  rcases hor with ⟨hle, hleast⟩ | ⟨hlt, hlast⟩
  · refine .inl ⟨hle, fun tick hmem i hi => ?_⟩
    obtain ⟨tick', hmem', hi'⟩ := hother tick hmem i hi
    exact hleast tick' hmem' i hi'
  · refine .inr ⟨hlt, fun tick hmem i hi => ?_⟩
    obtain ⟨tick', hmem', hi'⟩ := hother tick hmem i hi
    exact hlast tick' hmem' i hi'

theorem RightTick.none_transfer {ticks' : List Tick} (hsame : SameTicks ticks ticks')
    (h : RightTick tickSecond target ticks' none) : RightTick tickSecond target ticks none := by
  intro tick hmem
  obtain ⟨tick', hmem', htick⟩ := hsame.1 tick hmem
  rw [← htick.1]
  exact h tick' hmem'

/-! ## The result -/

section Congr

variable {order order' : Order} (hsame : SameOrder order order')
include hsame

theorem sideOf_same : sideOf order' = sideOf order := by
  unfold sideOf
  rw [hsame.side]

theorem orderStyle_same : orderStyle order' = orderStyle order := by
  unfold orderStyle
  rw [hsame.hoga]

theorem simulatedLatencyMs_same :
    simulatedLatencyMs order' = simulatedLatencyMs order := by
  have hnested : order'.nestedData = order.nestedData := by
    funext key
    unfold Order.nestedData
    rw [hsame.others]
  funext style config
  unfold simulatedLatencyMs
  rw [hnested, hsame.others]

theorem orderAmount_same : orderAmount order' = orderAmount order := by
  funext requestedPrice
  unfold orderAmount
  rw [hsame.orderAmount, hsame.quantity]

variable (config : FillSimulationConfig) (depth vi : Option Fields)

theorem fillAt_none_same (target target' : Option Int) :
    fillAt order' target' none config depth vi = fillAt order target none config depth vi := by
  have hage : ∀ target : Option Int,
      (target.bind fun target => (none : Option Tick).bind (tickAgeSec target)) = none := by
    intro target
    cases target <;> rfl
  unfold fillAt baseResult
  rw [sideOf_same hsame, orderStyle_same hsame, simulatedLatencyMs_same hsame,
    orderAmount_same hsame, hsame.price, hage, hage]

theorem baseResult_same {target target' : Int} {tick tick' : Tick} (htick : SameTick tick tick')
    (hage : tickAgeSec target' tick' = tickAgeSec target tick) :
    baseResult order' (some target') (some tick') config depth vi =
      { baseResult order (some target) (some tick) config depth vi with
        tickTimestamp := tickTimestamp tick' } := by
  obtain ⟨-, timestamp, receivedAt, createdAt, rfl⟩ := htick
  unfold baseResult
  rw [sideOf_same hsame, orderStyle_same hsame, simulatedLatencyMs_same hsame,
    orderAmount_same hsame, hsame.price]
  dsimp only [bind_some]
  rw [hage]
  rfl

end Congr

theorem resultOf_tickTimestamp (base : FillSimulationResult) (config : FillSimulationConfig)
    (text : String) :
    resultOf { base with tickTimestamp := text } config =
      { resultOf base config with tickTimestamp := text } := by
  unfold resultOf
  dsimp only
  split
  · rfl
  · split
    · rfl
    · split
      · rfl
      · split <;> rfl

variable {order : Order} {offset : Int} {ticks : List Tick}

theorem fillAt_same {order' : Order} (hsame : SameOrder order order')
    (config : FillSimulationConfig) (depth vi : Option Fields) {target target' : Int}
    {tick tick' : Tick} (htick : SameTick tick tick')
    (hage : tickAgeSec target' tick' = tickAgeSec target tick) :
    fillAt order' (some target') (some tick') config depth vi =
      { fillAt order (some target) (some tick) config depth vi with
        tickTimestamp := tickTimestamp tick' } := by
  unfold fillAt
  rw [baseResult_same hsame config depth vi htick hage]
  dsimp only
  rw [if_neg nofun, if_neg nofun, resultOf_tickTimestamp]

/-! ## Instants decide -/

theorem tickAgeSec_shift {target : Int} {tick : Tick} (h : hasOffset offset (tickTimestamp tick)) :
    tickAgeSec (target + offset) tick = (tickSecond tick).map fun second =>
      if second ≤ target then ((target - second : Int) : Rat) / 1000000 else 0 := by
  unfold tickAgeSec tickTime tickSecond
  rw [parseTime_eq h, Option.map_map]
  refine map_congr fun second _ => ?_
  dsimp only [Function.comp_apply]
  rw [Int.add_sub_add_right]
  simp only [Int.add_le_add_iff_right]

section

variable (hoffset : OneOffset offset order ticks)
include hoffset

theorem observedTick_second (target : Int) :
    RightTick tickSecond target ticks (observedTick ticks (target + offset)) :=
  RightTick.shift (fun tick hmem => parseTime_eq (hoffset.2 tick hmem))
    (observedTick_right ticks (target + offset))

theorem simulateFill_eq_some {config : FillSimulationConfig} {depth vi : Option Fields}
    {second : Int} {r : FillSimulationResult} (hsecond : second? order.dated = some second)
    (h : simulateFill order ticks config depth vi = some r) :
    ∃ target, target = second + simulatedLatencyMs order (orderStyle order) config * 1000 ∧
      r = fillAt order (some (target + offset)) (observedTick ticks (target + offset))
        config depth vi := by
  unfold simulateFill at h
  rw [parseTime_eq hoffset.1, hsecond] at h
  obtain ⟨target, htarget, rfl⟩ := map_eq_some_iff.mp h
  refine ⟨_, rfl, ?_⟩
  unfold addMilliseconds? at htarget
  split at htarget
  · cases htarget
    rw [Int.add_right_comm]
  · cases htarget

theorem fillAt_right_same {order' : Order} {ticks' : List Tick} {offset' : Int}
    (hoffset' : OneOffset offset' order' ticks') (hsame : SameOrder order order')
    (hticks : SameTicks ticks ticks') (hdistinct : DistinctSeconds ticks)
    (config : FillSimulationConfig) (depth vi : Option Fields) (target : Int) :
    { fillAt order (some (target + offset)) (observedTick ticks (target + offset)) config depth vi
      with tickTimestamp := "" } =
    { fillAt order' (some (target + offset')) (observedTick ticks' (target + offset'))
        config depth vi with tickTimestamp := "" } := by
  have hright := observedTick_second hoffset target
  have hright' := observedTick_second hoffset' target
  cases hobserved : observedTick ticks (target + offset) with
  | none =>
    rw [hobserved] at hright
    cases hobserved' : observedTick ticks' (target + offset') with
    | none => rw [fillAt_none_same hsame config depth vi (some (target + offset))]
    | some observed' =>
      rw [hobserved'] at hright'
      obtain ⟨observed, -, hmem, seen, hseen, -⟩ := hright'.transfer hticks
      rw [hright observed hmem] at hseen
      cases hseen
  | some observed =>
    rw [hobserved] at hright
    cases hobserved' : observedTick ticks' (target + offset') with
    | none =>
      rw [hobserved'] at hright'
      obtain ⟨hmem, seen, hseen, -⟩ := hright
      rw [hright'.none_transfer hticks observed hmem] at hseen
      cases hseen
    | some observed' =>
      rw [hobserved'] at hright'
      obtain ⟨found, hfound, hright₂⟩ := hright'.transfer hticks
      obtain ⟨htime, hne⟩ := hright.time_unique hright₂
      obtain rfl := hdistinct observed hright.1 found hright₂.1 htime hne
      have hage : tickAgeSec (target + offset') observed' =
          tickAgeSec (target + offset) observed := by
        rw [tickAgeSec_shift (hoffset.2 observed hright.1),
          tickAgeSec_shift (hoffset'.2 observed' hright'.1), hfound.1]
      rw [fillAt_same hsame config depth vi hfound hage]

end

/-- Where all times are written with one offset, the simulator looks at the tick that counts by the
instants in whole seconds; and an order and ticks for the same seconds, in another order and with
another offset, are filled alike. It fails only where the calendar ends. -/
theorem looks_at_right_tick (order : Order) (ticks : List Tick) (config : FillSimulationConfig)
    (depth vi : Option Fields) {offset : Int} (hoffset : OneOffset offset order ticks) :
    (∀ second, second? order.dated = some second →
      ∃ observed,
        RightTick tickSecond
          (second + simulatedLatencyMs order (orderStyle order) config * 1000) ticks observed ∧
        simulateFill order ticks config depth vi =
          (addMilliseconds? (second + offset)
            (simulatedLatencyMs order (orderStyle order) config)).map
              fun target => fillAt order (some target) observed config depth vi) ∧
    ∀ order' ticks' offset', OneOffset offset' order' ticks' → SameOrder order order' →
      SameTicks ticks ticks' → DistinctSeconds ticks →
      ∀ r r', simulateFill order ticks config depth vi = some r →
        simulateFill order' ticks' config depth vi = some r' →
        { r with tickTimestamp := "" } = { r' with tickTimestamp := "" } := by
  refine ⟨fun second hsecond => ?_, ?_⟩
  · have hright := observedTick_second hoffset
      (second + simulatedLatencyMs order (orderStyle order) config * 1000)
    refine ⟨_, hright, ?_⟩
    unfold simulateFill
    rw [parseTime_eq hoffset.1, hsecond]
    refine map_congr fun target htarget => ?_
    unfold addMilliseconds? at htarget
    split at htarget
    · cases htarget
      rw [Int.add_right_comm]
    · cases htarget
  · intro order' ticks' offset' hoffset' hsame hticks hdistinct r r' hr hr'
    cases hsecond : second? order.dated with
    | none =>
      -- without a time of the order there is no tick that counts
      unfold simulateFill at hr hr'
      rw [parseTime_eq hoffset.1, hsecond] at hr
      rw [parseTime_eq hoffset'.1, hsame.second, hsecond] at hr'
      rw [← some.inj hr, ← some.inj hr']
      exact congrArg (fun r : FillSimulationResult => { r with tickTimestamp := "" })
        (fillAt_none_same hsame config depth vi none none).symm
    | some second =>
      obtain ⟨target, htarget, rfl⟩ := simulateFill_eq_some hoffset hsecond hr
      obtain ⟨target', htarget', rfl⟩ :=
        simulateFill_eq_some hoffset' (hsame.second.trans hsecond) hr'
      rw [simulatedLatencyMs_same hsame, orderStyle_same hsame, ← htarget] at htarget'
      subst target'
      exact fillAt_right_same hoffset hoffset' hsame hticks hdistinct config depth vi target

/-! ## Fixed orders -/

theorem empty_nested : ∀ key ∈ nestedKeys, (Fields.item Dict.empty key).truthy →
    ∃ e, Fields.item Dict.empty key = .dict e := by
  intro key _ h
  cases h

def orderAt (dated : String) : Order :=
  { createdAt := .str dated, price := .int 10010, quantity := .int 10, nested := empty_nested }

def tickAt (id dated : String) : Tick :=
  { id := .str id, timestamp := .str dated, price := .int 10000, bestAsk := .int 10000 }

/-- An order and two ticks in Korean time, and in Greenwich time the other way round. -/
theorem looks_at_right_tick_fixed :
    (∃ observed,
      RightTick tickSecond (63915868800000000 + 150 * 1000)
        [tickAt "later" "2026-06-01T09:00:05+09:00", tickAt "first" "2026-06-01T09:00:01+09:00"]
        observed ∧
      simulateFill (orderAt "2026-06-01T09:00:00+09:00")
          [tickAt "later" "2026-06-01T09:00:05+09:00", tickAt "first" "2026-06-01T09:00:01+09:00"]
          {} none none =
        (addMilliseconds? (63915868800000000 + 32400000000) 150).map fun target =>
          fillAt (orderAt "2026-06-01T09:00:00+09:00") (some target) observed {} none none) ∧
    ∀ r r',
      simulateFill (orderAt "2026-06-01T09:00:00+09:00")
        [tickAt "later" "2026-06-01T09:00:05+09:00", tickAt "first" "2026-06-01T09:00:01+09:00"]
        {} none none = some r →
      simulateFill (orderAt "2026-06-01T00:00:00Z")
        [tickAt "first" "2026-06-01T00:00:01Z", tickAt "later" "2026-06-01T00:00:05.5Z"]
        {} none none = some r' →
      { r with tickTimestamp := "" } = { r' with tickTimestamp := "" } := by
  have hright := @looks_at_right_tick (orderAt "2026-06-01T09:00:00+09:00")
    [tickAt "later" "2026-06-01T09:00:05+09:00", tickAt "first" "2026-06-01T09:00:01+09:00"]
    {} none none 32400000000 (by decide +kernel)
  have hlatency : simulatedLatencyMs (orderAt "2026-06-01T09:00:00+09:00")
      (orderStyle (orderAt "2026-06-01T09:00:00+09:00")) {} = 150 := by decide +kernel
  rw [hlatency] at hright
  refine ⟨hright.1 63915868800000000 (by decide +kernel), ?_⟩
  refine hright.2 _ _ 0 (by decide +kernel) ⟨rfl, rfl, rfl, rfl, rfl, rfl, by decide +kernel⟩ ?_ ?_
  · have hfirst : SameTick (tickAt "first" "2026-06-01T09:00:01+09:00")
        (tickAt "first" "2026-06-01T00:00:01Z") := ⟨by decide +kernel, _, _, _, rfl⟩
    have hlater : SameTick (tickAt "later" "2026-06-01T09:00:05+09:00")
        (tickAt "later" "2026-06-01T00:00:05.5Z") := ⟨by decide +kernel, _, _, _, rfl⟩
    refine ⟨?_, ?_⟩ <;> simp only [forall_mem_cons, not_mem_nil, false_imp_iff,
      implies_true, and_true]
    · exact ⟨⟨_, mem_cons_of_mem _ mem_cons_self, hlater⟩, ⟨_, mem_cons_self, hfirst⟩⟩
    · exact ⟨⟨_, mem_cons_of_mem _ mem_cons_self, hfirst⟩, ⟨_, mem_cons_self, hlater⟩⟩
  · unfold DistinctSeconds
    decide +kernel

theorem not_rightTick {time : Tick → Option Int} {target i j : Int} {observed due : Tick}
    (hmem : due ∈ ticks) (hdue : time due = some i) (hle : target ≤ i)
    (hobserved : time observed = some j) (hother : j < target ∨ i < j) :
    ¬ RightTick time target ticks (some observed) := by
  rintro ⟨-, seen, hseen, hor⟩
  rw [hobserved] at hseen
  cases hseen
  rcases hor with ⟨hge, hleast⟩ | ⟨-, hlast⟩
  · have := hleast due hmem i hdue hle
    omega
  · have := hlast due hmem i hdue
    omega

/-- An order of 0.9 s past nine, and a tick that comes 50 ms before the order is due at 1.05 s: the
fraction of both is dropped, and the tick counts if it is first in the list. And an order of nine in
Korea: a tick of a second later, written in Greenwich time, is taken for one of nine hours before. -/
theorem overlooks_instants :
    ((simulateFill (orderAt "2026-06-01T09:00:00.900")
        [tickAt "early" "2026-06-01T09:00:01", tickAt "due" "2026-06-01T09:00:01.050"]
        {} none none).map (·.observedTickId) = some "early" ∧
      (simulateFill (orderAt "2026-06-01T09:00:00.900")
        [tickAt "due" "2026-06-01T09:00:01.050", tickAt "early" "2026-06-01T09:00:01"]
        {} none none).map (·.observedTickId) = some "due" ∧
      (instant? "2026-06-01T09:00:00.900").map (· + 150000) = some 63915901201050000 ∧
      ¬ RightTick tickInstant 63915901201050000
        [tickAt "early" "2026-06-01T09:00:01", tickAt "due" "2026-06-01T09:00:01.050"]
        (some (tickAt "early" "2026-06-01T09:00:01"))) ∧
    (simulateFill (orderAt "2026-06-01T09:00:00+09:00")
        [tickAt "due" "2026-06-01T00:00:01Z", tickAt "late" "2026-06-01T09:00:05+09:00"]
        {} none none).map (·.observedTickId) = some "late" ∧
      (instant? "2026-06-01T09:00:00+09:00").map (· + 150000) = some 63915868800150000 ∧
      ¬ RightTick tickInstant 63915868800150000
        [tickAt "due" "2026-06-01T00:00:01Z", tickAt "late" "2026-06-01T09:00:05+09:00"]
        (some (tickAt "late" "2026-06-01T09:00:05+09:00")) := by
  refine ⟨⟨by decide +kernel, by decide +kernel, by decide +kernel, ?_⟩, by decide +kernel,
    by decide +kernel, ?_⟩
  · exact not_rightTick (mem_cons_of_mem _ mem_cons_self)
      (show _ = some 63915901201050000 by decide +kernel) (by decide)
      (show _ = some 63915901201000000 by decide +kernel) (by decide)
  · exact not_rightTick mem_cons_self
      (show _ = some 63915868801000000 by decide +kernel) (by decide)
      (show _ = some 63915868805000000 by decide +kernel) (by decide)

end TradingCore.Simulation
