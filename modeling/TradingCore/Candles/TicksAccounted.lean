import TradingCore.Candles.CompletedCandles

/-!
# Every accepted tick is in one candle

The candles of a code are meant to be the bars of its accepted ticks: a bar for each minute, and
the volume of a tick its rise over the tick before. A flush takes the active candle away, and the
next tick starts a candle as if it were the first. That loses its volume, and where the tick is
still of the flushed minute, it starts a second candle of that minute.

* `update_follows`, `flush_follows` — as long as no such tick comes, the candles are those bars;
* `ticks_accounted_iff` — a run accounts for its ticks throughout exactly when no such tick comes.
-/

namespace TradingCore.Candles

open Base Candidates CandleBuilder Option List Machine

def tickBars (ticks : List StrategyTick) : List Bar :=
  barsOf (fun tick => minuteStart tick.timestamp) (·.price) (·.cumVolume) ticks

def minuteCandle (code : String) (bar : Bar) : Candle := { toBar := bar, code, intervalMin := 1 }

/-- The calls account for the ticks of a code. -/
structure Accounted (calls : List Call) (code : String) : Prop where
  /-- Each accepted tick is in exactly one one-minute candle, completed or active. -/
  once : ∀ tick ∈ acceptedTicks calls code,
    ((builder.run .new calls).candles code).countP
      (fun candle => candle.startAt = minuteStart tick.timestamp) = 1
  /-- Each candle shows the prices of exactly the accepted ticks of its minute. -/
  shown : ∀ candle ∈ (builder.run .new calls).candles code,
    candle.Shows (((acceptedTicks calls code).filter
      (minuteStart ·.timestamp = candle.startAt)).map (·.price))
  /-- The completed candles, of any interval, have ascending starts. -/
  ascending : ∀ intervalMin, ((builder.run .new calls).completedOf code intervalMin).Pairwise
    fun a b => a.startAt < b.startAt
  /-- Where the cumulative volumes do not fall, the candles share out their rise. -/
  volumes : (acceptedTicks calls code).Pairwise (fun a b => a.cumVolume ≤ b.cumVolume) →
    ∀ first last, (acceptedTicks calls code).head? = some first →
      (acceptedTicks calls code).getLast? = some last →
        (((builder.run .new calls).candles code).map (·.volume)).sum =
          last.cumVolume - first.cumVolume
  /-- The flushes among the calls change no candle. -/
  steady : (builder.run .new calls).candles code =
    (builder.run .new (withoutFlushes calls)).candles code

/-- The call loses nothing. A tick that finds no active candle, though its code had ticks before,
is of a later minute than the last of them, or rejected, and brings no volume. -/
def LosesNothing (b : CandleBuilder) : Call → Prop
  | .flush .. => True
  | .update tick =>
      b.active1m.get? tick.code = none →
        ∀ last ∈ b.lastTickTimestamp.get? tick.code, last ≤ tick.timestamp →
          minuteStart last < minuteStart tick.timestamp ∧
            ∀ volume ∈ b.lastCumVolume.get? tick.code, tick.cumVolume ≤ volume

/-- The builder's memory of the ticks accepted so far. -/
structure Remembers (b : CandleBuilder) (ticks : String → List StrategyTick) : Prop where
  timestamp : ∀ code, b.lastTickTimestamp.get? code = (ticks code).getLast?.map (·.timestamp)
  volume : ∀ code, b.lastCumVolume.get? code = (ticks code).getLast?.map (·.cumVolume)
  ordered : ∀ code, (ticks code).Pairwise fun a b => a.timestamp ≤ b.timestamp

/-- The completed candles are filed: the keys are those of the one-minute candles, and the others
are rolled up from them. -/
structure Filed (b : CandleBuilder) : Prop where
  keys : ∀ code start, (code, start) ∈ b.completed1mKeys ↔
    start ∈ (b.completedOf code 1).map (·.startAt)
  rolled : ∀ code k, (k = 3 ∨ k = 5) → RolledUp (b.completedOf code 1) (b.completedOf code k) k
  others : ∀ code k, k ≠ 1 ∧ k ≠ 3 ∧ k ≠ 5 → b.completedOf code k = []

/-- The builder's candles are the bars of the ticks accepted so far. -/
structure Follows (b : CandleBuilder) (ticks : String → List StrategyTick) : Prop
    extends Remembers b ticks, Filed b where
  candles : ∀ code, b.candles code = (tickBars (ticks code)).map (minuteCandle code)

/-- Is the tick not older than the last of its code? -/
def Fresh (ticks : String → List StrategyTick) (tick : StrategyTick) : Prop :=
  ∀ last ∈ (ticks tick.code).getLast?, last.timestamp ≤ tick.timestamp
deriving Decidable

def withTick (ticks : String → List StrategyTick) (tick : StrategyTick) (code : String) :
    List StrategyTick :=
  if tick.code = code then ticks code ++ [tick] else ticks code

/-! ## The bars of ordered ticks -/

theorem minuteStart_le {a b : Int} (hle : a ≤ b) : minuteStart a ≤ minuteStart b := by
  unfold minuteStart
  omega

theorem account_tickBars {ticks : List StrategyTick}
    (hordered : ticks.Pairwise fun a b => a.timestamp ≤ b.timestamp) :
    Account (fun tick => minuteStart tick.timestamp) (·.price) ticks (tickBars ticks) :=
  account_barsOf (hordered.imp fun hle => minuteStart_le hle)

/-! ## Completing a candle -/

theorem Filed.congr {b b' : CandleBuilder} (h : Filed b) (hcompleted : b'.completed = b.completed)
    (hkeys : b'.completed1mKeys = b.completed1mKeys) : Filed b' := by
  have hof : ∀ code k, b'.completedOf code k = b.completedOf code k := by
    intro code k
    unfold completedOf
    rw [hcompleted]
  constructor
  · intro code start
    rw [hkeys, hof]
    exact h.keys code start
  · intro code k hk
    rw [hof, hof]
    exact h.rolled code k hk
  · intro code k hk
    rw [hof]
    exact h.others code k hk

theorem Filed.complete {b b' : CandleBuilder} {candle : Candle} (h : Filed b)
    (hcompletes : Completes b candle b')
    (hlater : ∀ other ∈ b.completedOf candle.code 1, other.startAt < candle.startAt) :
    Filed b' := by
  constructor
  · intro code start
    rw [hcompletes.keys, mem_append, h.keys, mem_singleton, Prod.mk.injEq]
    by_cases hcode : code = candle.code
    · rw [hcode, hcompletes.own, map_append, mem_append, map_singleton,
        mem_singleton]
      simp
    · rw [hcompletes.frame code 1 (.inl hcode)]
      simp [hcode]
  · intro code k hk
    by_cases hcode : code = candle.code
    · rw [hcode]
      refine hcompletes.rolledUp hk (h.rolled _ k hk) ?_
      intro newest hlast
      exact (hlater newest (mem_of_getLast? hlast)).le
    · rw [hcompletes.frame code 1 (.inl hcode), hcompletes.frame code k (.inl hcode)]
      exact h.rolled code k hk
  · intro code k hk
    rw [hcompletes.frame code k (.inr hk)]
    exact h.others code k hk

/-! ## Following the ticks -/

section Following

variable {b : CandleBuilder} {ticks : String → List StrategyTick}

section

variable (h : Follows b ticks)
include h

theorem Follows.pairwise_candles (code : String) :
    (b.candles code).Pairwise fun a b => a.startAt < b.startAt := by
  rw [h.candles, pairwise_map]
  exact (account_tickBars (h.ordered code)).ascending

theorem Follows.newest (code : String) :
    (b.candles code).getLast?.map (·.startAt) =
      (ticks code).getLast?.map fun tick => minuteStart tick.timestamp := by
  rw [h.candles, getLast?_map, Option.map_map]
  exact (account_tickBars (h.ordered code)).newest

variable {code : String}

theorem Follows.active {active : Candle} (hactive : b.active1m.get? code = some active) :
    ∃ last, (ticks code).getLast? = some last ∧ active.startAt = minuteStart last.timestamp := by
  have hnewest := h.newest code
  unfold CandleBuilder.candles at hnewest
  rw [hactive, toList_some, getLast?_concat] at hnewest
  obtain ⟨last, hlast, heq⟩ := map_eq_some_iff.mp hnewest.symm
  exact ⟨last, hlast, heq.symm⟩

theorem Follows.active_new {active : Candle} (hactive : b.active1m.get? code = some active) :
    active.code = code ∧ active.intervalMin = 1 ∧
      (active.code, active.startAt) ∉ b.completed1mKeys ∧
      ∀ candle ∈ b.completedOf code 1, candle.startAt < active.startAt := by
  have hcandles : b.candles code = b.completedOf code 1 ++ [active] := by
    unfold CandleBuilder.candles
    rw [hactive]
    rfl
  have hmem : active ∈ (tickBars (ticks code)).map (minuteCandle code) := by
    rw [← h.candles, hcandles]
    exact mem_append_right _ (mem_singleton.mpr rfl)
  obtain ⟨bar, -, rfl⟩ := mem_map.mp hmem
  have hearlier := h.pairwise_candles code
  rw [hcandles] at hearlier
  have hless := fun candle hmem => (pairwise_append.mp hearlier).2.2 candle hmem _
    (mem_singleton.mpr rfl)
  refine ⟨rfl, rfl, ?_, hless⟩
  intro hkey
  obtain ⟨candle, hcandle, heq⟩ := mem_map.mp ((h.keys _ _).mp hkey)
  have := hless candle hcandle
  omega

theorem Follows.complete_active {active : Candle} (hactive : b.active1m.get? code = some active)
    (b0 : CandleBuilder) (hcompleted : b0.completed = b.completed)
    (hkeys : b0.completed1mKeys = b.completed1mKeys) :
    Completes b0 active (b0.complete1m active) ∧ Filed (b0.complete1m active) := by
  obtain ⟨rfl, hminute, hnew, hlater⟩ := h.active_new hactive
  have hcompletes : Completes b0 active (b0.complete1m active) := by
    refine completes_complete1m b0 active hminute ?_
    rw [hkeys]
    exact hnew
  refine ⟨hcompletes, (h.toFiled.congr hcompleted hkeys).complete hcompletes ?_⟩
  unfold completedOf at hlater ⊢
  rw [hcompleted]
  exact hlater

end

/-! ## One tick -/

/-- The candles of a tick's code after it is put into its candle. -/
def candlesAfter (b : CandleBuilder) (tick : StrategyTick) : List Candle :=
  let startAt := minuteStart tick.timestamp
  let delta := (b.volumeDelta tick).2
  match b.active1m.get? tick.code with
  | none => b.completedOf tick.code 1 ++ [newCandle tick startAt 0]
  | some active =>
      if active.startAt = startAt then b.completedOf tick.code 1 ++ [active.withTick tick delta]
      else b.completedOf tick.code 1 ++ [active] ++ [newCandle tick startAt delta]

theorem volumeDelta_fst (b : CandleBuilder) (tick : StrategyTick) :
    (b.volumeDelta tick).1 =
      { b with lastCumVolume := b.lastCumVolume.set tick.code tick.cumVolume } := by
  unfold volumeDelta
  dsimp only
  split
  · rfl
  · split
    · rfl
    · rfl

theorem Remembers.volumeDelta_snd (h : Remembers b ticks) (tick : StrategyTick) :
    max 0 (b.volumeDelta tick).2 = levelRise (·.cumVolume) (ticks tick.code).getLast? tick := by
  unfold volumeDelta levelRise
  rw [h.volume]
  cases (ticks tick.code).getLast? with
  | none => rfl
  | some last =>
    simp only [map_some]
    split
    · show max 0 0 = _
      omega
    · rfl

variable {tick : StrategyTick}

theorem Remembers.withTick (h : Remembers b ticks) (hfresh : Fresh ticks tick) {b' : CandleBuilder}
    (htimestamps : b'.lastTickTimestamp = b.lastTickTimestamp.set tick.code tick.timestamp)
    (hvolumes : b'.lastCumVolume = b.lastCumVolume.set tick.code tick.cumVolume) :
    Remembers b' (withTick ticks tick) := by
  constructor
  · intro code
    rw [htimestamps, Dict.get?_set]
    unfold Candles.withTick
    split
    · next hcode => rw [if_pos hcode.symm, getLast?_concat, map_some]
    · next hcode =>
        rw [if_neg (Ne.symm hcode)]
        exact h.timestamp code
  · intro code
    rw [hvolumes, Dict.get?_set]
    unfold Candles.withTick
    split
    · next hcode => rw [if_pos hcode.symm, getLast?_concat, map_some]
    · next hcode =>
        rw [if_neg (Ne.symm hcode)]
        exact h.volume code
  · intro code
    unfold Candles.withTick
    split
    · next hcode =>
        subst hcode
        refine pairwise_append.mpr ⟨h.ordered _, pairwise_singleton _ _, ?_⟩
        intro other hmem last hlast
        rw [mem_singleton.mp hlast]
        cases hnewest : (ticks tick.code).getLast? with
        | none =>
          rw [getLast?_eq_none_iff.mp hnewest] at hmem
          exact absurd hmem not_mem_nil
        | some newest =>
          have hle := hfresh newest hnewest
          obtain ⟨front, hfront⟩ := getLast?_eq_some_iff.mp hnewest
          have hordered := h.ordered tick.code
          rw [hfront] at hmem hordered
          rcases mem_append.mp hmem with hold | hlast
          · have := (pairwise_append.mp hordered).2.2 other hold newest
              (mem_singleton.mpr rfl)
            omega
          · rw [mem_singleton.mp hlast]
            exact hle
    · exact h.ordered code

/-- What putting a tick into its candle writes. -/
structure Places (b : CandleBuilder) (ticks : String → List StrategyTick) (tick : StrategyTick)
    (b' : CandleBuilder) : Prop where
  remembers : Remembers b' (withTick ticks tick)
  filed : Filed b'
  own : b'.candles tick.code = candlesAfter b tick
  active : (b'.active1m.get? tick.code).isSome
  frame : ∀ code, code ≠ tick.code →
    b'.candles code = b.candles code ∧ b'.active1m.get? code = b.active1m.get? code

theorem Follows.places (h : Follows b ticks) (hfresh : Fresh ticks tick) {b0 : CandleBuilder}
    (hfiled : Filed b0) (hactive : b0.active1m = b.active1m)
    (htimestamps : b0.lastTickTimestamp = b.lastTickTimestamp)
    (hvolumes : b0.lastCumVolume = b.lastCumVolume.set tick.code tick.cumVolume)
    (hframe : ∀ code, code ≠ tick.code → b0.completedOf code 1 = b.completedOf code 1)
    {candle : Candle} (hown : b0.completedOf tick.code 1 ++ [candle] = candlesAfter b tick) :
    Places b ticks tick ((b0.activate tick.code candle).stamp tick) := by
  have hget : ∀ code, ((b0.activate tick.code candle).stamp tick).active1m.get? code =
      if code = tick.code then some candle else b.active1m.get? code := by
    intro code
    rw [← hactive]
    exact Dict.get?_set _ _ _ _
  constructor
  · refine h.toRemembers.withTick hfresh ?_ hvolumes
    rw [← htimestamps]
    rfl
  · exact hfiled.congr rfl rfl
  · unfold CandleBuilder.candles
    rw [hget, if_pos rfl, ← hown]
    rfl
  · rw [hget, if_pos rfl]
    rfl
  · intro code hcode
    refine ⟨?_, ?_⟩
    · unfold CandleBuilder.candles
      rw [hget, if_neg hcode, ← hframe code hcode]
      rfl
    · rw [hget, if_neg hcode]

theorem Follows.place (h : Follows b ticks) (hfresh : Fresh ticks tick) :
    (b.place tick).2 = true ∧ Places b ticks tick (b.place tick).1 := by
  unfold CandleBuilder.place
  dsimp only
  rw [volumeDelta_fst]
  dsimp only
  have hmark : Filed { b with lastCumVolume := b.lastCumVolume.set tick.code tick.cumVolume } :=
    h.toFiled.congr rfl rfl
  cases hactive : b.active1m.get? tick.code with
  | none =>
    refine ⟨rfl, h.places hfresh hmark rfl rfl rfl (fun _ _ => rfl) ?_⟩
    unfold candlesAfter
    rw [hactive]
    rfl
  | some active =>
    dsimp only
    split
    · next hsame =>
        refine ⟨rfl, h.places hfresh hmark rfl rfl rfl (fun _ _ => rfl) ?_⟩
        unfold candlesAfter
        rw [hactive]
        dsimp only
        rw [if_pos hsame]
        rfl
    · next hother =>
        obtain ⟨hcode, -⟩ := h.active_new hactive
        obtain ⟨last, hlast, hstart⟩ := h.active hactive
        have hle := minuteStart_le (hfresh last hlast)
        rw [if_pos (by omega)]
        obtain ⟨hcompletes, hfiled⟩ := h.complete_active hactive
          { b with lastCumVolume := b.lastCumVolume.set tick.code tick.cumVolume }
          rfl rfl
        refine ⟨rfl, h.places hfresh hfiled hcompletes.active hcompletes.timestamps
          hcompletes.volumes ?_ ?_⟩
        · intro code hne
          exact hcompletes.frame code 1 (.inl (hcode ▸ hne))
        · unfold candlesAfter
          rw [hactive]
          dsimp only
          rw [if_neg hother]
          have hown := hcompletes.own
          rw [hcode] at hown
          rw [hown]
          rfl

theorem Follows.update (h : Follows b ticks) (tick : StrategyTick) :
    (Fresh ticks tick → (b.update tick).2 = true ∧ Places b ticks tick (b.update tick).1) ∧
      (¬ Fresh ticks tick → b.update tick = (b, false)) := by
  unfold CandleBuilder.update
  rw [h.timestamp]
  cases hlast : (ticks tick.code).getLast? with
  | none =>
    refine ⟨h.place, fun hstale => absurd ?_ hstale⟩
    intro last hmem
    rw [hlast] at hmem
    cases hmem
  | some last =>
    dsimp only [map_some]
    have hiff : Fresh ticks tick ↔ last.timestamp ≤ tick.timestamp := by
      unfold Fresh
      rw [hlast]
      simp
    rw [hiff]
    refine ⟨?_, ?_⟩
    · intro hle
      rw [if_neg (by omega)]
      exact h.place (hiff.mpr hle)
    · intro hstale
      rw [if_pos (by omega)]

/-! ## The bars after one tick -/

theorem tickBars_concat (earlier : List StrategyTick) (tick : StrategyTick) :
    tickBars (earlier ++ [tick]) =
      extendBars (fun tick => minuteStart tick.timestamp) (·.price) (·.cumVolume)
        (tickBars earlier) earlier.getLast? tick := barsOf_concat ..

variable {earlier : List StrategyTick}

theorem tickBars_same {front : List Bar} {bar : Bar} (hbars : tickBars earlier = front ++ [bar])
    (hsame : bar.startAt = minuteStart tick.timestamp) :
    tickBars (earlier ++ [tick]) = front ++
      [bar.withSample tick.price (levelRise (·.cumVolume) earlier.getLast? tick)] := by
  rw [tickBars_concat, hbars]
  unfold extendBars
  rw [getLast?_concat, dropLast_concat]
  exact if_pos hsame

theorem tickBars_other
    (hother : ∀ bar ∈ (tickBars earlier).getLast?, bar.startAt ≠ minuteStart tick.timestamp) :
    tickBars (earlier ++ [tick]) = tickBars earlier ++
      [.first (minuteStart tick.timestamp) tick.price
        (levelRise (·.cumVolume) earlier.getLast? tick)] := by
  rw [tickBars_concat]
  unfold extendBars
  cases hlast : (tickBars earlier).getLast? with
  | none =>
    rw [getLast?_eq_none_iff.mp hlast]
    rfl
  | some bar => exact if_neg (hother bar hlast)

theorem minuteCandle_first (tick : StrategyTick) {startAt delta volume : Int}
    (hvolume : max 0 delta = volume) :
    minuteCandle tick.code (.first startAt tick.price volume) = newCandle tick startAt delta := by
  rw [← hvolume]
  rfl

theorem minuteCandle_withSample (code : String) (bar : Bar) (tick : StrategyTick)
    {delta volume : Int} (hvolume : max 0 delta = volume) :
    minuteCandle code (bar.withSample tick.price volume) =
      (minuteCandle code bar).withTick tick delta := by
  rw [← hvolume]
  rfl

theorem Follows.candlesAfter_active (h : Follows b ticks) {active : Candle}
    (hactive : b.active1m.get? tick.code = some active) :
    candlesAfter b tick = (tickBars (ticks tick.code ++ [tick])).map (minuteCandle tick.code) := by
  have hcandles := h.candles tick.code
  unfold CandleBuilder.candles at hcandles
  rw [hactive, toList_some] at hcandles
  obtain ⟨front, last, hbars, hfront, hlast⟩ := map_eq_append_iff.mp hcandles.symm
  obtain ⟨bar, rfl, hbar⟩ := map_eq_singleton_iff.mp hlast
  have hdelta := h.volumeDelta_snd tick
  unfold candlesAfter
  rw [hactive]
  dsimp only
  split
  · next hsame =>
      rw [← hbar] at hsame ⊢
      rw [tickBars_same hbars hsame, map_append, hfront, map_singleton,
        minuteCandle_withSample _ _ _ hdelta]
  · next hother =>
      rw [tickBars_other, map_append, hcandles.symm, map_singleton, minuteCandle_first tick hdelta]
      intro newest hnewest
      rw [hbars, getLast?_concat] at hnewest
      rw [← some.inj hnewest]
      rw [← hbar] at hother
      exact hother

theorem Follows.candlesAfter_none (h : Follows b ticks) (hnone : b.active1m.get? tick.code = none) :
    candlesAfter b tick = (tickBars (ticks tick.code)).map (minuteCandle tick.code) ++
      [newCandle tick (minuteStart tick.timestamp) 0] := by
  rw [← h.candles]
  unfold candlesAfter CandleBuilder.candles
  rw [hnone, toList_none, append_nil]

theorem Follows.candlesAfter_loses_nothing (h : Follows b ticks) (hfresh : Fresh ticks tick)
    (hnothing : LosesNothing b (.update tick)) :
    candlesAfter b tick = (tickBars (ticks tick.code ++ [tick])).map (minuteCandle tick.code) := by
  cases hactive : b.active1m.get? tick.code with
  | some active => exact h.candlesAfter_active hactive
  | none =>
    have hlost := hnothing hactive
    rw [h.timestamp, h.volume] at hlost
    have hnewest := (account_tickBars (h.ordered tick.code)).newest
    have hrise : max 0 0 = levelRise (·.cumVolume) (ticks tick.code).getLast? tick := by
      cases hlast : (ticks tick.code).getLast? with
      | none => rfl
      | some last =>
        rw [hlast] at hlost
        have hle : tick.cumVolume ≤ last.cumVolume :=
          (hlost _ rfl (hfresh last hlast)).2 _ rfl
        show max 0 0 = max 0 (tick.cumVolume - last.cumVolume)
        omega
    rw [h.candlesAfter_none hactive, tickBars_other, map_append, map_singleton,
      minuteCandle_first tick hrise]
    intro bar hbar
    rw [hbar] at hnewest
    obtain ⟨last, hlast, heq⟩ := map_eq_some_iff.mp hnewest.symm
    rw [hlast] at hlost
    have hminute : minuteStart last.timestamp = bar.startAt := heq
    have hlater : minuteStart last.timestamp < minuteStart tick.timestamp :=
      (hlost _ rfl (hfresh last hlast)).1
    omega

/-! ## One call -/

def ticksAfter (ticks : String → List StrategyTick) : Call → String → List StrategyTick
  | .update tick => if Fresh ticks tick then withTick ticks tick else ticks
  | .flush .. => ticks

theorem update_follows (h : Follows b ticks) (hnothing : LosesNothing b (.update tick)) :
    Follows (b.update tick).1 (ticksAfter ticks (.update tick)) := by
  show Follows _ (if Fresh ticks tick then withTick ticks tick else ticks)
  by_cases hfresh : Fresh ticks tick
  · rw [if_pos hfresh]
    obtain ⟨-, hplaces⟩ := (h.update tick).1 hfresh
    refine ⟨hplaces.remembers, hplaces.filed, ?_⟩
    intro code
    unfold withTick
    split
    · next hcode =>
        rw [← hcode, hplaces.own]
        exact h.candlesAfter_loses_nothing hfresh hnothing
    · next hcode =>
        rw [(hplaces.frame code (Ne.symm hcode)).1]
        exact h.candles code
  · rw [if_neg hfresh, (h.update tick).2 hfresh]
    exact h

theorem flush_follows (h : Follows b ticks) (code : String) (now : Int) :
    Follows (b.flush code now).1 ticks := by
  unfold flush
  dsimp only
  cases hactive : b.active1m.get? (normalizeCode code) with
  | none => exact h
  | some active =>
    dsimp only
    split
    · exact h
    · obtain ⟨hcompletes, hfiled⟩ := h.complete_active hactive
        { b with active1m := b.active1m.filter fun c _ => c ≠ normalizeCode code }
        rfl rfl
      obtain ⟨hcode, -⟩ := h.active_new hactive
      refine ⟨⟨?_, ?_, h.ordered⟩, hfiled, ?_⟩
      · rw [hcompletes.timestamps]
        exact h.timestamp
      · rw [hcompletes.volumes]
        exact h.volume
      · intro other
        rw [← h.candles]
        unfold candles
        rw [hcompletes.active, Dict.get?_filter]
        by_cases hother : other = normalizeCode code
        · -- the active candle moves behind the completed ones
          have hown := hcompletes.own
          rw [hcode] at hown
          rw [hother, hown, hactive, filter_some, if_neg (by simp), toList_none, append_nil]
          rfl
        · rw [hcompletes.frame other 1 (.inl (hcode ▸ hother))]
          cases b.active1m.get? other with
          | none => rfl
          | some candle =>
            rw [filter_some, if_pos (by simp [hother])]
            rfl

end Following

/-! ## Runs -/

theorem acceptedTicks_concat (past : List Call) (call : Call) (code : String) :
    acceptedTicks (past ++ [call]) code = acceptedTicks past code ++
      (acceptedTick code (call, builder.out (builder.run .new past) call)).toList := by
  unfold acceptedTicks
  rw [zip_outputs_concat, filterMap_append, filterMap_cons]
  cases acceptedTick code (call, builder.out (builder.run .new past) call) with
  | none => rfl
  | some tick => rfl

variable {past : List Call}

theorem acceptedTicks_step (h : Follows (builder.run .new past) (acceptedTicks past))
    (call : Call) : acceptedTicks (past ++ [call]) = ticksAfter (acceptedTicks past) call := by
  funext code
  rw [acceptedTicks_concat]
  cases call with
  | flush code now => exact append_nil _
  | update tick =>
    show _ ++ (acceptedTick code (.update tick,
      .accepted ((builder.run .new past).update tick).2)).toList =
        (if Fresh (acceptedTicks past) tick then withTick (acceptedTicks past) tick
          else acceptedTicks past) code
    by_cases hfresh : Fresh (acceptedTicks past) tick
    · rw [((h.update tick).1 hfresh).1, if_pos hfresh]
      unfold acceptedTick withTick
      dsimp only
      split
      · rfl
      · exact append_nil _
    · rw [(h.update tick).2 hfresh, if_neg hfresh]
      exact append_nil _

/-- A builder that was never flushed: a code without an active candle has had no tick. -/
structure NeverFlushed (b : CandleBuilder) (ticks : String → List StrategyTick) : Prop
    extends Follows b ticks where
  untouched : ∀ code, b.active1m.get? code = none → ticks code = []

theorem NeverFlushed.update {b : CandleBuilder} {ticks : String → List StrategyTick}
    (h : NeverFlushed b ticks) (tick : StrategyTick) :
    NeverFlushed (b.update tick).1 (ticksAfter ticks (.update tick)) := by
  have hnothing : LosesNothing b (.update tick) := by
    intro hnone last hlast
    rw [h.timestamp, h.untouched _ hnone] at hlast
    cases hlast
  refine ⟨update_follows h.toFollows hnothing, ?_⟩
  show ∀ code, _ → (if Fresh ticks tick then withTick ticks tick else ticks) code = []
  intro code hnone
  by_cases hfresh : Fresh ticks tick
  · obtain ⟨-, hplaces⟩ := (h.toFollows.update tick).1 hfresh
    have hne : code ≠ tick.code := by
      rintro rfl
      have hactive := hplaces.active
      rw [hnone] at hactive
      cases hactive
    rw [(hplaces.frame code hne).2] at hnone
    rw [if_pos hfresh]
    unfold withTick
    rw [if_neg (Ne.symm hne)]
    exact h.untouched code hnone
  · rw [(h.toFollows.update tick).2 hfresh] at hnone
    rw [if_neg hfresh]
    exact h.untouched code hnone

/-- The builder, and the one without the flushes, keep the candles of the accepted ticks. -/
structure Tracks (past : List Call) : Prop where
  follows : Follows (builder.run .new past) (acceptedTicks past)
  plain : NeverFlushed (builder.run .new (withoutFlushes past)) (acceptedTicks past)

theorem tracks_nil : Tracks [] := by
  have hempty : NeverFlushed .new (acceptedTicks []) := by
    refine ⟨⟨⟨fun _ => rfl, fun _ => rfl, fun _ => .nil⟩, ⟨?_, ?_, fun _ _ _ => rfl⟩,
      fun _ => rfl⟩, fun _ _ => rfl⟩
    · intro code start
      exact ⟨fun h => absurd h not_mem_nil, fun h => absurd h not_mem_nil⟩
    · intro code k _
      exact ⟨.nil, fun _ h => absurd h not_mem_nil⟩
  exact ⟨hempty.toFollows, hempty⟩

theorem Tracks.plain_next (h : Tracks past) (call : Call) :
    NeverFlushed (builder.run .new (withoutFlushes (past ++ [call])))
      (acceptedTicks (past ++ [call])) := by
  rw [acceptedTicks_step h.follows]
  unfold withoutFlushes
  rw [filter_append]
  cases call with
  | update tick =>
    rw [filter_cons_of_pos rfl, filter_nil, run_concat]
    exact h.plain.update tick
  | flush code now =>
    rw [filter_cons_of_neg Bool.false_ne_true, filter_nil, append_nil]
    exact h.plain

theorem Tracks.next (h : Tracks past) {call : Call}
    (hnothing : LosesNothing (builder.run .new past) call) : Tracks (past ++ [call]) := by
  refine ⟨?_, h.plain_next call⟩
  rw [acceptedTicks_step h.follows, run_concat]
  cases call with
  | update tick => exact update_follows h.follows hnothing
  | flush code now => exact flush_follows h.follows code now

theorem Tracks.accounted (h : Tracks past) (code : String) : Accounted past code := by
  have haccount := account_tickBars (h.follows.ordered code)
  constructor
  · intro tick hmem
    rw [h.follows.candles, List.countP_map]
    exact haccount.countP_startAt hmem
  · intro candle hmem
    rw [h.follows.candles] at hmem
    obtain ⟨bar, hbar, rfl⟩ := List.mem_map.mp hmem
    exact haccount.shown bar hbar
  · intro intervalMin
    by_cases hone : intervalMin = 1
    · rw [hone]
      exact (List.pairwise_append.mp (h.follows.pairwise_candles code)).1
    · by_cases hrolled : intervalMin = 3 ∨ intervalMin = 5
      · exact (h.follows.rolled code intervalMin hrolled).ascending
      · rw [h.follows.others code intervalMin ⟨hone, not_or.mp hrolled⟩]
        exact .nil
  · intro hrising first last hfirst hlast
    rw [h.follows.candles, List.map_map]
    exact volume_barsOf hrising hfirst hlast
  · rw [h.follows.candles, h.plain.candles]

theorem Tracks.loses_nothing (h : Tracks past) {call : Call}
    (haccounted : ∀ code, Accounted (past ++ [call]) code) :
    LosesNothing (builder.run .new past) call := by
  cases call with
  | flush code now => trivial
  | update tick =>
    intro hnone t ht hle
    rw [h.follows.timestamp] at ht
    obtain ⟨last, hlast, rfl⟩ := map_eq_some_iff.mp ht
    have hfresh : Fresh (acceptedTicks past) tick := by
      intro newest hnewest
      rw [hlast] at hnewest
      rw [← some.inj hnewest]
      exact hle
    obtain ⟨-, hplaces⟩ := (h.follows.update tick).1 hfresh
    have hticks : acceptedTicks (past ++ [.update tick]) tick.code =
        acceptedTicks past tick.code ++ [tick] := by
      rw [acceptedTicks_step h.follows]
      show (if Fresh (acceptedTicks past) tick then withTick (acceptedTicks past) tick
        else acceptedTicks past) tick.code = _
      rw [if_pos hfresh]
      exact if_pos rfl
    have hown := hplaces.own
    rw [h.follows.candlesAfter_none hnone] at hown
    have haccount := account_tickBars (h.follows.ordered tick.code)
    have hmem := mem_of_getLast? hlast
    -- in the minute of the last tick there is a candle already
    have hlater : minuteStart last.timestamp < minuteStart tick.timestamp := by
      have hle' := minuteStart_le hle
      by_contra hnot
      have hsame : minuteStart last.timestamp = minuteStart tick.timestamp := by omega
      have honce := (haccounted tick.code).once tick (by rw [hticks]; simp)
      rw [run_concat] at honce
      change ((((builder.run .new past).update tick).1).candles tick.code).countP _ = 1 at honce
      rw [hown, countP_append, countP_map, countP_singleton] at honce
      have hbar := haccount.countP_startAt hmem
      rw [hsame] at hbar
      change (tickBars _).countP (fun bar => bar.startAt = minuteStart tick.timestamp) + _ = 1
        at honce
      rw [hbar, if_pos (by simp [newCandle])] at honce
      omega
    refine ⟨hlater, ?_⟩
    intro volume hvolume
    rw [h.follows.volume, hlast] at hvolume
    obtain rfl := some.inj hvolume
    -- the run without the flushes gives the new candle the rise of the volume
    have hsteady := (haccounted tick.code).steady
    rw [(h.plain_next (.update tick)).candles, hticks, tickBars_other, map_append,
      run_concat] at hsteady
    · change (((builder.run .new past).update tick).1).candles tick.code = _ at hsteady
      rw [hown, append_cancel_left_eq, map_singleton, hlast] at hsteady
      have hzero : max 0 0 = max 0 (tick.cumVolume - last.cumVolume) :=
        congrArg (fun candle : Candle => candle.volume) (cons.inj hsteady).1
      show tick.cumVolume ≤ last.cumVolume
      omega
    · intro bar hbar
      have hnewest := haccount.newest
      rw [hbar, hlast] at hnewest
      have hstart : bar.startAt = minuteStart last.timestamp := some.inj hnewest
      omega

/-- A run accounts for its ticks throughout exactly when every call loses nothing. -/
theorem ticks_accounted_iff (calls : List Call) :
    (∀ past, past <+: calls → ∀ code, Accounted past code) ↔
      builder.Guarded LosesNothing .new calls := by
  rw [ guarded_iff_prefix]
  constructor
  · intro haccounted
    have htracks : ∀ past, past <+: calls → Tracks past := by
      refine prefix_induction tracks_nil ?_
      intro past call hpre h
      exact h.next (h.loses_nothing (haccounted _ hpre))
    intro past call hpre
    exact (htracks past ((prefix_append past [call]).trans hpre)).loses_nothing (haccounted _ hpre)
  · intro hnothing
    have htracks : ∀ past, past <+: calls → Tracks past := by
      refine prefix_induction tracks_nil ?_
      intro past call hpre h
      exact h.next (hnothing past call hpre)
    intro past hpre code
    exact (htracks past hpre).accounted code

/-! ## Fixed runs -/

def lateTick : List Call :=
  [.update ⟨"005930", 100, 10, 30⟩, .flush "005930" 60, .update ⟨"005930", 90, 10, 45⟩]

def risingVolume : List Call :=
  [.update ⟨"005930", 100, 10, 30⟩, .flush "005930" 60, .update ⟨"005930", 90, 25, 75⟩]

theorem flush_splits_minute_and_drops_volume :
    ¬ Accounted lateTick "005930" ∧ ¬ Accounted risingVolume "005930" := by
  refine ⟨?_, ?_⟩
  · intro h
    have honce := h.once ⟨"005930", 90, 10, 45⟩ (by decide +kernel)
    exact absurd honce (by decide +kernel)
  · intro h
    have hsum := h.volumes (by decide +kernel) ⟨"005930", 100, 10, 30⟩ ⟨"005930", 90, 25, 75⟩
      (by decide +kernel) (by decide +kernel)
    exact absurd hsum (by decide +kernel)

end TradingCore.Candles
