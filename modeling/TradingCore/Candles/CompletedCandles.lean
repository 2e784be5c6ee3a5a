import TradingCore.Candles.CandleBuilder

/-!
# What completing a candle writes

Completing a one-minute candle puts it behind the completed ones of its code and remembers its
minute; the roll-ups of three and of five minutes may each gain the candle of its bucket. Nothing
else of the builder changes. The starts of the rolled-up candles ascend with those of the
one-minute candles.
-/

namespace TradingCore.Candles

open Base List

namespace CandleBuilder

theorem completedOf_appendCompleted (b : CandleBuilder) (candle : Candle) (code : String)
    (intervalMin : Nat) :
    (b.appendCompleted candle).completedOf code intervalMin =
      if (code, intervalMin) = (candle.code, candle.intervalMin) then
        b.completedOf code intervalMin ++ [candle]
      else b.completedOf code intervalMin := by
  unfold appendCompleted completedOf Dict.getD
  rw [Dict.get?_set]
  split
  · next hkey =>
      rw [hkey]
      rfl
  · rfl

/-- What one roll-up of a code writes: nothing, or the candle of a new bucket. -/
structure RollsUp (b : CandleBuilder) (code : String) (intervalMin : Nat) (b' : CandleBuilder) :
    Prop where
  active : b'.active1m = b.active1m
  timestamps : b'.lastTickTimestamp = b.lastTickTimestamp
  volumes : b'.lastCumVolume = b.lastCumVolume
  keys : b'.completed1mKeys = b.completed1mKeys
  frame : ∀ other k, (other, k) ≠ (code, intervalMin) →
    b'.completedOf other k = b.completedOf other k
  own : b'.completedOf code intervalMin = b.completedOf code intervalMin ∨
    ∃ newest candle, (b.completedOf code 1).getLast? = some newest ∧
      candle.startAt = intervalStart newest.startAt intervalMin ∧
      (b.completedOf code intervalMin).getLast?.map (·.startAt) ≠ some candle.startAt ∧
      b'.completedOf code intervalMin = b.completedOf code intervalMin ++ [candle]

theorem rollsUp_refl (b : CandleBuilder) (code : String) (intervalMin : Nat) :
    RollsUp b code intervalMin b := ⟨rfl, rfl, rfl, rfl, fun _ _ _ => rfl, .inl rfl⟩

theorem rollsUp_aggregateCompleted (b : CandleBuilder) (code : String) (intervalMin : Nat) :
    RollsUp b code intervalMin (b.aggregateCompleted code intervalMin) := by
  unfold aggregateCompleted
  dsimp only
  cases hnewest : (b.completedOf code 1).getLast? with
  | none => exact rollsUp_refl ..
  | some newest =>
    dsimp only
    split
    · exact rollsUp_refl ..
    · split
      · exact rollsUp_refl ..
      · next hlast =>
          split
          · exact rollsUp_refl ..
          · next first rest _ =>
              refine ⟨rfl, rfl, rfl, rfl, ?_, .inr ⟨newest,
                rollUp code intervalMin (intervalStart newest.startAt intervalMin) first rest,
                hnewest, rfl, hlast, ?_⟩⟩
              · intro other k hne
                rw [completedOf_appendCompleted]
                exact if_neg hne
              · rw [completedOf_appendCompleted]
                exact if_pos rfl

/-- What completing a candle of a new minute writes. -/
structure Completes (b : CandleBuilder) (candle : Candle) (b' : CandleBuilder) : Prop where
  active : b'.active1m = b.active1m
  timestamps : b'.lastTickTimestamp = b.lastTickTimestamp
  volumes : b'.lastCumVolume = b.lastCumVolume
  keys : b'.completed1mKeys = b.completed1mKeys ++ [(candle.code, candle.startAt)]
  own : b'.completedOf candle.code 1 = b.completedOf candle.code 1 ++ [candle]
  frame : ∀ other k, (other ≠ candle.code ∨ k ≠ 1 ∧ k ≠ 3 ∧ k ≠ 5) →
    b'.completedOf other k = b.completedOf other k
  rolled : ∀ k, (k = 3 ∨ k = 5) →
    b'.completedOf candle.code k = b.completedOf candle.code k ∨
      ∃ rolled, rolled.startAt = intervalStart candle.startAt k ∧
        (b.completedOf candle.code k).getLast?.map (·.startAt) ≠ some rolled.startAt ∧
        b'.completedOf candle.code k = b.completedOf candle.code k ++ [rolled]

theorem completes_complete1m (b : CandleBuilder) (candle : Candle)
    (hminute : candle.intervalMin = 1)
    (hnew : (candle.code, candle.startAt) ∉ b.completed1mKeys) :
    Completes b candle (b.complete1m candle) := by
  unfold complete1m
  dsimp only
  rw [if_neg hnew]
  generalize hput : CandleBuilder.appendCompleted _ candle = put
  have happend : ∀ code k, put.completedOf code k =
      if (code, k) = (candle.code, candle.intervalMin) then b.completedOf code k ++ [candle]
      else b.completedOf code k := by
    intro code k
    rw [← hput]
    exact completedOf_appendCompleted _ _ _ _
  rw [hminute] at happend
  have hthree := rollsUp_aggregateCompleted put candle.code 3
  generalize put.aggregateCompleted candle.code 3 = three at hthree ⊢
  have hfive := rollsUp_aggregateCompleted three candle.code 5
  generalize three.aggregateCompleted candle.code 5 = five at hfive ⊢
  have hone : ∀ k, k ≠ 1 → put.completedOf candle.code k = b.completedOf candle.code k := by
    intro k hk
    rw [happend, if_neg (by simp [hk])]
  have hputown : put.completedOf candle.code 1 = b.completedOf candle.code 1 ++ [candle] := by
    rw [happend, if_pos rfl]
  have hthreeown : three.completedOf candle.code 1 = put.completedOf candle.code 1 :=
    hthree.frame _ _ (by simp)
  -- the newest one-minute candle both roll-ups look at is the one just completed
  have hnewest : ∀ newest, (put.completedOf candle.code 1).getLast? = some newest →
      newest = candle := by
    intro newest hlast
    rw [hputown, getLast?_concat] at hlast
    exact (Option.some.inj hlast).symm
  constructor
  · rw [hfive.active, hthree.active, ← hput]
    rfl
  · rw [hfive.timestamps, hthree.timestamps, ← hput]
    rfl
  · rw [hfive.volumes, hthree.volumes, ← hput]
    rfl
  · rw [hfive.keys, hthree.keys, ← hput]
    rfl
  · rw [hfive.frame _ _ (by simp), hthreeown, hputown]
  · intro other k hother
    have hne : ∀ j, (j = 1 ∨ j = 3 ∨ j = 5) → (other, k) ≠ (candle.code, j) := by
      intro j hj heq
      obtain ⟨rfl, rfl⟩ := Prod.mk.inj heq
      rcases hother with hcode | hk
      · exact hcode rfl
      · omega
    rw [hfive.frame _ _ (hne 5 (by simp)), hthree.frame _ _ (hne 3 (by simp)), happend,
      if_neg (hne 1 (by simp))]
  · rintro k (rfl | rfl)
    · rw [hfive.frame _ _ (by simp), ← hone 3 (by decide)]
      refine hthree.own.imp_right ?_
      rintro ⟨newest, rolled, hlast, hstart, hother, happended⟩
      rw [hnewest newest hlast] at hstart
      exact ⟨rolled, hstart, hother, happended⟩
    · have hkept : three.completedOf candle.code 5 = b.completedOf candle.code 5 := by
        rw [hthree.frame _ _ (by simp), hone 5 (by decide)]
      rw [← hkept]
      refine hfive.own.imp_right ?_
      rintro ⟨newest, rolled, hlast, hstart, hother, happended⟩
      rw [hthreeown] at hlast
      rw [hnewest newest hlast] at hstart
      exact ⟨rolled, hstart, hother, happended⟩

/-! ## The order of the rolled-up candles -/

variable {k : Nat} {candle : Candle}

theorem intervalStart_le {a b : Int} (hle : a ≤ b) (hk : k = 3 ∨ k = 5) :
    intervalStart a k ≤ intervalStart b k := by
  unfold intervalStart minuteStart
  rcases hk with rfl | rfl
  · dsimp only
    omega
  · dsimp only
    omega

/-- The rolled-up candles of a code ascend, up to the bucket of the newest one-minute candle. -/
structure RolledUp (minutes rolled : List Candle) (k : Nat) : Prop where
  ascending : rolled.Pairwise fun a b => a.startAt < b.startAt
  bounded : ∀ candle ∈ rolled, ∃ newest, minutes.getLast? = some newest ∧
    candle.startAt ≤ intervalStart newest.startAt k

theorem RolledUp.concat {minutes rolled : List Candle} (h : RolledUp minutes rolled k)
    (hk : k = 3 ∨ k = 5)
    (hlater : ∀ newest, minutes.getLast? = some newest → newest.startAt ≤ candle.startAt) :
    RolledUp (minutes ++ [candle]) rolled k := by
  refine ⟨h.ascending, ?_⟩
  intro other hmem
  obtain ⟨newest, hlast, hle⟩ := h.bounded other hmem
  have := intervalStart_le (hlater newest hlast) hk
  exact ⟨candle, getLast?_concat, by omega⟩

theorem RolledUp.push {minutes rolled : List Candle} {new : Candle}
    (h : RolledUp (minutes ++ [candle]) rolled k)
    (hstart : new.startAt = intervalStart candle.startAt k)
    (hnew : rolled.getLast?.map (·.startAt) ≠ some new.startAt) :
    RolledUp (minutes ++ [candle]) (rolled ++ [new]) k := by
  have hle : ∀ other ∈ rolled, other.startAt ≤ new.startAt := by
    intro other hmem
    obtain ⟨newest, hlast, hle⟩ := h.bounded other hmem
    rw [getLast?_concat] at hlast
    rw [hstart, Option.some.inj hlast]
    exact hle
  constructor
  · refine pairwise_append.mpr ⟨h.ascending, pairwise_singleton _ _, ?_⟩
    intro other hmem last hlast
    rw [mem_singleton.mp hlast]
    -- were it not earlier, it would be the last of the rolled-up candles
    rcases eq_nil_or_concat rolled with rfl | ⟨front, newest, rfl⟩
    · exact absurd hmem not_mem_nil
    · rw [concat_eq_append] at *
      rw [getLast?_concat] at hnew
      have hne : newest.startAt ≠ new.startAt := fun heq => hnew (congrArg some heq)
      have hnewest := hle newest (mem_append_right _ (mem_singleton.mpr rfl))
      rcases mem_append.mp hmem with hold | hlast
      · have := (pairwise_append.mp h.ascending).2.2 other hold newest
          (mem_singleton.mpr rfl)
        omega
      · rw [mem_singleton.mp hlast]
        omega
  · intro other hmem
    rcases mem_append.mp hmem with hold | hlast
    · exact h.bounded other hold
    · rw [mem_singleton.mp hlast, hstart]
      exact ⟨candle, getLast?_concat, le_refl _⟩

theorem Completes.rolledUp {b b' : CandleBuilder} (h : Completes b candle b') (hk : k = 3 ∨ k = 5)
    (hrolled : RolledUp (b.completedOf candle.code 1) (b.completedOf candle.code k) k)
    (hlater : ∀ newest, (b.completedOf candle.code 1).getLast? = some newest →
      newest.startAt ≤ candle.startAt) :
    RolledUp (b'.completedOf candle.code 1) (b'.completedOf candle.code k) k := by
  rw [h.own]
  have hconcat := hrolled.concat hk hlater
  rcases h.rolled k hk with hsame | ⟨new, hstart, hnew, happended⟩
  · rw [hsame]
    exact hconcat
  · rw [happended]
    exact hconcat.push hstart hnew

end CandleBuilder

end TradingCore.Candles
