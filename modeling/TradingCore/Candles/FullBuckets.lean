import Mathlib.Data.List.Sort
import TradingCore.Candles.CompletedCandles

/-!
# Candles of three and of five minutes

A bucket of three or of five minutes is full when each of its one-minute candles is completed. Only
the newest completed candle can fill one, so rolling up its bucket alone leaves out no other.

* `Aggregates.concat` — one more completed candle rolls up the bucket it fills, and no other;
* `rolled_up_exactly` — under any ticks and flushes, the rolled-up candles of a code are those of
  its full buckets, in order.
-/

namespace TradingCore.Candles

open Base Candidates CandleBuilder List

def bucketOf (minutes : List Candle) (n : Nat) (start : Int) : List Candle :=
  minutes.filter fun candle => start ≤ candle.startAt ∧ candle.startAt < addMinutes start n

/-- A bucket all of whose one-minute candles are completed. -/
structure FullBucket (minutes : List Candle) (n : Nat) (start : Int) : Prop where
  aligned : intervalStart start n = start
  full : ∀ i < n, ∃ candle ∈ minutes, candle.startAt = addMinutes start i

structure SumsUp (candle : Candle) (bucket : List Candle) : Prop where
  opening : bucket.head?.map (·.openPrice) = some candle.openPrice
  highest : candle.high ∈ bucket.map (·.high) ∧ ∀ minute ∈ bucket, minute.high ≤ candle.high
  lowest : candle.low ∈ bucket.map (·.low) ∧ ∀ minute ∈ bucket, candle.low ≤ minute.low
  closing : bucket.getLast?.map (·.close) = some candle.close
  volume : candle.volume = (bucket.map (·.volume)).sum

/-- The rolled-up candles of a code are those of the full buckets of its one-minute candles. -/
structure Aggregates (minutes rolled : List Candle) (code : String) (n : Nat) : Prop where
  /-- They are in order, none twice. -/
  ascending : rolled.Pairwise fun a b => a.startAt < b.startAt
  /-- A bucket has one exactly when it is full. -/
  exact : ∀ start, (∃ candle ∈ rolled, candle.startAt = start) ↔ FullBucket minutes n start
  /-- Each is a candle of its code and interval that sums up the minutes of its bucket. -/
  sums : ∀ candle ∈ rolled, candle.code = code ∧ candle.intervalMin = n ∧
    (bucketOf minutes n candle.startAt).map (·.startAt) =
      (range n).map (addMinutes candle.startAt) ∧
    SumsUp candle (bucketOf minutes n candle.startAt)

/-! ## Buckets -/

section Buckets

variable {n : Nat} {start value : Int} {minutes : List Candle} {candle : Candle}

theorem intervalStart_eq_iff (hn : n = 3 ∨ n = 5) (hstart : intervalStart start n = start) :
    intervalStart value n = start ↔ start ≤ value ∧ value < addMinutes start n := by
  unfold intervalStart minuteStart at *
  unfold addMinutes
  rcases hn with rfl | rfl
  · dsimp only at *
    omega
  · dsimp only at *
    omega

theorem intervalStart_intervalStart (hn : n = 3 ∨ n = 5) :
    intervalStart (intervalStart value n) n = intervalStart value n := by
  unfold intervalStart minuteStart
  rcases hn with rfl | rfl
  · dsimp only
    omega
  · dsimp only
    omega

theorem slot_iff (hn : n = 3 ∨ n = 5) (hstart : intervalStart start n = start)
    (hvalue : minuteStart value = value) :
    (start ≤ value ∧ value < addMinutes start n) ↔ ∃ i < n, addMinutes start i = value := by
  have haligned : start % 60 = 0 := by
    unfold intervalStart minuteStart at hstart
    rcases hn with rfl | rfl
    · dsimp only at hstart
      omega
    · dsimp only at hstart
      omega
  unfold minuteStart at hvalue
  unfold addMinutes
  constructor
  · intro h
    exact ⟨((value - start) / 60).toNat, by omega, by omega⟩
  · rintro ⟨i, hi, rfl⟩
    omega

theorem mem_bucketOf :
    candle ∈ bucketOf minutes n start ↔
      candle ∈ minutes ∧ start ≤ candle.startAt ∧ candle.startAt < addMinutes start n := by
  unfold bucketOf
  rw [mem_filter, decide_eq_true_iff]

theorem bucketOf_concat_of_ne (hn : n = 3 ∨ n = 5) (hstart : intervalStart start n = start)
    (hne : intervalStart candle.startAt n ≠ start) :
    bucketOf (minutes ++ [candle]) n start = bucketOf minutes n start := by
  unfold bucketOf
  rw [filter_append, filter_cons_of_neg, filter_nil, append_nil]
  rw [decide_eq_true_iff, ← intervalStart_eq_iff hn hstart]
  exact hne

theorem fullBucket_concat_of_ne (hn : n = 3 ∨ n = 5)
    (hne : intervalStart candle.startAt n ≠ start) :
    FullBucket (minutes ++ [candle]) n start ↔ FullBucket minutes n start := by
  constructor
  · intro h
    refine ⟨h.aligned, ?_⟩
    intro i hi
    obtain ⟨other, hmem, hother⟩ := h.full i hi
    rcases mem_append.mp hmem with hold | hnew
    · exact ⟨other, hold, hother⟩
    · -- the candle of a slot is of the bucket
      refine absurd ?_ hne
      rw [intervalStart_eq_iff hn h.aligned, ← mem_singleton.mp hnew, hother]
      unfold addMinutes
      omega
  · intro h
    refine ⟨h.aligned, ?_⟩
    intro i hi
    obtain ⟨other, hmem, hother⟩ := h.full i hi
    exact ⟨other, mem_append_left _ hmem, hother⟩

/-- The minutes of a code: in order, each at the start of a minute. -/
structure Minutes (minutes : List Candle) : Prop where
  ascending : minutes.Pairwise fun a b => a.startAt < b.startAt
  aligned : ∀ candle ∈ minutes, minuteStart candle.startAt = candle.startAt

theorem pairwise_slots (start : Int) (n : Nat) :
    ((range n).map (addMinutes start)).Pairwise (· < ·) := by
  rw [pairwise_map]
  refine pairwise_lt_range.imp ?_
  intro i j hij
  unfold addMinutes
  omega

section

variable (h : Minutes minutes)
include h

theorem Minutes.pairwise_bucketOf (n : Nat) (start : Int) :
    ((bucketOf minutes n start).map (·.startAt)).Pairwise (· < ·) := by
  rw [pairwise_map]
  exact h.ascending.filter _

theorem Minutes.bucketOf_subset (hn : n = 3 ∨ n = 5) (hstart : intervalStart start n = start) :
    (bucketOf minutes n start).map (·.startAt) ⊆ (range n).map (addMinutes start) := by
  intro value hmem
  obtain ⟨minute, hminute, rfl⟩ := mem_map.mp hmem
  obtain ⟨hminutes, hwithin⟩ := mem_bucketOf.mp hminute
  obtain ⟨i, hi, hslot⟩ := (slot_iff hn hstart (h.aligned _ hminutes)).mp hwithin
  exact mem_map.mpr ⟨i, mem_range.mpr hi, hslot⟩

theorem Minutes.bucketOf_full (hn : n = 3 ∨ n = 5) (hfull : FullBucket minutes n start) :
    (bucketOf minutes n start).map (·.startAt) = (range n).map (addMinutes start) := by
  refine (h.pairwise_bucketOf n start).eq_of_mem_iff (pairwise_slots start n) ?_
  intro value
  constructor
  · intro hmem
    exact h.bucketOf_subset hn hfull.aligned hmem
  · intro hmem
    obtain ⟨i, hi, rfl⟩ := mem_map.mp hmem
    obtain ⟨minute, hminute, hslot⟩ := hfull.full i (mem_range.mp hi)
    refine mem_map.mpr ⟨minute, mem_bucketOf.mpr ⟨hminute, ?_⟩, hslot⟩
    rw [slot_iff hn hfull.aligned (h.aligned _ hminute)]
    exact ⟨i, mem_range.mp hi, hslot.symm⟩

theorem Minutes.fullBucket_iff (hn : n = 3 ∨ n = 5) (hstart : intervalStart start n = start) :
    (bucketOf minutes n start).length = n ↔ FullBucket minutes n start := by
  constructor
  · intro hlength
    have hperm : (bucketOf minutes n start).map (·.startAt) |>.Perm
        ((range n).map (addMinutes start)) := by
      refine (subperm_of_subset (h.pairwise_bucketOf n start).nodup
        (h.bucketOf_subset hn hstart)).perm_of_length_le ?_
      rw [length_map, length_map, length_range, hlength]
    refine ⟨hstart, ?_⟩
    intro i hi
    have hmem : addMinutes start i ∈ (bucketOf minutes n start).map (·.startAt) :=
      hperm.mem_iff.mpr (mem_map.mpr ⟨i, mem_range.mpr hi, rfl⟩)
    obtain ⟨minute, hminute, hslot⟩ := mem_map.mp hmem
    exact ⟨minute, (mem_bucketOf.mp hminute).1, hslot⟩
  · intro hfull
    have hlength := congrArg length (h.bucketOf_full hn hfull)
    rw [length_map, length_map, length_range] at hlength
    exact hlength

end

theorem fullBucket_before (hn : n = 3 ∨ n = 5) (hminutes : Minutes (minutes ++ [candle]))
    (hfull : FullBucket minutes n start) : start < intervalStart candle.startAt n := by
  have hearlier : ∀ other ∈ minutes, other.startAt < candle.startAt := fun other hmem =>
    (pairwise_append.mp hminutes.ascending).2.2 other hmem candle (mem_singleton.mpr rfl)
  have hidem : intervalStart (intervalStart candle.startAt n) n = _ :=
    intervalStart_intervalStart hn
  have hwithin := (intervalStart_eq_iff hn hidem).mp (rfl : intervalStart candle.startAt n = _)
  by_contra hnot
  obtain ⟨first, hfirst, hstart⟩ := hfull.full 0 (by omega)
  have hlt := hearlier first hfirst
  have hsame : start = intervalStart candle.startAt n := by
    refine ((intervalStart_eq_iff hn hfull.aligned).mpr ⟨?_, ?_⟩).symm
    · unfold addMinutes at hstart
      omega
    · unfold addMinutes at hwithin ⊢
      omega
  -- the slot of the candle would be taken by an earlier one
  obtain ⟨i, hi, hslot⟩ := (slot_iff hn hidem (hminutes.aligned candle (by simp))).mp hwithin
  rw [hsame] at hfull
  obtain ⟨other, hother, hstart⟩ := hfull.full i hi
  have := hearlier other hother
  omega

end Buckets

/-! ## Rolling up a bucket -/

theorem sumsUp_rollUp (code : String) (n : Nat) (start : Int) (first : Candle)
    (rest : List Candle) :
    SumsUp (rollUp code n start first rest) (first :: rest) := by
  obtain ⟨hhigh, hhighest⟩ := foldl_max_spec first.high (rest.map (·.high))
  obtain ⟨hlow, hlowest⟩ := foldl_min_spec first.low (rest.map (·.low))
  constructor
  · rfl
  · refine ⟨hhigh, ?_⟩
    intro minute hmem
    exact hhighest _ (mem_map_of_mem (f := (·.high)) hmem)
  · refine ⟨hlow, ?_⟩
    intro minute hmem
    exact hlowest _ (mem_map_of_mem (f := (·.low)) hmem)
  · rw [getLast?_cons]
    rfl
  · rfl

/-- The rolled-up candles of a code after its newest one-minute candle was completed. -/
def rolledAfter (minutes rolled : List Candle) (code : String) (n : Nat) : List Candle :=
  match minutes.getLast? with
  | none => rolled
  | some newest =>
      let start := intervalStart newest.startAt n
      if (bucketOf minutes n start).length ≠ n then rolled
      else if rolled.getLast?.map (·.startAt) = some start then rolled
      else
        match bucketOf minutes n start with
        | [] => rolled
        | first :: rest => rolled ++ [rollUp code n start first rest]

theorem completedOf_aggregateCompleted (b : CandleBuilder) (code : String) (n : Nat) :
    (b.aggregateCompleted code n).completedOf code n =
      rolledAfter (b.completedOf code 1) (b.completedOf code n) code n := by
  unfold aggregateCompleted rolledAfter bucketOf
  dsimp only
  cases (b.completedOf code 1).getLast? with
  | none => rfl
  | some newest =>
    dsimp only
    generalize (b.completedOf code 1).filter _ = bucket
    split
    · rfl
    · split
      · rfl
      · cases bucket with
        | nil => rfl
        | cons first rest =>
          dsimp only
          rw [completedOf_appendCompleted]
          exact if_pos rfl

variable {candle : Candle}

theorem completedOf_complete1m (b : CandleBuilder) (hminute : candle.intervalMin = 1)
    (hnew : (candle.code, candle.startAt) ∉ b.completed1mKeys) {n : Nat} (hn : n = 3 ∨ n = 5) :
    (b.complete1m candle).completedOf candle.code n =
      rolledAfter (b.completedOf candle.code 1 ++ [candle]) (b.completedOf candle.code n)
        candle.code n := by
  have hown := (b.completes_complete1m candle hminute hnew).own
  unfold complete1m at hown ⊢
  dsimp only at hown ⊢
  rw [if_neg hnew] at hown ⊢
  generalize hput : appendCompleted _ candle = put at hown ⊢
  have hthree := rollsUp_aggregateCompleted put candle.code 3
  have hfive := rollsUp_aggregateCompleted (put.aggregateCompleted candle.code 3) candle.code 5
  rw [hfive.frame _ _ (by simp)] at hown
  have hput' : put.completedOf candle.code n = b.completedOf candle.code n := by
    rw [← hput, completedOf_appendCompleted, hminute]
    refine if_neg ?_
    rcases hn with rfl | rfl
    · simp
    · simp
  rcases hn with rfl | rfl
  · rw [hfive.frame _ _ (by simp), completedOf_aggregateCompleted, hput',
      ← hthree.frame _ _ (by simp), hown]
  · rw [completedOf_aggregateCompleted, hown, hthree.frame _ _ (by simp), hput']

variable {code : String} {b b' : CandleBuilder}

theorem Aggregates.concat {minutes rolled : List Candle} {n : Nat}
    (h : Aggregates minutes rolled code n) (hn : n = 3 ∨ n = 5)
    (hminutes : Minutes (minutes ++ [candle])) :
    Aggregates (minutes ++ [candle]) (rolledAfter (minutes ++ [candle]) rolled code n) code n := by
  have hbefore : ∀ start, FullBucket minutes n start →
      start < intervalStart candle.startAt n :=
    fun _ hfull => fullBucket_before hn hminutes hfull
  have hrolled : ∀ other ∈ rolled, other.startAt < intervalStart candle.startAt n :=
    fun other hmem => hbefore _ ((h.exact _).mp ⟨other, hmem, rfl⟩)
  have hkept : ∀ other ∈ rolled, bucketOf (minutes ++ [candle]) n other.startAt =
      bucketOf minutes n other.startAt := by
    intro other hmem
    exact bucketOf_concat_of_ne hn ((h.exact _).mp ⟨other, hmem, rfl⟩).aligned
      (hrolled other hmem).ne'
  have hidem : intervalStart (intervalStart candle.startAt n) n = _ :=
    intervalStart_intervalStart hn
  unfold rolledAfter
  rw [getLast?_concat]
  dsimp only
  by_cases hfull : (bucketOf (minutes ++ [candle]) n (intervalStart candle.startAt n)).length = n
  · rw [if_neg (not_not.mpr hfull), if_neg ?_]
    · have hbucket := hminutes.bucketOf_full hn ((hminutes.fullBucket_iff hn hidem).mp hfull)
      have hfilled := (hminutes.fullBucket_iff hn hidem).mp hfull
      cases hfirst : bucketOf (minutes ++ [candle]) n (intervalStart candle.startAt n) with
      | nil =>
        rw [hfirst] at hfull
        exact absurd hfull (by simp only [length_nil]; omega)
      | cons first rest =>
        dsimp only
        constructor
        · refine pairwise_append.mpr ⟨h.ascending, pairwise_singleton _ _, ?_⟩
          intro other hmem new hnew
          rw [mem_singleton.mp hnew]
          exact hrolled other hmem
        · intro start
          by_cases hstart : intervalStart candle.startAt n = start
          · subst hstart
            exact ⟨fun _ => hfilled, fun _ => ⟨_, mem_append_right _ (mem_singleton.mpr rfl), rfl⟩⟩
          · rw [fullBucket_concat_of_ne hn hstart, ← h.exact]
            constructor
            · rintro ⟨other, hmem, hother⟩
              rcases mem_append.mp hmem with hold | hnew
              · exact ⟨other, hold, hother⟩
              · rw [mem_singleton.mp hnew] at hother
                exact absurd hother hstart
            · rintro ⟨other, hmem, hother⟩
              exact ⟨other, mem_append_left _ hmem, hother⟩
        · intro other hmem
          rcases mem_append.mp hmem with hold | hnew
          · rw [hkept other hold]
            exact h.sums other hold
          · rw [mem_singleton.mp hnew]
            refine ⟨rfl, rfl, hbucket, ?_⟩
            show SumsUp _ (bucketOf _ n (intervalStart candle.startAt n))
            rw [hfirst]
            exact sumsUp_rollUp ..
    · -- no rolled-up candle starts where the bucket does
      intro hlast
      obtain ⟨last, hlast, hstart⟩ := Option.map_eq_some_iff.mp hlast
      have := hrolled last (mem_of_getLast? hlast)
      omega
  · rw [if_pos hfull]
    refine ⟨h.ascending, ?_, ?_⟩
    · intro start
      rw [h.exact]
      by_cases hstart : intervalStart candle.startAt n = start
      · subst hstart
        constructor
        · intro hold
          exact absurd (hbefore _ hold) (lt_irrefl _)
        · intro hfilled
          exact absurd ((hminutes.fullBucket_iff hn hidem).mpr hfilled) hfull
      · exact (fullBucket_concat_of_ne hn hstart).symm
    · intro other hmem
      rw [hkept other hmem]
      exact h.sums other hmem

/-! ## The builder's candles -/

/-- The completed candles of a code are stored well. -/
structure Stored (b : CandleBuilder) (code : String) : Prop where
  keys : ∀ start, (code, start) ∈ b.completed1mKeys ↔ start ∈ (b.completedOf code 1).map (·.startAt)
  minutes : Minutes (b.completedOf code 1)
  aggregates : ∀ n, (n = 3 ∨ n = 5) →
    Aggregates (b.completedOf code 1) (b.completedOf code n) code n

theorem Stored.congr (h : Stored b code) (hcompleted : b'.completed = b.completed)
    (hkeys : b'.completed1mKeys = b.completed1mKeys) : Stored b' code := by
  have hof : ∀ k, b'.completedOf code k = b.completedOf code k := by
    intro k
    unfold completedOf
    rw [hcompleted]
  constructor
  · intro start
    rw [hkeys, hof]
    exact h.keys start
  · rw [hof]
    exact h.minutes
  · intro n hn
    rw [hof, hof]
    exact h.aggregates n hn

theorem Stored.complete (h : Stored b code) (hminute : candle.intervalMin = 1)
    (haligned : minuteStart candle.startAt = candle.startAt)
    (hnew : (candle.code, candle.startAt) ∉ b.completed1mKeys)
    (hlater : ∀ other ∈ b.completedOf candle.code 1, other.startAt ≤ candle.startAt) :
    Stored (b.complete1m candle) code := by
  have hcompletes := b.completes_complete1m candle hminute hnew
  by_cases hcode : code = candle.code
  · subst hcode
    have hearlier : ∀ other ∈ b.completedOf candle.code 1, other.startAt < candle.startAt := by
      intro other hmem
      refine lt_of_le_of_ne (hlater other hmem) ?_
      intro hsame
      exact hnew ((h.keys _).mpr (mem_map.mpr ⟨other, hmem, hsame⟩))
    have hminutes : Minutes (b.completedOf candle.code 1 ++ [candle]) := by
      constructor
      · refine pairwise_append.mpr ⟨h.minutes.ascending, pairwise_singleton _ _, ?_⟩
        intro other hmem last hlast
        rw [mem_singleton.mp hlast]
        exact hearlier other hmem
      · intro other hmem
        rcases mem_append.mp hmem with hold | hlast
        · exact h.minutes.aligned other hold
        · rw [mem_singleton.mp hlast]
          exact haligned
    constructor
    · intro start
      rw [hcompletes.keys, hcompletes.own, mem_append, h.keys, map_append, mem_append]
      simp
    · rw [hcompletes.own]
      exact hminutes
    · intro n hn
      rw [completedOf_complete1m b hminute hnew hn, hcompletes.own]
      exact (h.aggregates n hn).concat hn hminutes
  · have hframe := fun k => hcompletes.frame code k (.inl hcode)
    constructor
    · intro start
      rw [hcompletes.keys, hframe, mem_append, h.keys]
      simp [hcode]
    · rw [hframe]
      exact h.minutes
    · intro n hn
      rw [hframe, hframe]
      exact h.aggregates n hn

/-- The builder's candles are no later than the last tick of their code, whose minute is that of
the active one. -/
structure Tidy (b : CandleBuilder) : Prop where
  stored : ∀ code, Stored b code
  timely : ∀ code, ∀ candle ∈ b.completedOf code 1,
    ∃ last ∈ b.lastTickTimestamp.get? code, candle.startAt ≤ minuteStart last
  active : ∀ code, ∀ candle ∈ b.active1m.get? code, candle.code = code ∧ candle.intervalMin = 1 ∧
    ∃ last ∈ b.lastTickTimestamp.get? code, candle.startAt = minuteStart last

/-- Completing the active candle of a code, unless its minute is completed already. -/
structure Closes (b : CandleBuilder) (closed : Candle) (b' : CandleBuilder) : Prop where
  active : b'.active1m = b.active1m
  timestamps : b'.lastTickTimestamp = b.lastTickTimestamp
  stored : ∀ code, Stored b' code
  completed : ∀ code, ∀ candle ∈ b'.completedOf code 1,
    candle ∈ b.completedOf code 1 ∨ closed.code = code ∧ candle = closed

theorem Tidy.closes (h : Tidy b) {active : Candle} (hactive : active ∈ b.active1m.get? code)
    (b0 : CandleBuilder) (hcompleted : b0.completed = b.completed)
    (hkeys : b0.completed1mKeys = b.completed1mKeys) : Closes b0 active (b0.complete1m active) := by
  obtain ⟨rfl, hminute, last, hlast, hstart⟩ := h.active code active hactive
  have hstored : ∀ code, Stored b0 code := fun code => (h.stored code).congr hcompleted hkeys
  by_cases hkey : (active.code, active.startAt) ∈ b0.completed1mKeys
  · have hsame : b0.complete1m active = b0 := if_pos hkey
    rw [hsame]
    exact ⟨rfl, rfl, hstored, fun _ _ hmem => .inl hmem⟩
  · have hcompletes := b0.completes_complete1m active hminute hkey
    refine ⟨hcompletes.active, hcompletes.timestamps, ?_, ?_⟩
    · intro code
      refine (hstored code).complete hminute ?_ hkey ?_
      · rw [hstart]
        unfold minuteStart
        omega
      · intro other hmem
        unfold completedOf at hmem
        rw [hcompleted] at hmem
        obtain ⟨last', hlast', hle⟩ := h.timely active.code other hmem
        rw [Option.mem_unique hlast' hlast] at hle
        rw [hstart]
        exact hle
    · intro code candle hmem
      by_cases hcode : code = active.code
      · subst hcode
        rw [hcompletes.own, mem_append, mem_singleton] at hmem
        exact hmem.imp_right fun hnew => ⟨rfl, hnew⟩
      · rw [hcompletes.frame code 1 (.inl hcode)] at hmem
        exact .inl hmem

theorem Tidy.placed (h : Tidy b) {tick : StrategyTick} (candle : Candle)
    (hfresh : ∀ last ∈ b.lastTickTimestamp.get? tick.code, last ≤ tick.timestamp)
    (hcode : candle.code = tick.code) (hminute : candle.intervalMin = 1)
    (hstart : candle.startAt = minuteStart tick.timestamp)
    (hactive : b'.active1m = b.active1m.set tick.code candle)
    (htimestamps : b'.lastTickTimestamp = b.lastTickTimestamp.set tick.code tick.timestamp)
    (hstored : ∀ code, Stored b' code)
    (hcompleted : ∀ code, ∀ other ∈ b'.completedOf code 1, other ∈ b.completedOf code 1 ∨
      tick.code = code ∧ other.startAt ≤ minuteStart tick.timestamp) : Tidy b' := by
  refine ⟨hstored, ?_, ?_⟩
  · intro code other hmem
    rw [htimestamps, Dict.get?_set]
    split
    · next hsame =>
        refine ⟨tick.timestamp, rfl, ?_⟩
        rcases hcompleted code other hmem with hold | ⟨-, hle⟩
        · obtain ⟨last, hlast, hle⟩ := h.timely code other hold
          rw [hsame] at hlast
          have := hfresh last hlast
          unfold minuteStart at *
          omega
        · exact hle
    · next hother =>
        rcases hcompleted code other hmem with hold | ⟨hsame, -⟩
        · exact h.timely code other hold
        · exact absurd hsame.symm hother
  · intro code other hmem
    rw [hactive, Dict.get?_set] at hmem
    rw [htimestamps, Dict.get?_set]
    split at hmem
    · next hsame =>
        obtain rfl := Option.some.inj hmem
        rw [if_pos hsame]
        exact ⟨hcode.trans hsame.symm, hminute, tick.timestamp, rfl, hstart⟩
    · next hother =>
        rw [if_neg hother]
        exact h.active code other hmem

/-! ## Calls -/

theorem volumeDelta_frame (b : CandleBuilder) (tick : StrategyTick) :
    (b.volumeDelta tick).1 =
      { b with lastCumVolume := b.lastCumVolume.set tick.code tick.cumVolume } := by
  unfold volumeDelta
  dsimp only
  split
  · rfl
  · split <;> rfl

theorem Tidy.congr (h : Tidy b) (hactive : b'.active1m = b.active1m)
    (hcompleted : b'.completed = b.completed) (hkeys : b'.completed1mKeys = b.completed1mKeys)
    (htimestamps : b'.lastTickTimestamp = b.lastTickTimestamp) : Tidy b' := by
  refine ⟨fun code => (h.stored code).congr hcompleted hkeys, ?_, ?_⟩
  · intro code candle hmem
    unfold completedOf at hmem
    rw [hcompleted] at hmem
    rw [htimestamps]
    exact h.timely code candle hmem
  · intro code candle hmem
    rw [hactive] at hmem
    rw [htimestamps]
    exact h.active code candle hmem

theorem Tidy.place (h : Tidy b) {tick : StrategyTick}
    (hfresh : ∀ last ∈ b.lastTickTimestamp.get? tick.code, last ≤ tick.timestamp) :
    Tidy (b.place tick).1 := by
  unfold CandleBuilder.place
  rw [show b.volumeDelta tick = (_, (b.volumeDelta tick).2) from Prod.ext (volumeDelta_frame b tick)
    rfl]
  dsimp only
  cases hactive : b.active1m.get? tick.code with
  | none =>
    refine h.placed (newCandle tick (minuteStart tick.timestamp) 0) hfresh rfl rfl rfl rfl rfl ?_ ?_
    · intro code
      exact (h.stored code).congr rfl rfl
    · intro code other hmem
      exact .inl hmem
  | some active =>
    obtain ⟨hcode, hminute, -⟩ := h.active tick.code active hactive
    dsimp only
    split
    · next hsame =>
        refine h.placed (active.withTick tick (b.volumeDelta tick).2) hfresh hcode
          hminute hsame rfl rfl ?_ ?_
        · intro code
          exact (h.stored code).congr rfl rfl
        · intro code other hmem
          exact .inl hmem
    · split
      · next hearlier =>
          have hcloses := h.closes hactive (b.volumeDelta tick).1
            (by rw [volumeDelta_frame]) (by rw [volumeDelta_frame])
          rw [volumeDelta_frame] at hcloses
          refine h.placed
            (newCandle tick (minuteStart tick.timestamp) (b.volumeDelta tick).2)
            hfresh rfl rfl rfl ?_ ?_ ?_ ?_
          · show (complete1m _ active).active1m.set _ _ = _
            rw [hcloses.active]
          · show (complete1m _ active).lastTickTimestamp.set _ _ = _
            rw [hcloses.timestamps]
          · intro code
            exact (hcloses.stored code).congr rfl rfl
          · intro code other hmem
            rcases hcloses.completed code other hmem with hold | ⟨hown, rfl⟩
            · exact .inl hold
            · exact .inr ⟨hcode.symm.trans hown, hearlier.le⟩
      · exact h.congr rfl rfl rfl rfl

theorem Tidy.update (h : Tidy b) (tick : StrategyTick) : Tidy (b.update tick).1 := by
  unfold CandleBuilder.update
  cases hlast : b.lastTickTimestamp.get? tick.code with
  | none =>
    refine h.place ?_
    intro last hmem
    rw [hlast] at hmem
    cases hmem
  | some last =>
    dsimp only
    split
    · exact h
    · next hfresh =>
        refine h.place ?_
        intro other hmem
        rw [hlast] at hmem
        obtain rfl := Option.some.inj hmem
        omega

theorem Tidy.flush (h : Tidy b) (code : String) (now : Int) : Tidy (b.flush code now).1 := by
  unfold CandleBuilder.flush
  dsimp only
  cases hactive : b.active1m.get? (normalizeCode code) with
  | none => exact h
  | some active =>
    obtain ⟨hcode, -, last, hlast, hstart⟩ := h.active _ active hactive
    dsimp only
    split
    · exact h
    · have hcloses := h.closes hactive
        { b with active1m := b.active1m.filter fun c _ => c ≠ normalizeCode code } rfl rfl
      refine ⟨hcloses.stored, ?_, ?_⟩
      · intro other candle hmem
        rw [hcloses.timestamps]
        rcases hcloses.completed other candle hmem with hold | ⟨hown, rfl⟩
        · exact h.timely other candle hold
        · rw [← hown, hcode]
          exact ⟨last, hlast, hstart.le⟩
      · intro other candle hmem
        rw [hcloses.active, Dict.get?_filter] at hmem
        rw [hcloses.timestamps]
        exact h.active other candle (Option.filter_eq_some_iff.mp hmem).1

theorem tidy_new : Tidy .new := by
  refine ⟨?_, ?_, ?_⟩
  · intro code
    refine ⟨?_, ⟨.nil, fun _ hmem => absurd hmem not_mem_nil⟩, ?_⟩
    · intro start
      exact ⟨fun hmem => absurd hmem not_mem_nil, fun hmem => absurd hmem not_mem_nil⟩
    · intro n hn
      refine ⟨.nil, ?_, fun _ hmem => absurd hmem not_mem_nil⟩
      intro start
      constructor
      · rintro ⟨candle, hmem, -⟩
        exact absurd hmem not_mem_nil
      · intro hfull
        obtain ⟨candle, hmem, -⟩ := hfull.full 0 (by omega)
        exact absurd hmem not_mem_nil
  · intro code candle hmem
    exact absurd hmem not_mem_nil
  · intro code candle hmem
    cases hmem

theorem tidy_run (calls : List Call) : Tidy (builder.run .new calls) := by
  refine Machine.run_preserves ?_ tidy_new calls
  intro b call h
  cases call with
  | update tick => exact h.update tick
  | flush code now => exact h.flush code now

/-- Under any ticks and flushes, the candles of three and of five minutes of a code are those of
its full buckets: in order, one for each, and each sums up the minutes of its bucket. -/
theorem rolled_up_exactly (calls : List Call) (code : String) (n : Nat) (hn : n = 3 ∨ n = 5) :
    Aggregates ((builder.run .new calls).completedOf code 1)
      ((builder.run .new calls).completedOf code n) code n :=
  ((tidy_run calls).stored code).aggregates n hn

/-! ## A fixed run -/

/-- Three minutes with a gap behind them: the bucket of the first three is full. -/
def threeMinutes : List Call :=
  [.update ⟨"005930", 100, 10, 190⟩, .update ⟨"005930", 130, 20, 250⟩,
    .update ⟨"005930", 90, 25, 310⟩, .flush "005930" 360, .update ⟨"005930", 95, 30, 480⟩,
    .flush "005930" 540]

theorem rolled_up_three_minutes :
    (builder.run .new threeMinutes).completedOf "005930" 3 =
        [⟨⟨180, 100, 130, 90, 90, 15⟩, "005930", 3⟩] ∧
      FullBucket ((builder.run .new threeMinutes).completedOf "005930" 1) 3 180 := by
  have hrolled : (builder.run .new threeMinutes).completedOf "005930" 3 =
      [⟨⟨180, 100, 130, 90, 90, 15⟩, "005930", 3⟩] := by decide +kernel
  have haggregates := rolled_up_exactly threeMinutes "005930" 3 (.inl rfl)
  refine ⟨hrolled, (haggregates.exact 180).mp ?_⟩
  rw [hrolled]
  exact ⟨_, mem_singleton.mpr rfl, rfl⟩

end TradingCore.Candles
