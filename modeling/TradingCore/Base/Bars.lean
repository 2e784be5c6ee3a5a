import Mathlib.Data.List.Infix
import Mathlib.Tactic.Linarith

/-!
# Samples in bars

Samples arrive in order, each with a bucket, a price and a level that counts upwards. A bar sums
up the samples of a bucket: the first, the greatest, the least and the last price, and by how much
the level rose with them. `barsOf` is the series of bars of some samples.

* `account_barsOf` — where the buckets do not go back, each sample is shown by exactly one bar;
* `volume_barsOf` — where the level does not go back, the volumes add up to the rise of the level.
-/

namespace Base

open List

structure Bar where
  startAt : Int
  openPrice : Int
  high : Int
  low : Int
  close : Int
  volume : Int
deriving DecidableEq

namespace Bar

def first (startAt price volume : Int) : Bar :=
  { startAt, openPrice := price, high := price, low := price, close := price, volume }

def withSample (bar : Bar) (price volume : Int) : Bar :=
  { bar with
    high := max bar.high price
    low := min bar.low price
    close := price
    volume := bar.volume + volume }

@[simp] theorem withSample_startAt (bar : Bar) (price volume : Int) :
    (bar.withSample price volume).startAt = bar.startAt := rfl

@[simp] theorem first_startAt (startAt price volume : Int) :
    (first startAt price volume).startAt = startAt := rfl

structure Shows (bar : Bar) (prices : List Int) : Prop where
  opening : prices.head? = some bar.openPrice
  closing : prices.getLast? = some bar.close
  highest : bar.high ∈ prices ∧ ∀ price ∈ prices, price ≤ bar.high
  lowest : bar.low ∈ prices ∧ ∀ price ∈ prices, bar.low ≤ price

theorem shows_first (startAt price volume : Int) : (first startAt price volume).Shows [price] := by
  have hall : ∀ other ∈ [price], other = price := fun other hmem => mem_singleton.mp hmem
  exact ⟨rfl, rfl, ⟨mem_singleton.mpr rfl, fun other hmem => (hall other hmem).le⟩,
    ⟨mem_singleton.mpr rfl, fun other hmem => (hall other hmem).ge⟩⟩

theorem Shows.withSample {bar : Bar} {prices : List Int} (h : bar.Shows prices)
    (price volume : Int) : (bar.withSample price volume).Shows (prices ++ [price]) := by
  constructor
  · rw [head?_append, h.opening]
    rfl
  · rw [getLast?_concat]
    rfl
  · refine ⟨?_, ?_⟩
    · show max bar.high price ∈ _
      rcases max_choice bar.high price with hmax | hmax
      · rw [hmax]
        exact mem_append_left _ h.highest.1
      · rw [hmax]
        exact mem_append_right _ (mem_singleton.mpr rfl)
    · intro other hmem
      rcases mem_append.mp hmem with hold | hnew
      · exact le_trans (h.highest.2 other hold) (le_max_left ..)
      · rw [mem_singleton.mp hnew]
        exact le_max_right ..
  · refine ⟨?_, ?_⟩
    · show min bar.low price ∈ _
      rcases min_choice bar.low price with hmin | hmin
      · rw [hmin]
        exact mem_append_left _ h.lowest.1
      · rw [hmin]
        exact mem_append_right _ (mem_singleton.mpr rfl)
    · intro other hmem
      rcases mem_append.mp hmem with hold | hnew
      · exact le_trans (min_le_left ..) (h.lowest.2 other hold)
      · rw [mem_singleton.mp hnew]
        exact min_le_right ..

end Bar

/-! ## The greatest and the least of some prices -/

theorem foldl_max_spec {α : Type} [LinearOrder α] (first : α) (rest : List α) :
    rest.foldl max first ∈ first :: rest ∧ ∀ value ∈ first :: rest, value ≤ rest.foldl max first := by
  induction rest generalizing first with
  | nil =>
    refine ⟨mem_singleton.mpr rfl, ?_⟩
    intro value hmem
    exact (mem_singleton.mp hmem).le
  | cons second rest ih =>
    obtain ⟨hmem, hle⟩ := ih (max first second)
    have hhead := hle _ mem_cons_self
    rw [foldl_cons]
    refine ⟨?_, ?_⟩
    · rcases mem_cons.mp hmem with hfirst | hrest
      · rw [hfirst]
        rcases max_choice first second with hmax | hmax
        · rw [hmax]
          exact mem_cons_self
        · rw [hmax]
          exact mem_cons_of_mem _ mem_cons_self
      · exact mem_cons_of_mem _ (mem_cons_of_mem _ hrest)
    · intro value hvalue
      rcases mem_cons.mp hvalue with rfl | hvalue
      · exact (le_max_left ..).trans hhead
      · rcases mem_cons.mp hvalue with rfl | hvalue
        · exact (le_max_right ..).trans hhead
        · exact hle value (mem_cons_of_mem _ hvalue)

theorem foldl_min_spec {α : Type} [LinearOrder α] (first : α) (rest : List α) :
    rest.foldl min first ∈ first :: rest ∧ ∀ value ∈ first :: rest, rest.foldl min first ≤ value :=
  @foldl_max_spec αᵒᵈ _ first rest

/-! ## The series of bars -/

section Series

variable {α : Type} (bucket price level : α → Int)

def levelRise (last : Option α) (sample : α) : Int :=
  match last with
  | none => 0
  | some previous => max 0 (level sample - level previous)

def extendBars (bars : List Bar) (last : Option α) (sample : α) : List Bar :=
  match bars.getLast? with
  | some bar =>
      if bar.startAt = bucket sample then
        bars.dropLast ++ [bar.withSample (price sample) (levelRise level last sample)]
      else bars ++ [.first (bucket sample) (price sample) (levelRise level last sample)]
  | none => [.first (bucket sample) (price sample) (levelRise level last sample)]

def barsOf (samples : List α) : List Bar :=
  (samples.foldl (fun (acc : List Bar × Option α) sample =>
    (extendBars bucket price level acc.1 acc.2 sample, some sample)) ([], none)).1

theorem barsOf_concat (samples : List α) (sample : α) :
    barsOf bucket price level (samples ++ [sample]) =
      extendBars bucket price level (barsOf bucket price level samples) samples.getLast? sample := by
  have hlast : ∀ (samples : List α), (samples.foldl (fun (acc : List Bar × Option α) sample =>
      (extendBars bucket price level acc.1 acc.2 sample, some sample)) ([], none)).2 =
        samples.getLast? := by
    intro samples
    induction samples using reverseRecOn with
    | nil => rfl
    | append_singleton rest last _ => rw [foldl_concat, getLast?_concat]
  unfold barsOf
  rw [foldl_concat, hlast]

/-- The bars account for the samples: their buckets ascend, each shows the prices of the samples
of its bucket, and the last is that of the last sample. -/
structure Account (samples : List α) (bars : List Bar) : Prop where
  ascending : bars.Pairwise fun a b => a.startAt < b.startAt
  shown : ∀ bar ∈ bars, bar.Shows ((samples.filter (bucket · = bar.startAt)).map price)
  covered : ∀ sample ∈ samples, ∃ bar ∈ bars, bar.startAt = bucket sample
  newest : bars.getLast?.map (·.startAt) = samples.getLast?.map bucket

variable {bucket price level}

variable {samples : List α} {bars : List Bar}

theorem Account.same {bar : Bar} (h : Account bucket price samples (bars ++ [bar])) {sample : α}
    (hsame : bar.startAt = bucket sample) (volume : Int) :
    Account bucket price (samples ++ [sample])
      (bars ++ [bar.withSample (price sample) volume]) := by
  obtain ⟨hbars, -, hless⟩ := pairwise_append.mp h.ascending
  constructor
  · refine pairwise_append.mpr ⟨hbars, pairwise_singleton _ _, ?_⟩
    intro a ha b hb
    rw [mem_singleton.mp hb]
    exact hless a ha bar (mem_singleton.mpr rfl)
  · intro other hmem
    rw [filter_append, map_append]
    rcases mem_append.mp hmem with hold | hnew
    · have hne : bucket sample ≠ other.startAt := by
        have := hless other hold bar (mem_singleton.mpr rfl)
        omega
      rw [filter_cons_of_neg (by simp [hne]), filter_nil, map_nil, append_nil]
      exact h.shown other (mem_append_left _ hold)
    · rw [mem_singleton.mp hnew, Bar.withSample_startAt,
        filter_cons_of_pos (by simp [hsame])]
      exact (h.shown bar (mem_append_right _ (mem_singleton.mpr rfl))).withSample _ _
  · intro other hmem
    rcases mem_append.mp hmem with hold | hnew
    · obtain ⟨b, hb, hstart⟩ := h.covered other hold
      rcases mem_append.mp hb with hb | hb
      · exact ⟨b, mem_append_left _ hb, hstart⟩
      · rw [mem_singleton.mp hb] at hstart
        exact ⟨_, mem_append_right _ (mem_singleton.mpr rfl), hstart⟩
    · rw [mem_singleton.mp hnew]
      exact ⟨_, mem_append_right _ (mem_singleton.mpr rfl), hsame⟩
  · rw [getLast?_concat, getLast?_concat]
    exact congrArg some hsame

theorem Account.later (h : Account bucket price samples bars) {sample : α}
    (hlater : ∀ bar ∈ bars, bar.startAt < bucket sample) (volume : Int) :
    Account bucket price (samples ++ [sample])
      (bars ++ [.first (bucket sample) (price sample) volume]) := by
  have hnone : samples.filter (bucket · = bucket sample) = [] := by
    refine filter_eq_nil_iff.mpr ?_
    intro other hmem hsame
    obtain ⟨bar, hbar, hstart⟩ := h.covered other hmem
    have := hlater bar hbar
    have heq := of_decide_eq_true hsame
    omega
  constructor
  · refine pairwise_append.mpr ⟨h.ascending, pairwise_singleton _ _, ?_⟩
    intro a ha b hb
    rw [mem_singleton.mp hb]
    exact hlater a ha
  · intro other hmem
    rw [filter_append, map_append]
    rcases mem_append.mp hmem with hold | hnew
    · have hne : bucket sample ≠ other.startAt := by
        have := hlater other hold
        omega
      rw [filter_cons_of_neg (by simp [hne]), filter_nil, map_nil, append_nil]
      exact h.shown other hold
    · rw [mem_singleton.mp hnew, Bar.first_startAt, hnone,
        filter_cons_of_pos (by simp)]
      exact Bar.shows_first ..
  · intro other hmem
    rcases mem_append.mp hmem with hold | hnew
    · obtain ⟨b, hb, hstart⟩ := h.covered other hold
      exact ⟨b, mem_append_left _ hb, hstart⟩
    · rw [mem_singleton.mp hnew]
      exact ⟨_, mem_append_right _ (mem_singleton.mpr rfl), rfl⟩
  · rw [getLast?_concat, getLast?_concat]
    rfl

theorem Account.startAt_le (h : Account bucket price samples bars) {last : Bar}
    (hlast : bars.getLast? = some last) {bar : Bar} (hmem : bar ∈ bars) :
    bar.startAt ≤ last.startAt := by
  obtain ⟨front, rfl⟩ := getLast?_eq_some_iff.mp hlast
  rcases mem_append.mp hmem with hold | hnew
  · exact ((pairwise_append.mp h.ascending).2.2 bar hold last (mem_singleton.mpr rfl)).le
  · rw [mem_singleton.mp hnew]

theorem account_barsOf (hsorted : samples.Pairwise fun a b => bucket a ≤ bucket b) :
    Account bucket price samples (barsOf bucket price level samples) := by
  induction samples using reverseRecOn with
  | nil =>
    exact ⟨Pairwise.nil, fun _ h => absurd h not_mem_nil, fun _ h => absurd h not_mem_nil, rfl⟩
  | append_singleton rest sample ih =>
    obtain ⟨hrest, -, hlast⟩ := pairwise_append.mp hsorted
    have h := ih hrest
    rw [barsOf_concat]
    unfold extendBars
    cases hnewest : (barsOf bucket price level rest).getLast? with
    | none =>
      have hnil := getLast?_eq_none_iff.mp hnewest
      rw [hnil] at h
      exact h.later (fun _ hmem => absurd hmem not_mem_nil) _
    | some bar =>
      dsimp only
      split
      · next hsame =>
          obtain ⟨front, hfront⟩ := getLast?_eq_some_iff.mp hnewest
          rw [hfront] at h ⊢
          rw [dropLast_concat]
          exact h.same hsame _
      · next hother =>
          refine h.later ?_ _
          intro other hmem
          have hle := h.startAt_le hnewest hmem
          -- the newest bar is that of the last sample, whose bucket is no later
          have hbucket : ∃ last ∈ rest, bar.startAt = bucket last := by
            have hnew := h.newest
            rw [hnewest] at hnew
            obtain ⟨last, hmem', heq⟩ := Option.map_eq_some_iff.mp hnew.symm
            exact ⟨last, mem_of_getLast? hmem', heq.symm⟩
          obtain ⟨last, hmem', heq⟩ := hbucket
          have := hlast last hmem' sample (mem_singleton.mpr rfl)
          omega

theorem Account.countP_startAt (h : Account bucket price samples bars) {sample : α}
    (hmem : sample ∈ samples) : bars.countP (fun bar => bar.startAt = bucket sample) = 1 := by
  obtain ⟨bar, hbar, hstart⟩ := h.covered sample hmem
  obtain ⟨front, rest, rfl⟩ := append_of_mem hbar
  obtain ⟨-, hafter, hbefore⟩ := pairwise_append.mp h.ascending
  have hfront : front.countP (fun bar => bar.startAt = bucket sample) = 0 := by
    refine countP_eq_zero.mpr ?_
    intro other hother
    have := hbefore other hother bar mem_cons_self
    simp only [decide_eq_true_eq]
    omega
  have hrest : rest.countP (fun bar => bar.startAt = bucket sample) = 0 := by
    refine countP_eq_zero.mpr ?_
    intro other hother
    have := (pairwise_cons.mp hafter).1 other hother
    simp only [decide_eq_true_eq]
    omega
  rw [countP_append, hfront, countP_cons_of_pos (by simp [hstart]), hrest]

/-! ## Volumes -/

theorem sum_extendBars (bars : List Bar) (last : Option α) (sample : α) :
    ((extendBars bucket price level bars last sample).map (·.volume)).sum =
      (bars.map (·.volume)).sum + levelRise level last sample := by
  unfold extendBars
  cases hnewest : bars.getLast? with
  | none =>
    rw [getLast?_eq_none_iff.mp hnewest]
    simp [Bar.first]
  | some bar =>
    obtain ⟨front, rfl⟩ := getLast?_eq_some_iff.mp hnewest
    dsimp only
    split
    · rw [dropLast_concat]
      simp only [map_append, sum_append, map_cons, map_nil, sum_cons, sum_nil, Bar.withSample]
      omega
    · simp only [map_append, sum_append, map_cons, map_nil, sum_cons,
        sum_nil, Bar.first]
      omega

theorem volume_barsOf (hsorted : samples.Pairwise fun a b => level a ≤ level b) {first last : α}
    (hfirst : samples.head? = some first) (hlast : samples.getLast? = some last) :
    ((barsOf bucket price level samples).map (·.volume)).sum = level last - level first := by
  induction samples using reverseRecOn generalizing last with
  | nil => cases hfirst
  | append_singleton rest sample ih =>
    rw [getLast?_concat] at hlast
    obtain rfl := Option.some.inj hlast
    rw [barsOf_concat, sum_extendBars]
    obtain ⟨hrest, -, hle⟩ := pairwise_append.mp hsorted
    cases hprevious : rest.getLast? with
    | none =>
      rw [getLast?_eq_none_iff.mp hprevious] at hfirst ⊢
      obtain rfl := Option.some.inj hfirst
      show 0 + 0 = _
      omega
    | some previous =>
      have hhead : rest.head? = some first := by
        cases rest with
        | nil => cases hprevious
        | cons a rest => exact hfirst
      have := hle previous (mem_of_getLast? hprevious) sample (mem_singleton.mpr rfl)
      rw [ih hrest hhead hprevious]
      show _ + max 0 (level sample - level previous) = _
      rw [max_eq_right (by omega)]
      omega

end Series

end Base
