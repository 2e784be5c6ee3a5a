import TradingCore.Candles.CompletedCandles
import TradingCore.VirtualOrders.VirtualOrder

/-!
# When a virtual order is evaluated

An order is meant to be filled exactly when a candle of its time reaches its price, whenever it is
evaluated. A candle is seen once it is completed, and the order is given up as soon as the clock
reaches its timeout: a call between the two gives up an order that a candle is about to fill.

* `completedOf_builderAt` — a later call sees the candles of an earlier one;
* `outcome_of_seen`, `outcome_of_unseen` — the first call at or after the timeout decides;
* `same_outcome_iff` — two schedules agree on the right outcome exactly when that call sees a
  candle that fills the order, in both, if there is one.
-/

namespace TradingCore.VirtualOrders

open Base Candidates Candles Prices List

/-! ## Completed candles stay -/

section Growing

open CandleBuilder

variable (b : CandleBuilder)

theorem completedOf_aggregateCompleted_grows (by' code : String) (n k : Nat) :
    b.completedOf code k <+: (b.aggregateCompleted by' n).completedOf code k := by
  have hrolls := rollsUp_aggregateCompleted b by' n
  by_cases hkey : (code, k) = (by', n)
  · obtain ⟨rfl, rfl⟩ := Prod.mk.inj hkey
    rcases hrolls.own with hsame | ⟨_, _, _, _, _, happended⟩
    · rw [hsame]
    · rw [happended]
      exact prefix_append _ _
  · rw [hrolls.frame code k hkey]

theorem completedOf_complete1m_grows (candle : Candle) (code : String) (k : Nat) :
    b.completedOf code k <+: (b.complete1m candle).completedOf code k := by
  unfold complete1m
  dsimp only
  split
  · exact prefix_refl _
  · refine IsPrefix.trans ?_ ((completedOf_aggregateCompleted_grows ..).trans
      (completedOf_aggregateCompleted_grows ..))
    rw [completedOf_appendCompleted]
    split
    · exact prefix_append _ _
    · exact prefix_refl _

theorem completedOf_update_grows (tick : StrategyTick) (code : String) (k : Nat) :
    b.completedOf code k <+: (b.update tick).1.completedOf code k := by
  have hvolume : (b.volumeDelta tick).1.completed = b.completed := by
    unfold volumeDelta
    dsimp only
    split
    · rfl
    · split <;> rfl
  have hplace : b.completedOf code k <+: (b.place tick).1.completedOf code k := by
    have hsame : b.completedOf code k = (b.volumeDelta tick).1.completedOf code k := by
      unfold completedOf
      rw [hvolume]
    rw [hsame]
    unfold place
    dsimp only
    split
    · exact prefix_refl _
    · split
      · exact prefix_refl _
      · split
        · exact completedOf_complete1m_grows ..
        · exact prefix_refl _
  unfold update
  split
  · exact hplace
  · split
    · exact prefix_refl _
    · exact hplace

theorem completedOf_flush_grows (flushed : String) (now : Int) (code : String) (k : Nat) :
    b.completedOf code k <+: (b.flush flushed now).1.completedOf code k := by
  unfold flush
  dsimp only
  split
  · exact prefix_refl _
  · next active _ =>
      split
      · exact prefix_refl _
      · exact completedOf_complete1m_grows
          { b with active1m := b.active1m.filter fun c _ => c ≠ normalizeCode flushed } active code k

theorem completedOf_run_grows (calls : List Call) (code : String) (k : Nat) :
    b.completedOf code k <+: (builder.run b calls).completedOf code k := by
  induction calls generalizing b with
  | nil => exact prefix_refl _
  | cons call rest ih =>
    refine IsPrefix.trans ?_ (ih (builder.next b call))
    cases call with
    | update tick => exact completedOf_update_grows b tick code k
    | flush flushed now => exact completedOf_flush_grows b flushed now code k

end Growing

/-! ## Schedules -/

/-- The calls of the candle builder with the instants at which they arrive, in order. -/
structure MarketHistory where
  arrivals : List (Int × Candles.Call)
  ordered : arrivals.Pairwise fun a b => a.1 ≤ b.1

namespace MarketHistory

/-- The builder with the calls that arrived by an instant. -/
def builderAt (history : MarketHistory) (now : Int) : CandleBuilder :=
  builder.run .new ((history.arrivals.filter (·.1 ≤ now)).map (·.2))

def final (history : MarketHistory) : CandleBuilder :=
  builder.run .new (history.arrivals.map (·.2))

end MarketHistory

def evaluatedAt (provider : TickSizeProvider) (plan : EntryPlan) (history : MarketHistory)
    (order : VirtualOrder) (schedule : List Int) : VirtualOrder :=
  schedule.foldl (fun order now =>
    (evaluateFill provider order plan (history.builderAt now) now).order) order

def outcome (order : VirtualOrder) : VirtualOrderStatus × Int :=
  (order.status, order.virtualFillPrice)

def planCode (plan : EntryPlan) : String := normalizeCode plan.cancelCondition.code

/-- The last call of a schedule comes after the timeout, and after every candle of the order's time
is completed. -/
def Complete (plan : EntryPlan) (history : MarketHistory) (order : VirtualOrder)
    (schedule : List Int) : Prop :=
  ∃ last, schedule.getLast? = some last ∧ timeoutAt order plan ≤ last ∧
    ∀ candle ∈ history.final.candles (planCode plan),
      parseTime order.submittedAt ≤ candle.startAt → candle.startAt ≤ timeoutAt order plan →
        candle ∈ (history.builderAt last).completedOf (planCode plan) 1

def Touched (provider : TickSizeProvider) (plan : EntryPlan) (history : MarketHistory)
    (order : VirtualOrder) : Prop :=
  ∃ candle ∈ history.final.candles (planCode plan), Touches provider order plan candle

/-- Some candle that is completed by an instant fills the order. -/
def TouchedBy (provider : TickSizeProvider) (plan : EntryPlan) (history : MarketHistory)
    (order : VirtualOrder) (now : Int) : Prop :=
  ∃ candle ∈ (history.builderAt now).completedOf (planCode plan) 1,
    Touches provider order plan candle
deriving Decidable

/-- The right outcome: filled at the limit if a candle fills the order, and given up if none. -/
def RightOutcome (provider : TickSizeProvider) (plan : EntryPlan) (history : MarketHistory)
    (order : VirtualOrder) (got : VirtualOrderStatus × Int) : Prop :=
  (Touched provider plan history order → got = (.filled, order.limitPrice)) ∧
    (¬ Touched provider plan history order → got = (.unfilled, order.virtualFillPrice))

/-- If a candle fills the order, one of those is completed by the first call at or after the
timeout. -/
def SeenInTime (provider : TickSizeProvider) (plan : EntryPlan) (history : MarketHistory)
    (order : VirtualOrder) (schedule : List Int) : Prop :=
  Touched provider plan history order →
    ∀ first ∈ schedule.find? (timeoutAt order plan ≤ ·), TouchedBy provider plan history order first

/-! ## A later call sees what an earlier one saw -/

section Seeing

variable {provider : TickSizeProvider} {plan : EntryPlan} {history : MarketHistory}
  {order : VirtualOrder} {schedule : List Int} {now later first : Int}

theorem prefix_filter_le {arrivals : List (Int × Candles.Call)}
    (hordered : arrivals.Pairwise fun a b => a.1 ≤ b.1) (now : Int) :
    arrivals.filter (·.1 ≤ now) <+: arrivals := by
  induction arrivals with
  | nil => exact prefix_refl _
  | cons arrival rest ih =>
    obtain ⟨hfirst, hrest⟩ := pairwise_cons.mp hordered
    by_cases hle : arrival.1 ≤ now
    · rw [filter_cons_of_pos (by simp [hle])]
      exact cons_prefix_cons.mpr ⟨rfl, ih hrest⟩
    · have hnone : rest.filter (·.1 ≤ now) = [] := by
        refine filter_eq_nil_iff.mpr ?_
        intro other hmem hother
        have := hfirst other hmem
        have := of_decide_eq_true hother
        omega
      rw [filter_cons_of_neg (by simp [hle]), hnone]
      exact nil_prefix

theorem completedOf_builderAt (history : MarketHistory) (hle : now ≤ later) (code : String) :
    (history.builderAt now).completedOf code 1 <+: (history.builderAt later).completedOf code 1 := by
  have hfilter : history.arrivals.filter (·.1 ≤ now) =
      (history.arrivals.filter (·.1 ≤ later)).filter (·.1 ≤ now) := by
    rw [filter_filter]
    refine filter_congr ?_
    intro arrival _
    by_cases hseen : arrival.1 ≤ now
    · simp [hseen, hseen.trans hle]
    · simp [hseen]
  obtain ⟨rest, hrest⟩ := prefix_filter_le (history.ordered.filter (·.1 ≤ later)) now
  unfold MarketHistory.builderAt
  rw [hfilter]
  nth_rewrite 2 [← hrest]
  rw [map_append, Machine.run_append]
  exact completedOf_run_grows ..

theorem completedOf_final (history : MarketHistory) (now : Int) (code : String) :
    (history.builderAt now).completedOf code 1 <+: history.final.completedOf code 1 := by
  obtain ⟨rest, hrest⟩ := prefix_filter_le history.ordered now
  unfold MarketHistory.builderAt MarketHistory.final
  nth_rewrite 2 [← hrest]
  rw [map_append, Machine.run_append]
  exact completedOf_run_grows ..

theorem TouchedBy.mono (h : TouchedBy provider plan history order now) (hle : now ≤ later) :
    TouchedBy provider plan history order later := by
  obtain ⟨candle, hmem, htouches⟩ := h
  exact ⟨candle, (completedOf_builderAt history hle _).subset hmem, htouches⟩

theorem TouchedBy.touched (h : TouchedBy provider plan history order now) :
    Touched provider plan history order := by
  obtain ⟨candle, hmem, htouches⟩ := h
  exact ⟨candle, mem_append_left _ ((completedOf_final history now _).subset hmem), htouches⟩

/-! ## One evaluation -/

theorem evaluateFill_touched (hsubmitted : order.status = .submitted)
    (htouched : TouchedBy provider plan history order now) :
    let evaluated := (evaluateFill provider order plan (history.builderAt now) now).order
    evaluated.status = .filled ∧ evaluated.virtualFillPrice = order.limitPrice := by
  obtain ⟨candle, hmem, htouches⟩ := htouched
  have hsome : ∃ found, ((history.builderAt now).completedOf (planCode plan) 1).find?
      (Touches provider order plan ·) = some found := by
    rw [← Option.isSome_iff_exists, find?_isSome]
    exact ⟨candle, hmem, decide_eq_true htouches⟩
  obtain ⟨found, hfound⟩ := hsome
  unfold planCode at hfound
  unfold evaluateFill
  rw [hsubmitted, if_neg (by decide), if_neg (by simp)]
  dsimp only
  rw [hfound]
  exact ⟨rfl, rfl⟩

theorem evaluateFill_untouched (hsubmitted : order.status = .submitted)
    (huntouched : ¬ TouchedBy provider plan history order now) :
    evaluateFill provider order plan (history.builderAt now) now =
      if timeoutAt order plan ≤ now then
        { order := { order with status := .unfilled, unfilledReason := "TIMEOUT" }
          changed := true, filled := false, timedOut := true, cancelled := false }
      else .unchanged order := by
  have hnone : ((history.builderAt now).completedOf (planCode plan) 1).find?
      (Touches provider order plan ·) = none := by
    rw [find?_eq_none]
    intro candle hmem htouches
    exact huntouched ⟨candle, hmem, of_decide_eq_true htouches⟩
  unfold planCode at hnone
  unfold evaluateFill
  rw [hsubmitted, if_neg (by decide), if_neg (by simp)]
  dsimp only
  rw [hnone]

theorem evaluateFill_final (hfinal : order.status ∈ finalStatuses) (b : CandleBuilder) :
    evaluateFill provider order plan b now = .unchanged order := by
  unfold evaluateFill
  rw [if_pos hfinal]

theorem evaluatedAt_final (hfinal : order.status ∈ finalStatuses) :
    evaluatedAt provider plan history order schedule = order := by
  induction schedule with
  | nil => rfl
  | cons now rest ih =>
    show evaluatedAt provider plan history
      (evaluateFill provider order plan (history.builderAt now) now).order rest = order
    rw [evaluateFill_final hfinal]
    exact ih

theorem evaluatedAt_touched (hsubmitted : order.status = .submitted)
    (htouched : TouchedBy provider plan history order now) :
    outcome (evaluatedAt provider plan history order (now :: schedule)) =
      (.filled, order.limitPrice) := by
  obtain ⟨hstatus, hprice⟩ := evaluateFill_touched hsubmitted htouched
  show outcome (evaluatedAt provider plan history
    (evaluateFill provider order plan (history.builderAt now) now).order schedule) = _
  rw [evaluatedAt_final (by rw [hstatus]; decide)]
  exact Prod.ext hstatus hprice

theorem evaluatedAt_pending (hsubmitted : order.status = .submitted)
    (huntouched : ¬ TouchedBy provider plan history order now) (hearly : now < timeoutAt order plan) :
    evaluatedAt provider plan history order (now :: schedule) =
      evaluatedAt provider plan history order schedule := by
  show evaluatedAt provider plan history
    (evaluateFill provider order plan (history.builderAt now) now).order schedule = _
  rw [evaluateFill_untouched hsubmitted huntouched, if_neg (by omega)]
  rfl

/-! ## Whole schedules -/

theorem outcome_of_seen (hsubmitted : order.status = .submitted)
    (hfirst : schedule.find? (timeoutAt order plan ≤ ·) = some first)
    (htouched : TouchedBy provider plan history order first) :
    outcome (evaluatedAt provider plan history order schedule) = (.filled, order.limitPrice) := by
  induction schedule with
  | nil => cases hfirst
  | cons now rest ih =>
    by_cases hnow : TouchedBy provider plan history order now
    · exact evaluatedAt_touched hsubmitted hnow
    · by_cases hlate : timeoutAt order plan ≤ now
      · rw [find?_cons_of_pos (by simp [hlate])] at hfirst
        rw [Option.some.inj hfirst] at hnow
        exact absurd htouched hnow
      · rw [find?_cons_of_neg (by simp [hlate])] at hfirst
        rw [evaluatedAt_pending hsubmitted hnow (by omega)]
        exact ih hfirst

theorem outcome_of_unseen (hsubmitted : order.status = .submitted)
    (hfirst : schedule.find? (timeoutAt order plan ≤ ·) = some first)
    (huntouched : ¬ TouchedBy provider plan history order first) :
    outcome (evaluatedAt provider plan history order schedule) =
      (.unfilled, order.virtualFillPrice) := by
  have hle : timeoutAt order plan ≤ first := by
    have := find?_some hfirst
    exact of_decide_eq_true this
  induction schedule with
  | nil => cases hfirst
  | cons now rest ih =>
    by_cases hlate : timeoutAt order plan ≤ now
    · rw [find?_cons_of_pos (by simp [hlate])] at hfirst
      rw [← Option.some.inj hfirst] at huntouched
      show outcome (evaluatedAt provider plan history
        (evaluateFill provider order plan (history.builderAt now) now).order rest) = _
      rw [evaluateFill_untouched hsubmitted huntouched, if_pos hlate,
        evaluatedAt_final (show VirtualOrderStatus.unfilled ∈ finalStatuses by decide)]
      rfl
    · -- an earlier call sees no more than the first one after the timeout
      have hnow : ¬ TouchedBy provider plan history order now :=
        fun htouched => huntouched (htouched.mono (by omega))
      rw [find?_cons_of_neg (by simp [hlate])] at hfirst
      rw [evaluatedAt_pending hsubmitted hnow (by omega)]
      exact ih hfirst

theorem right_outcome_iff (hsubmitted : order.status = .submitted)
    (hcomplete : Complete plan history order schedule) :
    RightOutcome provider plan history order
        (outcome (evaluatedAt provider plan history order schedule)) ↔
      SeenInTime provider plan history order schedule := by
  obtain ⟨last, hlast, hlate, -⟩ := hcomplete
  have hsome : ∃ first, schedule.find? (timeoutAt order plan ≤ ·) = some first := by
    rw [← Option.isSome_iff_exists, find?_isSome]
    exact ⟨last, mem_of_getLast? hlast, decide_eq_true hlate⟩
  obtain ⟨first, hfirst⟩ := hsome
  unfold SeenInTime
  rw [hfirst]
  constructor
  · rintro hright htouched now ⟨⟩
    by_contra hunseen
    have hfilled := hright.1 htouched
    rw [outcome_of_unseen hsubmitted hfirst hunseen] at hfilled
    cases hfilled
  · intro hseen
    refine ⟨fun htouched => outcome_of_seen hsubmitted hfirst (hseen htouched first rfl), ?_⟩
    intro huntouched
    exact outcome_of_unseen hsubmitted hfirst fun hseen => huntouched hseen.touched

theorem RightOutcome.unique {got other : VirtualOrderStatus × Int}
    (h : RightOutcome provider plan history order got)
    (h' : RightOutcome provider plan history order other) : got = other := by
  by_cases htouched : Touched provider plan history order
  · rw [h.1 htouched, h'.1 htouched]
  · rw [h.2 htouched, h'.2 htouched]

end Seeing

/-- Two complete schedules lead a submitted order to the same outcome, the right one, exactly when
in both the first call at or after the timeout sees a candle that fills the order, if there is
one. -/
theorem same_outcome_iff (provider : TickSizeProvider) (plan : EntryPlan)
    (history : MarketHistory) (order : VirtualOrder) (one other : List Int)
    (hsubmitted : order.status = .submitted) (hone : Complete plan history order one)
    (hother : Complete plan history order other) :
    (outcome (evaluatedAt provider plan history order one) =
          outcome (evaluatedAt provider plan history order other) ∧
        RightOutcome provider plan history order
          (outcome (evaluatedAt provider plan history order one))) ↔
      SeenInTime provider plan history order one ∧
        SeenInTime provider plan history order other := by
  rw [← right_outcome_iff hsubmitted hone, ← right_outcome_iff hsubmitted hother]
  constructor
  · rintro ⟨hsame, hright⟩
    exact ⟨hright, hsame ▸ hright⟩
  · rintro ⟨hright, hright'⟩
    exact ⟨hright.unique hright', hright⟩

/-! ## A fixed order -/

/-- An order at ten o'clock sharp with a minute and a half to be filled. -/
def sampleOrder : VirtualOrder where
  id := none
  candidateId := some 1
  entryPlanId := some 10
  legIndex := 1
  weightPct := 100
  status := .submitted
  limitPrice := 10000
  virtualFillPrice := 0
  fillPolicy := .normal
  submittedAt := some 36000
  filledAt := none
  cancelledAt := none
  unfilledReason := ""

def samplePlan : EntryPlan where
  id := some 10
  candidateId := some 1
  entryType := "pullback_limit"
  limitPrice := 10000
  splitPlan := [⟨some 1, some 10000, some 100, none, none⟩]
  orderTimeoutSec := 90
  cancelCondition := ⟨"111111", some "robot", some true, ""⟩
  fillPolicy := .normal

/-- The price falls below the limit in the second minute, whose candle is completed after it. -/
def sampleHistory : MarketHistory where
  arrivals :=
    [(36010, .update ⟨"111111", 10100, 1000, 36010⟩), (36070, .update ⟨"111111", 9900, 1100, 36070⟩),
      (36130, .update ⟨"111111", 10100, 1200, 36130⟩), (36190, .flush "111111" 36190)]
  ordered := by decide

theorem sample_complete (schedule : List Int) (hlast : schedule.getLast? = some 36200) :
    Complete samplePlan sampleHistory sampleOrder schedule := by
  refine ⟨36200, hlast, by decide +kernel, ?_⟩
  decide +kernel

theorem same_outcome_late :
    outcome (evaluatedAt .standard samplePlan sampleHistory sampleOrder [36200]) =
      outcome (evaluatedAt .standard samplePlan sampleHistory sampleOrder [36050, 36200]) :=
  ((same_outcome_iff .standard samplePlan sampleHistory sampleOrder [36200] [36050, 36200] rfl
    (sample_complete _ rfl) (sample_complete _ rfl)).mpr
      ⟨fun _ => by decide +kernel, fun _ => by decide +kernel⟩).1

theorem outcome_depends_on_schedule :
    Complete samplePlan sampleHistory sampleOrder [36200] ∧
      Complete samplePlan sampleHistory sampleOrder [36100, 36200] ∧
      outcome (evaluatedAt .standard samplePlan sampleHistory sampleOrder [36200]) =
        (.filled, 10000) ∧
      outcome (evaluatedAt .standard samplePlan sampleHistory sampleOrder [36100, 36200]) =
        (.unfilled, 0) :=
  ⟨sample_complete _ rfl, sample_complete _ rfl, by decide +kernel, by decide +kernel⟩

end TradingCore.VirtualOrders
