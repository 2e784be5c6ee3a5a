import TradingCore.LiveSim.ExitTriggers

/-!
# The market close and the notation of the clock

`decisions_by_instant_iff`: the exit monitor decides about every position, under every
configuration, what the instant of its clock asks for, precisely if the clock shows the Korean
time of the day. The age of a tick and the longest holding are compared as instants
(`tickIsStale_eq`, `timeReached_eq`); the market close is compared as text.
-/

namespace TradingCore.LiveSim

open Base ExitGuard

structure IsoTimestamp where
  text : String
  value : DateTime
  reads : parseIso text = some value
  aware : value.offset.isSome

/-- The text shows a minute of the day: none later has a text that is not behind it. -/
def Shows (text : String) (minute : Nat) : Prop :=
  'T' ∈ text.toList ∧ textLe (clockText minute) (shownTime text) = true ∧
    ∀ later < 1440, minute < later → textLe (clockText later) (shownTime text) = false

theorem shows_iff_marketCloseReached {text : String} {minute : Nat} (hminute : minute < 1440) :
    Shows text minute ↔ ∀ closeTime : CloseTime,
      marketCloseReached closeTime text = decide (closeTime.minute ≤ minute) := by
  constructor
  · rintro ⟨hT, hle, hlater⟩ closeTime
    unfold marketCloseReached
    by_cases hreached : closeTime.minute ≤ minute
    · have hbefore := (textLe_clockText_iff closeTime.isTime hminute).mpr hreached
      simp [hT, hreached, textLe_trans hbefore hle]
    · simp [hT, hreached, hlater closeTime.minute closeTime.isTime (Nat.not_le.mp hreached)]
  · intro h
    have hown := h ⟨minute, hminute⟩
    simp only [Nat.le_refl, decide_true] at hown
    obtain ⟨hT, hle⟩ := of_decide_eq_true hown
    refine ⟨hT, hle, fun later hlater hlt => ?_⟩
    have hother := h ⟨later, hlater⟩
    rw [decide_eq_false (Nat.not_le.mpr hlt)] at hother
    rw [Bool.eq_false_iff]
    exact fun hle => of_decide_eq_false hother ⟨hT, hle⟩

/-! ## Instants -/

variable (now : IsoTimestamp)

theorem IsoTimestamp.text_ne : now.text ≠ "" := by
  intro hempty
  have hreads := now.reads
  rw [hempty] at hreads
  cases hreads

theorem tickIsStale_eq (raw : RawTick) (guard : ExitGuard) :
    tickIsStale raw guard now.text = tickIsStaleAt raw guard now.value.instant := by
  unfold tickIsStale tickIsStaleAt
  split
  · rfl
  · next hprice =>
      have htime : raw.normalizedTime now.text = Orders.orText raw.time now.text := by
        cases raw with
        | bare price =>
          have hpositive : 0 < price := Int.not_le.mp hprice
          show (if 0 < price then now.text else "") = _
          rw [if_pos hpositive]
          rfl
        | fields price currentPrice timestamp tradeTime createdAt => rfl
      by_cases hown : raw.time = ""
      · have hnow : raw.normalizedTime now.text = now.text := by
          rw [htime, hown]
          rfl
        rw [hnow, if_neg now.text_ne, if_pos hown, now.reads]
      · have htold : raw.normalizedTime now.text = raw.time := by
          rw [htime]
          exact if_neg hown
        rw [htold, if_neg hown, if_neg hown, now.reads]
        cases parseIso raw.time with
        | none => rfl
        | some told => rfl

theorem timeReached_eq (target : String) :
    timeReached target now.text = timeReachedAt target now.value.instant := by
  unfold timeReached timeReachedAt
  rw [now.reads]
  cases parseIso target with
  | none => rfl
  | some target => rfl

theorem utc_of_fresh {raw : RawTick} {guard : ExitGuard} {instant : Int}
    (h : tickIsStaleAt raw guard instant = some false) : (utc? instant).isSome := by
  unfold tickIsStaleAt at h
  split at h
  · cases h
  · simp only at h
    split at h
    · cases h
    · obtain ⟨current, hcurrent, -⟩ := Option.bind_eq_some_iff.mp h
      rw [hcurrent]
      rfl

/-! ## The decision -/

def quietPosition : MonitoredPosition where
  entryAvgPrice := 100
  stopLossPrice := 1
  takeProfitPrice := 1000

def quietTick : RawTick := .bare 100

theorem exitDecision_quiet (closeTime : CloseTime) (hdate : (utc? now.value.instant).isSome) :
    exitDecision quietPosition quietTick { marketCloseLiquidationTime := closeTime } now.text =
      if marketCloseReached closeTime now.text then some (some "market_close_liquidation")
      else some none := by
  obtain ⟨current, hcurrent⟩ := Option.isSome_iff_exists.mp hdate
  have hfresh : tickIsStale quietTick { marketCloseLiquidationTime := closeTime } now.text =
      some false := by
    rw [tickIsStale_eq]
    simp [tickIsStaleAt, quietTick, RawTick.price, RawTick.time, hcurrent, maxAge, Orders.orInt]
  unfold exitDecision
  rw [hfresh]
  simp [quietPosition, quietTick, exitReason, RawTick.price, stopPrice, takePrice, Orders.orInt]

theorem exitDecisionAt_quiet (closeTime : CloseTime) {instant : Int}
    (hdate : (utc? instant).isSome) :
    exitDecisionAt quietPosition quietTick { marketCloseLiquidationTime := closeTime } instant =
      if closeTime.minute ≤ koreanMinute instant then some (some "market_close_liquidation")
      else some none := by
  obtain ⟨current, hcurrent⟩ := Option.isSome_iff_exists.mp hdate
  simp [exitDecisionAt, tickIsStaleAt, hcurrent, quietPosition, quietTick, exitReason,
    RawTick.price, RawTick.time, maxAge, stopPrice, takePrice,
    Orders.orInt]

theorem koreanMinute_lt (instant : Int) : koreanMinute instant < 1440 := by
  unfold koreanMinute minuteOfDay
  omega

/-- The monitor decides what the instant of its clock asks for precisely if the clock shows the
Korean time. -/
theorem decisions_by_instant_iff (now : IsoTimestamp) :
    (∀ (position : MonitoredPosition) (raw : RawTick) (guard : ExitGuard),
      exitDecision position raw guard now.text =
        exitDecisionAt position raw guard now.value.instant) ↔
      ((utc? now.value.instant).isSome → Shows now.text (koreanMinute now.value.instant)) := by
  constructor
  · intro h hdate
    refine (shows_iff_marketCloseReached (koreanMinute_lt _)).mpr fun closeTime => ?_
    have hquiet := h quietPosition quietTick { marketCloseLiquidationTime := closeTime }
    rw [exitDecision_quiet now closeTime hdate, exitDecisionAt_quiet closeTime hdate] at hquiet
    by_cases hreached : closeTime.minute ≤ koreanMinute now.value.instant
    · rw [if_pos hreached] at hquiet
      rw [decide_eq_true hreached]
      by_contra hno
      rw [if_neg hno] at hquiet
      cases hquiet
    · rw [if_neg hreached] at hquiet
      rw [decide_eq_false hreached, Bool.eq_false_iff]
      intro hyes
      rw [if_pos hyes] at hquiet
      cases hquiet
  · intro h position raw guard
    unfold exitDecision exitDecisionAt
    rw [tickIsStale_eq, timeReached_eq]
    split
    · rfl
    · cases hstale : tickIsStaleAt raw guard now.value.instant with
      | none => rfl
      | some stale =>
        cases stale with
        | true => rfl
        | false =>
          have hshows := h (utc_of_fresh hstale)
          rw [(shows_iff_marketCloseReached (koreanMinute_lt _)).mp hshows
            guard.marketCloseLiquidationTime]

/-! ## Fixed runs -/

def inKorea : IsoTimestamp where
  text := "2026-06-04T15:20:00+09:00"
  value := ⟨2026, 6, 4, 15, 20, 0, 0, some koreanOffset⟩
  reads := by decide +kernel
  aware := rfl

def inGreenwich : IsoTimestamp where
  text := "2026-06-04T06:20:00+00:00"
  value := ⟨2026, 6, 4, 6, 20, 0, 0, some 0⟩
  reads := by decide +kernel
  aware := rfl

def quarterPastThree : CloseTime := ⟨915, by decide⟩

/-- On the default clock the market close is not reached at twenty past three. -/
theorem close_missed_in_greenwich :
    ¬ ((∀ (now now' : IsoTimestamp), now.value.instant = now'.value.instant →
        ∀ (position : MonitoredPosition) (raw : RawTick) (guard : ExitGuard),
          exitDecision position raw guard now.text = exitDecision position raw guard now'.text) ∧
      ∀ (now : IsoTimestamp) (closeTime : CloseTime),
        marketCloseReached closeTime now.text =
          decide (closeTime.minute ≤ koreanMinute now.value.instant)) := by
  rintro ⟨hsame, -⟩
  have hdecision := hsame inKorea inGreenwich (by decide +kernel) quietPosition quietTick
    { marketCloseLiquidationTime := quarterPastThree }
  revert hdecision
  decide +kernel

end TradingCore.LiveSim
