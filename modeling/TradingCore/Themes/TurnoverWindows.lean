import TradingCore.Base.IsoTime
import TradingCore.Themes.TurnoverFlow

/-!
# Windowed turnover

What the tracker keeps of a code depends on the observations of that code alone. A code that is
observed in order has the deltas of the observations that are kept, whatever stale ones come in
between; those of its whole history only while the tail that is kept reaches back far enough.
-/

namespace TradingCore.Themes

open Base Candidates TurnoverFlowTracker Dict List

variable (parseTime : String → Option ℚ)

namespace TurnoverFlowTracker

/-! ## One code -/

def unranked (flow : StockTurnoverFlow) : StockTurnoverFlow :=
  { flow with turnoverFlowPercentile := 0 }

def codeState (tracker : TurnoverFlowTracker) (code : String) :
    List TurnoverObservation × Option StockTurnoverFlow :=
  (tracker.history.getD code [], (tracker.latestStockFlow.get? code).map unranked)

def appendOne (n : ℕ) (history : List TurnoverObservation) (item : TurnoverObservation) :
    List TurnoverObservation × Option StockTurnoverFlow :=
  let kept := lastOf n (history ++ [filed history item])
  (kept, some (stockFlow parseTime kept (filed history item)))

def observeOne (n : ℕ) (state : List TurnoverObservation × Option StockTurnoverFlow)
    (item : TurnoverObservation) : List TurnoverObservation × Option StockTurnoverFlow :=
  match state.1.getLast?, state.2 with
  | some last, some previous =>
      match staleReason parseTime last item with
      | some reason => (state.1, some (previous.marked reason))
      | none => appendOne parseTime n state.1 item
  | _, _ => appendOne parseTime n state.1 item

variable (tracker : TurnoverFlowTracker) {code : String}

theorem codeState_append (item : TurnoverObservation) (code : String) :
    (tracker.append parseTime item).codeState code =
      if code = item.code then
        appendOne parseTime tracker.maxHistory (tracker.history.getD code []) item
      else tracker.codeState code := by
  unfold codeState append recomputePercentiles
  dsimp only
  rw [get?_mapVals, Dict.getD, get?_set, get?_set, Option.map_map]
  by_cases hcode : code = item.code
  · rw [if_pos hcode, if_pos hcode, if_pos hcode, hcode]
    rfl
  · rw [if_neg hcode, if_neg hcode, if_neg hcode]
    rfl

theorem codeState_set (key : String) (flow : StockTurnoverFlow) (code : String) :
    ({ tracker with latestStockFlow := tracker.latestStockFlow.set key flow }).codeState code =
      (tracker.history.getD code [], if code = key then some (unranked flow)
        else (tracker.latestStockFlow.get? code).map unranked) := by
  unfold codeState
  dsimp only
  rw [get?_set]
  split_ifs <;> rfl

theorem codeState_observe (value : TurnoverObservation) :
    (tracker.observe parseTime value).codeState code =
      if (observation value).code = code ∧ code ≠ "" then
        observeOne parseTime tracker.maxHistory (tracker.codeState code) (observation value)
      else tracker.codeState code := by
  unfold observe
  generalize observation value = item
  dsimp only
  by_cases hblank : item.code = ""
  · rw [if_pos hblank, if_neg (by rintro ⟨rfl, hcode⟩; exact hcode hblank)]
  rw [if_neg hblank]
  by_cases hthis : item.code = code
  · subst hthis
    rw [if_pos ⟨rfl, hblank⟩, observeOne]
    cases hlast : (tracker.history.getD item.code []).getLast? with
    | none =>
      rw [codeState_append, if_pos rfl]
      simp only [codeState, hlast]
    | some last =>
      cases hflow : tracker.latestStockFlow.get? item.code with
      | none =>
        rw [codeState_append, if_pos rfl]
        simp only [codeState, hlast, hflow, Option.map_none]
      | some previous =>
        simp only [codeState, hlast, hflow, Option.map_some]
        cases staleReason parseTime last item with
        | some reason => exact (codeState_set tracker ..).trans (by rw [if_pos rfl]; rfl)
        | none => exact (codeState_append ..).trans (if_pos rfl)
  · have hother : ¬code = item.code := Ne.symm hthis
    have happend : (tracker.append parseTime item).codeState code = tracker.codeState code :=
      (codeState_append ..).trans (if_neg hother)
    rw [if_neg fun h => hthis h.1]
    split
    · split
      · exact (codeState_set tracker ..).trans (by rw [if_neg hother]; rfl)
      · exact happend
    · exact happend

theorem maxHistory_observe (value : TurnoverObservation) :
    (tracker.observe parseTime value).maxHistory = tracker.maxHistory := by
  unfold observe
  dsimp only
  split_ifs
  · rfl
  · split
    · split <;> rfl
    · rfl

theorem codeState_run (values : List TurnoverObservation) (code : String) :
    (values.foldl (observe parseTime) tracker).codeState code =
      ((values.map observation).filter fun item => item.code = code ∧ code ≠ "").foldl
        (observeOne parseTime tracker.maxHistory) (tracker.codeState code) := by
  induction values generalizing tracker with
  | nil => rfl
  | cons value rest ih =>
    rw [foldl_cons, ih, codeState_observe, maxHistory_observe, map_cons]
    by_cases hthis : (observation value).code = code ∧ code ≠ ""
    · rw [if_pos hthis, filter_cons_of_pos (by simpa using hthis), foldl_cons]
    · rw [if_neg hthis, filter_cons_of_neg (by simpa using hthis)]

end TurnoverFlowTracker

/-! ## Rounding -/

theorem round4_mono {x y : ℚ} (h : x ≤ y) : round4 x ≤ round4 y := by
  have hscaled : x * 10000 ≤ y * 10000 := by linarith
  have hfloor : (x * 10000).floor ≤ (y * 10000).floor := Rat.floor_monotone hscaled
  unfold round4
  dsimp only
  rcases hfloor.eq_or_lt with hsame | hlt
  · rw [hsame]
    split_ifs <;> push_cast <;> linarith
  · have hup : ((x * 10000).floor : ℚ) + 1 ≤ (y * 10000).floor := by exact_mod_cast hlt
    split_ifs <;> push_cast <;> linarith

theorem round4_zero : round4 0 = 0 := by decide +kernel

/-! ## Baselines -/

/-- An observation is at least so many seconds older than another. -/
def OlderBy (seconds : ℚ) (latest item : TurnoverObservation) : Prop :=
  ∃ time ∈ parseTime latest.observedAt, ∃ earlier ∈ parseTime item.observedAt,
    seconds ≤ time - earlier

/-- The most recent observation that is old enough, or the first if none is. -/
def Baseline (items : List TurnoverObservation) (seconds : ℚ) (latest base : TurnoverObservation) :
    Prop :=
  (∃ before after, items = before ++ base :: after ∧ OlderBy parseTime seconds latest base ∧
    ∀ item ∈ after, ¬OlderBy parseTime seconds latest item) ∨
  items.head? = some base ∧ ∀ item ∈ items, ¬OlderBy parseTime seconds latest item

/-- Observations of one code at increasing times, whose turnover does not fall. -/
structure InOrder (items : List TurnoverObservation) : Prop where
  read : ∀ item ∈ items, ∃ time, parseTime item.observedAt = some time
  later : items.Pairwise fun a b => ∀ time ∈ parseTime a.observedAt,
    ∀ time' ∈ parseTime b.observedAt, time < time'
  rising : items.Pairwise fun a b => a.cumulativeTurnoverKrw ≤ b.cumulativeTurnoverKrw

/-- Observations of one code, and those that are left without the ones that come twice or late. -/
inductive Padded : List TurnoverObservation → List TurnoverObservation → Prop
  | nil : Padded [] []
  | take {noisy clean : List TurnoverObservation} (item : TurnoverObservation) :
      Padded noisy clean → Padded (noisy ++ [item]) (clean ++ [item])
  | stale {noisy clean : List TurnoverObservation} {last : TurnoverObservation}
      (item : TurnoverObservation) (hlast : clean.getLast? = some last)
      (hstale : item.observedAt = last.observedAt ∨ isOutOfOrder parseTime last item = true) :
      Padded noisy clean → Padded (noisy ++ [item]) clean

variable {parseTime} {before items clean noisy : List TurnoverObservation}
  {latest base base' : TurnoverObservation} {seconds seconds' : ℚ}

theorem OlderBy.mono (h : OlderBy parseTime seconds' latest base) (hle : seconds ≤ seconds') :
    OlderBy parseTime seconds latest base := by
  obtain ⟨time, htime, earlier, hearlier, hold⟩ := h
  exact ⟨time, htime, earlier, hearlier, hle.trans hold⟩

theorem not_olderBy_self (hpos : 0 < seconds) : ¬OlderBy parseTime seconds latest latest := by
  rintro ⟨time, htime, earlier, hearlier, hold⟩
  rw [Option.mem_unique hearlier htime, sub_self] at hold
  exact absurd hold (not_le.mpr hpos)

theorem Baseline.mem (h : Baseline parseTime items seconds latest base) : base ∈ items := by
  rcases h with ⟨before, after, rfl, -⟩ | ⟨hhead, -⟩
  · exact mem_append_right _ mem_cons_self
  · exact mem_of_mem_head? hhead

theorem Baseline.mono (hin : InOrder parseTime items) (hle : seconds ≤ seconds')
    (h : Baseline parseTime items seconds latest base)
    (h' : Baseline parseTime items seconds' latest base') :
    base'.cumulativeTurnoverKrw ≤ base.cumulativeTurnoverKrw := by
  have hhead : ∀ first, items.head? = some first → ∀ item ∈ items,
      first.cumulativeTurnoverKrw ≤ item.cumulativeTurnoverKrw := by
    intro first hfirst item hitem
    obtain ⟨rest, rfl⟩ := head?_eq_some_iff.mp hfirst
    rcases mem_cons.mp hitem with rfl | hrest
    · exact le_rfl
    · exact rel_of_pairwise_cons hin.rising hrest
  rcases h' with ⟨front, after, hsplit, hold, -⟩ | ⟨hfirst, -⟩
  · have hmem : base' ∈ items := hsplit ▸ mem_append_right _ mem_cons_self
    rcases h with ⟨front', after', rfl, -, hyoung⟩ | ⟨-, hnone⟩
    · -- the older baseline does not come after the other
      rcases mem_append.mp hmem with hfront | hrest
      · exact (pairwise_append.mp hin.rising).2.2 base' hfront base mem_cons_self
      · rcases mem_cons.mp hrest with rfl | hafter
        · exact le_rfl
        · exact absurd (hold.mono hle) (hyoung base' hafter)
    · exact absurd (hold.mono hle) (hnone base' hmem)
  · exact hhead base' hfirst base h.mem

theorem Baseline.of_lastOf {n : ℕ} (h : Baseline parseTime (lastOf n items) seconds latest base)
    (hreach : items.length ≤ n ∨ OlderBy parseTime seconds latest base) :
    Baseline parseTime items seconds latest base := by
  unfold lastOf at h
  rcases hreach with hshort | hold
  · rwa [Nat.sub_eq_zero_of_le hshort, drop_zero] at h
  · rcases h with ⟨front, after, hsplit, -, hyoung⟩ | ⟨hfirst, hnone⟩
    · refine .inl ⟨items.take (items.length - n) ++ front, after, ?_, hold, hyoung⟩
      rw [append_assoc, ← hsplit, take_append_drop]
    · exact absurd hold (hnone base (mem_of_mem_head? hfirst))

/-- `_delta_since` over observations in order. -/
theorem deltaSince_spec (hin : InOrder parseTime (before ++ [latest])) (hpos : 0 < seconds) :
    ∃ base, Baseline parseTime (before ++ [latest]) seconds latest base ∧
      0 ≤ latest.cumulativeTurnoverKrw - base.cumulativeTurnoverKrw ∧
        deltaSince parseTime (before ++ [latest]) latest seconds =
          latest.cumulativeTurnoverKrw - base.cumulativeTurnoverKrw := by
  obtain ⟨time, htime⟩ := hin.read latest (by simp)
  have hrising : ∀ item ∈ before ++ [latest],
      item.cumulativeTurnoverKrw ≤ latest.cumulativeTurnoverKrw := by
    intro item hitem
    rcases mem_append.mp hitem with hbefore | hlast
    · exact (pairwise_append.mp hin.rising).2.2 item hbefore latest mem_cons_self
    · rw [mem_singleton.mp hlast]
  have holder : ∀ item, (parseTime item.observedAt).any (seconds ≤ time - ·) = true ↔
      OlderBy parseTime seconds latest item := by
    intro item
    unfold OlderBy
    rw [htime]
    cases parseTime item.observedAt <;> simp
  have hbase : Baseline parseTime (before ++ [latest]) seconds latest
      (baselineOf parseTime time seconds latest (before ++ [latest])) := by
    unfold baselineOf
    rw [dropLast_concat]
    cases hfound : before.reverse.find? fun item =>
        (parseTime item.observedAt).any (seconds ≤ time - ·) with
    | some base =>
      obtain ⟨hold, young, old, hsplit, hyoung⟩ := find?_eq_some_iff_append.mp hfound
      have hbefore : before = old.reverse ++ base :: young.reverse := by
        rw [← reverse_reverse before, hsplit]
        simp
      refine .inl ⟨old.reverse, young.reverse ++ [latest], ?_, (holder base).mp hold, ?_⟩
      · rw [hbefore]
        simp
      · intro item hitem
        rcases mem_append.mp hitem with hitem | hitem
        · exact mt (holder item).mpr (by simpa using hyoung item (mem_reverse.mp hitem))
        · exact mem_singleton.mp hitem ▸ not_olderBy_self hpos
    | none =>
      refine .inr ⟨?_, ?_⟩
      · cases before <;> rfl
      · intro item hitem
        rcases mem_append.mp hitem with hitem | hitem
        · exact mt (holder item).mpr (find?_eq_none.mp hfound item (mem_reverse.mpr hitem))
        · exact mem_singleton.mp hitem ▸ not_olderBy_self hpos
  refine ⟨_, hbase, sub_nonneg.mpr (hrising _ hbase.mem), ?_⟩
  unfold deltaSince
  rw [htime]
  exact if_neg (not_lt.mpr (sub_nonneg.mpr (hrising _ hbase.mem)))

/-! ## Runs -/

theorem getLast?_lastOf {n : ℕ} (hn : 0 < n) (items : List TurnoverObservation) :
    (lastOf n items).getLast? = items.getLast? := by
  unfold lastOf
  rw [getLast?_drop]
  cases items with
  | nil => rfl
  | cons => exact if_neg (by simp only [length_cons]; omega)

theorem lastOf_concat (n : ℕ) (items : List TurnoverObservation) (item : TurnoverObservation) :
    lastOf n (lastOf n items ++ [item]) = lastOf n (items ++ [item]) := by
  have hsplit : lastOf n items ++ [item] = (items ++ [item]).drop (items.length - n) :=
    (drop_append_of_le_length (Nat.sub_le ..)).symm
  rw [hsplit]
  unfold lastOf
  rw [drop_drop, length_drop, length_append, length_singleton]
  congr 1
  omega

theorem InOrder.sublist (h : InOrder parseTime items) (hsub : clean.Sublist items) :
    InOrder parseTime clean where
  read := fun item hitem => h.read item (hsub.subset hitem)
  later := h.later.sublist hsub
  rising := h.rising.sublist hsub

theorem InOrder.staleReason_eq_none (h : InOrder parseTime (before ++ [latest]))
    {last : TurnoverObservation} (hlast : before.getLast? = some last) :
    staleReason parseTime last latest = none := by
  have hmem := mem_of_getLast? hlast
  obtain ⟨time, htime⟩ := h.read last (mem_append_left _ hmem)
  obtain ⟨time', htime'⟩ := h.read latest (by simp)
  have hlt := (pairwise_append.mp h.later).2.2 last hmem latest mem_cons_self
    time htime time' htime'
  have htext : latest.observedAt ≠ last.observedAt := by
    intro heq
    rw [heq, htime] at htime'
    cases htime'
    exact lt_irrefl _ hlt
  have horder : isOutOfOrder parseTime last latest = false := by
    unfold isOutOfOrder
    rw [htime, htime']
    exact decide_eq_false (not_lt.mpr hlt.le)
  unfold staleReason
  rw [if_neg htext, horder]
  rfl

theorem InOrder.filed_eq {n : ℕ} (hn : 0 < n) (h : InOrder parseTime (before ++ [latest])) :
    filed (lastOf n before) latest = latest := by
  unfold filed
  rw [getLast?_lastOf hn]
  cases hlast : before.getLast? with
  | none => rfl
  | some last =>
    have hle := (pairwise_append.mp h.rising).2.2 last (mem_of_getLast? hlast) latest mem_cons_self
    exact if_neg (by simpa using hle)

/-- A flow has the deltas of the observations that were kept. -/
def HasDeltas (parseTime : String → Option ℚ) (kept : List TurnoverObservation)
    (latest : TurnoverObservation) (flow : StockTurnoverFlow) : Prop :=
  flow.turnoverDelta1m = (stockFlow parseTime kept latest).turnoverDelta1m ∧
    flow.turnoverDelta3m = (stockFlow parseTime kept latest).turnoverDelta3m ∧
      flow.turnoverDelta5m = (stockFlow parseTime kept latest).turnoverDelta5m

theorem foldl_observeOne {n : ℕ} (hn : 0 < n) (hpadded : Padded parseTime noisy clean)
    (hin : InOrder parseTime clean) :
    (noisy.foldl (observeOne parseTime n) ([], none)).1 = lastOf n clean ∧
      ∀ last, clean.getLast? = some last → ∃ flow,
        (noisy.foldl (observeOne parseTime n) ([], none)).2 = some flow ∧
          HasDeltas parseTime (lastOf n clean) last flow := by
  induction hpadded with
  | nil => exact ⟨drop_nil.symm, fun last hlast => by cases hlast⟩
  | @take noisy clean item _ ih =>
    obtain ⟨hkept, hflow⟩ := ih (hin.sublist (sublist_append_left ..))
    rw [foldl_concat]
    generalize noisy.foldl (observeOne parseTime n) ([], none) = state at *
    have happend : observeOne parseTime n state item =
        appendOne parseTime n state.1 item := by
      unfold observeOne
      rw [hkept, getLast?_lastOf hn]
      cases hlast : clean.getLast? with
      | none => rfl
      | some last =>
        obtain ⟨flow, hsome, -⟩ := hflow last hlast
        rw [hsome]
        dsimp only
        rw [hin.staleReason_eq_none hlast]
    rw [happend]
    unfold appendOne
    rw [hkept, hin.filed_eq hn, lastOf_concat]
    refine ⟨rfl, fun last hlast => ⟨_, rfl, ?_⟩⟩
    rw [getLast?_concat] at hlast
    cases hlast
    exact ⟨rfl, rfl, rfl⟩
  | @stale noisy clean last item hlast hstale _ ih =>
    obtain ⟨hkept, hflow⟩ := ih hin
    rw [foldl_concat]
    generalize noisy.foldl (observeOne parseTime n) ([], none) = state at *
    obtain ⟨flow, hsome, hdeltas⟩ := hflow last hlast
    have hreason : ∃ reason, staleReason parseTime last item = some reason := by
      unfold staleReason
      split_ifs with htext horder
      · exact ⟨_, rfl⟩
      · exact ⟨_, rfl⟩
      · exact absurd (hstale.resolve_left htext) horder
    obtain ⟨reason, hreason⟩ := hreason
    have hmark : observeOne parseTime n state item =
        (state.1, some (flow.marked reason)) := by
      unfold observeOne
      rw [hkept, getLast?_lastOf hn, hlast, hsome]
      dsimp only
      rw [hreason]
    rw [hmark]
    refine ⟨hkept, fun last' hlast' => ⟨_, rfl, ?_⟩⟩
    rw [hlast] at hlast'
    cases hlast'
    exact hdeltas

/-- Whatever else the tracker was given, the deltas of a code that is observed in order are those
to the baselines among the observations that it keeps, rounded to four digits; the baselines are
those of the whole history where the tail reaches back far enough. -/
theorem windowed_turnover (maxHistory : Int) {values : List TurnoverObservation} {code : String}
    (hcode : code ≠ "")
    (hpadded : Padded parseTime ((values.map observation).filter (·.code = code))
      (before ++ [latest])) (hin : InOrder parseTime (before ++ [latest])) :
    ∃ flow, (values.foldl (observe parseTime)
        (.new maxHistory)).latestStockFlow.get? code = some flow ∧
      (∃ base1m base3m base5m : TurnoverObservation,
        (∀ window ∈ [((60 : ℚ), base1m), (180, base3m), (300, base5m)],
          Baseline parseTime (lastOf (new maxHistory).maxHistory
            (before ++ [latest])) window.1 latest window.2 ∧
          ((before ++ [latest]).length ≤ (new maxHistory).maxHistory ∨
              OlderBy parseTime window.1 latest window.2 →
            Baseline parseTime (before ++ [latest]) window.1 latest window.2)) ∧
        flow.turnoverDelta1m = round4 (latest.cumulativeTurnoverKrw -
          base1m.cumulativeTurnoverKrw) ∧
        flow.turnoverDelta3m = round4 (latest.cumulativeTurnoverKrw -
          base3m.cumulativeTurnoverKrw) ∧
        flow.turnoverDelta5m = round4 (latest.cumulativeTurnoverKrw -
          base5m.cumulativeTurnoverKrw)) ∧
      0 ≤ flow.turnoverDelta1m ∧ flow.turnoverDelta1m ≤ flow.turnoverDelta3m ∧
        flow.turnoverDelta3m ≤ flow.turnoverDelta5m := by
  have hn : 0 < (new maxHistory).maxHistory := by
    show 0 < (max 2 _ : Int).toNat
    omega
  have hstate := codeState_run parseTime (.new maxHistory) values code
  simp only [hcode, ne_eq, not_false_eq_true, and_true] at hstate
  generalize (new maxHistory).maxHistory = n at hn hstate ⊢
  obtain ⟨-, hflow⟩ := foldl_observeOne hn hpadded hin
  obtain ⟨flow, hsome, h1m, h3m, h5m⟩ := hflow latest getLast?_concat
  rw [show (new maxHistory).codeState code = ([], none) from rfl] at hstate
  rw [← hstate] at hsome
  obtain ⟨ranked, hget, rfl⟩ := Option.map_eq_some_iff.mp hsome
  -- what is kept is in order and ends with the latest observation
  have hkept : ∃ tail, lastOf n (before ++ [latest]) = tail ++ [latest] :=
    ⟨_, drop_append_of_le_length (by rw [length_append, length_singleton]; omega)⟩
  have hlast : InOrder parseTime (lastOf n (before ++ [latest])) :=
    hin.sublist (drop_sublist ..)
  obtain ⟨tail, hkept⟩ := hkept
  rw [hkept] at h1m h3m h5m hlast ⊢
  obtain ⟨base1m, hbase1m, hpos, hdelta1m⟩ := deltaSince_spec hlast (by norm_num : (0 : ℚ) < 60)
  obtain ⟨base3m, hbase3m, -, hdelta3m⟩ := deltaSince_spec hlast (by norm_num : (0 : ℚ) < 180)
  obtain ⟨base5m, hbase5m, -, hdelta5m⟩ := deltaSince_spec hlast (by norm_num : (0 : ℚ) < 300)
  have h1m' : ranked.turnoverDelta1m = _ := h1m.trans (congrArg round4 hdelta1m)
  have h3m' : ranked.turnoverDelta3m = _ := h3m.trans (congrArg round4 hdelta3m)
  have h5m' : ranked.turnoverDelta5m = _ := h5m.trans (congrArg round4 hdelta5m)
  have hmono := hbase1m.mono hlast (by norm_num) hbase3m
  have hmono' := hbase3m.mono hlast (by norm_num) hbase5m
  refine ⟨ranked, hget, ⟨base1m, base3m, base5m, ?_, h1m', h3m', h5m'⟩, ?_, ?_, ?_⟩
  · have hwhole : ∀ {seconds base}, Baseline parseTime (tail ++ [latest]) seconds latest base →
        Baseline parseTime (tail ++ [latest]) seconds latest base ∧
          ((before ++ [latest]).length ≤ n ∨ OlderBy parseTime seconds latest base →
            Baseline parseTime (before ++ [latest]) seconds latest base) :=
      fun hbase => ⟨hbase, (hkept ▸ hbase : Baseline parseTime (lastOf n _) ..).of_lastOf⟩
    simp only [forall_mem_cons, not_mem_nil, false_implies, implies_true, and_true]
    exact ⟨hwhole hbase1m, hwhole hbase3m, hwhole hbase5m⟩
  · rw [h1m', ← round4_zero]
    exact round4_mono hpos
  · rw [h1m', h3m']
    exact round4_mono (by linarith)
  · rw [h3m', h5m']
    exact round4_mono (by linarith)

/-! ## Fixed observations -/

/-- `_parse_time` drops the offset of a text. -/
def localTime (text : String) : Option ℚ :=
  (parseIso text).map fun parsed => ({ parsed with offset := none } : DateTime).instant / 1000000

def tick (k : ℕ) : TurnoverObservation :=
  { code := "005930"
    observedAt := "2026-01-05T09:00:" ++ toString (10 + k)
    cumulativeTurnoverKrw := k }

theorem inOrder_tick : InOrder localTime ((range 21).map tick) where
  read := by
    have hread : ∀ item ∈ (range 21).map tick, (localTime item.observedAt).isSome := by
      decide +kernel
    exact fun item hitem => Option.isSome_iff_exists.mp (hread item hitem)
  later := by decide +kernel
  rising := by decide +kernel

/-- Of more observations than are kept, the first is no baseline. -/
theorem short_tail_forgets :
    ∃ values latest first flow, InOrder localTime values ∧ values.getLast? = some latest ∧
      Baseline localTime values 60 latest first ∧
      (values.foldl (observe localTime) .new).latestStockFlow.get? "005930" = some flow ∧
      flow.turnoverDelta1m ≠
        round4 (latest.cumulativeTurnoverKrw - first.cumulativeTurnoverKrw) := by
  have hdelta : ((((range 21).map tick).foldl (observe localTime)
      .new).latestStockFlow.get? "005930").map (·.turnoverDelta1m) = some 19 := by decide +kernel
  obtain ⟨flow, hflow, hnineteen⟩ := Option.map_eq_some_iff.mp hdelta
  refine ⟨_, tick 20, tick 0, flow, inOrder_tick, rfl, .inr ⟨rfl, ?_⟩, hflow, ?_⟩
  · have hyoung : ∀ item ∈ (range 21).map tick,
        ∀ time ∈ localTime (tick 20).observedAt, ∀ earlier ∈ localTime item.observedAt,
          ¬60 ≤ time - earlier := by decide +kernel
    rintro item hitem ⟨time, htime, earlier, hearlier, hold⟩
    exact hyoung item hitem time htime earlier hearlier hold
  · rw [hnineteen]
    decide +kernel

/-- The second observation comes twice, and the first once more at the end. -/
theorem windowed_turnover_repeated :
    ∃ flow, ([tick 0, tick 1, tick 1, tick 2, tick 0].foldl
        (observe localTime) .new).latestStockFlow.get? "005930" = some flow ∧
      0 ≤ flow.turnoverDelta1m := by
  have hpadded : Padded localTime (([tick 0, tick 1, tick 1, tick 2, tick 0].map
      observation).filter (·.code = "005930")) ([tick 0, tick 1] ++ [tick 2]) :=
    have hlate : isOutOfOrder localTime (tick 2) (tick 0) = true := by decide +kernel
    .stale (tick 0) rfl (.inr hlate) (.take (tick 2)
      (.stale (tick 1) rfl (.inl rfl) (.take (tick 1) (.take (tick 0) .nil))))
  have hsub : [tick 0, tick 1, tick 2].Sublist ((range 21).map tick) :=
    (take_sublist 3 ((range 21).map tick) :)
  obtain ⟨flow, hget, -, hpos, -⟩ :=
    windowed_turnover 20 (by decide) hpadded (inOrder_tick.sublist hsub)
  exact ⟨flow, hget, hpos⟩

end TradingCore.Themes
