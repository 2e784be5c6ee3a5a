import TradingCore.Themes.TurnoverWindows
import Mathlib.Algebra.BigOperators.Ring.List
import Mathlib.Algebra.Order.BigOperators.Group.List

/-!
# Flow ranking

Whatever the order in which the observations of several codes come in, each code ends with the
same flow, up to its percentile; the percentile is the same where no other code has the same
positive turnover of the last minute. Equal turnovers are ranked by who came first. The shares of
the themes do not depend on the order of the cohorts.
-/

namespace TradingCore.Themes

open Base Candidates List Dict TurnoverFlowTracker

/-! ## Ranks -/

def below (values : Dict String ℚ) (value : ℚ) : ℕ :=
  values.entries.countP fun entry => 0 < entry.2 ∧ entry.2 < value

def upTo (values : Dict String ℚ) (value : ℚ) : ℕ :=
  values.entries.countP fun entry => 0 < entry.2 ∧ entry.2 ≤ value

def Unshared (values : Dict String ℚ) (key : String) (value : ℚ) : Prop :=
  ∀ other, values.get? other = some value → other = key

variable {values values' : Dict String ℚ} {key key' : String} {value value' : ℚ}

theorem rankPercentiles_spec (hget : values.get? key = some value) (hpos : 0 < value) :
    ∃ n, below values value < n ∧ n ≤ upTo values value ∧
      (rankPercentiles values).getD key 0 = (n : ℚ) / values.entries.countP (0 < ·.2) * 100 := by
  unfold rankPercentiles
  dsimp only
  generalize hsorted : (values.entries.filter (0 < ·.2)).mergeSort (·.2 ≤ ·.2) = sorted
  have hperm : sorted.Perm (values.entries.filter (0 < ·.2)) :=
    hsorted ▸ mergeSort_perm ..
  have hkeys : (sorted.map Prod.fst).Nodup :=
    (hperm.map Prod.fst).nodup_iff.mpr (values.nodup.sublist (filter_sublist.map Prod.fst))
  have hordered : sorted.Pairwise (·.2 ≤ ·.2) := by
    rw [← hsorted]
    simpa using @pairwise_mergeSort _ (fun a b : String × ℚ => decide (a.2 ≤ b.2))
      (fun a b c hab hbc => by simpa using le_trans (by simpa using hab) (by simpa using hbc))
      (fun a b => by simpa using le_total a.2 b.2) (values.entries.filter (0 < ·.2))
  have hcount : ∀ p : String × ℚ → Bool,
      values.entries.countP (fun entry => 0 < entry.2 ∧ p entry = true) = sorted.countP p := by
    intro p
    rw [hperm.countP_eq, countP_filter]
    exact countP_congr fun entry _ => by simp [and_comm]
  have hmem : (key, value) ∈ sorted :=
    hperm.mem_iff.mpr (mem_filter.mpr ⟨mem_entries_iff.mpr hget, by simpa using hpos⟩)
  obtain ⟨before, after, rfl⟩ := append_of_mem hmem
  obtain ⟨-, hafter, hbefore⟩ := pairwise_append.mp hordered
  refine ⟨before.length + 1, ?_, ?_, ?_⟩
  · -- nothing from the key on is below its value
    have hnone : ((key, value) :: after).countP (fun entry => decide (entry.2 < value)) = 0 := by
      rw [countP_eq_zero]
      intro entry hentry
      rcases mem_cons.mp hentry with rfl | hentry
      · simp
      · simpa using rel_of_pairwise_cons hafter hentry
    have hle := countP_le_length (p := fun entry => decide (entry.2 < value)) (l := before)
    have hbelow := hcount fun entry => decide (entry.2 < value)
    rw [countP_append, hnone] at hbelow
    unfold below
    simp only [decide_eq_true_eq] at hbelow
    omega
  · -- everything before the key is up to its value
    have hall : before.countP (fun entry => decide (entry.2 ≤ value)) = before.length := by
      rw [countP_eq_length]
      exact fun entry hentry => by simpa using hbefore entry hentry _ mem_cons_self
    have hupTo := hcount fun entry => decide (entry.2 ≤ value)
    rw [countP_append, hall, countP_cons_of_pos (by simp)] at hupTo
    unfold upTo
    simp only [decide_eq_true_eq] at hupTo
    omega
  · have htotal : values.entries.countP (0 < ·.2) = (before ++ (key, value) :: after).length := by
      rw [hperm.length_eq, countP_eq_length_filter]
    rw [if_neg (by simp), htotal, Dict.getD]
    generalize (before ++ (key, value) :: after).length = total
    have hnodup : ((((before ++ (key, value) :: after).zipIdx).map fun entry =>
        (entry.1.1, ((entry.2 : ℚ) + 1) / total * 100)).map Prod.fst).Nodup := by
      rw [map_map]
      have hzip := zipIdx_map_fst 0 (before ++ (key, value) :: after)
      rw [← hzip, map_map] at hkeys
      exact hkeys
    have hrank : (key, ((before.length : ℚ) + 1) / total * 100) ∈
        (before ++ (key, value) :: after).zipIdx.map fun entry =>
          (entry.1.1, ((entry.2 : ℚ) + 1) / total * 100) := by
      refine mem_map.mpr ⟨((key, value), before.length), ?_, rfl⟩
      rw [zipIdx_append, zipIdx_cons]
      simp
    rw [mem_entries_iff.mp (by rwa [entries_ofList hnodup])]
    push_cast
    rfl

theorem rankPercentiles_of_not_pos (hget : values.get? key = some value) (hpos : ¬0 < value) :
    (rankPercentiles values).getD key 0 = 0 := by
  unfold rankPercentiles
  dsimp only
  split_ifs
  · rw [Dict.getD, Dict.get?_mapVals, hget]
    rfl
  · rw [Dict.getD, Dict.get?_ofList, find?_eq_none.mpr]
    · rfl
    · intro entry hentry
      rw [mem_reverse] at hentry
      obtain ⟨⟨⟨key', value'⟩, place⟩, hplaced, rfl⟩ := mem_map.mp hentry
      have hmem := mem_mergeSort.mp (fst_mem_of_mem_zipIdx hplaced)
      obtain ⟨hmem, hpos'⟩ := mem_filter.mp hmem
      have hget' := mem_entries_iff.mp hmem
      simp only [decide_eq_true_eq] at hpos' ⊢
      rintro rfl
      rw [hget, Option.some.injEq] at hget'
      exact hpos (hget' ▸ hpos')

theorem entries_perm (hsame : ∀ key, values.get? key = values'.get? key) :
    values.entries.Perm values'.entries := by
  refine (perm_ext_iff_of_nodup (.of_map _ values.nodup) (.of_map _ values'.nodup)).mpr ?_
  rintro ⟨key, value⟩
  rw [mem_entries_iff, mem_entries_iff, hsame]

theorem rankPercentiles_congr (hperm : values.entries.Perm values'.entries)
    (hget : values.get? key = some value) (hunshared : 0 < value → Unshared values key value) :
    (rankPercentiles values).getD key 0 = (rankPercentiles values').getD key 0 := by
  have hget' : values'.get? key = some value :=
    mem_entries_iff.mp (hperm.mem_iff.mp (mem_entries_iff.mpr hget))
  by_cases hpos : 0 < value
  · obtain ⟨n, hlow, hhigh, hrank⟩ := rankPercentiles_spec hget hpos
    obtain ⟨n', hlow', hhigh', hrank'⟩ := rankPercentiles_spec hget' hpos
    have hbelow : below values' value = below values value := hperm.symm.countP_eq _
    have hupTo : upTo values' value = upTo values value := hperm.symm.countP_eq _
    have hone : upTo values value ≤ below values value + 1 := by
      unfold upTo below
      rw [countP_eq_length_filter, countP_eq_length_filter]
      have hsub : values.entries.filter (fun entry => 0 < entry.2 ∧ entry.2 ≤ value) ⊆
          (key, value) :: values.entries.filter fun entry => 0 < entry.2 ∧ entry.2 < value := by
        rintro ⟨other, value'⟩ hentry
        obtain ⟨hmem, hle⟩ := mem_filter.mp hentry
        obtain ⟨hpos', hle⟩ := of_decide_eq_true hle
        rcases hle.eq_or_lt with rfl | hlt
        · rw [hunshared hpos other (mem_entries_iff.mp hmem)]
          exact mem_cons_self
        · exact mem_cons_of_mem _ (mem_filter.mpr ⟨hmem, by simp [hpos', hlt]⟩)
      exact (subperm_of_subset ((Nodup.of_map _ values.nodup).filter _) hsub).length_le
    have hn : n' = n := by omega
    rw [hrank, hrank', hn, hperm.countP_eq]
  · rw [rankPercentiles_of_not_pos hget hpos, rankPercentiles_of_not_pos hget' hpos]

theorem rankPercentiles_mono (hget : values.get? key = some value)
    (hget' : values.get? key' = some value') (hlt : value < value') :
    (rankPercentiles values).getD key 0 ≤ (rankPercentiles values).getD key' 0 := by
  by_cases hpos : 0 < value
  · obtain ⟨n, -, hhigh, hrank⟩ := rankPercentiles_spec hget hpos
    obtain ⟨n', hlow, -, hrank'⟩ := rankPercentiles_spec hget' (hpos.trans hlt)
    have hle : upTo values value ≤ below values value' := by
      refine countP_mono_left fun entry _ hentry => ?_
      simp only [decide_eq_true_eq] at hentry ⊢
      exact ⟨hentry.1, hentry.2.trans_lt hlt⟩
    have hn : (n : ℚ) ≤ n' := by
      exact_mod_cast (by omega : n ≤ n')
    rw [hrank, hrank']
    gcongr
  · rw [rankPercentiles_of_not_pos hget hpos]
    by_cases hpos' : 0 < value'
    · obtain ⟨n', -, -, hrank'⟩ := rankPercentiles_spec hget' hpos'
      rw [hrank']
      positivity
    · rw [rankPercentiles_of_not_pos hget' hpos']

/-! ## Stocks -/

namespace TurnoverFlowTracker

variable (parseTime : String → Option ℚ) {tracker tracker' : TurnoverFlowTracker}
  {cohorts cohorts' : List SignalCohort} {code : String} {flow flow' : StockTurnoverFlow}

/-- `scores` of `_recompute_percentiles`. -/
def scores (tracker : TurnoverFlowTracker) : Dict String ℚ :=
  tracker.latestStockFlow.mapVals fun _ flow => flow.turnoverDelta1m

theorem get?_scores (hget : tracker.latestStockFlow.get? code = some flow) :
    tracker.scores.get? code = some flow.turnoverDelta1m := by
  unfold scores
  rw [get?_mapVals, hget]
  rfl

/-- The percentiles are those of the latest flows. -/
def Current (tracker : TurnoverFlowTracker) : Prop :=
  ∀ code flow, tracker.latestStockFlow.get? code = some flow →
    flow.turnoverFlowPercentile = round4 ((rankPercentiles tracker.scores).getD code 0)

theorem mapVals_recomputePercentiles (flows : Dict String StockTurnoverFlow) :
    (recomputePercentiles flows).mapVals (fun _ flow => flow.turnoverDelta1m) =
      flows.mapVals fun _ flow => flow.turnoverDelta1m :=
  ext_entries (map_map ..)

theorem current_append (item : TurnoverObservation) : (tracker.append parseTime item).Current := by
  unfold append
  dsimp only
  generalize tracker.latestStockFlow.set _ _ = flows
  intro code flow hget
  unfold scores
  dsimp only at hget ⊢
  rw [mapVals_recomputePercentiles]
  unfold recomputePercentiles at hget
  rw [get?_mapVals] at hget
  obtain ⟨stored, -, rfl⟩ := Option.map_eq_some_iff.mp hget
  rfl

theorem current_observe (h : tracker.Current) (value : TurnoverObservation) :
    (tracker.observe parseTime value).Current := by
  unfold observe
  dsimp only
  split_ifs
  · exact h
  · split
    · next last previous hlast hprevious =>
      split
      · next reason hreason =>
        intro code flow hget
        have hscores : scores { tracker with
            latestStockFlow := (tracker.latestStockFlow.set (observation value).code
              (previous.marked reason)) } = tracker.scores := by
          unfold scores
          rw [mapVals_set, set_eq_self]
          rw [get?_mapVals, hprevious]
          rfl
        rw [hscores]
        rw [get?_set] at hget
        split_ifs at hget with hcode
        · cases hget
          exact hcode ▸ h _ previous hprevious
        · exact h code flow hget
      · exact current_append parseTime _
    · exact current_append parseTime _

theorem current_run (maxHistory : Int) (values : List TurnoverObservation) :
    (values.foldl (observe parseTime) (.new maxHistory)).Current := by
  induction values using reverseRecOn with
  | nil =>
    intro code flow hget
    cases hget
  | append_singleton values value ih =>
    rw [foldl_concat]
    exact current_observe parseTime ih value

/-! ## Themes -/

/-- The trackers have the same flows, up to the percentiles. -/
def SameFlows (tracker tracker' : TurnoverFlowTracker) : Prop :=
  ∀ code, (tracker.latestStockFlow.get? code).map unranked =
    (tracker'.latestStockFlow.get? code).map unranked

theorem SameFlows.get?_scores (h : SameFlows tracker tracker') (code : String) :
    tracker.scores.get? code = tracker'.scores.get? code := by
  have hdelta := congrArg (Option.map StockTurnoverFlow.turnoverDelta1m) (h code)
  rw [Option.map_map, Option.map_map] at hdelta
  unfold scores
  rw [get?_mapVals, get?_mapVals]
  exact hdelta

theorem SameFlows.cohortTotal (h : SameFlows tracker tracker') (cohort : SignalCohort) :
    tracker.cohortTotal cohort = tracker'.cohortTotal cohort := by
  have hdelta : ∀ code, (tracker.latestStockFlow.get? code).map (max 0 ·.turnoverDelta1m) =
      (tracker'.latestStockFlow.get? code).map (max 0 ·.turnoverDelta1m) := by
    intro code
    have hmax := congrArg (Option.map fun flow => max 0 flow.turnoverDelta1m) (h code)
    rwa [Option.map_map, Option.map_map] at hmax
  unfold TurnoverFlowTracker.cohortTotal flowsOf
  rw [map_filterMap, map_filterMap]
  simp only [hdelta]

def OneCohort (cohorts : List SignalCohort) : Prop :=
  ((cohorts.filter (·.themeId ≠ "")).map (·.themeId)).Nodup

theorem entries_themeTotals (hone : OneCohort cohorts) :
    (tracker.themeTotals cohorts).entries = (cohorts.filter (·.themeId ≠ "")).map fun cohort =>
      (cohort.themeId, tracker.cohortTotal cohort) :=
  entries_ofList (by rw [map_map]; exact hone)

theorem OneCohort.perm (hone : OneCohort cohorts) (hperm : cohorts.Perm cohorts') :
    OneCohort cohorts' :=
  ((hperm.filter _).map _).nodup_iff.mp hone

theorem SameFlows.themeTotals (h : SameFlows tracker tracker') (hperm : cohorts.Perm cohorts')
    (hone : OneCohort cohorts) :
    (tracker.themeTotals cohorts).entries.Perm (tracker'.themeTotals cohorts').entries := by
  rw [entries_themeTotals hone, entries_themeTotals (hone.perm hperm)]
  simp only [h.cohortTotal]
  exact (hperm.filter _).map _

theorem cohortTotal_nonneg (cohort : SignalCohort) : 0 ≤ tracker.cohortTotal cohort := by
  refine sum_nonneg fun total htotal => ?_
  obtain ⟨flow, -, rfl⟩ := mem_map.mp htotal
  exact le_max_left ..

theorem themeShare_spec (hone : OneCohort cohorts) :
    (∀ total ∈ (tracker.themeTotals cohorts).values, 0 ≤ tracker.themeShare cohorts total) ∧
      (0 < (tracker.themeTotals cohorts).values.sum →
        ((tracker.themeTotals cohorts).values.map (tracker.themeShare cohorts)).sum = 1) := by
  unfold themeShare
  dsimp only
  constructor
  · intro total htotal
    have hpos : 0 ≤ total := by
      unfold values at htotal
      rw [entries_themeTotals hone, map_map] at htotal
      obtain ⟨cohort, -, rfl⟩ := mem_map.mp htotal
      exact cohortTotal_nonneg cohort
    split_ifs
    · positivity
    · exact le_rfl
  · intro hpos
    simp only [if_pos hpos, div_eq_mul_inv]
    rw [sum_map_mul_right, map_id']
    exact mul_inv_cancel₀ hpos.ne'

/-- Each theme has the same share with either tracker, and the same percentile if no other theme
has the same turnover. -/
def SameThemes (tracker tracker' : TurnoverFlowTracker) (cohorts cohorts' : List SignalCohort) :
    Prop :=
  ∀ theme flow, (tracker.themeFlows cohorts).1.get? theme = some flow →
    ∃ total flow', (tracker.themeTotals cohorts).get? theme = some total ∧
      (tracker'.themeFlows cohorts').1.get? theme = some flow' ∧
      flow'.themeFlowShare = flow.themeFlowShare ∧
      ((0 < total → Unshared (tracker.themeTotals cohorts) theme total) →
        flow'.themeFlowPercentile = flow.themeFlowPercentile)

theorem SameFlows.themeFlows (h : SameFlows tracker tracker') (hperm : cohorts.Perm cohorts')
    (hone : OneCohort cohorts) : SameThemes tracker tracker' cohorts cohorts' := by
  intro theme flow hget
  have htotals := h.themeTotals hperm hone
  unfold TurnoverFlowTracker.themeFlows at hget ⊢
  dsimp only at hget ⊢
  rw [get?_mapVals] at hget
  obtain ⟨total, htotal, rfl⟩ := Option.map_eq_some_iff.mp hget
  have htotal' : (tracker'.themeTotals cohorts').get? theme = some total :=
    mem_entries_iff.mp (htotals.mem_iff.mp (mem_entries_iff.mpr htotal))
  refine ⟨total, tracker'.themeFlow cohorts' theme total, htotal, ?_, ?_, fun hunshared => ?_⟩
  · rw [get?_mapVals, htotal']
    rfl
  · have hsum : (tracker.themeTotals cohorts).values.sum =
        (tracker'.themeTotals cohorts').values.sum := (htotals.map Prod.snd).sum_eq
    unfold themeFlow themeShare
    dsimp only
    rw [hsum]
  · exact congrArg round4 (rankPercentiles_congr htotals htotal hunshared).symm

/-! ## Runs -/

/-- Whichever of two interleavings of the observations of the codes a tracker is given, each code
ends with the same flow up to the percentile, and with the same percentile if no other code has
the same positive turnover of the last minute; more turnover never ranks lower. The shares of the
themes are the same for every order of their cohorts, and are shares of a whole. -/
theorem flow_ranking (maxHistory : Int) {values values' : List TurnoverObservation}
    (hsame : ∀ code, (values.map observation).filter (·.code = code) =
      (values'.map observation).filter (·.code = code)) :
    let tracker := values.foldl (observe parseTime) (.new maxHistory)
    let tracker' := values'.foldl (observe parseTime) (.new maxHistory)
    SameFlows tracker tracker' ∧
    (∀ code flow, tracker.latestStockFlow.get? code = some flow →
      (0 < flow.turnoverDelta1m → Unshared tracker.scores code flow.turnoverDelta1m) →
        tracker'.latestStockFlow.get? code = some flow) ∧
    (∀ code flow code' flow', tracker.latestStockFlow.get? code = some flow →
      tracker.latestStockFlow.get? code' = some flow' →
        flow.turnoverDelta1m < flow'.turnoverDelta1m →
          flow.turnoverFlowPercentile ≤ flow'.turnoverFlowPercentile) ∧
    ∀ cohorts cohorts', cohorts.Perm cohorts' → OneCohort cohorts →
      SameThemes tracker tracker' cohorts cohorts' ∧
      (∀ total ∈ (tracker.themeTotals cohorts).values, 0 ≤ tracker.themeShare cohorts total) ∧
      (0 < (tracker.themeTotals cohorts).values.sum →
        ((tracker.themeTotals cohorts).values.map (tracker.themeShare cohorts)).sum = 1) := by
  intro tracker tracker'
  have hcurrent : tracker.Current := current_run parseTime maxHistory values
  have hcurrent' : tracker'.Current := current_run parseTime maxHistory values'
  have hflows : SameFlows tracker tracker' := by
    intro code
    have hown : ((values.map observation).filter fun item => item.code = code ∧ code ≠ "") =
        (values'.map observation).filter fun item => item.code = code ∧ code ≠ "" := by
      by_cases hcode : code = ""
      · simp [hcode]
      · simpa [hcode] using hsame code
    have hstate := codeState_run parseTime (.new maxHistory) values code
    have hstate' := codeState_run parseTime (.new maxHistory) values' code
    rw [hown, ← hstate'] at hstate
    exact congrArg Prod.snd hstate
  refine ⟨hflows, ?_, ?_, ?_⟩
  · intro code flow hget hunshared
    obtain ⟨flow', hget', hunranked⟩ : ∃ flow', tracker'.latestStockFlow.get? code = some flow' ∧
        unranked flow' = unranked flow := by
      have hcode := hflows code
      rw [hget] at hcode
      exact Option.map_eq_some_iff.mp hcode.symm
    have hrank := rankPercentiles_congr (entries_perm hflows.get?_scores) (get?_scores hget)
      hunshared
    have hpercentile : flow'.turnoverFlowPercentile = flow.turnoverFlowPercentile := by
      rw [hcurrent code flow hget, hcurrent' code flow' hget', hrank]
    rw [hget']
    cases flow
    cases flow'
    simp_all [unranked]
  · intro code flow code' flow' hget hget' hlt
    rw [hcurrent code flow hget, hcurrent code' flow' hget']
    exact round4_mono (rankPercentiles_mono (get?_scores hget) (get?_scores hget') hlt)
  · intro cohorts cohorts' hperm hone
    exact ⟨hflows.themeFlows hperm hone, themeShare_spec hone⟩

/-! ## Fixed runs -/

def abreast (one other : String) : List TurnoverObservation :=
  [{ tick 0 with code := one }, { tick 0 with code := other }, { tick 1 with code := one },
    { tick 1 with code := other }]

theorem rankPercentiles_abreast {one other : String}
    (hentries : values.entries = [(one, 1), (other, 1)]) :
    (rankPercentiles values).entries = [(one, 50), (other, 100)] := by
  have hkeys := values.nodup
  rw [hentries] at hkeys
  have hpositive : ([(one, 1), (other, 1)] : List (String × ℚ)).filter (0 < ·.2) =
      [(one, 1), (other, 1)] := by simp
  unfold rankPercentiles
  dsimp only
  rw [hentries, hpositive, mergeSort_of_pairwise (by simp), if_neg (by simp),
    entries_ofList (by simpa using hkeys)]
  norm_num

/-- Of two codes with the same turnover the one that came first ranks lower. -/
theorem abreast_ranks_differ :
    ∃ flow flow', (((abreast "005930" "000660").foldl (observe localTime)
        .new).latestStockFlow.get? "005930") = some flow ∧
      (((abreast "005930" "000660").foldl (observe localTime)
        .new).latestStockFlow.get? "000660") = some flow' ∧
      0 < flow.turnoverDelta1m ∧ flow.turnoverDelta1m = flow'.turnoverDelta1m ∧
      flow.turnoverFlowPercentile ≠ flow'.turnoverFlowPercentile := by
  have hcurrent := current_run localTime 20 (abreast "005930" "000660")
  have hentries : (((abreast "005930" "000660").foldl (observe localTime) .new).scores).entries =
      [("005930", 1), ("000660", 1)] := by decide +kernel
  have hranks := rankPercentiles_abreast hentries
  generalize (abreast "005930" "000660").foldl (observe localTime) .new = tracker at *
  have hflow : ∀ code rank, (code, (1 : ℚ)) ∈ tracker.scores.entries →
      (code, rank) ∈ (rankPercentiles tracker.scores).entries →
        ∃ flow, tracker.latestStockFlow.get? code = some flow ∧ flow.turnoverDelta1m = 1 ∧
          flow.turnoverFlowPercentile = round4 rank := by
    intro code rank hscore hrank
    have hget := mem_entries_iff.mp hscore
    unfold scores at hget
    rw [get?_mapVals] at hget
    obtain ⟨flow, hget, hdelta⟩ := Option.map_eq_some_iff.mp hget
    refine ⟨flow, hget, hdelta, (hcurrent code flow hget).trans ?_⟩
    rw [Dict.getD, Dict.mem_entries_iff.mp hrank]
    rfl
  rw [hentries, hranks] at hflow
  obtain ⟨flow, hget, hdelta, hpercentile⟩ := hflow "005930" 50 (by simp) (by simp)
  obtain ⟨flow', hget', hdelta', hpercentile'⟩ := hflow "000660" 100 (by simp) (by simp)
  refine ⟨flow, flow', hget, hget', by rw [hdelta]; norm_num, hdelta.trans hdelta'.symm, ?_⟩
  rw [hpercentile, hpercentile']
  decide +kernel

theorem flow_ranking_abreast :
    SameFlows ((abreast "005930" "000660").foldl (observe localTime) .new)
      ((abreast "000660" "005930").foldl (observe localTime) .new) := by
  have hread : ∀ codes ∈ [("005930", "000660"), ("000660", "005930")],
      (abreast codes.1 codes.2).map observation = abreast codes.1 codes.2 := by decide +kernel
  have hsame : ∀ code, ((abreast "005930" "000660").map observation).filter (·.code = code) =
      ((abreast "000660" "005930").map observation).filter (·.code = code) := by
    intro code
    rw [hread ("005930", "000660") (by simp), hread ("000660", "005930") (by simp)]
    simp only [abreast, filter_cons, filter_nil]
    by_cases hone : "005930" = code
    · subst hone
      simp
    · simp [hone]
  exact (flow_ranking localTime 20 hsame).1

end TurnoverFlowTracker

end TradingCore.Themes
