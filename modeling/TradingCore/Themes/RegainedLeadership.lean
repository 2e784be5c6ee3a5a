import TradingCore.Themes.EarnedLeadership

/-!
# A place that was lost is earned again

An incumbent that is losing its leadership recovers it only after some cycles and seconds of
recovery. The engine asks for them by the last status of the theme: once that is not
`LOSING_LEADERSHIP` any more, because the theme was rotated out, or was not in the list, the theme
is still the incumbent of record and comes back at once. The condition leaves this way out; every
other way back is earned.
-/

namespace TradingCore.Themes

open Base List Option Machine ThemeLeadershipStatus

/-- The entry of a theme in a cycle: of several under one id, the one whose snapshot is kept. -/
def RankedCycle.entryOf (cycle : RankedCycle) (theme : String) : Option ThemeLeadershipSnapshot :=
  cycle.ranked.reverse.find? (·.themeId = theme)

def ThemeLeadershipStatus.lost (status : ThemeLeadershipStatus) : Bool :=
  status ∈ [losingLeadership, rotatedOut]

namespace LeadershipHandoverEngine

def statusIn (engine : LeadershipHandoverEngine) (theme : String) : Option ThemeLeadershipStatus :=
  (engine.previous.get? theme).map (·.status)

/-! ## Lost and regained -/

/-- The theme loses its place in the cycle: it enters `LOSING_LEADERSHIP` or `ROTATED_OUT`. -/
def LosesPlace (config : LeadershipHandoverConfig) (theme : String)
    (engine : LeadershipHandoverEngine) (cycle : RankedCycle) : Prop :=
  ∃ status ∈ ((machine config).next engine cycle).statusIn theme,
    status.lost = true ∧ engine.statusIn theme ≠ some status

/-- The theme meets the condition of a recovery. -/
def Recovering (theme : String) (_ : LeadershipHandoverEngine) (cycle : RankedCycle) : Prop :=
  ∃ item ∈ cycle.entryOf theme, incumbentRecovering item = true

/-- In the cycles of a window the theme recovered for the cycles and the seconds of the
configuration, or won a takeover. -/
def ReEarned (config : LeadershipHandoverConfig) (theme : String)
    (engine : LeadershipHandoverEngine) (window : List RankedCycle) : Prop :=
  (∃ part last start, part ++ [last] <+: window ∧
      (machine config).Streak RankedCycle.now (Recovering theme) engine (part ++ [last])
        config.incumbentRecoveryConfirmCycles start ∧
      start + config.incumbentRecoveryConfirmSec ≤ last.now) ∨
    ∃ part, part <+: window ∧
      ((machine config).run engine part).statusIn theme = some .takeoverConfirmed

/-- Whenever a theme that lost its place is the incumbent again, it has re-earned it since. -/
def PlacesReEarned (config : LeadershipHandoverConfig) (cycles : List RankedCycle) : Prop :=
  ∀ before lost between, before ++ lost :: between <+: cycles → ∀ theme,
    LosesPlace config theme ((machine config).run {} before) lost →
    ((machine config).run {} (before ++ lost :: between)).statusIn theme = some .incumbent →
    ReEarned config theme ((machine config).run {} (before ++ [lost])) between

/-! ## The condition -/

def LeadsNow (theme : String) (engine : LeadershipHandoverEngine) : Prop :=
  ∃ status ∈ engine.statusIn theme, status.leads = true
deriving Decidable

/-- The theme lost its place in a cycle of the past and has not led since. -/
def Deposed (config : LeadershipHandoverConfig) (theme : String) (past : List RankedCycle) : Prop :=
  ∃ place < past.length,
    (∃ status ∈ ((machine config).run {} (past.take (place + 1))).statusIn theme,
      status.lost = true) ∧
    (machine config).Always (fun engine => ¬ LeadsNow theme engine)
      ((machine config).run {} (past.take (place + 1))) (past.drop (place + 1))

/-- The entry becomes the incumbent without a recovery: it is eligible, and first while there is no
incumbent, or the incumbent of record without being `LOSING_LEADERSHIP` or about to be. -/
def ComesBack (config : LeadershipHandoverConfig) (engine : LeadershipHandoverEngine)
    (cycle : RankedCycle) (item : ThemeLeadershipSnapshot) : Prop :=
  canTakeover item = true ∧
    (engine.incumbentThemeId = "" ∧ item.currentRank = 1 ∨
      item.themeId = engine.incumbentThemeId ∧
        engine.statusIn item.themeId ≠ some .losingLeadership ∧
        ¬ (flowCollapse item = true ∧
          losingConfirmed (engine.previous.get? item.themeId) item cycle.now config = true))
deriving Decidable

/-- No theme that lost its place comes back in the cycle without a recovery. -/
def NoneComesBack (config : LeadershipHandoverConfig) (past : List RankedCycle)
    (cycle : RankedCycle) : Prop :=
  ∀ item ∈ cycle.ranked, Deposed config item.themeId past →
    ¬ ComesBack config ((machine config).run {} past) cycle item

instance (config : LeadershipHandoverConfig) (theme : String) (past : List RankedCycle) :
    Decidable (Deposed config theme past) :=
  inferInstanceAs (Decidable (∃ place < past.length, _))

instance (config : LeadershipHandoverConfig) (past : List RankedCycle) (cycle : RankedCycle) :
    Decidable (NoneComesBack config past cycle) :=
  inferInstanceAs (Decidable (∀ item ∈ cycle.ranked, _))

/-! ## What a cycle does to a theme -/

section Cycle

variable {config : LeadershipHandoverConfig} {engine : LeadershipHandoverEngine}
  {cycle : RankedCycle} {item : ThemeLeadershipSnapshot} {theme : String}

theorem entryOf_of_get? {updated : ThemeLeadershipSnapshot}
    (h : ((machine config).next engine cycle).previous.get? theme = some updated) :
    ∃ item, cycle.entryOf theme = some item ∧ item.themeId = theme ∧ theme ≠ "" ∧
      updated = engine.updateItem config cycle item := by
  have hget : ((machine config).next engine cycle).previous.get? theme =
      ((cycle.ranked.map (engine.updateItem config cycle)).filter
        (·.themeId ≠ "")).reverse.find? (·.themeId = theme) :=
    Dict.get?_ofList_map ThemeLeadershipSnapshot.themeId _ theme
  rw [hget, ← filter_reverse, find?_filter, ← map_reverse, find?_map] at h
  obtain ⟨item, hfind, rfl⟩ := map_eq_some_iff.mp h
  have hid : item.themeId ≠ "" ∧ item.themeId = theme := by
    simpa [updateItem] using find?_some hfind
  refine ⟨item, ?_, hid.2, hid.2 ▸ hid.1, rfl⟩
  rw [← hfind]
  unfold RankedCycle.entryOf
  congr 1
  funext other
  -- an entry under the theme's id has an id
  by_cases hother : other.themeId = theme
  · simp [updateItem, hother, ← hid.2, hid.1]
  · simp [updateItem, hother]

/-- `INCUMBENT` goes to an eligible theme that comes back, or whose recovery is confirmed. -/
theorem comesBack_or_recovered (h : (engine.updateItem config cycle item).status = .incumbent) :
    ComesBack config engine cycle item ∨
      ∃ before, engine.previous.get? item.themeId = some before ∧
        before.status = .losingLeadership ∧
        incumbentRecoveryConfirmed before item cycle.now config = true := by
  have hstatus : (engine.updateItem config cycle item).status =
      if engine.confirms config cycle item then .takeoverConfirmed
      else statusOf config item (engine.previous.get? item.themeId)
        (engine.takeoverTheme config cycle.ranked) engine.incumbentThemeId
        (engine.incumbentReference cycle.ranked) cycle.now := rfl
  rw [hstatus] at h
  split at h
  · cases h
  · unfold statusOf at h
    split at h
    · cases hlosing : losingBefore (engine.previous.get? item.themeId) with
      | none =>
        rw [hlosing] at h
        cases h
      | some before =>
        rw [hlosing] at h
        dsimp only at h
        split at h <;> cases h
    · next heligible =>
        rw [Bool.not_eq_false] at heligible
        split at h
        · next hvacant => exact .inl ⟨heligible, .inl hvacant⟩
        · split at h
          · next hincumbent =>
              cases hlosing : losingBefore (engine.previous.get? item.themeId) with
              | some before =>
                rw [hlosing] at h
                obtain ⟨hbefore, hwas⟩ := filter_eq_some_iff.mp hlosing
                dsimp only at h
                split at h
                · next hconfirmed =>
                    exact .inr ⟨before, hbefore, of_decide_eq_true hwas, hconfirmed⟩
                · split at h <;> cases h
              | none =>
                rw [hlosing] at h
                dsimp only at h
                split at h
                · cases h
                · next hcollapse =>
                    refine .inl ⟨heligible, .inr ⟨hincumbent, ?_, hcollapse⟩⟩
                    intro hwas
                    obtain ⟨before, hbefore, hstatus⟩ := map_eq_some_iff.mp hwas
                    rw [losingBefore, hbefore] at hlosing
                    simp [Option.filter, hstatus] at hlosing
          · split at h
            · cases h
            · split at h <;> cases h

end Cycle

/-! ## What a snapshot says of the past -/

/-- The theme is losing its leadership and meets the condition of a recovery. -/
def Recovers (theme : String) (engine : LeadershipHandoverEngine) (cycle : RankedCycle) : Prop :=
  engine.statusIn theme = some .losingLeadership ∧ Recovering theme engine cycle

/-- The last snapshot of a theme counts the cycles of its recovery, since the first of them. -/
def CountsRecovery (config : LeadershipHandoverConfig) (theme : String) (past : List RankedCycle)
    (item : ThemeLeadershipSnapshot) : Prop :=
  ∀ start ∈ item.recoveryPendingSince,
    (machine config).Streak RankedCycle.now (Recovers theme) {} past item.recoveryCycleCount start

section Step

variable {config : LeadershipHandoverConfig} {past : List RankedCycle} {cycle : RankedCycle}
  {item before : ThemeLeadershipSnapshot} {theme : String}

/-- A theme that was losing and recovers has done so for the cycles that are counted, this cycle
included. -/
theorem recovery_goesOn (hitem : cycle.entryOf theme = some item)
    (hbefore : ((machine config).run {} past).previous.get? theme = some before)
    (hcounts : CountsRecovery config theme past before)
    (hlosing : before.status = .losingLeadership) (hrecovers : incumbentRecovering item = true) :
    (machine config).Streak RankedCycle.now (Recovers theme) {} (past ++ [cycle])
      (cyclesSince before.recoveryPendingSince before.recoveryCycleCount)
      (before.recoveryPendingSince.getD cycle.now) := by
  have hstep : Recovers theme ((machine config).run {} past) cycle := by
    refine ⟨?_, item, hitem, hrecovers⟩
    rw [statusIn, hbefore, map_some, hlosing]
  unfold cyclesSince
  cases hpending : before.recoveryPendingSince with
  | none => exact Streak.begins hstep (Int.le_refl 1)
  | some start =>
    rw [if_neg (some_ne_none start)]
    exact (hcounts start hpending).goesOn hstep

theorem countsRecovery_next (hitem : cycle.entryOf theme = some item) (hid : item.themeId = theme)
    (hbefore : ∀ before ∈ ((machine config).run {} past).previous.get? theme,
      CountsRecovery config theme past before) :
    CountsRecovery config theme (past ++ [cycle])
      (((machine config).run {} past).updateItem config cycle item) := by
  intro start hstart
  generalize hnew : ((machine config).run {} past).updateItem config cycle item = updated at *
  have hsince : updated.recoveryPendingSince = recoveryPendingSince
      (((machine config).run {} past).previous.get? theme) item updated.status cycle.now := by
    rw [← hnew, ← hid]
    rfl
  have hcount : updated.recoveryCycleCount = recoveryCycleCount
      (((machine config).run {} past).previous.get? theme) item updated.status := by
    rw [← hnew, ← hid]
    rfl
  rw [hsince] at hstart
  rw [hcount]
  unfold recoveryPendingSince recoveryCycleCount at *
  by_cases hon : recoveringOn (((machine config).run {} past).previous.get? theme) item
      updated.status = true
  · rw [if_pos hon] at hstart ⊢
    simp only [recoveringOn, decide_eq_true_eq] at hon
    obtain ⟨hlosing, -, hrecovers⟩ := hon
    obtain ⟨before, hget, hstatus⟩ := map_eq_some_iff.mp hlosing
    have hgoesOn := recovery_goesOn hitem hget (hbefore before hget) hstatus hrecovers
    rw [hget] at hstart ⊢
    have hsame : before.recoveryPendingSince.getD cycle.now = start := by
      cases hpending : before.recoveryPendingSince with
      | none =>
        rw [bind_some, hpending] at hstart
        exact some.inj hstart
      | some since =>
        rw [bind_some, hpending] at hstart
        exact some.inj hstart
    rw [hsame] at hgoesOn
    exact hgoesOn
  · rw [if_neg hon] at hstart
    cases hstart

end Step

theorem countsRecovery_run (config : LeadershipHandoverConfig) (past : List RankedCycle) :
    ∀ theme, ∀ before ∈ ((machine config).run {} past).previous.get? theme,
      CountsRecovery config theme past before := by
  refine prefix_induction (Q := fun past => ∀ theme,
    ∀ before ∈ ((machine config).run {} past).previous.get? theme,
      CountsRecovery config theme past before) ?_ ?_ past (prefix_refl past)
  · intro theme before hsome
    simp at hsome
  · intro past cycle _ ih theme before hsome
    rw [run_concat] at hsome
    obtain ⟨item, hitem, hid, -, rfl⟩ := entryOf_of_get? hsome
    exact countsRecovery_next hitem hid (ih theme)

/-! ## The way back -/

section Back

variable {config : LeadershipHandoverConfig} {theme : String} {before window : List RankedCycle}
  {lost cycle : RankedCycle}

theorem ReEarned.mono {engine : LeadershipHandoverEngine} {part : List RankedCycle}
    (h : ReEarned config theme engine part) (hpre : part <+: window) :
    ReEarned config theme engine window := by
  rcases h with ⟨init, last, start, hinit, hstreak⟩ | ⟨init, hinit, hconfirmed⟩
  · exact .inl ⟨init, last, start, hinit.trans hpre, hstreak⟩
  · exact .inr ⟨init, hinit.trans hpre, hconfirmed⟩

theorem recovered_since (hloses : LosesPlace config theme ((machine config).run {} before) lost)
    {count start : Int}
    (hstreak : (machine config).Streak RankedCycle.now (Recovers theme) {}
      (before ++ lost :: (window ++ [cycle])) count start) :
    (machine config).Streak RankedCycle.now (Recovering theme)
      ((machine config).run {} (before ++ [lost])) (window ++ [cycle]) count start := by
  obtain ⟨first, rest, hends, hstart, hcount⟩ := hstreak
  rcases hends.within with hin | hback
  · exact ⟨first, rest, hin.imp fun _ _ hrecovers => hrecovers.2, hstart, hcount⟩
  · -- the theme would be losing its leadership before and after the cycle that it loses it in
    exfalso
    obtain ⟨status, hstatus, -, hentered⟩ := hloses
    obtain ⟨⟨hwas, -⟩, hlater⟩ := hback
    have his : ((machine config).next ((machine config).run {} before) lost).statusIn theme =
        some .losingLeadership := by
      cases window with
      | nil => exact hlater.1.1
      | cons next rest => exact hlater.1.1
    rw [his] at hstatus
    injection hstatus with hstatus
    exact hentered (hstatus ▸ hwas)

/-- The cycle in which a theme that has not led since it lost its place is the incumbent again. -/
theorem reEarned_of_incumbent
    (htime : (before ++ lost :: (window ++ [cycle])).Pairwise
      fun earlier later => earlier.now ≤ later.now)
    (hloses : LosesPlace config theme ((machine config).run {} before) lost)
    (hsince : (machine config).Always (fun engine => ¬ LeadsNow theme engine)
      ((machine config).run {} (before ++ [lost])) window)
    (hnone : NoneComesBack config (before ++ lost :: window) cycle)
    (hback : ((machine config).run {} (before ++ lost :: (window ++ [cycle]))).statusIn theme =
      some .incumbent) :
    ReEarned config theme ((machine config).run {} (before ++ [lost])) (window ++ [cycle]) := by
  have happend : before ++ lost :: (window ++ [cycle]) = before ++ lost :: window ++ [cycle] := by
    simp
  have hcounts := countsRecovery_run config (before ++ lost :: window) theme
  rw [happend, run_concat] at hback
  obtain ⟨updated, hget, hstatus⟩ := map_eq_some_iff.mp hback
  obtain ⟨item, hitem, rfl, -, rfl⟩ := entryOf_of_get? hget
  have hmem : item ∈ cycle.ranked := mem_reverse.mp (mem_of_find?_eq_some hitem)
  have hdeposed : Deposed config item.themeId (before ++ lost :: window) := by
    obtain ⟨status, hmem, hlost, -⟩ := hloses
    have htake : (before ++ lost :: window).take (before.length + 1) = before ++ [lost] := by
      rw [append_cons, take_left' (by simp)]
    have hdrop : (before ++ lost :: window).drop (before.length + 1) = window := by
      rw [append_cons, drop_left' (by simp)]
    refine ⟨before.length, by simp, ?_⟩
    rw [htake, hdrop]
    refine ⟨⟨status, ?_, hlost⟩, hsince⟩
    rw [run_concat]
    exact hmem
  rcases comesBack_or_recovered hstatus with hcomes | ⟨last, hlast, hlosing, hconfirmed⟩
  · exact absurd hcomes (hnone item hmem hdeposed)
  · simp only [incumbentRecoveryConfirmed, decide_eq_true_eq] at hconfirmed
    obtain ⟨hrecovers, hseconds, hcycles⟩ := hconfirmed
    have hstreak := recovery_goesOn hitem hlast (hcounts last hlast) hlosing hrecovers
    rw [← happend] at hstreak
    obtain ⟨first, hfirst, hstart⟩ := hstreak.start_mem
    refine .inl ⟨window, cycle, _, prefix_refl _,
      (recovered_since hloses hstreak).shorten hcycles, ?_⟩
    have hle : first.now ≤ cycle.now := by
      rw [happend] at htime hfirst
      rcases mem_append.mp hfirst with hpast | hlast
      · exact (pairwise_append.mp htime).2.2 first hpast cycle mem_cons_self
      · rw [mem_singleton.mp hlast]
    have hsame : (last.recoveryPendingSince <|> some cycle.now) =
        some (last.recoveryPendingSince.getD cycle.now) := by
      cases last.recoveryPendingSince with
      | none => rfl
      | some since => rfl
    rw [hsame] at hseconds
    unfold elapsedSec at hseconds
    dsimp only at hseconds
    omega

/-- After each part of a window the theme has re-earned its place, or has not led again. -/
theorem reEarned_or_not_leading
    (htime : (before ++ lost :: window).Pairwise fun earlier later => earlier.now ≤ later.now)
    (hloses : LosesPlace config theme ((machine config).run {} before) lost)
    (hnone : ∀ part cycle, part ++ [cycle] <+: window →
      NoneComesBack config (before ++ lost :: part) cycle) :
    ∀ part, part <+: window →
      ReEarned config theme ((machine config).run {} (before ++ [lost])) part ∨
        (machine config).Always (fun engine => ¬ LeadsNow theme engine)
          ((machine config).run {} (before ++ [lost])) part := by
  refine prefix_induction ?_ ?_
  · refine .inr ?_
    rintro ⟨status, hstatus, hleads⟩
    obtain ⟨status', hstatus', hlost, -⟩ := hloses
    rw [run_concat] at hstatus
    obtain rfl : status = status' := some.inj (hstatus.symm.trans hstatus')
    cases status <;> simp [ThemeLeadershipStatus.leads, ThemeLeadershipStatus.lost] at hleads hlost
  · intro part cycle hpre ih
    rcases ih with hearned | hsince
    · exact .inl (hearned.mono (prefix_append part [cycle]))
    · by_cases hleads : LeadsNow theme ((machine config).run
          ((machine config).run {} (before ++ [lost])) (part ++ [cycle]))
      · refine .inl ?_
        obtain ⟨status, hstatus, hleads⟩ := hleads
        simp only [leads, mem_cons, not_mem_nil, or_false,
          decide_eq_true_eq] at hleads
        rcases hleads with rfl | rfl
        · refine reEarned_of_incumbent (htime.sublist ?_) hloses hsince (hnone part cycle hpre) ?_
          · exact (Sublist.refl before).append (hpre.sublist.cons_cons lost)
          · rw [append_cons, run_append]
            exact hstatus
        · exact .inr ⟨part ++ [cycle], prefix_refl _, hstatus⟩
      · exact .inr (always_concat.mpr ⟨hsince, hleads⟩)

end Back

/-! ## Runs -/

/-- In every run of ranked lists in time order in which no theme that lost its place comes back
without a recovery, every theme that lost its place and is the incumbent again has re-earned it. -/
theorem places_reEarned (config : LeadershipHandoverConfig) {cycles : List RankedCycle}
    (htime : cycles.Pairwise fun earlier later => earlier.now ≤ later.now)
    (h : ∀ past cycle, past ++ [cycle] <+: cycles → NoneComesBack config past cycle) :
    PlacesReEarned config cycles := by
  intro before lost between hpre theme hloses hback
  have hsteps : ∀ part cycle, part ++ [cycle] <+: between →
      NoneComesBack config (before ++ lost :: part) cycle := by
    intro part cycle hpart
    refine h _ cycle (IsPrefix.trans ?_ hpre)
    obtain ⟨rest, rfl⟩ := hpart
    exact ⟨rest, by simp⟩
  rcases reEarned_or_not_leading (htime.sublist hpre.sublist) hloses hsteps between
    (prefix_refl between) with hearned | hsince
  · exact hearned
  · refine absurd ?_ ( always_iff_prefix.mp hsince between (prefix_refl between))
    rw [← run_append, append_assoc]
    exact ⟨.incumbent, hback, rfl⟩

/-! ## Fixed runs -/

/-- The incumbent `ai` with a share of the flow that changes by so much. -/
def flowCycle (flowShareDelta : Rat) (now : Int) : RankedCycle :=
  ⟨[{ leadingTheme "ai" 1 70 (2 / 10) with flowShareDelta }], now⟩

def recoveredCycles : List RankedCycle :=
  [flowCycle 0 0, flowCycle (-6 / 100) 5, flowCycle (-6 / 100) 25, flowCycle 0 30, flowCycle 0 50]

def rotatedCycles : List RankedCycle :=
  [flowCycle 0 0, flowCycle (-6 / 100) 5, flowCycle (-6 / 100) 25, flowCycle (-6 / 100) 86]

/-- The theme that recovers is the incumbent again after two cycles, and has re-earned it. -/
theorem places_reEarned_recovered :
    ((machine {}).run {} recoveredCycles).statusIn "ai" = some .incumbent ∧
      ReEarned {} "ai" ((machine {}).run {} (recoveredCycles.take 3)) (recoveredCycles.drop 3) := by
  refine ⟨by decide +kernel, ?_⟩
  refine places_reEarned {} (by decide +kernel) ?_ (recoveredCycles.take 2)
    (flowCycle (-6 / 100) 25) (recoveredCycles.drop 3) (prefix_refl _) "ai"
    ⟨.losingLeadership, by decide +kernel, rfl, by decide +kernel⟩ (by decide +kernel)
  refine forall_steps_cons.mpr ⟨by decide +kernel, forall_steps_cons.mpr ⟨by decide +kernel,
    forall_steps_cons.mpr ⟨by decide +kernel, forall_steps_cons.mpr ⟨by decide +kernel,
      forall_steps_cons.mpr ⟨by decide +kernel, forall_steps_nil⟩⟩⟩⟩⟩

/-- A theme that was rotated out is the incumbent in the next cycle, after one cycle of recovery
where two are asked for. -/
theorem rotated_out_comes_back : ¬ PlacesReEarned {} (rotatedCycles ++ [flowCycle 0 90]) := by
  intro h
  have hearned := h (rotatedCycles.take 3) (flowCycle (-6 / 100) 86) [flowCycle 0 90]
    (prefix_refl _) "ai" ⟨.rotatedOut, by decide +kernel, rfl, by decide +kernel⟩
    (by decide +kernel)
  rcases hearned with ⟨part, last, start, hpre, ⟨first, rest, hends, -, hcount⟩, -⟩ |
    ⟨part, hpre, hconfirmed⟩
  · -- there is one cycle to recover in
    obtain ⟨first', hsplit, -⟩ := hends
    have hlength := hpre.length_le
    rw [hsplit, length_append] at hlength
    have hone : [flowCycle 0 90].length = 1 := rfl
    have htwo : ({} : LeadershipHandoverConfig).incumbentRecoveryConfirmCycles = 2 := rfl
    omega
  · cases part with
    | nil =>
      revert hconfirmed
      decide +kernel
    | cons cycle rest =>
      obtain ⟨rfl, hrest⟩ := cons_prefix_cons.mp hpre
      rw [prefix_nil.mp hrest] at hconfirmed
      revert hconfirmed
      decide +kernel

end LeadershipHandoverEngine

end TradingCore.Themes
