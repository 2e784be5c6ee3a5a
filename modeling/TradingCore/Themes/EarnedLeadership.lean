import TradingCore.Base.Streak
import TradingCore.Themes.LeadershipHandover

/-!
# A takeover is earned

While there is an incumbent, another theme comes to lead only after it has challenged it for the
cycles and the seconds that the configuration asks for, and no two themes lead, but for the
incumbent in the very cycle that confirms the theme that follows it. An incumbent that has left the
list is remembered for one cycle; after that its challengers are compared with nothing.
-/

namespace TradingCore.Themes

open Base List

/-- The rank of a theme is its place in the list. -/
def Ranked (ranked : List ThemeLeadershipSnapshot) : Prop :=
  ∀ entry ∈ ranked.zipIdx, entry.1.currentRank = entry.2 + 1
deriving Decidable

/-- The theme has the status of a leader in a result. -/
def Leads (updated : List ThemeLeadershipSnapshot) (theme : String) : Prop :=
  ∃ item ∈ updated, item.themeId = theme ∧ item.status.leads = true
deriving Decidable

/-- Another theme is confirmed in the place of the theme. -/
def Succeeded (updated : List ThemeLeadershipSnapshot) (theme : String) : Prop :=
  ∃ item ∈ updated, item.themeId ≠ "" ∧ item.themeId ≠ theme ∧ item.status = .takeoverConfirmed

namespace LeadershipHandoverEngine

/-- No two themes of a result lead, but for an incumbent that is being succeeded. -/
def OneLeader (engine : LeadershipHandoverEngine) (updated : List ThemeLeadershipSnapshot) :
    Prop :=
  ∀ theme other, theme ≠ "" → other ≠ "" → Leads updated theme → Leads updated other →
    ¬ (theme = engine.incumbentThemeId ∧ Succeeded updated theme) →
    ¬ (other = engine.incumbentThemeId ∧ Succeeded updated other) → theme = other

/-- The theme is eligible, ranked first and ahead of the incumbent, as far as it is known. -/
def Challenges (config : LeadershipHandoverConfig) (theme : String)
    (engine : LeadershipHandoverEngine) (cycle : RankedCycle) : Prop :=
  ∃ top ∈ cycle.ranked.head?, top.themeId = theme ∧ canTakeover top = true ∧
    challengerAdvantage top (engine.incumbentReference cycle.ranked) config = true

/-- The theme has challenged for the cycles and the seconds of the configuration. -/
def TakeoverEarned (config : LeadershipHandoverConfig) (theme : String) (past : List RankedCycle)
    (now : Int) : Prop :=
  ∃ start, (machine config).Streak RankedCycle.now (Challenges config theme) {} past
    config.minConfirmCycles start ∧ start + config.minConfirmSec ≤ now

/-- In every cycle of the run there is one leader, and while there is an incumbent any other leader
has earned it. -/
def LeadershipEarned (config : LeadershipHandoverConfig) (cycles : List RankedCycle) : Prop :=
  ∀ past cycle, past ++ [cycle] <+: cycles →
    OneLeader ((machine config).run {} past)
        ((machine config).out ((machine config).run {} past) cycle).1 ∧
      ∀ theme, theme ≠ "" → ((machine config).run {} past).incumbentThemeId ≠ "" →
        theme ≠ ((machine config).run {} past).incumbentThemeId →
        Leads ((machine config).out ((machine config).run {} past) cycle).1 theme →
        TakeoverEarned config theme (past ++ [cycle]) cycle.now

/-! ## The status of an entry -/

section Status

variable {config : LeadershipHandoverConfig} {item : ThemeLeadershipSnapshot}
  {previous : Option ThemeLeadershipSnapshot} {takeoverTheme previousIncumbent : String}
  {incumbentReference : Option ThemeLeadershipSnapshot} {now : Int}

/-- `INCUMBENT` goes to the first theme while there is no incumbent, or to the incumbent. -/
theorem incumbent_of_statusOf (h : statusOf config item previous takeoverTheme previousIncumbent
      incumbentReference now = .incumbent) :
    previousIncumbent = "" ∧ item.currentRank = 1 ∨ item.themeId = previousIncumbent := by
  unfold statusOf at h
  generalize losingBefore previous = losing at h
  split at h
  · cases losing with
    | none => cases h
    | some previous =>
      dsimp only at h
      split at h <;> cases h
  · split at h
    · next hfirst => exact .inl hfirst
    · split at h
      · next hincumbent => exact .inr hincumbent
      · repeat' split at h
        all_goals cases h

/-- `TAKEOVER_PENDING` goes to a theme that takes over from another one. -/
theorem pending_of_statusOf (h : statusOf config item previous takeoverTheme previousIncumbent
      incumbentReference now = .takeoverPending) :
    item.themeId ≠ previousIncumbent ∧ item.themeId = takeoverTheme := by
  unfold statusOf at h
  generalize losingBefore previous = losing at h
  split at h
  · cases losing with
    | none => cases h
    | some previous =>
      dsimp only at h
      split at h <;> cases h
  · split at h
    · cases h
    · split at h
      · cases losing with
        | none =>
          dsimp only at h
          split at h <;> cases h
        | some previous =>
          dsimp only at h
          repeat' split at h
          all_goals cases h
      · next hother =>
          split at h
          · next htakeover => exact ⟨hother, htakeover.1⟩
          · split at h <;> cases h

theorem statusOf_ne_confirmed : statusOf config item previous takeoverTheme previousIncumbent
    incumbentReference now ≠ .takeoverConfirmed := by
  unfold statusOf
  repeat' split
  all_goals simp

end Status

/-! ## A cycle -/

section Cycle

variable {config : LeadershipHandoverConfig} {engine : LeadershipHandoverEngine}
  {cycle : RankedCycle} {item : ThemeLeadershipSnapshot} {theme : String}

theorem updateItem_leads (h : (engine.updateItem config cycle item).status.leads = true) :
    (engine.updateItem config cycle item).status = .incumbent ∧
        (engine.incumbentThemeId = "" ∧ item.currentRank = 1 ∨
          item.themeId = engine.incumbentThemeId) ∨
      (engine.updateItem config cycle item).status = .takeoverConfirmed ∧
        engine.confirms config cycle item = true := by
  have hstatus : (engine.updateItem config cycle item).status =
      if engine.confirms config cycle item then .takeoverConfirmed
      else (engine.pendingOf config cycle item).1 := rfl
  rw [hstatus] at h ⊢
  cases hconfirms : engine.confirms config cycle item with
  | true => exact .inr ⟨rfl, rfl⟩
  | false =>
    rw [hconfirms] at h
    simp only [Bool.false_eq_true, if_false, ThemeLeadershipStatus.leads, mem_cons,
      not_mem_nil, or_false, decide_eq_true_eq] at h ⊢
    rcases h with hincumbent | hconfirmed
    · exact .inl ⟨hincumbent, incumbent_of_statusOf hincumbent⟩
    · exact absurd hconfirmed statusOf_ne_confirmed

theorem pending_of_confirms (h : engine.confirms config cycle item = true) :
    (engine.pendingOf config cycle item).1 = .takeoverPending := by
  simp only [confirms, decide_eq_true_eq] at h
  exact h.1

theorem challenges_of_takeoverTheme (hne : theme ≠ "") (hother : theme ≠ engine.incumbentThemeId)
    (h : theme = engine.takeoverTheme config cycle.ranked) :
    Challenges config theme engine cycle := by
  unfold takeoverTheme takeoverCandidate at h
  cases htop : cycle.ranked.head? with
  | none =>
    rw [htop] at h
    exact absurd h hne
  | some top =>
    rw [htop] at h
    dsimp only at h
    split at h
    · exact absurd h hne
    · next heligible =>
        rw [Bool.not_eq_false] at heligible
        split at h
        · next hunopposed =>
            have hvacant : engine.incumbentThemeId = "" :=
              hunopposed.resolve_right fun hsame => hother (h.trans hsame)
            have hunknown : engine.incumbentReference cycle.ranked = none := by
              simp [incumbentReference, incumbentPrevious, hvacant]
            exact ⟨top, htop, h.symm, heligible, by rw [hunknown]; rfl⟩
        · split at h
          · next hahead => exact ⟨top, htop, h.symm, heligible, hahead⟩
          · exact absurd h hne

theorem challenges_of_pending (hne : item.themeId ≠ "")
    (h : (engine.pendingOf config cycle item).1 = .takeoverPending) :
    Challenges config item.themeId engine cycle := by
  obtain ⟨hother, htakeover⟩ := pending_of_statusOf h
  exact challenges_of_takeoverTheme hne hother htakeover

theorem head_of_first {ranked : List ThemeLeadershipSnapshot} (h : Ranked ranked)
    (hmem : item ∈ ranked) (hfirst : item.currentRank = 1) : ranked.head? = some item := by
  obtain ⟨place, hplace⟩ := mem_iff_getElem?.mp hmem
  have hrank : item.currentRank = place + 1 :=
    h (item, place) (mem_zipIdx_iff_getElem?.mpr hplace)
  have hzero : place = 0 := by omega
  rw [hzero, ← head?_eq_getElem?] at hplace
  exact hplace

theorem cases_of_leads (hranked : Ranked cycle.ranked) (hne : theme ≠ "")
    (h : Leads (cycle.ranked.map (engine.updateItem config cycle)) theme) :
    engine.incumbentThemeId = "" ∧ cycle.ranked.head?.map (·.themeId) = some theme ∨
      theme = engine.incumbentThemeId ∨
      theme ≠ engine.incumbentThemeId ∧ Challenges config theme engine cycle ∧
        ∃ item ∈ cycle.ranked, item.themeId = theme ∧ engine.confirms config cycle item = true := by
  obtain ⟨updated, hmem, rfl, hleads⟩ := h
  obtain ⟨item, hitem, rfl⟩ := mem_map.mp hmem
  have hid : (engine.updateItem config cycle item).themeId = item.themeId := rfl
  rw [hid] at hne ⊢
  rcases updateItem_leads hleads with ⟨-, hvacant | hincumbent⟩ | ⟨-, hconfirms⟩
  · rw [head_of_first hranked hitem hvacant.2]
    exact .inl ⟨hvacant.1, rfl⟩
  · exact .inr (.inl hincumbent)
  · have hpending := pending_of_confirms hconfirms
    exact .inr (.inr ⟨(pending_of_statusOf hpending).1, challenges_of_pending hne hpending,
      item, hitem, rfl, hconfirms⟩)

theorem Challenges.head (h : Challenges config theme engine cycle) :
    cycle.ranked.head?.map (·.themeId) = some theme := by
  obtain ⟨top, htop, rfl, -⟩ := h
  rw [htop, Option.map_some]

theorem succeeded_of_confirms {other : String} (hne : theme ≠ "") (hother : theme ≠ other)
    (h : ∃ item ∈ cycle.ranked, item.themeId = theme ∧ engine.confirms config cycle item = true) :
    Succeeded (cycle.ranked.map (engine.updateItem config cycle)) other := by
  obtain ⟨item, hitem, rfl, hconfirms⟩ := h
  refine ⟨engine.updateItem config cycle item, mem_map_of_mem hitem, hne, hother, ?_⟩
  have hstatus : (engine.updateItem config cycle item).status =
      if engine.confirms config cycle item then .takeoverConfirmed
      else (engine.pendingOf config cycle item).1 := rfl
  rw [hstatus, if_pos hconfirms]

theorem oneLeader (hranked : Ranked cycle.ranked) :
    engine.OneLeader (cycle.ranked.map (engine.updateItem config cycle)) := by
  intro theme other hne hne' hleads hleads' hstays hstays'
  rcases cases_of_leads hranked hne hleads with
    ⟨hvacant, hfirst⟩ | hincumbent | ⟨htakes, hchallenges, hconfirms⟩
  · rcases cases_of_leads hranked hne' hleads' with ⟨-, hfirst'⟩ | hincumbent' | ⟨-, hchallenges', -⟩
    · exact Option.some.inj (hfirst.symm.trans hfirst')
    · exact absurd (hincumbent'.trans hvacant) hne'
    · exact Option.some.inj (hfirst.symm.trans hchallenges'.head)
  · rcases cases_of_leads hranked hne' hleads' with
      ⟨hvacant', -⟩ | hincumbent' | ⟨htakes', -, hconfirms'⟩
    · exact absurd (hincumbent.trans hvacant') hne
    · exact hincumbent.trans hincumbent'.symm
    · -- the incumbent is succeeded by the other theme
      exact absurd ⟨hincumbent, succeeded_of_confirms hne' (hincumbent ▸ htakes') hconfirms'⟩ hstays
  · rcases cases_of_leads hranked hne' hleads' with ⟨-, hfirst'⟩ | hincumbent' | ⟨-, hchallenges', -⟩
    · exact Option.some.inj (hchallenges.head.symm.trans hfirst')
    · exact absurd ⟨hincumbent', succeeded_of_confirms hne (hincumbent' ▸ htakes) hconfirms⟩ hstays'
    · exact Option.some.inj (hchallenges.head.symm.trans hchallenges'.head)

end Cycle

/-! ## What a snapshot says of the past -/

/-- The last snapshot of a pending theme counts the cycles that it has challenged. -/
def Tracked (config : LeadershipHandoverConfig) (theme : String) (past : List RankedCycle)
    (item : ThemeLeadershipSnapshot) : Prop :=
  item.status = .takeoverPending → ∃ start, item.statusEnteredAt = some start ∧
    (machine config).Streak RankedCycle.now (Challenges config theme) {} past
      item.takeoverPendingCycleCount start

section Step

variable {config : LeadershipHandoverConfig} {past : List RankedCycle} {cycle : RankedCycle}
  {item : ThemeLeadershipSnapshot}

/-- The count and the time of a pending entry measure its challenge, this cycle included. -/
theorem streak_of_pending (hne : item.themeId ≠ "")
    (hbefore : ∀ before ∈ ((machine config).run {} past).previous.get? item.themeId,
      Tracked config item.themeId past before)
    (h : (((machine config).run {} past).pendingOf config cycle item).1 = .takeoverPending) :
    (machine config).Streak RankedCycle.now (Challenges config item.themeId) {} (past ++ [cycle])
      (((machine config).run {} past).pendingOf config cycle item).2.2
      (((machine config).run {} past).pendingOf config cycle item).2.1 := by
  have hchallenges := challenges_of_pending hne h
  unfold pendingOf at h ⊢
  dsimp only at h ⊢
  rw [h]
  cases hprevious : ((machine config).run {} past).previous.get? item.themeId with
  | none => exact Machine.Streak.begins hchallenges (Int.le_refl 1)
  | some before =>
    simp only [pendingCycleCount, ne_eq, not_true_eq_false, if_false]
    by_cases hpending : before.status = .takeoverPending
    · obtain ⟨start, hstart, hstreak⟩ := hbefore before hprevious hpending
      rw [if_pos hpending, if_pos hpending, hstart, Option.getD_some]
      exact hstreak.goesOn hchallenges
    · rw [if_neg hpending, if_neg hpending]
      exact Machine.Streak.begins hchallenges (Int.le_refl 1)

theorem tracked_next (hne : item.themeId ≠ "")
    (hbefore : ∀ before ∈ ((machine config).run {} past).previous.get? item.themeId,
      Tracked config item.themeId past before) :
    Tracked config item.themeId (past ++ [cycle])
      (((machine config).run {} past).updateItem config cycle item) := by
  generalize hengine : (machine config).run {} past = engine at hbefore ⊢
  intro hpending
  have hstatus : (engine.updateItem config cycle item).status =
      if engine.confirms config cycle item then .takeoverConfirmed
      else (engine.pendingOf config cycle item).1 := rfl
  rw [hstatus] at hpending
  split at hpending
  · cases hpending
  · next hconfirms =>
      have hentered : (engine.updateItem config cycle item).statusEnteredAt =
          some (engine.pendingOf config cycle item).2.1 := by
        unfold updateItem
        simp [hconfirms]
      have hcount : (engine.updateItem config cycle item).takeoverPendingCycleCount =
          (engine.pendingOf config cycle item).2.2 := by
        unfold updateItem
        simp [hconfirms, hpending]
      subst hengine
      refine ⟨_, hentered, ?_⟩
      rw [hcount]
      exact streak_of_pending hne hbefore hpending

theorem get?_next {engine : LeadershipHandoverEngine} {theme : String}
    {updated : ThemeLeadershipSnapshot}
    (h : ((machine config).next engine cycle).previous.get? theme = some updated) :
    ∃ item ∈ cycle.ranked, item.themeId = theme ∧ theme ≠ "" ∧
      updated = engine.updateItem config cycle item := by
  have hget : ((machine config).next engine cycle).previous.get? theme =
      ((cycle.ranked.map (engine.updateItem config cycle)).filter
        (·.themeId ≠ "")).reverse.find? (·.themeId = theme) :=
    Dict.get?_ofList_map ThemeLeadershipSnapshot.themeId _ theme
  rw [hget] at h
  have hid : updated.themeId = theme := by simpa using find?_some h
  have hmem := mem_reverse.mp (mem_of_find?_eq_some h)
  obtain ⟨hmapped, hnamed⟩ := mem_filter.mp hmem
  obtain ⟨item, hitem, rfl⟩ := mem_map.mp hmapped
  exact ⟨item, hitem, hid, by simpa [hid] using hnamed, rfl⟩

end Step

/-! ## Runs -/

theorem tracked_run (config : LeadershipHandoverConfig) (past : List RankedCycle) :
    ∀ theme, ∀ before ∈ ((machine config).run {} past).previous.get? theme,
      Tracked config theme past before := by
  refine prefix_induction (Q := fun past => ∀ theme,
    ∀ before ∈ ((machine config).run {} past).previous.get? theme,
      Tracked config theme past before) ?_ ?_ past (prefix_refl past)
  · intro theme before hsome
    simp at hsome
  · intro past cycle _ ih theme before hsome
    rw [Machine.run_concat] at hsome
    obtain ⟨item, -, rfl, hne, rfl⟩ := get?_next hsome
    exact tracked_next hne (ih item.themeId)

theorem earned_of_confirms {config : LeadershipHandoverConfig} {past : List RankedCycle}
    {cycle : RankedCycle} {item : ThemeLeadershipSnapshot}
    (htime : (past ++ [cycle]).Pairwise fun earlier later => earlier.now ≤ later.now)
    (hne : item.themeId ≠ "")
    (h : ((machine config).run {} past).confirms config cycle item = true) :
    TakeoverEarned config item.themeId (past ++ [cycle]) cycle.now := by
  have hstreak := streak_of_pending hne (tracked_run config past item.themeId)
    (pending_of_confirms h)
  simp only [confirms, takeoverConfirmed, decide_eq_true_eq] at h
  obtain ⟨-, -, -, hseconds, hcycles⟩ := h
  obtain ⟨first, hmem, hstart⟩ := hstreak.start_mem
  refine ⟨_, hstreak.shorten hcycles, ?_⟩
  have hle : first.now ≤ cycle.now := by
    rcases mem_append.mp hmem with hpast | hlast
    · exact (pairwise_append.mp htime).2.2 first hpast cycle mem_cons_self
    · rw [mem_singleton.mp hlast]
  rw [← hstart] at hseconds ⊢
  unfold elapsedSec at hseconds
  dsimp only at hseconds
  omega

/-- In every run of ranked lists in time order there is one leader in every cycle, but for an
incumbent that is being succeeded, and while there is an incumbent every other leader has earned
the takeover. -/
theorem leadership_is_earned (config : LeadershipHandoverConfig) {cycles : List RankedCycle}
    (hranked : ∀ cycle ∈ cycles, Ranked cycle.ranked)
    (htime : cycles.Pairwise fun earlier later => earlier.now ≤ later.now) :
    LeadershipEarned config cycles := by
  intro past cycle hpre
  have hlist : Ranked cycle.ranked := hranked cycle (hpre.subset (by simp))
  refine ⟨oneLeader hlist, ?_⟩
  intro theme hne hincumbent hother hleads
  rcases cases_of_leads hlist hne hleads with hvacant | hsame | ⟨-, -, item, -, rfl, hconfirms⟩
  · exact absurd hvacant.1 hincumbent
  · exact absurd hsame hother
  · exact earned_of_confirms (htime.sublist hpre.sublist) hne hconfirms

/-! ## Fixed runs -/

def leadingTheme (themeId : String) (rank : Int) (score share : Rat) : ThemeLeadershipSnapshot where
  themeId
  currentRank := rank
  recentFlowScore := 50
  leadershipScore := score
  flowShare := share
  themeState := some { themeId, themeState := .leadingTheme }

/-- The incumbent `ai` alone. -/
def incumbentCycle (now : Int) : RankedCycle := ⟨[leadingTheme "ai" 1 70 (2 / 10)], now⟩

/-- The theme `battery` ahead of `ai`. -/
def challengeCycle (now : Int) : RankedCycle :=
  ⟨[leadingTheme "battery" 1 82 (28 / 100), leadingTheme "ai" 2 70 (2 / 10)], now⟩

/-- The theme `battery` alone, with a lower score than `ai` had. -/
def vanishedCycle (now : Int) : RankedCycle := ⟨[leadingTheme "battery" 1 40 (1 / 10)], now⟩

def challengeCycles : List RankedCycle :=
  [incumbentCycle 0, challengeCycle 5, challengeCycle 20, challengeCycle 36]

def vanishedCycles : List RankedCycle :=
  [incumbentCycle 0, vanishedCycle 5, vanishedCycle 10, vanishedCycle 25]

def unnamedCycle : RankedCycle :=
  ⟨[leadingTheme "ai" 1 70 (2 / 10), leadingTheme "" 2 60 (1 / 10)], 0⟩

/-- The takeover after three cycles in half a minute is earned. -/
theorem leadership_is_earned_challengeCycles :
    (∀ cycle ∈ challengeCycles, Ranked cycle.ranked) ∧
      TakeoverEarned {} "battery" challengeCycles 36 :=
  ⟨by decide +kernel,
    (@leadership_is_earned {} challengeCycles (by decide +kernel) (by decide +kernel)
      (challengeCycles.take 3) (challengeCycle 36) (prefix_refl _)).2 "battery"
      (by decide) (by decide +kernel) (by decide +kernel) (by decide +kernel)⟩

/-- In the cycle of the takeover the old and the new incumbent lead; a theme takes over from an
incumbent that has left the list without ever being ahead of it; and a first theme leads beside an
entry without an id. -/
theorem vanished_incumbent_is_not_compared :
    (Leads ((machine {}).out ((machine {}).run {} (challengeCycles.take 3))
          (challengeCycle 36)).1 "ai" ∧
        Leads ((machine {}).out ((machine {}).run {} (challengeCycles.take 3))
          (challengeCycle 36)).1 "battery") ∧
      (((machine {}).run {} vanishedCycles).incumbentThemeId = "ai" ∧
        Leads ((machine {}).out ((machine {}).run {} vanishedCycles) (vanishedCycle 41)).1
          "battery" ∧
        ∀ cycle ∈ vanishedCycles ++ [vanishedCycle 41], ∀ item ∈ cycle.ranked,
          item.themeId = "battery" →
            challengerAdvantage item (some (leadingTheme "ai" 1 70 (2 / 10))) {} = false) ∧
      (Leads ((machine {}).out {} unnamedCycle).1 "ai" ∧
        Leads ((machine {}).out {} unnamedCycle).1 "") := by
  decide +kernel

end LeadershipHandoverEngine

end TradingCore.Themes
