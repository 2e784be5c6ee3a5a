import TradingCore.Base.Text
import Mathlib.Algebra.Order.Field.Rat
import Mathlib.Data.List.MinMax
import Mathlib.Data.List.Sort

/-!
# The signature of the theme inputs

`ThemeEngineRepository` (`trading/theme_engine/repository.py`): the tables of themes and of current
memberships, what is read from them, and `theme_input_signature`, two counts and two newest
`updated_at`, by which the runtime decides whether to read again. `CURRENT_TIMESTAMP` is the second
of the write: a row written twice in one second looks the same.

Stock codes are as `normalize_stock_code` gives them. A membership rebuild is a deletion followed
by upserts, so a run with rebuilds is a run of these writes.
-/

namespace TradingCore.Themes

open Base.Text List

/-! ## Rows that are not written -/

section Unwritten

variable {α τ : Type} [LinearOrder τ] {stamp : α → τ} {limit : WithBot τ} {rows rows' : List α}

/-- The rows of a table that are not newer than `limit`. -/
def settled (stamp : α → τ) (limit : WithBot τ) (rows : List α) : List α :=
  rows.filter fun row => stamp row ≤ limit

theorem settled_map {change : α → α}
    (h : ∀ row, change row = row ∨ limit < stamp (change row)) :
    (settled stamp limit (rows.map change)).Sublist (settled stamp limit rows) := by
  induction rows with
  | nil => exact Sublist.slnil
  | cons row rest ih =>
    simp only [settled, map_cons, filter_cons]
    rcases h row with hsame | hnew
    · rw [hsame]
      split
      · exact ih.cons_cons row
      · exact ih
    · rw [if_neg (by simpa using hnew)]
      split
      · exact ih.cons row
      · exact ih

theorem settled_append {row : α} (h : limit < stamp row) :
    settled stamp limit (rows ++ [row]) = settled stamp limit rows := by
  simp [settled, h]

theorem filter_eq_of_settled {visible : α → Bool}
    (hsub : (settled stamp limit rows').Sublist (settled stamp limit rows))
    (hlimit : ((rows.filter visible).map stamp).maximum = limit)
    (hnewest : ((rows'.filter visible).map stamp).maximum = limit)
    (hcount : (rows'.filter visible).length = (rows.filter visible).length) :
    rows'.filter visible = rows.filter visible := by
  have hall : ∀ table : List α, ((table.filter visible).map stamp).maximum = limit →
      (settled stamp limit table).filter visible = table.filter visible := by
    intro table hmax
    rw [settled, filter_filter]
    refine filter_congr fun row hrow => ?_
    cases hvisible : visible row with
    | false => simp
    | true =>
      have hmem : stamp row ∈ (table.filter visible).map stamp :=
        mem_map_of_mem (mem_filter.mpr ⟨hrow, hvisible⟩)
      simpa [hmax] using le_maximum_of_mem' hmem
  have h := hsub.filter visible
  rw [hall rows' hnewest, hall rows hlimit] at h
  exact h.eq_of_length hcount

end Unwritten

/-! ## The tables -/

inductive ThemeStatus
  | candidate
  | watch
  | active
  | stale
deriving DecidableEq

/-- A row of `canonical_themes`. -/
structure CanonicalTheme where
  themeId : String
  canonicalName : String
  displayName : String
  themeGroup : String := ""
  status : ThemeStatus := .candidate
  confidence : ℚ := 0
  tradeEligible : Bool := false
  (firstSeenAt lastSeenAt updatedAt : ℕ := 0)
deriving DecidableEq

/-- A row of `theme_membership_current`. -/
structure ThemeMembership where
  themeId : String
  stockCode : String
  stockName : String := ""
  membershipScore : ℚ := 0
  relationType : String := "unknown"
  sourceCount : ℕ := 0
  active : Bool := true
  tradeEligible : Bool := false
  updatedAt : ℕ := 0
deriving DecidableEq

/-- What tells a row of `theme_member_evidence` from the others. -/
structure ThemeMemberEvidence where
  (themeId stockCode source evidenceType relationType reason : String)
deriving DecidableEq

structure ThemeTables where
  canonicalThemes : List CanonicalTheme := []
  membershipCurrent : List ThemeMembership := []
  memberEvidence : List ThemeMemberEvidence := []

inductive ThemeWrite
  | upsertCanonicalTheme (theme : CanonicalTheme)
  | addMemberEvidence (evidence : ThemeMemberEvidence)
  | upsertCurrentMembership (membership : ThemeMembership)
  | deleteCurrentMembershipsForTheme (themeId : String)
  | purgeSources (sources : List String)

namespace ThemeTables

variable (tables : ThemeTables) (now : ℕ)

def upsertCanonicalTheme (theme : CanonicalTheme) : ThemeTables :=
  let written := { theme with firstSeenAt := now, lastSeenAt := now, updatedAt := now }
  { tables with canonicalThemes :=
      if tables.canonicalThemes.any (·.themeId = theme.themeId) then
        tables.canonicalThemes.map fun row =>
          if row.themeId = theme.themeId then { written with firstSeenAt := row.firstSeenAt }
          else row
      else tables.canonicalThemes ++ [written] }

def addMemberEvidence (evidence : ThemeMemberEvidence) : ThemeTables :=
  if evidence ∈ tables.memberEvidence then tables
  else { tables with memberEvidence := tables.memberEvidence ++ [evidence] }

def upsertCurrentMembership (membership : ThemeMembership) : ThemeTables :=
  let written := { membership with updatedAt := now }
  let same (row : ThemeMembership) : Bool :=
    row.themeId = membership.themeId ∧ row.stockCode = membership.stockCode
  { tables with membershipCurrent :=
      if tables.membershipCurrent.any same then
        tables.membershipCurrent.map fun row => if same row then written else row
      else tables.membershipCurrent ++ [written] }

def deleteCurrentMembershipsForTheme (themeId : String) : ThemeTables :=
  { tables with membershipCurrent := tables.membershipCurrent.filter (·.themeId ≠ themeId) }

/-- The themes with evidence from a purged source lose their memberships, and those left without
evidence go stale. -/
def purgeSources (sources : List String) : ThemeTables :=
  let sourceNames := distinct strip sources
  let affectedThemeIds :=
    ((tables.memberEvidence.filter (·.source ∈ sourceNames)).map (·.themeId)).filter (· ≠ "")
  let evidence := tables.memberEvidence.filter (·.source ∉ sourceNames)
  { memberEvidence := evidence
    membershipCurrent := tables.membershipCurrent.filter (·.themeId ∉ affectedThemeIds)
    canonicalThemes := tables.canonicalThemes.map fun row =>
      if row.themeId ∈ affectedThemeIds ∧ row.themeId ∉ evidence.map (·.themeId) then
        { row with status := .stale, tradeEligible := false, confidence := 0, updatedAt := now }
      else row }

/-- One write in the second `now`. -/
def write : ThemeWrite → ThemeTables
  | .upsertCanonicalTheme theme => tables.upsertCanonicalTheme now theme
  | .addMemberEvidence evidence => tables.addMemberEvidence evidence
  | .upsertCurrentMembership membership => tables.upsertCurrentMembership now membership
  | .deleteCurrentMembershipsForTheme themeId => tables.deleteCurrentMembershipsForTheme themeId
  | .purgeSources sources => tables.purgeSources now sources

def run (writes : List (ℕ × ThemeWrite)) : ThemeTables :=
  writes.foldl (fun tables write => tables.write write.1 write.2) tables

/-! ## What is read -/

variable (statuses : List ThemeStatus) (active : Bool)

def selectedThemes : List CanonicalTheme :=
  tables.canonicalThemes.filter fun theme => statuses = [] ∨ theme.status ∈ statuses

/-- The join of the memberships with the selected themes. -/
def selectedMembers : List ThemeMembership :=
  tables.membershipCurrent.filter fun member =>
    (active → member.active) ∧ member.themeId ∈ (tables.selectedThemes statuses).map (·.themeId)

/-- `list_canonical_themes`, for the statuses of a filter. -/
def listCanonicalThemes : List CanonicalTheme :=
  (tables.selectedThemes statuses).insertionSort (·.canonicalName ≤ ·.canonicalName)

def listMembersByThemeIds (themeIds : List String) : List (String × List ThemeMembership) :=
  (distinct strip themeIds).map fun themeId =>
    (themeId, (tables.membershipCurrent.filter fun member =>
      member.themeId = themeId ∧ (active → member.active)).insertionSort fun a b =>
        b.membershipScore < a.membershipScore ∨
          (b.membershipScore = a.membershipScore ∧ a.stockCode ≤ b.stockCode))

/-- What the runtime reads: the themes, and their memberships. -/
def themeInputs : List CanonicalTheme × List (String × List ThemeMembership) :=
  (tables.listCanonicalThemes statuses,
    tables.listMembersByThemeIds active ((tables.listCanonicalThemes statuses).map (·.themeId)))

def maxThemeUpdatedAt : WithBot ℕ := ((tables.selectedThemes statuses).map (·.updatedAt)).maximum

def maxMemberUpdatedAt : WithBot ℕ :=
  ((tables.selectedMembers statuses active).map (·.updatedAt)).maximum

def themeInputSignature : ℕ × ℕ × WithBot ℕ × WithBot ℕ :=
  ((tables.selectedThemes statuses).length, (tables.selectedMembers statuses active).length,
    tables.maxThemeUpdatedAt statuses, tables.maxMemberUpdatedAt statuses active)

/-! ## What a write leaves alone -/

variable {tables : ThemeTables} {now : ℕ} {limit : WithBot ℕ}

theorem settled_themes_write (h : limit < WithBot.some now) (write : ThemeWrite) :
    (settled (·.updatedAt) limit (tables.write now write).canonicalThemes).Sublist
      (settled (·.updatedAt) limit tables.canonicalThemes) := by
  cases write with
  | upsertCanonicalTheme theme =>
    simp only [ThemeTables.write, upsertCanonicalTheme]
    split
    · refine settled_map fun row => ?_
      by_cases hrow : row.themeId = theme.themeId
      · exact .inr (by rw [if_pos hrow]; exact h)
      · exact .inl (if_neg hrow)
    · rw [settled_append]
      exact h
  | addMemberEvidence evidence =>
    simp only [ThemeTables.write, addMemberEvidence]
    split <;> exact Sublist.refl _
  | upsertCurrentMembership membership => exact Sublist.refl _
  | deleteCurrentMembershipsForTheme themeId => exact Sublist.refl _
  | purgeSources sources =>
    refine settled_map fun row => ?_
    split
    · exact .inr h
    · exact .inl rfl

theorem settled_members_write (h : limit < WithBot.some now) (write : ThemeWrite) :
    (settled (·.updatedAt) limit (tables.write now write).membershipCurrent).Sublist
      (settled (·.updatedAt) limit tables.membershipCurrent) := by
  cases write with
  | upsertCanonicalTheme theme => exact Sublist.refl _
  | addMemberEvidence evidence =>
    simp only [ThemeTables.write, addMemberEvidence]
    split <;> exact Sublist.refl _
  | upsertCurrentMembership membership =>
    simp only [ThemeTables.write, upsertCurrentMembership]
    split
    · refine settled_map fun row => ?_
      split
      · exact .inr h
      · exact .inl rfl
    · rw [settled_append]
      exact h
  | deleteCurrentMembershipsForTheme themeId => exact filter_sublist.filter _
  | purgeSources sources => exact filter_sublist.filter _

/-- Writes later than `limit` write no row that is settled at `limit`. -/
theorem settled_run {α : Type} {stamp : α → ℕ} {rows : ThemeTables → List α}
    {writes : List (ℕ × ThemeWrite)}
    (hstep : ∀ tables now write, limit < WithBot.some now →
      (settled stamp limit (rows (ThemeTables.write tables now write))).Sublist
        (settled stamp limit (rows tables)))
    (hlater : ∀ write ∈ writes, limit < WithBot.some write.1) :
    (settled stamp limit (rows (tables.run writes))).Sublist
      (settled stamp limit (rows tables)) := by
  induction writes generalizing tables with
  | nil => exact Sublist.refl _
  | cons write rest ih =>
    have hnext := hstep tables write.1 write.2 (hlater write mem_cons_self)
    exact (ih fun w hw => hlater w (mem_cons_of_mem write hw)).trans hnext

/-! ## What the signature says -/

theorem members_of_selected {themeId : String}
    (h : themeId ∈ (tables.selectedThemes statuses).map (·.themeId)) :
    (tables.membershipCurrent.filter fun member =>
        member.themeId = themeId ∧ (active → member.active)) =
      (tables.selectedMembers statuses active).filter (·.themeId = themeId) := by
  rw [selectedMembers, filter_filter]
  refine filter_congr fun member _ => ?_
  by_cases hid : member.themeId = themeId
  · subst hid
    simp [h]
  · simp [hid]

theorem themeInputs_congr {tables' : ThemeTables}
    (hstripped : ∀ theme ∈ tables.selectedThemes statuses, strip theme.themeId = theme.themeId)
    (hthemes : tables'.selectedThemes statuses = tables.selectedThemes statuses)
    (hmembers : tables'.selectedMembers statuses active = tables.selectedMembers statuses active) :
    tables'.themeInputs statuses active = tables.themeInputs statuses active := by
  have hlist : tables'.listCanonicalThemes statuses = tables.listCanonicalThemes statuses := by
    rw [listCanonicalThemes, hthemes, listCanonicalThemes]
  unfold themeInputs
  rw [hlist]
  refine congrArg (Prod.mk _) (map_congr_left fun themeId hid => ?_)
  obtain ⟨-, text, htext, rfl⟩ := mem_distinct.mp hid
  obtain ⟨theme, htheme, rfl⟩ := mem_map.mp htext
  have hselected := (mem_insertionSort _).mp htheme
  have hmem : strip theme.themeId ∈ (tables.selectedThemes statuses).map (·.themeId) :=
    (hstripped theme hselected).symm ▸ mem_map_of_mem hselected
  rw [members_of_selected statuses active hmem, ← hmembers,
    ← members_of_selected statuses active (by rw [hthemes]; exact hmem)]

/-- **The signature is sound for later seconds.** In a run whose writes all fall in later seconds
than the newest selected rows, an equal signature means equal inputs. -/
theorem signature_sound {writes : List (ℕ × ThemeWrite)}
    (hstripped : ∀ theme ∈ tables.selectedThemes statuses, strip theme.themeId = theme.themeId)
    (hlater : ∀ write ∈ writes, tables.maxThemeUpdatedAt statuses < WithBot.some write.1 ∧
      tables.maxMemberUpdatedAt statuses active < WithBot.some write.1)
    (hsame : (tables.run writes).themeInputSignature statuses active =
      tables.themeInputSignature statuses active) :
    (tables.run writes).themeInputs statuses active = tables.themeInputs statuses active := by
  simp only [themeInputSignature, Prod.mk.injEq] at hsame
  obtain ⟨hthemeCount, hmemberCount, hthemeMax, hmemberMax⟩ := hsame
  have hthemes : (tables.run writes).selectedThemes statuses = tables.selectedThemes statuses :=
    filter_eq_of_settled
      (settled_run (fun tables now write h => settled_themes_write h write)
        fun write hw => (hlater write hw).1)
      rfl hthemeMax hthemeCount
  refine themeInputs_congr statuses active hstripped hthemes ?_
  -- with the same themes selected, the join is one filter of the memberships before and after
  simp only [selectedMembers, maxMemberUpdatedAt, hthemes] at hmemberCount hmemberMax ⊢
  exact filter_eq_of_settled
    (settled_run (fun tables now write h => settled_members_write h write)
      fun write hw => (hlater write hw).2)
    rfl hmemberMax hmemberCount

/-! ## Fixed writes -/

/-- A theme and its only membership are written in second 100, and the membership again, with
another score, in the same second. -/
theorem second_write_unseen :
    ¬ ∀ (statuses : List ThemeStatus) (active : Bool) (before writes : List (ℕ × ThemeWrite)),
      let tables := run {} before
      (tables.run writes).themeInputSignature statuses active =
          tables.themeInputSignature statuses active →
        (tables.run writes).themeInputs statuses active = tables.themeInputs statuses active := by
  intro h
  have hread := h [.active] true
    [(100, .upsertCanonicalTheme { themeId := "ai", canonicalName := "AI", displayName := "AI",
                                   status := .active }),
      (100, .upsertCurrentMembership { themeId := "ai", stockCode := "000001",
                                       membershipScore := 9 / 10 })]
    [(100, .upsertCurrentMembership { themeId := "ai", stockCode := "000001",
                                      membershipScore := 7 / 10 })]
    (by decide +kernel)
  exact absurd hread (by decide +kernel)

/-- In a later second a theme that is not selected gets a membership. -/
theorem signature_sound_unselected :
    (run { canonicalThemes := [⟨"ai", "AI", "AI", "", .active, 0, false, 99, 100, 100⟩] }
        [(101, .upsertCurrentMembership { themeId := "bio", stockCode := "000002" })]).themeInputs
        [.active] true =
      themeInputs { canonicalThemes := [⟨"ai", "AI", "AI", "", .active, 0, false, 99, 100, 100⟩] }
        [.active] true :=
  signature_sound [.active] true (by decide +kernel) (by decide +kernel) (by decide +kernel)

end ThemeTables

end TradingCore.Themes
