import TradingCore.Candidates.Ingestion

/-!
# What is recorded of a candidate's sources

Sources include a stock and withdraw, in any order and any number of times. The source map, the
list of active types, the primary source (kept twice) and the candidate's state are separate
copies of that history. An include rewrites all of them. A withdrawal rewrites the source map and
the list of types only: it leaves the primary source as it was, even if that is the one that
withdrew, and it removes a candidate only from the four states before `READY`.
`always_sources_sound_iff` gives the runs in which the copies agree.
-/

namespace TradingCore.Candidates

open Base CandidateFsmService List Dict

/-! ## Active sources -/

def activeKeys (sourceMap : Dict String SourceEntry) : List String :=
  (sourceMap.entries.filter (·.2.active)).map (·.1)

section SourceMaps

variable {sourceMap : Dict String SourceEntry} {key : String}

theorem mem_activeKeys :
    key ∈ activeKeys sourceMap ↔
      ∃ entry, sourceMap.get? key = some entry ∧ entry.active = true := by
  unfold activeKeys
  constructor
  · intro h
    obtain ⟨⟨key', entry⟩, hmem, rfl⟩ := mem_map.mp h
    obtain ⟨hentry, hactive⟩ := mem_filter.mp hmem
    exact ⟨entry, mem_entries_iff.mp hentry, hactive⟩
  · rintro ⟨entry, hget, hactive⟩
    exact mem_map.mpr ⟨(key, entry), mem_filter.mpr ⟨mem_entries_iff.mpr hget, hactive⟩, rfl⟩

theorem mem_activeEntries {entry : SourceEntry} :
    entry ∈ activeEntries sourceMap ↔
      entry.active = true ∧ ∃ key, sourceMap.get? key = some entry := by
  unfold activeEntries
  rw [mem_filter, mem_values_iff]
  exact and_comm

theorem activeEntries_eq_nil : activeEntries sourceMap = [] ↔ activeKeys sourceMap = [] := by
  simp only [activeEntries, activeKeys, values, filter_eq_nil_iff, mem_map,
    map_eq_nil_iff, Prod.exists, exists_eq_right, forall_exists_index, Prod.forall]
  exact forall_comm

theorem mem_activeKeys_set {new : String} {entry : SourceEntry} (hactive : entry.active = true) :
    key ∈ activeKeys (sourceMap.set new entry) ↔ key = new ∨ key ∈ activeKeys sourceMap := by
  rw [mem_activeKeys, mem_activeKeys, get?_set]
  by_cases h : key = new
  · simp [h, hactive]
  · simp [h]

theorem get?_withdrawn (gone removedAt : String) :
    (withdrawn sourceMap gone removedAt).get? key =
      if key = gone then (sourceMap.get? gone).map
        fun entry => { entry with active := false, removedAt := removedAt }
      else sourceMap.get? key := by
  unfold withdrawn
  cases hgone : sourceMap.get? gone with
  | none =>
    by_cases h : key = gone
    · simp [h, hgone]
    · simp [h]
  | some entry => simp [get?_set]

theorem mem_activeKeys_withdrawn {gone removedAt : String} :
    key ∈ activeKeys (withdrawn sourceMap gone removedAt) ↔
      key ≠ gone ∧ key ∈ activeKeys sourceMap := by
  rw [mem_activeKeys, mem_activeKeys, get?_withdrawn]
  by_cases h : key = gone
  · simp [h]
  · simp [h]

theorem activeKeys_withdrawn_eq_nil {gone : String} (removedAt : String) :
    activeKeys (withdrawn sourceMap gone removedAt) = [] ↔
      ∀ key ∈ activeKeys sourceMap, key = gone := by
  rw [eq_nil_iff_forall_not_mem]
  refine forall_congr' fun key => ?_
  rw [mem_activeKeys_withdrawn]
  tauto

end SourceMaps

/-! ## Candidates and their history -/

/-- What was heard of the sources of one candidate: whether the last event of each source was an
include, and whether any source has withdrawn. -/
structure SourceHistory where
  lastEvent : Dict String Bool := .empty
  removed : Bool := false

def SourceHistory.afterInclude (history : SourceHistory) (key : String) : SourceHistory :=
  { history with lastEvent := history.lastEvent.set key true }

def SourceHistory.afterRemove (history : SourceHistory) (key : String) : SourceHistory :=
  { lastEvent := history.lastEvent.set key false, removed := true }

def Candidate.sourceMap (candidate : Candidate) : Dict String SourceEntry :=
  (candidate.metadata.candidateIngestion.getD {}).sourceMap

def BeforeOrderStage (state : CandidateState) : Prop :=
  state ∈ [.detected, .hydrating, .watching, .waitData, .ready, .blocked, .removed]

/-- The primary source recorded, in both places, is an active one that no active source
outranks. -/
def PrimaryRecorded (candidate : Candidate) : Prop :=
  ∃ entry ∈ activeEntries candidate.sourceMap,
    candidate.metadata.primarySource = entry.sourceType ∧
    candidate.metadata.primarySourceId = entry.sourceId ∧
    (candidate.metadata.candidateIngestion.getD {}).primarySource = entry.sourceType ∧
    (candidate.metadata.candidateIngestion.getD {}).primarySourceId = entry.sourceId ∧
    ∀ other ∈ activeEntries candidate.sourceMap, other.standing ≤ entry.standing

/-- What is recorded of a candidate's sources agrees with their history. -/
structure Records (candidate : Candidate) (history : SourceHistory) : Prop where
  active_iff : ∀ key, key ∈ activeKeys candidate.sourceMap ↔ history.lastEvent.get? key = some true
  types_iff : ∀ text, text ∈ (candidate.metadata.candidateIngestion.getD {}).activeSourceTypes ↔
    text ≠ "" ∧ ∃ entry ∈ activeEntries candidate.sourceMap, Text.strip entry.sourceType = text
  primary : activeKeys candidate.sourceMap ≠ [] → PrimaryRecorded candidate
  removed_iff : BeforeOrderStage candidate.state →
    (candidate.state = .removed ↔ history.removed = true ∧ activeKeys candidate.sourceMap = [])

/-- A candidate that the service keeps: stored under its date and code, with the sources it has
had under their keys. -/
structure Tracked (key : String × String) (candidate : Candidate) : Prop where
  stored : (candidate.tradeDate, candidate.code) = key
  sourced : ∃ source entry, candidate.sourceMap.get? source = some entry
  keyed : ∀ source entry, candidate.sourceMap.get? source = some entry →
    sourceKey entry.sourceType entry.sourceId = source

def primaryKey (candidate : Candidate) : String :=
  let ingestion := candidate.metadata.candidateIngestion.getD {}
  sourceKey ingestion.primarySource ingestion.primarySourceId

/-- The withdrawal of a source leaves the records right: unless another source stays active, it is
not the primary source that withdraws, and the candidate is not in a state that a withdrawal does
not end. -/
def WithdrawsSafely (candidate : Candidate) (key : String) : Prop :=
  (primaryKey candidate = key → ∀ other ∈ activeKeys candidate.sourceMap, other = key) ∧
    ((∀ other ∈ activeKeys candidate.sourceMap, other = key) → candidate.state ∉ [.ready, .blocked])
deriving Decidable

/-! ## The copies that each operation writes -/

section Writes

variable {candidate : Candidate} {event : CandidateSourceEvent}

theorem mem_activeTypes {sourceMap : Dict String SourceEntry} {text : String} :
    text ∈ activeTypes sourceMap ↔
      text ≠ "" ∧ ∃ entry ∈ activeEntries sourceMap, Text.strip entry.sourceType = text := by
  unfold activeTypes dedupe
  rw [Text.mem_distinct]
  simp only [mem_map, exists_exists_and_eq_and]

theorem activeEntries_set_ne_nil {sourceMap : Dict String SourceEntry} {key : String}
    {entry : SourceEntry} (hactive : entry.active = true) :
    activeEntries (sourceMap.set key entry) ≠ [] := by
  rw [ne_eq, activeEntries_eq_nil]
  intro hnil
  have hmem : key ∈ activeKeys (sourceMap.set key entry) :=
    (mem_activeKeys_set hactive).mpr (.inl rfl)
  rw [hnil] at hmem
  exact absurd hmem not_mem_nil

theorem sourceMap_mergeCandidate (clock : Clock) :
    (mergeCandidate candidate event clock).sourceMap =
      candidate.sourceMap.set event.key event.summary := rfl

theorem primaryRecorded_mergeCandidate (clock : Clock) :
    PrimaryRecorded (mergeCandidate candidate event clock) := by
  have hne : activeEntries (candidate.sourceMap.set event.key event.summary) ≠ [] :=
    activeEntries_set_ne_nil rfl
  cases hprimary : primarySourceOf (candidate.sourceMap.set event.key event.summary) with
  | none => exact absurd (argmax_eq_none.mp hprimary) hne
  | some entry =>
    have hrecorded : primarySourceOf
        (((candidate.metadata.candidateIngestion.getD {}).sourceMap).set event.key
          event.summary) = some entry := hprimary
    refine ⟨entry, argmax_mem hprimary, ?_, ?_, ?_, ?_, ?_⟩
    · simp [mergeCandidate, mergedIngestion, hrecorded]
    · simp [mergeCandidate, mergedIngestion, hrecorded]
    · simp [mergeCandidate, mergedIngestion, hrecorded]
    · simp [mergeCandidate, mergedIngestion, hrecorded]
    · intro other hother
      exact le_of_mem_argmax hother hprimary

theorem sourceMap_withdrawnCandidate :
    (withdrawnCandidate candidate event).sourceMap =
      withdrawn candidate.sourceMap event.key event.detectedAt := rfl

end Writes

theorem CandidateFsmService.Follows.sourceMap {before after : Candidate}
    (h : Follows before after) : after.sourceMap = before.sourceMap := by
  unfold Candidate.sourceMap
  rw [h.candidateIngestion]

theorem CandidateFsmService.Follows.primaryRecorded_iff {before after : Candidate}
    (h : Follows before after) :
    PrimaryRecorded after ↔ PrimaryRecorded before := by
  unfold PrimaryRecorded
  rw [h.sourceMap, h.candidateIngestion, h.primarySource, h.primarySourceId]

/-! ## An include -/

section Include

variable {service : CandidateIngestionService} {candidate : Candidate}
  {event : CandidateSourceEvent} {clock : Clock} {history : SourceHistory}

theorem sourceMap_reopened : (reopened candidate).sourceMap = candidate.sourceMap := by
  unfold reopened
  split <;> rfl

theorem reopened_state_ne : (reopened candidate).state ≠ .removed := by
  unfold reopened
  split
  · simp
  · next h => exact fun hremoved => h (by simp [hremoved])

variable (candidate) in
theorem records_included
    (hactive : ∀ key, key ∈ activeKeys candidate.sourceMap ↔
      history.lastEvent.get? key = some true) :
    Records (service.included (some candidate) event clock) (history.afterInclude event.key) := by
  let merged := mergeCandidate (reopened candidate) event clock
  have hfollows : Follows merged
      (service.included (some candidate) event clock) := follows_promote ..
  have hmap : (service.included (some candidate) event clock).sourceMap =
      candidate.sourceMap.set event.key event.summary := by
    rw [hfollows.sourceMap, sourceMap_mergeCandidate, sourceMap_reopened]
  have hmem : ∀ key, key ∈ activeKeys (candidate.sourceMap.set event.key event.summary) ↔
      key = event.key ∨ key ∈ activeKeys candidate.sourceMap := fun _ => mem_activeKeys_set rfl
  refine ⟨?_, ?_, ?_, ?_⟩
  · intro key
    show _ ↔ (history.lastEvent.set event.key true).get? key = some true
    rw [hmap, hmem, hactive, get?_set]
    by_cases h : key = event.key
    · simp [h]
    · simp [h]
  · intro text
    rw [hmap, hfollows.candidateIngestion, ← sourceMap_reopened]
    exact mem_activeTypes
  · intro _
    exact hfollows.primaryRecorded_iff.mpr (primaryRecorded_mergeCandidate clock)
  · intro _
    -- a source is active now, and no include leaves a candidate removed
    have hstate : (service.included (some candidate) event clock).state ≠ .removed := by
      rcases hfollows.state with h | ⟨-, h⟩ | ⟨-, h⟩
      · rw [h]
        exact reopened_state_ne
      · simp [h]
      · simp [h]
    refine iff_of_false hstate ?_
    rintro ⟨-, hnone⟩
    rw [hmap] at hnone
    have hnew := (hmem event.key).mpr (.inl rfl)
    rw [hnone] at hnew
    exact absurd hnew not_mem_nil

variable (candidate) in
theorem tracked_included {key : String × String}
    (hstored : (candidate.tradeDate, candidate.code) = key)
    (hkeyed : ∀ source entry, candidate.sourceMap.get? source = some entry →
      sourceKey entry.sourceType entry.sourceId = source) :
    Tracked key (service.included (some candidate) event clock) := by
  let merged := mergeCandidate (reopened candidate) event clock
  have hfollows : Follows merged
      (service.included (some candidate) event clock) := follows_promote ..
  have hmap : (service.included (some candidate) event clock).sourceMap =
      candidate.sourceMap.set event.key event.summary := by
    rw [hfollows.sourceMap, sourceMap_mergeCandidate, sourceMap_reopened]
  have hsame : (merged.tradeDate, merged.code) = (candidate.tradeDate, candidate.code) := by
    show ((reopened candidate).tradeDate, (reopened candidate).code) = _
    unfold reopened
    split <;> rfl
  refine ⟨?_, ⟨event.key, event.summary, ?_⟩, ?_⟩
  · rw [hfollows.tradeDate, hfollows.code, hsame, hstored]
  · rw [hmap, get?_set_self]
  · intro source entry hget
    rw [hmap, get?_set] at hget
    by_cases h : source = event.key
    · rw [if_pos h] at hget
      obtain rfl := Option.some.inj hget
      exact h.symm
    · rw [if_neg h] at hget
      exact hkeyed source entry hget

end Include

/-! ## A withdrawal -/

section Withdrawal

variable {service : CandidateIngestionService} {candidate : Candidate}
  {event : CandidateSourceEvent} {clock : Clock} {history : SourceHistory}
  {key : String × String}

theorem follows_removed : Follows (withdrawnCandidate candidate event)
    (service.removed candidate event clock) := follows_promote ..

theorem sourceMap_removed : (service.removed candidate event clock).sourceMap =
    withdrawn candidate.sourceMap event.key event.detectedAt := by
  rw [follows_removed.sourceMap, sourceMap_withdrawnCandidate]

variable (service event clock) in
theorem tracked_removed (htracked : Tracked key candidate) :
    Tracked key (service.removed candidate event clock) := by
  refine ⟨?_, ?_, ?_⟩
  · rw [follows_removed.tradeDate, follows_removed.code]
    exact htracked.stored
  · rw [sourceMap_removed]
    obtain ⟨source, entry, hget⟩ := htracked.sourced
    by_cases h : source = event.key
    · subst h
      exact ⟨event.key, _, by rw [get?_withdrawn, if_pos rfl, hget]; rfl⟩
    · exact ⟨source, entry, by rw [get?_withdrawn, if_neg h, hget]⟩
  · intro source entry hget
    rw [sourceMap_removed, get?_withdrawn] at hget
    by_cases h : source = event.key
    · rw [if_pos h] at hget
      obtain ⟨old, hold, rfl⟩ := Option.map_eq_some_iff.mp hget
      rw [h]
      exact htracked.keyed event.key old hold
    · rw [if_neg h] at hget
      exact htracked.keyed source entry hget

theorem primaryRecorded_removed_iff (htracked : Tracked key candidate)
    (hprimary : activeKeys candidate.sourceMap ≠ [] → PrimaryRecorded candidate) :
    (activeKeys (service.removed candidate event clock).sourceMap ≠ [] →
        PrimaryRecorded (service.removed candidate event clock)) ↔
      (primaryKey candidate = event.key →
        ∀ other ∈ activeKeys candidate.sourceMap, other = event.key) := by
  rw [follows_removed.primaryRecorded_iff, sourceMap_removed]
  unfold PrimaryRecorded
  rw [sourceMap_withdrawnCandidate]
  constructor
  · intro hrecorded hwithdrew other hother
    by_contra hne
    have hstays : other ∈ activeKeys
        (withdrawn candidate.sourceMap event.key event.detectedAt) :=
      mem_activeKeys_withdrawn.mpr ⟨hne, hother⟩
    obtain ⟨entry, hentry, -, -, htype, hid, -⟩ :=
      hrecorded (ne_nil_of_mem hstays)
    obtain ⟨hactive, source, hget⟩ := mem_activeEntries.mp hentry
    -- the entry still recorded as the primary one is the one that withdrew
    have hsource : source = event.key := by
      have hkeyed := (tracked_removed service event clock htracked).keyed source
        entry (by rw [sourceMap_removed]; exact hget)
      rw [← hkeyed, ← htype, ← hid]
      exact hwithdrew
    have hgone := (mem_activeKeys_withdrawn.mp (mem_activeKeys.mpr ⟨entry, hget, hactive⟩)).1
    exact hgone hsource
  · intro hkept hactive
    obtain ⟨other, hother⟩ := exists_mem_of_ne_nil _ hactive
    obtain ⟨hne, hmem⟩ := mem_activeKeys_withdrawn.mp hother
    obtain ⟨entry, hentry, htype, hid, htype', hid', hmax⟩ :=
      hprimary (ne_nil_of_mem hmem)
    obtain ⟨hactive', source, hget⟩ := mem_activeEntries.mp hentry
    have hsource : source ≠ event.key := by
      intro h
      apply hne
      refine hkept ?_ other hmem
      unfold primaryKey
      dsimp only
      rw [htype', hid', htracked.keyed source entry hget, h]
    refine ⟨entry, mem_activeEntries.mpr ⟨hactive', source, ?_⟩, htype, hid, htype', hid', ?_⟩
    · rw [get?_withdrawn, if_neg hsource, hget]
    · intro rival hrival
      obtain ⟨hactive'', source', hget'⟩ := mem_activeEntries.mp hrival
      apply hmax
      have hstays := mem_activeKeys_withdrawn.mp (mem_activeKeys.mpr ⟨rival, hget', hactive''⟩)
      rw [get?_withdrawn, if_neg hstays.1] at hget'
      exact mem_activeEntries.mpr ⟨hactive'', source', hget'⟩

theorem activeSourceExists_eq_false {ingestion : CandidateIngestion}
    (hingestion : candidate.metadata.candidateIngestion = some ingestion)
    (htypes : ingestion.activeSourceTypes = []) (hnone : activeEntries ingestion.sourceMap = [])
    (hsourced : ∃ source entry, ingestion.sourceMap.get? source = some entry) :
    activeSourceExists candidate = false := by
  have hentries : ingestion.sourceMap.entries ≠ [] := by
    obtain ⟨source, entry, hget⟩ := hsourced
    exact ne_nil_of_mem (mem_entries_iff.mpr hget)
  have hinactive : ∀ entry ∈ ingestion.sourceMap.values, entry.active = false := by
    intro entry hmem
    by_contra hactive
    have hentry : entry ∈ activeEntries ingestion.sourceMap :=
      mem_filter.mpr ⟨hmem, by simpa using hactive⟩
    rw [hnone] at hentry
    exact absurd hentry not_mem_nil
  unfold activeSourceExists
  simpa [hingestion, htypes, hentries] using hinactive

section

variable (htracked : Tracked key candidate)
include htracked

theorem state_removed_of_none
    (hnone : activeKeys (withdrawn candidate.sourceMap event.key event.detectedAt) = []) :
    (service.removed candidate event clock).state =
      if candidate.state ∈ [.detected, .hydrating, .waitData, .watching] then .removed
      else candidate.state := by
  have hentries : activeEntries (withdrawn candidate.sourceMap event.key event.detectedAt) = [] :=
    activeEntries_eq_nil.mpr hnone
  have hstate : (withdrawnCandidate candidate event).state =
      if candidate.state ∈ [.detected, .hydrating, .waitData, .watching] then .removed
      else candidate.state := by
    show (if activeEntries (withdrawn candidate.sourceMap event.key event.detectedAt) = [] ∧ _
      then _ else _) = _
    simp only [hentries, true_and]
  rcases follows_removed.state with h | ⟨hactive, -⟩ | ⟨hwaits, -⟩
  · rw [h, hstate]
  · have hsourced := (tracked_removed service event clock htracked).sourced
    rw [sourceMap_removed] at hsourced
    have htypes : activeTypes (withdrawn candidate.sourceMap event.key event.detectedAt) = [] := by
      rw [activeTypes, hentries]
      rfl
    rw [activeSourceExists_eq_false rfl htypes hentries hsourced] at hactive
    exact absurd hactive (by simp)
  · rw [hstate] at hwaits
    split at hwaits
    · simp at hwaits
    · next hnot =>
        refine absurd ?_ hnot
        simp only [mem_cons, not_mem_nil, or_false] at hwaits ⊢
        tauto

/-- After a withdrawal the state is as the history has it exactly if the candidate was in no state
that a last withdrawal does not end. -/
theorem removed_removed_iff (h : Records candidate history) :
    (BeforeOrderStage (service.removed candidate event clock).state →
        ((service.removed candidate event clock).state = .removed ↔
          (history.afterRemove event.key).removed = true ∧
            activeKeys (service.removed candidate event clock).sourceMap = [])) ↔
      ((∀ other ∈ activeKeys candidate.sourceMap, other = event.key) →
        candidate.state ∉ [.ready, .blocked]) := by
  rw [sourceMap_removed, ← activeKeys_withdrawn_eq_nil event.detectedAt]
  show (_ → (_ ↔ true = true ∧ _)) ↔ _
  by_cases hnone : activeKeys (withdrawn candidate.sourceMap event.key event.detectedAt) = []
  · rw [state_removed_of_none htracked hnone]
    simp only [hnone, and_self, iff_true, true_imp_iff]
    unfold BeforeOrderStage
    cases candidate.state <;> simp
  · -- a source stays active: the candidate was not removed, and the machine does not remove it
    obtain ⟨other, hother⟩ := exists_mem_of_ne_nil _ hnone
    have hbefore : candidate.state ≠ .removed := by
      intro hremoved
      have hstate := h.removed_iff (by rw [hremoved]; simp [BeforeOrderStage])
      have hempty := (hstate.mp hremoved).2
      have hmem := (mem_activeKeys_withdrawn.mp hother).2
      rw [hempty] at hmem
      exact absurd hmem not_mem_nil
    have hentries : activeEntries (withdrawn candidate.sourceMap event.key event.detectedAt) ≠
        [] := fun hnil => hnone (activeEntries_eq_nil.mp hnil)
    have hwithdrawn : (withdrawnCandidate candidate event).state = candidate.state := by
      show (if activeEntries (withdrawn candidate.sourceMap event.key event.detectedAt) = [] ∧ _
        then _ else _) = _
      simp only [hentries, false_and, if_false]
    have hafter : (service.removed candidate event clock).state ≠ .removed := by
      rcases follows_removed.state with hstate | ⟨-, hstate⟩ | ⟨-, hstate⟩
      · rw [hstate, hwithdrawn]
        exact hbefore
      · simp [hstate]
      · simp [hstate]
    simp [hnone, hafter]

theorem records_removed_iff (h : Records candidate history) :
    Records (service.removed candidate event clock) (history.afterRemove event.key) ↔
      WithdrawsSafely candidate event.key := by
  have hactive : ∀ key, key ∈ activeKeys (service.removed candidate event clock).sourceMap ↔
      (history.afterRemove event.key).lastEvent.get? key = some true := by
    intro key
    show _ ↔ (history.lastEvent.set event.key false).get? key = some true
    rw [sourceMap_removed, mem_activeKeys_withdrawn, h.active_iff, get?_set]
    by_cases hkey : key = event.key
    · simp [hkey]
    · simp [hkey]
  have htypes : ∀ text, text ∈ ((service.removed candidate event
        clock).metadata.candidateIngestion.getD {}).activeSourceTypes ↔
      text ≠ "" ∧ ∃ entry ∈ activeEntries (service.removed candidate event clock).sourceMap,
        Text.strip entry.sourceType = text := by
    intro text
    rw [sourceMap_removed, follows_removed.candidateIngestion]
    exact mem_activeTypes
  constructor
  · intro hrecords
    exact ⟨(primaryRecorded_removed_iff htracked h.primary).mp hrecords.primary,
      (removed_removed_iff htracked h).mp hrecords.removed_iff⟩
  · rintro ⟨hprimary, hstate⟩
    exact ⟨hactive, htypes, (primaryRecorded_removed_iff htracked h.primary).mpr hprimary,
      (removed_removed_iff htracked h).mpr hstate⟩

end

end Withdrawal

/-! ## Runs -/

/-- A call of the service. -/
inductive SourceCall
  | ingest (event : CandidateSourceEvent)
  | removeSource (event : CandidateSourceEvent)

/-- What a call comes to, with the event as it is normalized. -/
inductive SourceMove
  | ignored
  | includes (event : CandidateSourceEvent)
  | withdraws (event : CandidateSourceEvent)

def SourceCall.move (clock : Clock) : SourceCall → SourceMove
  | .ingest sourceEvent =>
      let event := sourceEvent.normalized clock
      if event.code = "" then .ignored
      else if event.saysRemove then .withdraws (event.normalized clock)
      else .includes event
  | .removeSource sourceEvent => .withdraws (sourceEvent.normalized clock)

/-- The candidates, with the history of the sources of each. -/
structure SourceBook where
  candidates : CandidateTable := .empty
  histories : Dict (String × String) SourceHistory := .empty

namespace SourceBook

def history (book : SourceBook) (key : String × String) : SourceHistory :=
  book.histories.getD key {}

def historiesAfter (book : SourceBook) : SourceMove → Dict (String × String) SourceHistory
  | .ignored => book.histories
  | .includes event =>
      book.histories.set event.candidateKey
        ((book.history event.candidateKey).afterInclude event.key)
  | .withdraws event =>
      book.histories.set event.candidateKey
        ((book.history event.candidateKey).afterRemove event.key)

/-- What is recorded of one candidate, if there is one. -/
def RecordsAt : Option Candidate → SourceHistory → Prop
  | none, history => ∀ source, history.lastEvent.get? source ≠ some true
  | some candidate, history => Records candidate history

theorem RecordsAt.primaryType {found : Option Candidate} {history : SourceHistory}
    (h : RecordsAt found history) :
    ∀ candidate ∈ found, activeKeys candidate.sourceMap ≠ [] →
      ∃ entry ∈ activeEntries candidate.sourceMap,
        candidate.metadata.primarySource = entry.sourceType := by
  rintro candidate rfl hactive
  obtain ⟨entry, hentry, htype, -⟩ := Records.primary h hactive
  exact ⟨entry, hentry, htype⟩

def Sound (book : SourceBook) : Prop :=
  ∀ key, RecordsAt (book.candidates.get? key) (book.history key)

def WellKept (book : SourceBook) : Prop :=
  ∀ key candidate, book.candidates.get? key = some candidate → Tracked key candidate

def SafeFor : Option Candidate → String → Prop
  | none, _ => True
  | some candidate, key => WithdrawsSafely candidate key

/-- A move is an include, or a source that withdraws safely. -/
def Safe (book : SourceBook) : SourceMove → Prop
  | .ignored => True
  | .includes _ => True
  | .withdraws event => SafeFor (book.candidates.get? event.candidateKey) event.key

instance : ∀ candidate key, Decidable (SafeFor candidate key)
  | none, _ => inferInstanceAs (Decidable True)
  | some candidate, key => inferInstanceAs (Decidable (WithdrawsSafely candidate key))

instance (book : SourceBook) : ∀ move, Decidable (book.Safe move)
  | .ignored => inferInstanceAs (Decidable True)
  | .includes _ => inferInstanceAs (Decidable True)
  | .withdraws _ => inferInstanceAs (Decidable (SafeFor _ _))

end SourceBook

namespace CandidateIngestionService

variable (service : CandidateIngestionService)

def machine : Machine SourceBook (SourceCall × Clock) CandidateIngestionResult where
  step book input :=
    let answer := match input.1 with
      | .ingest event => service.ingest book.candidates event input.2
      | .removeSource event => service.removeSource book.candidates event input.2
    ({ candidates := answer.1, histories := book.historiesAfter (input.1.move input.2) }, answer.2)

def tableAfter (table : CandidateTable) (clock : Clock) : SourceMove → CandidateTable
  | .ignored => table
  | .includes event =>
      table.save (service.included (table.get? event.candidateKey) event clock)
  | .withdraws event =>
      match table.get? event.candidateKey with
      | none => table
      | some candidate => table.save (service.removed candidate event clock)

variable {service}

theorem removeSource_table (table : CandidateTable) (sourceEvent : CandidateSourceEvent)
    (clock : Clock) :
    (service.removeSource table sourceEvent clock).1 =
      service.tableAfter table clock (.withdraws (sourceEvent.normalized clock)) := by
  unfold removeSource tableAfter
  dsimp only
  cases table.get? (sourceEvent.normalized clock).candidateKey <;> rfl

theorem ingest_table (table : CandidateTable) (sourceEvent : CandidateSourceEvent)
    (clock : Clock) :
    (service.ingest table sourceEvent clock).1 =
      service.tableAfter table clock ((SourceCall.ingest sourceEvent).move clock) := by
  unfold ingest SourceCall.move
  dsimp only
  split
  · rfl
  · split
    · exact removeSource_table ..
    · rfl

theorem next_eq (book : SourceBook) (call : SourceCall) (clock : Clock) :
    service.machine.next book (call, clock) =
      { candidates := service.tableAfter book.candidates clock (call.move clock)
        histories := book.historiesAfter (call.move clock) } := by
  show SourceBook.mk _ _ = _
  congr 1
  cases call with
  | ingest sourceEvent => exact ingest_table ..
  | removeSource sourceEvent => exact removeSource_table ..

variable {book : SourceBook}

theorem included_spec (hkept : book.WellKept) (h : book.Sound) (event : CandidateSourceEvent)
    (clock : Clock) :
    Tracked event.candidateKey
        (service.included (book.candidates.get? event.candidateKey) event clock) ∧
      Records (service.included (book.candidates.get? event.candidateKey) event clock)
        ((book.history event.candidateKey).afterInclude event.key) := by
  have hrecords := h event.candidateKey
  cases hget : book.candidates.get? event.candidateKey with
  | none =>
    rw [hget] at hrecords
    -- the candidate is new: it has no sources yet, and none was included last
    refine ⟨tracked_included (newCandidate event clock) rfl ?_,
      records_included (newCandidate event clock) ?_⟩
    · intro source entry hentry
      exact absurd hentry (by simp [Candidate.sourceMap, newCandidate])
    · intro key
      refine iff_of_false ?_ (hrecords key)
      simp [activeKeys, Candidate.sourceMap, newCandidate, empty]
  | some candidate =>
    rw [hget] at hrecords
    have htracked := hkept _ candidate hget
    exact ⟨tracked_included candidate htracked.stored htracked.keyed,
      records_included candidate hrecords.active_iff⟩

theorem save_of_tracked {table : CandidateTable} {key : String × String} {candidate : Candidate}
    (h : Tracked key candidate) : table.save candidate = table.set key candidate := by
  unfold CandidateTable.save
  rw [h.stored]

theorem sound_save_iff {key : String × String} {candidate : Candidate} (history : SourceHistory)
    (hkept : book.WellKept) (h : book.Sound) (htracked : Tracked key candidate) :
    (SourceBook.mk (book.candidates.save candidate) (book.histories.set key history)).WellKept ∧
      ((SourceBook.mk (book.candidates.save candidate) (book.histories.set key history)).Sound ↔
        Records candidate history) := by
  rw [save_of_tracked htracked]
  refine ⟨?_, ?_, ?_⟩
  · intro key' candidate' hget
    by_cases hkey : key' = key
    · subst hkey
      obtain rfl := Option.some.inj ((get?_set_self _ _ _).symm.trans hget)
      exact htracked
    · rw [get?_set_ne _ _ hkey] at hget
      exact hkept key' candidate' hget
  · intro hsound
    have hself := hsound key
    unfold SourceBook.history Dict.getD at hself
    simpa only [get?_set_self, Option.getD_some, SourceBook.RecordsAt] using hself
  · intro hrecords key'
    unfold SourceBook.history Dict.getD
    by_cases hkey : key' = key
    · subst hkey
      simpa only [get?_set_self, Option.getD_some, SourceBook.RecordsAt] using hrecords
    · simp only [get?_set_ne _ _ hkey]
      exact h key'

theorem next_spec (hkept : book.WellKept) (h : book.Sound) (input : SourceCall × Clock) :
    (service.machine.next book input).WellKept ∧
      ((service.machine.next book input).Sound ↔ book.Safe (input.1.move input.2)) := by
  obtain ⟨call, clock⟩ := input
  rw [next_eq]
  generalize SourceCall.move clock call = move
  cases move with
  | ignored => exact ⟨hkept, iff_of_true h trivial⟩
  | includes event =>
    obtain ⟨htracked, hrecords⟩ := included_spec hkept h event clock
    obtain ⟨hkept', hsound⟩ := sound_save_iff _ hkept h htracked
    exact ⟨hkept', iff_of_true (hsound.mpr hrecords) trivial⟩
  | withdraws event =>
    show _ ∧ (_ ↔ SourceBook.SafeFor (book.candidates.get? event.candidateKey) event.key)
    cases hget : book.candidates.get? event.candidateKey with
    | none =>
      -- without a candidate the withdrawal is ignored
      have htable : service.tableAfter book.candidates clock (.withdraws event) =
          book.candidates := by
        simp only [tableAfter, hget]
      rw [htable]
      refine ⟨hkept, iff_of_true ?_ trivial⟩
      intro key
      show SourceBook.RecordsAt _ ((book.histories.set event.candidateKey _).getD key {})
      unfold Dict.getD
      by_cases hkey : key = event.candidateKey
      · subst hkey
        simp only [hget, get?_set_self, Option.getD_some]
        intro source
        have hnone := h event.candidateKey
        rw [hget] at hnone
        show (set _ event.key false).get? source ≠ some true
        rw [get?_set]
        split
        · simp
        · exact hnone source
      · simp only [get?_set_ne _ _ hkey]
        exact h key
    | some candidate =>
      have htable : service.tableAfter book.candidates clock (.withdraws event) =
          book.candidates.save (service.removed candidate event clock) := by
        simp only [tableAfter, hget]
      rw [htable]
      have htracked := hkept _ candidate hget
      have hrecords := h event.candidateKey
      rw [hget] at hrecords
      obtain ⟨hkept', hsound⟩ := sound_save_iff
        ((book.history event.candidateKey).afterRemove event.key) hkept h
        (tracked_removed service event clock htracked)
      exact ⟨hkept', hsound.trans (records_removed_iff htracked hrecords)⟩

/-- From candidates that are kept with right records, the records stay right through a run of
includes and withdrawals exactly if every source that withdraws does so safely: it is not the
primary source unless no other source stays active, and the last source to withdraw finds the
candidate neither `READY` nor `BLOCKED`. -/
theorem always_sources_sound_iff (service : CandidateIngestionService) (book : SourceBook)
    (hkept : book.WellKept) (h : book.Sound) (calls : List (SourceCall × Clock)) :
    service.machine.Always SourceBook.Sound book calls ↔
      service.machine.Guarded (fun before input => before.Safe (input.1.move input.2)) book
        calls := by
  refine Machine.always_iff_guarded (I := SourceBook.WellKept) ?_ ?_ hkept h
  · intro before input hbefore hsound _
    exact (next_spec hbefore hsound input).1
  · intro before input hbefore hsound
    exact (next_spec hbefore hsound input).2

/-! ## Fixed runs -/

/-- An opening burst and a condition search include the stock; the condition search withdraws, and
then the opening burst. -/
theorem always_sources_sound_iff_bothWithdrawn :
    (machine ⟨{ enabled := true, readFloat := fun _ => none }⟩).Always SourceBook.Sound {}
      [(.ingest { tradeDate := "2026-06-17", code := "A005930", sourceType := "opening_burst",
                  sourceId := "opening_burst:semis:005930", sourceScore := 88, sourceRank := 1 },
        ⟨"2026-06-17T09:01:00", "2026-06-17", "2026-06-17T09:31:00"⟩),
       (.ingest { tradeDate := "2026-06-17", code := "005930", sourceId := "theme_alive" },
        ⟨"2026-06-17T09:02:00", "2026-06-17", "2026-06-17T09:32:00"⟩),
       (.removeSource { tradeDate := "2026-06-17", code := "005930", sourceId := "theme_alive" },
        ⟨"2026-06-17T09:03:00", "2026-06-17", "2026-06-17T09:33:00"⟩),
       (.removeSource { tradeDate := "2026-06-17", code := "005930",
                        sourceType := "opening_burst",
                        sourceId := "opening_burst:semis:005930" },
        ⟨"2026-06-17T09:04:00", "2026-06-17", "2026-06-17T09:34:00"⟩)] :=
  (always_sources_sound_iff _ _ (by intro key candidate hget; simp at hget)
    (by intro key source; simp [SourceBook.history, Dict.getD]) _).mpr (by decide +kernel)

/-- The opening burst withdraws while the condition search stays: it is still recorded as the
primary source. -/
theorem withdrawn_source_stays_primary :
    ¬ (machine ⟨{ enabled := true, readFloat := fun _ => none }⟩).Always SourceBook.Sound {}
      [(.ingest { tradeDate := "2026-06-17", code := "005930", sourceType := "opening_burst",
                  sourceId := "opening_burst:semis:005930", sourceScore := 88, sourceRank := 1 },
        ⟨"2026-06-17T09:01:00", "2026-06-17", "2026-06-17T09:31:00"⟩),
       (.ingest { tradeDate := "2026-06-17", code := "005930", sourceId := "theme_alive" },
        ⟨"2026-06-17T09:02:00", "2026-06-17", "2026-06-17T09:32:00"⟩),
       (.removeSource { tradeDate := "2026-06-17", code := "005930",
                        sourceType := "opening_burst",
                        sourceId := "opening_burst:semis:005930" },
        ⟨"2026-06-17T09:03:00", "2026-06-17", "2026-06-17T09:33:00"⟩)] := by
  intro h
  have hrecords := h.2.2.2 ("2026-06-17", "005930")
  exact absurd hrecords.primaryType (by decide +kernel)

end CandidateIngestionService

end TradingCore.Candidates
