import TradingCore.Candidates.ConditionCollector
import TradingCore.Candidates.SourceTracking

/-!
# What an event does to the conditions of a candidate

Three kinds of steps, by what they leave of the condition names, the sources and the source map of
a candidate: an include and a remove that both writers have persisted (`IncludesCondition`,
`WithdrawsCondition`), and an event of a source of another type (`LeavesConditions`). The writers
follow each other, so every spec is that of the ingestion service on what the collector left.
-/

namespace TradingCore.Candidates

open Base CandidateFsmService CandidateCollector List CandidateSourceEvent
open ConditionServices
open CandidateIngestionService

/-! ## Condition sources -/

def conditionTypes : List CandidateSourceType := [.condition, .conditionSearch]

/-- The names of the active condition sources in the source map. -/
def activeConditions (candidate : Candidate) : List String :=
  ((activeEntries candidate.sourceMap).filter (·.sourceType = "condition_search")).map (·.sourceId)

def otherSourceTypes : List String := ["opening_burst", "manual_watch", "theme_board"]

/-! ## Sources under their keys -/

/-- A source map files the condition sources under their names, and nothing else there. -/
def KeyedByName (sourceMap : Dict String SourceEntry) : Prop :=
  ∀ source entry, sourceMap.get? source = some entry → ∀ name,
    (source = "condition_search:" ++ name ↔
      entry.sourceType = "condition_search" ∧ entry.sourceId = name)

section SourceMaps

variable {sourceMap : Dict String SourceEntry} {candidate : Candidate} {name : String}

theorem mem_activeConditions (h : KeyedByName candidate.sourceMap) :
    name ∈ activeConditions candidate ↔
      "condition_search:" ++ name ∈ activeKeys candidate.sourceMap := by
  unfold activeConditions
  rw [mem_activeKeys]
  constructor
  · intro hname
    obtain ⟨entry, hentry, hid⟩ := mem_map.mp hname
    obtain ⟨hactive, htype⟩ := mem_filter.mp hentry
    obtain ⟨hactive, source, hget⟩ := mem_activeEntries.mp hactive
    have hsource := (h source entry hget name).mpr ⟨of_decide_eq_true htype, hid⟩
    exact ⟨entry, hsource ▸ hget, hactive⟩
  · rintro ⟨entry, hget, hactive⟩
    obtain ⟨htype, hid⟩ := (h _ entry hget name).mp rfl
    refine mem_map.mpr ⟨entry, mem_filter.mpr ⟨?_, by simp [htype]⟩, hid⟩
    exact mem_activeEntries.mpr ⟨hactive, _, hget⟩

theorem keyedByName_empty : KeyedByName .empty := fun _ _ hget => by simp at hget

theorem keyedByName_set {source : String} {entry : SourceEntry} (h : KeyedByName sourceMap)
    (hentry : ∀ name, source = "condition_search:" ++ name ↔
      entry.sourceType = "condition_search" ∧ entry.sourceId = name) :
    KeyedByName (sourceMap.set source entry) := by
  intro other found hget
  rw [Dict.get?_set] at hget
  by_cases hother : other = source
  · rw [if_pos hother] at hget
    cases hget
    rw [hother]
    exact hentry
  · rw [if_neg hother] at hget
    exact h other found hget

theorem keyedByName_withdrawn {gone removedAt : String} (h : KeyedByName sourceMap) :
    KeyedByName (withdrawn sourceMap gone removedAt) := by
  intro other found hget
  rw [get?_withdrawn] at hget
  by_cases hother : other = gone
  · rw [if_pos hother] at hget
    obtain ⟨entry, hentry, rfl⟩ := Option.map_eq_some_iff.mp hget
    rw [hother]
    exact h gone entry hentry
  · rw [if_neg hother] at hget
    exact h other found hget

theorem sourceKey_condition (hname : name ≠ "") :
    sourceKey "condition_search" name = "condition_search:" ++ name := by
  unfold sourceKey
  rw [if_pos hname]
  rfl

theorem append_condition_inj {name other : String} :
    "condition_search:" ++ name = "condition_search:" ++ other ↔ name = other := by
  constructor
  · intro h
    have hlists := congrArg String.toList h
    rw [String.toList_append, String.toList_append] at hlists
    exact String.ext (append_cancel_left hlists)
  · exact fun h => by rw [h]

theorem sourceKey_other {sourceType sourceId : String} (h : sourceType ∈ otherSourceTypes) :
    sourceKey sourceType sourceId ≠ "condition_search:" ++ name := by
  intro heq
  have hhead := congrArg (fun text => text.toList.head?) heq
  unfold sourceKey at hhead
  simp only [String.toList_append] at hhead
  simp only [otherSourceTypes, mem_cons, not_mem_nil, or_false] at h
  rcases h with rfl | rfl | rfl <;> simp at hhead

end SourceMaps

/-! ## The state machine leaves the conditions alone -/

namespace CandidateFsmService

variable {service : CandidateFsmService} {candidate : Candidate}

theorem apply_conditions (target : CandidateRuntimeState) (reason : String)
    (stage : CandidateBlockingStage) (source : TransitionSource) (details : Mapping)
    (now : String) :
    (service.apply candidate target reason stage source details now).1.sources =
        candidate.sources ∧
      (service.apply candidate target reason stage source details now).1.conditionNames =
        candidate.conditionNames := by
  unfold apply reconcileStateContract
  dsimp only
  cases service.contract with
  | none => exact ⟨rfl, rfl⟩
  | some contract =>
    dsimp only
    obtain ⟨state, lastSeenAt, record, h⟩ := contract.reconcileCandidate_frame
      { candidate with
        metadata := { candidate.metadata with
          candidateFsm := candidate.metadata.candidateFsm.written target reason stage
            source.eventId details now } } now
    rw [h]
    exact ⟨rfl, rfl⟩

theorem promote_conditions (target : CandidateRuntimeState) (reason : String)
    (stage : CandidateBlockingStage) (source : TransitionSource) (details : Mapping)
    (now : String) :
    (service.promote candidate target reason stage source details now).1.sources =
        candidate.sources ∧
      (service.promote candidate target reason stage source details now).1.conditionNames =
        candidate.conditionNames := by
  unfold promote
  split
  · exact apply_conditions ..
  · exact apply_conditions ..

end CandidateFsmService

/-! ## What a condition event does to a candidate -/

def namesOf (found : Option Candidate) : List String :=
  (found.map (·.conditionNames)).getD []

def sourceMapOf (found : Option Candidate) : Dict String SourceEntry :=
  (found.map (·.sourceMap)).getD .empty

structure IncludesCondition (found : Option Candidate) (after : Candidate)
    (key : String × String) (name : String) : Prop where
  stored : (after.tradeDate, after.code) = key
  names : ∀ other, other ∈ after.conditionNames ↔ other = name ∨ other ∈ namesOf found
  nodup : (namesOf found).Nodup → after.conditionNames.Nodup
  searched : .conditionSearch ∈ after.sources
  keyed : KeyedByName (sourceMapOf found) → KeyedByName after.sourceMap
  active : ∀ other, other ∈ activeKeys after.sourceMap ↔
    other = "condition_search:" ++ name ∨ other ∈ activeKeys (sourceMapOf found)
  stays : after.state ≠ .removed

/-- What a remove of a condition leaves. Only a stock code is looked at by the collector. -/
structure WithdrawsCondition (before after : Candidate) (valid : Bool) (name : String) : Prop where
  stored : (after.tradeDate, after.code) = (before.tradeDate, before.code)
  names : ∀ other, other ∈ after.conditionNames ↔
    other ∈ before.conditionNames ∧ (valid = true → other ≠ name)
  nodup : after.conditionNames.Nodup
  sources : ∀ source ∈ after.sources, source ∈ before.sources
  kept : ∀ source ∈ before.sources, source ≠ .condition → source ∈ after.sources
  keyed : KeyedByName before.sourceMap → KeyedByName after.sourceMap
  active : ∀ other, other ∈ activeKeys after.sourceMap ↔
    other ≠ "condition_search:" ++ name ∧ other ∈ activeKeys before.sourceMap
  removed : after.state = .removed → before.state = .removed ∨ after.sources = [] ∨
    activeKeys after.sourceMap = []

def BrokerConditionEvent.normalized (event : BrokerConditionEvent)
    (membership : Option ThemeMembership) (clock : Clock) : CandidateSourceEvent :=
  (enrichSourceThemeContext (sourceEventFromConditionEvent event clock) membership).normalized clock

section Normalized

variable {event : BrokerConditionEvent} {membership : Option ThemeMembership} {clock : Clock}

theorem enrich_frame (sourceEvent : CandidateSourceEvent) (membership : Option ThemeMembership) :
    (enrichSourceThemeContext sourceEvent membership).tradeDate = sourceEvent.tradeDate ∧
      (enrichSourceThemeContext sourceEvent membership).code = sourceEvent.code ∧
      (enrichSourceThemeContext sourceEvent membership).sourceType = sourceEvent.sourceType ∧
      (enrichSourceThemeContext sourceEvent membership).sourceId = sourceEvent.sourceId ∧
      (enrichSourceThemeContext sourceEvent membership).rawPayload = sourceEvent.rawPayload := by
  unfold enrichSourceThemeContext
  split
  · exact ⟨rfl, rfl, rfl, rfl, rfl⟩
  · split
    · exact ⟨rfl, rfl, rfl, rfl, rfl⟩
    · split
      · exact ⟨rfl, rfl, rfl, rfl, rfl⟩
      · exact ⟨rfl, rfl, rfl, rfl, rfl⟩

theorem normalized_frame (sourceEvent : CandidateSourceEvent) (clock : Clock)
    (hdate : sourceEvent.tradeDate ≠ "") (htype : sourceEvent.sourceType ≠ "") :
    (sourceEvent.normalized clock).tradeDate = sourceEvent.tradeDate ∧
      (sourceEvent.normalized clock).code = normalizeCode sourceEvent.code ∧
      (sourceEvent.normalized clock).sourceType = sourceEvent.sourceType ∧
      (sourceEvent.normalized clock).sourceId = sourceEvent.sourceId ∧
      (sourceEvent.normalized clock).rawPayload = sourceEvent.rawPayload := by
  unfold normalized
  dsimp only
  rw [if_pos hdate, if_pos htype]
  exact ⟨rfl, rfl, rfl, rfl, rfl⟩

variable (event membership) in
theorem normalized_spec (hdated : clock.today ≠ "") :
    (event.normalized membership clock).tradeDate = clock.today ∧
      (event.normalized membership clock).code = normalizeCode event.code ∧
      (event.normalized membership clock).sourceType = "condition_search" ∧
      (event.normalized membership clock).sourceId = event.conditionName ∧
      (event.normalized membership clock).rawPayload.textOr "event_type" =
        event.eventType.value := by
  obtain ⟨hdate, hcode, htype, hid, hpayload⟩ :=
    enrich_frame (sourceEventFromConditionEvent event clock) membership
  have hraw : (sourceEventFromConditionEvent event clock).rawPayload.textOr "event_type" =
      event.eventType.value := by
    unfold sourceEventFromConditionEvent
    cases event.eventType with
    | included => rfl
    | removed => rfl
  have htypes : (sourceEventFromConditionEvent event clock).sourceType = "condition_search" := rfl
  have hids : (sourceEventFromConditionEvent event clock).sourceId = event.conditionName := rfl
  have hcodes : (sourceEventFromConditionEvent event clock).code = event.code := rfl
  have hdates : (sourceEventFromConditionEvent event clock).tradeDate = clock.today := rfl
  obtain ⟨hdate', hcode', htype', hid', hpayload'⟩ := normalized_frame
    (enrichSourceThemeContext (sourceEventFromConditionEvent event clock) membership) clock
    (by rw [hdate, hdates]; exact hdated) (by rw [htype, htypes]; decide)
  unfold BrokerConditionEvent.normalized
  rw [hdate', hcode', htype', hid', hpayload', hdate, hcode, htype, hid, hpayload, hraw, htypes,
    hids, hcodes, hdates]
  exact ⟨rfl, rfl, rfl, rfl, rfl⟩

theorem candidateKey_normalized (hdated : clock.today ≠ "") :
    (event.normalized membership clock).candidateKey = event.candidateKey clock := by
  obtain ⟨hdate, hcode, -⟩ := normalized_spec event membership hdated
  unfold candidateKey BrokerConditionEvent.candidateKey
  rw [hdate, hcode]

theorem key_normalized (hdated : clock.today ≠ "") :
    (event.normalized membership clock).key = "condition_search:" ++ event.conditionName := by
  obtain ⟨-, -, htype, hid, -⟩ :=
    normalized_spec event membership hdated
  unfold key
  rw [htype, hid]
  exact sourceKey_condition event.named

theorem not_saysRemove_normalized (hdated : clock.today ≠ "")
    (hincluded : event.eventType = .included) :
    ¬ (event.normalized membership clock).saysRemove := by
  obtain ⟨-, -, -, -, hpayload⟩ :=
    normalized_spec event membership hdated
  unfold saysRemove
  rw [hpayload, hincluded]
  decide

end Normalized

/-! ### An include -/

section Include

variable {services : ConditionServices} {event : BrokerConditionEvent}
  {membership : Option ThemeMembership} {clock : Clock} {key : String × String}

theorem reopened_frame (candidate : Candidate) :
    (reopened candidate).tradeDate = candidate.tradeDate ∧
      (reopened candidate).code = candidate.code ∧
      (reopened candidate).sources = candidate.sources ∧
      (reopened candidate).conditionNames = candidate.conditionNames := by
  unfold reopened
  split
  · exact ⟨rfl, rfl, rfl, rfl⟩
  · exact ⟨rfl, rfl, rfl, rfl⟩

theorem mem_appendNew {α : Type} [DecidableEq α] {items : List α} {item other : α} :
    other ∈ appendNew items item ↔ other = item ∨ other ∈ items := by
  unfold appendNew
  split
  · rename_i hitem
    exact ⟨Or.inr, fun h => h.elim (fun heq => heq ▸ hitem) id⟩
  · rw [mem_append, mem_singleton]
    exact or_comm

theorem nodup_appendNew {α : Type} [DecidableEq α] {items : List α} {item : α}
    (h : items.Nodup) : (appendNew items item).Nodup := by
  unfold appendNew
  split
  · exact h
  · rename_i hitem
    refine nodup_append.mpr ⟨h, nodup_singleton item, ?_⟩
    intro other hother new hnew heq
    rw [mem_singleton.mp hnew] at heq
    exact hitem (heq ▸ hother)

variable (services membership) in
theorem includesCondition_included (hdated : clock.today ≠ "") (found : Option Candidate)
    (hstored : ∀ candidate ∈ found,
      (candidate.tradeDate, candidate.code) = event.candidateKey clock) :
    IncludesCondition found
      (services.ingestion.included found (event.normalized membership clock) clock)
      (event.candidateKey clock) event.conditionName := by
  have hkey : (event.normalized membership clock).candidateKey = event.candidateKey clock :=
    candidateKey_normalized hdated
  have hsource : (event.normalized membership clock).key =
      "condition_search:" ++ event.conditionName := key_normalized hdated
  obtain ⟨-, -, htype, hid, -⟩ :=
    normalized_spec event membership hdated
  generalize event.normalized membership clock = source at hkey hsource htype hid ⊢
  let base := reopened (found.getD (newCandidate source clock))
  let merged := mergeCandidate base source clock
  have hfollows : Follows merged
      (services.ingestion.included found source clock) := follows_promote ..
  have hconditions : (services.ingestion.included found source clock).sources = merged.sources ∧
      (services.ingestion.included found source clock).conditionNames = merged.conditionNames :=
    promote_conditions ..
  obtain ⟨hdate, hcode, -, hnames⟩ := reopened_frame (found.getD (newCandidate source clock))
  have hbaseNames : base.conditionNames = namesOf found := by
    rw [show base.conditionNames = _ from hnames]
    cases found with
    | none => rfl
    | some candidate => rfl
  have hbaseMap : base.sourceMap = sourceMapOf found := by
    rw [show base.sourceMap = _ from sourceMap_reopened]
    cases found with
    | none => rfl
    | some candidate => rfl
  have hmergedNames : merged.conditionNames = appendNew (namesOf found) event.conditionName := by
    show (if source.sourceType = "condition_search" ∧ source.sourceId ≠ "" then
      appendNew base.conditionNames source.sourceId else _) = _
    rw [htype, hid, if_pos ⟨rfl, event.named⟩, hbaseNames]
  have hmergedSources : merged.sources = appendNew base.sources .conditionSearch := by
    simp only [merged, mergeCandidate, htype]
    rfl
  have hmap : (services.ingestion.included found source clock).sourceMap =
      (sourceMapOf found).set ("condition_search:" ++ event.conditionName) source.summary := by
    rw [hfollows.sourceMap, sourceMap_mergeCandidate, hbaseMap, hsource]
  refine ⟨?_, ?_, ?_, ?_, ?_, ?_, ?_⟩
  · rw [hfollows.tradeDate, hfollows.code]
    show (base.tradeDate, base.code) = _
    rw [show base.tradeDate = _ from hdate, show base.code = _ from hcode]
    cases found with
    | none => exact hkey
    | some candidate => exact hstored candidate rfl
  · intro other
    rw [hconditions.2, hmergedNames]
    exact mem_appendNew
  · intro hnodup
    rw [hconditions.2, hmergedNames]
    exact nodup_appendNew hnodup
  · rw [hconditions.1, hmergedSources]
    exact mem_appendNew.mpr (Or.inl rfl)
  · intro hkeyed
    rw [hmap]
    refine keyedByName_set hkeyed fun name => ?_
    rw [append_condition_inj]
    show _ ↔ source.sourceType = "condition_search" ∧ source.sourceId = name
    rw [htype, hid]
    exact (and_iff_right rfl).symm
  · intro other
    rw [hmap]
    exact mem_activeKeys_set rfl
  · rcases hfollows.state with h | ⟨-, h⟩ | ⟨-, h⟩
    · rw [h]
      exact reopened_state_ne
    · simp [h]
    · simp [h]

/-- The candidate that the collector leaves to the ingestion service. -/
def collected (found : Option Candidate) (event : BrokerConditionEvent) (clock : Clock) :
    Option Candidate :=
  if ¬ isValidStockCode event.code then found
  else
    match found with
    | none => some (detected event clock)
    | some existing => some (merged existing event clock)

theorem stored_detected :
    ((detected event clock).tradeDate, (detected event clock).code) = event.candidateKey clock := by
  simp only [detected, BrokerConditionEvent.candidateKey]

theorem collected_spec (found : Option Candidate)
    (hstored : ∀ candidate ∈ found,
      (candidate.tradeDate, candidate.code) = event.candidateKey clock) :
    (∀ candidate ∈ collected found event clock,
        (candidate.tradeDate, candidate.code) = event.candidateKey clock) ∧
      (∀ other, other = event.conditionName ∨ other ∈ namesOf (collected found event clock) ↔
        other = event.conditionName ∨ other ∈ namesOf found) ∧
      ((namesOf found).Nodup → (namesOf (collected found event clock)).Nodup) ∧
      sourceMapOf (collected found event clock) = sourceMapOf found := by
  unfold collected
  split
  · exact ⟨hstored, fun _ => Iff.rfl, id, rfl⟩
  · cases found with
    | none =>
      refine ⟨?_, fun other => ?_, fun _ => nodup_singleton _, rfl⟩
      · intro candidate hcandidate
        obtain rfl := Option.some.inj hcandidate
        exact stored_detected
      · show _ ∨ other ∈ [event.conditionName] ↔ _ ∨ other ∈ []
        simp
    | some existing =>
      obtain ⟨hdate, hcode, -, hnames⟩ := reopened_frame existing
      have hmerged : (merged existing event clock).conditionNames =
          appendNew existing.conditionNames event.conditionName := by
        show appendNew (reopened existing).conditionNames _ = _
        rw [hnames]
      refine ⟨?_, fun other => ?_, fun hnodup => ?_, ?_⟩
      · intro candidate hcandidate
        obtain rfl := Option.some.inj hcandidate
        show ((reopened existing).tradeDate, (reopened existing).code) = _
        rw [hdate, hcode]
        exact hstored existing rfl
      · show _ ∨ other ∈ (merged existing event clock).conditionNames ↔
          _ ∨ other ∈ existing.conditionNames
        rw [hmerged, mem_appendNew]
        exact ⟨fun h => h.elim Or.inl id, Or.inr⟩
      · show (merged existing event clock).conditionNames.Nodup
        rw [hmerged]
        exact nodup_appendNew hnodup
      · show (reopened existing).sourceMap = existing.sourceMap
        exact sourceMap_reopened

theorem IncludesCondition.markedHydrating {found : Option Candidate} {candidate : Candidate}
    {name : String} (h : IncludesCondition found candidate key name) (ticket : HydrationTicket) :
    IncludesCondition found (services.markedHydrating candidate ticket) key name := by
  let requested := CandidateHydrator.requestedCandidate candidate
    (services.hydrator.hydrationCommand ticket.candidateId candidate ticket.messageId)
    ticket.waitsOn ticket.moment
  have hfollows : Follows requested
      (services.markedHydrating candidate ticket) := follows_promote ..
  have hconditions : (services.markedHydrating candidate ticket).sources = candidate.sources ∧
      (services.markedHydrating candidate ticket).conditionNames = candidate.conditionNames :=
    promote_conditions ..
  have hmap : (services.markedHydrating candidate ticket).sourceMap = candidate.sourceMap :=
    hfollows.sourceMap
  refine ⟨?_, ?_, ?_, ?_, ?_, ?_, ?_⟩
  · rw [hfollows.tradeDate, hfollows.code]
    exact h.stored
  · rw [hconditions.2]
    exact h.names
  · rw [hconditions.2]
    exact h.nodup
  · rw [hconditions.1]
    exact h.searched
  · rw [hmap]
    exact h.keyed
  · rw [hmap]
    exact h.active
  · have hrequested : requested.state ≠ .removed := by
      show (if candidate.state ∈ _ then CandidateState.hydrating else candidate.state) ≠ _
      split
      · decide
      · exact h.stays
    rcases hfollows.state with hstate | ⟨-, hstate⟩ | ⟨-, hstate⟩
    · rw [hstate]
      exact hrequested
    · simp [hstate]
    · simp [hstate]

/-- The candidate that an include leaves, from the one that was found. -/
def afterInclude (services : ConditionServices) (found : Option Candidate)
    (event : BrokerConditionEvent) (membership : Option ThemeMembership)
    (ticket : Option HydrationTicket) (clock : Clock) : Candidate :=
  let ingested := services.ingestion.included (collected found event clock)
    (event.normalized membership clock) clock
  match ticket with
  | none => ingested
  | some ticket => services.markedHydrating ingested ticket

variable (services membership) in
theorem includesCondition_afterInclude (hdated : clock.today ≠ "") (found : Option Candidate)
    (hstored : ∀ candidate ∈ found,
      (candidate.tradeDate, candidate.code) = event.candidateKey clock)
    (ticket : Option HydrationTicket) :
    IncludesCondition found (afterInclude services found event membership ticket clock)
      (event.candidateKey clock) event.conditionName := by
  obtain ⟨hstored', hnames, hnodup, hmap⟩ := collected_spec found hstored
  unfold afterInclude
  generalize collected found event clock = collected at hstored' hnames hnodup hmap ⊢
  have hincluded := includesCondition_included services membership hdated collected hstored'
  have hingested : IncludesCondition found
      (services.ingestion.included collected (event.normalized membership clock) clock)
      (event.candidateKey clock) event.conditionName :=
    { stored := hincluded.stored
      names := fun other => (hincluded.names other).trans (hnames other)
      nodup := fun h => hincluded.nodup (hnodup h)
      searched := hincluded.searched
      keyed := fun h => hincluded.keyed (hmap ▸ h)
      active := fun other => by rw [hincluded.active, hmap]
      stays := hincluded.stays }
  cases ticket with
  | none => exact hingested
  | some ticket => exact hingested.markedHydrating ticket

theorem get?_save {table : CandidateTable} {candidate : Candidate}
    (hstored : (candidate.tradeDate, candidate.code) = key) (other : String × String) :
    (table.save candidate).get? other =
      if other = key then some candidate else table.get? other := by
  unfold CandidateTable.save
  rw [hstored, Dict.get?_set]

variable (services membership) in
theorem persist_included {table : CandidateTable} (hdated : clock.today ≠ "")
    (hincluded : event.eventType = .included)
    (hstored : ∀ candidate ∈ table.get? (event.candidateKey clock),
      (candidate.tradeDate, candidate.code) = event.candidateKey clock)
    (ticket : Option HydrationTicket) (other : String × String) :
    (services.persistConditionEvent table event membership ticket clock).get? other =
      if other = event.candidateKey clock then
        some (afterInclude services (table.get? (event.candidateKey clock)) event membership ticket
          clock)
      else table.get? other := by
  obtain ⟨hcollected, -⟩ := collected_spec _ hstored
  -- the collector leaves what `collected` says, under the key
  have hfirst : ∀ other, (handleConditionInclude table event clock).get? other =
      if other = event.candidateKey clock then
        collected (table.get? (event.candidateKey clock)) event clock
      else table.get? other := by
    intro other
    unfold handleConditionInclude
    unfold collected at hcollected ⊢
    by_cases hvalid : ¬ isValidStockCode event.code = true
    · rw [if_pos hvalid, if_pos hvalid]
      split
      · rename_i heq
        rw [heq]
      · rfl
    · rw [if_neg hvalid] at hcollected
      rw [if_neg hvalid, if_neg hvalid]
      cases hget : table.get? (event.candidateKey clock) with
      | none =>
        rw [hget] at hcollected
        exact get?_save (hcollected _ rfl) other
      | some existing =>
        rw [hget] at hcollected
        exact get?_save (hcollected _ rfl) other
  have hingested := includesCondition_afterInclude services membership hdated _ hstored none
  have hmarked := includesCondition_afterInclude services membership hdated _ hstored ticket
  unfold afterInclude at hingested hmarked ⊢
  have hself := hfirst (event.candidateKey clock)
  rw [if_pos rfl] at hself
  generalize collected (table.get? (event.candidateKey clock)) event clock = found at *
  have hcode : (event.normalized membership clock).code ≠ "" := by
    rw [(normalized_spec event membership hdated).2.1]
    exact event.coded
  have hingest : services.ingestion.handleConditionEvent
      (handleConditionInclude table event clock) event membership clock =
        ((handleConditionInclude table event clock).save
            (services.ingestion.included found (event.normalized membership clock) clock),
          { candidate := some
              (services.ingestion.included found (event.normalized membership clock) clock)
            sourceEvent := event.normalized membership clock
            created := found.isNone
            merged := found.isSome
            reason := if found.isNone then "CREATED" else "MERGED" }) := by
    unfold handleConditionEvent ingest
    simp only [hincluded]
    rw [show (enrichSourceThemeContext (sourceEventFromConditionEvent event clock)
        membership).normalized clock = event.normalized membership clock from rfl,
      if_neg hcode, if_neg (not_saysRemove_normalized hdated hincluded),
      candidateKey_normalized hdated, hself]
  have hsecond : ∀ other, ((handleConditionInclude table event clock).save
      (services.ingestion.included found (event.normalized membership clock) clock)).get? other =
        if other = event.candidateKey clock then
          some (services.ingestion.included found (event.normalized membership clock) clock)
        else table.get? other := by
    intro other
    rw [get?_save hingested.stored, hfirst]
    split
    · rfl
    · rfl
  unfold persistConditionEvent ingestConditionEventV2
  simp only [hincluded, hingest]
  cases ticket with
  | none => exact hsecond other
  | some ticket =>
    show (CandidateTable.save _ _).get? other = _
    rw [get?_save hmarked.stored, hsecond]
    split
    · rfl
    · rfl

end Include

/-! ### A remove -/

section Remove

variable {services : ConditionServices} {event : BrokerConditionEvent}
  {membership : Option ThemeMembership} {clock : Clock} {candidate : Candidate}

/-- The candidate that a remove leaves, from the one that was found. -/
def afterRemove (services : ConditionServices) (candidate : Candidate)
    (event : BrokerConditionEvent) (membership : Option ThemeMembership) (clock : Clock) :
    Candidate :=
  services.ingestion.removed
    (if isValidStockCode event.code then CandidateCollector.withdrawn candidate event clock
      else candidate)
    (event.normalized membership clock) clock

variable (event clock) in
theorem withdrawn_spec (hnodup : candidate.conditionNames.Nodup) :
    (∀ other, other ∈ (CandidateCollector.withdrawn candidate event clock).conditionNames ↔
        other ∈ candidate.conditionNames ∧ other ≠ event.conditionName) ∧
      (CandidateCollector.withdrawn candidate event clock).conditionNames.Nodup ∧
      (∀ source ∈ (CandidateCollector.withdrawn candidate event clock).sources,
        source ∈ candidate.sources) ∧
      (∀ source ∈ candidate.sources, source ≠ .condition →
        source ∈ (CandidateCollector.withdrawn candidate event clock).sources) ∧
      ((CandidateCollector.withdrawn candidate event clock).state = .removed →
        candidate.state = .removed ∨
          (CandidateCollector.withdrawn candidate event clock).sources = []) := by
  unfold CandidateCollector.withdrawn
  dsimp only
  refine ⟨fun other => ?_, hnodup.erase _, ?_, ?_, ?_⟩
  · rw [hnodup.mem_erase_iff, and_comm]
  · intro source hsource
    split at hsource
    · exact mem_of_mem_erase hsource
    · exact hsource
  · intro source hsource hne
    split
    · exact (mem_erase_of_ne hne).mpr hsource
    · exact hsource
  · intro hstate
    generalize (if candidate.conditionNames.erase event.conditionName = [] then
      candidate.sources.erase .condition else candidate.sources) = sources at hstate ⊢
    split at hstate
    · rename_i hempty
      exact Or.inr hempty.1
    · exact Or.inl hstate

variable (services event membership) in
theorem withdrawsCondition_afterRemove (hdated : clock.today ≠ "")
    (hnodup : candidate.conditionNames.Nodup) :
    WithdrawsCondition candidate (afterRemove services candidate event membership clock)
      (isValidStockCode event.code) event.conditionName := by
  unfold afterRemove
  have hsource : (event.normalized membership clock).key =
      "condition_search:" ++ event.conditionName := key_normalized hdated
  generalize event.normalized membership clock = source at hsource ⊢
  obtain ⟨hnames, hnodup', hsources, hkept, hremoved⟩ :=
    withdrawn_spec event clock hnodup
  -- what the collector leaves, whether or not it looks at the code
  generalize hcollected : (if isValidStockCode event.code then
    CandidateCollector.withdrawn candidate event clock else candidate) = collected
  have hmap : collected.sourceMap = candidate.sourceMap := by
    rw [← hcollected]
    split
    · rfl
    · rfl
  have hfollows : Follows (withdrawnCandidate collected source)
      (services.ingestion.removed collected source clock) := follows_removed
  have hconditions : (services.ingestion.removed collected source clock).sources =
        collected.sources ∧
      (services.ingestion.removed collected source clock).conditionNames =
        collected.conditionNames := promote_conditions ..
  have hafter : (services.ingestion.removed collected source clock).sourceMap =
      withdrawn candidate.sourceMap ("condition_search:" ++ event.conditionName)
        source.detectedAt := by
    rw [sourceMap_removed, hmap, hsource]
  refine ⟨?_, ?_, ?_, ?_, ?_, ?_, ?_, ?_⟩
  · rw [hfollows.tradeDate, hfollows.code]
    show (collected.tradeDate, collected.code) = _
    rw [← hcollected]
    split
    · rfl
    · rfl
  · intro other
    rw [hconditions.2, ← hcollected]
    split
    · rename_i hvalid
      rw [hnames other]
      exact and_congr_right fun _ => ⟨fun hne _ => hne, fun hne => hne hvalid⟩
    · rename_i hinvalid
      exact (and_iff_left fun hvalid => absurd hvalid hinvalid).symm
  · rw [hconditions.2, ← hcollected]
    split
    · exact hnodup'
    · exact hnodup
  · rw [hconditions.1, ← hcollected]
    split
    · exact hsources
    · exact fun _ => id
  · rw [hconditions.1, ← hcollected]
    split
    · exact hkept
    · exact fun _ hmem _ => hmem
  · rw [hafter]
    exact keyedByName_withdrawn
  · intro other
    rw [hafter]
    exact mem_activeKeys_withdrawn
  · intro hstate
    rw [hconditions.1, hafter, ← activeEntries_eq_nil]
    have hbefore : (withdrawnCandidate collected source).state = .removed := by
      rcases hfollows.state with h | ⟨-, h⟩ | ⟨-, h⟩
      · rw [← h]
        exact hstate
      · rw [hstate] at h
        cases h
      · rw [hstate] at h
        cases h
    unfold withdrawnCandidate at hbefore
    dsimp only at hbefore
    split at hbefore
    · rename_i hcondition
      have hnone : activeEntries (withdrawn collected.sourceMap source.key source.detectedAt) =
          [] := hcondition.1
      rw [hmap, hsource] at hnone
      exact Or.inr (Or.inr hnone)
    · rw [← hcollected] at hbefore ⊢
      split at hbefore
      · rename_i hvalid
        rw [if_pos hvalid]
        exact (hremoved hbefore).imp_right Or.inl
      · exact Or.inl hbefore

theorem get?_removeSource {table : CandidateTable} {sourceEvent : CandidateSourceEvent}
    {key : String × String} (hkey : (sourceEvent.normalized clock).candidateKey = key)
    (hstored : ∀ candidate ∈ table.get? key, (candidate.tradeDate, candidate.code) = key)
    (other : String × String) :
    (services.ingestion.removeSource table sourceEvent clock).1.get? other =
      if other = key then
        (table.get? key).map fun candidate =>
          services.ingestion.removed candidate (sourceEvent.normalized clock) clock
      else table.get? other := by
  unfold removeSource
  dsimp only
  rw [hkey]
  cases hget : table.get? key with
  | none =>
    show table.get? other = _
    split
    · rename_i heq
      rw [heq, hget]
      rfl
    · rfl
  | some candidate =>
    have hfollows : Follows
        (withdrawnCandidate candidate (sourceEvent.normalized clock))
        (services.ingestion.removed candidate (sourceEvent.normalized clock) clock) :=
      follows_removed
    have hsaved : ((services.ingestion.removed candidate (sourceEvent.normalized clock)
        clock).tradeDate, (services.ingestion.removed candidate (sourceEvent.normalized clock)
          clock).code) = key := by
      rw [hfollows.tradeDate, hfollows.code]
      exact hstored candidate hget
    exact get?_save hsaved other

theorem get?_handleConditionRemove {table : CandidateTable}
    (hstored : ∀ candidate ∈ table.get? (event.candidateKey clock),
      (candidate.tradeDate, candidate.code) = event.candidateKey clock)
    (other : String × String) :
    (handleConditionRemove table event clock).get? other =
      if other = event.candidateKey clock then
        (table.get? (event.candidateKey clock)).map fun candidate =>
          if isValidStockCode event.code then CandidateCollector.withdrawn candidate event clock
          else candidate
      else table.get? other := by
  have hsame : table.get? other = if other = event.candidateKey clock then
      table.get? (event.candidateKey clock) else table.get? other := by
    split
    · rename_i heq
      rw [heq]
    · rfl
  unfold handleConditionRemove
  by_cases hvalid : isValidStockCode event.code = true
  · rw [if_neg (not_not.mpr hvalid)]
    simp only [if_pos hvalid]
    cases hget : table.get? (event.candidateKey clock) with
    | none =>
      rw [hget] at hsame
      exact hsame
    | some candidate =>
      have hsaved : ((CandidateCollector.withdrawn candidate event clock).tradeDate,
          (CandidateCollector.withdrawn candidate event clock).code) =
            event.candidateKey clock := hstored candidate hget
      exact get?_save hsaved other
  · rw [if_pos hvalid]
    simp only [if_neg hvalid]
    rw [Option.map_id']
    exact hsame

variable (services membership) in
theorem persist_removed {table : CandidateTable} (hdated : clock.today ≠ "")
    (hremoved : event.eventType = .removed)
    (hstored : ∀ candidate ∈ table.get? (event.candidateKey clock),
      (candidate.tradeDate, candidate.code) = event.candidateKey clock)
    (ticket : Option HydrationTicket) (other : String × String) :
    (services.persistConditionEvent table event membership ticket clock).get? other =
      if other = event.candidateKey clock then
        (table.get? (event.candidateKey clock)).map
          fun candidate => afterRemove services candidate event membership clock
      else table.get? other := by
  have hcollected := get?_handleConditionRemove hstored
  have hself := hcollected (event.candidateKey clock)
  rw [if_pos rfl] at hself
  have hkept : ∀ candidate ∈ (handleConditionRemove table event clock).get?
      (event.candidateKey clock),
      (candidate.tradeDate, candidate.code) = event.candidateKey clock := by
    intro candidate hcandidate
    rw [hself] at hcandidate
    obtain ⟨before, hbefore, rfl⟩ := Option.map_eq_some_iff.mp hcandidate
    split
    · exact hstored before hbefore
    · exact hstored before hbefore
  have hpersist : services.persistConditionEvent table event membership ticket clock =
      (services.ingestion.removeSource (handleConditionRemove table event clock)
        (enrichSourceThemeContext (sourceEventFromConditionEvent event clock) membership)
        clock).1 := by
    unfold persistConditionEvent ingestConditionEventV2 handleConditionEvent
    simp only [hremoved]
  rw [hpersist, get?_removeSource (candidateKey_normalized hdated) hkept, hself, Option.map_map,
    hcollected]
  split
  · rfl
  · rfl

end Remove
/-! ## What other sources and services do to a candidate -/

def sourcesOf (found : Option Candidate) : List CandidateSourceType :=
  (found.map (·.sources)).getD []

/-- What a step that is about no condition leaves. -/
structure LeavesConditions (key : String × String) (found : Option Candidate)
    (after : Candidate) : Prop where
  stored : (after.tradeDate, after.code) = key
  names : after.conditionNames = namesOf found
  sources : ∀ source ∈ conditionTypes, (source ∈ after.sources ↔ source ∈ sourcesOf found)
  sourced : ∃ source ∈ after.sources, source ≠ .condition
  keyed : KeyedByName (sourceMapOf found) → KeyedByName after.sourceMap
  active : ∀ name, "condition_search:" ++ name ∈ activeKeys after.sourceMap ↔
    "condition_search:" ++ name ∈ activeKeys (sourceMapOf found)
  removed : after.state = .removed →
    (∃ before ∈ found, before.state = .removed) ∨ activeKeys after.sourceMap = []

section Others

variable {service : CandidateIngestionService} {event : CandidateSourceEvent} {clock : Clock}
  {candidate after : Candidate} {found : Option Candidate} {key : String × String}
  {included : List String}

theorem sourceType_normalized (hother : event.sourceType ∈ otherSourceTypes) :
    (event.normalized clock).sourceType ∈ otherSourceTypes := by
  have hne : event.sourceType ≠ "" := by
    intro hempty
    rw [hempty] at hother
    exact absurd hother (by decide)
  unfold normalized
  dsimp only
  rw [if_pos hne]
  exact hother

theorem candidateSource_other {sourceType : String} (hother : sourceType ∈ otherSourceTypes) :
    ∃ source, candidateSource sourceType = some source ∧ source ∉ conditionTypes := by
  simp only [otherSourceTypes, mem_cons, not_mem_nil, or_false] at hother
  rcases hother with rfl | rfl | rfl
  · exact ⟨.openingBurst, rfl, by decide⟩
  · exact ⟨.manualWatch, rfl, by decide⟩
  · exact ⟨.themeBoard, rfl, by decide⟩

variable (service clock) in
theorem leavesConditions_included (hother : event.sourceType ∈ otherSourceTypes)
    (hstored : ∀ candidate ∈ found, (candidate.tradeDate, candidate.code) = event.candidateKey) :
    LeavesConditions event.candidateKey found (service.included found event clock) := by
  let base := reopened (found.getD (newCandidate event clock))
  let merged := mergeCandidate base event clock
  have hfollows : Follows merged (service.included found event clock) :=
    follows_promote ..
  have hconditions : (service.included found event clock).sources = merged.sources ∧
      (service.included found event clock).conditionNames = merged.conditionNames :=
    promote_conditions ..
  obtain ⟨hdate, hcode, hbase, hnames⟩ := reopened_frame (found.getD (newCandidate event clock))
  have hbaseNames : base.conditionNames = namesOf found := by
    rw [show base.conditionNames = _ from hnames]
    cases found with
    | none => rfl
    | some candidate => rfl
  have hbaseSources : base.sources = sourcesOf found := by
    rw [show base.sources = _ from hbase]
    cases found with
    | none => rfl
    | some candidate => rfl
  have hbaseMap : base.sourceMap = sourceMapOf found := by
    rw [show base.sourceMap = _ from sourceMap_reopened]
    cases found with
    | none => rfl
    | some candidate => rfl
  have hmap : (service.included found event clock).sourceMap =
      (sourceMapOf found).set event.key event.summary := by
    rw [hfollows.sourceMap, sourceMap_mergeCandidate, hbaseMap]
  obtain ⟨source, hsource, hcondition⟩ := candidateSource_other hother
  have hsources : (service.included found event clock).sources =
      appendNew (sourcesOf found) source := by
    rw [hconditions.1, ← hbaseSources]
    simp only [merged, mergeCandidate, hsource]
  have htype : event.sourceType ≠ "condition_search" := by
    intro heq
    rw [heq] at hother
    exact absurd hother (by decide)
  refine ⟨?_, ?_, ?_, ?_, ?_, ?_, ?_⟩
  · rw [hfollows.tradeDate, hfollows.code]
    show (base.tradeDate, base.code) = _
    rw [show base.tradeDate = _ from hdate, show base.code = _ from hcode]
    cases found with
    | none => rfl
    | some candidate => exact hstored candidate rfl
  · rw [hconditions.2, ← hbaseNames]
    show (if event.sourceType = "condition_search" ∧ event.sourceId ≠ "" then _
      else base.conditionNames) = _
    rw [if_neg fun h => htype h.1]
  · intro other hmem
    rw [hsources, mem_appendNew]
    exact or_iff_right fun heq => hcondition (heq ▸ hmem)
  · rw [hsources]
    exact ⟨source, mem_appendNew.mpr (Or.inl rfl), fun heq => hcondition (heq ▸ by decide)⟩
  · intro hkeyed
    rw [hmap]
    refine keyedByName_set hkeyed fun name => iff_of_false (sourceKey_other hother) ?_
    exact fun h => htype h.1
  · intro name
    rw [hmap, mem_activeKeys_set rfl]
    exact or_iff_right fun heq => sourceKey_other hother heq.symm
  · intro hremoved
    rcases hfollows.state with h | ⟨-, h⟩ | ⟨-, h⟩
    · rw [h] at hremoved
      exact absurd hremoved reopened_state_ne
    · rw [hremoved] at h
      cases h
    · rw [hremoved] at h
      cases h

variable (service clock) in
theorem leavesConditions_removed (hother : event.sourceType ∈ otherSourceTypes)
    (hstored : (candidate.tradeDate, candidate.code) = key)
    (hsourced : ∃ source ∈ candidate.sources, source ≠ .condition) :
    LeavesConditions key (some candidate) (service.removed candidate event clock) := by
  have hfollows : Follows (withdrawnCandidate candidate event)
      (service.removed candidate event clock) := follows_removed
  have hconditions : (service.removed candidate event clock).sources = candidate.sources ∧
      (service.removed candidate event clock).conditionNames = candidate.conditionNames :=
    promote_conditions ..
  refine ⟨?_, hconditions.2, ?_, ?_, ?_, ?_, ?_⟩
  · rw [hfollows.tradeDate, hfollows.code]
    exact hstored
  · intro source _
    rw [hconditions.1]
    rfl
  · rw [hconditions.1]
    exact hsourced
  · rw [sourceMap_removed]
    exact keyedByName_withdrawn
  · intro name
    rw [sourceMap_removed, mem_activeKeys_withdrawn]
    exact and_iff_right fun heq => sourceKey_other hother heq.symm
  · intro hremoved
    rw [sourceMap_removed, ← activeEntries_eq_nil]
    have hbefore : (withdrawnCandidate candidate event).state = .removed := by
      rcases hfollows.state with h | ⟨-, h⟩ | ⟨-, h⟩
      · rw [← h]
        exact hremoved
      · rw [hremoved] at h
        cases h
      · rw [hremoved] at h
        cases h
    unfold withdrawnCandidate at hbefore
    dsimp only at hbefore
    split at hbefore
    · rename_i hnone
      exact Or.inr hnone.1
    · exact Or.inl ⟨candidate, rfl, hbefore⟩

end Others

end TradingCore.Candidates
