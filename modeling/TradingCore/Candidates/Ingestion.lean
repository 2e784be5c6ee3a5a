import TradingCore.Candidates.Fsm
import Mathlib.Algebra.Order.Ring.Rat
import Mathlib.Data.List.MinMax
import Mathlib.Data.Prod.Lex

/-!
# Candidate ingestion

`CandidateIngestionService` of `trading/strategy/candidate_ingestion.py`: a source includes a
stock as a candidate of a trade date, or withdraws. Both operations load the candidate of the date
and code, rewrite its source map and what is recorded of the active sources, save it, and pass the
event on to the candidate state machine. The journals of candidate and source events, which nothing
here reads back, are left out.
-/

namespace TradingCore.Candidates

open Base

/-! ## Source events -/

/-- What an operation reads off the service's clock: the time, its date, and the time at which a
candidate found now expires. -/
structure Clock where
  now : String
  today : String
  expiresAt : String

structure CandidateSourceEvent where
  tradeDate : String
  code : String
  name : String := ""
  sourceType : String := "condition_search"
  sourceId : String := ""
  sourceRank : Int := 0
  sourceScore : Rat := 0
  themeId : String := ""
  themeName : String := ""
  stockRole : String := ""
  reasonCodes : List String := []
  rawPayload : Mapping := .empty
  detectedAt : String := ""

/-- `_trade_date`. -/
def tradeDateOf (clock : Clock) (timestamp : String) : String :=
  if timestamp.length ≥ 10 then .ofList (timestamp.toList.take 10) else clock.today

/-- `SOURCE_PRIORITY.get(source_type, 0)`. -/
def sourcePriority : String → Int
  | "opening_burst" => 400
  | "condition_search" => 300
  | "manual_watch" => 200
  | "theme_board" => 100
  | _ => 0

def candidateSource : String → Option CandidateSourceType
  | "condition_search" => some .conditionSearch
  | "opening_burst" => some .openingBurst
  | "manual_watch" => some .manualWatch
  | "theme_board" => some .themeBoard
  | _ => none

def sourceKey (sourceType sourceId : String) : String :=
  sourceType ++ ":" ++ if sourceId ≠ "" then sourceId else sourceType

namespace CandidateSourceEvent

def normalized (event : CandidateSourceEvent) (clock : Clock) : CandidateSourceEvent :=
  let detectedAt := if event.detectedAt ≠ "" then event.detectedAt else clock.now
  { event with
    tradeDate := if event.tradeDate ≠ "" then event.tradeDate else tradeDateOf clock detectedAt
    code := normalizeCode event.code
    sourceType := if event.sourceType ≠ "" then event.sourceType else "condition_search"
    sourceRank := max 0 event.sourceRank
    sourceScore := max 0 event.sourceScore
    reasonCodes := dedupe event.reasonCodes
    detectedAt }

def key (event : CandidateSourceEvent) : String := sourceKey event.sourceType event.sourceId

def candidateKey (event : CandidateSourceEvent) : String × String := (event.tradeDate, event.code)

/-- Does the raw payload say that the source withdraws? -/
def saysRemove (event : CandidateSourceEvent) : Prop :=
  Text.lower (event.rawPayload.textOr "event_type") = "remove"
deriving Decidable

/-- The texts of `to_dict`, as the state machine receives them. -/
def toDict (event : CandidateSourceEvent) : Mapping :=
  .ofList
    [("trade_date", .str event.tradeDate), ("code", .str event.code), ("name", .str event.name),
     ("source_type", .str event.sourceType), ("source_id", .str event.sourceId),
     ("source_rank", .int event.sourceRank), ("theme_id", .str event.themeId),
     ("theme_name", .str event.themeName), ("stock_role", .str event.stockRole),
     ("detected_at", .str event.detectedAt)]

/-- `_source_event_summary` of an active source. -/
def summary (event : CandidateSourceEvent) : SourceEntry :=
  { sourceType := event.sourceType
    sourceId := event.sourceId
    sourceRank := event.sourceRank
    sourceScore := event.sourceScore
    themeId := event.themeId
    themeName := event.themeName
    stockRole := event.stockRole
    reasonCodes := event.reasonCodes
    detectedAt := event.detectedAt
    active := true }

end CandidateSourceEvent

/-! ## The primary source -/

-- the orders that a search finds first in all of Mathlib do not compute
local instance (priority := high) intPreorder : Preorder Int := Int.instLinearOrder.toPreorder

local instance (priority := high) ratPreorder : Preorder Rat := Rat.linearOrder.toPreorder

/-- What sources are ranked by: priority, then score, then rank, a low rank first. -/
def SourceEntry.standing (entry : SourceEntry) : Int ×ₗ Rat ×ₗ Int :=
  toLex (sourcePriority entry.sourceType, toLex (entry.sourceScore, -entry.sourceRank))

def activeEntries (sourceMap : Dict String SourceEntry) : List SourceEntry :=
  sourceMap.values.filter (·.active)

/-- `_primary_source`: the first of the active entries that stand highest. -/
def primarySourceOf (sourceMap : Dict String SourceEntry) : Option SourceEntry :=
  (activeEntries sourceMap).argmax SourceEntry.standing

def activeTypes (sourceMap : Dict String SourceEntry) : List String :=
  dedupe ((activeEntries sourceMap).map (·.sourceType))

/-! ## The service -/

structure CandidateIngestionResult where
  candidate : Option Candidate := none
  sourceEvent : CandidateSourceEvent
  created : Bool := false
  merged : Bool := false
  removed : Bool := false
  ignored : Bool := false
  reason : String

/-- The table `candidates`, by trade date and code. -/
abbrev CandidateTable := Dict (String × String) Candidate

/-- `save_candidate`. -/
def CandidateTable.save (table : CandidateTable) (candidate : Candidate) : CandidateTable :=
  table.set (candidate.tradeDate, candidate.code) candidate

def newCandidate (event : CandidateSourceEvent) (clock : Clock) : Candidate :=
  { tradeDate := event.tradeDate
    code := event.code
    name := event.name
    detectedAt := event.detectedAt
    lastSeenAt := event.detectedAt
    expiresAt := clock.expiresAt }

def appendNew {α : Type} [DecidableEq α] (items : List α) (item : α) : List α :=
  if item ∈ items then items else items ++ [item]

/-- The section `candidate_ingestion` that `_merge_candidate` writes. -/
def mergedIngestion (metadata : CandidateMetadata) (event : CandidateSourceEvent) :
    CandidateIngestion :=
  let ingestion := metadata.candidateIngestion.getD {}
  let sourceMap := ingestion.sourceMap.set event.key event.summary
  let primary := primarySourceOf sourceMap
  { sourceMap
    activeSourceTypes := activeTypes sourceMap
    primarySource := (primary.map (·.sourceType)).getD ""
    primarySourceId := (primary.map (·.sourceId)).getD ""
    primaryThemeId := (primary.map (·.themeId)).getD ""
    themeName := (primary.map (·.themeName)).getD ""
    stockRole := (primary.map (·.stockRole)).getD ""
    score := (primary.map (·.sourceScore)).getD 0
    reasonCodes := dedupe (metadata.reasonCodes ++ sourceMap.values.flatMap (·.reasonCodes))
    lastSourceEventAt := event.detectedAt }

def mergeCandidate (candidate : Candidate) (event : CandidateSourceEvent) (clock : Clock) :
    Candidate :=
  let ingestion := mergedIngestion candidate.metadata event
  { candidate with
    name := if event.name ≠ "" then event.name else candidate.name
    sources := match candidateSource event.sourceType with
      | some source => appendNew candidate.sources source
      | none => candidate.sources
    themeIds := if event.themeId ≠ "" then appendNew candidate.themeIds event.themeId
      else candidate.themeIds
    conditionNames :=
      if event.sourceType = "condition_search" ∧ event.sourceId ≠ "" then
        appendNew candidate.conditionNames event.sourceId
      else candidate.conditionNames
    priority := max candidate.priority
      (sourcePriority event.sourceType + max 0 (1000 - event.sourceRank))
    lastSeenAt := event.detectedAt
    detectedAt := if candidate.detectedAt ≠ "" then candidate.detectedAt else event.detectedAt
    expiresAt := if candidate.expiresAt ≠ "" then candidate.expiresAt else clock.expiresAt
    metadata := { candidate.metadata with
      candidateIngestion := some ingestion
      primarySource := ingestion.primarySource
      primarySourceId := ingestion.primarySourceId
      primaryThemeId := ingestion.primaryThemeId
      themeName := ingestion.themeName
      stockRole := ingestion.stockRole
      sourceScore := ingestion.score
      reasonCodes := ingestion.reasonCodes
      candidateGenerationSeq := some (candidate.metadata.candidateGenerationSeq.getD 1)
      candidateInstanceId := some (candidate.metadata.candidateInstanceId.getD
        (candidate.tradeDate ++ ":" ++ candidate.code ++ ":1"))
      bestThemeId := if event.themeId ≠ "" then event.themeId else candidate.metadata.bestThemeId } }

def reopened (candidate : Candidate) : Candidate :=
  if candidate.state ∈ [.removed, .expired] then
    { candidate with state := .detected, blockType := .none, canRecover := false, recheckAfterSec := 0 }
  else candidate

/-- The source map after the source under `key` withdrew. -/
def withdrawn (sourceMap : Dict String SourceEntry) (key removedAt : String) :
    Dict String SourceEntry :=
  match sourceMap.get? key with
  | none => sourceMap
  | some entry => sourceMap.set key { entry with active := false, removedAt := removedAt }

/-- The candidate as `remove_source` saves it, before the state machine hears of it. -/
def withdrawnCandidate (candidate : Candidate) (event : CandidateSourceEvent) : Candidate :=
  let ingestion := candidate.metadata.candidateIngestion.getD {}
  let sourceMap := withdrawn ingestion.sourceMap event.key event.detectedAt
  { candidate with
    state :=
      if activeEntries sourceMap = [] ∧
          candidate.state ∈ [.detected, .hydrating, .waitData, .watching] then .removed
      else candidate.state
    lastSeenAt := event.detectedAt
    metadata := { candidate.metadata with
      candidateIngestion := some
        { ingestion with
          sourceMap := sourceMap
          activeSourceTypes := activeTypes sourceMap }
      sourceRemovedAt := event.detectedAt } }

/-- `CandidateIngestionService`, by the state contract that its state machine reconciles. -/
structure CandidateIngestionService where
  contract : CandidateStateContractService

namespace CandidateIngestionService

def fsm (service : CandidateIngestionService) : CandidateFsmService := ⟨some service.contract⟩

/-- The candidate that `remove_source` leaves in the table. -/
def removed (service : CandidateIngestionService) (candidate : Candidate)
    (event : CandidateSourceEvent) (clock : Clock) : Candidate :=
  (service.fsm.onConditionRemove (withdrawnCandidate candidate event) event.toDict clock.now).1

/-- The candidate that `ingest` leaves in the table, from the one it found there. -/
def included (service : CandidateIngestionService) (existing : Option Candidate)
    (event : CandidateSourceEvent) (clock : Clock) : Candidate :=
  let candidate := existing.getD (newCandidate event clock)
  (service.fsm.onConditionInclude (mergeCandidate (reopened candidate) event clock) event.toDict
    clock.now).1

def removeSource (service : CandidateIngestionService) (table : CandidateTable)
    (sourceEvent : CandidateSourceEvent) (clock : Clock) :
    CandidateTable × CandidateIngestionResult :=
  let event := sourceEvent.normalized clock
  match table.get? event.candidateKey with
  | none => (table, { sourceEvent := event, ignored := true, reason := "CANDIDATE_NOT_FOUND" })
  | some candidate =>
      let saved := service.removed candidate event clock
      (table.save saved,
        { candidate := some saved, sourceEvent := event, removed := true, reason := "REMOVED" })

def ingest (service : CandidateIngestionService) (table : CandidateTable)
    (sourceEvent : CandidateSourceEvent) (clock : Clock) :
    CandidateTable × CandidateIngestionResult :=
  let event := sourceEvent.normalized clock
  if event.code = "" then
    (table, { sourceEvent := event, ignored := true, reason := "CODE_MISSING" })
  else if event.saysRemove then service.removeSource table event clock
  else
    let existing := table.get? event.candidateKey
    let saved := service.included existing event clock
    (table.save saved,
      { candidate := some saved
        sourceEvent := event
        created := existing.isNone
        merged := existing.isSome
        reason := if existing.isNone then "CREATED" else "MERGED" })

end CandidateIngestionService

end TradingCore.Candidates
