import TradingCore.Candidates.HydrationCommands
import TradingCore.Candidates.Ingestion

/-!
# The two writers of a condition event

`_persist_condition_event_with_collector` (`trading_app/api.py`) gives an event of the condition
search to two services: `CandidateCollector` of `trading/strategy/candidates.py`, which keeps the
names of the conditions and the source `condition`, and `CandidateIngestionService`, which keeps the
source map and the source `condition_search`. After an include the hydrator requests the data of the
candidate.

The collector's worker has no client and no session check. Its journal and its metadata of the
conditions are left out. Both services read one time.
-/

namespace TradingCore.Candidates

open Base

/-! ## Condition events -/

/-- `event_type` of a condition event. -/
inductive ConditionEventType
  | included
  | removed
deriving DecidableEq

def ConditionEventType.value : ConditionEventType → String
  | included => "include"
  | removed => "remove"

/-- `BrokerConditionEvent`: a condition has a name, and the event names a code. -/
structure BrokerConditionEvent where
  conditionName : String
  code : String
  conditionIndex : Int := -1
  eventType : ConditionEventType := .included
  source : String := "condition"
  strategyProfile : String := ""
  purpose : String := ""
  timestamp : String := ""
  named : conditionName ≠ ""
  coded : normalizeCode code ≠ ""

def isValidStockCode (code : String) : Bool :=
  let value := (normalizeCode code).toList
  value.length = 6 ∧ value.all Char.isDigit

def BrokerConditionEvent.candidateKey (event : BrokerConditionEvent) (clock : Clock) :
    String × String :=
  (clock.today, normalizeCode event.code)

/-! ## The collector -/

namespace CandidateCollector

def detected (event : BrokerConditionEvent) (clock : Clock) : Candidate :=
  { tradeDate := clock.today
    code := normalizeCode event.code
    sources := [.condition]
    state := .detected
    detectedAt := clock.now
    lastSeenAt := clock.now
    expiresAt := clock.expiresAt
    conditionNames := [event.conditionName] }

/-- The candidate that an include makes of the one it finds. -/
def merged (existing : Candidate) (event : BrokerConditionEvent) (clock : Clock) : Candidate :=
  let existing := reopened existing
  { existing with
    sources := appendNew existing.sources .condition
    conditionNames := appendNew existing.conditionNames event.conditionName
    lastSeenAt := clock.now
    expiresAt := clock.expiresAt }

def handleConditionInclude (table : CandidateTable) (event : BrokerConditionEvent)
    (clock : Clock) : CandidateTable :=
  if ¬ isValidStockCode event.code then table
  else
    match table.get? (event.candidateKey clock) with
    | none => table.save (detected event clock)
    | some existing => table.save (merged existing event clock)

/-- The candidate that a remove makes of the one it finds. -/
def withdrawn (candidate : Candidate) (event : BrokerConditionEvent) (clock : Clock) :
    Candidate :=
  let conditionNames := candidate.conditionNames.erase event.conditionName
  let sources := if conditionNames = [] then candidate.sources.erase .condition
    else candidate.sources
  { candidate with
    conditionNames
    sources
    state := if sources = [] ∧ candidate.state ∈ [.detected, .watching, .ready, .blocked] then
        .removed
      else candidate.state
    lastSeenAt := clock.now }

def handleConditionRemove (table : CandidateTable) (event : BrokerConditionEvent)
    (clock : Clock) : CandidateTable :=
  if ¬ isValidStockCode event.code then table
  else
    match table.get? (event.candidateKey clock) with
    | none => table
    | some candidate => table.save (withdrawn candidate event clock)

end CandidateCollector

/-! ## The ingestion of a condition event -/

def conditionLevel (conditionName purpose : String) : String :=
  let text := (Text.lower (conditionName ++ " " ++ purpose)).toList
  if "leader".toList <:+: text ∨ "주도".toList <:+: text then "LEADER"
  else if "strong".toList <:+: text ∨ "강세".toList <:+: text ∨ "_3".toList <:+: text then "STRONG"
  else "ALIVE"

def conditionScore : String → Rat
  | "LEADER" => 80
  | "STRONG" => 55
  | "ALIVE" => 25
  | _ => 0

def sourceEventFromConditionEvent (event : BrokerConditionEvent) (clock : Clock) :
    CandidateSourceEvent :=
  let level := conditionLevel event.conditionName event.purpose
  { tradeDate := clock.today
    code := event.code
    sourceType := "condition_search"
    sourceId := event.conditionName
    sourceRank := max 0 event.conditionIndex
    sourceScore := conditionScore level
    stockRole := if level = "LEADER" then "LEADER" else ""
    reasonCodes := dedupe ["condition_" ++ Text.lower level, "CONDITION_INCLUDE_BOOSTER_ONLY"]
    rawPayload := .ofList
      [("condition_name", .str event.conditionName), ("condition_index", .int event.conditionIndex),
       ("event_type", .str event.eventType.value),
       ("strategy_profile", .str event.strategyProfile), ("purpose", .str event.purpose),
       ("source", .str event.source)]
    detectedAt := if event.timestamp ≠ "" then event.timestamp else clock.now }

/-- What the theme repository knows of a stock: the first of its themes. -/
structure ThemeMembership where
  themeId : String
  themeName : String
  stockName : String

def enrichSourceThemeContext (event : CandidateSourceEvent)
    (membership : Option ThemeMembership) : CandidateSourceEvent :=
  if event.themeId ≠ "" ∨ event.code = "" ∨ event.sourceType ≠ "condition_search" then event
  else
    match membership with
    | none => event
    | some membership =>
        if membership.themeId = "" then event
        else
          { event with
            name := if event.name ≠ "" then event.name else membership.stockName
            themeId := membership.themeId
            themeName := membership.themeName
            reasonCodes := dedupe (event.reasonCodes ++ ["THEME_CONTEXT_ATTACHED"]) }

def CandidateIngestionService.handleConditionEvent (service : CandidateIngestionService)
    (table : CandidateTable) (event : BrokerConditionEvent) (membership : Option ThemeMembership)
    (clock : Clock) : CandidateTable × CandidateIngestionResult :=
  let sourceEvent := enrichSourceThemeContext (sourceEventFromConditionEvent event clock) membership
  match event.eventType with
  | .removed => service.removeSource table sourceEvent clock
  | .included => service.ingest table sourceEvent clock

/-! ## Both writers -/

/-- The request that `enqueue_candidate` makes after an include: the ids of the candidate and of
the command, and the command that the candidate waits on. -/
structure HydrationTicket where
  candidateId : Int
  messageId : String
  waitsOn : String
  moment : HydrationMoment

/-- The services that persist a condition event. -/
structure ConditionServices where
  ingestion : CandidateIngestionService
  hydrator : CandidateHydrator

namespace ConditionServices

variable (services : ConditionServices)

/-- The candidate that `_mark_hydrating` leaves. -/
def markedHydrating (candidate : Candidate) (ticket : HydrationTicket) : Candidate :=
  (services.hydrator.fsm.onHydrationRequested
    (CandidateHydrator.requestedCandidate candidate
      (services.hydrator.hydrationCommand ticket.candidateId candidate ticket.messageId)
      ticket.waitsOn ticket.moment)
    ticket.moment.now).1

/-- `_ingest_condition_event_v2`. There is no ticket when the hydration is switched off or the
enqueue raises. -/
def ingestConditionEventV2 (table : CandidateTable) (event : BrokerConditionEvent)
    (membership : Option ThemeMembership) (ticket : Option HydrationTicket) (clock : Clock) :
    CandidateTable :=
  let answer := services.ingestion.handleConditionEvent table event membership clock
  match event.eventType, answer.2.candidate, ticket with
  | .included, some candidate, some ticket =>
      answer.1.save (services.markedHydrating candidate ticket)
  | _, _, _ => answer.1

/-- `_persist_condition_event_with_collector`. -/
def persistConditionEvent (table : CandidateTable) (event : BrokerConditionEvent)
    (membership : Option ThemeMembership) (ticket : Option HydrationTicket) (clock : Clock) :
    CandidateTable :=
  let collected := match event.eventType with
    | .removed => CandidateCollector.handleConditionRemove table event clock
    | .included => CandidateCollector.handleConditionInclude table event clock
  services.ingestConditionEventV2 collected event membership ticket clock

end ConditionServices

end TradingCore.Candidates
