import TradingCore.Broker.KnownCommands
import TradingCore.Candidates.Fsm

/-!
# The candidate hydrator

`CandidateHydrator` of `trading/strategy/candidate_hydrator.py`: a candidate that lacks basic data
gets a TR command of its own, waits on it with the hydration status `PENDING`, and is merged with
the answer or marked as failed. An answer that got lost is looked for in the command records.

Journals and result rows are left out, and so are the containers of a command payload that only
the Gateway reads. Numbers of an answer are floats there: the parser of its rows is a parameter
(`PayloadReaders`), like the readers of nested values.
-/

namespace TradingCore.Candidates

open Base Broker Text

/-! ## Configuration -/

def candidateHydrationPurpose : String := "candidate_hydration"

structure CandidateHydrationConfig where
  enabled : Bool := true
  maxPerCycle : Int := 5
  maxPending : Int := 10
  ttlSec : Int := 90
  maxAttempts : Int := 3
  retryBaseSec : Int := 15
  retryMaxSec : Int := 300
  trCode : String := "opt10001"
  rqName : String := "CandidateHydration_opt10001"
  screenNo : String := "8730"
  bucket : String := "basic"

/-- How the nested values of a payload read: the mapping that a value is, the elements of a list,
and `parse_candidate_hydration_rows` of the rows of an answer. -/
structure PayloadReaders where
  mapping : Value → Option Mapping
  items : Value → List Value
  parseRows : List Mapping → String → Mapping

/-- `CandidateHydrator`: its configuration, the state contract that its state machine reconciles
and whose number reader it shares, and the digest of the command queue. -/
structure CandidateHydrator where
  config : CandidateHydrationConfig := {}
  contract : CandidateStateContractService
  readers : PayloadReaders
  digest : GatewayCommand → String

/-- What an operation reads around it: the second and the ISO text of the hydrator's clock, its
date, the second of the gateway state store, and what the market data say about the stock: whether
the answer was merged, and the price source of the latest tick if there is one. -/
structure HydrationMoment where
  seconds : Time
  now : String
  today : String
  wall : Time
  marketDataMerged : Bool := false
  tickPriceSource : Option String := none

/-! ## The tables -/

/-- A row of `candidate_hydration_requests`. -/
structure HydrationRequest where
  tradeDate : String
  status : String

/-- What the hydrator works on: the candidates by their ids, its requests by command id, and the
gateway state store. -/
structure HydrationWorld where
  candidates : Dict Int Candidate := .empty
  requests : Dict String HydrationRequest := .empty
  gateway : GatewayStateStore := {}

namespace HydrationWorld

def loadCandidate (w : HydrationWorld) (tradeDate code : String) : Option (Int × Candidate) :=
  w.candidates.entries.find? fun entry =>
    entry.2.tradeDate = tradeDate ∧ entry.2.code = code

/-- The candidate of an id, else the one of a trade date and code. -/
def candidateAt (w : HydrationWorld) (candidateId : Int) (tradeDate code : String) :
    Option (Int × Candidate) :=
  match if candidateId ≠ 0 then w.candidates.get? candidateId else none with
  | some candidate => some (candidateId, candidate)
  | none => if tradeDate ≠ "" ∧ code ≠ "" then w.loadCandidate tradeDate code else none

/-- `list_candidates` of a trade date, in the order of the codes. -/
def listCandidates (w : HydrationWorld) (tradeDate : String) : List (Int × Candidate) :=
  (w.candidates.entries.filter fun entry => entry.2.tradeDate = tradeDate).insertionSort
    fun a b => ¬ b.2.code < a.2.code

def saveCandidate (w : HydrationWorld) (id : Int) (candidate : Candidate) : HydrationWorld :=
  { w with candidates := w.candidates.set id candidate }

/-- `save_candidate_hydration_request`: a second row of a command keeps the trade date. -/
def saveRequest (w : HydrationWorld) (commandId tradeDate status : String) : HydrationWorld :=
  { w with requests := w.requests.upsert commandId fun old =>
      { tradeDate := (old.map (·.tradeDate)).getD tradeDate, status } }

/-- `update_candidate_hydration_request_status`, which is not called without a command id. -/
def updateRequestStatus (w : HydrationWorld) (commandId status : String) : HydrationWorld :=
  match if commandId ≠ "" then w.requests.get? commandId else none with
  | some request => { w with requests := w.requests.set commandId { request with status } }
  | none => w

/-- The pending count of `candidate_hydration_summary`. -/
def pendingCount (w : HydrationWorld) (tradeDate : String) : Nat :=
  w.requests.values.countP fun request =>
    request.tradeDate = tradeDate ∧ request.status ∈ ["QUEUED", "DISPATCHED", "DUPLICATE"]

def commandPayload (w : HydrationWorld) (commandId : String) : Mapping :=
  if commandId = "" then .empty
  else ((w.gateway.getCommand commandId).map (·.command.payload)).getD .empty

end HydrationWorld

/-! ## Payloads -/

def eitherText (a b : Mapping) (key : String) : String :=
  ((a.value key).or ((b.value key).or (.str ""))).text

def hydrationPriority (candidate : Candidate) : String × CommandPriority :=
  let metadata := candidate.metadata
  let ingestion := metadata.candidateIngestion.getD {}
  let primarySource := if ingestion.primarySource ≠ "" then ingestion.primarySource
    else metadata.primarySource
  let role := upper (if ingestion.stockRole ≠ "" then ingestion.stockRole
    else metadata.stockRole)
  let themeId := if ingestion.primaryThemeId ≠ "" then ingestion.primaryThemeId
    else if metadata.primaryThemeId ≠ "" then metadata.primaryThemeId
    else metadata.bestThemeId
  if primarySource = "opening_burst" ∧ role ∈ ["LEADER", "CO_LEADER"] then ("HIGH", .high)
  else if primarySource = "condition_search" ∧ themeId ≠ "" then ("MEDIUM", .normal)
  else ("LOW", .low)

def hydrationRank (candidate : Candidate) : Nat :=
  match (hydrationPriority candidate).1 with
  | "HIGH" => 3
  | "MEDIUM" => 2
  | "LOW" => 1
  | _ => 0

/-- The order of `_hydration_sort_key`, the greatest key first. -/
def hydratesBefore (a b : Candidate) : Bool :=
  let seen (candidate : Candidate) : String :=
    if candidate.lastSeenAt ≠ "" then candidate.lastSeenAt else candidate.detectedAt
  if hydrationRank a ≠ hydrationRank b then hydrationRank b < hydrationRank a
  else if a.metadata.sourceScore ≠ b.metadata.sourceScore then
    b.metadata.sourceScore < a.metadata.sourceScore
  else ¬ seen a < seen b

def hydrationIdempotencyKey (tradeDate code trCode bucket : String) : String :=
  "candidate_hydration:" ++ tradeDate ++ ":" ++ normalizeCode code ++ ":" ++ trCode ++ ":" ++ bucket

namespace CandidateHydration

def statusText (hydration : CandidateHydration) : String :=
  upper (hydration.status.or (.str "")).text

end CandidateHydration

namespace Candidate

/-- The section `candidate_hydration`, empty if it is absent. -/
def hydration (candidate : Candidate) : CandidateHydration :=
  candidate.metadata.candidateHydration.getD {}

/-- `_candidate_waiting_on_command`. -/
def waitingOn (candidate : Candidate) (commandId : String) : Bool :=
  commandId ≠ "" ∧ candidate.hydration.commandId = commandId ∧
    candidate.hydration.statusText = "PENDING"

def retryGeneration (candidate : Candidate) : Nat :=
  max candidate.hydration.retryGeneration candidate.hydration.retryCount

end Candidate

/-- An answer to a hydration command: the payload, and the ids of the event around it. -/
structure HydrationAnswer where
  payload : Mapping
  eventCommandId : String := ""
  eventId : String := ""

def HydrationAnswer.commandId (answer : HydrationAnswer) : String :=
  ((answer.payload.value "command_id").or (.str answer.eventCommandId)).text

namespace CandidateHydrator

variable (h : CandidateHydrator)

def fsm : CandidateFsmService := ⟨some h.contract⟩

def int : Value → Int
  | .int n => n
  | value =>
      let text := strip (value.or (.str "0")).text
      let number := (h.contract.readFloat (.ofList (text.toList.filter (· ≠ ',')))).getD 0
      number.num.tdiv number.den

/-- The first of some fields of a payload that is a mapping with entries. -/
def nested (payload : Mapping) (keys : List String) : Option Mapping :=
  keys.findSome? fun key => (h.readers.mapping (payload.value key)).filter (·.entries ≠ [])

def parsedHydrationPayload (payload : Mapping) : Mapping :=
  let keys := ["parsed_hydration", "parsed_backfill", "parsed"]
  match h.nested payload keys with
  | some parsed => parsed
  | none =>
      match h.readers.mapping (payload.value "raw") with
      | some raw => (h.nested raw keys).getD .empty
      | none => .empty

def ackRows (payload : Mapping) : List Mapping :=
  let rowsOf (payload : Mapping) : Value := (payload.value "tr_rows").or (payload.value "rows")
  let rows := rowsOf payload
  let rows := match rows.truthy, h.readers.mapping (payload.value "raw") with
    | false, some raw => rowsOf raw
    | _, _ => rows
  if rows.truthy then (h.readers.items rows).filterMap h.readers.mapping else []

/-- `_hydration_parse_failure_reason`. -/
@[irreducible] def parseFailureReason (parsed : Mapping) (rows : List Mapping) : String :=
  if upper (parsed.textOr "parser_status") = "EMPTY" ∨ rows = [] then "TR_EMPTY"
  else
    let missing := parsed.value "parser_missing_fields"
    let missing := if missing.truthy then (h.readers.items missing).map (·.text) else []
    if parsed.entries = [] ∨
        ("current_price" ∈ missing ∧ h.contract.float (parsed.value "current_price") ≤ 0) then
      "PARSE_ERROR"
    else ""

/-- The parsed data of an answer: those it carries, else those of its rows. -/
def parsedOf (payload : Mapping) (code : String) : Mapping :=
  let parsed := h.parsedHydrationPayload payload
  if parsed.entries ≠ [] then parsed else h.readers.parseRows (h.ackRows payload) code

/-- `_minimum_watching_data`: are the data enough, and what is missing. -/
def minimumWatchingData (candidate : Candidate) (parsed : Mapping) : Bool × List String :=
  let ingestion := candidate.metadata.candidateIngestion.getD {}
  let currentPrice := h.contract.float ((parsed.value "current_price").or (parsed.value "price"))
  let prevClose := h.contract.float (parsed.value "prev_close")
  let changeRate := h.contract.float (parsed.value "change_rate")
  let blocking :=
    (if normalizeCode candidate.code = "" then ["WAIT_DATA_CODE_MISSING"] else []) ++
    (if currentPrice ≤ 0 then ["WAIT_DATA_PRICE_MISSING"] else []) ++
    (if changeRate = 0 ∧ ¬ (prevClose > 0 ∧ currentPrice > 0) then
      ["WAIT_DATA_CHANGE_RATE_MISSING"] else []) ++
    (if ingestion.activeSourceTypes = [] then ["WAIT_DATA_SOURCE_MISSING"] else [])
  let theme :=
    if ingestion.primaryThemeId = "" ∧ candidate.metadata.primaryThemeId = "" ∧
      candidate.metadata.bestThemeId = "" then ["theme_unmapped"] else []
  (blocking = [], blocking ++ theme)

/-! ## Answers -/

/-- The candidate that an answer is about: the one of the id that it or its command names, else the
one of their trade date and `code`. -/
def answeredCandidate (w : HydrationWorld) (answer : HydrationAnswer) (code : String)
    (moment : HydrationMoment) : Option (Int × Candidate) :=
  let command := w.commandPayload answer.commandId
  let tradeDate := eitherText answer.payload command "trade_date"
  w.candidateAt
    (h.int ((answer.payload.value "candidate_id").or (command.value "candidate_id")))
    (if tradeDate ≠ "" then tradeDate else moment.today) code

def answeredCode (w : HydrationWorld) (answer : HydrationAnswer) : String :=
  normalizeCode (eitherText answer.payload (w.commandPayload answer.commandId) "code")

def retryDelaySec (retryCount : Nat) : Int :=
  max 1 (min h.config.retryMaxSec (h.config.retryBaseSec * 2 ^ (retryCount - 1)))

/-- The section `candidate_hydration` that `mark_failure` writes. -/
def failedHydration (hydration : CandidateHydration) (answer : HydrationAnswer)
    (idempotencyKey reason : String) (parsed : Mapping) (moment : HydrationMoment) :
    CandidateHydration :=
  let retryCount := hydration.retryCount + 1
  let retryable : Bool := retryCount < max 1 h.config.maxAttempts
  let reasonText := if reason ≠ "" then reason else "FAILED"
  let lastError := ((answer.payload.value "error").or
    ((answer.payload.value "message").or (.str reasonText))).text
  { hydration with
    status := .str (if retryable then "RETRY_WAIT" else "FAILED")
    basicHydrationComplete := .bool false
    basicHydrationBlockingReasons := [reasonText]
    realtimeEntryDataReady := false
    failureStatus := reasonText
    commandId := answer.commandId
    idempotencyKey
    lastError
    retryCount
    retryGeneration := hydration.retryGeneration + 1
    retryAfterAt := if retryable then some (moment.seconds + h.retryDelaySec retryCount) else none
    parsed }

def waitsForData (candidate : Candidate) : Prop :=
  candidate.state ∈ [.detected, .hydrating, .waitData]
deriving Decidable

/-- The candidate as `mark_failure` saves it, before the state machine hears of it. -/
def failedCandidate (candidate : Candidate) (answer : HydrationAnswer)
    (idempotencyKey reason : String) (parsed : Mapping) (moment : HydrationMoment) : Candidate :=
  { candidate with
    state := if waitsForData candidate then .waitData else candidate.state
    lastSeenAt := moment.now
    metadata := { candidate.metadata with
      reasonCodes := dedupe (candidate.metadata.reasonCodes ++
        ["WAIT_DATA", if reason ≠ "" then reason else "FAILED"])
      candidateHydration := some
        (h.failedHydration candidate.hydration answer idempotencyKey reason parsed moment) } }

/-- The candidate that `mark_failure` leaves in the table. -/
def afterFailure (candidate : Candidate) (answer : HydrationAnswer)
    (idempotencyKey reason : String) (parsed : Mapping) (moment : HydrationMoment) : Candidate :=
  (h.fsm.applyBlockingReason
    (h.failedCandidate candidate answer idempotencyKey reason parsed moment) .data
    (if reason ≠ "" then reason else CandidateReasonCode.hydrationPending.value)
    (.ofList
      [("command_id", .str answer.commandId), ("reason", .str reason),
       ("retry_count", .int (candidate.hydration.retryCount + 1))])
    { eventId := answer.eventId
      eventType := "hydration_failure"
      component := "CandidateHydrator" }
    moment.now).1

/-- The idempotency key that an answer or its command names. -/
def answeredKey (w : HydrationWorld) (answer : HydrationAnswer) : String :=
  eitherText answer.payload (w.commandPayload answer.commandId) "idempotency_key"

def markFailure (w : HydrationWorld) (answer : HydrationAnswer) (reason : String)
    (parsed : Mapping) (moment : HydrationMoment) : HydrationWorld :=
  match h.answeredCandidate w answer (answeredCode w answer) moment with
  | none => w
  | some (id, candidate) =>
      let parsed := if parsed.entries ≠ [] then parsed else h.parsedHydrationPayload answer.payload
      let saved := h.afterFailure candidate answer (answeredKey w answer) reason parsed moment
      (w.saveCandidate id saved).updateRequestStatus answer.commandId "FAILED"

/-- What the latest tick of the stock allows, and where its price comes from. -/
def entryTiming (moment : HydrationMoment) : Bool × String :=
  match moment.tickPriceSource with
  | some source =>
      if source = "TR_BACKFILL" then (false, "WAIT_REALTIME_TICK") else (true, "REALTIME_TICK")
  | none => (false, "WAIT_REALTIME_TICK")

/-- The section `candidate_hydration` that `merge_ack` writes. -/
def mergedHydration (hydration : CandidateHydration) (answer : HydrationAnswer)
    (idempotencyKey : String) (parsed : Mapping) (enough : Bool) (waitReasons : List String)
    (moment : HydrationMoment) : CandidateHydration :=
  { hydration with
    status := .str "ACKED"
    failureStatus := ""
    commandId := answer.commandId
    idempotencyKey
    parsed
    lastError := ""
    marketDataMerged := moment.marketDataMerged
    basicHydrationComplete := .bool enough
    basicHydrationBlockingReasons := waitReasons.filter (· ≠ "theme_unmapped")
    realtimeEntryDataReady := (entryTiming moment).1 }

/-- The candidate as `merge_ack` saves it, before the state machine hears of it. -/
def mergedCandidate (candidate : Candidate) (answer : HydrationAnswer) (idempotencyKey : String)
    (parsed : Mapping) (moment : HydrationMoment) : Candidate :=
  let data := h.minimumWatchingData candidate parsed
  { candidate with
    name := if (parsed.value "stock_name").truthy ∧ candidate.name = "" then
        parsed.textOr "stock_name"
      else candidate.name
    state := if data.1 then .watching else .waitData
    lastSeenAt := moment.now
    metadata := { candidate.metadata with
      reasonCodes := dedupe (candidate.metadata.reasonCodes ++
        (if data.1 then data.2 else "WAIT_DATA" :: data.2))
      gateUsableForEntry := (entryTiming moment).1
      entryTimingSource := (entryTiming moment).2
      candidateHydration := some
        (mergedHydration candidate.hydration answer idempotencyKey parsed data.1 data.2 moment) } }

/-- The candidate that `merge_ack` leaves in the table. -/
def afterMerge (candidate : Candidate) (answer : HydrationAnswer) (idempotencyKey : String)
    (parsed : Mapping) (moment : HydrationMoment) : Candidate :=
  (h.fsm.onHydrationResult (h.mergedCandidate candidate answer idempotencyKey parsed moment)
    (.ofList
      [("command_id", .str answer.commandId), ("market_data_merged", .bool moment.marketDataMerged),
       ("source_event_id", .str answer.eventId)])
    moment.now).1

def mergeAck (w : HydrationWorld) (answer : HydrationAnswer) (moment : HydrationMoment) :
    HydrationWorld :=
  let code := answeredCode w answer
  let parsed := h.parsedOf answer.payload code
  let reason := h.parseFailureReason parsed (h.ackRows answer.payload)
  if reason ≠ "" then h.markFailure w answer reason parsed moment
  else
    let code := if code ≠ "" then code else normalizeCode (parsed.textOr "code")
    match h.answeredCandidate w answer code moment with
    | none => w
    | some (id, candidate) =>
        let saved := h.afterMerge candidate answer (answeredKey w answer) parsed moment
        (w.saveCandidate id saved).updateRequestStatus answer.commandId "ACKED"

def answerOf (event : GatewayEvent) : HydrationAnswer :=
  { payload := event.payload, eventCommandId := event.commandId, eventId := event.eventId }

/-- The reason under which the failure of an event is filed. -/
def failureReasonOf : String → String
  | "command_failed" => "COMMAND_FAILED"
  | "command_timeout" => "TIMEOUT"
  | "command_expired" => "EXPIRED"
  | type => upper type

def answersHydration (w : HydrationWorld) (event : GatewayEvent) : Prop :=
  event.type ∈ ["command_ack", "command_failed", "command_timeout", "command_expired"] ∧
    eitherText event.payload (w.commandPayload (answerOf event).commandId) "purpose" =
      candidateHydrationPurpose
deriving Decidable

def ackStatus (payload : Mapping) : String :=
  upper ((payload.value "status").or ((payload.value "command_status").or (.str "ACKED"))).text

/-- `handle_event`: the world after it, and whether the event was one for the hydrator. -/
def handleEvent (w : HydrationWorld) (event : GatewayEvent) (moment : HydrationMoment) :
    HydrationWorld × Bool :=
  if ¬ answersHydration w event then (w, false)
  else if event.type ≠ "command_ack" then
    (h.markFailure w (answerOf event) (failureReasonOf event.type) .empty moment, true)
  else
    let status := ackStatus event.payload
    let resultCode := h.int ((event.payload.value "result_code").or (event.payload.value "code"))
    if status ≠ "ACKED" then (h.markFailure w (answerOf event) status .empty moment, true)
    else if resultCode < 0 then (h.markFailure w (answerOf event) "REJECTED" .empty moment, true)
    else (h.mergeAck w (answerOf event) moment, true)

end CandidateHydrator

end TradingCore.Candidates
