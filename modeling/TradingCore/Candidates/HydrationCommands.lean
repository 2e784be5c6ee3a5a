import TradingCore.Candidates.Hydrator

/-!
# The commands of the hydrator

How `CandidateHydrator` requests data and finds lost answers: the enqueue of a TR command with its
dedupe key, the choice of the candidates that are due, and the recovery from the command records.
`machine` runs these operations and the events of the Gateway, interleaved with any call on the
gateway state store and with what other services save.
-/

namespace TradingCore.Candidates

open Base Broker

structure CandidateHydrationEnqueueResult where
  candidateId : Int
  code : String
  enqueued : Bool
  duplicate : Bool := false
  reason : String := ""
  commandId : String := ""
  idempotencyKey : String := ""

namespace CandidateHydrator

variable (h : CandidateHydrator)

/-! ## Requests -/

/-- The dedupe bucket of a request of the candidate: each retry has its own. -/
def requestBucket (candidate : Candidate) : String :=
  if candidate.retryGeneration = 0 then h.config.bucket
  else h.config.bucket ++ ":retry" ++ toString candidate.retryGeneration

def requestKey (candidate : Candidate) : String :=
  hydrationIdempotencyKey candidate.tradeDate candidate.code h.config.trCode
    (h.requestBucket candidate)

/-- The command that requests the data of a candidate, under an id drawn for it. -/
def hydrationCommand (id : Int) (candidate : Candidate) (commandId : String) : GatewayCommand :=
  { type := "tr_request"
    commandId
    idempotencyKey := h.requestKey candidate
    source := "strategy_runtime"
    payload := .ofList
      [("purpose", .str candidateHydrationPurpose), ("response_mode", .str "capture"),
       ("trade_date", .str candidate.tradeDate), ("candidate_id", .int id),
       ("code", .str candidate.code), ("tr_code", .str h.config.trCode),
       ("rq_name", .str h.config.rqName), ("screen_no", .str h.config.screenNo),
       ("bucket", .str h.config.bucket),
       ("retry_generation", .int candidate.retryGeneration)] }

def hydrationOptions (candidate : Candidate) : EnqueueOptions :=
  { priority := some (hydrationPriority candidate).2
    ttlSec := some h.config.ttlSec
    maxAttempts := some 1
    metadata := some (.ofList
      [("runtime", .str "strategy_reboot_v2"), ("purpose", .str candidateHydrationPurpose),
       ("priority", .str (hydrationPriority candidate).1)]) }

/-- The candidate as `_mark_hydrating` saves it, before the state machine hears of it. -/
def requestedCandidate (candidate : Candidate) (command : GatewayCommand) (waitsOn : String)
    (moment : HydrationMoment) : Candidate :=
  { candidate with
    state := if candidate.state ∈ [.detected, .waitData] then .hydrating else candidate.state
    lastSeenAt := moment.now
    metadata := { candidate.metadata with
      candidateHydration := some { candidate.hydration with
        status := .str "PENDING"
        commandId := waitsOn
        idempotencyKey := command.idempotencyKey
        priority := (hydrationPriority candidate).1
        purpose := candidateHydrationPurpose
        retryGeneration := candidate.retryGeneration } } }

/-- `_mark_hydrating`: the candidate waits on the command, or on the one it duplicates. -/
def markHydrating (w : HydrationWorld) (id : Int) (candidate : Candidate)
    (command : GatewayCommand) (duplicateOf : String) (moment : HydrationMoment) :
    HydrationWorld :=
  let waitsOn := if duplicateOf ≠ "" then duplicateOf else command.commandId
  let requested := requestedCandidate candidate command waitsOn moment
  w.saveCandidate id (h.fsm.onHydrationRequested requested moment.now).1

def enqueueCandidate (w : HydrationWorld) (id : Int) (candidate : Candidate)
    (messageId : String) (moment : HydrationMoment) :
    HydrationWorld × CandidateHydrationEnqueueResult :=
  let key := h.requestKey candidate
  if ¬ h.config.enabled then
    (w, { candidateId := id, code := candidate.code, enqueued := false
          reason := "HYDRATION_DISABLED", idempotencyKey := key })
  else
    let command := h.hydrationCommand id candidate messageId
    let duplicate := w.gateway.duplicateOf key moment.wall
    if duplicate ≠ "" then
      let w := w.saveRequest messageId candidate.tradeDate "DUPLICATE"
      (h.markHydrating w id candidate command duplicate moment,
        { candidateId := id, code := candidate.code, enqueued := false, duplicate := true
          reason := "DUPLICATE_COMMAND", commandId := duplicate, idempotencyKey := key })
    else
      let (gateway, result) := w.gateway.enqueueCommand h.digest command
        (h.hydrationOptions candidate) none moment.wall
      let w := { w with gateway }
      let w := w.saveRequest messageId candidate.tradeDate
        (if result.accepted then "QUEUED" else "REJECTED")
      (h.markHydrating w id candidate command result.duplicateOf moment,
        { candidateId := id, code := candidate.code, enqueued := result.accepted
          duplicate := result.reason = "DUPLICATE_COMMAND", reason := result.reason
          commandId := if result.duplicateOf ≠ "" then result.duplicateOf else messageId
          idempotencyKey := key })

/-! ## Recovery -/

def recordPurpose (record : CommandRecord) : String :=
  eitherText record.command.payload record.resultPayload "purpose"

def candidateForCommandPayload (w : HydrationWorld) (payload result : Mapping) :
    Option (Int × Candidate) :=
  w.candidateAt (h.int ((result.value "candidate_id").or (payload.value "candidate_id")))
    (eitherText result payload "trade_date") (normalizeCode (eitherText result payload "code"))

/-- The failure that a finished command record tells of, the empty text if it tells of none: an
answer without data, or a status that stands for a failure. -/
def recordFailure (record : CommandRecord) : String :=
  match record.status with
  | .acked =>
      h.parseFailureReason
        (h.parsedOf record.resultPayload (record.command.payload.textOr "code"))
        (h.ackRows record.resultPayload)
  | .rejected => "REJECTED"
  | .failed => "FAILED"
  | .cancelled => "CANCELLED"
  | .expired | .expiredBeforeDispatch => "EXPIRED"
  | _ => ""

def recordAnswer (record : CommandRecord) (commandId : String) : HydrationAnswer :=
  { payload := (record.command.payload.merge record.resultPayload).set "command_id"
      (.str commandId) }

def recordCommandId (record : CommandRecord) : String :=
  if record.commandId ≠ "" then record.commandId else record.command.payload.textOr "command_id"

/-- The loop body of `recover_from_command_history`. -/
def recoverRecord (moment : HydrationMoment) (w : HydrationWorld) (record : CommandRecord) :
    HydrationWorld :=
  if recordPurpose record ≠ candidateHydrationPurpose then w
  else
    match h.candidateForCommandPayload w record.command.payload record.resultPayload with
    | none => w
    | some (_, candidate) =>
        if ¬ candidate.waitingOn (recordCommandId record) then w
        else if h.recordFailure record = "" then w
        else
          let parsed : Mapping := if record.status = .acked then
              h.parsedOf record.resultPayload (record.command.payload.textOr "code")
            else .empty
          h.markFailure w (recordAnswer record (recordCommandId record)) (h.recordFailure record)
            parsed moment

def recoverFromCommandHistory (w : HydrationWorld) (moment : HydrationMoment) : HydrationWorld :=
  let gateway := (w.gateway.expireOldCommands (some moment.seconds) moment.wall).1
  (gateway.listCommands "tr_request" 200).foldl (h.recoverRecord moment) { w with gateway }

/-! ## Candidates that are due -/

def needsHydration (candidate : Candidate) (moment : HydrationMoment) : Bool :=
  let hydration := candidate.hydration
  let status := hydration.statusText
  if status ∈ ["ACKED", "MERGED", "OK"] then false
  else if status = "PENDING" then false
  else if status = "FAILED" ∧ max 1 h.config.maxAttempts ≤ hydration.retryCount then false
  else if status = "RETRY_WAIT" then
    match hydration.retryAfterAt with
    | some retryAfterAt => ¬ moment.seconds < retryAfterAt
    | none => true
  else true

/-- The candidates that `enqueue_due_candidates` enqueues, in their order. -/
def dueCandidates (w : HydrationWorld) (tradeDate : String) (moment : HydrationMoment) :
    List (Int × Candidate) :=
  let pending : Int := w.pendingCount tradeDate
  let limit := min h.config.maxPerCycle (max 0 (h.config.maxPending - pending))
  let candidates := (w.listCandidates tradeDate).filter fun entry =>
    entry.2.state ∈ [.detected, .waitData] ∧ h.needsHydration entry.2 moment
  (candidates.insertionSort fun a b => hydratesBefore a.2 b.2).take limit.toNat

/-- Enqueues of candidates one after the other, under the ids drawn for them. -/
def enqueueAll (w : HydrationWorld) (messageIds : Nat → String) (moment : HydrationMoment) :
    List ((Int × Candidate) × Nat) → HydrationWorld
  | [] => w
  | ((id, candidate), drawn) :: rest =>
      enqueueAll (h.enqueueCandidate w id candidate (messageIds drawn) moment).1 messageIds moment
        rest

/-- `enqueue_due_candidates`: today's candidates if no trade date is given. `messageIds` are the
ids drawn for the commands. -/
def enqueueDueCandidates (w : HydrationWorld) (tradeDate : String) (messageIds : Nat → String)
    (moment : HydrationMoment) : HydrationWorld :=
  if ¬ h.config.enabled then w
  else
    let w := h.recoverFromCommandHistory w moment
    let tradeDate := if tradeDate ≠ "" then tradeDate else moment.today
    h.enqueueAll w messageIds moment (h.dueCandidates w tradeDate moment).zipIdx

/-! ## The machine -/

/-- Another service saves a candidate: a new one without hydration, or one whose trade date, code
and hydration it leaves alone. -/
def save (w : HydrationWorld) (id : Int) (candidate : Candidate) : HydrationWorld :=
  if id ≤ 0 then w
  else
    match w.candidates.get? id with
    | none =>
        w.saveCandidate id
          { candidate with metadata := { candidate.metadata with candidateHydration := none } }
    | some old =>
        w.saveCandidate id
          { candidate with
            tradeDate := old.tradeDate
            code := old.code
            metadata := { candidate.metadata with
              candidateHydration := old.metadata.candidateHydration } }

/-- A step of the hydrator, of the gateway state store or of another service. -/
inductive HydrationStep
  | enqueueDueCandidates (tradeDate : String) (messageIds : Nat → String) (moment : HydrationMoment)
  | enqueueCandidate (id : Int) (messageId : String) (moment : HydrationMoment)
  | handleEvent (event : GatewayEvent) (moment : HydrationMoment)
  | recoverFromCommandHistory (moment : HydrationMoment)
  | gateway (step : GatewayStateStore.Step)
  | save (id : Int) (candidate : Candidate)

def step (w : HydrationWorld) : HydrationStep → HydrationWorld
  | .enqueueDueCandidates tradeDate messageIds moment =>
      h.enqueueDueCandidates w tradeDate messageIds moment
  | .enqueueCandidate id messageId moment =>
      match w.candidates.get? id with
      | none => w
      | some candidate => (h.enqueueCandidate w id candidate messageId moment).1
  | .handleEvent event moment => (h.handleEvent w event moment).1
  | .recoverFromCommandHistory moment => h.recoverFromCommandHistory w moment
  | .gateway call => { w with gateway := (GatewayStateStore.machine h.digest).next w.gateway call }
  | .save id candidate => save w id candidate

def machine : Machine HydrationWorld HydrationStep Unit := ⟨fun w step => (h.step w step, ())⟩

end CandidateHydrator

end TradingCore.Candidates
