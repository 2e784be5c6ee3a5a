import TradingCore.Candidates.HydrationRecovery

/-!
# A book of the hydration requests

What a run of `CandidateHydrator` asks of the command queue and hears back of it, candidate by
candidate: `HydrationBook` has the tables with every request that an enqueue made, as
`enqueue_candidate` answers it, and every failure that `mark_failure` was told of a candidate. The
book is kept beside the steps of the hydrator and changes none of them (`world_run`).

`Bounded` is what the retries are for: as many commands as configured, none before its time, one at
a time, and a count of those that ended without data.
-/

namespace TradingCore.Candidates

open Base Broker

/-- A request: the candidate, the command that it waits on, was it accepted by the queue, the retry
time that the candidate had, and the second of the request. -/
structure HydrationAsk where
  candidateId : Int
  commandId : String
  accepted : Bool
  dueAt : Option Time
  askedAt : Time

/-- The tables with the requests so far, and the failures with the commands that they were reported
of. -/
structure HydrationBook where
  world : HydrationWorld
  asks : List HydrationAsk := []
  failures : List (Int × String) := []

namespace HydrationBook

def asksOf (b : HydrationBook) (id : Int) : List HydrationAsk :=
  b.asks.filter (·.candidateId = id)

def failuresOf (b : HydrationBook) (id : Int) : List String :=
  (b.failures.filter (·.1 = id)).map (·.2)

/-- The different commands of a candidate that ended without usable data. -/
def endedWithoutData (b : HydrationBook) (id : Int) : List String :=
  ((b.asksOf id).map (·.commandId)).dedup.filter (· ∈ b.failuresOf id)

def outstanding (b : HydrationBook) (commandId : String) : Bool :=
  b.world.gateway.outstanding commandId

/-- Requests are bounded: a candidate has at most so many commands accepted, none before its retry
time and at most one outstanding, and its retry count is that of its commands which ended without
usable data. -/
structure Bounded (maxAttempts : Int) (b : HydrationBook) : Prop where
  attempts : ∀ id, ((b.asksOf id).countP (·.accepted) : Int) ≤ maxAttempts
  retries : ∀ ask ∈ b.asks, ask.accepted = true → ∀ due ∈ ask.dueAt, due ≤ ask.askedAt
  outstanding : ∀ id, ∀ ask ∈ b.asksOf id, ∀ other ∈ b.asksOf id, ask.accepted = true →
    other.accepted = true → b.outstanding ask.commandId = true →
      b.outstanding other.commandId = true → ask.commandId = other.commandId
  counted : ∀ id candidate, b.world.candidates.get? id = some candidate →
    candidate.hydration.retryCount = (b.endedWithoutData id).length

/-- The id is new: neither the queue nor a request has it. -/
def Fresh (b : HydrationBook) (commandId : String) : Prop :=
  ¬ b.world.gateway.Named commandId ∧ ∀ ask ∈ b.asks, ask.commandId ≠ commandId

end HydrationBook

namespace CandidateHydrator

variable (h : CandidateHydrator)

/-! ## Keeping the book -/

/-- A request and its entry; a hydrator that is disabled makes none. -/
def bookEnqueue (b : HydrationBook) (id : Int) (candidate : Candidate) (messageId : String)
    (moment : HydrationMoment) : HydrationBook :=
  if ¬ h.config.enabled then b
  else
    let (world, result) := h.enqueueCandidate b.world id candidate messageId moment
    { b with
      world
      asks := b.asks ++
        [{ candidateId := id, commandId := result.commandId, accepted := result.enqueued
           dueAt := candidate.hydration.retryAfterAt, askedAt := moment.seconds }] }

/-- The entry of an answer that `mark_failure` is told of. -/
def reported (w : HydrationWorld) (answer : HydrationAnswer) (moment : HydrationMoment) :
    List (Int × String) :=
  ((h.answeredCandidate w answer (answeredCode w answer) moment).map fun found =>
    (found.1, answer.commandId)).toList

def bookEvent (b : HydrationBook) (event : GatewayEvent) (moment : HydrationMoment) :
    HydrationBook :=
  { b with
    world := (h.handleEvent b.world event moment).1
    failures := b.failures ++
      if h.handling b.world event = .failure then h.reported b.world (answerOf event) moment
      else [] }

def recovers (w : HydrationWorld) (record : CommandRecord) : Bool :=
  recordPurpose record = candidateHydrationPurpose &&
    (h.candidateForCommandPayload w record.command.payload record.resultPayload).any
      (fun found => found.2.waitingOn (recordCommandId record)) &&
    h.recordFailure record ≠ ""

/-- A command record and the failure that is recovered from it. -/
def bookRecord (moment : HydrationMoment) (b : HydrationBook) (record : CommandRecord) :
    HydrationBook :=
  { b with
    world := h.recoverRecord moment b.world record
    failures := b.failures ++
      if h.recovers b.world record then
        h.reported b.world (recordAnswer record (recordCommandId record)) moment
      else [] }

/-- `recover_from_command_history` with the book. -/
def bookRecover (b : HydrationBook) (moment : HydrationMoment) : HydrationBook :=
  let gateway := (b.world.gateway.expireOldCommands (some moment.seconds) moment.wall).1
  (gateway.listCommands "tr_request" 200).foldl (h.bookRecord moment)
    { b with world := { b.world with gateway } }

def bookEnqueueAll (b : HydrationBook) (messageIds : Nat → String) (moment : HydrationMoment) :
    List ((Int × Candidate) × Nat) → HydrationBook
  | [] => b
  | ((id, candidate), drawn) :: rest =>
      bookEnqueueAll (h.bookEnqueue b id candidate (messageIds drawn) moment) messageIds moment rest

/-- The candidates that a call of `enqueue_due_candidates` enqueues in the book. -/
def bookDue (b : HydrationBook) (tradeDate : String) (moment : HydrationMoment) :
    List ((Int × Candidate) × Nat) :=
  (h.dueCandidates b.world (if tradeDate ≠ "" then tradeDate else moment.today) moment).zipIdx

def bookStep (b : HydrationBook) : HydrationStep → HydrationBook
  | .enqueueDueCandidates tradeDate messageIds moment =>
      if ¬ h.config.enabled then b
      else
        let b := h.bookRecover b moment
        h.bookEnqueueAll b messageIds moment (h.bookDue b tradeDate moment)
  | .enqueueCandidate id messageId moment =>
      match b.world.candidates.get? id with
      | none => b
      | some candidate => h.bookEnqueue b id candidate messageId moment
  | .handleEvent event moment => h.bookEvent b event moment
  | .recoverFromCommandHistory moment => h.bookRecover b moment
  | .gateway call =>
      { b with world := { b.world with
          gateway := (GatewayStateStore.machine h.digest).next b.world.gateway call } }
  | .save id candidate => { b with world := save b.world id candidate }

def books : Machine HydrationBook HydrationStep Unit := ⟨fun b step => (h.bookStep b step, ())⟩

def newBook (retention : Option Int) (expireStaleDispatched : Bool) : HydrationBook where
  world := start retention expireStaleDispatched

/-! ## The book changes nothing -/

theorem world_bookEnqueue (b : HydrationBook) (id : Int) (candidate : Candidate)
    (messageId : String) (moment : HydrationMoment) :
    (h.bookEnqueue b id candidate messageId moment).world =
      (h.enqueueCandidate b.world id candidate messageId moment).1 := by
  unfold bookEnqueue
  by_cases henabled : h.config.enabled = true
  · rw [if_neg (not_not_intro henabled)]
  · rw [if_pos henabled]
    unfold enqueueCandidate
    dsimp only
    rw [if_pos henabled]

theorem world_bookEnqueueAll (messageIds : Nat → String) (moment : HydrationMoment)
    (entries : List ((Int × Candidate) × Nat)) (b : HydrationBook) :
    (h.bookEnqueueAll b messageIds moment entries).world =
      h.enqueueAll b.world messageIds moment entries := by
  induction entries generalizing b with
  | nil => rfl
  | cons entry rest ih =>
    show (h.bookEnqueueAll _ messageIds moment rest).world = h.enqueueAll _ messageIds moment rest
    rw [ih, world_bookEnqueue]

theorem world_bookRecords (moment : HydrationMoment) (records : List CommandRecord)
    (b : HydrationBook) :
    (records.foldl (h.bookRecord moment) b).world =
      records.foldl (h.recoverRecord moment) b.world := by
  induction records generalizing b with
  | nil => rfl
  | cons record rest ih => exact ih _

theorem world_bookRecover (b : HydrationBook) (moment : HydrationMoment) :
    (h.bookRecover b moment).world = h.recoverFromCommandHistory b.world moment :=
  h.world_bookRecords moment _ _

theorem world_bookStep (b : HydrationBook) (step : HydrationStep) :
    (h.bookStep b step).world = h.step b.world step := by
  cases step with
  | enqueueDueCandidates tradeDate messageIds moment =>
    show (if ¬ h.config.enabled then b else _).world =
      h.enqueueDueCandidates b.world tradeDate messageIds moment
    unfold enqueueDueCandidates
    by_cases henabled : h.config.enabled = true
    · rw [if_neg (not_not_intro henabled), if_neg (not_not_intro henabled)]
      dsimp only
      rw [world_bookEnqueueAll, bookDue, world_bookRecover]
    · rw [if_pos henabled, if_pos henabled]
  | enqueueCandidate id messageId moment =>
    show (match b.world.candidates.get? id with
        | none => b
        | some candidate => h.bookEnqueue b id candidate messageId moment).world =
      match b.world.candidates.get? id with
      | none => b.world
      | some candidate => (h.enqueueCandidate b.world id candidate messageId moment).1
    cases b.world.candidates.get? id with
    | none => rfl
    | some candidate => exact h.world_bookEnqueue b id candidate messageId moment
  | handleEvent event moment => rfl
  | recoverFromCommandHistory moment => exact h.world_bookRecover b moment
  | gateway call => rfl
  | save id candidate => rfl

theorem world_run (b : HydrationBook) (steps : List HydrationStep) :
    (h.books.run b steps).world = h.machine.run b.world steps := by
  induction steps generalizing b with
  | nil => rfl
  | cons step rest ih =>
    rw [Machine.run_cons, Machine.run_cons, ih]
    show h.machine.run (h.bookStep b step).world rest = h.machine.run (h.step b.world step) rest
    rw [world_bookStep]

/-! ## Sound steps -/

/-- A request is for a candidate that waits on the command which holds its key, or for one that
needs hydration, and the id drawn for a new command is new. -/
def EnqueueSound (b : HydrationBook) (candidate : Candidate) (messageId : String)
    (moment : HydrationMoment) : Prop :=
  let duplicate := b.world.gateway.duplicateOf (h.requestKey candidate) moment.wall
  h.config.enabled = true →
    candidate.waitingOn duplicate = true ∨
      h.needsHydration candidate moment = true ∧ (duplicate = "" → b.Fresh messageId)

/-- Each of some requests, one after the other. -/
def EnqueuesSound (b : HydrationBook) (messageIds : Nat → String) (moment : HydrationMoment) :
    List ((Int × Candidate) × Nat) → Prop
  | [] => True
  | ((id, candidate), drawn) :: rest =>
      h.EnqueueSound b candidate (messageIds drawn) moment ∧
        EnqueuesSound (h.bookEnqueue b id candidate (messageIds drawn) moment) messageIds moment
          rest

/-- The condition on a step. An event that reports a failure reports it of the command that the
candidate waits on, and that command has finished; requests are sound; and no call on the gateway
state store takes an id that is in use, or opens a finished command of a candidate again. -/
def Sound (b : HydrationBook) : HydrationStep → Prop
  | .enqueueDueCandidates tradeDate messageIds moment =>
      h.config.enabled = true →
        h.EnqueuesSound (h.bookRecover b moment) messageIds moment
          (h.bookDue (h.bookRecover b moment) tradeDate moment)
  | .enqueueCandidate id messageId moment =>
      ∀ candidate, b.world.candidates.get? id = some candidate →
        h.EnqueueSound b candidate messageId moment
  | .handleEvent event moment =>
      h.handling b.world event = .failure →
        ∀ id candidate, h.reached b.world event moment = some (id, candidate) →
          candidate.waitingOn (answerOf event).commandId = true ∧
            b.outstanding (answerOf event).commandId = false
  | .recoverFromCommandHistory _ => True
  | .gateway call =>
      (∀ command, GatewayStateStore.Accepts h.digest b.world.gateway call command →
        b.Fresh command.commandId) ∧
      ∀ ask ∈ b.asks,
        ((GatewayStateStore.machine h.digest).next b.world.gateway call).outstanding
          ask.commandId = true → b.outstanding ask.commandId = true
  | .save _ _ => True

end CandidateHydrator

end TradingCore.Candidates
