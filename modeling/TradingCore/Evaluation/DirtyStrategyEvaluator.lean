import TradingCore.Base.Machine
import TradingCore.Candidates.StateContract
import TradingCore.Evaluation.DirtyCodeQueue

/-!
# The evaluator of dirty codes

`DirtyStrategyEvaluator` of `trading/strategy/dirty_strategy_evaluator.py`: a call takes codes out
of the queue, opens the pool of the candidates that they concern, and hands those to the entry
engine that are eligible and that no filter passes over: the debounce of a candidate, the strategy
context that was evaluated before, and the limit of a cycle. The candidates that the database
holds at a call are part of the call, since other services write them in between.
-/

namespace TradingCore.Evaluation

open Base Candidates

def broadReasons : List DirtyReason :=
  [.marketRegimeChanged, .themeStateChanged, .themeLeaderChanged, .themeRoleChanged,
    .strategyContextChanged]

/-- The configuration of the evaluator and of the queue, and the state contract. -/
structure EvaluationSetup where
  dirtyDebounceMs : Int := 200
  enabled : Bool := true
  maxCodesPerCycle : Int := 50
  maxCandidatesPerCycle : Int := 100
  debounceMs : Int := 200
  stateContract : CandidateStateContractService

/-! ## Candidates -/

/-- A row of `candidates`, with `strategy_context_id` of its metadata. -/
structure CandidateRow where
  id : Nat
  candidate : Candidate
  strategyContextId : String := ""

/-- The rows of `candidates`, one for each trade date and code, in their order. -/
structure CandidateTable where
  rows : List CandidateRow
  unique : (rows.map fun row => (row.candidate.tradeDate, row.candidate.code)).Nodup

namespace CandidateTable

/-- `list_candidates` of a trade date. -/
def listCandidates (table : CandidateTable) (tradeDate : String) : List CandidateRow :=
  table.rows.filter (·.candidate.tradeDate = tradeDate)

def loadCandidate (table : CandidateTable) (tradeDate code : String) : Option CandidateRow :=
  table.rows.find? fun row => row.candidate.tradeDate = tradeDate ∧ row.candidate.code = code

end CandidateTable

/-- A call of the evaluator: its time in microseconds, what the clock of the state contract says,
and the candidates of the database. -/
structure EvaluationCall where
  now : Int
  clock : String
  database : CandidateTable

/-- `_evaluation_eligible`, with the candidate as the state contract leaves it. -/
def evaluationEligible (contract : CandidateStateContractService) (candidate : Candidate)
    (clock : String) : Candidate × Bool :=
  if contract.enabled then
    let reconciled := contract.reconcileCandidate candidate clock
    (reconciled.1, reconciled.2.evaluationEligible)
  else (candidate, candidate.state = .watching)

/-! ## Dates -/

/-- Year, month and day of a day since the first of January 1970. -/
def civilDate (day : Int) : Int × Int × Int :=
  let shifted := day + 719468
  let era := shifted / 146097
  let dayOfEra := shifted - era * 146097
  let yearOfEra := (dayOfEra - dayOfEra / 1460 + dayOfEra / 36524 - dayOfEra / 146096) / 365
  let dayOfYear := dayOfEra - (365 * yearOfEra + yearOfEra / 4 - yearOfEra / 100)
  let marchMonth := (5 * dayOfYear + 2) / 153
  let month := if marchMonth < 10 then marchMonth + 3 else marchMonth - 9
  (yearOfEra + era * 400 + (if month ≤ 2 then 1 else 0), month,
    dayOfYear - (153 * marchMonth + 2) / 5 + 1)

/-- `date().isoformat()` of a whole second. -/
def isoDate (second : Int) : String :=
  let (year, month, day) := civilDate (second / 86400)
  String.intercalate "-"
    [Text.zfill 4 (toString year), Text.zfill 2 (toString month), Text.zfill 2 (toString day)]

example : isoDate 1781827200 = "2026-06-19" := by decide +kernel

namespace EvaluationCall

/-- `now` without its microseconds. -/
def current (call : EvaluationCall) : Int := cleanTime call.now

def tradeDate (call : EvaluationCall) : String := isoDate call.current

end EvaluationCall

/-! ## The pool -/

/-- The reasons of the codes with those of one more event. -/
def addReasons (result : Dict String (List DirtyReason)) (event : DirtyCodeEvent) :
    Dict String (List DirtyReason) :=
  let code := cleanCode event.code
  if code = "" then result
  else
    match result.getD code [] with
    | [] => result.set code event.reasons
    | existing => result.set code (existing ++ event.reasons).eraseDups

def reasonByCode (events : List DirtyCodeEvent) : Dict String (List DirtyReason) :=
  events.foldl addReasons .empty

def poolOf (call : EvaluationCall) (reasons : Dict String (List DirtyReason)) :
    List CandidateRow :=
  if reasons.values.any (·.any (· ∈ broadReasons)) then
    call.database.listCandidates call.tradeDate
  else reasons.keys.filterMap (call.database.loadCandidate call.tradeDate)

/-! ## Passing over -/

/-- `DirtyStrategyEvaluator`: what it remembers of each candidate. -/
structure DirtyStrategyEvaluator where
  lastEvaluatedAt : Dict Nat Int := .empty
  lastContextId : Dict Nat String := .empty

namespace DirtyStrategyEvaluator

def debounced (setup : EvaluationSetup) (evaluator : DirtyStrategyEvaluator) (key : Nat)
    (now : Int) : Bool :=
  match evaluator.lastEvaluatedAt.get? key with
  | none => false
  | some previous => 0 < setup.debounceMs ∧ (now - previous) * 1000 < setup.debounceMs

/-- The strategy context of the candidate changed, and it is the one last evaluated. -/
def contextEvaluated (evaluator : DirtyStrategyEvaluator)
    (reasons : Dict String (List DirtyReason)) (row : CandidateRow) : Bool :=
  row.strategyContextId ≠ "" ∧
    .strategyContextChanged ∈ reasons.getD row.candidate.code [] ∧
    evaluator.lastContextId.get? row.id = some row.strategyContextId

def remember (evaluator : DirtyStrategyEvaluator) (row : CandidateRow) (now : Int) :
    DirtyStrategyEvaluator where
  lastEvaluatedAt := evaluator.lastEvaluatedAt.set row.id now
  lastContextId :=
    if row.strategyContextId = "" then evaluator.lastContextId
    else evaluator.lastContextId.set row.id row.strategyContextId

end DirtyStrategyEvaluator

/-- The candidates taken so far, and the counts of those passed over. -/
structure Selection where
  evaluator : DirtyStrategyEvaluator
  candidates : List CandidateRow := []
  debounced : Nat := 0
  skipped : Nat := 0

/-- What `_candidates_for_dirty_events` does with one candidate of the pool. -/
def Selection.consider (setup : EvaluationSetup) (call : EvaluationCall)
    (reasons : Dict String (List DirtyReason)) (selection : Selection) (row : CandidateRow) :
    Selection :=
  let eligible := evaluationEligible setup.stateContract row.candidate call.clock
  if eligible.2 = false then { selection with skipped := selection.skipped + 1 }
  else if row.id ∈ selection.candidates.map (·.id) then selection
  else if selection.evaluator.debounced setup row.id call.current ∨
      selection.evaluator.contextEvaluated reasons row then
    { selection with debounced := selection.debounced + 1 }
  else
    { selection with
      candidates := selection.candidates ++ [{ row with candidate := eligible.1 }]
      evaluator := selection.evaluator.remember row call.current }

/-- `_candidates_for_dirty_events`: the pool is left when a candidate taken reaches the limit. -/
def selectCandidates (setup : EvaluationSetup) (call : EvaluationCall)
    (reasons : Dict String (List DirtyReason)) : Selection → List CandidateRow → Selection
  | selection, [] => selection
  | selection, row :: rest =>
      let considered := selection.consider setup call reasons row
      if selection.candidates.length < considered.candidates.length ∧
          setup.maxCandidatesPerCycle ≤ considered.candidates.length then considered
      else selectCandidates setup call reasons considered rest

/-! ## Marks and calls -/

structure DirtyEvaluation where
  queue : DirtyCodeQueue := {}
  evaluator : DirtyStrategyEvaluator := {}

/-- `DirtyStrategyEvaluatorResult`, with the candidates that the entry engine is given. -/
structure EvaluationResult where
  status : String
  dirtyCodeCount : Nat := 0
  evaluated : List CandidateRow := []
  debouncedCount : Nat := 0
  skippedCount : Nat := 0

/-- A step: a mark at a time in microseconds, or a call of the evaluator. -/
inductive EvaluationStep
  | markDirty (code : String) (reason : DirtyReason) (sourceEventId : String) (markedAt : Int)
  | evaluateDirty (call : EvaluationCall)

/-- The answer to a step. -/
inductive EvaluationAnswer
  | marked (accepted : Bool)
  | answered (result : EvaluationResult)

def EvaluationAnswer.evaluated : EvaluationAnswer → List CandidateRow
  | marked _ => []
  | answered result => result.evaluated

namespace DirtyEvaluation

/-- The selection of a call, of the events taken out of the queue. -/
def selectionOf (setup : EvaluationSetup) (state : DirtyEvaluation) (call : EvaluationCall)
    (events : List DirtyCodeEvent) : Selection :=
  selectCandidates setup call (reasonByCode events) { evaluator := state.evaluator }
    (poolOf call (reasonByCode events))

def evaluateDirty (setup : EvaluationSetup) (state : DirtyEvaluation) (call : EvaluationCall) :
    DirtyEvaluation × EvaluationResult :=
  if setup.enabled = false then (state, { status := "DISABLED" })
  else
    let popped := state.queue.popDirty setup.maxCodesPerCycle
    let state := { state with queue := popped.1 }
    if popped.2 = [] then (state, { status := "IDLE" })
    else
      let selection := state.selectionOf setup call popped.2
      ({ state with evaluator := selection.evaluator },
        { status := "OK"
          dirtyCodeCount := popped.2.length
          evaluated := selection.candidates
          debouncedCount := selection.debounced
          skippedCount := selection.skipped })

def machine (setup : EvaluationSetup) :
    Machine DirtyEvaluation EvaluationStep EvaluationAnswer where
  step
    | state, .markDirty code reason sourceEventId markedAt =>
        let marked := state.queue.markDirty setup.dirtyDebounceMs code reason sourceEventId markedAt
        ({ state with queue := marked.1 }, .marked marked.2)
    | state, .evaluateDirty call =>
        let evaluated := state.evaluateDirty setup call
        (evaluated.1, .answered evaluated.2)

end DirtyEvaluation

end TradingCore.Evaluation
