import Mathlib.Data.List.Sort
import TradingCore.Base.Changes
import TradingCore.Candidates.Ingestion
import TradingCore.Orders.Tables

/-!
# The candidate bridge

`CandidateBridgeSourceReconciler` of `trading/theme_engine/candidate_bridge_reconciler.py` remembers
the pairs of a stock and a theme that were eligible, and turns what has changed into include and
remove events. Its memory is of one trade date: `ThemeCoreV3RuntimePipeline.run` restores it from
the table `candidate_bridge_source_state` when the date changes, and saves to the table what the
reconciler leaves.
-/

namespace TradingCore.Themes

open Base Candidates

/-! ## Decisions -/

/-- `StockRoleDecision` as the bridge reads it; `themeState` is that of the snapshot of its theme,
if there is one. -/
structure StockRoleDecision where
  code : String
  themeId : String := ""
  tradeRole : String := "WEAK_MEMBER_BLOCKED"
  roleScore : Rat := 0
  themeState : Option String := none

namespace StockRoleDecision

def eligible (decision : StockRoleDecision) : Bool :=
  decision.tradeRole ∈ ["LEADER_CONFIRMED", "CO_LEADER_CONFIRMED", "FOLLOWER_ALLOWED"] ∧
    decision.themeState.getD "" ∈ ["LEADING_THEME", "SPREADING_THEME", "LEADER_ONLY_THEME"]

/-- `_key_from_decision`. -/
def key (decision : StockRoleDecision) : String × String := (decision.code, decision.themeId)

end StockRoleDecision

structure CandidateBridgeSourceState where
  code : String
  themeId : String
  sourceId : String
  tradeRole : String := ""
  leadershipStatus : String := ""
  roleScore : Rat := 0
deriving DecidableEq

def stateFromDecision (sourceIdPrefix : String) (decision : StockRoleDecision) :
    CandidateBridgeSourceState where
  code := decision.code
  themeId := decision.themeId
  sourceId := sourceIdPrefix ++ ":" ++ decision.themeId ++ ":" ++ decision.code
  tradeRole := decision.tradeRole
  leadershipStatus := decision.themeState.getD ""
  roleScore := decision.roleScore

def eventFromState (state : CandidateBridgeSourceState)
    (tradeDate detectedAt sourceType eventType : String) : CandidateSourceEvent where
  tradeDate
  code := state.code
  sourceType
  sourceId := state.sourceId
  sourceScore := state.roleScore
  themeId := state.themeId
  stockRole := state.tradeRole
  reasonCodes :=
    [if eventType = "include" then "THEME_CORE_V3_CANDIDATE_BRIDGE" else "THEME_NO_LONGER_ELIGIBLE",
     "OBSERVE_ONLY"]
  rawPayload := .ofList
    [("event_type", .str eventType), ("trade_role", .str state.tradeRole),
     ("leadership_status", .str state.leadershipStatus), ("ready_allowed", .bool false),
     ("order_intent_allowed", .bool false)]
  detectedAt

/-! ## The reconciler -/

structure CandidateBridgeReconcileResult where
  includeEvents : List CandidateSourceEvent := []
  removeEvents : List CandidateSourceEvent := []
  activeState : List CandidateBridgeSourceState := []
  includedCount : Nat := 0
  removedCount : Nat := 0
  unchangedCount : Nat := 0
  reasonCodes : List String := []

structure CandidateBridgeSourceReconciler where
  sourceType : String := "theme_board"
  sourceIdPrefix : String := "theme_core_v3"
  active : Dict (String × String) CandidateBridgeSourceState := .empty

structure BridgeCall where
  decisions : List StockRoleDecision
  tradeDate : String
  detectedAt : String

/-- The eligible pairs of some decisions with their states; the last decision of a pair counts. -/
def eligibleStates (sourceIdPrefix : String) (decisions : List StockRoleDecision) :
    Dict (String × String) CandidateBridgeSourceState :=
  .ofList ((decisions.filter (·.eligible)).map fun decision =>
    (decision.key, stateFromDecision sourceIdPrefix decision))

namespace CandidateBridgeSourceReconciler

variable (r : CandidateBridgeSourceReconciler)

def restore (states : List CandidateBridgeSourceState) : CandidateBridgeSourceReconciler :=
  let kept := states.filter fun item => item.code ≠ "" ∧ item.themeId ≠ "" ∧ item.sourceId ≠ ""
  { r with active := .ofList (kept.map fun item => ((item.code, item.themeId), item)) }

def reconcile (call : BridgeCall) :
    CandidateBridgeSourceReconciler × CandidateBridgeReconcileResult :=
  let eligible := eligibleStates r.sourceIdPrefix call.decisions
  let event (eventType : String) (entry : (String × String) × CandidateBridgeSourceState) :=
    eventFromState entry.2 call.tradeDate call.detectedAt r.sourceType eventType
  let changed := eligible.entries.filter fun entry => r.active.get? entry.1 ≠ some entry.2
  let gone := r.active.entries.filter fun entry => ¬ eligible.contains entry.1
  let unchanged := eligible.entries.filter fun entry => r.active.get? entry.1 = some entry.2
  ({ r with active := eligible },
    { includeEvents := changed.map (event "include")
      removeEvents := gone.map (event "remove")
      activeState := eligible.values.insertionSort fun a b =>
        a.themeId < b.themeId ∨ a.themeId = b.themeId ∧ a.code ≤ b.code
      includedCount := changed.length
      removedCount := gone.length
      unchangedCount := unchanged.length
      reasonCodes := ["CANDIDATE_BRIDGE_RECONCILE_OBSERVE_ONLY"] })

end CandidateBridgeSourceReconciler

/-- The events of a result, in the order in which they are passed on. -/
def CandidateBridgeReconcileResult.events (result : CandidateBridgeReconcileResult) :
    List CandidateSourceEvent :=
  result.includeEvents ++ result.removeEvents

def reconcilerMachine :
    Machine CandidateBridgeSourceReconciler BridgeCall (List CandidateSourceEvent) :=
  ⟨fun r call => ((r.reconcile call).1, (r.reconcile call).2.events)⟩

/-! ## The table -/

/-- A row of `candidate_bridge_source_state`. -/
structure BridgeSourceRow where
  tradeRole : String
  themeState : String
  active : Bool
  updatedAt : String

abbrev BridgeSourceTable := Dict (String × String × String × String) BridgeSourceRow

namespace BridgeSourceTable

/-- `save_candidate_bridge_source_state`. -/
def saveState (table : BridgeSourceTable) (tradeDate code themeId sourceId : String)
    (row : BridgeSourceRow) : BridgeSourceTable :=
  let code := Orders.cleanStockCode code
  if tradeDate = "" ∨ code = "" ∨ sourceId = "" then table
  else table.set (tradeDate, code, themeId, sourceId) row

/-- `list_candidate_bridge_source_state` of the active rows, the latest first. -/
def listActive (table : BridgeSourceTable) (tradeDate : String) (limit : Nat) :
    List ((String × String × String × String) × BridgeSourceRow) :=
  ((table.entries.filter fun entry => entry.1.1 = tradeDate ∧ entry.2.active).insertionSort
    fun a b => b.2.updatedAt < a.2.updatedAt ∨
      a.2.updatedAt = b.2.updatedAt ∧ a.1.2.1 ≤ b.1.2.1).take (max 1 limit)

end BridgeSourceTable

/-- `_state_from_mapping` of a row of the table, which has no score. -/
def stateFromRow (entry : (String × String × String × String) × BridgeSourceRow) :
    CandidateBridgeSourceState where
  code := entry.1.2.1
  themeId := entry.1.2.2.1
  sourceId := entry.1.2.2.2
  tradeRole := entry.2.tradeRole
  leadershipStatus := entry.2.themeState

/-! ## The pipeline -/

/-- `ThemeCoreV3RuntimePipeline`: what it needs for the bridge. -/
structure ThemeCoreV3RuntimePipeline where
  bridgeReconciler : CandidateBridgeSourceReconciler := {}
  bridgeReconcilerRestoredTradeDate : String := ""
  bridgeSourceState : BridgeSourceTable := .empty

namespace ThemeCoreV3RuntimePipeline

variable (p : ThemeCoreV3RuntimePipeline)

def restoreBridgeSourceState (tradeDate : String) : ThemeCoreV3RuntimePipeline :=
  if p.bridgeReconcilerRestoredTradeDate = tradeDate then p
  else
    { p with
      bridgeReconciler := p.bridgeReconciler.restore
        ((p.bridgeSourceState.listActive tradeDate 3000).map stateFromRow)
      bridgeReconcilerRestoredTradeDate := tradeDate }

def saveActive (tradeDate calculatedAt : String) (table : BridgeSourceTable)
    (state : CandidateBridgeSourceState) : BridgeSourceTable :=
  table.saveState tradeDate state.code state.themeId state.sourceId
    { tradeRole := state.tradeRole, themeState := state.leadershipStatus, active := true
      updatedAt := calculatedAt }

/-- The write of a state that was removed, read off its event. -/
def saveRemoved (tradeDate calculatedAt : String) (table : BridgeSourceTable)
    (event : CandidateSourceEvent) : BridgeSourceTable :=
  table.saveState tradeDate (normalizeCode event.code) event.themeId event.sourceId
    { tradeRole := event.stockRole, themeState := event.rawPayload.textOr "leadership_status"
      active := false, updatedAt := calculatedAt }

def persistBridgeSourceState (result : CandidateBridgeReconcileResult)
    (tradeDate calculatedAt : String) : ThemeCoreV3RuntimePipeline :=
  let table := result.activeState.foldl (saveActive tradeDate calculatedAt) p.bridgeSourceState
  { p with bridgeSourceState := result.removeEvents.foldl (saveRemoved tradeDate calculatedAt) table }

/-- The bridge in `run`: the events that are passed on. -/
def run (call : BridgeCall) : ThemeCoreV3RuntimePipeline × List CandidateSourceEvent :=
  let p := p.restoreBridgeSourceState call.tradeDate
  let (bridgeReconciler, result) := p.bridgeReconciler.reconcile call
  (persistBridgeSourceState { p with bridgeReconciler } result call.tradeDate call.detectedAt,
    result.events)

end ThemeCoreV3RuntimePipeline

/-- The bridge of the pipeline, as a machine over its calls. -/
def bridgeMachine : Machine ThemeCoreV3RuntimePipeline BridgeCall (List CandidateSourceEvent) :=
  ⟨ThemeCoreV3RuntimePipeline.run⟩

end TradingCore.Themes
