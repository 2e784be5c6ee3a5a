import TradingCore.Broker.CommandQueue
import TradingCore.Orders.Pipeline

/-!
# Order intents and what they are made from

The inputs of a cycle of `OrderManagerRuntimePipeline` (`trading/strategy/order_manager.py`)
and the intents it makes of them. The tables that other components fill (decisions,
portfolio snapshots, position snapshots, candidates), the last tick of a code and the
broker's report are read at the start of a cycle and do not change while it runs.

Of a dictionary of details only the keys that this component reads are kept; `none` is a
missing key.
-/

namespace TradingCore.Orders

open Base

/-- The sides of a new order. -/
inductive OrderSide
  | buy
  | sell
deriving DecidableEq

/-- The value of `OrderSide`. -/
def OrderSide.text : OrderSide → String
  | .buy => "BUY"
  | .sell => "SELL"

/-- The text of a timestamp: empty, not a timestamp, or a second. A fraction of a second is
dropped; ages are only compared with whole seconds from above. -/
inductive Stamp
  | empty
  | garbled
  | second (t : Int)
deriving DecidableEq

namespace Stamp

/-- `a or b` of two timestamp texts. -/
def or (a b : Stamp) : Stamp := if a = .empty then b else a

/-- `_age_sec` of `order_risk.py`. -/
def ageSec (now : Int) : Stamp → Option Int
  | .second t => some (max 0 (now - t))
  | .empty | .garbled => none

/-- A timestamp that can be read and is older than `limit` seconds. -/
def olderThan (stamp : Stamp) (now limit : Int) : Bool :=
  match stamp.ageSec now with
  | some age => limit < age
  | none => false

end Stamp

/-- The keys of the details of a decision, of a tick's metadata and of an intent. -/
structure IntentDetails where
  currentPrice : Option Int := none
  spreadTicks : Option Int := none
  viActive : Option Bool := none
  upperLimitNear : Option Bool := none
  lastTickAt : Option Stamp := none
  tickTimestamp : Option Stamp := none
  calculatedAt : Option Stamp := none
  marketStatus : Option String := none
  marketAction : Option String := none
  marketSide : Option String := none
  market : Option String := none
  /-- `strategy_context_v3.market.market_side` -/
  contextMarketSide : Option String := none
  positionId : Option String := none
  name : Option String := none
  themeId : Option String := none
  themeName : Option String := none

/-- `{**a, **b}`. -/
def IntentDetails.update (a b : IntentDetails) : IntentDetails where
  currentPrice := b.currentPrice.or a.currentPrice
  spreadTicks := b.spreadTicks.or a.spreadTicks
  viActive := b.viActive.or a.viActive
  upperLimitNear := b.upperLimitNear.or a.upperLimitNear
  lastTickAt := b.lastTickAt.or a.lastTickAt
  tickTimestamp := b.tickTimestamp.or a.tickTimestamp
  calculatedAt := b.calculatedAt.or a.calculatedAt
  marketStatus := b.marketStatus.or a.marketStatus
  marketAction := b.marketAction.or a.marketAction
  marketSide := b.marketSide.or a.marketSide
  market := b.market.or a.market
  contextMarketSide := b.contextMarketSide.or a.contextMarketSide
  positionId := b.positionId.or a.positionId
  name := b.name.or a.name
  themeId := b.themeId.or a.themeId
  themeName := b.themeName.or a.themeName

def IntentDetails.toOrder (details : IntentDetails) : OrderDetails where
  positionId := details.positionId.getD ""
  name := details.name.getD ""
  themeId := details.themeId.getD ""
  themeName := details.themeName.getD ""

structure ManagedOrderIntent where
  tradeDate : String
  side : OrderSide
  code : String
  quantity : Int
  price : Int
  idempotencyKey : String
  account : String := ""
  name : String := ""
  hoga : String := "00"
  candidateId : Option Nat := none
  positionId : String := ""
  decisionId : Option Nat := none
  themeId : String := ""
  themeName : String := ""
  reason : String := ""
  details : IntentDetails := {}

/-- The other fields of `OrderManagerConfig`, which the making and sending of orders
reads. -/
structure OrderManagerSettings extends OrderManagerConfig where
  intentEnabled : Bool := false
  createLocalOrder : Bool := false
  enqueueGatewayCommand : Bool := false
  sendOrderAllowed : Bool := false
  mode : String := "OBSERVE"
  allowLiveSimOrders : Bool := false
  requireSimulationBroker : Bool := true
  blockRealBroker : Bool := true
  liveSimAccountWhitelist : List String := []
  maxOrderQuantity : Int := 1
  maxOrderAmount : Int := 100000
  maxDailyBuyOrders : Int := 3
  maxDailySellOrders : Int := 10
  maxDailyOrdersPerCode : Int := 1
  maxOpenPositions : Int := 3
  maxThemeExposureCount : Int := 2
  orderHoga : String := "00"
  useLimitPrice : Bool := true
  allowMarketOrder : Bool := false
  observeOnly : Bool := true
  decisionStaleAfterSec : Int := 180
  quoteStaleAfterSec : Int := 45
  maxSpreadTicks : Int := 5
  staleTickSec : Int := 10
  reconcileRequiredBlocksBuy : Bool := true
  blockPyramiding : Bool := true
  marketSidePortfolioEnabled : Bool := false
  marketSidePortfolioEnforceBuyLimits : Bool := false
  marketSideBudgetMaxAgeSec : Int := 60
  commandTtlSec : Int := 30
  commandMaxAttempts : Int := 1
  cycleBucketSec : Int := 30

/-- What the snapshot of the Gateway says of the broker. `environmentTexts` are the ten
values that `broker_environment_state` looks at, in its order; a missing one is empty. -/
structure BrokerReport where
  kiwoomLoggedIn : Bool := false
  orderable : Bool := false
  heartbeatOk : Bool := false
  account : String := ""
  environmentTexts : List String := []

/-- The sides of the market that have a budget. -/
inductive MarketSide
  | kospi
  | kosdaq

/-- One entry of `market_side_budgets`. -/
structure MarketSideBudget where
  budgetAction : String := ""
  reservedExposureKrw : Int := 0
  effectiveExposureLimitKrw : Int := 0
  availablePositionSlots : Int := 0
  maxOpenPositions : Int := 0

/-- `latest_portfolio_risk_snapshot`, when there is one. The budgets are those of the row,
or of its details. -/
structure PortfolioSnapshot extends PortfolioRisk where
  calculatedAt : Stamp := .empty
  kospiBudget : Option MarketSideBudget := none
  kosdaqBudget : Option MarketSideBudget := none
  grossExposureLimitKrw : Int := 0
  grossReservedExposureKrw : Int := 0
  totalExposure : Int := 0

def PortfolioSnapshot.budget (portfolio : PortfolioSnapshot) :
    MarketSide → Option MarketSideBudget
  | .kospi => portfolio.kospiBudget
  | .kosdaq => portfolio.kosdaqBudget

/-- A row of `entry_decisions`. -/
structure EntryDecision where
  id : Option Nat := none
  candidateId : Option Nat := none
  code : String
  name : String := ""
  quantity : Int := 0
  limitPriceHint : Int := 0
  currentPrice : Int := 0
  entryStatus : String := ""
  marketStatus : String := ""
  marketAction : String := ""
  stockRole : String := ""
  priceLocation : String := ""
  themeId : String := ""
  themeName : String := ""
  reasonCodes : List String := []
  calculatedAt : Stamp := .empty
  details : IntentDetails := {}

/-- A row of `exit_decisions_reboot`. -/
structure ExitDecision where
  id : Option Nat := none
  candidateId : Option Nat := none
  positionId : String := ""
  code : String
  name : String := ""
  quantity : Int := 0
  priceHint : Int := 0
  currentPrice : Int := 0
  exitStatus : String := ""
  exitReason : String := ""
  hogaHint : String := ""
  dryRunSellIntentAllowed : Bool := false
  liveSimIntentAllowed : Bool := false
  liveOrderAllowed : Bool := false
  calculatedAt : Stamp := .empty
  details : IntentDetails := {}

/-- A row of `position_runtime_snapshots`. -/
structure PositionRuntimeSnapshot where
  positionId : String
  remainingQuantity : Int := 0
  currentQty : Int := 0
  sourceType : String := ""
  /-- `details.source` -/
  detailsSource : String := ""
  themeId : String := ""
  themeName : String := ""

structure Tick where
  price : Int := 0
  bestAsk : Int := 0
  bestBid : Int := 0
  spreadTicks : Int := 0
  timestamp : Stamp := .empty
  metadata : IntentDetails := {}

/-- `metadata.candidate_fsm` of a candidate. -/
structure CandidateFsm where
  v2State : String := ""
  blockingStage : String := ""
  priceSource : String := ""
  latestTickFresh : String := ""

/-- A candidate, as far as the entry check reads it. -/
structure Candidate where
  state : String := ""
  fsm : Option CandidateFsm := none

/-- What a call of `run` finds. `tradeDate` is the date of `now` and `today` that of the
clock; `wall` is the second of the clock. `messageId` is what `new_message_id` returns for
the command with the given idempotency key. `cancelAgeReached` says of which orders the time
since `acked_at` (or `sent_at`, or `created_at`) has reached their `cancel_after_sec`;
these columns are not kept. -/
structure Cycle where
  now : Int
  tradeDate : String
  today : String
  wall : Broker.Time
  portfolio : Option PortfolioSnapshot := none
  broker : BrokerReport := {}
  entryDecisions : List EntryDecision := []
  exitDecisions : List ExitDecision := []
  positionSnapshots : List PositionRuntimeSnapshot := []
  latestTick : String → Option Tick := fun _ => none
  candidate : String → Option Candidate := fun _ => none
  messageId : String → String := id
  cancelAgeReached : Nat → Bool := fun _ => true

def Cycle.portfolioRisk (cycle : Cycle) : PortfolioRisk :=
  (cycle.portfolio.map (·.toPortfolioRisk)).getD {}

end TradingCore.Orders
