import TradingCore.Broker.ActiveDedupe
import TradingCore.Broker.FinishedAbsorbing
import TradingCore.Broker.StoreAgreement
import TradingCore.Transport.FallbackLossless
import TradingCore.Transport.ConditionMembership
import TradingCore.EventLog.LeaseExclusion
import TradingCore.EventLog.Readiness
import TradingCore.Orders.StopNewBuy
import TradingCore.Orders.TerminalOrders
import TradingCore.Orders.SellBound
import TradingCore.LiveSim.Telescoping
import TradingCore.LiveSim.AtomicFill
import TradingCore.LiveSim.ExitProtection
import TradingCore.LiveSim.ExposureLimit
import TradingCore.LiveSim.EnqueueCrash
import TradingCore.LiveSim.ReconcileAgreement
import TradingCore.BrokerReconcile.ComparatorAgreement
import TradingCore.BrokerReconcile.CleanRuns
import TradingCore.Realtime.SubscriptionFreshness
import TradingCore.Candidates.FsmStages
import TradingCore.Evaluation.ChangesEvaluated
import TradingCore.Orders.PathAgreement
import TradingCore.Transport.EventIntake
import TradingCore.Transport.ControlOrder
import TradingCore.Candidates.ContractFixedPoint
import TradingCore.LiveSim.PositionsIntact
import TradingCore.LiveSim.FillsPrevail
import TradingCore.Kiwoom.OwnPages
import TradingCore.Kiwoom.DrainOrder
import TradingCore.Transport.EventsKept
import TradingCore.LiveSim.SizingLimit
import TradingCore.LiveSim.CloseTime
import TradingCore.LiveSim.DailyLimits
import TradingCore.Transport.LastWord
import TradingCore.Candidates.ConditionMembership
import TradingCore.Broker.DispatchOrder
import TradingCore.Orders.Fills
import TradingCore.EventLog.BoundedAttempts
import TradingCore.Broker.RecordRoundTrip
import TradingCore.Broker.DedupeKeys
import TradingCore.Broker.OrderCounts
import TradingCore.Orders.DecoderAgreement
import TradingCore.Broker.NewestOwner
import TradingCore.Orders.KillSwitchSeverity
import TradingCore.LiveSim.PositionAccounting
import TradingCore.Candles.TicksAccounted
import TradingCore.Orders.BrokerProjection
import TradingCore.Themes.LeasesHonoured
import TradingCore.Realtime.ScreenBudget
import TradingCore.Themes.HeldTransitions
import TradingCore.Themes.RegainedLeadership
import TradingCore.Orders.CancelAttribution
import TradingCore.Candles.FullBuckets
import TradingCore.VirtualOrders.EvaluationSchedules
import TradingCore.VirtualOrders.LegSequence
import TradingCore.Prices.TickCounts
import TradingCore.Simulation.ObservedTick
import TradingCore.Simulation.LimitFills
import TradingCore.MarketData.SnapshotFreshness
import TradingCore.DirtyCodes.PunctualReturns
import TradingCore.Candidates.BoundedRequests
import TradingCore.Themes.BridgeFeed
import TradingCore.Market.MonotonePolicy
import TradingCore.Themes.FlowRanking
import TradingCore.Broker.QueueRepresentation
import TradingCore.Evaluation.CodeAgreement
import TradingCore.Candidates.ConditionAdapter
import TradingCore.MarketData.BackfillSeparation
import TradingCore.Candidates.ConditionLifetime
import TradingCore.Transport.PriceTickQueue
import TradingCore.PositionRisk.SnapshotDict
import TradingCore.PositionRisk.CounterpartRegime
import TradingCore.Themes.InputSignature
