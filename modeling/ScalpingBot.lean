import ScalpingBot.Transport.Reconnect
import ScalpingBot.Transport.Delivery
import ScalpingBot.Library.Significant
import ScalpingBot.Library.LatestWins
import ScalpingBot.Gateway.Uncertainty
import ScalpingBot.Gateway.Dispatch
import ScalpingBot.Gateway.Peer
import ScalpingBot.Store.Redelivery
import ScalpingBot.Store.Confluence
import ScalpingBot.Risk.PercentCut
import ScalpingBot.Risk.DailyBudget
import ScalpingBot.Risk.Capital
import ScalpingBot.Store.GroupStates
import ScalpingBot.Gateway.Slippage
import ScalpingBot.Execution.Recorder
import ScalpingBot.Protection.Maintenance
import ScalpingBot.Protection.PlanLaws
import ScalpingBot.Execution.OrderMaintenance
import ScalpingBot.Library.Attempt
import ScalpingBot.Paper.Gateway
import ScalpingBot.Paper.Stages
import ScalpingBot.Paper.Exposure
import ScalpingBot.Paper.Finished
import ScalpingBot.Paper.Slippage
import ScalpingBot.Scenario.Plan
import ScalpingBot.Scenario.Replay
import ScalpingBot.Scenario.Lifecycle
import ScalpingBot.Scenario.History
import ScalpingBot.Scenario.ReplayLaws
import ScalpingBot.Scenario.Checkpoint
import ScalpingBot.Execution.DemoTrials
import ScalpingBot.Execution.TrialLaws
import ScalpingBot.Library.Window
import ScalpingBot.Candles.Sessions
import ScalpingBot.Candles.Cache
import ScalpingBot.Candles.Resets
import ScalpingBot.Candles.History
import ScalpingBot.Candles.CacheLaws
import ScalpingBot.Observability.Outbox
import ScalpingBot.Library.Locks
import ScalpingBot.Context.Retirement
import ScalpingBot.Execution.DecisionTrail
import ScalpingBot.Risk.Grid
import ScalpingBot.Transport.TokenStore
import ScalpingBot.Context.Admission
import ScalpingBot.Context.AdmissionLaws
import ScalpingBot.Flight.Recorder
import ScalpingBot.Flight.Continuity
import ScalpingBot.Flight.Attended
import ScalpingBot.Risk.Confirmed
import ScalpingBot.Risk.CostSearch
import ScalpingBot.Model.Validator
import ScalpingBot.Model.Bounds
import ScalpingBot.Risk.Affordable
import ScalpingBot.Risk.Coverage
import ScalpingBot.Candidates.Payoff
import ScalpingBot.Candidates.Fills
import ScalpingBot.Candidates.Admission
import ScalpingBot.Execution.QuickProfit
import ScalpingBot.Execution.Fields
import ScalpingBot.Account.CashFlows
import ScalpingBot.Account.Evidence
import ScalpingBot.Execution.Normalizer
import ScalpingBot.Library.Causal
import ScalpingBot.Indicators.Core
import ScalpingBot.Indicators.Causality
import ScalpingBot.Learning.Budget
import ScalpingBot.Learning.BudgetLaws
import ScalpingBot.Library.Rounded
import ScalpingBot.Library.Removal
import ScalpingBot.Library.HalfEven
import ScalpingBot.Library.Sorted
import ScalpingBot.Backtest.Variants
import ScalpingBot.Backtest.Escalation
import ScalpingBot.Evaluation.Engine
import ScalpingBot.Evaluation.Accounting
import ScalpingBot.Backtest.Tape
import ScalpingBot.Backtest.TapeCuts
import ScalpingBot.Backtest.Paired
import ScalpingBot.Backtest.PairedLaws
import ScalpingBot.Library.Dictionary
import ScalpingBot.Library.Cumulative
import ScalpingBot.Library.Extremes
import ScalpingBot.Learning.Evidence
import ScalpingBot.Backtest.CurrentScalp
import ScalpingBot.Backtest.CurrentScalpLaws
import ScalpingBot.Backtest.ScalpReplay
import ScalpingBot.Backtest.ScalpReplayLaws
import ScalpingBot.Library.Interrupted
import ScalpingBot.Depth.Book
import ScalpingBot.Depth.Atomic
import ScalpingBot.Library.Journal
import ScalpingBot.Depth.Balance
import ScalpingBot.Ai.Client
import ScalpingBot.Ai.Circuit
import ScalpingBot.IdleTape.Recorder
import ScalpingBot.IdleTape.Accounting
import ScalpingBot.Library.Increasing
import ScalpingBot.IdleTape.Ranges
import ScalpingBot.Flight.Excursions
import ScalpingBot.Flight.LateCloses
import ScalpingBot.Technical.Candle
import ScalpingBot.Technical.Structure
import ScalpingBot.Technical.StructureLaws
import ScalpingBot.Technical.Reflection
import ScalpingBot.Technical.Sides
import ScalpingBot.Technical.Symmetry
import ScalpingBot.Technical.Levels
import ScalpingBot.Technical.Agreement
import ScalpingBot.Library.Lawful
import ScalpingBot.Coordinator.SafetyGates
import ScalpingBot.Coordinator.Calls
import ScalpingBot.Coordinator.Cycle
import ScalpingBot.Coordinator.Steps
import ScalpingBot.Coordinator.CycleLaws
import ScalpingBot.Coordinator.Guarantees
import ScalpingBot.Library.Json
import ScalpingBot.Library.JsonGrammar
import ScalpingBot.Library.JsonKeys
import ScalpingBot.Library.JsonText
import ScalpingBot.Model.DuplicateKeys
import ScalpingBot.Library.Blocks
import ScalpingBot.Scenario.EntryPlan
import ScalpingBot.Library.HashChain
import ScalpingBot.Evidence.Operational
import ScalpingBot.Evidence.Collector
import ScalpingBot.Evidence.CollectorLaws
import ScalpingBot.Scenario.EntryPrices
