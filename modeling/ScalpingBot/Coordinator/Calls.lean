import ScalpingBot.Coordinator.SafetyGates
import ScalpingBot.Library.Program
import ScalpingBot.Model.Bounds
import ScalpingBot.Risk.Affordable
import ScalpingBot.Risk.Coverage

/-! What one cycle of apps/execution-service/src/coordinator.ts calls and what it keeps. Every provider,
    gate, record of the trail and call of the gateway is a call of the environment, which answers with
    a value or a failure; the clock and the callbacks that a cycle reads are calls as well. -/

namespace ScalpingBot.Coordinator

open Risk (OcoEvaluation StopConstraint)

/-! ### The state machine -/

inductive AnalysisState where
  | pending | collecting | featured | modelPending | validating
  | accepted | rejected | deferred | expired
  deriving DecidableEq

/-- `TRANSITIONS`. -/
def AnalysisState.transitions : AnalysisState → List AnalysisState
  | .pending => [.collecting, .rejected]
  | .collecting => [.featured, .rejected]
  | .featured => [.modelPending, .rejected, .deferred]
  | .modelPending => [.validating, .rejected]
  | .validating => [.accepted, .rejected]
  | .accepted => [.expired]
  | .rejected => []
  | .deferred => []
  | .expired => []

/-- The states in which a rejection records nothing any more. -/
def AnalysisState.terminal (s : AnalysisState) : Bool :=
  s ∈ [.rejected, .accepted, .expired, .deferred]

/-- `AnalysisTransition`, without its time. -/
structure AnalysisTransition where
  source : AnalysisState
  target : AnalysisState
  reasonCodes : List String
  deriving DecidableEq

/-! ### Payloads -/

/-- The payloads that a cycle passes on without reading them. -/
structure Wire where
  Features : Type
  Chart : Type
  Candles : Type
  Levels : Type
  Performance : Type
  Adjustment : Type
  Distances : Type
  Payload : Type
  Response : Type
  Details : Type

structure OrderBookSnapshot (W : Wire) where
  sourceTime : Option ℕ
  levels : W.Levels

structure MarketSnapshot (W : Wire) where
  serverTime : Option ℤ
  metadata : SymbolMetadata
  quote : Quote
  candles : W.Candles
  orderBook : OrderBookSnapshot W

structure AnalyticsResponse (W : Wire) where
  schemaVersion : String
  artifactPolicy : Option String
  acceptable : Bool
  rejectionReasons : List String
  features : W.Features
  chart : Option W.Chart

structure SpreadContext where
  observedPercentile : Option Decimal
  sessionAbnormal : Bool

/-- What a check answers: `SpreadDecision`, the answers of the semantic validation, of the scan and of
    the fee check, as far as a cycle reads them. -/
structure Verdict where
  accepted : Bool
  reasonCodes : List String
  deriving DecidableEq

/-- The answer of `deriveCommissionAwareMinimumDistances`. -/
structure CommissionDistances (W : Wire) extends Verdict where
  takeProfitDistance : Option Decimal
  stopLossDistance : Option Decimal
  details : W.Distances

/-- The answer of an exit policy. -/
structure Transformed (W : Wire) extends Verdict where
  response : Option W.Response
  details : W.Details

/-- The answer of `model.analyze`. -/
structure ModelAnswer (W : Wire) where
  response : W.Response
  entrySide : Option OrderSide
  promptVersion : String
  contextPlanId : Option String

/-- `PlacementControls`. -/
structure PlacementControls where
  filesystemControlsCertain : Bool
  filesystemEmergencyStop : Bool
  liveEnablementFileValid : Bool
  runtimeControlsCertain : Bool
  databaseEmergencyStop : Bool
  dashboardAcknowledged : Bool
  pauseNewAnalyses : Bool

inductive ValidationStage where | semantic | risk | liveGate
  deriving DecidableEq

inductive RefreshPhase where | preModel | postModel | prePlacement
  deriving DecidableEq

/-! ### Calls -/

inductive Call (W : Wire) where
  | safety
  | circuitOpen
  | marketSession
  | beforeAnalysis
  | start
  | transition (event : AnalysisTransition)
  | snapshot
  | market (snapshot : MarketSnapshot W)
  | analyze (numeric : Bool) (snapshot : MarketSnapshot W)
  | analytics (response : AnalyticsResponse W)
  | spreadContext (snapshot : MarketSnapshot W)
  | validation (stage : ValidationStage) (accepted : Bool) (reasons : List String)
      (scope : Option String)
  | reconcile (symbolId : String)
  | proposalConstraints (account : AccountState) (metadata : SymbolMetadata) (quote : Quote)
  | decisionMarket (snapshot : MarketSnapshot W) (phase : RefreshPhase)
  | performance (response : AnalyticsResponse W)
  | compressionPreflight (snapshot : MarketSnapshot W) (atr : Decimal)
  | prepare (snapshot : MarketSnapshot W) (chart : Option W.Chart) (payload : W.Payload)
  | analyzeModel (payload : W.Payload) (chart : Option W.Chart) (timeoutMs : ℕ)
  | modelFailure (reason : String)
  | retireEntries (contextPlanId : String) (snapshot : MarketSnapshot W) (phase : RefreshPhase)
  | model (payload : W.Payload) (answer : ModelAnswer W)
  | now
  | evidenceScalp (snapshot : MarketSnapshot W) (response : W.Response) (atr maximum : Decimal)
      (side : Option OrderSide)
  | compressionScalp (snapshot : MarketSnapshot W) (response : W.Response) (atr maximum : Decimal)
  | evaluate (response : W.Response) (account : AccountState) (metadata : SymbolMetadata)
      (quote : Quote) (trend : ℤ) (selectedSide : Option OrderSide)
  | commandFeeCheck (commands : List PendingOrderCommand) (metadata : SymbolMetadata)
  | placementControls
  | currentSetupRiskPercent
  | intent (evaluation : OcoEvaluation)
  | placeDirectional (command : PendingOrderCommand)
  | placeOco (commands : PendingOrderCommand × PendingOrderCommand)
  | placement (result : OcoPlacementResult)
  | flushExecutionEvents

variable {W : Wire}

def Answer : Call W → Type
  | .safety => SafetyGateInput
  | .circuitOpen => Bool
  | .marketSession => MarketSessionStatus
  | .snapshot => MarketSnapshot W
  | .analyze .. => AnalyticsResponse W
  | .spreadContext _ => SpreadContext
  | .reconcile _ => AccountState
  | .proposalConstraints .. => StopConstraint
  | .performance _ => W.Performance
  | .compressionPreflight .. => Verdict
  | .prepare .. => Option String
  | .analyzeModel .. => ModelAnswer W
  | .retireEntries .. => Bool
  | .now => ℕ
  | .evidenceScalp .. => Transformed W
  | .compressionScalp .. => Transformed W
  | .evaluate .. => OcoEvaluation
  | .commandFeeCheck .. => Verdict
  | .placementControls => PlacementControls
  | .currentSetupRiskPercent => Decimal
  | .placeDirectional _ => OcoPlacementResult
  | .placeOco _ => OcoPlacementResult
  | .beforeAnalysis | .start | .transition _ | .market _ | .analytics _ | .validation .. |
    .decisionMarket .. | .modelFailure _ | .model .. | .intent _ | .placement _ |
    .flushExecutionEvents => Unit

/-- Which call it is, whatever its arguments are. -/
inductive Kind where
  | safety | circuitOpen | marketSession | beforeAnalysis | start | transition | snapshot | market
  | analyze | analytics | spreadContext | validation | reconcile | proposalConstraints
  | decisionMarket | performance | compressionPreflight | prepare | analyzeModel | modelFailure
  | retireEntries | model | now | evidenceScalp | compressionScalp | evaluate | commandFeeCheck
  | placementControls | currentSetupRiskPercent | intent | place | placement
  | flushExecutionEvents
  deriving DecidableEq

/-- The kind of a call; both calls that place orders are one kind. -/
def Call.kind : Call W → Kind
  | .safety => .safety
  | .circuitOpen => .circuitOpen
  | .marketSession => .marketSession
  | .beforeAnalysis => .beforeAnalysis
  | .start => .start
  | .transition _ => .transition
  | .snapshot => .snapshot
  | .market _ => .market
  | .analyze .. => .analyze
  | .analytics _ => .analytics
  | .spreadContext _ => .spreadContext
  | .validation .. => .validation
  | .reconcile _ => .reconcile
  | .proposalConstraints .. => .proposalConstraints
  | .decisionMarket .. => .decisionMarket
  | .performance _ => .performance
  | .compressionPreflight .. => .compressionPreflight
  | .prepare .. => .prepare
  | .analyzeModel .. => .analyzeModel
  | .modelFailure _ => .modelFailure
  | .retireEntries .. => .retireEntries
  | .model .. => .model
  | .now => .now
  | .evidenceScalp .. => .evidenceScalp
  | .compressionScalp .. => .compressionScalp
  | .evaluate .. => .evaluate
  | .commandFeeCheck .. => .commandFeeCheck
  | .placementControls => .placementControls
  | .currentSetupRiskPercent => .currentSetupRiskPercent
  | .intent _ => .intent
  | .placeDirectional _ => .place
  | .placeOco _ => .place
  | .placement _ => .placement
  | .flushExecutionEvents => .flushExecutionEvents

/-- The message of an `Error`, or nothing for a thrown value that is none. -/
abbrev Failure := Option String

abbrev Event (W : Wire) := Program.Called (Call W) Answer Failure

abbrev Environment (W : Wire) := Program.Environment (Call W) (Answer (W := W)) Failure

/-! ### Configuration -/

/-- `CoordinatorOptions`: which optional callbacks there are, and the values that a cycle itself reads. -/
structure CoordinatorOptions where
  hasBeforeAnalysis : Bool
  hasMarketSession : Bool
  hasCompressionPreflight : Bool
  hasEvidenceScalp : Bool
  hasCompressionScalp : Bool
  hasCommandFeeCheck : Bool
  hasFlushExecutionEvents : Bool
  hasAnalyzeNumeric : Bool
  hasPrepare : Bool
  hasModelFailure : Bool
  hasRetireEntries : Bool
  hasPlaceDirectional : Bool
  hasCurrentSetupRiskPercent : Bool
  entryPairMode : Bool
  directionalEntryOnly : Bool
  validateLimitSemantics : Bool
  executionOrderType : Option PendingExecutionOrderType
  breakoutScalp : Bool
  modelDefinedScalp : Bool
  numericAnalytics : Bool
  preModelStabilityCheck : Bool
  enforceModelDeadline : Bool
  mode : TradingMode
  promptVersion : String
  minRiskRewardRatio : Decimal
  minimumExpectedNetToFeesRatio : Decimal
  preferredExpirySeconds : ℤ
  maxStopDistanceAtr : Decimal
  maxEntryDistanceAtr : Decimal
  entryLatencyBufferAtr : Decimal
  preferredMaxEntryDistanceAtr : Decimal
  minStopDistancePoints : Option Decimal
  maxQuoteAgeMs : ℤ
  maxOrderBookAgeMs : ℤ

/-- The part of the context of a semantic validation that changes from one to the next. -/
structure SemanticContext (W : Wire) where
  selectedSide : Option OrderSide
  now : ℕ
  expiryReferenceTime : Option ℤ
  quote : Quote
  metadata : SymbolMetadata
  atr : Decimal
  maxAffordableStopDistance : Decimal
  expectedPerformanceAdjustment : Option W.Adjustment
  minRiskRewardRatio : Decimal
  primaryTargetEffective : Bool

/-- The functions of other modules that a cycle only calls, with the options that they read. What holds
    of a cycle holds whatever they compute, and when they throw. -/
structure Functions (W : Wire) where
  m1Atr : W.Features → Except String Decimal
  m1TrendDirection : MarketSnapshot W → Except String ℤ
  checkSpread : MarketSnapshot W → Decimal → SpreadContext → Verdict
  marketContextReasons : MarketSnapshot W → MarketSnapshot W → RefreshPhase → List String
  modelCallBudgetMs : Option ℤ → Except String ℕ
  deriveCommissionAwareMinimumDistances : Model.ModelExecutionBounds → Decimal → SymbolMetadata →
    Except String (CommissionDistances W)
  buildModelPayload : MarketSnapshot W → AnalyticsResponse W → W.Performance →
    Model.ModelExecutionBounds → CommissionDistances W → Decimal → Decimal → Except String W.Payload
  performanceAdjustment : W.Performance → Except String (Option W.Adjustment)
  validateSemantics : W.Response → SemanticContext W → Except String Verdict
  applyFadeLimitExitPolicy : W.Response → SymbolMetadata → Quote → Decimal → Decimal →
    Except String (Transformed W)
  applyBreakoutScalpExitPolicy : W.Response → SymbolMetadata → Decimal → Decimal →
    Except String (Transformed W)
  applyCommissionAwareExitPolicy : W.Response → SymbolMetadata → Decimal → Decimal →
    Except String (Transformed W)

inductive Outcome where | placed | rejected | deferred
  deriving DecidableEq

/-- `CycleResult`. -/
structure CycleResult where
  outcome : Outcome
  reasonCodes : List String
  placement : Option OcoPlacementResult
  deriving DecidableEq

/-- How the body of a cycle is left early: by `return`, or by an exception. -/
inductive Exit where
  | returned (result : CycleResult)
  | threw (failure : Failure)

/-- The state machine, whether the trail has the start of the cycle, and `#running`. -/
structure Memory where
  machine : AnalysisState := .pending
  started : Bool := false
  running : Bool := false

abbrev Process (W : Wire) (α : Type) :=
  Program (Program.Record (Call W) (Answer (W := W)) Failure Memory) Exit α

end ScalpingBot.Coordinator
