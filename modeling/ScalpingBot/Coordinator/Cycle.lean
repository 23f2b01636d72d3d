import ScalpingBot.Coordinator.Calls

/-! One cycle of `AnalysisCoordinator` (apps/execution-service/src/coordinator.ts): `runOnce`, in the
    order of the source, cut at its state transitions and before the order is sent. -/

namespace ScalpingBot.Coordinator

open Program (recollect remember)
open Risk (OcoEvaluation StopConstraint)

variable {W : Wire} {α : Type}

/-! ### Leaving a cycle -/

section

variable (env : Environment W)

def ask (c : Call W) : Process W (Answer c) := Program.perform env Exit.threw c

/-- What another module computes, or throws. -/
def compute : Except String α → Process W α
  | .ok a => pure a
  | .error message => throw (.threw (some message))

/-- `try … catch`: an early `return` is no exception. -/
def catching (m : Process W α) (handler : Failure → Process W α) : Process W α :=
  Program.recover m fun
    | .threw failure => handler failure
    | .returned result => throw (.returned result)

def AnalysisState.text : AnalysisState → String
  | .pending => "PENDING"
  | .collecting => "COLLECTING"
  | .featured => "FEATURED"
  | .modelPending => "MODEL_PENDING"
  | .validating => "VALIDATING"
  | .accepted => "ACCEPTED"
  | .rejected => "REJECTED"
  | .deferred => "DEFERRED"
  | .expired => "EXPIRED"

/-- A step that is only made under a condition. -/
def whenever (condition : Prop) [Decidable condition] (m : Process W Unit) : Process W Unit :=
  if condition then m else pure ()

/-- `AnalysisStateMachine.transition`. -/
def transition (target : AnalysisState) (reasons : List String) : Process W AnalysisTransition := do
  let memory ← recollect
  if target ∉ memory.machine.transitions then
    throw (.threw (some s!"ANALYSIS_TRANSITION_INVALID:{memory.machine.text}:{target.text}"))
  else if target = .rejected ∧ reasons = [] then
    throw (.threw (some "ANALYSIS_REJECTION_REASON_REQUIRED"))
  else do
    remember fun memory => { memory with machine := target }
    return ⟨memory.machine, target, reasonSet reasons⟩

/-- A transition and its record. -/
def record (target : AnalysisState) (reasons : List String) : Process W Unit := do
  let event ← transition target reasons
  ask env (.transition event)

/-- `#recordTransition`. -/
def recordTransition (target : AnalysisState) : Process W Unit := record env target []

/-- `reject`. -/
def reject (reasons : List String) : Process W CycleResult := do
  let memory ← recollect
  whenever (memory.started ∧ ¬ memory.machine.terminal) (record env .rejected (reasonSet reasons))
  return ⟨.rejected, reasonSet reasons, none⟩

/-- `return await reject(reasons)`. -/
def refuse (reasons : List String) : Process W α := do
  let result ← reject env reasons
  throw (.returned result)

/-- Go on only if something holds. -/
def demand (holds : Bool) (reasons : List String) : Process W Unit :=
  if holds then pure () else refuse env reasons

/-- What another module computes; what it throws is the reason of the rejection. -/
def computed : Except String α → Process W α
  | .ok a => pure a
  | .error message => refuse env [message]

/-- A verdict is recorded, and a cycle goes on only with an accepted one. -/
def validated (stage : ValidationStage) (verdict : Verdict) (scope : Option String) :
    Process W Unit := do
  ask env (.validation stage verdict.accepted verdict.reasonCodes scope)
  demand env verdict.accepted verdict.reasonCodes

/-- A rejected verdict is recorded, and the cycle is over. -/
def invalidated (reasons : List String) (scope : Option String) : Process W α := do
  ask env (.validation .risk false reasons scope)
  refuse env reasons

end

section

variable (o : CoordinatorOptions) (fn : Functions W) (env : Environment W)

/-! ### Steps that recur -/

/-- `this.#options.beforeAnalysis?.()`. -/
def beforeAnalysis : Process W Unit := whenever o.hasBeforeAnalysis (ask env .beforeAnalysis)

def sessionReasons (session : MarketSessionStatus) : List String :=
  [session.reasonCode.getD "MARKET_SESSION_UNAVAILABLE"]

/-- The session before the provider and before the placement. -/
def sessionOpen (scope : String) : Process W Unit :=
  whenever o.hasMarketSession do
    let session : MarketSessionStatus ← ask env .marketSession
    ask env (.validation .risk session.isOpen session.reasonCode.toList (some scope))
    demand env session.isOpen (sessionReasons session)

/-- The spread of a snapshot. -/
def spreadApproved (snapshot : MarketSnapshot W) (atr : Decimal) (scope : Option String) :
    Process W Unit := do
  let context : SpreadContext ←
    (if o.entryPairMode then pure ⟨none, false⟩ else ask env (.spreadContext snapshot))
  validated env .risk (fn.checkSpread snapshot atr context) scope

/-- A refreshed snapshot in the context of an earlier one, and its spread. -/
def refreshed (earlier : MarketSnapshot W) (atr : Decimal) (phase : RefreshPhase)
    (unavailable : Process W (MarketSnapshot W)) (contextScope spreadScope : Option String) :
    Process W (MarketSnapshot W) := do
  let snapshot : MarketSnapshot W ← catching (ask env .snapshot) fun _ => unavailable
  let reasons := fn.marketContextReasons earlier snapshot phase
  whenever (reasons ≠ []) (invalidated env reasons contextScope)
  ask env (.decisionMarket snapshot phase)
  spreadApproved o fn env snapshot atr spreadScope
  return snapshot

/-- The distance of approved constraints. -/
def affordable (constraints : StopConstraint) : Process W Decimal :=
  match constraints.approved, constraints.maxStopDistance with
  | true, some distance => pure distance
  | _, _ => refuse env constraints.reasonCodes

/-- The stop distance that the account allows on a snapshot. -/
def affordableStop (account : AccountState) (snapshot : MarketSnapshot W) (scope : String) :
    Process W Decimal := do
  let constraints : StopConstraint ←
    ask env (.proposalConstraints account snapshot.metadata snapshot.quote)
  ask env (.validation .risk constraints.approved constraints.reasonCodes (some scope))
  affordable env constraints

def configuredMinimumStopDistance (metadata : SymbolMetadata) (minimumPoints : Option Decimal) :
    Except String Decimal := do
  let tickSize ← decimal metadata.tickSize
  let minimum ← decimal metadata.minStopDistance
  match minimumPoints with
  | none => return max (max minimum tickSize) tickSize
  | some points => return max (max minimum tickSize) (tickSize.times (← decimal points))

/-- The largest stop distance of a proposal. -/
def maximumStopDistance (atr maxAffordable : Decimal) : Except String Decimal := do
  let affordable ← decimal maxAffordable
  if o.entryPairMode then return min affordable affordable
  else return min ((← decimal atr).times (← decimal o.maxStopDistanceAtr)) affordable

/-- `minimumProposalRiskRewardRatio`. -/
def minimumProposalRiskRewardRatio : Decimal :=
  if o.modelDefinedScalp ∨ (!o.hasCompressionScalp ∧ !o.hasEvidenceScalp) then o.minRiskRewardRatio
  else 1 / 10

/-- `fadeLimitActive`. -/
def fadeLimitActive : Bool := o.executionOrderType = some .limit

/-! ### Until the model is asked -/

/-- Up to the start of the trail. -/
def openCycle : Process W Unit := do
  let initialSafety : SafetyGateInput ← ask env .safety
  let circuitOpen : Bool ← ask env .circuitOpen
  let preflight := evaluateAnalysisEligibility { initialSafety with aiCircuitOpen := circuitOpen }
  demand env preflight.allowed preflight.reasonCodes
  whenever o.hasMarketSession do
    let session : MarketSessionStatus ← ask env .marketSession
    demand env session.isOpen (sessionReasons session)
  beforeAnalysis o env
  ask env .start
  remember fun memory => { memory with started := true }

/-- The request to the analytics, of the kind that is configured. -/
def analyzed (snapshot : MarketSnapshot W) : Process W (AnalyticsResponse W) :=
  if o.numericAnalytics then
    if !o.entryPairMode ∨ !o.hasAnalyzeNumeric then
      throw (.threw (some "NUMERIC_ANALYTICS_CONFIGURATION_INVALID"))
    else do
      let analytics : AnalyticsResponse W ← ask env (.analyze true snapshot)
      whenever (analytics.schemaVersion ≠ "2.0" ∨ analytics.artifactPolicy ≠ some "numeric-v1")
        (throw (.threw (some "NUMERIC_ANALYTICS_CONTRACT_INVALID")))
      return analytics
  else ask env (.analyze false snapshot)

/-- What a cycle has collected. -/
structure Collected (W : Wire) where
  snapshot : MarketSnapshot W
  analytics : AnalyticsResponse W
  atr : Decimal
  trendDirection : ℤ

/-- The state COLLECTING: market, analytics and spread. -/
def collect : Process W (Collected W) := do
  recordTransition env .collecting
  let snapshot : MarketSnapshot W ← ask env .snapshot
  ask env (.market snapshot)
  let analytics ← analyzed o env snapshot
  ask env (.analytics analytics)
  demand env analytics.acceptable analytics.rejectionReasons
  demand env (o.numericAnalytics || analytics.chart.isSome) ["ANALYTICS_CHART_MISSING"]
  let atr ← compute (fn.m1Atr analytics.features)
  let trendDirection ← (if o.entryPairMode then compute (fn.m1TrendDirection snapshot) else pure 0)
  spreadApproved o fn env snapshot atr none
  return ⟨snapshot, analytics, atr, trendDirection⟩

/-- What the model is asked with. -/
structure Constrained (W : Wire) where
  preModelSnapshot : MarketSnapshot W
  minimumStopDistance : Decimal
  maxAffordable : Decimal
  modelTimeoutMs : ℕ

/-- The rest of COLLECTING: the risk constraints, the stability of the market and the deadline. -/
def constrain (c : Collected W) : Process W (Constrained W) := do
  let minimumStopDistance ←
    compute (configuredMinimumStopDistance c.snapshot.metadata o.minStopDistancePoints)
  let account : AccountState ← ask env (.reconcile c.snapshot.metadata.symbolId)
  let maxAffordable ← affordableStop env account c.snapshot "MODEL_RISK_CONSTRAINTS"
  let maximum ← compute (maximumStopDistance o c.atr maxAffordable)
  whenever (maximum < minimumStopDistance)
    (invalidated env ["MODEL_PROPOSAL_CONSTRAINTS_UNSATISFIABLE"] none)
  let preModelSnapshot ←
    (if o.preModelStabilityCheck then
      refreshed o fn env c.snapshot c.atr .preModel (refuse env ["PRE_MODEL_MARKET_REFRESH_FAILED"])
        (some "PRE_MODEL_MARKET_CONTEXT") (some "PRE_MODEL_SPREAD_STABILITY")
    else pure c.snapshot)
  let modelTimeoutMs ←
    (if o.enforceModelDeadline then
      computed env (fn.modelCallBudgetMs preModelSnapshot.serverTime)
    else pure 30000)
  return ⟨preModelSnapshot, minimumStopDistance, maxAffordable, modelTimeoutMs⟩

/-- The argument of `deriveModelExecutionBounds`. -/
def boundsInput (c : Collected W) (k : Constrained W) : Model.BoundsInput where
  entryPairMode := o.entryPairMode
  currentBid := k.preModelSnapshot.quote.bid
  currentAsk := k.preModelSnapshot.quote.ask
  tickSize := k.preModelSnapshot.metadata.tickSize
  minimumStopDistance := k.minimumStopDistance
  atr := c.atr
  maxEntryDistanceAtr := o.maxEntryDistanceAtr
  entryLatencyBufferAtr := o.entryLatencyBufferAtr
  preferredMaxEntryDistanceAtr := o.preferredMaxEntryDistanceAtr
  maxStopDistanceAtr := o.maxStopDistanceAtr
  maxAffordableStopDistance := k.maxAffordable
  serverTime := k.preModelSnapshot.serverTime
  preferredExpirySeconds := o.preferredExpirySeconds

/-- The stop distance of accepted distances. -/
def requiredStop (distances : CommissionDistances W) : Process W Decimal :=
  match distances.accepted, distances.takeProfitDistance, distances.stopLossDistance with
  | true, some _, some stopLoss => pure stopLoss
  | _, _, _ => refuse env distances.reasonCodes

/-- The bounds of the model with the distances that the fees require. -/
def feeBuffered (bounds : Model.ModelExecutionBounds) (k : Constrained W) :
    Process W (Model.ModelExecutionBounds × CommissionDistances W) := do
  let distances ← compute (fn.deriveCommissionAwareMinimumDistances bounds k.minimumStopDistance
    k.preModelSnapshot.metadata)
  ask env (.validation .risk distances.accepted distances.reasonCodes
    (some "MODEL_FEE_BUFFER_CONSTRAINTS"))
  let stopLoss ← requiredStop env distances
  let minimum ← compute do return max (← decimal bounds.minimumStopDistance) (← decimal stopLoss)
  let maximum ← compute (decimal bounds.maximumStopDistance)
  demand env (minimum ≤ maximum) ["MODEL_FEE_BUFFER_STOP_RANGE_UNSATISFIABLE"]
  return ({ bounds with minimumStopDistance := minimum }, distances)

/-- A cycle that has to wait is over. -/
def deferred : Option String → Process W Unit
  | none => pure ()
  | some reason => do
    record env .deferred [reason]
    throw (.returned ⟨.deferred, [reason], none⟩)

/-- `prepare`, which may put the cycle off. -/
def prepared (snapshot : MarketSnapshot W) (chart : Option W.Chart) (payload : W.Payload) :
    Process W Unit :=
  whenever o.hasPrepare do
    let waiting : Option String ← ask env (.prepare snapshot chart payload)
    deferred env waiting

/-- What the model is asked, and what the answer is checked with later. -/
structure Featured (W : Wire) where
  performance : W.Performance
  payload : W.Payload

/-- The state FEATURED: the payload of the model, and everything that may stop its call. -/
def feature (c : Collected W) (k : Constrained W) : Process W (Featured W) := do
  recordTransition env .featured
  let performance : W.Performance ← ask env (.performance c.analytics)
  let bounds ← computed env (Model.deriveModelExecutionBounds (boundsInput o c k))
  let buffered ← feeBuffered fn env bounds k
  let payload ← compute (fn.buildModelPayload k.preModelSnapshot c.analytics performance buffered.1
    buffered.2 k.maxAffordable (minimumProposalRiskRewardRatio o))
  beforeAnalysis o env
  sessionOpen o env "PRE_PROVIDER_SESSION"
  whenever o.hasCompressionPreflight do
    let scanned : Verdict ← ask env (.compressionPreflight k.preModelSnapshot c.atr)
    validated env .semantic scanned (some "COMPRESSION_PRE_PROVIDER")
  prepared o env k.preModelSnapshot c.analytics.chart payload
  return ⟨performance, payload⟩

/-! ### The model and its answer -/

/-- `/^[A-Z0-9_:]{1,160}$/`. -/
def isFailureReason (message : String) : Bool :=
  1 ≤ message.length && message.length ≤ 160 &&
    message.toList.all fun c => c.isUpper || c.isDigit || c = '_' || c = ':'

def modelFailureReason : Failure → String
  | some message => if isFailureReason message then message else "AI_ANALYSIS_FAILED"
  | none => "AI_ANALYSIS_FAILED"

/-- The state MODEL_PENDING. -/
def askModel (c : Collected W) (k : Constrained W) (f : Featured W) :
    Process W (ModelAnswer W) := do
  recordTransition env .modelPending
  let model : ModelAnswer W ← catching
    (ask env (.analyzeModel f.payload c.analytics.chart k.modelTimeoutMs)) fun failure => do
      whenever o.hasModelFailure (ask env (.modelFailure (modelFailureReason failure)))
      throw (.threw failure)
  demand env (model.promptVersion = o.promptVersion) ["MODEL_PROMPT_VERSION_MISMATCH"]
  ask env (.model f.payload model)
  return model

/-- `retireUnusableEntries`. -/
def retireUnusableEntries (model : ModelAnswer W) (reasons : List String)
    (current : MarketSnapshot W) (phase : RefreshPhase) : Process W Unit :=
  match model.contextPlanId with
  | some contextPlanId =>
    whenever (reasons ≠ [] ∧ (∀ r ∈ reasons, r = "BUY_ENTRY_TOO_CLOSE" ∨ r = "SELL_ENTRY_TOO_CLOSE") ∧
        o.hasRetireEntries) do
      let _ ← ask env (.retireEntries contextPlanId current phase)
      pure ()
  | none => pure ()

/-- The check of the model's own proposal, which an execution by limit orders leaves out. -/
def proposalValid (model : ModelAnswer W) (context : SemanticContext W)
    (current : MarketSnapshot W) (phase : RefreshPhase) (scope : String) : Process W Unit :=
  whenever (fadeLimitActive o = false) do
    let semantic ← compute (fn.validateSemantics model.response
      { context with minRiskRewardRatio := minimumProposalRiskRewardRatio o })
    ask env (.validation .semantic semantic.accepted semantic.reasonCodes (some scope))
    whenever (semantic.accepted = false) do
      retireUnusableEntries o env model semantic.reasonCodes current phase
      refuse env semantic.reasonCodes

/-- The context of the check of the proposal that goes to the broker. -/
def effectiveContext (context : SemanticContext W) : SemanticContext W :=
  { context with minRiskRewardRatio := o.minRiskRewardRatio, primaryTargetEffective := true }

/-- The exit policy of the configuration. -/
def transform (model : ModelAnswer W) (snapshot : MarketSnapshot W)
    (atr minimumStopDistance maximum : Decimal) : Process W (Transformed W) :=
  if o.hasEvidenceScalp then
    ask env (.evidenceScalp snapshot model.response atr maximum model.entrySide)
  else if o.hasCompressionScalp then
    ask env (.compressionScalp snapshot model.response atr maximum)
  else if fadeLimitActive o then
    compute (fn.applyFadeLimitExitPolicy model.response snapshot.metadata snapshot.quote atr maximum)
  else if o.breakoutScalp then
    compute (fn.applyBreakoutScalpExitPolicy model.response snapshot.metadata atr maximum)
  else
    compute (fn.applyCommissionAwareExitPolicy model.response snapshot.metadata minimumStopDistance
      maximum)

/-- The response of an accepted transformation. -/
def transformedResponse (transformed : Transformed W) : Process W W.Response :=
  match transformed.accepted, transformed.response with
  | true, some response => pure response
  | _, _ => refuse env transformed.reasonCodes

/-- What has been decided on. -/
structure Decided (W : Wire) where
  snapshot : MarketSnapshot W
  account : AccountState
  context : SemanticContext W
  response : W.Response

/-- The state VALIDATING, up to the proposal that goes to the broker. -/
def validating (c : Collected W) (k : Constrained W) (f : Featured W) (model : ModelAnswer W) :
    Process W (Decided W) := do
  recordTransition env .validating
  let snapshot ← refreshed o fn env c.snapshot c.atr .postModel
    (refuse env ["DECISION_MARKET_REFRESH_FAILED"]) none none
  let account : AccountState ← ask env (.reconcile snapshot.metadata.symbolId)
  let maxAffordable ← affordableStop env account snapshot "POST_MODEL_RISK_CONSTRAINTS"
  let now : ℕ ← ask env .now
  demand env (!o.directionalEntryOnly || model.entrySide.isSome) ["DIRECTIONAL_ENTRY_REQUIRED"]
  let adjustment ← compute (fn.performanceAdjustment f.performance)
  let context : SemanticContext W :=
    { selectedSide := model.entrySide
      now := now
      expiryReferenceTime := k.preModelSnapshot.serverTime
      quote := snapshot.quote
      metadata := snapshot.metadata
      atr := c.atr
      maxAffordableStopDistance := maxAffordable
      expectedPerformanceAdjustment := adjustment
      minRiskRewardRatio := o.minRiskRewardRatio
      primaryTargetEffective := false }
  proposalValid o fn env model context snapshot .postModel "AI_PROPOSAL"
  let maximum ← compute (maximumStopDistance o c.atr maxAffordable)
  let transformed ← transform o fn env model snapshot c.atr k.minimumStopDistance maximum
  ask env (.validation .semantic transformed.accepted transformed.reasonCodes
    (some "TAKE_PROFIT_TRANSFORM"))
  let response ← transformedResponse env transformed
  let effective ←
    (if !fadeLimitActive o ∨ o.validateLimitSemantics then
      compute (fn.validateSemantics response (effectiveContext o context))
    else pure ⟨true, []⟩)
  validated env .semantic effective (some "EFFECTIVE_BROKER_PROPOSAL")
  return ⟨snapshot, account, context, response⟩

/-! ### The order -/

/-- The commands that an evaluation carries. -/
def executableCommands (risk : OcoEvaluation) : Option (List PendingOrderCommand) :=
  match risk.directionalCommand with
  | some command => some [command]
  | none => risk.commands.map fun commands => [commands.1, commands.2]

/-- The commands of an approved evaluation. -/
def approvedCommands (risk : OcoEvaluation) : Process W (List PendingOrderCommand) :=
  match risk.approved, executableCommands risk with
  | true, some commands => pure commands
  | _, _ => refuse env risk.reasonCodes

/-- The fees of the sized orders. -/
def commissionCoverage (commands : List PendingOrderCommand) (metadata : SymbolMetadata) :
    Process W Verdict :=
  if o.hasCommandFeeCheck then ask env (.commandFeeCheck commands metadata)
  else
    let buffer := Risk.validateCommandFeeBuffer commands metadata o.minimumExpectedNetToFeesRatio
    pure ⟨buffer.approved, buffer.reasonCodes⟩

/-- The sizing of the proposal, and the fees of the orders that come out of it. -/
def size (c : Collected W) (model : ModelAnswer W) (d : Decided W) :
    Process W (OcoEvaluation × List PendingOrderCommand) := do
  let risk : OcoEvaluation ← ask env (.evaluate d.response d.account d.snapshot.metadata
    d.snapshot.quote c.trendDirection model.entrySide)
  ask env (.validation .risk risk.approved risk.reasonCodes none)
  let commands ← approvedCommands env risk
  demand env (model.entrySide.all fun side => commands.map PendingOrderCommand.side = [side])
    ["DIRECTIONAL_SIDE_MISMATCH"]
  let coverage ← commissionCoverage o env commands d.snapshot.metadata
  validated env .risk coverage (some "ACTUAL_VOLUME_FEE_BUFFER")
  return (risk, commands)

/-- What an account must not change between the sizing and the placement. -/
structure AccountFingerprint where
  certain : Bool
  equity : Decimal
  balance : Decimal
  availableMargin : Decimal
  relevantPositionCount : ℕ
  relevantPendingOrderCount : ℕ
  hasPartialFill : Bool
  hasCancellationPending : Bool
  reasonCodes : List String
  deriving DecidableEq

def accountExecutionFingerprint (account : AccountState) : AccountFingerprint where
  certain := account.certain
  equity := account.equity
  balance := account.balance
  availableMargin := account.availableMargin
  relevantPositionCount := account.relevantPositionCount
  relevantPendingOrderCount := account.relevantPendingOrderCount
  hasPartialFill := account.hasPartialFill
  hasCancellationPending := account.hasCancellationPending
  reasonCodes := account.reasonCodes.mergeSort (· ≤ ·)

/-- What the last gate looks at. -/
structure Confirmed (W : Wire) where
  safety : SafetyGateInput
  account : AccountState
  snapshot : MarketSnapshot W

/-- Everything once more, before the order is sent. -/
def confirm (c : Collected W) (model : ModelAnswer W) (d : Decided W)
    (commands : List PendingOrderCommand) : Process W (Confirmed W) := do
  let currentSafety : SafetyGateInput ← ask env .safety
  let account : AccountState ← ask env (.reconcile d.snapshot.metadata.symbolId)
  let maxAffordable ← affordableStop env account d.snapshot "PRE_PLACEMENT_RISK_CONSTRAINTS"
  whenever (accountExecutionFingerprint d.account ≠ accountExecutionFingerprint account)
    (invalidated env ["PLACEMENT_ACCOUNT_STATE_CHANGED"]
      (some "PRE_PLACEMENT_ACCOUNT_RECONCILIATION"))
  let snapshot ← refreshed o fn env d.snapshot c.atr .prePlacement
    (invalidated env ["PLACEMENT_MARKET_REFRESH_FAILED"] (some "PRE_PLACEMENT_MARKET_REFRESH"))
    (some "PRE_PLACEMENT_MARKET_CONTEXT") (some "PRE_PLACEMENT_SPREAD")
  let now : ℕ ← ask env .now
  let context : SemanticContext W :=
    { d.context with
      now := now
      quote := snapshot.quote
      metadata := snapshot.metadata
      maxAffordableStopDistance := maxAffordable }
  proposalValid o fn env model context snapshot .prePlacement "PRE_PLACEMENT_AI_PROPOSAL"
  whenever o.hasCommandFeeCheck do
    let fees : Verdict ← ask env (.commandFeeCheck commands snapshot.metadata)
    validated env .risk fees (some "PRE_PLACEMENT_ACTUAL_VOLUME_FEES")
  whenever (!fadeLimitActive o ∨ o.validateLimitSemantics) do
    let effective ← compute (fn.validateSemantics d.response (effectiveContext o context))
    validated env .semantic effective (some "PRE_PLACEMENT_EFFECTIVE_PROPOSAL")
  return ⟨currentSafety, account, snapshot⟩

/-- The age of a source time is known, not negative and not above a limit. -/
def fresh (now : ℕ) (sourceTime : Option ℕ) (maximumAge : ℤ) : Bool :=
  sourceTime.any fun time => 0 ≤ (now : ℤ) - time ∧ (now : ℤ) - time ≤ maximumAge

/-- The argument of `evaluatePlacementEligibility`. -/
def placementInput (safety : SafetyGateInput) (account : AccountState)
    (controls : PlacementControls) (circuitOpen quoteFresh bookFresh : Bool) : SafetyGateInput :=
  { safety with
    aiCircuitOpen := circuitOpen
    filesystemControlsCertain :=
      safety.filesystemControlsCertain && controls.filesystemControlsCertain
    filesystemEmergencyStop := safety.filesystemEmergencyStop || controls.filesystemEmergencyStop
    liveEnablementFileValid := safety.liveEnablementFileValid && controls.liveEnablementFileValid
    runtimeControlsCertain := safety.runtimeControlsCertain && controls.runtimeControlsCertain
    databaseEmergencyStop := safety.databaseEmergencyStop || controls.databaseEmergencyStop
    dashboardAcknowledged := safety.dashboardAcknowledged && controls.dashboardAcknowledged
    pauseNewAnalyses := safety.pauseNewAnalyses || controls.pauseNewAnalyses
    relevantPositionCount := max safety.relevantPositionCount account.relevantPositionCount
    relevantPendingOrderCount :=
      max safety.relevantPendingOrderCount account.relevantPendingOrderCount
    partialFillPresent := safety.partialFillPresent || account.hasPartialFill
    cancellationPending := safety.cancellationPending || account.hasCancellationPending
    previousAnalysisExpired := true
    accountReconciled := safety.accountReconciled && account.certain
    reconciliationCertain := safety.reconciliationCertain && account.certain
    marketDataFresh := quoteFresh
    orderBookFresh := bookFresh
    candlesSynchronized := true
    symbolMetadataValid := true
    aiResponseValid := true
    deterministicRiskApproved := true
    spreadSafe := true }

/-- The capital rule may have lowered the percent since the orders were sized. -/
def capitalUnchanged (risk : OcoEvaluation) : Process W Unit :=
  match o.hasCurrentSetupRiskPercent, risk.perLegRiskPercent with
  | true, some perLeg => do
    let current : Decimal ← ask env .currentSetupRiskPercent
    let setup ← compute do return (← decimal perLeg).times 2
    let limit ← compute (decimal current)
    demand env (setup ≤ limit) ["CAPITAL_RISK_CHANGED_BEFORE_PLACEMENT"]
  | _, _ => pure ()

/-- The last gate: the controls are read again, and then the session. -/
def authorize (risk : OcoEvaluation) (confirmed : Confirmed W) : Process W Unit := do
  let finalControls : PlacementControls ← ask env .placementControls
  capitalUnchanged o env risk
  let quoteNow : ℕ ← ask env .now
  let bookNow : ℕ ← ask env .now
  let circuitOpen : Bool ← ask env .circuitOpen
  let placementGate := evaluatePlacementEligibility (placementInput confirmed.safety
    confirmed.account finalControls circuitOpen
    (fresh quoteNow confirmed.snapshot.quote.sourceTime o.maxQuoteAgeMs)
    (fresh bookNow confirmed.snapshot.orderBook.sourceTime o.maxOrderBookAgeMs))
  validated env (if o.mode = .live then .liveGate else .risk)
    ⟨placementGate.allowed, placementGate.reasonCodes⟩ none
  beforeAnalysis o env
  sessionOpen o env "PRE_PLACEMENT_SESSION"
  demand env (risk.directionalCommand.isNone || o.hasPlaceDirectional)
    ["DIRECTIONAL_GATEWAY_UNAVAILABLE"]

/-- The gateway is called once, with one order or with a pair. -/
def place (risk : OcoEvaluation) : Process W OcoPlacementResult :=
  match risk.directionalCommand, risk.commands with
  | some command, _ => ask env (.placeDirectional command)
  | none, some commands => ask env (.placeOco commands)
  | none, none => throw (.threw none)

/-- The rejections of a closed session among the orders. -/
def sessionRejections (placement : OcoPlacementResult) : List String :=
  placement.orders.flatMap fun order =>
    if order.state = .rejected ∧ order.reasonCode.getD "" ∈
        ["MARKET_SESSION_CLOSED", "MARKET_SESSION_UNAVAILABLE"] then
      order.reasonCode.toList
    else []

/-- The intent is recorded, and the orders are sent. -/
def dispatch (risk : OcoEvaluation) : Process W CycleResult := do
  ask env (.intent risk)
  let placement ← place env risk
  ask env (.placement placement)
  whenever o.hasFlushExecutionEvents (ask env .flushExecutionEvents)
  whenever (sessionRejections placement ≠ []) (refuse env (sessionRejections placement))
  recordTransition env .accepted
  return ⟨.placed, [], some placement⟩

/-! ### The cycle -/

/-- The body of `runOnce`. -/
def cycle : Process W CycleResult := do
  openCycle o env
  let collected ← collect o fn env
  let constrained ← constrain o fn env collected
  let featured ← feature o fn env collected constrained
  let model ← askModel o env collected constrained featured
  let decided ← validating o fn env collected constrained featured model
  let sized ← size o env collected model decided
  let confirmed ← confirm o fn env collected model decided sized.2
  authorize o env sized.1 confirmed
  dispatch o env sized.1

/-- One part of a stable reason after a colon. -/
def isReasonPart (part : List Char) : Bool :=
  !part.isEmpty && part.all fun c => c.isUpper || c.isDigit || c = '_' || c = '.' || c = '-'

/-- `/^[A-Z][A-Z0-9_]*(?::[A-Z0-9_.-]+)*$/`. -/
def isStableReason (message : String) : Bool :=
  match message.toList.splitOn ':' with
  | (first :: head) :: parts => first.isUpper &&
    (head.all fun c => c.isUpper || c.isDigit || c = '_') && parts.all isReasonPart
  | _ => false

def stableFailureReason (failure : Failure) (fallback : String) : String :=
  match failure with
  | none => fallback
  | some message =>
    if ["project size limit", "disk full", "No space left on device"].any
        fun part => part.toList <:+: message.toList then
      "DATABASE_STORAGE_LIMIT_EXCEEDED"
    else if message.length ≤ 200 ∧ isStableReason message then message
    else fallback

/-- The `catch` of `runOnce`. -/
def handle : Exit → Process W CycleResult
  | .returned result => pure result
  | .threw failure => reject env [stableFailureReason failure "ANALYSIS_CYCLE_FAILED"]

/-- `this.#running = false`. -/
def release : Process W Unit := remember fun memory => { memory with running := false }

/-- `runOnce`. -/
def runOnce : Process W CycleResult := do
  let memory ← recollect
  if memory.running then throw (.threw (some "ANALYSIS_CYCLE_ALREADY_RUNNING"))
  else do
    remember fun _ => { machine := .pending, started := false, running := true }
    let result ← Program.recover (Program.recover (cycle o fn env) (handle env)) fun exit => do
      release
      throw exit
    release
    return result

end

end ScalpingBot.Coordinator
