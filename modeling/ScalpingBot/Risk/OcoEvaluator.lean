import ScalpingBot.Risk.Sizing

/-! The evaluator of apps/execution-service/src/oco-risk-evaluator.ts. The callbacks and the margin
    estimator may answer differently every time: they are functions of how often the evaluation has
    called them before, so that a change between two reads, across any await, is one more answer. -/

namespace ScalpingBot.Risk

/-- What the evaluator takes from the host: SHA-256 in hex and a fresh identifier. -/
structure Host where
  sha256 : String → String
  randomUUID : String

structure OcoRiskEvaluatorOptions where
  operatorEntryModes : Bool := false
  marginEstimator : ℕ → String → OrderSide → Decimal → Except String Decimal
  baseRiskPercent : Decimal
  maxRiskPercent : Decimal
  maxMarginUsagePercent : Decimal
  maxPositionNotional : Option Decimal
  strategyVersion : String
  executionOrderType : Option PendingExecutionOrderType := none
  adverseSlippagePoints : Option Decimal := none
  modelDefinedScalp : Bool := false
  entryRangePoints : Option ℕ := none
  timeInForce : Option TimeInForce := none
  strategyLabelPrefix : Option String := none
  riskMultiplier : Option (ℕ → Except String String) := none
  riskPercentCap : Option (ℕ → Except String Decimal) := none

structure OcoEvaluation where
  directionalCommand : Option PendingOrderCommand := none
  directionalRisk : Option PositionRiskDecision := none
  approved : Bool
  reasonCodes : List String
  risk : Option OcoRiskDecision
  commands : Option (PendingOrderCommand × PendingOrderCommand)
  equity : Option Decimal
  perLegRiskPercent : Option Decimal
  deriving DecidableEq

/-- The argument of `evaluate`. -/
structure OcoEvaluationInput where
  response : ModelResponse
  account : AccountState
  metadata : SymbolMetadata
  trend : Option ℤ := none
  selectedSide : Option OrderSide := none

def trendRetestVersion : String := "0.11.0-trend-retest.1-codex.1"

/-- `#reject`. -/
def OcoEvaluation.reject (reason : String) : OcoEvaluation :=
  { approved := false, reasonCodes := [reason], risk := none, commands := none, equity := none,
    perLegRiskPercent := none }

/-- `/^[A-Z][A-Z0-9_]{1,150}$/`. -/
def isReasonText (message : String) : Bool :=
  match message.toList with
  | [] => false
  | first :: rest => first.isUpper && 1 ≤ rest.length && rest.length ≤ 150 &&
    rest.all fun c => c.isUpper || c.isDigit || c = '_'

namespace OcoRiskEvaluatorOptions

variable (o : OcoRiskEvaluatorOptions)

/-- The multipliers that `#effectiveRisk` accepts. -/
def multiplierFactor : String → Except String Decimal
  | "1" => .ok 1
  | "0.5" => .ok (1 / 2)
  | "0.25" => .ok (1 / 4)
  | _ => .error "CAPITAL_RISK_UNAVAILABLE_OR_LOCKED"

/-- A callback's `n`-th answer, or the default where there is no callback. -/
def readCallback {α : Type} (default : α) (n : ℕ) : Option (ℕ → Except String α) → Except String α
  | none => .ok default
  | some callback => callback n

/-- `#effectiveRisk`, as the `n`-th read of the evaluation finds the callbacks. -/
def effectiveRisk (n : ℕ) : Except String Decimal := do
  let multiplier ← readCallback "1" n o.riskMultiplier
  let factor ← multiplierFactor multiplier
  let base ← decimal o.baseRiskPercent
  let cap ← decimal (← readCallback o.baseRiskPercent n o.riskPercentCap)
  let risk := min (base.times factor) cap
  require (0 < risk) "CAPITAL_RISK_BUDGET_EXHAUSTED"
  return risk

/-- The `n`-th and the next estimate, for both sides at once. -/
def estimateBoth (n : ℕ) (symbolId : String) (buyVolume sellVolume : Decimal) :
    Except String (Decimal × Decimal) := do
  let buy ← o.marginEstimator n symbolId .buy buyVolume
  let sell ← o.marginEstimator (n + 1) symbolId .sell sellVolume
  return (buy, sell)

/-- `estimatedMarginPerVolume` from a broker margin. -/
def marginPerVolume (margin volume : Decimal) : Decimal :=
  (margin.div volume).toDecimalPlacesUp 10

/-- The free margin after one full modelled setup loss, at a percent. -/
def freeMarginAfterLossReserve (availableMargin equity percent : Decimal) : Decimal :=
  max 0 (availableMargin.minus (((equity.times percent).div 100).toDecimalPlacesUp 10))

/-- Why the exact margins of both legs are refused. -/
def marginReasons (freeMargin currentMargin equity combinedMargin : Decimal) : List String :=
  (if freeMargin < combinedMargin then ["OCO_MARGIN_INSUFFICIENT"] else []) ++
  (if (equity.times o.maxMarginUsagePercent).div 100 < currentMargin.plus combinedMargin then
    ["OCO_MARGIN_USAGE_EXCEEDED"] else [])

/-- What the loop over the exact margins ends with. -/
structure Confirmation where
  risk : OcoRiskDecision
  marginConfirmed : Bool
  marginReasons : List String

/-- The loop of `evaluate` over the attempts that are left: at most three confirmations of exact
    volumes, with estimates that only increase. -/
def confirmMargin (setupRiskPercent freeMargin currentMargin equity : Decimal) :
    List ℕ → PositionRiskInput → PositionRiskInput → OcoRiskDecision → List String →
    Except String Confirmation
  | [], _, _, risk, reasons => .ok ⟨risk, false, reasons⟩
  | attempt :: rest, buyInput, sellInput, risk, reasons =>
    match risk.approved, risk.buy.normalizedVolume, risk.sell.normalizedVolume with
    | true, some buyVolume, some sellVolume => do
      let (buyAnswer, sellAnswer) ← o.estimateBoth (2 + 2 * attempt) buyInput.metadata.symbolId
        buyVolume sellVolume
      let buyMargin ← decimal buyAnswer
      let sellMargin ← decimal sellAnswer
      require (0 < buyMargin ∧ 0 < sellMargin) "RISK_MARGIN_INVALID"
      let combinedMargin := buyMargin.plus sellMargin
      let reasons := o.marginReasons freeMargin currentMargin equity combinedMargin
      if reasons.isEmpty then
        let risk := { risk with
          buy := { risk.buy with estimatedMargin := some buyMargin }
          sell := { risk.sell with estimatedMargin := some sellMargin } }
        return ⟨risk, true, reasons⟩
      else if attempt = 2 then
        return ⟨risk, false, reasons⟩
      else do
        let buyEstimate ← decimal buyInput.estimatedMarginPerVolume
        let sellEstimate ← decimal sellInput.estimatedMarginPerVolume
        let buyInput := { buyInput with
          estimatedMarginPerVolume := max buyEstimate (marginPerVolume buyMargin buyVolume) }
        let sellInput := { sellInput with
          estimatedMarginPerVolume := max sellEstimate (marginPerVolume sellMargin sellVolume) }
        let risk := sizeOcoPair { setupRiskPercent, buy := buyInput, sell := sellInput }
        confirmMargin setupRiskPercent freeMargin currentMargin equity rest buyInput sellInput
          risk reasons
    | _, _, _ => .ok ⟨risk, false, reasons⟩

/-- `make`, and the command of `#directional`, from the values in which they differ. -/
def command (host : Host) (response : ModelResponse) (side : OrderSide) (volume : Decimal)
    (suffix : List String) (type : PendingExecutionOrderType) (timeInForce : TimeInForce)
    (entryRangePoints : Option ℕ) : PendingOrderCommand :=
  let digest := host.sha256 (":".intercalate ([o.strategyVersion, response.analysisId,
    response.symbol, side.text, response.schemaVersion] ++ suffix))
  { executionOrderType := some type
    idempotencyKey := digest
    analysisId := response.analysisId
    orderGroupId := host.randomUUID
    clientOrderId := s!"cas-{side.lower}-{(digest.take 24).toString}"
    symbol := response.symbol
    side := side
    volume := volume
    entryPrice := (response.proposal side).entryPrice
    stopLoss := (response.proposal side).stopLoss
    takeProfit := (response.proposal side).takeProfit
    expiresAt := (response.proposal side).expiresAt
    timeInForce := some timeInForce
    strategyLabel := ((o.strategyLabelPrefix.getD "ctrader-ai-scalper" ++ ":" ++
      o.strategyVersion).take 100).toString
    entryRangePoints := entryRangePoints }

/-- `leg`, with what both legs share. -/
def legInput (input : OcoEvaluationInput) (freeMargin currentMargin baseRiskPercent : Decimal)
    (proposal : ModelOrderProposal) (estimatedMarginPerVolume : Decimal) : PositionRiskInput where
  equity := input.account.equity
  availableMargin := freeMargin
  baseRiskPercent := baseRiskPercent
  maxRiskPercent := o.maxRiskPercent
  currentMargin := currentMargin
  maxMarginUsagePercent := o.maxMarginUsagePercent
  maxPositionNotional := o.maxPositionNotional
  metadata := input.metadata
  adverseSlippagePoints := o.adverseSlippagePoints.getD 10
  executionOrderType := o.executionOrderType
  entryPrice := proposal.entryPrice
  stopLoss := proposal.stopLoss
  estimatedMarginPerVolume := estimatedMarginPerVolume

/-- The account's margin in use. -/
def currentMargin (equity available : Decimal) : Decimal := max 0 (equity.minus available)

/-- The sizing of both legs, for a percent and a free margin, with the broker's margins. -/
def confirmPair (input : OcoEvaluationInput) (freeMargin currentMargin equity baseRiskPercent
    buyMinimumMargin sellMinimumMargin : Decimal) : Except String Confirmation := do
  let minimumVolume ← decimal input.metadata.minVolume
  let buyMargin ← decimal buyMinimumMargin
  let sellMargin ← decimal sellMinimumMargin
  let leg := o.legInput input freeMargin currentMargin baseRiskPercent
  let buyInput := leg input.response.buyStop (marginPerVolume buyMargin minimumVolume)
  let sellInput := leg input.response.sellStop (marginPerVolume sellMargin minimumVolume)
  o.confirmMargin baseRiskPercent freeMargin currentMargin equity [0, 1, 2] buyInput sellInput
    (sizeOcoPair ⟨buyInput, sellInput, baseRiskPercent⟩) []

/-- The part of `evaluate` inside its `try`: both legs. The percent is read three times, for the loss
    reserve, for the sizing and for the result. -/
def evaluatePair (host : Host) (input : OcoEvaluationInput) : Except String OcoEvaluation := do
  let minimum := input.metadata.minVolume
  let margins ← o.estimateBoth 0 input.metadata.symbolId minimum minimum
  let equity ← decimal input.account.equity
  let available ← decimal input.account.availableMargin
  let reserved ← o.effectiveRisk 0
  let baseRiskPercent ← o.effectiveRisk 1
  let confirmed ← o.confirmPair input (freeMarginAfterLossReserve available equity reserved)
    (currentMargin equity available) equity baseRiskPercent margins.1 margins.2
  let risk := confirmed.risk
  match confirmed.marginConfirmed, risk.approved, risk.buy.normalizedVolume,
      risk.sell.normalizedVolume with
  | true, true, some buyVolume, some sellVolume => do
    let type := o.executionOrderType.getD .stopLimit
    let timeInForce := o.timeInForce.getD .gtd
    let make := fun side volume => o.command host input.response side volume [] type timeInForce
      none
    let reported ← o.effectiveRisk 2
    return {
      approved := true
      reasonCodes := []
      risk := some risk
      commands := some (make .buy buyVolume, make .sell sellVolume)
      equity := some input.account.equity
      perLegRiskPercent := some ((← decimal reported).div 2) }
  | _, _, _, _ => do
    let sized ← decimal baseRiskPercent
    return {
      approved := false
      reasonCodes := if risk.approved then confirmed.marginReasons else risk.reasonCodes
      risk := some risk
      commands := none
      equity := some input.account.equity
      perLegRiskPercent := some (sized.div 2) }

/-- What the sizing of one directional leg works with. -/
structure DirectionalSizing where
  percent : Decimal
  free : Decimal
  current : Decimal
  equity : Decimal

/-- The loop of `#directional` over the attempts that are left. -/
def directionalAttempts (host : Host) (input : OcoEvaluationInput) (side : OrderSide)
    (type : PendingExecutionOrderType) (z : DirectionalSizing) :
    List ℕ → Decimal → Except String OcoEvaluation
  | [], _ => .ok (.reject "DIRECTIONAL_MARGIN_INSUFFICIENT")
  | attempt :: rest, perVolume =>
    let proposal := input.response.proposal side
    let risk := sizePosition
      { equity := input.account.equity
        availableMargin := z.free
        baseRiskPercent := z.percent
        maxRiskPercent := o.maxRiskPercent
        entryPrice := proposal.entryPrice
        stopLoss := proposal.stopLoss
        estimatedMarginPerVolume := perVolume
        currentMargin := z.current
        maxMarginUsagePercent := o.maxMarginUsagePercent
        maxPositionNotional := o.maxPositionNotional
        metadata := input.metadata
        adverseSlippagePoints := o.adverseSlippagePoints.getD 10
        executionOrderType := some type }
    match risk.approved, risk.normalizedVolume with
    | true, some volume => do
      let exact ← decimal (← o.marginEstimator (1 + attempt) input.metadata.symbolId side volume)
      if exact ≤ 0 then
        return .reject "RISK_MARGIN_INVALID"
      else if exact ≤ z.free ∧
          z.current.plus exact ≤ (z.equity.times o.maxMarginUsagePercent).div 100 then
        return {
          approved := true
          reasonCodes := []
          risk := none
          commands := none
          equity := some input.account.equity
          perLegRiskPercent := some z.percent
          directionalRisk := some { risk with estimatedMargin := some exact }
          directionalCommand := some (o.command host input.response side volume ["SINGLE"] type
            (if o.modelDefinedScalp then .gtd else .gtc) o.entryRangePoints) }
      else
        directionalAttempts host input side type z rest
          (max perVolume (marginPerVolume exact volume))
    | _, _ => .ok (.reject (risk.reasonCodes.head?.getD "RISK_EVALUATION_FAILED"))

/-- The execution policies under which a single leg may be placed. -/
def directionalPolicy : Bool :=
  let scalpPolicy := !o.modelDefinedScalp ||
    ((o.executionOrderType = some .stopLimit ||
      (o.strategyVersion = trendRetestVersion && o.executionOrderType = some .limit)) &&
      o.timeInForce = some .gtd)
  let orderPolicy := (o.executionOrderType = some .stopLimit ||
      o.executionOrderType = some .limit) &&
    (o.timeInForce = some .gtc || (o.modelDefinedScalp && o.timeInForce = some .gtd))
  scalpPolicy && orderPolicy

/-- `#directional` inside its `try`; the percent is read for the leg, then for the loss reserve. -/
def directionalLeg (host : Host) (input : OcoEvaluationInput) (side : OrderSide) :
    Except String OcoEvaluation :=
  if !o.directionalPolicy then
    .ok (.reject "DIRECTIONAL_EXECUTION_POLICY_INVALID")
  else do
    let type := o.executionOrderType.getD .stopLimit
    let percent := (← decimal (← o.effectiveRisk 0)).div 2
    let available ← decimal input.account.availableMargin
    let equity ← decimal input.account.equity
    let free := freeMarginAfterLossReserve available equity (← o.effectiveRisk 1)
    let current := max 0 (equity.minus available)
    let minMargin ← decimal (← o.marginEstimator 0 input.metadata.symbolId side
      input.metadata.minVolume)
    o.directionalAttempts host input side type ⟨percent, free, current, equity⟩ [0, 1, 2]
      (marginPerVolume minMargin input.metadata.minVolume)

def evaluate (host : Host) (input : OcoEvaluationInput) : OcoEvaluation :=
  if !input.account.certain then
    .reject "RISK_ACCOUNT_UNCERTAIN"
  else if 0 < input.account.relevantPositionCount || 0 < input.account.relevantPendingOrderCount ||
      input.account.hasPartialFill || input.account.hasCancellationPending then
    .reject "RISK_EXISTING_EXPOSURE"
  else match input.selectedSide with
  | some side =>
    match o.directionalLeg host input side with
    | .ok evaluation => evaluation
    | .error _ => .reject "DIRECTIONAL_RISK_EVALUATION_FAILED"
  | none =>
    if !o.operatorEntryModes && o.executionOrderType = some .limit && input.trend.getD 0 = 0 then
      .reject "FADE_LIMIT_TREND_UNCLEAR"
    else match o.evaluatePair host input with
    | .ok evaluation => evaluation
    | .error reason => .reject (if isReasonText reason then reason else "RISK_EVALUATION_FAILED")

end OcoRiskEvaluatorOptions

end ScalpingBot.Risk
