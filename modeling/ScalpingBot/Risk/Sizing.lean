import ScalpingBot.Risk.Commission

/-! The sizing of packages/risk-engine/src/risk.ts: one leg (`sizePosition`) and the pair of legs that
    share one setup risk (`sizeOcoPair`). A check that fails ends the sizing with its reason. -/

namespace ScalpingBot.Risk

structure PositionRiskInput where
  equity : Decimal
  availableMargin : Decimal
  baseRiskPercent : Decimal
  maxRiskPercent : Decimal
  entryPrice : Decimal
  stopLoss : Decimal
  estimatedMarginPerVolume : Decimal
  currentMargin : Decimal
  maxMarginUsagePercent : Decimal
  maxPositionNotional : Option Decimal
  metadata : SymbolMetadata
  adverseSlippagePoints : Decimal := 10
  executionOrderType : Option PendingExecutionOrderType := none

structure PositionRiskDecision where
  approved : Bool
  reasonCodes : List String
  riskBudget : Option Decimal
  rawVolume : Option Decimal
  normalizedVolume : Option Decimal
  maximumLoss : Option Decimal
  estimatedMargin : Option Decimal
  deriving DecidableEq

/-- `reject` of risk.ts. -/
def rejectPosition (reasonCodes : List String) : PositionRiskDecision :=
  { approved := false, reasonCodes, riskBudget := none, rawVolume := none,
    normalizedVolume := none, maximumLoss := none, estimatedMargin := none }

/-- What `sizePosition` has read and checked before it looks at volumes. -/
structure PositionTerms where
  equity : Decimal
  availableMargin : Decimal
  baseRisk : Decimal
  entry : Decimal
  stop : Decimal
  tickSize : Decimal
  tickValue : Decimal
  minVolume : Decimal
  maxVolume : Decimal
  volumeStep : Decimal
  volumeScale : Decimal
  conversion : Decimal

namespace PositionTerms

variable (t : PositionTerms)

def stopDistance : Decimal := |t.entry.minus t.stop|

def riskBudget : Decimal := (t.equity.times t.baseRisk).div 100

def lossPerVolume : Decimal := (t.stopDistance.div t.tickSize).times t.tickValue

def rawVolume : Decimal := t.riskBudget.div t.lossPerVolume

/-- The volume on the broker's grid at or below a volume. -/
def aligned (volume : Decimal) : Decimal :=
  t.minVolume.plus ((((volume.minus t.minVolume).div t.volumeStep).floor).times t.volumeStep)

def maximumAligned : Decimal := t.aligned t.maxVolume

/-- The volume that many steps above the minimum. -/
def volumeAt (step : ℕ) : Decimal := t.minVolume.plus ((step : Decimal).times t.volumeStep)

/-- The last step of the grid at or below a volume. -/
def stepsBelow (volume : Decimal) : ℕ := ⌊(volume.minus t.minVolume).div t.volumeStep⌋₊

end PositionTerms

/-- The checks of `sizePosition` up to the loss per volume. -/
def positionTerms (input : PositionRiskInput) : Except String PositionTerms := do
  let equity ← decimal input.equity
  let availableMargin ← decimal input.availableMargin
  let baseRisk ← decimal input.baseRiskPercent
  let configuredMax ← decimal input.maxRiskPercent
  require (0 < equity) "RISK_EQUITY_INVALID"
  require (0 < baseRisk ∧ baseRisk ≤ configuredMax ∧ configuredMax ≤ 5) "RISK_PERCENT_INVALID"
  let entry ← decimal input.entryPrice
  let stop ← decimal input.stopLoss
  let tickSize ← decimal input.metadata.tickSize "RISK_TICK_SIZE_INVALID"
  let tickValue ← decimal input.metadata.tickValue "RISK_TICK_VALUE_INVALID"
  let minVolume ← decimal input.metadata.minVolume "RISK_VOLUME_METADATA_INVALID"
  let maxVolume ← decimal input.metadata.maxVolume "RISK_VOLUME_METADATA_INVALID"
  let volumeStep ← decimal input.metadata.volumeStep "RISK_VOLUME_METADATA_INVALID"
  let contractSize ← decimal input.metadata.contractSize "RISK_CONTRACT_SIZE_INVALID"
  let volumeScale ← decimal input.metadata.volumeScale "RISK_VOLUME_SCALE_INVALID"
  require (0 < tickSize ∧ 0 < tickValue ∧ 0 < minVolume ∧ 0 < maxVolume ∧ 0 < volumeStep ∧
    0 < contractSize ∧ 0 < volumeScale) "RISK_METADATA_INVALID"
  let conversion ← decimal input.metadata.quoteToAccountConversionRate
    "RISK_CURRENCY_CONVERSION_INVALID"
  require (0 < conversion ∧ minVolume ≤ maxVolume) "RISK_METADATA_INVALID"
  let t : PositionTerms := ⟨equity, availableMargin, baseRisk, entry, stop, tickSize, tickValue,
    minVolume, maxVolume, volumeStep, volumeScale, conversion⟩
  require (0 < t.stopDistance ∧ (t.stopDistance.div tickSize).isInteger)
    "RISK_STOP_DISTANCE_INVALID"
  require (0 < t.lossPerVolume) "RISK_TICK_VALUE_INVALID"
  return t

/-- The volume that the notional limit leaves. The quotient by a zero notional per volume is
    infinite, so that only `maximumAligned` binds; `none` is the NaN of `0 / 0`. -/
def notionalVolume (t : PositionTerms) (maxNotional : Decimal) :
    Except String (Option Decimal) :=
  let perVolume := (t.entry.times t.volumeScale).times t.conversion
  if perVolume = 0 then
    .ok (if maxNotional = 0 then none else some t.maximumAligned)
  else do
    let rawNotionalVolume := maxNotional.div perVolume
    require (t.minVolume ≤ rawNotionalVolume) "RISK_NOTIONAL_EXCEEDED"
    return some (min (t.aligned rawNotionalVolume) t.maximumAligned)

/-- `normalized` under the risk budget, the broker's maximum and the notional limit. -/
def normalizedByRisk (input : PositionRiskInput) (t : PositionTerms) :
    Except String (Option Decimal) := do
  require (t.minVolume ≤ t.rawVolume) "RISK_VOLUME_BELOW_MIN"
  let normalized := min (t.aligned t.rawVolume) t.maximumAligned
  match input.maxPositionNotional with
  | none => return some normalized
  | some limit =>
    let notional ← notionalVolume t (← decimal limit)
    return notional.map (min normalized)

/-- What `sizePosition` reads about margin. -/
structure MarginTerms where
  perVolume : Decimal
  current : Decimal
  percent : Decimal

def MarginTerms.budget (m : MarginTerms) (t : PositionTerms) : Decimal :=
  min t.availableMargin (((t.equity.times m.percent).div 100).minus m.current)

def marginTerms (input : PositionRiskInput) (t : PositionTerms) : Except String MarginTerms := do
  let perVolume ← decimal input.estimatedMarginPerVolume
  let current ← decimal input.currentMargin
  let percent ← decimal input.maxMarginUsagePercent
  require (0 < perVolume ∧ 0 ≤ current ∧ 0 ≤ t.availableMargin ∧ 0 < percent ∧ percent ≤ 100)
    "RISK_MARGIN_INVALID"
  let m : MarginTerms := ⟨perVolume, current, percent⟩
  require (t.minVolume.times perVolume ≤ m.budget t) "RISK_MARGIN_MIN_VOLUME_UNAFFORDABLE"
  return m

/-- `normalized` under the margin budget as well; comparisons with NaN are false. -/
def normalizedByMargin (t : PositionTerms) (m : MarginTerms) (normalized : Option Decimal) :
    Except String (Option Decimal) := do
  let affordable := normalized.map (min · (t.aligned ((m.budget t).div m.perVolume)))
  require (∀ volume ∈ affordable, volume ≤ t.rawVolume ∧ t.minVolume ≤ volume)
    "RISK_VOLUME_NORMALIZATION_INVALID"
  return affordable

/-- `totalLoss` of `sizePosition`. -/
def totalLoss (input : PositionRiskInput) (t : PositionTerms) (volume : Decimal) :
    Except String Decimal := do
  let reserve ← stopCostReserve {
    metadata := input.metadata
    entryPrice := input.entryPrice
    stopLoss := input.stopLoss
    volume := volume
    adverseSlippagePoints := input.adverseSlippagePoints
    executionOrderType := input.executionOrderType }
  return (volume.times t.lossPerVolume).plus reserve

/-- The binary search of `sizePosition` for the last step that fits. -/
def searchStep (fits : ℕ → Except String Bool) (low high : ℕ) : Except String ℕ :=
  if low < high then do
    let mid := (low + high + 1) / 2
    if ← fits mid then searchStep fits mid high else searchStep fits low (mid - 1)
  else
    return low
termination_by high - low

/-- The largest volume, up to `normalized`, whose loss with costs fits the budget. -/
def costedVolume (input : PositionRiskInput) (t : PositionTerms) (normalized : Option Decimal) :
    Except String Decimal := do
  let minimumLoss ← totalLoss input t t.minVolume
  require (minimumLoss ≤ t.riskBudget) "RISK_COSTS_VOLUME_BELOW_MIN"
  let fits := fun step => do return decide ((← totalLoss input t (t.volumeAt step)) ≤ t.riskBudget)
  -- with NaN above, the search does not start
  let step ← searchStep fits 0 ((normalized.map t.stepsBelow).getD 0)
  return t.volumeAt step

/-- The checks of `sizePosition` on the volume it has chosen. -/
def finalChecks (input : PositionRiskInput) (t : PositionTerms) (m : MarginTerms)
    (normalized estimatedMargin : Decimal) : Except String Unit := do
  require (0 < estimatedMargin ∧ 0 ≤ t.availableMargin) "RISK_MARGIN_INVALID"
  require (estimatedMargin ≤ t.availableMargin) "RISK_MARGIN_INSUFFICIENT"
  require (((estimatedMargin.plus m.current).div t.equity).times 100 ≤ m.percent)
    "RISK_MARGIN_USAGE_EXCEEDED"
  match input.maxPositionNotional with
  | none => return ()
  | some limit =>
    let maxNotional ← decimal limit
    require (((t.entry.times normalized).times t.volumeScale).times t.conversion ≤ maxNotional)
      "RISK_NOTIONAL_EXCEEDED"

/-- The body of `sizePosition`; its errors are the reasons of rejected decisions. -/
def sizeVolume (input : PositionRiskInput) : Except String PositionRiskDecision := do
  let t ← positionTerms input
  let byRisk ← normalizedByRisk input t
  let m ← marginTerms input t
  let byMargin ← normalizedByMargin t m byRisk
  let normalized ← costedVolume input t byMargin
  let maximumLoss ← totalLoss input t normalized
  require (maximumLoss ≤ t.riskBudget) "RISK_BUDGET_EXCEEDED"
  let estimatedMargin := normalized.times m.perVolume
  finalChecks input t m normalized estimatedMargin
  return {
    approved := true
    reasonCodes := []
    riskBudget := some t.riskBudget
    rawVolume := some t.rawVolume
    normalizedVolume := some normalized
    maximumLoss := some maximumLoss
    estimatedMargin := some estimatedMargin }

def sizePosition (input : PositionRiskInput) : PositionRiskDecision :=
  match sizeVolume input with
  | .ok decision => decision
  | .error reason => rejectPosition [reason]

structure OcoRiskInput where
  buy : PositionRiskInput
  sell : PositionRiskInput
  /-- total setup risk shared by both race-exposed legs -/
  setupRiskPercent : Decimal

structure OcoRiskDecision where
  approved : Bool
  reasonCodes : List String
  buy : PositionRiskDecision
  sell : PositionRiskDecision
  combinedMaximumLoss : Option Decimal
  deriving DecidableEq

/-- The margin that the usage limit leaves a leg. -/
def usableMargin (leg : PositionRiskInput) : Except String Decimal := do
  let equity ← decimal leg.equity
  let usage ← decimal leg.maxMarginUsagePercent
  let current ← decimal leg.currentMargin
  return ((equity.times usage).div 100).minus current

/-- `perLegRisk`, from the setup risk that both legs share. -/
def perLegRisk (input : OcoRiskInput) : Except String Decimal := do
  let setupRisk ← decimal input.setupRiskPercent
  require (0 < setupRisk ∧ setupRisk ≤ 5) "OCO_RISK_PERCENT_INVALID"
  let buyMax ← decimal input.buy.maxRiskPercent
  let sellMax ← decimal input.sell.maxRiskPercent
  require (setupRisk ≤ min buyMax sellMax) "OCO_RISK_PERCENT_INVALID"
  return (setupRisk.div 2).toDecimalPlacesDown 10

/-- `perLegMargin`: half of the shared margin for each leg, before sizing. -/
def perLegMargin (input : OcoRiskInput) : Except String Decimal := do
  let buyAvailable ← decimal input.buy.availableMargin
  let sellAvailable ← decimal input.sell.availableMargin
  let buyUsable ← usableMargin input.buy
  let sellUsable ← usableMargin input.sell
  let margin := ((min (min buyAvailable sellAvailable) (min buyUsable sellUsable)).div
    2).toDecimalPlacesDown 10
  require (0 < margin) "OCO_MARGIN_BUDGET_EXHAUSTED"
  return margin

/-- The limits of the pair that two sized legs exceed together. -/
def combinedReasons (input : OcoRiskInput) (combined buyMargin sellMargin : Decimal) :
    Except String (List String) := do
  let equity := min (← decimal input.buy.equity) (← decimal input.sell.equity)
  let setupBudget := (equity.times input.setupRiskPercent).div 100
  let combinedMargin := (← decimal buyMargin).plus (← decimal sellMargin)
  let available := min (← decimal input.buy.availableMargin) (← decimal input.sell.availableMargin)
  let current := max (← decimal input.buy.currentMargin) (← decimal input.sell.currentMargin)
  let usage := min (← decimal input.buy.maxMarginUsagePercent)
    (← decimal input.sell.maxMarginUsagePercent)
  return (if setupBudget < combined then ["OCO_COMBINED_RISK_EXCEEDED"] else []) ++
    (if available < combinedMargin then ["OCO_COMBINED_MARGIN_INSUFFICIENT"] else []) ++
    (if usage < ((combinedMargin.plus current).div equity).times 100 then
      ["OCO_COMBINED_MARGIN_USAGE_EXCEEDED"] else [])

/-- The body of `sizeOcoPair`. -/
def sizeLegs (input : OcoRiskInput) : Except String OcoRiskDecision := do
  let risk ← perLegRisk input
  let margin ← perLegMargin input
  let buy := sizePosition { input.buy with baseRiskPercent := risk, availableMargin := margin }
  let sell := sizePosition { input.sell with baseRiskPercent := risk, availableMargin := margin }
  let reasons := buy.reasonCodes.map ("BUY_" ++ ·) ++ sell.reasonCodes.map ("SELL_" ++ ·)
  match buy.approved, sell.approved, buy.maximumLoss, sell.maximumLoss, buy.estimatedMargin,
      sell.estimatedMargin with
  | true, true, some buyLoss, some sellLoss, some buyMargin, some sellMargin =>
    let combined := (← decimal buyLoss).plus (← decimal sellLoss)
    let reasons := reasons ++ (← combinedReasons input combined buyMargin sellMargin)
    return {
      approved := reasons.isEmpty
      reasonCodes := reasons
      buy := buy
      sell := sell
      combinedMaximumLoss := some combined }
  | _, _, _, _, _, _ =>
    return {
      approved := false
      reasonCodes := reasons
      buy := buy
      sell := sell
      combinedMaximumLoss := none }

def sizeOcoPair (input : OcoRiskInput) : OcoRiskDecision :=
  match sizeLegs input with
  | .ok decision => decision
  | .error reason =>
    let rejected := rejectPosition ["OCO_RISK_INPUT_INVALID"]
    { approved := false, reasonCodes := [reason], buy := rejected, sell := rejected,
      combinedMaximumLoss := none }

end ScalpingBot.Risk
