import ScalpingBot.Library.Checked
import ScalpingBot.Market

/-! The commission model of packages/risk-engine/src/commission.ts. -/

namespace ScalpingBot.Risk

def minimumCommissionInAccountCurrency (metadata : SymbolMetadata) : Except String Decimal := do
  let minimum ← decimal metadata.commission.minimum "COMMISSION_MINIMUM_INVALID"
  if minimum = 0 then
    return minimum
  else if metadata.commission.minimumType = .quoteCurrency ∨
      metadata.commission.minimumAsset = metadata.quoteAsset then
    let rate ← decimal metadata.quoteToAccountConversionRate
      "COMMISSION_CURRENCY_CONVERSION_INVALID"
    return minimum.times rate
  else if metadata.commission.minimumAsset = metadata.accountAsset then
    return minimum
  else
    throw "COMMISSION_MINIMUM_CURRENCY_UNSUPPORTED"

def oneWayCommission (metadata : SymbolMetadata) (price volume : Decimal) :
    Except String Decimal := do
  require (metadata.commission.type = .usdPerMillionUsd) "COMMISSION_TYPE_UNSUPPORTED"
  require (metadata.quoteAsset = "USD") "COMMISSION_USD_NOTIONAL_CONVERSION_UNAVAILABLE"
  let volumeScale ← decimal metadata.volumeScale "COMMISSION_VOLUME_SCALE_INVALID"
  let quoteToAccount ← decimal metadata.quoteToAccountConversionRate
    "COMMISSION_CURRENCY_CONVERSION_INVALID"
  let rate ← decimal metadata.commission.rate "COMMISSION_RATE_INVALID"
  require (0 < price ∧ 0 < volume ∧ 0 < volumeScale ∧ 0 < quoteToAccount ∧ 0 ≤ rate)
    "COMMISSION_INPUT_INVALID"
  let rateCommission := ((((price.times volume).times volumeScale).times rate).div 1000000).times
    quoteToAccount
  let minimum ← minimumCommissionInAccountCurrency metadata
  return max rateCommission minimum

structure StopCostInput where
  metadata : SymbolMetadata
  entryPrice : Decimal
  stopLoss : Decimal
  volume : Decimal
  adverseSlippagePoints : Decimal
  executionOrderType : Option PendingExecutionOrderType := none

/-- `stopCostReserve`: the costs at the highest bounded entry or stop price. -/
def stopCostReserve (input : StopCostInput) : Except String Decimal := do
  let tick ← decimal input.metadata.tickSize
  let points ← decimal input.adverseSlippagePoints
  require (points.isInteger ∧ 0 < points ∧ 0 < tick) "RISK_SLIPPAGE_RESERVE_INVALID"
  let adverseDistance := tick.times points
  let entry ← decimal input.entryPrice
  let stop ← decimal input.stopLoss
  -- a maker limit cannot fill adversely beyond its price
  let price := (max entry stop).plus
    (if input.executionOrderType = some .limit then 0 else adverseDistance)
  let volume ← decimal input.volume
  let tickValue ← decimal input.metadata.tickValue
  let adverseLoss := ((((|entry.minus stop| : Decimal).div tick).plus points).times
    tickValue).times volume
  let feeRate ← decimal input.metadata.commission.pnlConversionFeeRate
  let conversionReserve := (adverseLoss.times feeRate).div 100
  let commission ← oneWayCommission input.metadata price volume
  return ((commission.times 2).plus ((points.times tickValue).times volume)).plus conversionReserve

end ScalpingBot.Risk
