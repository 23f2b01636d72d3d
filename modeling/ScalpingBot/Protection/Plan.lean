import ScalpingBot.Gateway.Report
import ScalpingBot.Library.Checked

/-! The plan of the protection maintenance (apps/execution-service/src/position-protection.ts): what
    the protection of a position should be, from the distances of its order and the price at which
    it was filled, and whether what the broker holds needs a repair. -/

namespace ScalpingBot.Protection

open Gateway (BrokerPosition)

/-- `ProtectionPosition`: a row of the positions that are maintained. -/
structure ProtectionPosition where
  strategyVersion : String
  id : ℕ
  brokerPositionId : String
  side : OrderSide
  volume : Decimal
  entryPrice : Option Decimal
  orderEntry : Decimal
  orderStopLoss : Decimal
  orderTakeProfit : Decimal
  label : String
  repairAttempts : ℕ
  commandAt : Option ℕ
  closeRequestedAt : Option ℕ
  deriving DecidableEq

/-- `TREND_RETEST_VERSION`. -/
def trendRetestVersion : String := "0.11.0-trend-retest.1-codex.1"

/-- `positive`; a value that is no plain decimal is `invalid`. -/
def positive : Gateway.Field Decimal → Except String Decimal
  | .value a => if 0 < a then .ok a else .error "POSITION_PROTECTION_PRICE_INVALID"
  | _ => .error "POSITION_PROTECTION_PRICE_INVALID"

structure Plan where
  stopLoss : Option Decimal
  takeProfit : Option Decimal
  expectedStopLoss : Decimal
  expectedTakeProfit : Decimal
  volume : Decimal
  repair : Bool
  deriving DecidableEq

/-- `actual`: what the broker holds, where nothing and 0 stand for no protection. -/
def actual (tick : Decimal) : Gateway.Field Decimal → Except String (Option Decimal)
  | .absent => .ok none
  | .invalid => .error "POSITION_PROTECTION_PRICE_INVALID"
  | .value a => if a = 0 then .ok none else do
    let parsed ← positive (.value a)
    require ((parsed / tick).den = 1) "POSITION_PROTECTION_PRECISION_INVALID"
    return some parsed

/-- A price moved up or down to the tick grid. -/
def onTick (tick : Decimal) (up : Bool) (a : Decimal) : Decimal :=
  Decimal.times (if up then ⌈Decimal.div a tick⌉ else ⌊Decimal.div a tick⌋) tick

/-- The record is that of the position, open and unchanged. -/
def matchesPosition (position : ProtectionPosition) (raw : BrokerPosition) (symbolId : String)
    (volume price : Decimal) : Except String Unit := do
  let mismatch := "POSITION_PROTECTION_OWNERSHIP_OR_STATE_MISMATCH"
  let trade ← Gateway.tradeDataOf raw.tradeData
  let positionId ← raw.positionId.required "positionId"
  require (positionId = position.brokerPositionId) mismatch
  let tradeSymbol ← trade.symbolId.required "symbolId"
  require (tradeSymbol = symbolId) mismatch
  let label ← trade.label.required "label"
  require (label = position.label ∧ "ctrader-ai-scalper".toList.isPrefixOf label.toList) mismatch
  let side ← trade.tradeSide.required "tradeSide"
  require (side = (match position.side with | .buy => 1 | .sell => 2)) mismatch
  let status ← raw.positionStatus.required "positionStatus"
  require (status = 1 ∧ volume.isInteger ∧ volume = position.volume) mismatch
  require (position.entryPrice = some price) mismatch

/-- The distances of the order's stop loss and take profit from its entry. -/
def orderDistances (position : ProtectionPosition) : Except String (Decimal × Decimal) := do
  let entry ← positive (.value position.orderEntry)
  let stopLoss ← positive (.value position.orderStopLoss)
  let takeProfit ← positive (.value position.orderTakeProfit)
  let distances := match position.side with
    | .buy => (entry.minus stopLoss, takeProfit.minus entry)
    | .sell => (stopLoss.minus entry, entry.minus takeProfit)
  require (0 < distances.1 ∧ 0 < distances.2) "POSITION_PROTECTION_INTENT_INVALID"
  return distances

/-- `protectionPlan`: the approved distances from the actual price; what the broker holds is never
    widened. -/
def protectionPlan (position : ProtectionPosition) (raw : BrokerPosition)
    (symbolId : String) (tickSize : Decimal) : Except String Plan := do
  let trade ← Gateway.tradeDataOf raw.tradeData
  let volume ← positive (.value (← trade.volume.required "volume"))
  let price ← positive raw.price
  matchesPosition position raw symbolId volume price
  let tick ← positive (.value tickSize)
  let distances ← orderDistances position
  let stopLoss ← actual tick raw.stopLoss
  let takeProfit ← actual tick raw.takeProfit
  let structural : Bool := position.strategyVersion = trendRetestVersion
  require (structural → position.label = "ctrader-ai-scalper:" ++ trendRetestVersion)
    "POSITION_PROTECTION_STRATEGY_MISMATCH"
  let buy : Bool := position.side = .buy
  let roundedStopLoss := onTick tick buy
    (if structural then position.orderStopLoss
      else if buy then price.minus distances.1 else price.plus distances.1)
  let roundedTakeProfit := onTick tick (!buy)
    (if structural then position.orderTakeProfit
      else if buy then price.plus distances.2 else price.minus distances.2)
  let expectedStopLoss := match stopLoss with
    | none => roundedStopLoss
    | some held => if buy then max held roundedStopLoss else min held roundedStopLoss
  let expectedTakeProfit := match takeProfit with
    | none => roundedTakeProfit
    | some held => if buy then min held roundedTakeProfit else max held roundedTakeProfit
  let _ ← positive (.value expectedStopLoss)
  let _ ← positive (.value expectedTakeProfit)
  return {
    stopLoss := stopLoss
    takeProfit := takeProfit
    expectedStopLoss := expectedStopLoss
    expectedTakeProfit := expectedTakeProfit
    volume := volume
    repair := stopLoss ≠ some expectedStopLoss ∨ takeProfit ≠ some expectedTakeProfit }

variable {position : ProtectionPosition} {raw : BrokerPosition} {symbolId : String} {tick : Decimal}
  {plan : Plan}

/-- The broker holds no stop loss for the position. -/
def Unprotected (raw : BrokerPosition) : Prop := raw.stopLoss = .absent ∨ raw.stopLoss = .value 0

theorem actual_none {value : Gateway.Field Decimal} (h : actual tick value = .ok none) :
    value = .absent ∨ value = .value 0 := by
  cases value with
  | absent => exact Or.inl rfl
  | invalid => cases h
  | value a =>
    by_cases hzero : a = 0
    · exact Or.inr (by rw [hzero])
    · simp only [actual, hzero, if_false, bind_ok, pure_ok, reduceCtorEq, and_false,
        exists_false] at h

theorem positive_ok {a b : Decimal} : positive (.value a) = .ok b ↔ a = b ∧ 0 < a := by
  rw [positive]
  split <;> simp [*]

/-- What a plan says of the held protection is what the broker's record says. -/
theorem plan_held (h : protectionPlan position raw symbolId tick = .ok plan) :
    actual tick raw.stopLoss = .ok plan.stopLoss ∧
      actual tick raw.takeProfit = .ok plan.takeProfit := by
  simp only [protectionPlan, bind_ok, pure_ok] at h
  obtain ⟨trade, -, volumeText, -, volume, -, price, -, -, -, tick', htick, distances, -,
    stopLoss, hsl, takeProfit, htp, -, -, -, -, -, -, rfl⟩ := h
  obtain ⟨rfl, -⟩ := positive_ok.mp htick
  exact ⟨hsl, htp⟩

/-- Without a stop loss in the plan there is none at the broker. -/
theorem plan_unprotected (h : protectionPlan position raw symbolId tick = .ok plan)
    (hnone : plan.stopLoss = none) : Unprotected raw :=
  actual_none (hnone ▸ (plan_held h).1)

/-- A plan tightens what is held, or keeps it. -/
theorem plan_never_widens (h : protectionPlan position raw symbolId tick = .ok plan) :
    (∀ held, plan.stopLoss = some held →
      match position.side with
      | .buy => held ≤ plan.expectedStopLoss
      | .sell => plan.expectedStopLoss ≤ held) ∧
    (∀ held, plan.takeProfit = some held →
      match position.side with
      | .buy => plan.expectedTakeProfit ≤ held
      | .sell => held ≤ plan.expectedTakeProfit) := by
  simp only [protectionPlan, bind_ok, pure_ok] at h
  obtain ⟨trade, -, volumeText, -, volume, -, price, -, -, -, tick', htick, distances, -,
    stopLoss, hsl, takeProfit, htp, -, -, -, -, -, -, rfl⟩ := h
  constructor
  · rintro held rfl
    cases position.side with
    | buy => exact le_max_left ..
    | sell => exact min_le_left ..
  · rintro held rfl
    cases position.side with
    | buy => exact min_le_left ..
    | sell => exact le_max_left ..

end ScalpingBot.Protection
