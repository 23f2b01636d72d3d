import ScalpingBot.Library.Checked
import ScalpingBot.Market

/-! The plans of packages/scenario-engine/src/plan.ts and the entries that completed candles confirm
    (rules.ts). -/

namespace ScalpingBot.Scenario

/-! ### The policy -/

def planLifetimeMs : ℕ := 300000

def pendingLifetimeMs : ℕ := 60000

def maximumHoldingMs : ℕ := 600000

/-! ### Plans -/

/-- The bounds of a `TechnicalZone`. -/
structure TechnicalZone where
  lower : Decimal
  upper : Decimal
  deriving DecidableEq

structure ScenarioPlan where
  analysisId : String
  symbol : String
  capturedAt : Option ℕ
  validUntil : Option ℕ
  decisionZone : TechnicalZone
  reboundResistance : TechnicalZone
  recoveryAbove : Decimal
  recoveryTargets : Decimal × Decimal
  bearishBelow : Decimal
  extensionBelow : Decimal
  extensionTargets : Decimal × Decimal
  broaderResistance : List TechnicalZone
  deriving DecidableEq

/-- What a plan is validated against. -/
structure PlanContext where
  analysisId : String
  symbol : String
  capturedAt : Option ℕ
  availableAt : Option ℕ
  tickSize : Decimal

/-- `time`: an instant with an offset, not before 1970. -/
def time (value : Option ℕ) : Except String ℕ :=
  match value with
  | some n => .ok n
  | none => .error "SCENARIO_TIME_INVALID"

@[simp] theorem time_ok {value : Option ℕ} {n : ℕ} : time value = .ok n ↔ value = some n := by
  cases value <;> simp [time]

/-- `isTickAligned`. -/
def isTickAligned (value tickSize : Decimal) : Bool := 0 < tickSize ∧ (value / tickSize).den = 1

theorem isTickAligned_iff {value tickSize : Decimal} :
    isTickAligned value tickSize ↔ 0 < tickSize ∧ ∃ n : ℤ, value = n * tickSize := by
  simp only [isTickAligned, Bool.decide_and, Bool.and_eq_true, decide_eq_true_eq]
  constructor
  · rintro ⟨hpos, hden⟩
    have hsteps := Rat.coe_int_num_of_den_eq_one hden
    exact ⟨hpos, _, ((eq_div_iff hpos.ne').mp hsteps).symm⟩
  · rintro ⟨hpos, n, rfl⟩
    exact ⟨hpos, by rw [mul_div_cancel_right₀ _ hpos.ne', Rat.den_intCast]⟩

/-- `validatePlan`, with the check of the JSON schema as a parameter. -/
def validatePlan (schema : ScenarioPlan → Except String Unit) (p : ScenarioPlan)
    (context : PlanContext) : Except String ScenarioPlan := do
  schema p
  let capture ← time context.capturedAt
  let available ← time context.availableAt
  let captured ← time p.capturedAt
  let validUntil ← time p.validUntil
  require (p.analysisId = context.analysisId ∧ p.symbol = context.symbol ∧ captured = capture ∧
    capture ≤ available ∧ validUntil = capture + planLifetimeMs ∧ available < validUntil)
    "SCENARIO_IDENTITY_OR_VALIDITY_INVALID"
  let tick ← decimal context.tickSize
  let zones := p.decisionZone :: p.reboundResistance :: p.broaderResistance
  let prices := [p.recoveryAbove, p.bearishBelow, p.extensionBelow, p.recoveryTargets.1,
    p.recoveryTargets.2, p.extensionTargets.1, p.extensionTargets.2] ++
    zones.flatMap fun zone => [zone.lower, zone.upper]
  let _ ← prices.mapM fun price => decimal price
  require (0 < tick ∧ (∀ price ∈ prices, 0 < price ∧ isTickAligned price tick) ∧
    ∀ zone ∈ zones, zone.lower < zone.upper) "SCENARIO_PRICE_GEOMETRY_INVALID"
  require (p.bearishBelow = p.decisionZone.lower ∧
    p.decisionZone.upper ≤ p.reboundResistance.lower ∧
    p.recoveryAbove = p.reboundResistance.upper ∧ p.recoveryAbove < p.recoveryTargets.1 ∧
    p.recoveryTargets.1 < p.recoveryTargets.2 ∧ p.extensionBelow < p.bearishBelow ∧
    p.extensionTargets.1 < p.extensionBelow ∧ p.extensionTargets.2 < p.extensionTargets.1 ∧
    (∀ zone ∈ p.broaderResistance, p.recoveryAbove ≤ zone.lower) ∧
    ∀ pair ∈ p.broaderResistance.zip p.broaderResistance.tail, pair.1.upper ≤ pair.2.lower)
    "SCENARIO_LEVEL_ORDER_INVALID"
  return p

/-! ### Candles -/

structure Candle where
  startTime : Option ℕ
  endTime : Option ℕ
  opening : Decimal
  high : Decimal
  low : Decimal
  close : Decimal
  complete : Bool
  qualityFlags : List String
  deriving DecidableEq

/-- A candle that has been validated. -/
structure Bar where
  startTime : ℕ
  endTime : ℕ
  high : Decimal
  low : Decimal
  close : Decimal
  deriving DecidableEq

/-- `validateCandle`, of a minute. -/
def validateCandle (bar : Candle) (now : ℕ) : Except String Bar := do
  let start ← time bar.startTime
  let finish ← time bar.endTime
  let opening ← decimal bar.opening
  let high ← decimal bar.high
  let low ← decimal bar.low
  let close ← decimal bar.close
  require (bar.complete ∧ bar.qualityFlags = [] ∧ start % 60000 = 0 ∧ finish = start + 60000 ∧
    finish ≤ now ∧ 0 < low ∧ low ≤ opening ∧ low ≤ close ∧ opening ≤ high ∧ close ≤ high ∧
    low ≤ high) "SCENARIO_CANDLE_INVALID"
  return ⟨start, finish, high, low, close⟩

/-! ### Entries -/

inductive ScenarioName where | recoveryHold | failedReclaim | declineExtension
  deriving DecidableEq

structure ScenarioEntry where
  scenario : ScenarioName
  side : OrderSide
  entry : Decimal
  stop : Decimal
  target : Decimal
  invalidation : Decimal
  confirmedAt : ℕ
  deriving DecidableEq

/-- `confirmedEntry`: the first scenario that two consecutive candles confirm. The texts that it
    parses have been validated. -/
def confirmedEntry (plan : ScenarioPlan) (validUntil : ℕ) (previous latest : Bar)
    (availableAt : ℕ) (tick : Decimal) : Option ScenarioEntry :=
  if previous.startTime < availableAt ∨ latest.startTime ≠ previous.endTime ∨
      validUntil ≤ latest.endTime then none
  else if plan.recoveryAbove < previous.close ∧ plan.recoveryAbove < latest.close then
    some {
      scenario := .recoveryHold
      side := .buy
      entry := Decimal.plus latest.high tick
      stop := Decimal.minus (min (min previous.low latest.low) plan.recoveryAbove) tick
      target := plan.recoveryTargets.1
      invalidation := plan.recoveryAbove
      confirmedAt := latest.endTime }
  else if previous.close < plan.bearishBelow ∧ plan.bearishBelow ≤ latest.high ∧
      latest.close < plan.bearishBelow then
    some {
      scenario := .failedReclaim
      side := .sell
      entry := Decimal.minus latest.low tick
      stop := Decimal.plus (max latest.high plan.bearishBelow) tick
      target := plan.extensionBelow
      invalidation := plan.bearishBelow
      confirmedAt := latest.endTime }
  else if previous.close < plan.extensionBelow ∧ latest.close < plan.extensionBelow then
    some {
      scenario := .declineExtension
      side := .sell
      entry := Decimal.minus latest.low tick
      stop := Decimal.plus (max (max previous.high latest.high) plan.extensionBelow) tick
      target := plan.extensionTargets.1
      invalidation := plan.extensionBelow
      confirmedAt := latest.endTime }
  else none

/-- `invalidated`. -/
def invalidated (entry : ScenarioEntry) (close : Decimal) : Bool :=
  match entry.side with
  | .buy => close ≤ entry.invalidation
  | .sell => entry.invalidation ≤ close

end ScalpingBot.Scenario
