import ScalpingBot.Library.Bisection
import ScalpingBot.Risk.Coverage

/-! The payoff of a scalp in packages/strategy-candidates/src/directional-scalp.ts: what a target
    leaves and what a stop loses at most. The rounding of the arithmetic is a parameter,
    `Significant.truncate Decimal.precision` for the decimals of the code and `id` for exact
    arithmetic. -/

namespace ScalpingBot.Candidates

open Risk (exactCommission CommissionChecked minimumCommission_nonneg)

/-! ### The policy -/

/-- `SCALP_LIMITS`, `COST_BALANCED_SCALP_LIMITS` and `DEMO_TRIAL_SCALP_LIMITS`. -/
structure ScalpLimits where
  maximumTargetDistance : Decimal
  maximumStopDistance : Decimal
  minimumRiskReward : Decimal

def scalpLimits : ScalpLimits := ⟨4 / 10, 7, 571428571 / 10 ^ 10⟩

def costBalancedScalpLimits : ScalpLimits :=
  { scalpLimits with maximumTargetDistance := 7, minimumRiskReward := 1 }

def demoTrialScalpLimits : ScalpLimits := { scalpLimits with maximumTargetDistance := 1 }

/-- `COST_BALANCED_SCALP_LIMITS.minimumNetRewardRisk`, `.exitReservePoints` and
    `.entryRangePoints`. -/
def minimumNetRewardRisk : Decimal := 1

def exitReservePoints : Decimal := 65

def entryRangePoints : Decimal := 30

/-- `QUICK_OCO`, as far as costs are concerned. -/
structure QuickOcoPolicy where
  netTargetPips : Decimal
  earlyNetPrice : Decimal
  entryReservePoints : Decimal
  exitReservePoints : Decimal

def quickOco : QuickOcoPolicy := ⟨8 / 100, 5 / 100, 0, 5⟩

/-! ### The code -/

section

variable (round : ℚ → ℚ)

/-- `minimumCommissionInAccountCurrency`. -/
def minimumCommissionInAccountCurrency (metadata : SymbolMetadata) : Except String Decimal := do
  let minimum ← decimal metadata.commission.minimum "COMMISSION_MINIMUM_INVALID"
  if minimum = 0 then
    return minimum
  else if metadata.commission.minimumType = .quoteCurrency ∨
      metadata.commission.minimumAsset = metadata.quoteAsset then
    let rate ← decimal metadata.quoteToAccountConversionRate
      "COMMISSION_CURRENCY_CONVERSION_INVALID"
    return round (minimum * rate)
  else if metadata.commission.minimumAsset = metadata.accountAsset then
    return minimum
  else
    throw "COMMISSION_MINIMUM_CURRENCY_UNSUPPORTED"

/-- `oneWayCommission`. -/
def oneWayCommission (metadata : SymbolMetadata) (price volume : Decimal) :
    Except String Decimal := do
  require (metadata.commission.type = .usdPerMillionUsd) "COMMISSION_TYPE_UNSUPPORTED"
  require (metadata.quoteAsset = "USD") "COMMISSION_USD_NOTIONAL_CONVERSION_UNAVAILABLE"
  let volumeScale ← decimal metadata.volumeScale "COMMISSION_VOLUME_SCALE_INVALID"
  let quoteToAccount ← decimal metadata.quoteToAccountConversionRate
    "COMMISSION_CURRENCY_CONVERSION_INVALID"
  let rate ← decimal metadata.commission.rate "COMMISSION_RATE_INVALID"
  require (0 < price ∧ 0 < volume ∧ 0 < volumeScale ∧ 0 < quoteToAccount ∧ 0 ≤ rate)
    "COMMISSION_INPUT_INVALID"
  let rateCommission :=
    round (round (round (round (round (price * volume) * volumeScale) * rate) / 1000000) *
      quoteToAccount)
  let minimum ← minimumCommissionInAccountCurrency round metadata
  return max rateCommission minimum

/-- What `balancedPayoff` returns, in prices. -/
structure Payoff where
  perPrice : Decimal
  conversion : Decimal
  netReward : Decimal
  netLoss : Decimal
  fees : Decimal
  reserve : Decimal
  deriving DecidableEq

def balancedPayoff (metadata : SymbolMetadata) (entry reward risk quantity : Decimal)
    (reservePoints : Decimal := exitReservePoints) (entryPoints : Decimal := entryRangePoints) :
    Except String Payoff := do
  let tick ← decimal metadata.tickSize
  let tickValue ← decimal metadata.tickValue
  let perPrice := round (round (tickValue * quantity) / tick)
  require (0 < tick ∧ 0 < perPrice ∧ 0 < quantity) "SCALP_COST_METADATA_INVALID"
  let reserve := round (tick * reservePoints)
  let bound := round (round (round (round (entry + round (tick * entryPoints)) + reward) + risk) +
    reserve)
  let commission ← oneWayCommission round metadata bound quantity
  let fees := round (round (commission * 2) / perPrice)
  let conversionRate ← decimal metadata.commission.pnlConversionFeeRate
  let conversion := round (conversionRate / 100)
  require (0 ≤ conversion ∧ conversion < 1) "SCALP_COST_METADATA_INVALID"
  return {
    perPrice := perPrice
    conversion := conversion
    netReward := round (round (round (reward * round (1 - conversion)) - fees) - reserve)
    netLoss := round (round (round (risk * round (1 + conversion)) + fees) + reserve)
    fees := fees
    reserve := reserve }

/-- The admission of a balanced payoff: the target leaves no less than the stop loses. -/
def Payoff.admitted (p : Payoff) : Bool :=
  ¬ (p.netReward ≤ 0 ∨ p.netLoss ≤ 0 ∨ p.netReward < round (p.netLoss * minimumNetRewardRisk))

structure CostBalancedPayoffEvidence where
  volume : Decimal
  targetDistancePrice : Decimal
  stopDistancePrice : Decimal
  modeledCommissionPrice : Decimal
  modeledExitReservePrice : Decimal
  modeledTargetConversionPrice : Decimal
  modeledTargetNetPrice : Decimal
  modeledStopLossPrice : Decimal
  targetThresholdStatus : String
  minimumTargetDistancePrice : Option Decimal
  modeledTargetShortfallPrice : Option Decimal
  modeledBreakEvenWinFraction : Option Decimal
  deriving DecidableEq

/-- `satisfies`, the test of the search for the least target distance. -/
def satisfies (metadata : SymbolMetadata) (entry risk quantity distance : Decimal) :
    Except String Bool := do
  let candidate ← balancedPayoff round metadata entry distance risk quantity
  return decide (0 < candidate.netReward ∧
    round (candidate.netLoss * minimumNetRewardRisk) ≤ candidate.netReward)

/-- The least target distance, if there is one within the policy. -/
def requiredDistance (metadata : SymbolMetadata) (entry risk quantity : Decimal) :
    Except String (Option Decimal) := do
  let high := costBalancedScalpLimits.maximumTargetDistance
  if ← satisfies round metadata entry risk quantity high then
    let ends ← bisectTimes (fun low high => round (round (low + high) / 2))
      (satisfies round metadata entry risk quantity) 64 0 high
    return some (Decimal.toDecimalPlacesUp 10 ends.2)
  else
    return none

def costBalancedPayoffEvidence (metadata : SymbolMetadata) (entry target stop volume : Decimal) :
    Except String CostBalancedPayoffEvidence := do
  let e ← decimal entry
  let t ← decimal target
  let reward := |round (t - e)|
  let s ← decimal stop
  let risk := |round (s - e)|
  let quantity ← decimal volume
  let v ← balancedPayoff round metadata e reward risk quantity
  let required ← requiredDistance round metadata e risk quantity
  return {
    volume := volume
    targetDistancePrice := reward
    stopDistancePrice := risk
    modeledCommissionPrice := v.fees
    modeledExitReservePrice := v.reserve
    modeledTargetConversionPrice := round (reward * v.conversion)
    modeledTargetNetPrice := v.netReward
    modeledStopLossPrice := v.netLoss
    targetThresholdStatus :=
      if required = none then "UNAVAILABLE_AT_POLICY_CEILING" else "VERIFIED_COST_THRESHOLD"
    minimumTargetDistancePrice := required
    modeledTargetShortfallPrice :=
      required.map fun required => Decimal.toDecimalPlacesUp 10 (max 0 (round (required - reward)))
    modeledBreakEvenWinFraction :=
      if 0 < v.netReward then
        some (Decimal.toDecimalPlacesUp 10
          (round (v.netLoss / round (v.netLoss + v.netReward))))
      else
        none }

end

/-- With the rounding of the code this is the commission of the risk engine. -/
theorem oneWayCommission_forty : oneWayCommission (Significant.truncate Decimal.precision) =
    Risk.oneWayCommission := rfl

/-! ### Exact arithmetic -/

variable {metadata : SymbolMetadata} {minimum entry reward risk quantity reservePoints
  entryPoints : Decimal} {payoff : Payoff}

theorem minimumCommission_id_nonneg
    (h : minimumCommissionInAccountCurrency id metadata = .ok minimum) : 0 ≤ minimum := by
  simp only [minimumCommissionInAccountCurrency, bind_ok, decimal_ok, id] at h
  obtain ⟨_, ⟨rfl, htext⟩, h⟩ := h
  have hnonneg := (text_bounds htext).1
  split at h
  · rw [pure_ok] at h
    exact h ▸ hnonneg
  · split at h
    · simp only [bind_ok, decimal_ok, pure_ok] at h
      obtain ⟨_, ⟨rfl, hrate⟩, rfl⟩ := h
      exact mul_nonneg hnonneg (text_bounds hrate).1
    · split at h
      · rw [pure_ok] at h
        exact h ▸ hnonneg
      · cases h

theorem oneWayCommission_id {price volume r : Decimal} :
    oneWayCommission id metadata price volume = .ok r ↔ CommissionChecked metadata ∧
      0 < price ∧ 0 < volume ∧
      ∃ minimum, minimumCommissionInAccountCurrency id metadata = .ok minimum ∧
        r = exactCommission metadata minimum price volume := by
  simp only [oneWayCommission, id, bind_ok, decimal_ok, require_ok, pure_ok]
  constructor
  · rintro ⟨_, htype, _, hquote, _, ⟨rfl, hscale⟩, _, ⟨rfl, hconversion⟩, _, ⟨rfl, hrate⟩, _,
      ⟨hprice, hvolume, hscalePos, hconversionPos, -⟩, minimum, hminimum, rfl⟩
    exact ⟨⟨htype, hquote, ⟨hscale, hscalePos⟩, ⟨hconversion, hconversionPos⟩, hrate⟩, hprice,
      hvolume, minimum, hminimum, rfl⟩
  · rintro ⟨hc, hprice, hvolume, minimum, hminimum, rfl⟩
    exact ⟨(), hc.type, (), hc.quote, _, ⟨rfl, hc.scale.1⟩, _, ⟨rfl, hc.conversion.1⟩, _,
      ⟨rfl, hc.rate⟩, (), ⟨hprice, hvolume, hc.scale.2, hc.conversion.2, (text_bounds hc.rate).1⟩,
      minimum, hminimum, rfl⟩

/-- What a price distance of one is worth for a quantity. -/
def perPrice (metadata : SymbolMetadata) (quantity : Decimal) : Decimal :=
  metadata.tickValue * quantity / metadata.tickSize

/-- The price at which `balancedPayoff` charges both commissions. -/
def priceBound (metadata : SymbolMetadata) (entry reward risk reservePoints entryPoints : Decimal) :
    Decimal :=
  entry + metadata.tickSize * entryPoints + reward + risk + metadata.tickSize * reservePoints

/-- The commission at a price, as a price distance. -/
def feePrice (metadata : SymbolMetadata) (minimum quantity price : Decimal) : Decimal :=
  exactCommission metadata minimum price quantity / perPrice metadata quantity

/-- What `balancedPayoff` checks of the symbol and of the quantity. -/
structure PayoffChecked (metadata : SymbolMetadata) (quantity : Decimal) : Prop where
  tick : isDecimalText metadata.tickSize ∧ 0 < metadata.tickSize
  tickValue : isDecimalText metadata.tickValue
  perPricePos : 0 < perPrice metadata quantity
  quantityPos : 0 < quantity
  commission : CommissionChecked metadata
  fee : isDecimalText metadata.commission.pnlConversionFeeRate ∧
    metadata.commission.pnlConversionFeeRate / 100 < 1

/-- The payoff without rounding. -/
def exactPayoff (metadata : SymbolMetadata)
    (minimum entry reward risk quantity reservePoints entryPoints : Decimal) : Payoff :=
  let fees := feePrice metadata minimum quantity
    (priceBound metadata entry reward risk reservePoints entryPoints) * 2
  let conversion := metadata.commission.pnlConversionFeeRate / 100
  let reserve := metadata.tickSize * reservePoints
  { perPrice := perPrice metadata quantity
    conversion := conversion
    netReward := reward * (1 - conversion) - fees - reserve
    netLoss := risk * (1 + conversion) + fees + reserve
    fees := fees
    reserve := reserve }

theorem balancedPayoff_id : balancedPayoff id metadata entry reward risk quantity reservePoints
    entryPoints = .ok payoff ↔ PayoffChecked metadata quantity ∧
      0 < priceBound metadata entry reward risk reservePoints entryPoints ∧
      ∃ minimum, minimumCommissionInAccountCurrency id metadata = .ok minimum ∧
        payoff = exactPayoff metadata minimum entry reward risk quantity reservePoints
          entryPoints := by
  simp only [balancedPayoff, id, bind_ok, decimal_ok, require_ok, pure_ok]
  constructor
  · rintro ⟨_, ⟨rfl, htick⟩, _, ⟨rfl, hvalue⟩, _, ⟨htickPos, hperPrice, hquantity⟩, commission,
      hcommission, _, ⟨rfl, hfee⟩, _, ⟨-, hconversion⟩, rfl⟩
    obtain ⟨hc, hbound, -, minimum, hminimum, rfl⟩ := oneWayCommission_id.mp hcommission
    refine ⟨⟨⟨htick, htickPos⟩, hvalue, hperPrice, hquantity, hc, hfee, hconversion⟩, hbound,
      minimum, hminimum, ?_⟩
    rw [exactPayoff, feePrice, div_mul_eq_mul_div]
    rfl
  · rintro ⟨hp, hbound, minimum, hminimum, rfl⟩
    refine ⟨_, ⟨rfl, hp.tick.1⟩, _, ⟨rfl, hp.tickValue⟩, (), ⟨hp.tick.2, hp.perPricePos,
      hp.quantityPos⟩, _, oneWayCommission_id.mpr ⟨hp.commission, hbound, hp.quantityPos, minimum,
      hminimum, rfl⟩, _, ⟨rfl, hp.fee.1⟩, (), ⟨?_, hp.fee.2⟩, ?_⟩
    · exact div_nonneg (text_bounds hp.fee.1).1 (by norm_num)
    · rw [exactPayoff, feePrice, div_mul_eq_mul_div]
      rfl

theorem feePrice_nonneg (hp : PayoffChecked metadata quantity) (hminimum : 0 ≤ minimum)
    (price : Decimal) : 0 ≤ feePrice metadata minimum quantity price :=
  div_nonneg (Risk.exactCommission_nonneg hminimum price quantity) hp.perPricePos.le

/-- Where the price grows by no more than a factor, so does the commission. -/
theorem feePrice_scale {price price' factor : Decimal} (hp : PayoffChecked metadata quantity)
    (hminimum : 0 ≤ minimum) (hfactor : 1 ≤ factor) (h : price' ≤ factor * price) :
    feePrice metadata minimum quantity price' ≤
      factor * feePrice metadata minimum quantity price := by
  rw [feePrice, feePrice, mul_div_assoc']
  refine div_le_div_of_nonneg_right ?_ hp.perPricePos.le
  refine Risk.exactCommission_scale hp.commission hminimum hfactor ?_
  rw [← mul_assoc]
  exact mul_le_mul_of_nonneg_right h hp.quantityPos.le

/-! ### The least target distance -/

/-- The target leaves no less than the stop loses. -/
def Covers (metadata : SymbolMetadata) (minimum entry risk quantity reward : Decimal) : Prop :=
  (exactPayoff metadata minimum entry reward risk quantity exitReservePoints
      entryRangePoints).netLoss ≤
    (exactPayoff metadata minimum entry reward risk quantity exitReservePoints
      entryRangePoints).netReward

section

variable (entry) (hp : PayoffChecked metadata quantity) (hminimum : 0 ≤ minimum) (hrisk : 0 ≤ risk)
include hp hminimum hrisk

theorem netLoss_pos (reward : Decimal) :
    0 < (exactPayoff metadata minimum entry reward risk quantity exitReservePoints
      entryRangePoints).netLoss := by
  have hfees := feePrice_nonneg hp hminimum
    (priceBound metadata entry reward risk exitReservePoints entryRangePoints)
  have hfee := (text_bounds hp.fee.1).1
  have hreserve : 0 < metadata.tickSize * exitReservePoints :=
    mul_pos hp.tick.2 (by norm_num [exitReservePoints])
  rw [exactPayoff]
  positivity

/-- A longer target covers the stop as well: its commission grows by no more than its reward. -/
theorem Covers.longer (hentry : 0 ≤ entry) {reward reward' : Decimal} (hpos : 0 < reward)
    (hle : reward ≤ reward') (h : Covers metadata minimum entry risk quantity reward) :
    Covers metadata minimum entry risk quantity reward' := by
  have htick := hp.tick.2
  have hfee := (text_bounds hp.fee.1).1
  have hfactor : 1 ≤ reward' / reward := (one_le_div hpos).mpr hle
  have hreward : reward' = reward' / reward * reward := by field_simp
  have hbound : priceBound metadata entry reward' risk exitReservePoints entryRangePoints ≤
      reward' / reward *
        priceBound metadata entry reward risk exitReservePoints entryRangePoints := by
    have hrest : 0 ≤ entry + metadata.tickSize * entryRangePoints + risk +
        metadata.tickSize * exitReservePoints := by
      rw [entryRangePoints, exitReservePoints]
      positivity
    have hscaled := mul_le_mul_of_nonneg_right hfactor hrest
    simp only [priceBound]
    linarith
  have hfees := feePrice_scale hp hminimum hfactor hbound
  simp only [Covers, exactPayoff] at h ⊢
  -- what the target must leave beyond its fees does not depend on it
  have hneeded : 0 ≤ risk * (1 + metadata.commission.pnlConversionFeeRate / 100) +
      2 * (metadata.tickSize * exitReservePoints) := by
    rw [exitReservePoints]
    positivity
  have hkept : risk * (1 + metadata.commission.pnlConversionFeeRate / 100) +
      2 * (metadata.tickSize * exitReservePoints) ≤
      reward * (1 - metadata.commission.pnlConversionFeeRate / 100) - 4 * feePrice metadata minimum
        quantity (priceBound metadata entry reward risk exitReservePoints entryRangePoints) := by
    linarith
  have hscaled := mul_le_mul_of_nonneg_left hkept (zero_le_one.trans hfactor)
  have hgrown := mul_le_mul_of_nonneg_right hfactor hneeded
  have hsplit : reward' * (1 - metadata.commission.pnlConversionFeeRate / 100) =
      reward' / reward * (reward * (1 - metadata.commission.pnlConversionFeeRate / 100)) := by
    rw [← mul_assoc, ← hreward]
  linarith

theorem not_covers_zero : ¬ Covers metadata minimum entry risk quantity 0 := by
  have hloss := netLoss_pos entry hp hminimum hrisk 0
  have hfees := feePrice_nonneg hp hminimum
    (priceBound metadata entry 0 risk exitReservePoints entryRangePoints)
  have hreserve : 0 < metadata.tickSize * exitReservePoints :=
    mul_pos hp.tick.2 (by norm_num [exitReservePoints])
  rw [Covers, not_le]
  refine lt_of_le_of_lt ?_ hloss
  simp only [exactPayoff]
  linarith

theorem admitted_iff (reward : Decimal) : (exactPayoff metadata minimum entry reward risk quantity
    exitReservePoints entryRangePoints).admitted id ↔
      Covers metadata minimum entry risk quantity reward := by
  have hloss := netLoss_pos entry hp hminimum hrisk reward
  simp only [Payoff.admitted, Covers, id, minimumNetRewardRisk, mul_one, decide_eq_true_eq, not_or,
    not_le, not_lt]
  constructor
  · rintro ⟨-, -, h⟩
    exact h
  · intro h
    exact ⟨hloss.trans_le h, hloss, h⟩

/-- The test of the search answers for every distance. -/
theorem satisfies_id (hentry : 0 ≤ entry)
    (hmin : minimumCommissionInAccountCurrency id metadata = .ok minimum) {reward : Decimal}
    (hreward : 0 ≤ reward) :
    balancedPayoff id metadata entry reward risk quantity = .ok (exactPayoff metadata minimum entry
      reward risk quantity exitReservePoints entryRangePoints) ∧
    ((satisfies id metadata entry risk quantity reward = .ok true ∧
        Covers metadata minimum entry risk quantity reward) ∨
      (satisfies id metadata entry risk quantity reward = .ok false ∧
        ¬ Covers metadata minimum entry risk quantity reward)) := by
  have htick := hp.tick.2
  have hbound : 0 < priceBound metadata entry reward risk exitReservePoints entryRangePoints := by
    rw [priceBound, entryRangePoints, exitReservePoints]
    positivity
  have hpayoff := balancedPayoff_id.mpr ⟨hp, hbound, minimum, hmin, rfl⟩
  refine ⟨hpayoff, ?_⟩
  have hloss := netLoss_pos entry hp hminimum hrisk reward
  simp only [satisfies, hpayoff, ok_bind, id, minimumNetRewardRisk, mul_one]
  by_cases hcovers : Covers metadata minimum entry risk quantity reward
  · exact .inl ⟨congrArg Except.ok (decide_eq_true ⟨hloss.trans_le hcovers, hcovers⟩), hcovers⟩
  · exact .inr ⟨congrArg Except.ok (decide_eq_false fun h => hcovers h.2), hcovers⟩

/-- The search finds the least distance up to its last digit, or there is none. -/
theorem requiredDistance_id (hentry : 0 ≤ entry)
    (hmin : minimumCommissionInAccountCurrency id metadata = .ok minimum) :
    (∃ least, requiredDistance id metadata entry risk quantity = .ok (some least) ∧ 0 ≤ least ∧
      least ≤ costBalancedScalpLimits.maximumTargetDistance ∧
      (∀ reward, least ≤ reward → Covers metadata minimum entry risk quantity reward) ∧
      ∀ reward, 0 ≤ reward → reward < least - 2 / 10 ^ 10 →
        ¬ Covers metadata minimum entry risk quantity reward) ∨
    (requiredDistance id metadata entry risk quantity = .ok none ∧
      ∀ reward, 0 ≤ reward → reward ≤ costBalancedScalpLimits.maximumTargetDistance →
        ¬ Covers metadata minimum entry risk quantity reward) := by
  have hzero := not_covers_zero entry hp hminimum hrisk
  have hlonger {reward reward' : Decimal} (hreward : 0 ≤ reward) (hle : reward ≤ reward')
      (h : Covers metadata minimum entry risk quantity reward) :
      Covers metadata minimum entry risk quantity reward' := by
    rcases hreward.eq_or_lt with rfl | hpos
    · exact absurd h hzero
    · exact h.longer entry hp hminimum hrisk hentry hpos hle
  have htest {reward : Decimal} (hreward : 0 ≤ reward) :=
    (satisfies_id entry hp hminimum hrisk hentry hmin hreward).2
  have hceiling : 0 ≤ costBalancedScalpLimits.maximumTargetDistance := by
    norm_num [costBalancedScalpLimits]
  rcases htest hceiling with ⟨hsatisfies, hcovers⟩ | ⟨hsatisfies, hcovers⟩
  · obtain ⟨low, high, hends, hlow, hhigh, hfails, hholds, hwidth⟩ :=
      bisectTimes_spec (n := 64) (fun t ht _ => htest ht) hceiling hzero hcovers
    have hhighNonneg : 0 ≤ high := by
      have : (0 : ℚ) ≤ high - low := by
        rw [hwidth]
        positivity
      linarith
    obtain ⟨hnonneg, hwithin⟩ : 0 ≤ Decimal.toDecimalPlacesUp 10 high ∧
        Decimal.toDecimalPlacesUp 10 high ≤ ((7 : ℕ) : ℚ) :=
      Decimal.toDecimalPlacesUp_le hhighNonneg hhigh
    refine .inl ⟨Decimal.toDecimalPlacesUp 10 high, ?_, hnonneg, hwithin, ?_, ?_⟩
    · simp only [requiredDistance, hsatisfies, ok_bind, id, if_true, hends]
      rfl
    · intro reward hle
      exact hlonger hhighNonneg ((Decimal.le_toDecimalPlacesUp 10 hhighNonneg).trans hle) hholds
    · intro reward hreward hlt hreached
      refine hfails (hlonger hreward ?_ hreached)
      have hup := Decimal.toDecimalPlacesUp_lt 10 hhighNonneg
      have hgap : high - low ≤ 1 / 10 ^ 10 := by
        rw [hwidth]
        norm_num [costBalancedScalpLimits]
      linarith
  · refine .inr ⟨?_, fun reward hreward hle hreached => hcovers (hlonger hreward hle hreached)⟩
    simp only [requiredDistance, hsatisfies, ok_bind]
    rfl

end

/-- Without rounding the reported threshold is exact to its last digit. -/
theorem threshold_exact {entry target stop volume : Decimal} {evidence : CostBalancedPayoffEvidence}
    (h : costBalancedPayoffEvidence id metadata entry target stop volume = .ok evidence) :
    (∀ least, evidence.minimumTargetDistancePrice = some least →
      least ≤ costBalancedScalpLimits.maximumTargetDistance ∧
      (∀ reward, least ≤ reward → reward ≤ costBalancedScalpLimits.maximumTargetDistance →
        ∃ payoff, balancedPayoff id metadata entry reward |stop - entry| volume = .ok payoff ∧
          payoff.admitted id) ∧
      ∀ reward, 0 ≤ reward → reward < least - 2 / 10 ^ 10 →
        ∃ payoff, balancedPayoff id metadata entry reward |stop - entry| volume = .ok payoff ∧
          ¬ payoff.admitted id) ∧
    (evidence.targetThresholdStatus = "UNAVAILABLE_AT_POLICY_CEILING" →
      ∀ reward, 0 ≤ reward → reward ≤ costBalancedScalpLimits.maximumTargetDistance →
        ∃ payoff, balancedPayoff id metadata entry reward |stop - entry| volume = .ok payoff ∧
          ¬ payoff.admitted id) := by
  simp only [costBalancedPayoffEvidence, bind_ok, decimal_ok, pure_ok] at h
  obtain ⟨_, ⟨rfl, hentryText⟩, _, ⟨rfl, -⟩, _, ⟨rfl, -⟩, _, ⟨rfl, -⟩, payoff, hpayoff, required,
    hrequired, rfl⟩ := h
  obtain ⟨hp, -, minimum, hmin, -⟩ := balancedPayoff_id.mp hpayoff
  have hentry := (text_bounds hentryText).1
  have hminimum := minimumCommission_id_nonneg hmin
  have hrisk : 0 ≤ |stop - entry| := abs_nonneg _
  have hanswer {reward : Decimal} (hreward : 0 ≤ reward) :=
    (satisfies_id entry hp hminimum hrisk hentry hmin hreward).1
  have hadmitted (reward : Decimal) := admitted_iff entry hp hminimum hrisk reward
  rcases requiredDistance_id entry hp hminimum hrisk hentry hmin with
    ⟨least, hfound, hnonneg, hwithin, habove, hbelow⟩ | ⟨hfound, hnone⟩
  · obtain rfl : some least = required := by
      rw [id, hfound] at hrequired
      exact Except.ok.inj hrequired
    refine ⟨fun m hm => ?_, fun hstatus => ?_⟩
    · obtain rfl := Option.some.inj hm
      refine ⟨hwithin, fun reward hle _ => ?_, fun reward hreward hlt => ?_⟩
      · exact ⟨_, hanswer (hnonneg.trans hle), (hadmitted reward).mpr (habove reward hle)⟩
      · exact ⟨_, hanswer hreward, fun h => hbelow reward hreward hlt ((hadmitted reward).mp h)⟩
    · simp at hstatus
  · obtain rfl : none = required := by
      rw [id, hfound] at hrequired
      exact Except.ok.inj hrequired
    refine ⟨fun m hm => by simp at hm, fun _ reward hreward hle => ?_⟩
    exact ⟨_, hanswer hreward, fun h => hnone reward hreward hle ((hadmitted reward).mp h)⟩

/-- With a stop of one dollar at 2000 the target must be 2.5405388647 dollars away, and with one of
    six dollars no target of the policy will do. -/
theorem threshold_exact_gold :
    (∀ reward, 25405388647 / 10 ^ 10 ≤ reward → reward ≤ 7 → ∃ payoff,
      balancedPayoff id Risk.GridSample.metadata 2000 reward |1999 - 2000| 1 = .ok payoff ∧
        payoff.admitted id) ∧
    ∀ reward, 0 ≤ reward → reward ≤ 7 → ∃ payoff,
      balancedPayoff id Risk.GridSample.metadata 2000 reward |1994 - 2000| 1 = .ok payoff ∧
        ¬ payoff.admitted id := by
  constructor
  · have hleast : (costBalancedPayoffEvidence id Risk.GridSample.metadata 2000 2004 1999 1).map
        CostBalancedPayoffEvidence.minimumTargetDistancePrice =
          .ok (some (25405388647 / 10 ^ 10)) := by decide +kernel
    obtain ⟨evidence, hevidence, hminimum⟩ := map_ok.mp hleast
    exact ((threshold_exact hevidence).1 _ hminimum).2.1
  · have hstatus : (costBalancedPayoffEvidence id Risk.GridSample.metadata 2000 2004 1994 1).map
        CostBalancedPayoffEvidence.targetThresholdStatus =
          .ok "UNAVAILABLE_AT_POLICY_CEILING" := by decide +kernel
    obtain ⟨evidence, hevidence, hunavailable⟩ := map_ok.mp hstatus
    exact (threshold_exact hevidence).2 hunavailable

end ScalpingBot.Candidates
