import ScalpingBot.Model.Validator
import ScalpingBot.Risk.Confirmed

/-! The stop distance that the model is told it may use: `maximumAffordableStopDistance` of
    packages/risk-engine/src/risk.ts and `proposalConstraints` of
    apps/execution-service/src/oco-risk-evaluator.ts, against the sizing of a leg with such a
    stop. -/

namespace ScalpingBot.Risk

open Scenario (isTickAligned)
open Significant (Fits fits_nat truncate_mono truncate_nonneg truncate_le)

/-- `MinimumVolumeStopConstraint`, and `OcoProposalRiskConstraints`. -/
structure StopConstraint where
  approved : Bool
  reasonCodes : List String
  maxStopDistance : Option Decimal
  deriving DecidableEq

/-- A constraint without a distance. -/
def StopConstraint.reject (reason : String) : StopConstraint := ⟨false, [reason], none⟩

structure StopConstraintInput where
  equity : Decimal
  setupRiskPercent : Decimal
  maxRiskPercent : Decimal
  metadata : SymbolMetadata

/-- The body of `maximumAffordableStopDistance`. -/
def affordableStop (input : StopConstraintInput) : Except String Decimal := do
  let equity ← decimal input.equity
  let setupRisk ← decimal input.setupRiskPercent
  let configuredMax ← decimal input.maxRiskPercent
  let tickSize ← decimal input.metadata.tickSize "RISK_TICK_SIZE_INVALID"
  let tickValue ← decimal input.metadata.tickValue "RISK_TICK_VALUE_INVALID"
  let minVolume ← decimal input.metadata.minVolume "RISK_VOLUME_METADATA_INVALID"
  require (0 < equity) "RISK_EQUITY_INVALID"
  require (0 < setupRisk ∧ setupRisk ≤ configuredMax ∧ configuredMax ≤ 5) "RISK_PERCENT_INVALID"
  require (0 < tickSize ∧ 0 < tickValue ∧ 0 < minVolume) "RISK_METADATA_INVALID"
  let perLegRiskBudget := (equity.times setupRisk).div 200
  let affordableTicks := (perLegRiskBudget.div (tickValue.times minVolume)).floor
  require (1 ≤ affordableTicks) "RISK_MIN_VOLUME_UNAFFORDABLE"
  return tickSize.times affordableTicks

def maximumAffordableStopDistance (input : StopConstraintInput) : StopConstraint :=
  match affordableStop input with
  | .ok distance => ⟨true, [], some distance⟩
  | .error reason => .reject reason

namespace OcoRiskEvaluatorOptions

variable (o : OcoRiskEvaluatorOptions)

/-- The part of `proposalConstraints` inside its `try`: the distance after the costs of a stop at
    the affordable distance above the ask. -/
def costedStop (account : AccountState) (metadata : SymbolMetadata) (quote : Quote)
    (affordable : Decimal) : Except String Decimal := do
  let ask ← decimal quote.ask
  let distance ← decimal affordable
  let reserve ← stopCostReserve {
    metadata := metadata
    entryPrice := quote.ask
    stopLoss := ask.plus distance
    volume := metadata.minVolume
    adverseSlippagePoints := o.adverseSlippagePoints.getD 10 }
  let equity ← decimal account.equity
  let budget := ((equity.times (← o.effectiveRisk 1)).div 200).minus reserve
  let tickValue ← decimal metadata.tickValue
  let minVolume ← decimal metadata.minVolume
  let ticks := (budget.div (tickValue.times minVolume)).floor
  require (1 ≤ ticks) "RISK_COSTS_VOLUME_BELOW_MIN"
  return ticks.times (← decimal metadata.tickSize)

/-- `proposalConstraints`, which reads the percent twice. -/
def proposalConstraints (account : AccountState) (metadata : SymbolMetadata)
    (quote : Option Quote) : Except String StopConstraint :=
  if !account.certain then
    .ok (.reject "RISK_ACCOUNT_UNCERTAIN")
  else do
    let result := maximumAffordableStopDistance ⟨account.equity, ← o.effectiveRisk 0,
      o.maxRiskPercent, metadata⟩
    match result.approved, result.maxStopDistance, quote with
    | true, some affordable, some quote =>
      match o.costedStop account metadata quote affordable with
      | .ok distance => return { result with maxStopDistance := some distance }
      | .error _ => return .reject "RISK_COSTS_VOLUME_BELOW_MIN"
    | _, _, _ => return result

end OcoRiskEvaluatorOptions

/-! ### The costs of a stop -/

namespace StopCostInput

variable (c : StopCostInput)

/-- The price at which `stopCostReserve` charges the commission. -/
def commissionPrice : Decimal :=
  (max c.entryPrice c.stopLoss).plus (if c.executionOrderType = some .limit then 0
    else c.metadata.tickSize.times c.adverseSlippagePoints)

/-- The costs at a commission and a distance. -/
def costs (commission distance : Decimal) : Decimal :=
  ((commission.times 2).plus
    ((c.adverseSlippagePoints.times c.metadata.tickValue).times c.volume)).plus
    ((((((distance.div c.metadata.tickSize).plus c.adverseSlippagePoints).times
      c.metadata.tickValue).times c.volume).times c.metadata.commission.pnlConversionFeeRate).div
      100)

/-- What `stopCostReserve` checks of the symbol and of the volume. -/
structure Checked : Prop where
  tick : isDecimalText c.metadata.tickSize ∧ 0 < c.metadata.tickSize
  points : isDecimalText c.adverseSlippagePoints ∧ c.adverseSlippagePoints.isInteger ∧
    0 < c.adverseSlippagePoints
  volume : isDecimalText c.volume
  tickValue : isDecimalText c.metadata.tickValue
  fee : isDecimalText c.metadata.commission.pnlConversionFeeRate

theorem stopCostReserve_iff {r : Decimal} : stopCostReserve c = .ok r ↔ c.Checked ∧
    isDecimalText c.entryPrice ∧ isDecimalText c.stopLoss ∧ ∃ commission,
      oneWayCommission c.metadata c.commissionPrice c.volume = .ok commission ∧
      r = c.costs commission |c.entryPrice.minus c.stopLoss| := by
  simp only [stopCostReserve, bind_ok, decimal_ok, require_ok, pure_ok]
  constructor
  · rintro ⟨_, ⟨rfl, htick⟩, _, ⟨rfl, hpoints⟩, _, ⟨hinteger, hpointsPos, htickPos⟩, _,
      ⟨rfl, hentry⟩, _, ⟨rfl, hstop⟩, _, ⟨rfl, hvolume⟩, _, ⟨rfl, htickValue⟩, _, ⟨rfl, hfee⟩,
      commission, hcommission, rfl⟩
    exact ⟨⟨⟨htick, htickPos⟩, ⟨hpoints, hinteger, hpointsPos⟩, hvolume, htickValue, hfee⟩, hentry,
      hstop, commission, hcommission, rfl⟩
  · rintro ⟨hc, hentry, hstop, commission, hcommission, rfl⟩
    exact ⟨_, ⟨rfl, hc.tick.1⟩, _, ⟨rfl, hc.points.1⟩, (),
      ⟨hc.points.2.1, hc.points.2.2, hc.tick.2⟩, _, ⟨rfl, hentry⟩, _, ⟨rfl, hstop⟩, _,
      ⟨rfl, hc.volume⟩, _, ⟨rfl, hc.tickValue⟩, _, ⟨rfl, hc.fee⟩, commission, hcommission, rfl⟩

/-- A higher commission and a longer distance cost more. -/
theorem costs_mono (hc : c.Checked) {commission commission' distance distance' : Decimal}
    (hcommission : 0 ≤ commission) (hle : commission ≤ commission') (hdistance : 0 ≤ distance)
    (hle' : distance ≤ distance') :
    c.costs commission distance ≤ c.costs commission' distance' := by
  have htick := hc.tick.2
  have hpoints := hc.points.2.2.le
  have hvalue := (text_bounds hc.tickValue).1
  have hvolume := (text_bounds hc.volume).1
  have hfee := (text_bounds hc.fee).1
  have htwo := nonneg_times hcommission (by norm_num : (0 : ℚ) ≤ 2)
  have hslip := nonneg_times (nonneg_times hpoints hvalue) hvolume
  have hticks := nonneg_div hdistance htick.le
  have hloss := nonneg_times (nonneg_times (nonneg_plus hticks hpoints) hvalue) hvolume
  refine truncate_mono (by decide) (add_nonneg (nonneg_plus htwo hslip)
    (nonneg_div (nonneg_times hloss hfee) (by norm_num))) (add_le_add ?_ ?_)
  · exact plus_mono (add_nonneg htwo hslip) (times_mono hcommission (by norm_num) hle)
  · refine truncate_mono (by decide) (div_nonneg (nonneg_times hloss hfee) (by norm_num)) ?_
    refine div_le_div_of_nonneg_right (times_mono hloss hfee ?_) (by norm_num)
    refine times_mono (nonneg_times (nonneg_plus hticks hpoints) hvalue) hvolume ?_
    refine times_mono (nonneg_plus hticks hpoints) hvalue ?_
    refine plus_mono (add_nonneg hticks hpoints) ?_
    exact truncate_mono (by decide) (div_nonneg hdistance htick.le)
      (div_le_div_of_nonneg_right hle' htick.le)

theorem costs_nonneg (hc : c.Checked) {commission distance : Decimal} (hcommission : 0 ≤ commission)
    (hdistance : 0 ≤ distance) : 0 ≤ c.costs commission distance := by
  have hpoints := hc.points.2.2.le
  have hvalue := (text_bounds hc.tickValue).1
  have hvolume := (text_bounds hc.volume).1
  have hticks := nonneg_plus (nonneg_div hdistance hc.tick.2.le) hpoints
  have hloss := nonneg_times (nonneg_times hticks hvalue) hvolume
  refine nonneg_plus (nonneg_plus (nonneg_times hcommission (by norm_num)) ?_) ?_
  · exact nonneg_times (nonneg_times hpoints hvalue) hvolume
  · exact nonneg_div (nonneg_times hloss (text_bounds hc.fee).1) (by norm_num)

end StopCostInput

/-- The commission of a volume grows with the price. -/
theorem oneWayCommission_price {metadata : SymbolMetadata} {price price' volume r : Decimal}
    (h : oneWayCommission metadata price' volume = .ok r) (hpos : 0 < price)
    (hle : price ≤ price') : ∃ r', oneWayCommission metadata price volume = .ok r' ∧ 0 ≤ r' ∧
      r' ≤ r := by
  simp only [oneWayCommission, bind_ok, decimal_ok, require_ok, pure_ok] at h ⊢
  obtain ⟨_, htype, _, hquote, _, ⟨rfl, hscale⟩, _, ⟨rfl, hconversion⟩, _, ⟨rfl, hrate⟩, _,
    ⟨hprice, hvolume, hscalePos, hconversionPos, hratePos⟩, minimum, hminimum, rfl⟩ := h
  have hbase := nonneg_times hpos.le hvolume.le
  have hscaled := nonneg_times hbase hscalePos.le
  have hrated := nonneg_times hscaled hratePos
  have hmillion := nonneg_div hrated (by norm_num : (0 : ℚ) ≤ 1000000)
  refine ⟨_, ⟨(), htype, (), hquote, _, ⟨rfl, hscale⟩, _, ⟨rfl, hconversion⟩, _, ⟨rfl, hrate⟩, (),
    ⟨hpos, hvolume, hscalePos, hconversionPos, hratePos⟩, minimum, hminimum, rfl⟩,
    le_max_of_le_left (nonneg_times hmillion hconversionPos.le), max_le_max_right _ ?_⟩
  refine times_mono hmillion hconversionPos.le ?_
  refine truncate_mono (by decide) (div_nonneg hrated (by norm_num)) ?_
  refine div_le_div_of_nonneg_right ?_ (by norm_num)
  refine times_mono hscaled hratePos (times_mono hbase hscalePos.le ?_)
  exact times_mono hpos.le hvolume.le hle

/-! ### The constraint -/

/-- The ticks of loss at the minimum volume that half of the setup risk pays. -/
def affordableTicks (metadata : SymbolMetadata) (equity setupRiskPercent : Decimal) : ℤ :=
  ⌊equity * setupRiskPercent / 200 / (metadata.tickValue * metadata.minVolume)⌋

/-- What `maximumAffordableStopDistance` has checked, and the distance that it finds. -/
structure Affords (metadata : SymbolMetadata) (equity setup distance : Decimal) : Prop where
  equityText : isDecimalText equity
  setupText : isDecimalText setup
  tick : isDecimalText metadata.tickSize ∧ 0 < metadata.tickSize
  tickValue : isDecimalText metadata.tickValue ∧ 0 < metadata.tickValue
  minVolume : isDecimalText metadata.minVolume ∧ 0 < metadata.minVolume
  budget : (equity.times setup).div 200 = equity * setup / 200
  loss : metadata.tickValue.times metadata.minVolume = metadata.tickValue * metadata.minVolume
  distanceEq : distance = metadata.tickSize.times (affordableTicks metadata equity setup)

theorem affordableStop_ok {input : StopConstraintInput} {distance : Decimal}
    (h : affordableStop input = .ok distance) :
    Affords input.metadata input.equity input.setupRiskPercent distance := by
  simp only [affordableStop, bind_ok, decimal_ok, require_ok, pure_ok] at h
  obtain ⟨_, ⟨rfl, hequity⟩, _, ⟨rfl, hsetup⟩, _, ⟨rfl, -⟩, _, ⟨rfl, htick⟩, _, ⟨rfl, hvalue⟩, _,
    ⟨rfl, hvolume⟩, _, -, _, ⟨-, hle, hmax⟩, _, ⟨htickPos, hvaluePos, hvolumePos⟩, _, hone,
    rfl⟩ := h
  obtain ⟨n, hn, hnEq⟩ := isDecimalText_iff.mp hequity
  obtain ⟨m, -, hmEq⟩ := isDecimalText_iff.mp hsetup
  obtain ⟨v, -, hvEq⟩ := isDecimalText_iff.mp hvalue
  obtain ⟨w, -, hwEq⟩ := isDecimalText_iff.mp hvolume
  have hm : m ≤ 5 * 10 ^ 10 := by
    have hle5 := hle.trans hmax
    rw [hmEq, div_le_iff₀ (by norm_num)] at hle5
    exact_mod_cast hle5
  have hnm : 5 * (n * m) < 10 ^ 38 := by nlinarith
  have hproduct : input.equity * input.setupRiskPercent = ((n * m : ℕ) : ℚ) / 10 ^ 20 := by
    rw [hnEq, hmEq]
    push_cast
    ring
  have htimes : input.equity.times input.setupRiskPercent =
      input.equity * input.setupRiskPercent := by
    rw [Decimal.times, hproduct]
    exact Decimal.exact_nat (n * m) 20 rfl (by omega)
  have hbudgetUnits : input.equity * input.setupRiskPercent / 200 =
      ((5 * (n * m) : ℕ) : ℚ) / 10 ^ 23 := by
    rw [hproduct]
    push_cast
    ring
  have hbudget : (input.equity.times input.setupRiskPercent).div 200 =
      input.equity * input.setupRiskPercent / 200 := by
    rw [htimes, Decimal.div, hbudgetUnits]
    exact Decimal.exact_nat (5 * (n * m)) 23 rfl (by omega)
  have hbudgetLt : input.equity * input.setupRiskPercent / 200 < 10 ^ 15 := by
    have hcast : ((5 * (n * m) : ℕ) : ℚ) < ((10 ^ 38 : ℕ) : ℚ) := by exact_mod_cast hnm
    rw [hbudgetUnits, div_lt_iff₀ (by norm_num)]
    push_cast at hcast ⊢
    linarith
  have hlossUnits : input.metadata.tickValue * input.metadata.minVolume =
      ((v * w : ℕ) : ℚ) / 10 ^ 20 := by
    rw [hvEq, hwEq]
    push_cast
    ring
  have hlossPos := mul_pos hvaluePos hvolumePos
  rw [hbudget] at hone ⊢
  -- one tick at the minimum volume is within the budget, so that its loss is exact
  have hloss : input.metadata.tickValue.times input.metadata.minVolume =
      input.metadata.tickValue * input.metadata.minVolume := by
    have hfits : Fits Decimal.precision ((10 : ℚ) ^ 16) := Significant.fits_pow (by decide)
    have hsmall : input.metadata.tickValue * input.metadata.minVolume < 10 ^ 16 := by
      by_contra hlarge
      have hge : (10 : ℚ) ^ 16 ≤ input.metadata.tickValue.times input.metadata.minVolume :=
        (hfits.le_truncate_iff (by decide) (by norm_num)).mpr (not_lt.mp hlarge)
      have hquotient := hone.trans (Int.floor_le _)
      have hle := hquotient.trans (Decimal.div_le (div_nonneg
        (by rw [hbudgetUnits]; positivity) (by linarith)))
      rw [le_div_iff₀ (by linarith)] at hle
      linarith
    rw [Decimal.times, hlossUnits]
    refine Decimal.exact_nat (v * w) 20 rfl ?_
    rw [hlossUnits, div_lt_iff₀ (by norm_num)] at hsmall
    have hcast : ((v * w : ℕ) : ℚ) < ((10 ^ 40 : ℕ) : ℚ) := by
      push_cast at hsmall ⊢
      linarith
    exact_mod_cast hcast
  refine ⟨hequity, hsetup, ⟨htick, htickPos⟩, ⟨hvalue, hvaluePos⟩, ⟨hvolume, hvolumePos⟩, hbudget,
    hloss, ?_⟩
  have hvw : 0 < v * w := by
    rw [hlossUnits, lt_div_iff₀ (by norm_num), zero_mul] at hlossPos
    exact_mod_cast hlossPos
  have hquotient : input.equity * input.setupRiskPercent / 200 /
      (input.metadata.tickValue * input.metadata.minVolume) =
        ((5 * (n * m) : ℤ) : ℚ) / ((v * w * 10 ^ 3 : ℕ) : ℚ) := by
    have hne : ((v * w : ℕ) : ℚ) ≠ 0 := by exact_mod_cast hvw.ne'
    rw [hbudgetUnits, hlossUnits]
    push_cast at hne ⊢
    field_simp
    norm_num
  rw [hloss, Decimal.floor, affordableTicks, Decimal.div, hquotient]
  congr 2
  refine (Significant.floor_ceil_truncate (by positivity) ?_ (by decide)).1
  rw [abs_of_nonneg (by positivity), Decimal.precision]
  have hcast : (5 * (n * m) : ℤ) < 10 ^ 38 := by exact_mod_cast hnm
  linarith

namespace OcoRiskEvaluatorOptions

variable {o : OcoRiskEvaluatorOptions} {metadata : SymbolMetadata}
  {equity setup affordable : Decimal}

/-- The stop at the affordable distance above the ask, whose costs `proposalConstraints`
    reserves. -/
def representative (o : OcoRiskEvaluatorOptions) (metadata : SymbolMetadata)
    (ask affordable : Decimal) : StopCostInput where
  metadata := metadata
  entryPrice := ask
  stopLoss := ask.plus affordable
  volume := metadata.minVolume
  adverseSlippagePoints := o.adverseSlippagePoints.getD 10

/-- The distance that a constraint gives, in terms of the costs of the representative stop. -/
structure CostedAt (o : OcoRiskEvaluatorOptions) (metadata : SymbolMetadata)
    (ask equity setup affordable distance commission : Decimal) : Prop where
  askText : isDecimalText ask
  affordableEq : affordable = affordableTicks metadata equity setup * metadata.tickSize
  checked : (o.representative metadata ask affordable).Checked
  charged : oneWayCommission metadata
    ((ask + affordable).plus (metadata.tickSize.times (o.adverseSlippagePoints.getD 10)))
    metadata.minVolume = .ok commission
  nonneg : 0 ≤ commission ∧ 0 ≤ affordable
  le : distance ≤ affordable
  fits : distance / metadata.tickSize * (metadata.tickValue * metadata.minVolume) +
    (o.representative metadata ask affordable).costs commission affordable ≤ equity * setup / 200

/-- Whole ticks of loss within what the reserve leaves of a budget. -/
theorem ticks_fit {budget reserve unit tick : Decimal} (hunit : 0 < unit) (htick : 0 < tick)
    (hreserve : 0 ≤ reserve) (hone : 1 ≤ ((budget.minus reserve).div unit).floor) :
    Decimal.times ((budget.minus reserve).div unit).floor tick / tick * unit + reserve ≤ budget ∧
    Decimal.times ((budget.minus reserve).div unit).floor tick ≤ ⌊budget / unit⌋ * tick := by
  rw [Decimal.floor] at hone ⊢
  set ticks := ⌊(budget.minus reserve).div unit⌋
  have hquotient : (ticks : ℚ) ≤ (budget.minus reserve).div unit := Int.floor_le _
  have hquotientNonneg : 0 ≤ budget.minus reserve / unit :=
    Significant.nonneg_of_truncate_nonneg (by decide) (le_trans (by linarith) hquotient)
  have hticks := hquotient.trans (Decimal.div_le hquotientNonneg)
  rw [le_div_iff₀ hunit] at hticks
  have hleft : 0 ≤ budget - reserve := by
    refine Significant.nonneg_of_truncate_nonneg (by decide) (le_trans ?_ hticks)
    exact mul_nonneg (by linarith) hunit.le
  have hspent : ticks * unit ≤ budget - reserve := hticks.trans (truncate_le hleft)
  have htimes : (ticks : Decimal).times tick ≤ ticks * tick :=
    Decimal.times_le (mul_nonneg (by linarith) htick.le)
  constructor
  · have hsteps : (ticks : Decimal).times tick / tick ≤ ticks := by
      rwa [div_le_iff₀ htick]
    linarith [mul_le_mul_of_nonneg_right hsteps hunit.le]
  · have hmost : ticks ≤ ⌊budget / unit⌋ := by
      rw [Int.le_floor, le_div_iff₀ hunit]
      linarith
    have hcast : (ticks : ℚ) ≤ ⌊budget / unit⌋ := by exact_mod_cast hmost
    exact htimes.trans (mul_le_mul_of_nonneg_right hcast htick.le)

theorem costedStop_ok {account : AccountState} {quote : Quote} {distance : Decimal}
    (ha : Affords metadata account.equity setup affordable) (hread : o.effectiveRisk 1 = .ok setup)
    (h : o.costedStop account metadata quote affordable = .ok distance) : ∃ commission,
      CostedAt o metadata quote.ask account.equity setup affordable distance commission := by
  simp only [costedStop, hread, bind_ok, decimal_ok, require_ok, pure_ok] at h
  obtain ⟨_, ⟨rfl, hask⟩, _, ⟨rfl, haffordable⟩, reserve, hreserve, _, ⟨rfl, -⟩, _, hsetup, _,
    ⟨rfl, -⟩, _, ⟨rfl, -⟩, _, hone, _, ⟨rfl, -⟩, rfl⟩ := h
  cases hsetup
  obtain ⟨hchecked, -, hstop, commission, hcommission, rfl⟩ :=
    (StopCostInput.stopCostReserve_iff _).mp hreserve
  obtain ⟨hdistanceNonneg, hdistanceLt⟩ := text_bounds haffordable
  have hplus := plus_texts hask haffordable
  have hminus : |quote.ask.minus (quote.ask.plus affordable)| = affordable := by
    have hexact : quote.ask.minus (quote.ask + affordable) = -affordable := by
      rw [Decimal.minus, sub_add_cancel_left, Significant.truncate_neg,
        (text_inPlaces haffordable).truncate_eq (by rw [abs_of_nonneg hdistanceNonneg]; linarith)]
    rw [hplus, hexact, abs_neg, abs_of_nonneg hdistanceNonneg]
  have hprice : (o.representative metadata quote.ask affordable).commissionPrice =
      (quote.ask + affordable).plus
        (metadata.tickSize.times (o.adverseSlippagePoints.getD 10)) := by
    simp only [StopCostInput.commissionPrice, representative, hplus, reduceCtorEq, if_false]
    rw [max_eq_right (le_add_of_nonneg_right hdistanceNonneg)]
  have hcommissionNonneg : 0 ≤ commission := by
    obtain ⟨f, hf, hnonneg, -, hvolume⟩ := oneWayCommission_spec hcommission
    rw [hf _ hvolume, Except.ok.injEq] at hcommission
    exact hcommission ▸ hnonneg _ hvolume.le
  have hcosts := StopCostInput.costs_nonneg _ hchecked hcommissionNonneg hdistanceNonneg
  have htick := ha.tick.2
  have hcommuted : affordable = ((affordableTicks metadata account.equity setup : ℤ) :
      Decimal).times metadata.tickSize := by
    rw [ha.distanceEq, Decimal.times, Decimal.times, mul_comm]
  have hexact : affordable = affordableTicks metadata account.equity setup * metadata.tickSize := by
    rw [hcommuted]
    refine (text_inPlaces ha.tick.1).intMul_eq ?_
    rw [← hcommuted, abs_of_nonneg hdistanceNonneg]
    linarith
  have hunit := mul_pos ha.tickValue.2 ha.minVolume.2
  rw [ha.budget, ha.loss, hminus] at hone
  rw [ha.budget, ha.loss, hminus]
  obtain ⟨hfits, hle⟩ := ticks_fit hunit htick hcosts hone
  exact ⟨commission, hask, hexact, hchecked, hprice ▸ hcommission,
    ⟨hcommissionNonneg, hdistanceNonneg⟩, hle.trans_eq hexact.symm, hfits⟩

end OcoRiskEvaluatorOptions

/-! ### A leg -/

namespace PositionRiskInput

variable (leg : PositionRiskInput)

/-- The stop of a leg at the minimum volume. -/
def minimumStop : StopCostInput where
  metadata := leg.metadata
  entryPrice := leg.entryPrice
  stopLoss := leg.stopLoss
  volume := leg.metadata.minVolume
  adverseSlippagePoints := leg.adverseSlippagePoints
  executionOrderType := leg.executionOrderType

/-- The highest price of a leg, with the slippage that its order type admits. -/
def highestPrice : Decimal :=
  max leg.entryPrice leg.stopLoss + (if leg.executionOrderType = some .limit then 0
    else leg.metadata.tickSize * leg.adverseSlippagePoints)

/-- The loss of the minimum volume at the stop, without costs. -/
def minimumLoss : Decimal :=
  leg.metadata.minVolume.times
    ((|leg.entryPrice.minus leg.stopLoss|.div leg.metadata.tickSize).times leg.metadata.tickValue)

end PositionRiskInput

section

variable {leg : PositionRiskInput} {t : PositionTerms}

/-- What the checks of the terms say about the stop. -/
theorem positionTerms_stop (h : positionTerms leg = .ok t) : isDecimalText leg.entryPrice ∧
    isDecimalText leg.stopLoss ∧ 0 < |leg.entryPrice.minus leg.stopLoss| ∧
    t.minVolume.times t.lossPerVolume = leg.minimumLoss := by
  simp only [positionTerms, bind_ok, decimal_ok, require_ok, pure_ok] at h
  obtain ⟨_, ⟨rfl, -⟩, _, ⟨rfl, -⟩, _, ⟨rfl, -⟩, _, ⟨rfl, -⟩, _, -, _, -, _, ⟨rfl, hentry⟩, _,
    ⟨rfl, hstop⟩, _, ⟨rfl, -⟩, _, ⟨rfl, -⟩, _, ⟨rfl, -⟩, _, ⟨rfl, -⟩, _, ⟨rfl, -⟩, _, -, _,
    ⟨rfl, -⟩, _, -, _, ⟨rfl, -⟩, _, -, _, hdistance, _, -, rfl⟩ := h
  exact ⟨hentry, hstop, hdistance.1, rfl⟩

/-- The loss of the minimum volume, as the sizing computes it. -/
theorem minimumLoss_iff (h : positionTerms leg = .ok t) {loss : Decimal} :
    totalLoss leg t t.minVolume = .ok loss ↔ leg.minimumStop.Checked ∧ ∃ commission,
      oneWayCommission leg.metadata leg.minimumStop.commissionPrice leg.metadata.minVolume =
        .ok commission ∧
      loss = leg.minimumLoss.plus
        (leg.minimumStop.costs commission |leg.entryPrice.minus leg.stopLoss|) := by
  have ht := positionTerms_of h
  obtain ⟨hentry, hstop, -, hloss⟩ := positionTerms_stop h
  have htotal : totalLoss leg t t.minVolume = (do
      let reserve ← stopCostReserve leg.minimumStop
      return leg.minimumLoss.plus reserve) := by
    rw [totalLoss, hloss, ht.minVolume.1]
    rfl
  simp only [htotal, bind_ok, pure_ok, StopCostInput.stopCostReserve_iff]
  constructor
  · rintro ⟨_, ⟨hchecked, -, -, commission, hcommission, rfl⟩, rfl⟩
    exact ⟨hchecked, commission, hcommission, rfl⟩
  · rintro ⟨hchecked, commission, hcommission, rfl⟩
    exact ⟨_, ⟨hchecked, hentry, hstop, commission, hcommission, rfl⟩, rfl⟩

/-- Whole slippage points are exact, or beyond every price. -/
theorem slippage_eq {tick points : Decimal} (htick : isDecimalText tick ∧ 0 < tick)
    (hpoints : points.isInteger ∧ 0 < points) :
    tick.times points = tick * points ∨ 10 ^ 30 ≤ tick.times points := by
  rw [Decimal.isInteger, decide_eq_true_eq] at hpoints
  have hcast := Rat.coe_int_num_of_den_eq_one hpoints.1
  have hnonneg := nonneg_times htick.2.le hpoints.2.le
  rcases lt_or_ge (tick.times points) (10 ^ 30) with hlt | hge
  · left
    rw [Decimal.times, mul_comm, ← hcast] at hlt hnonneg ⊢
    refine ((text_inPlaces htick.1).intMul_eq (n := points.num) ?_)
    rwa [Decimal.times, abs_of_nonneg hnonneg]
  · exact .inr hge

/-- A leg whose highest price is not above the representative one pays no higher commission. -/
theorem commissionPrice_le {price : Decimal} (h : positionTerms leg = .ok t)
    (hchecked : leg.minimumStop.Checked) (hnonneg : 0 ≤ price)
    (hprice : leg.highestPrice ≤ price + leg.metadata.tickSize * leg.adverseSlippagePoints) :
    0 < leg.minimumStop.commissionPrice ∧ leg.minimumStop.commissionPrice ≤
      price.plus (leg.metadata.tickSize.times leg.adverseSlippagePoints) := by
  obtain ⟨hentry, hstop, hdistance, -⟩ := positionTerms_stop h
  obtain ⟨hentryNonneg, -⟩ := text_bounds hentry
  obtain ⟨hstopNonneg, -⟩ := text_bounds hstop
  have hmaxText : isDecimalText (max leg.entryPrice leg.stopLoss) := by
    rcases max_choice leg.entryPrice leg.stopLoss with hmax | hmax <;> rw [hmax]
    · exact hentry
    · exact hstop
  have hmaxPos : 0 < max leg.entryPrice leg.stopLoss := by
    by_contra hzero
    rw [not_lt, max_le_iff] at hzero
    rw [le_antisymm hzero.1 hentryNonneg, le_antisymm hzero.2 hstopNonneg, Decimal.minus, sub_zero,
      Significant.truncate_zero, abs_zero] at hdistance
    exact lt_irrefl 0 hdistance
  have hmaxLt := (text_bounds hmaxText).2
  have hslip := nonneg_times hchecked.tick.2.le hchecked.points.2.2.le
  have hfits {x : Decimal} : max leg.entryPrice leg.stopLoss ≤ Significant.truncate 40 x ↔
      max leg.entryPrice leg.stopLoss ≤ x :=
    (text_fits hmaxText).le_truncate_iff (by decide) hmaxPos.le
  have hexact := slippage_eq hchecked.tick hchecked.points.2
  have hcommissionPrice : leg.minimumStop.commissionPrice = (max leg.entryPrice leg.stopLoss).plus
      (if leg.executionOrderType = some .limit then 0
        else leg.metadata.tickSize.times leg.adverseSlippagePoints) := rfl
  simp only [PositionRiskInput.minimumStop] at hslip hexact
  rw [PositionRiskInput.highestPrice] at hprice
  rw [hcommissionPrice]
  split at hprice
  · next hlimit =>
    have hplus : (max leg.entryPrice leg.stopLoss).plus 0 = max leg.entryPrice leg.stopLoss := by
      rw [Decimal.plus, add_zero]
      exact (text_fits hmaxText).truncate_eq
    rw [if_pos hlimit, hplus]
    refine ⟨hmaxPos, hfits.mpr ?_⟩
    rcases hexact with heq | hlarge
    · rw [heq]
      linarith
    · have hbig : (10 : ℚ) ^ 16 < 10 ^ 30 := by norm_num
      linarith
  · next hlimit =>
    rw [if_neg hlimit]
    refine ⟨hmaxPos.trans_le (hfits.mpr (le_add_of_nonneg_right hslip)), ?_⟩
    exact plus_mono (add_nonneg hmaxPos.le hslip) (by linarith)

namespace OcoRiskEvaluatorOptions

variable {o : OcoRiskEvaluatorOptions} {metadata : SymbolMetadata} {account : AccountState}

/-- A leg that the constraint is about: its account, symbol and slippage, and a percent. -/
structure LegOf (o : OcoRiskEvaluatorOptions) (account : AccountState) (metadata : SymbolMetadata)
    (leg : PositionRiskInput) : Prop where
  equityEq : leg.equity = account.equity
  metadataEq : leg.metadata = metadata
  pointsEq : leg.adverseSlippagePoints = o.adverseSlippagePoints.getD 10

theorem CostedAt.minimumStop_checked {ask setup affordable distance commission : Decimal}
    (hc : CostedAt o metadata ask account.equity setup affordable distance commission)
    (hleg : o.LegOf account metadata leg) : leg.minimumStop.Checked := by
  obtain ⟨-, rfl, hpoints⟩ := hleg
  obtain ⟨htick, hpointsText, hvolume, hvalue, hfee⟩ := hc.checked
  have hsame : leg.minimumStop.adverseSlippagePoints = o.adverseSlippagePoints.getD 10 := hpoints
  exact ⟨htick, hsame ▸ hpointsText, hvolume, hvalue, hfee⟩

/-- A stop within the distance of the constraint is affordable at the minimum volume where the leg
    is sized at half of the setup percent and its highest price is not above the representative
    one. -/
theorem minimumLoss_le {ask setup affordable distance commission : Decimal}
    (ha : Affords metadata account.equity setup affordable)
    (hc : CostedAt o metadata ask account.equity setup affordable distance commission)
    (hleg : o.LegOf account metadata leg) (h : positionTerms leg = .ok t)
    (hpercent : 2 * leg.baseRiskPercent = setup)
    (hdistance : |leg.entryPrice - leg.stopLoss| ≤ distance)
    (hprice : leg.highestPrice ≤ ask + affordableTicks metadata account.equity setup *
      metadata.tickSize + metadata.tickSize * o.adverseSlippagePoints.getD 10) :
    ∃ loss, totalLoss leg t t.minVolume = .ok loss ∧ loss ≤ t.riskBudget := by
  have ht := positionTerms_of h
  obtain ⟨hentry, hstop, hpos, -⟩ := positionTerms_stop h
  have hchecked := hc.minimumStop_checked hleg
  obtain ⟨hequity, rfl, hpoints⟩ := hleg
  rw [← hc.affordableEq, ← hpoints] at hprice
  have hask := (text_bounds hc.askText).1
  obtain ⟨hpricePos, hpriceLe⟩ :=
    commissionPrice_le h hchecked (add_nonneg hask hc.nonneg.2) hprice
  have hcharged := hc.charged
  rw [← hpoints] at hcharged
  obtain ⟨commission', hcommission', hnonneg', hle'⟩ :=
    oneWayCommission_price hcharged hpricePos hpriceLe
  refine ⟨_, (minimumLoss_iff h).mpr ⟨hchecked, commission', hcommission', rfl⟩, ?_⟩
  have htick := ha.tick.2
  have hvalue := ha.tickValue.2.le
  have hvolume := ha.minVolume.2.le
  rw [← minus_texts hentry hstop] at hdistance
  have hticks := nonneg_div hpos.le htick.le
  have hloss : leg.minimumLoss ≤ distance / leg.metadata.tickSize *
      (leg.metadata.tickValue * leg.metadata.minVolume) := by
    rw [PositionRiskInput.minimumLoss]
    calc _ ≤ leg.metadata.minVolume * ((|leg.entryPrice.minus leg.stopLoss|.div
          leg.metadata.tickSize).times leg.metadata.tickValue) :=
          Decimal.times_le (mul_nonneg hvolume (nonneg_times hticks hvalue))
      _ ≤ leg.metadata.minVolume * (|leg.entryPrice.minus leg.stopLoss|.div
          leg.metadata.tickSize * leg.metadata.tickValue) :=
        mul_le_mul_of_nonneg_left (Decimal.times_le (mul_nonneg hticks hvalue)) hvolume
      _ ≤ leg.metadata.minVolume * (distance / leg.metadata.tickSize * leg.metadata.tickValue) := by
        refine mul_le_mul_of_nonneg_left (mul_le_mul_of_nonneg_right ?_ hvalue) hvolume
        exact (Decimal.div_le (div_nonneg hpos.le htick.le)).trans
          (div_le_div_of_nonneg_right hdistance htick.le)
      _ = _ := by ring
  have hcosts : leg.minimumStop.costs commission' |leg.entryPrice.minus leg.stopLoss| ≤
      (o.representative leg.metadata ask affordable).costs commission affordable := by
    have hmono := leg.minimumStop.costs_mono hchecked hnonneg' hle' hpos.le
      (hdistance.trans hc.le)
    simp only [StopCostInput.costs, PositionRiskInput.minimumStop, representative, hpoints]
      at hmono ⊢
    exact hmono
  have hcostsNonneg := leg.minimumStop.costs_nonneg hchecked hnonneg' hpos.le
  have hlossNonneg : 0 ≤ leg.minimumLoss := nonneg_times hvolume (nonneg_times hticks hvalue)
  rw [(riskBudget_exact ht).1, hequity]
  calc _ ≤ leg.minimumLoss +
        leg.minimumStop.costs commission' |leg.entryPrice.minus leg.stopLoss| :=
        truncate_le (add_nonneg hlossNonneg hcostsNonneg)
    _ ≤ account.equity * setup / 200 := (add_le_add hloss hcosts).trans hc.fits
    _ = account.equity * leg.baseRiskPercent / 100 := by
      rw [← hpercent]
      ring

end OcoRiskEvaluatorOptions

end

/-! ### Refusals at the minimum volume -/

/-- The reasons with which the sizing says that the minimum volume loses too much. -/
def belowMinimum : List String := ["RISK_COSTS_VOLUME_BELOW_MIN", "RISK_VOLUME_BELOW_MIN"]

section

variable {reasons : List String}

theorem avoids_decimal {a : Decimal} {reason : String} (h : reason ∉ reasons) :
    Avoids reasons (decimal a reason) := by
  intro other hmem hother
  rw [decimal_error] at hother
  exact h (hother.2 ▸ hmem)

theorem positionTerms_avoids (leg : PositionRiskInput) :
    Avoids belowMinimum (positionTerms leg) := by
  repeat' first
    | refine Avoids.bind ?_ fun _ => ?_
    | exact avoids_decimal (by decide)
    | exact avoids_require (by decide)
    | exact avoids_pure

theorem oneWayCommission_avoids (metadata : SymbolMetadata) (price volume : Decimal) :
    Avoids belowMinimum (oneWayCommission metadata price volume) := by
  have hminimum : Avoids belowMinimum (minimumCommissionInAccountCurrency metadata) := by
    refine Avoids.bind (avoids_decimal (by decide)) fun _ => ?_
    split
    · exact avoids_pure
    · split
      · exact Avoids.bind (avoids_decimal (by decide)) fun _ => avoids_pure
      · split
        · exact avoids_pure
        · intro reason hmem hother
          cases hother
          revert hmem
          decide
  repeat' first
    | exact hminimum
    | refine Avoids.bind ?_ fun _ => ?_
    | exact avoids_decimal (by decide)
    | exact avoids_require (by decide)
    | exact avoids_pure

theorem totalLoss_avoids (leg : PositionRiskInput) (t : PositionTerms) (volume : Decimal) :
    Avoids belowMinimum (totalLoss leg t volume) := by
  refine Avoids.bind ?_ fun _ => avoids_pure
  repeat' first
    | exact oneWayCommission_avoids _ _ _
    | refine Avoids.bind ?_ fun _ => ?_
    | exact avoids_decimal (by decide)
    | exact avoids_require (by decide)
    | exact avoids_pure

theorem searchStep_avoids {fits : ℕ → Except String Bool} (h : ∀ k, Avoids reasons (fits k))
    (low high : ℕ) : Avoids reasons (searchStep fits low high) := by
  fun_induction searchStep fits low high with
  | case1 low high hlt mid ihTrue ihFalse =>
    refine Avoids.bind (h _) fun fit => ?_
    split
    · exact ihTrue
    · exact ihFalse
  | case2 => exact avoids_pure

theorem normalizedByRisk_belowMinimum {leg : PositionRiskInput} {t : PositionTerms}
    {reason : String} (hmem : reason ∈ belowMinimum) (h : normalizedByRisk leg t = .error reason) :
    t.rawVolume < t.minVolume := by
  rw [normalizedByRisk, bind_error, require_error, not_le] at h
  rcases h with ⟨hraw, -⟩ | ⟨_, -, h⟩
  · exact hraw
  · have havoids (limit : Decimal) : Avoids belowMinimum (notionalVolume t limit) := by
      rw [notionalVolume]
      dsimp only
      split
      · exact avoids_ok
      · exact Avoids.bind (avoids_require (by decide)) fun _ => avoids_pure
    cases hlimit : leg.maxPositionNotional with
    | none =>
      simp only [hlimit] at h
      cases h
    | some limit =>
      simp only [hlimit] at h
      exact absurd h (Avoids.bind (avoids_decimal (by decide)) (fun _ =>
        Avoids.bind (havoids _) fun _ => avoids_pure) reason hmem)

theorem costedVolume_belowMinimum {leg : PositionRiskInput} {t : PositionTerms}
    {normalized : Option Decimal} {reason : String} (hmem : reason ∈ belowMinimum)
    (h : costedVolume leg t normalized = .error reason) :
    ∃ loss, totalLoss leg t t.minVolume = .ok loss ∧ t.riskBudget < loss := by
  rw [costedVolume, bind_error] at h
  rcases h with h | ⟨loss, hloss, h⟩
  · exact absurd h (totalLoss_avoids leg t _ reason hmem)
  rw [bind_error, require_error, not_le] at h
  rcases h with ⟨hexceeds, -⟩ | ⟨_, -, h⟩
  · exact ⟨loss, hloss, hexceeds⟩
  · refine absurd h (Avoids.bind (searchStep_avoids (fun k => ?_) _ _) (fun _ => avoids_pure) reason
      hmem)
    exact Avoids.bind (totalLoss_avoids leg t _) fun _ => avoids_pure

/-- The sizing gives such a reason only where the minimum volume exceeds the raw volume, or its loss
    with costs the budget. -/
theorem sizeVolume_belowMinimum {leg : PositionRiskInput} {reason : String}
    (hmem : reason ∈ belowMinimum) (h : sizeVolume leg = .error reason) :
    ∃ t, positionTerms leg = .ok t ∧ (t.rawVolume < t.minVolume ∨
      ∃ loss, totalLoss leg t t.minVolume = .ok loss ∧ t.riskBudget < loss) := by
  rw [sizeVolume, bind_error] at h
  rcases h with h | ⟨t, hterms, h⟩
  · exact absurd h (positionTerms_avoids leg reason hmem)
  refine ⟨t, hterms, ?_⟩
  rw [bind_error] at h
  rcases h with h | ⟨_, -, h⟩
  · exact .inl (normalizedByRisk_belowMinimum hmem h)
  rw [bind_error] at h
  rcases h with h | ⟨m, -, h⟩
  · refine absurd h (Avoids.bind ?_ (fun _ => ?_) reason hmem)
    · exact avoids_decimal (by decide)
    · repeat' first
        | refine Avoids.bind ?_ fun _ => ?_
        | exact avoids_decimal (by decide)
        | exact avoids_require (by decide)
        | exact avoids_pure
  rw [bind_error] at h
  rcases h with h | ⟨_, -, h⟩
  · exact absurd h (Avoids.bind (avoids_require (by decide)) (fun _ => avoids_pure) reason hmem)
  rw [bind_error] at h
  rcases h with h | ⟨normalized, -, h⟩
  · exact .inr (costedVolume_belowMinimum hmem h)
  refine absurd h (Avoids.bind (totalLoss_avoids leg t _) (fun _ => ?_) reason hmem)
  refine Avoids.bind (avoids_require (by decide)) fun _ => Avoids.bind ?_ fun _ => avoids_pure
  refine Avoids.bind (avoids_require (by decide)) fun _ => Avoids.bind (avoids_require (by decide))
    fun _ => Avoids.bind (avoids_require (by decide)) fun _ => ?_
  split
  · exact avoids_pure
  · exact Avoids.bind (avoids_decimal (by decide)) fun _ => avoids_require (by decide)

end

/-- The sizing does not refuse a leg for the loss of the minimum volume. -/
def NeverBelowMinimum (leg : PositionRiskInput) : Prop :=
  ∀ reason ∈ belowMinimum, reason ∉ (sizePosition leg).reasonCodes

/-- Half of the percent, as the leg is sized with it, pays the loss of the minimum volume at the
    stop, with twice the commission at the leg's own highest price, the slippage points and the
    conversion fee. -/
def PositionRiskInput.MinimumFits (leg : PositionRiskInput) : Prop :=
  ∃ commission, oneWayCommission leg.metadata leg.minimumStop.commissionPrice
      leg.metadata.minVolume = .ok commission ∧
    leg.minimumLoss.plus (leg.minimumStop.costs commission |leg.entryPrice.minus leg.stopLoss|) ≤
      leg.equity * leg.baseRiskPercent / 100

theorem neverBelowMinimum_of_loss {leg : PositionRiskInput}
    (h : ∀ t, positionTerms leg = .ok t → ∃ loss, totalLoss leg t t.minVolume = .ok loss ∧
      loss ≤ t.riskBudget) : NeverBelowMinimum leg := by
  intro reason hmem hreason
  cases hsize : sizeVolume leg with
  | ok decision =>
    have hnone : decision.reasonCodes = [] := by
      simp only [sizeVolume, bind_ok, pure_ok] at hsize
      obtain ⟨_, -, _, -, _, -, _, -, _, -, _, -, _, -, _, -, rfl⟩ := hsize
      rfl
    rw [sizePosition, hsize, hnone] at hreason
    exact absurd hreason List.not_mem_nil
  | error other =>
    rw [sizePosition, hsize] at hreason
    simp only [rejectPosition, List.mem_singleton] at hreason
    subst hreason
    obtain ⟨t, hterms, hexceeds⟩ := sizeVolume_belowMinimum hmem hsize
    have ht := positionTerms_of hterms
    obtain ⟨loss, hloss, hle⟩ := h t hterms
    rcases hexceeds with hraw | ⟨loss', hloss', hlt⟩
    · obtain ⟨f, hf, -, hcosts, htext, hpos⟩ := totalLoss_spec ht hloss
      obtain ⟨costs, hmore, hsum⟩ := hcosts _ (unit_le htext hpos)
      rw [hf _ htext hpos, Except.ok.injEq] at hloss
      have hfits := le_rawVolume ht htext hmore (by rw [← hsum, hloss]; exact hle)
      exact absurd hfits (not_le.mpr hraw)
    · rw [hloss, Except.ok.injEq] at hloss'
      exact absurd (hloss' ▸ hle) (not_le.mpr hlt)

/-- A sizing that comes to a volume has paid the loss of the minimum volume. -/
theorem minimumFits_of_size {leg : PositionRiskInput} {decision : PositionRiskDecision}
    (h : sizeVolume leg = .ok decision) : leg.MinimumFits := by
  simp only [sizeVolume, bind_ok, require_ok, pure_ok] at h
  obtain ⟨t, hterms, _, -, _, -, _, -, _, hcosted, -⟩ := h
  simp only [costedVolume, bind_ok, require_ok] at hcosted
  obtain ⟨loss, hloss, -, hle, -⟩ := hcosted
  obtain ⟨-, commission, hcommission, rfl⟩ := (minimumLoss_iff hterms).mp hloss
  rw [(riskBudget_exact (positionTerms_of hterms)).1] at hle
  exact ⟨commission, hcommission, hle⟩

namespace OcoRiskEvaluatorOptions

variable {o : OcoRiskEvaluatorOptions}

theorem proposalConstraints_ok {account : AccountState} {metadata : SymbolMetadata} {quote : Quote}
    {setup distance : Decimal} {constraint : StopConstraint}
    (hfirst : o.effectiveRisk 0 = .ok setup) (hsecond : o.effectiveRisk 1 = .ok setup)
    (h : o.proposalConstraints account metadata (some quote) = .ok constraint)
    (hdistance : constraint.maxStopDistance = some distance) : ∃ affordable commission,
      Affords metadata account.equity setup affordable ∧
      CostedAt o metadata quote.ask account.equity setup affordable distance commission := by
  rw [proposalConstraints] at h
  split at h
  · cases h
    cases hdistance
  · rw [hfirst, ok_bind, maximumAffordableStopDistance] at h
    cases hstop : affordableStop ⟨account.equity, setup, o.maxRiskPercent, metadata⟩ with
    | error reason =>
      rw [hstop] at h
      cases h
      cases hdistance
    | ok affordable =>
      rw [hstop] at h
      dsimp only at h
      cases hcosted : o.costedStop account metadata quote affordable with
      | error reason =>
        rw [hcosted] at h
        cases h
        cases hdistance
      | ok costed =>
        rw [hcosted] at h
        cases h
        cases hdistance
        have ha := affordableStop_ok hstop
        obtain ⟨commission, hc⟩ := costedStop_ok ha hsecond hcosted
        exact ⟨affordable, commission, ha, hc⟩

/-- A leg of the account and the symbol, sized at half of the setup percent, whose proposal the
    semantic checks admit with a distance as the longest that is affordable. -/
structure AdmittedLeg (o : OcoRiskEvaluatorOptions) (account : AccountState)
    (metadata : SymbolMetadata) (quote : Quote) (setup distance : Decimal) (side : OrderSide)
    (proposal : Model.Proposal) (context : Model.SemanticContext) (leg : PositionRiskInput) :
    Prop extends o.LegOf account metadata leg where
  type : leg.executionOrderType = o.executionOrderType
  prices : leg.entryPrice = proposal.entryPrice ∧ leg.stopLoss = proposal.stopLoss
  percent : leg.baseRiskPercent = legPercent setup ∨ leg.baseRiskPercent = setup.div 2
  contextQuote : context.quote = quote
  contextMetadata : context.metadata = metadata
  affordable : context.maxAffordableStopDistance = some distance
  admitted : Model.checkLeg side proposal context = .ok []

/-- The price of the representative stop: half of the setup risk in ticks above the ask, and the
    slippage. -/
def representativePrice (o : OcoRiskEvaluatorOptions) (account : AccountState)
    (metadata : SymbolMetadata) (quote : Quote) (setup : Decimal) : Decimal :=
  quote.ask + affordableTicks metadata account.equity setup * metadata.tickSize +
    metadata.tickSize * o.adverseSlippagePoints.getD 10

/-- When a leg with a stop that the model was told it may use is not refused for the loss of the
    minimum volume: exactly when the minimum volume with the commission of the leg's own prices fits
    its percent, for a leg that nothing else refuses. That is so wherever the half percent is not
    rounded and the highest price of the leg is not above the one at which the distance was found;
    a sell stop and a buy limit never are. -/
theorem affordable_iff {account : AccountState} {metadata : SymbolMetadata} {quote : Quote}
    {setup distance : Decimal} {constraint : StopConstraint} {side : OrderSide}
    {proposal : Model.Proposal} {context : Model.SemanticContext} {leg : PositionRiskInput}
    (hfirst : o.effectiveRisk 0 = .ok setup) (hsecond : o.effectiveRisk 1 = .ok setup)
    (hconstraint : o.proposalConstraints account metadata (some quote) = .ok constraint)
    (hdistance : constraint.maxStopDistance = some distance)
    (hleg : o.AdmittedLeg account metadata quote setup distance side proposal context leg) :
    (leg.MinimumFits → NeverBelowMinimum leg) ∧
    ((∀ reason ∈ (sizePosition leg).reasonCodes, reason ∈ belowMinimum) →
      (NeverBelowMinimum leg ↔ leg.MinimumFits)) ∧
    (2 * leg.baseRiskPercent = setup →
      leg.highestPrice ≤ o.representativePrice account metadata quote setup →
      NeverBelowMinimum leg) ∧
    (quote.bid ≤ quote.ask →
      (side = .sell ∧ context.entryBrackets = .stop) ∨
        (side = .buy ∧ context.entryBrackets = .limit) →
      leg.highestPrice ≤ o.representativePrice account metadata quote setup) := by
  obtain ⟨affordable, commission, ha, hc⟩ :=
    proposalConstraints_ok hfirst hsecond hconstraint hdistance
  obtain ⟨minDistance, hadmitted⟩ := Model.checkLeg_admitted hleg.admitted
  obtain ⟨hentryEq, hstopEq⟩ := hleg.prices
  have hstop : |leg.entryPrice - leg.stopLoss| ≤ distance := by
    have hle := hadmitted.affordable distance hleg.affordable
    rwa [minus_texts hadmitted.entry hadmitted.stop, ← hentryEq, ← hstopEq] at hle
  have hfits : leg.MinimumFits → NeverBelowMinimum leg := by
    rintro ⟨charged, hcharged, hle⟩
    refine neverBelowMinimum_of_loss fun t hterms => ?_
    rw [← (riskBudget_exact (positionTerms_of hterms)).1] at hle
    exact ⟨_, (minimumLoss_iff hterms).mpr ⟨hc.minimumStop_checked hleg.toLegOf, charged, hcharged,
      rfl⟩, hle⟩
  refine ⟨hfits, fun hother => ⟨fun hnever => ?_, hfits⟩, fun hpercent hprice => ?_,
    fun hquote hside => ?_⟩
  · cases hsize : sizeVolume leg with
    | ok decision => exact minimumFits_of_size hsize
    | error reason =>
      have hreason : reason ∈ (sizePosition leg).reasonCodes := by
        rw [sizePosition, hsize]
        exact List.mem_singleton_self reason
      exact absurd hreason (hnever reason (hother reason hreason))
  · refine neverBelowMinimum_of_loss fun t hterms => ?_
    exact minimumLoss_le ha hc hleg.toLegOf hterms hpercent hstop hprice
  · have hbid := (text_bounds hadmitted.bid).1
    rw [hleg.contextQuote] at hbid
    have hslip : 0 ≤ metadata.tickSize * o.adverseSlippagePoints.getD 10 :=
      mul_nonneg ha.tick.2.le hc.checked.points.2.2.le
    have hhighest : leg.highestPrice ≤ max leg.entryPrice leg.stopLoss +
        metadata.tickSize * o.adverseSlippagePoints.getD 10 := by
      rw [PositionRiskInput.highestPrice, hleg.metadataEq, hleg.pointsEq]
      split <;> linarith
    have hle := hc.le
    have hnonneg := hc.nonneg.2
    rw [representativePrice, ← hc.affordableEq]
    rcases hside with ⟨rfl, hbrackets⟩ | ⟨rfl, hbrackets⟩
    · obtain ⟨horder, hentry⟩ := hadmitted.sellStop rfl hbrackets
      have hminDistance : 0 ≤ minDistance := by
        have htick := hadmitted.distance
        rw [hleg.contextMetadata] at htick
        exact ha.tick.2.le.trans htick
      have hentryBid : leg.entryPrice ≤ quote.bid := by
        rw [hentryEq]
        refine hentry.trans ?_
        rw [hleg.contextQuote]
        rcases le_total 0 (quote.bid - minDistance) with hpos | hneg
        · exact (truncate_le hpos).trans (by linarith)
        · exact (Significant.truncate_nonpos hneg).trans hbid
      rw [hentryEq, hstopEq] at hstop hhighest
      rw [hentryEq] at hentryBid
      rw [max_eq_right horder.le] at hhighest
      rw [abs_sub_comm, abs_of_pos (sub_pos.mpr horder)] at hstop
      linarith
    · obtain ⟨horder, hentry⟩ := hadmitted.buyLimit rfl hbrackets
      rw [hleg.contextQuote] at hentry
      rw [hentryEq, hstopEq, max_eq_left horder.le] at hhighest
      linarith

end OcoRiskEvaluatorOptions

/-! ### An entry far above the ask -/

namespace AffordableSample

def metadata : SymbolMetadata :=
  { Sample.metadata with commission := ⟨.usdPerMillionUsd, 50, 0, .currency, "USD", 0⟩ }

def account : AccountState := ⟨none, true, 200, 200, 200, 0, 0, false, false, []⟩

def quote : Quote := ⟨19988 / 10, 19989 / 10, none, none⟩

def options : OcoRiskEvaluatorOptions where
  marginEstimator := fun _ _ _ volume => .ok volume
  baseRiskPercent := 1
  maxRiskPercent := 1
  maxMarginUsagePercent := 30
  maxPositionNotional := none
  strategyVersion := "1"

/-- A buy stop of seventy ticks. -/
def proposal (entry : Decimal) : Model.Proposal where
  entryPrice := entry
  stopLoss := entry - 7 / 10
  takeProfit := entry + 7 / 10
  expiresAt := some 600000
  triggerPrice := entry
  invalidationPrice := entry - 7 / 10
  riskRewardRatio := 1

def context : Model.SemanticContext where
  now := some 0
  quote := quote
  metadata := metadata
  atr := 10
  minRiskRewardRatio := 1
  minExpirySeconds := 60
  maxExpirySeconds := 900
  maxStopDistanceAtr := 3
  maxEntryDistanceAtr := some 1
  maxAffordableStopDistance := some (7 / 10)

def leg (entry : Decimal) : PositionRiskInput where
  equity := 200
  availableMargin := 100
  baseRiskPercent := 1 / 2
  maxRiskPercent := 1
  entryPrice := entry
  stopLoss := entry - 7 / 10
  estimatedMarginPerVolume := 1
  currentMargin := 0
  maxMarginUsagePercent := 30
  maxPositionNotional := none
  metadata := metadata

theorem admittedLeg (entry : Decimal)
    (h : Model.checkLeg .buy (proposal entry) context = .ok []) :
    options.AdmittedLeg account metadata quote 1 (7 / 10) .buy (proposal entry) context
      (leg entry) where
  equityEq := rfl
  metadataEq := rfl
  pointsEq := rfl
  type := rfl
  prices := ⟨rfl, rfl⟩
  percent := .inl (by decide +kernel : (1 / 2 : Decimal) = legPercent 1)
  contextQuote := rfl
  contextMetadata := rfl
  affordable := rfl
  admitted := h

end AffordableSample

/-- Seventy ticks are affordable below the price of the representative stop. -/
theorem affordable_iff_near : NeverBelowMinimum (AffordableSample.leg (19995 / 10)) := by
  open AffordableSample in
  have hconstraint : options.proposalConstraints account metadata (some quote) =
      .ok ⟨true, [], some (7 / 10)⟩ := by decide +kernel
  have hadmitted : Model.checkLeg .buy (proposal (19995 / 10)) context = .ok [] := by
    decide +kernel
  exact (OcoRiskEvaluatorOptions.affordable_iff (by decide +kernel) (by decide +kernel) hconstraint
    rfl (admittedLeg _ hadmitted)).2.2.1 (by norm_num [leg]) (by decide +kernel)

/-- The checks admit the same stop of an entry six above the ask, and the sizing at half of the
    setup percent refuses it for the costs of the minimum volume. -/
theorem far_entry_refused : ∃ side proposal context leg,
    AffordableSample.options.effectiveRisk 0 = .ok 1 ∧
    AffordableSample.options.effectiveRisk 1 = .ok 1 ∧
    AffordableSample.options.proposalConstraints AffordableSample.account AffordableSample.metadata
      (some AffordableSample.quote) = .ok ⟨true, [], some (7 / 10)⟩ ∧
    AffordableSample.options.AdmittedLeg AffordableSample.account AffordableSample.metadata
      AffordableSample.quote 1 (7 / 10) side proposal context leg ∧
    "RISK_COSTS_VOLUME_BELOW_MIN" ∈ (sizePosition leg).reasonCodes :=
  ⟨.buy, AffordableSample.proposal 2005, AffordableSample.context, AffordableSample.leg 2005,
    by decide +kernel, by decide +kernel, by decide +kernel,
    AffordableSample.admittedLeg 2005 (by decide +kernel), by decide +kernel⟩

end ScalpingBot.Risk
