import Mathlib.Algebra.Order.Floor.Semifield
import ScalpingBot.Risk.ReportedPercent

/-! A pair of legs that loses its whole budget. One unit of volume costs, slippage included, exactly
    the percent of the equity that a leg may lose, so that any smaller percent is exceeded. -/

namespace ScalpingBot.Risk

/-- A number of the smallest units of a decimal text. -/
def units (n : ℕ) : Decimal := n / 10 ^ 10

theorem units_text {n : ℕ} (h : n < 10 ^ 26) : isDecimalText (units n) :=
  isDecimalText_iff.mpr ⟨n, h, rfl⟩

theorem nat_text {n : ℕ} (h : n < 10 ^ 16) : isDecimalText (n : ℚ) := by
  refine isDecimalText_iff.mpr ⟨n * 10 ^ 10, ?_, ?_⟩
  · omega
  · rw [Nat.cast_mul, Nat.cast_pow, Nat.cast_ofNat, mul_div_cancel_right₀ _ (by norm_num)]

theorem zero_text : isDecimalText 0 := by
  exact_mod_cast nat_text (n := 0) (by norm_num)

theorem one_text : isDecimalText 1 := by
  exact_mod_cast nat_text (n := 1) (by norm_num)

theorem two_text : isDecimalText 2 := by
  exact_mod_cast nat_text (n := 2) (by norm_num)

theorem unit_text : isDecimalText (units 1) := units_text (by norm_num)

/-- A configuration that can approve a pair, in whole smallest units, with the setup percent and the
    free margin with which it sizes one. -/
structure Tight (o : OcoRiskEvaluatorOptions) where
  setup : ℕ
  points : ℕ
  free : ℕ
  usage : ℕ
  two_le_setup : 2 ≤ setup
  setup_le : setup ≤ 5 * 10 ^ 10
  setup_le_max : units setup ≤ o.maxRiskPercent
  points_pos : 0 < points
  points_le : points ≤ 10 ^ 6
  two_le_free : 2 ≤ free
  free_lt : free < 10 ^ 26
  usage_pos : 0 < usage
  usage_le : usage ≤ 10 ^ 12
  max_text : isDecimalText o.maxRiskPercent
  max_le : o.maxRiskPercent ≤ 5
  points_eq : o.adverseSlippagePoints.getD 10 = points
  usage_eq : o.maxMarginUsagePercent = units usage
  notional : ∀ limit ∈ o.maxPositionNotional, ∃ n : ℕ, 0 < n ∧ n < 10 ^ 26 ∧ limit = units n

namespace Tight
variable {o : OcoRiskEvaluatorOptions} (z : Tight o)

/-- `perLegRisk`, in smallest units. -/
def percent : ℕ := z.setup / 2

/-- `perLegMargin`, in smallest units. -/
def margin : ℕ := min z.free ((1 + z.points) * z.usage) / 2

theorem percent_pos : 0 < z.percent := Nat.div_pos z.two_le_setup two_pos

theorem percent_le : z.percent ≤ 10 ^ 11 := by
  have hsetup := z.setup_le
  rw [percent]
  omega

theorem two_mul_percent_le : 2 * z.percent ≤ z.setup := Nat.mul_div_le z.setup 2

theorem two_le_usable : 2 ≤ (1 + z.points) * z.usage := by
  have hpoints : 2 ≤ 1 + z.points := by
    have := z.points_pos
    omega
  exact Nat.mul_le_mul hpoints z.usage_pos

theorem margin_pos : 0 < z.margin :=
  Nat.div_pos (le_min z.two_le_free z.two_le_usable) two_pos

theorem margin_lt : z.margin < 10 ^ 26 :=
  (Nat.div_le_self _ _).trans_lt ((min_le_left _ _).trans_lt z.free_lt)

theorem margin_le : z.margin ≤ (1 + z.points) * z.usage :=
  (Nat.div_le_self _ _).trans (min_le_right _ _)

theorem units_pos {n : ℕ} (h : 0 < n) : 0 < units n := by
  rw [units]
  positivity

theorem units_le {m n : ℕ} (h : m ≤ n) : units m ≤ units n := by
  have hcast : (m : ℚ) ≤ n := by exact_mod_cast h
  simp only [units]
  exact div_le_div_of_nonneg_right hcast (by positivity)

theorem percent_le_max : units z.percent ≤ o.maxRiskPercent :=
  (units_le (Nat.div_le_self _ _)).trans z.setup_le_max

def terms : PositionTerms where
  equity := (100 * (1 + z.points) : ℕ)
  availableMargin := units z.margin
  baseRisk := units z.percent
  entry := 2
  stop := 1
  tickSize := 1
  tickValue := units z.percent
  minVolume := 1
  maxVolume := 1
  volumeStep := 1
  volumeScale := units 1
  conversion := units 1

theorem stopDistance_eq : z.terms.stopDistance = 1 := by
  rw [PositionTerms.stopDistance, terms, Decimal.minus, Decimal.exact_nat 1 0] <;> norm_num

theorem lossPerVolume_eq : z.terms.lossPerVolume = units z.percent := by
  have hdiv : Decimal.div 1 1 = 1 := by
    rw [Decimal.div, Decimal.exact_nat 1 0] <;> norm_num
  have hpercent := z.percent_le
  rw [PositionTerms.lossPerVolume, stopDistance_eq]
  simp only [terms, hdiv, Decimal.times, one_mul]
  exact Decimal.exact_nat z.percent 10 rfl (by omega)

theorem riskBudget_eq : z.terms.riskBudget = units ((1 + z.points) * z.percent) := by
  have hle : (1 + z.points) * z.percent ≤ (1 + 10 ^ 6) * 10 ^ 11 :=
    Nat.mul_le_mul (by have := z.points_le; omega) z.percent_le
  have htimes : Decimal.times ((100 * (1 + z.points) : ℕ) : ℚ) (units z.percent) =
      100 * units ((1 + z.points) * z.percent) := by
    rw [Decimal.times, Decimal.exact_nat (100 * ((1 + z.points) * z.percent)) 10]
    · simp only [units]; push_cast; ring
    · simp only [units]; push_cast; ring
    · omega
  rw [PositionTerms.riskBudget]
  simp only [terms]
  rw [htimes, Decimal.div, mul_div_cancel_left₀ _ (by norm_num)]
  exact Decimal.exact_nat _ 10 rfl (by omega)

theorem rawVolume_eq : z.terms.rawVolume = ((1 + z.points : ℕ) : ℚ) := by
  have hpercent : (z.percent : ℚ) ≠ 0 := by exact_mod_cast z.percent_pos.ne'
  have hquot : units ((1 + z.points) * z.percent) / units z.percent = ((1 + z.points : ℕ) : ℚ) := by
    simp only [units]
    push_cast
    field_simp
  have hpoints := z.points_le
  rw [PositionTerms.rawVolume, riskBudget_eq, lossPerVolume_eq, Decimal.div, hquot]
  exact Decimal.exact_nat (1 + z.points) 0 (by norm_num) (by omega)

theorem aligned_eq {n : ℕ} (hpos : 0 < n) (hlt : n < 10 ^ 39) : z.terms.aligned n = n := by
  have hminus : Decimal.minus n 1 = ((n - 1 : ℕ) : ℚ) := by
    rw [Decimal.minus, Nat.cast_sub hpos, Nat.cast_one]
    refine Decimal.exact_nat (n - 1) 0 ?_ (by omega)
    rw [Nat.cast_sub hpos]
    norm_num
  have hdiv : Decimal.div ((n - 1 : ℕ) : ℚ) 1 = ((n - 1 : ℕ) : ℚ) := by
    rw [Decimal.div, div_one]
    exact Decimal.exact_nat (n - 1) 0 (by norm_num) (by omega)
  have htimes : Decimal.times ((n - 1 : ℕ) : ℚ) 1 = ((n - 1 : ℕ) : ℚ) := by
    rw [Decimal.times, mul_one]
    exact Decimal.exact_nat (n - 1) 0 (by norm_num) (by omega)
  have hplus : Decimal.plus 1 ((n - 1 : ℕ) : ℚ) = n := by
    have hsum : (1 : ℚ) + ((n - 1 : ℕ) : ℚ) = n := by
      rw [Nat.cast_sub hpos]
      norm_num
    rw [Decimal.plus, hsum]
    exact Decimal.exact_nat n 0 (by norm_num) (by omega)
  rw [PositionTerms.aligned]
  simp only [terms, hminus, hdiv, Decimal.floor, Int.floor_natCast, Int.cast_natCast, htimes, hplus]

def metadata : SymbolMetadata where
  symbolId := "1"
  symbolName := "XAUUSD"
  digits := 2
  pipPosition := 1
  pipSize := 1
  tickSize := 1
  tickValue := units z.percent
  baseAsset := "XAU"
  quoteAsset := "USD"
  accountAsset := "USD"
  quoteToAccountConversionRate := units 1
  contractSize := 1
  volumeScale := units 1
  minVolume := 1
  maxVolume := 1
  volumeStep := 1
  minStopDistance := 1
  commission := ⟨.usdPerMillionUsd, 0, 0, .currency, "USD", 0⟩
  metadataTime := none

def leg (baseRiskPercent availableMargin : Decimal) : PositionRiskInput where
  equity := (100 * (1 + z.points) : ℕ)
  availableMargin := availableMargin
  baseRiskPercent := baseRiskPercent
  maxRiskPercent := o.maxRiskPercent
  entryPrice := 2
  stopLoss := 1
  estimatedMarginPerVolume := units 1
  currentMargin := 0
  maxMarginUsagePercent := o.maxMarginUsagePercent
  maxPositionNotional := o.maxPositionNotional
  metadata := z.metadata
  adverseSlippagePoints := o.adverseSlippagePoints.getD 10
  executionOrderType := o.executionOrderType

theorem equity_text : isDecimalText ((100 * (1 + z.points) : ℕ) : ℚ) :=
  nat_text (by have := z.points_le; omega)

theorem percent_text : isDecimalText (units z.percent) :=
  units_text (by have := z.percent_le; omega)

theorem positionTerms_eq :
    positionTerms (z.leg (units z.percent) (units z.margin)) = .ok z.terms := by
  have hpercent := units_pos z.percent_pos
  have hunit : 0 < units 1 := units_pos one_pos
  have hequity : (0 : ℚ) < ((100 * (1 + z.points) : ℕ) : ℚ) := by positivity
  have hstop := z.stopDistance_eq
  have hloss := z.lossPerVolume_eq
  have h1 : isDecimalText 1 := one_text
  have h2 : isDecimalText 2 := two_text
  have hu : isDecimalText (units 1) := unit_text
  have hticks : (Decimal.div 1 1).isInteger := by
    rw [Decimal.div, div_one, Decimal.exact_nat 1 0 (by norm_num) (by norm_num)]
    rfl
  simp only [positionTerms, bind_ok, decimal_ok, require_ok, pure_ok]
  refine ⟨_, ⟨rfl, z.equity_text⟩, _, ⟨rfl, units_text z.margin_lt⟩, _, ⟨rfl, z.percent_text⟩, _,
    ⟨rfl, z.max_text⟩, (), hequity, (), ⟨hpercent, z.percent_le_max, z.max_le⟩, _, ⟨rfl, h2⟩, _,
    ⟨rfl, h1⟩, _, ⟨rfl, h1⟩, _, ⟨rfl, z.percent_text⟩, _, ⟨rfl, h1⟩, _, ⟨rfl, h1⟩, _, ⟨rfl, h1⟩, _,
    ⟨rfl, h1⟩, _, ⟨rfl, hu⟩, (), ⟨one_pos, hpercent, one_pos, one_pos, one_pos, one_pos, hunit⟩, _,
    ⟨rfl, hu⟩, (), ⟨hunit, le_rfl⟩, (), ⟨?_, ?_⟩, (), ?_, rfl⟩
  · exact hstop.symm ▸ one_pos
  · exact hstop.symm ▸ hticks
  · exact hloss.symm ▸ hpercent

theorem notionalPerVolume_eq :
    (z.terms.entry.times z.terms.volumeScale).times z.terms.conversion = 2 / 10 ^ 20 := by
  have hscale : Decimal.times 2 (units 1) = 2 / 10 ^ 10 := by
    rw [Decimal.times, Decimal.exact_nat 2 10] <;> norm_num [units]
  simp only [terms, hscale]
  rw [Decimal.times, Decimal.exact_nat 2 20] <;> norm_num [units]

theorem maximumAligned_eq : z.terms.maximumAligned = 1 := by
  have h := z.aligned_eq one_pos (by norm_num)
  rw [Nat.cast_one] at h
  exact h

theorem notionalVolume_eq {n : ℕ} (hpos : 0 < n) (hlt : n < 10 ^ 26) :
    notionalVolume z.terms (units n) = .ok (some 1) := by
  have hquot : (units n).div (2 / 10 ^ 20) = ((n * (5 * 10 ^ 9) : ℕ) : ℚ) := by
    have hexact : units n / (2 / 10 ^ 20) = ((n * (5 * 10 ^ 9) : ℕ) : ℚ) := by
      simp only [units]
      push_cast
      ring
    rw [Decimal.div, hexact]
    exact Decimal.exact_nat (n * (5 * 10 ^ 9)) 0 (by rw [pow_zero, div_one]) (by omega)
  have hraw : 1 ≤ n * (5 * 10 ^ 9) := by omega
  have hcast : (1 : ℚ) ≤ ((n * (5 * 10 ^ 9) : ℕ) : ℚ) := by exact_mod_cast hraw
  have haligned := z.aligned_eq hraw (by omega)
  rw [notionalVolume]
  simp only [notionalPerVolume_eq, hquot, haligned, maximumAligned_eq]
  rw [if_neg (by norm_num), require_eq (by exact hcast), ok_bind, min_eq_right hcast]
  rfl

theorem normalizedByRisk_eq (base available : Decimal) :
    normalizedByRisk (z.leg base available) z.terms = .ok (some 1) := by
  have hone : (1 : ℚ) ≤ ((1 + z.points : ℕ) : ℚ) := by
    rw [Nat.cast_add, Nat.cast_one]
    exact le_add_of_nonneg_right (Nat.cast_nonneg _)
  have hle := z.points_le
  have haligned := z.aligned_eq (n := 1 + z.points) (by omega) (by omega)
  have hmin : min (z.terms.aligned z.terms.rawVolume) z.terms.maximumAligned = 1 := by
    rw [rawVolume_eq, haligned, maximumAligned_eq, min_eq_right hone]
  have hraw : z.terms.minVolume ≤ z.terms.rawVolume := by
    rw [rawVolume_eq]
    exact hone
  rw [normalizedByRisk, require_eq hraw, ok_bind, hmin]
  cases hlimit : o.maxPositionNotional with
  | none =>
    rw [leg, hlimit]
    rfl
  | some limit =>
    obtain ⟨n, hpos, hlt, rfl⟩ := z.notional limit hlimit
    have hnotional := z.notionalVolume_eq hpos hlt
    rw [leg, hlimit]
    simp only [decimal_eq _ (units_text hlt), ok_bind, hnotional, Option.map_some, min_self]
    rfl

def margins (o : OcoRiskEvaluatorOptions) : MarginTerms := ⟨units 1, 0, o.maxMarginUsagePercent⟩

/-- What the usage limit allows. -/
theorem usageBudget_eq : (Decimal.times ((100 * (1 + z.points) : ℕ) : ℚ)
    o.maxMarginUsagePercent).div 100 = units ((1 + z.points) * z.usage) := by
  have hle : (1 + z.points) * z.usage ≤ (1 + 10 ^ 6) * 10 ^ 12 :=
    Nat.mul_le_mul (by have := z.points_le; omega) z.usage_le
  have htimes : Decimal.times ((100 * (1 + z.points) : ℕ) : ℚ) (units z.usage) =
      100 * units ((1 + z.points) * z.usage) := by
    rw [Decimal.times, Decimal.exact_nat (100 * ((1 + z.points) * z.usage)) 10]
    · simp only [units]; push_cast; ring
    · simp only [units]; push_cast; ring
    · omega
  rw [z.usage_eq, htimes, Decimal.div, mul_div_cancel_left₀ _ (by norm_num)]
  exact Decimal.exact_nat _ 10 rfl (by omega)

theorem usable_eq : ((Decimal.times ((100 * (1 + z.points) : ℕ) : ℚ)
    o.maxMarginUsagePercent).div 100).minus 0 = units ((1 + z.points) * z.usage) := by
  have hle : (1 + z.points) * z.usage ≤ (1 + 10 ^ 6) * 10 ^ 12 :=
    Nat.mul_le_mul (by have := z.points_le; omega) z.usage_le
  rw [usageBudget_eq, Decimal.minus, sub_zero]
  exact Decimal.exact_nat _ 10 rfl (by omega)

theorem budget_eq : (margins o).budget z.terms = units z.margin := by
  have husable := z.usable_eq
  have hle : (z.margin : ℚ) ≤ (((1 + z.points) * z.usage : ℕ) : ℚ) := by exact_mod_cast z.margin_le
  have hunits : units z.margin ≤ units ((1 + z.points) * z.usage) := by
    simp only [units]
    exact div_le_div_of_nonneg_right hle (by positivity)
  rw [MarginTerms.budget]
  simp only [terms, margins] at husable ⊢
  rw [husable, min_eq_left hunits]

theorem one_times_unit : Decimal.times 1 (units 1) = units 1 := by
  rw [Decimal.times, one_mul]
  exact Decimal.exact_nat 1 10 rfl (by norm_num)

theorem marginTerms_eq (base : Decimal) :
    marginTerms (z.leg base (units z.margin)) z.terms = .ok (margins o) := by
  have hu : isDecimalText (units 1) := unit_text
  have h0 : isDecimalText 0 := zero_text
  have husage : isDecimalText o.maxMarginUsagePercent := by
    rw [z.usage_eq]
    exact units_text (by have := z.usage_le; omega)
  have hpos : 0 < o.maxMarginUsagePercent := by
    rw [z.usage_eq]
    exact units_pos z.usage_pos
  have hle : o.maxMarginUsagePercent ≤ 100 := by
    rw [z.usage_eq]
    exact (units_le z.usage_le).trans (by norm_num [units])
  have hbudget := z.budget_eq
  have haffordable : z.terms.minVolume.times (margins o).perVolume ≤
      (margins o).budget z.terms := by
    rw [hbudget]
    exact one_times_unit.le.trans (units_le z.margin_pos)
  simp only [marginTerms, bind_ok, decimal_ok, require_ok, pure_ok]
  exact ⟨_, ⟨rfl, hu⟩, _, ⟨rfl, h0⟩, _, ⟨rfl, husage⟩, (),
    ⟨units_pos one_pos, le_rfl, (units_pos z.margin_pos).le, hpos, hle⟩, (), haffordable, rfl⟩

theorem normalizedByMargin_eq :
    normalizedByMargin z.terms (margins o) (some 1) = .ok (some 1) := by
  have hquot : (units z.margin).div (units 1) = (z.margin : ℚ) := by
    have hexact : units z.margin / units 1 = (z.margin : ℚ) := by
      simp only [units, Nat.cast_one]
      rw [div_div_div_cancel_right₀ (by norm_num), div_one]
    have hlt := z.margin_lt
    rw [Decimal.div, hexact]
    exact Decimal.exact_nat z.margin 0 (by norm_num) (by omega)
  have haligned := z.aligned_eq z.margin_pos (by have := z.margin_lt; omega)
  have hone : (1 : ℚ) ≤ z.margin := by exact_mod_cast z.margin_pos
  have hmin : min 1 (z.terms.aligned (((margins o).budget z.terms).div
      (margins o).perVolume)) = 1 := by
    rw [budget_eq]
    simp only [margins]
    rw [hquot, haligned, min_eq_left hone]
  have hraw : (1 : ℚ) ≤ z.terms.rawVolume := by
    rw [rawVolume_eq]
    exact_mod_cast Nat.le_add_right 1 z.points
  rw [normalizedByMargin]
  simp only [Option.map_some, hmin]
  rw [require_eq, ok_bind]
  · rfl
  · rintro volume ⟨⟩
    exact ⟨hraw, le_rfl⟩

theorem oneWayCommission_eq {price : Decimal} (hprice : 0 < price) :
    oneWayCommission z.metadata price 1 = .ok 0 := by
  have hu : isDecimalText (units 1) := unit_text
  have h0 : isDecimalText 0 := zero_text
  have hzero : Decimal.times (Decimal.div 0 1000000) (units 1) = 0 := by
    have hexact : Significant.truncate Decimal.precision (0 : ℚ) = 0 :=
      Decimal.exact_nat 0 0 (by norm_num) (by norm_num)
    rw [Decimal.div, zero_div, hexact, Decimal.times, zero_mul, hexact]
  have hrate : (((price.times 1).times (units 1)).times 0).div 1000000 = Decimal.div 0 1000000 := by
    rw [Decimal.times, mul_zero, Significant.truncate_zero]
  simp only [oneWayCommission, bind_ok, decimal_ok, require_ok, pure_ok]
  refine ⟨(), rfl, (), rfl, _, ⟨rfl, hu⟩, _, ⟨rfl, hu⟩, _, ⟨rfl, h0⟩, (),
    ⟨hprice, one_pos, units_pos one_pos, units_pos one_pos, le_rfl⟩, 0, ?_, ?_⟩
  · rw [minimumCommissionInAccountCurrency]
    simp only [metadata, decimal_eq _ h0, ok_bind, if_true]
    rfl
  · simp only [metadata]
    rw [hrate, hzero, max_self]

theorem units_exact {n : ℕ} (h : n < 10 ^ 40) :
    Significant.truncate Decimal.precision (units n) = units n := Decimal.exact_nat n 10 rfl h

theorem times_zero (a : Decimal) : a.times 0 = 0 := by
  rw [Decimal.times, mul_zero, Significant.truncate_zero]

theorem cost_lt : (1 + z.points) * z.percent < 10 ^ 40 := by
  have hle : (1 + z.points) * z.percent ≤ (1 + 10 ^ 6) * 10 ^ 11 :=
    Nat.mul_le_mul (by have := z.points_le; omega) z.percent_le
  omega

theorem pointsCost_lt : z.points * z.percent < 10 ^ 40 := by
  have hle := z.cost_lt
  rw [Nat.add_mul] at hle
  omega

/-- What the slippage points cost on one unit of volume. -/
theorem pointsCost_eq : (Decimal.times (z.points : ℚ) (units z.percent)).times 1 =
    units (z.points * z.percent) := by
  have hproduct : (z.points : ℚ) * units z.percent = units (z.points * z.percent) := by
    simp only [units]
    push_cast
    ring
  have htimes : Decimal.times (z.points : ℚ) (units z.percent) = units (z.points * z.percent) := by
    rw [Decimal.times, hproduct, units_exact z.pointsCost_lt]
  rw [htimes, Decimal.times, mul_one, units_exact z.pointsCost_lt]

theorem adverseDistance_eq : Decimal.times 1 (z.points : ℚ) = z.points := by
  rw [Decimal.times, one_mul]
  exact Decimal.exact_nat z.points 0 (by norm_num) (by have := z.points_le; omega)

theorem price_pos : 0 < Decimal.plus (max 2 1)
    (if o.executionOrderType = some .limit then 0 else Decimal.times 1 (z.points : ℚ)) := by
  have hle := z.points_le
  rw [adverseDistance_eq, Decimal.plus, max_eq_left (by norm_num)]
  split
  · rw [Decimal.exact_nat 2 0] <;> norm_num
  · rw [Decimal.exact_nat (2 + z.points) 0]
    · positivity
    · push_cast
      ring
    · omega

theorem stopCostReserve_eq :
    stopCostReserve ⟨z.metadata, 2, 1, 1, z.points, o.executionOrderType⟩ =
      .ok (units (z.points * z.percent)) := by
  have h1 : isDecimalText 1 := one_text
  have h2 : isDecimalText 2 := two_text
  have h0 : isDecimalText 0 := zero_text
  have hpoints : isDecimalText (z.points : ℚ) := nat_text (by have := z.points_le; omega)
  have hpos : (0 : ℚ) < z.points := by exact_mod_cast z.points_pos
  simp only [stopCostReserve, bind_ok, decimal_ok, require_ok, pure_ok]
  refine ⟨_, ⟨rfl, h1⟩, _, ⟨rfl, hpoints⟩, (), ⟨?_, hpos, one_pos⟩, _, ⟨rfl, h2⟩, _, ⟨rfl, h1⟩, _,
    ⟨rfl, h1⟩, _, ⟨rfl, z.percent_text⟩, _, ⟨rfl, h0⟩, 0, ?_, ?_⟩
  · simp [Decimal.isInteger]
  · exact z.oneWayCommission_eq z.price_pos
  · have hdouble : Decimal.times 0 2 = 0 := by
      rw [Decimal.times, zero_mul, Significant.truncate_zero]
    have hnone : Decimal.div 0 100 = 0 := by
      rw [Decimal.div, zero_div, Significant.truncate_zero]
    simp only [metadata, times_zero, hnone, hdouble, pointsCost_eq]
    rw [Decimal.plus, Decimal.plus, zero_add, units_exact z.pointsCost_lt, add_zero,
      units_exact z.pointsCost_lt]

/-- The loss of one unit of volume, costs included, is the whole budget. -/
theorem totalLoss_eq (base available : Decimal) :
    totalLoss (z.leg base available) z.terms 1 = .ok (units ((1 + z.points) * z.percent)) := by
  have hlegLoss : Decimal.times 1 (units z.percent) = units z.percent := by
    rw [Decimal.times, one_mul, units_exact (by have := z.percent_le; omega)]
  have hsum : units z.percent + units (z.points * z.percent) =
      units ((1 + z.points) * z.percent) := by
    simp only [units]
    push_cast
    ring
  rw [totalLoss, leg, z.points_eq]
  simp only [stopCostReserve_eq, ok_bind, lossPerVolume_eq, hlegLoss]
  rw [Decimal.plus, hsum, units_exact z.cost_lt]
  rfl

theorem volumeAt_eq : z.terms.volumeAt 0 = 1 := by
  rw [PositionTerms.volumeAt, Nat.cast_zero, Decimal.times, zero_mul, Significant.truncate_zero,
    Decimal.plus, add_zero]
  exact Decimal.exact_nat 1 0 (by norm_num [terms]) (by norm_num)

theorem stepsBelow_eq : z.terms.stepsBelow 1 = 0 := by
  have hminus : Decimal.minus 1 1 = 0 := by
    rw [Decimal.minus, sub_self, Significant.truncate_zero]
  rw [PositionTerms.stepsBelow]
  simp only [terms, hminus]
  rw [Decimal.div, zero_div, Significant.truncate_zero, Nat.floor_zero]

theorem costedVolume_eq (base available : Decimal) :
    costedVolume (z.leg base available) z.terms (some 1) = .ok 1 := by
  have hloss : totalLoss (z.leg base available) z.terms z.terms.minVolume =
      .ok (units ((1 + z.points) * z.percent)) := z.totalLoss_eq base available
  have hsteps : (Option.map z.terms.stepsBelow (some 1)).getD 0 = 0 := z.stepsBelow_eq
  rw [costedVolume, hloss, ok_bind, require_eq z.riskBudget_eq.ge, ok_bind]
  simp only [hsteps]
  rw [searchStep, if_neg (lt_irrefl 0)]
  exact congrArg Except.ok z.volumeAt_eq

theorem marginUsage_le {n : ℕ} (h : n ≤ 2) :
    (((units n).plus 0).div ((100 * (1 + z.points) : ℕ) : ℚ)).times 100 ≤
      o.maxMarginUsagePercent := by
  have hnonneg : 0 ≤ units n := by
    rw [units]
    positivity
  have hn : (n : ℚ) ≤ 2 := by exact_mod_cast h
  have hpoints : (1 : ℚ) ≤ z.points := by exact_mod_cast z.points_pos
  have hequity : (0 : ℚ) < ((100 * (1 + z.points) : ℕ) : ℚ) := by positivity
  have hplus : (units n).plus 0 = units n := by
    rw [Decimal.plus, add_zero, units_exact (by omega)]
  have hdiv : 0 ≤ units n / ((100 * (1 + z.points) : ℕ) : ℚ) := div_nonneg hnonneg hequity.le
  have hquot := Significant.truncate_nonneg (p := Decimal.precision) hdiv
  rw [hplus, z.usage_eq]
  calc ((units n).div ((100 * (1 + z.points) : ℕ) : ℚ)).times 100
      ≤ (units n).div ((100 * (1 + z.points) : ℕ) : ℚ) * 100 :=
        Decimal.times_le (mul_nonneg hquot (by norm_num))
    _ ≤ units n / ((100 * (1 + z.points) : ℕ) : ℚ) * 100 :=
        mul_le_mul_of_nonneg_right (Decimal.div_le hdiv) (by norm_num)
    _ ≤ units 1 := by
        rw [div_mul_eq_mul_div, div_le_iff₀ hequity]
        simp only [units]
        push_cast
        rw [div_mul_eq_mul_div, div_mul_eq_mul_div]
        exact div_le_div_of_nonneg_right (by linarith) (by norm_num)
    _ ≤ units z.usage := units_le z.usage_pos

theorem finalChecks_eq (base available : Decimal) :
    finalChecks (z.leg base available) z.terms (margins o) 1 (units 1) = .ok () := by
  have hpos : (0 : ℚ) < units 1 := units_pos one_pos
  have hmargin := units_pos z.margin_pos
  have hfits : units 1 ≤ z.terms.availableMargin := units_le z.margin_pos
  have husage : (((units 1).plus (margins o).current).div z.terms.equity).times 100 ≤
      (margins o).percent := z.marginUsage_le one_le_two
  have htwo : Decimal.times 2 1 = 2 := by
    rw [Decimal.times, mul_one]
    exact Decimal.exact_nat 2 0 (by norm_num) (by norm_num)
  have hnotional : ((z.terms.entry.times 1).times z.terms.volumeScale).times
      z.terms.conversion = 2 / 10 ^ 20 := by
    have h := z.notionalPerVolume_eq
    simp only [terms, htwo] at h ⊢
    exact h
  rw [finalChecks, require_eq ⟨hpos, hmargin.le⟩, ok_bind, require_eq hfits, ok_bind,
    require_eq husage, ok_bind]
  cases hlimit : o.maxPositionNotional with
  | none =>
    rw [leg, hlimit]
    rfl
  | some limit =>
    obtain ⟨n, hn, hlt, rfl⟩ := z.notional limit hlimit
    have hle : (2 : ℚ) / 10 ^ 20 ≤ units n :=
      le_trans (by norm_num [units]) (units_le hn)
    rw [leg, hlimit]
    simp only [decimal_eq _ (units_text hlt), ok_bind, hnotional]
    exact require_eq hle

/-- The leg is approved and loses its whole budget. -/
def decision : PositionRiskDecision where
  approved := true
  reasonCodes := []
  riskBudget := some (units ((1 + z.points) * z.percent))
  rawVolume := some ((1 + z.points : ℕ) : ℚ)
  normalizedVolume := some 1
  maximumLoss := some (units ((1 + z.points) * z.percent))
  estimatedMargin := some (units 1)

theorem sizePosition_eq :
    sizePosition (z.leg (units z.percent) (units z.margin)) = z.decision := by
  have hsize : sizeVolume (z.leg (units z.percent) (units z.margin)) = .ok z.decision := by
    have hmargin : Decimal.times 1 (margins o).perVolume = units 1 := one_times_unit
    rw [sizeVolume, positionTerms_eq, ok_bind, normalizedByRisk_eq, ok_bind, marginTerms_eq,
      ok_bind, normalizedByMargin_eq, ok_bind, costedVolume_eq, ok_bind, totalLoss_eq, ok_bind,
      require_eq z.riskBudget_eq.ge, ok_bind]
    simp only [hmargin, finalChecks_eq, ok_bind, riskBudget_eq, rawVolume_eq]
    rfl
  rw [sizePosition, hsize]

/-- Half of a number of smallest units, to ten decimals. -/
theorem halve_units {n : ℕ} (h : n < 10 ^ 38) :
    ((units n).div 2).toDecimalPlacesDown 10 = units (n / 2) := by
  have hhalf : units n / 2 = ((5 * n : ℕ) : ℚ) / 10 ^ 11 := by
    simp only [units]
    push_cast
    ring
  have hscaled : units n / 2 * 10 ^ 10 = (n : ℚ) / (2 : ℕ) := by
    simp only [units]
    push_cast
    field_simp
  have hnonneg : 0 ≤ units n / 2 := by
    rw [units]
    positivity
  rw [Decimal.div, Decimal.exact_nat (5 * n) 11 hhalf (by omega),
    Decimal.toDecimalPlacesDown_of_nonneg 10 hnonneg, hscaled, Nat.floor_div_natCast, Nat.floor_natCast]
  rfl

theorem perLegRisk_eq (base available base' available' : Decimal) :
    perLegRisk ⟨z.leg base available, z.leg base' available', units z.setup⟩ =
      .ok (units z.percent) := by
  have htext : isDecimalText (units z.setup) := units_text (by have := z.setup_le; omega)
  have hpos := units_pos (zero_lt_two.trans_le z.two_le_setup)
  have hle : units z.setup ≤ 5 := z.setup_le_max.trans z.max_le
  simp only [perLegRisk, bind_ok, decimal_ok, require_ok, pure_ok]
  exact ⟨_, ⟨rfl, htext⟩, (), ⟨hpos, hle⟩, _, ⟨rfl, z.max_text⟩, _, ⟨rfl, z.max_text⟩, (),
    le_min z.setup_le_max z.setup_le_max, halve_units (by have := z.setup_le; omega)⟩

theorem usableMargin_eq (base available : Decimal) :
    usableMargin (z.leg base available) = .ok (units ((1 + z.points) * z.usage)) := by
  have h0 : isDecimalText 0 := zero_text
  have husage : isDecimalText o.maxMarginUsagePercent := by
    rw [z.usage_eq]
    exact units_text (by have := z.usage_le; omega)
  simp only [usableMargin, bind_ok, decimal_ok, pure_ok]
  exact ⟨_, ⟨rfl, z.equity_text⟩, _, ⟨rfl, husage⟩, _, ⟨rfl, h0⟩, z.usable_eq⟩

theorem min_units (m n : ℕ) : min (units m) (units n) = units (min m n) := by
  rcases le_total m n with h | h
  · rw [min_eq_left h, min_eq_left (units_le h)]
  · rw [min_eq_right h, min_eq_right (units_le h)]

theorem perLegMargin_eq (base base' : Decimal) :
    perLegMargin ⟨z.leg base (units z.free), z.leg base' (units z.free), units z.setup⟩ =
      .ok (units z.margin) := by
  have hfree : isDecimalText (units z.free) := units_text z.free_lt
  have hmin : min (min (units z.free) (units z.free))
      (min (units ((1 + z.points) * z.usage)) (units ((1 + z.points) * z.usage))) =
      units (min z.free ((1 + z.points) * z.usage)) := by
    rw [min_self, min_self, min_units]
  have hhalf : ((units (min z.free ((1 + z.points) * z.usage))).div 2).toDecimalPlacesDown 10 =
      units z.margin :=
    halve_units ((min_le_left _ _).trans_lt (z.free_lt.trans (by norm_num)))
  simp only [perLegMargin, bind_ok, decimal_ok, require_ok, pure_ok, usableMargin_eq,
    Except.ok.injEq]
  refine ⟨_, ⟨rfl, hfree⟩, _, ⟨rfl, hfree⟩, _, rfl, _, rfl, (), ?_, ?_⟩
  · simp only [leg, hmin, hhalf]
    exact units_pos z.margin_pos
  · simp only [leg, hmin, hhalf]

/-- What both legs lose together. -/
def loss : Decimal := units (2 * ((1 + z.points) * z.percent))

theorem combined_eq : (units ((1 + z.points) * z.percent)).plus
    (units ((1 + z.points) * z.percent)) = z.loss := by
  have hsum : units ((1 + z.points) * z.percent) + units ((1 + z.points) * z.percent) = z.loss := by
    simp only [loss, units]
    push_cast
    ring
  have hlt := z.cost_lt
  have hle : (1 + z.points) * z.percent ≤ (1 + 10 ^ 6) * 10 ^ 11 :=
    Nat.mul_le_mul (by have := z.points_le; omega) z.percent_le
  rw [Decimal.plus, hsum]
  exact units_exact (by omega)

theorem cost_le : (1 + z.points) * z.percent ≤ (1 + 10 ^ 6) * 10 ^ 11 :=
  Nat.mul_le_mul (by have := z.points_le; omega) z.percent_le

theorem setupBudget_eq : (Decimal.times ((100 * (1 + z.points) : ℕ) : ℚ) (units z.setup)).div 100 =
    units ((1 + z.points) * z.setup) := by
  have hle : (1 + z.points) * z.setup ≤ (1 + 10 ^ 6) * (5 * 10 ^ 10) :=
    Nat.mul_le_mul (by have := z.points_le; omega) z.setup_le
  have htimes : Decimal.times ((100 * (1 + z.points) : ℕ) : ℚ) (units z.setup) =
      100 * units ((1 + z.points) * z.setup) := by
    rw [Decimal.times, Decimal.exact_nat (100 * ((1 + z.points) * z.setup)) 10]
    · simp only [units]; push_cast; ring
    · simp only [units]; push_cast; ring
    · omega
  rw [htimes, Decimal.div, mul_div_cancel_left₀ _ (by norm_num)]
  exact units_exact (by omega)

theorem unit_plus_unit : (units 1).plus (units 1) = units 2 := by
  rw [Decimal.plus, Decimal.exact_nat 2 10] <;> norm_num [units]

theorem combinedReasons_eq (base base' : Decimal) :
    combinedReasons ⟨z.leg base (units z.free), z.leg base' (units z.free), units z.setup⟩ z.loss
      (units 1) (units 1) = .ok [] := by
  have hu : isDecimalText (units 1) := unit_text
  have h0 : isDecimalText 0 := zero_text
  have hfree : isDecimalText (units z.free) := units_text z.free_lt
  have husage : isDecimalText o.maxMarginUsagePercent := by
    rw [z.usage_eq]
    exact units_text (by have := z.usage_le; omega)
  have hbudget : ¬ units ((1 + z.points) * z.setup) < z.loss := by
    refine not_lt.mpr (units_le ?_)
    rw [Nat.mul_left_comm]
    exact Nat.mul_le_mul_left _ z.two_mul_percent_le
  have hmargin : ¬ units z.free < units 2 := not_lt.mpr (units_le z.two_le_free)
  have hlimit := not_lt.mpr (z.marginUsage_le le_rfl)
  simp only [combinedReasons, bind_ok, decimal_ok, pure_ok]
  refine ⟨_, ⟨rfl, z.equity_text⟩, _, ⟨rfl, z.equity_text⟩, _, ⟨rfl, hu⟩, _, ⟨rfl, hu⟩, _,
    ⟨rfl, hfree⟩, _, ⟨rfl, hfree⟩, _, ⟨rfl, h0⟩, _, ⟨rfl, h0⟩, _, ⟨rfl, husage⟩, _, ⟨rfl, husage⟩, ?_⟩
  simp only [leg, min_self, max_self, setupBudget_eq, unit_plus_unit]
  rw [if_neg hbudget, if_neg hmargin, if_neg hlimit]
  rfl

/-- Both legs are approved and lose twice the budget of one. -/
def pair : OcoRiskDecision where
  approved := true
  reasonCodes := []
  buy := z.decision
  sell := z.decision
  combinedMaximumLoss := some z.loss

theorem sizeOcoPair_eq (base : Decimal) :
    sizeOcoPair ⟨z.leg base (units z.free), z.leg base (units z.free), units z.setup⟩ = z.pair := by
  have hloss : isDecimalText (units ((1 + z.points) * z.percent)) :=
    units_text (by have := z.cost_le; omega)
  have hleg : sizePosition { z.leg base (units z.free) with
      baseRiskPercent := units z.percent, availableMargin := units z.margin } = z.decision :=
    z.sizePosition_eq
  have hsize : sizeLegs ⟨z.leg base (units z.free), z.leg base (units z.free), units z.setup⟩ =
      .ok z.pair := by
    rw [sizeLegs, perLegRisk_eq, ok_bind, perLegMargin_eq, ok_bind]
    simp only [hleg]
    simp only [decision, decimal_eq _ hloss, ok_bind, combined_eq, combinedReasons_eq]
    rfl
  rw [sizeOcoPair, hsize]

theorem marginReasons_eq :
    o.marginReasons (units z.free) 0 ((100 * (1 + z.points) : ℕ) : ℚ) (units 2) = [] := by
  have hmargin : ¬ units z.free < units 2 := not_lt.mpr (units_le z.two_le_free)
  have hplus : Decimal.plus 0 (units 2) = units 2 := by
    rw [Decimal.plus, zero_add, units_exact (by norm_num)]
  have husage : ¬ units ((1 + z.points) * z.usage) < units 2 :=
    not_lt.mpr (units_le z.two_le_usable)
  rw [OcoRiskEvaluatorOptions.marginReasons, usageBudget_eq, hplus, if_neg hmargin, if_neg husage]
  rfl

/-- The broker confirms the estimate at the first attempt. -/
theorem confirmMargin_eq (base : Decimal) (rest : List ℕ)
    (hestimate : ∀ n symbolId side volume, o.marginEstimator n symbolId side volume =
      .ok (units 1)) :
    o.confirmMargin (units z.setup) (units z.free) 0 ((100 * (1 + z.points) : ℕ) : ℚ) (0 :: rest)
      (z.leg base (units z.free)) (z.leg base (units z.free)) z.pair [] = .ok ⟨z.pair, true, []⟩ := by
  have hu : isDecimalText (units 1) := unit_text
  have hpos := units_pos one_pos
  have hboth (n : ℕ) : o.estimateBoth n z.metadata.symbolId 1 1 = .ok (units 1, units 1) := by
    rw [OcoRiskEvaluatorOptions.estimateBoth, hestimate, ok_bind, hestimate, ok_bind]
    rfl
  have hreasons : o.marginReasons (units z.free) 0 ((100 * (1 + z.points) : ℕ) : ℚ)
      ((units 1).plus (units 1)) = [] := by
    rw [unit_plus_unit]
    exact z.marginReasons_eq
  exact confirmMargin_confirmed rfl rfl rfl (hboth _) hu hu ⟨hpos, hpos⟩ hreasons

/-! ### An evaluation that approves the pair -/

def account : AccountState where
  reconciledAt := none
  certain := true
  equity := (100 * (1 + z.points) : ℕ)
  balance := (100 * (1 + z.points) : ℕ)
  availableMargin := (10 ^ 15 : ℕ)
  relevantPositionCount := 0
  relevantPendingOrderCount := 0
  hasPartialFill := false
  hasCancellationPending := false
  reasonCodes := []

def proposal : ModelOrderProposal := ⟨2, 1, 3, none⟩

def input : OcoEvaluationInput where
  response := { analysisId := "analysis", symbol := "XAUUSD", buyStop := proposal, sellStop := proposal }
  account := z.account
  metadata := z.metadata
  trend := some 1

theorem currentMargin_eq :
    max 0 (Decimal.minus ((100 * (1 + z.points) : ℕ) : ℚ) ((10 ^ 15 : ℕ) : ℚ)) = 0 := by
  have hle := z.points_le
  have hexact : ((100 * (1 + z.points) : ℕ) : ℚ) - ((10 ^ 15 : ℕ) : ℚ) =
      ((100 * (1 + z.points) : ℕ) - (10 ^ 15 : ℕ) : ℤ) / 10 ^ 0 := by
    push_cast
    ring
  rw [Decimal.minus, Decimal.exact _ 0 hexact (by rw [abs_lt]; constructor <;> push_cast <;> omega)]
  refine max_eq_left ?_
  rw [sub_nonpos]
  exact_mod_cast (by omega : 100 * (1 + z.points) ≤ 10 ^ 15)

theorem marginPerVolume_eq : OcoRiskEvaluatorOptions.marginPerVolume (units 1) 1 = units 1 := by
  rw [OcoRiskEvaluatorOptions.marginPerVolume, Decimal.div, div_one, units_exact (by norm_num),
    Decimal.toDecimalPlacesUp_of_nonneg 10 (units_pos one_pos).le, units,
    div_mul_cancel₀ _ (by norm_num), Nat.ceil_natCast]

/-- The result that both legs are approved with. -/
def evaluation (host : Host) (reported : Decimal) : OcoEvaluation where
  approved := true
  reasonCodes := []
  risk := some z.pair
  commands := some (o.command host z.input.response .buy 1 [] (o.executionOrderType.getD .stopLimit)
    (o.timeInForce.getD .gtd) none, o.command host z.input.response .sell 1 []
    (o.executionOrderType.getD .stopLimit) (o.timeInForce.getD .gtd) none)
  equity := some (100 * (1 + z.points) : ℕ)
  perLegRiskPercent := some (reported.div 2)

variable {host : Host} {reserve reported : Decimal}

theorem confirmPair_eq
    (hestimate : ∀ n symbolId side volume, o.marginEstimator n symbolId side volume =
      .ok (units 1)) :
    o.confirmPair z.input (units z.free) 0 ((100 * (1 + z.points) : ℕ) : ℚ) (units z.setup) (units 1)
      (units 1) = .ok ⟨z.pair, true, []⟩ := by
  have h1 : isDecimalText 1 := one_text
  have hu : isDecimalText (units 1) := unit_text
  have hleg : o.legInput z.input (units z.free) 0 (units z.setup) proposal (units 1) =
      z.leg (units z.setup) (units z.free) := rfl
  simp only [OcoRiskEvaluatorOptions.confirmPair, bind_ok, decimal_ok]
  refine ⟨1, ⟨rfl, h1⟩, _, ⟨rfl, hu⟩, _, ⟨rfl, hu⟩, ?_⟩
  rw [marginPerVolume_eq]
  change o.confirmMargin _ _ _ _ _ (o.legInput z.input (units z.free) 0 (units z.setup) proposal
    (units 1)) (o.legInput z.input (units z.free) 0 (units z.setup) proposal (units 1)) (sizeOcoPair
    ⟨o.legInput z.input (units z.free) 0 (units z.setup) proposal (units 1),
      o.legInput z.input (units z.free) 0 (units z.setup) proposal (units 1), units z.setup⟩) [] = _
  rw [hleg, sizeOcoPair_eq]
  exact z.confirmMargin_eq (units z.setup) [1, 2] hestimate

theorem evaluatePair_eq
    (hestimate : ∀ n symbolId side volume, o.marginEstimator n symbolId side volume =
      .ok (units 1))
    (hreserve : o.effectiveRisk 0 = .ok reserve) (hsized : o.effectiveRisk 1 = .ok (units z.setup))
    (hreported : o.effectiveRisk 2 = .ok reported) (htext : isDecimalText reported)
    (hfree : OcoRiskEvaluatorOptions.freeMarginAfterLossReserve ((10 ^ 15 : ℕ) : ℚ)
      ((100 * (1 + z.points) : ℕ) : ℚ) reserve = units z.free) :
    o.evaluatePair host z.input = .ok (z.evaluation host reported) := by
  have havailable : isDecimalText ((10 ^ 15 : ℕ) : ℚ) := nat_text (by norm_num)
  have hboth : o.estimateBoth 0 z.input.metadata.symbolId z.input.metadata.minVolume
      z.input.metadata.minVolume = .ok (units 1, units 1) := by
    rw [OcoRiskEvaluatorOptions.estimateBoth, hestimate, ok_bind, hestimate, ok_bind]
    rfl
  have hconfirm : o.confirmPair z.input (OcoRiskEvaluatorOptions.freeMarginAfterLossReserve
      ((10 ^ 15 : ℕ) : ℚ) ((100 * (1 + z.points) : ℕ) : ℚ) reserve)
      (OcoRiskEvaluatorOptions.currentMargin ((100 * (1 + z.points) : ℕ) : ℚ) ((10 ^ 15 : ℕ) : ℚ))
      ((100 * (1 + z.points) : ℕ) : ℚ) (units z.setup) (units 1) (units 1) =
      .ok ⟨z.pair, true, []⟩ := by
    rw [hfree, OcoRiskEvaluatorOptions.currentMargin, currentMargin_eq]
    exact z.confirmPair_eq hestimate
  simp only [OcoRiskEvaluatorOptions.evaluatePair, bind_ok, decimal_ok]
  refine ⟨_, hboth, _, ⟨rfl, z.equity_text⟩, _, ⟨rfl, havailable⟩, _, hreserve, _, hsized, _,
    hconfirm, ?_⟩
  simp only [pair, decision, bind_ok, decimal_ok, pure_ok]
  exact ⟨reported, hreported, _, ⟨rfl, htext⟩, rfl⟩

theorem evaluate_eq {e : OcoEvaluation} (h : o.evaluatePair host z.input = .ok e) :
    o.evaluate host z.input = e := by
  have htrend : ¬ (!o.operatorEntryModes && decide (o.executionOrderType = some .limit) &&
      decide (z.input.trend.getD 0 = 0)) = true := by
    simp [input]
  rw [OcoRiskEvaluatorOptions.evaluate]
  simp only [show z.input.account = z.account from rfl, show z.input.selectedSide = none from rfl,
    account]
  rw [if_neg (by decide), if_neg (by decide), if_neg htrend, h]

/-- The pair loses more than any smaller percent of the equity. -/
theorem evaluation_exceeds (htext : isDecimalText reported)
    (hlt : reported < 2 * units z.percent) : ¬ (z.evaluation host reported).LossWithinReported := by
  rintro ⟨loss, equity, percent, hloss, hequity, hpercent, hle⟩
  cases hequity
  cases hpercent
  have hpair : (z.evaluation host reported).modelledLoss =
      some (units ((1 + z.points) * z.percent) + units ((1 + z.points) * z.percent)) := rfl
  rw [hpair, Option.some.injEq] at hloss
  have hpos : (0 : ℚ) < 1 + z.points := by positivity
  rw [← hloss, OcoRiskEvaluatorOptions.half_eq htext, mul_div_cancel₀ _ two_ne_zero] at hle
  simp only [units] at hle hlt
  push_cast at hle
  have hscaled := mul_lt_mul_of_pos_left hlt hpos
  linarith

end Tight

/-- What is left free after the reserve, where the account has ample margin. -/
theorem freeMargin_eq {equity percent : Decimal} (hnonneg : 0 ≤ equity * percent)
    (hle : equity * percent / 100 ≤ 10 ^ 8) : ∃ n : ℕ, 2 ≤ n ∧ n < 10 ^ 26 ∧
      OcoRiskEvaluatorOptions.freeMarginAfterLossReserve ((10 ^ 15 : ℕ) : ℚ) equity percent =
        units n := by
  have htimes := Decimal.times_nonneg hnonneg
  have hreserve : 0 ≤ (equity.times percent).div 100 :=
    Significant.truncate_nonneg (div_nonneg htimes (by norm_num))
  have hbound : (equity.times percent).div 100 ≤ 10 ^ 8 :=
    calc (equity.times percent).div 100 ≤ equity.times percent / 100 :=
          Decimal.div_le (div_nonneg htimes (by norm_num))
      _ ≤ equity * percent / 100 :=
          div_le_div_of_nonneg_right (Decimal.times_le hnonneg) (by norm_num)
      _ ≤ 10 ^ 8 := hle
  obtain ⟨r, hr⟩ : ∃ r, r = ⌈(equity.times percent).div 100 * 10 ^ 10⌉₊ := ⟨_, rfl⟩
  have hrle : r ≤ 10 ^ 18 := by
    rw [hr, Nat.ceil_le]
    push_cast
    linarith
  have hup : ((equity.times percent).div 100).toDecimalPlacesUp 10 = units r := by
    rw [Decimal.toDecimalPlacesUp_of_nonneg 10 hreserve, ← hr]
    rfl
  have hminus : Decimal.minus ((10 ^ 15 : ℕ) : ℚ) (units r) = units (10 ^ 25 - r) := by
    have hexact : ((10 ^ 15 : ℕ) : ℚ) - units r = units (10 ^ 25 - r) := by
      simp only [units]
      rw [Nat.cast_sub (by omega)]
      push_cast
      ring
    rw [Decimal.minus, hexact]
    exact Tight.units_exact (by omega)
  refine ⟨10 ^ 25 - r, by omega, by omega, ?_⟩
  rw [OcoRiskEvaluatorOptions.freeMarginAfterLossReserve, hup, hminus]
  exact max_eq_right (by rw [units]; positivity)

end ScalpingBot.Risk
