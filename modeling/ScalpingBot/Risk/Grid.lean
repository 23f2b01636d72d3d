import ScalpingBot.Risk.Sizing

/-! The volume that `sizePosition` chooses: on the grid of the broker, within every bound, and the
    largest such volume. Each step rounds down to forty digits, and no rounding moves a bound across
    a volume of the grid. -/

namespace ScalpingBot.Risk

open Significant (Fits fits_nat truncate_mono truncate_nonneg truncate_le)

/-- The loss of a volume with its costs, as `sizePosition` computes it. -/
def lossWithCosts (input : PositionRiskInput) (volume : Decimal) : Except String Decimal := do
  let t ← positionTerms input
  totalLoss input t volume

namespace PositionRiskInput

variable (input : PositionRiskInput)

/-- The grid of the broker. -/
def gridVolume (k : ℕ) : Decimal := input.metadata.minVolume + k * input.metadata.volumeStep

/-- The notional of one unit of volume, in the account currency. -/
def notionalPerVolume : Decimal :=
  input.entryPrice * input.metadata.volumeScale * input.metadata.quoteToAccountConversionRate

/-- The bounds of a volume. -/
structure Bounds (volume : Decimal) : Prop where
  maximum : volume ≤ input.metadata.maxVolume
  loss : ∃ loss, lossWithCosts input volume = .ok loss ∧
    loss ≤ input.equity * input.baseRiskPercent / 100
  available : volume * input.estimatedMarginPerVolume ≤ input.availableMargin
  usage : volume * input.estimatedMarginPerVolume + input.currentMargin ≤
    input.equity * input.maxMarginUsagePercent / 100
  notional : ∀ limit ∈ input.maxPositionNotional, volume * input.notionalPerVolume ≤ limit

/-- A valid account, symbol and stop distance, with costs that can be computed. -/
structure Valid : Prop where
  terms : ∃ t, positionTerms input = .ok t
  margin : isDecimalText input.estimatedMarginPerVolume ∧ 0 < input.estimatedMarginPerVolume
  current : isDecimalText input.currentMargin
  usage : isDecimalText input.maxMarginUsagePercent ∧ 0 < input.maxMarginUsagePercent ∧
    input.maxMarginUsagePercent ≤ 100
  notional : ∀ limit ∈ input.maxPositionNotional, isDecimalText limit
  costs : ∃ loss, lossWithCosts input input.metadata.minVolume = .ok loss

/-- The notional of one unit of volume fits the forty digits and is not zero with a limit of
    zero. -/
def NotionalFits : Prop :=
  ∀ limit ∈ input.maxPositionNotional,
    (input.entryPrice.times input.metadata.volumeScale).times
      input.metadata.quoteToAccountConversionRate = input.notionalPerVolume ∧
    (input.entryPrice ≠ 0 ∨ limit ≠ 0)

end PositionRiskInput

/-! ### Terms -/

/-- What the checks up to the loss per volume leave. -/
structure TermsOf (input : PositionRiskInput) (t : PositionTerms) : Prop where
  equity : t.equity = input.equity ∧ isDecimalText t.equity ∧ 0 < t.equity
  available : t.availableMargin = input.availableMargin ∧ isDecimalText t.availableMargin
  baseRisk : t.baseRisk = input.baseRiskPercent ∧ isDecimalText t.baseRisk ∧ 0 < t.baseRisk ∧
    t.baseRisk ≤ 5
  entry : t.entry = input.entryPrice ∧ isDecimalText t.entry
  tickValue : t.tickValue = input.metadata.tickValue ∧ isDecimalText t.tickValue ∧ 0 < t.tickValue
  minVolume : t.minVolume = input.metadata.minVolume ∧ isDecimalText t.minVolume ∧ 0 < t.minVolume
  maxVolume : t.maxVolume = input.metadata.maxVolume ∧ isDecimalText t.maxVolume
  volumeStep : t.volumeStep = input.metadata.volumeStep ∧ isDecimalText t.volumeStep ∧
    0 < t.volumeStep
  volumeScale : t.volumeScale = input.metadata.volumeScale ∧ 0 < t.volumeScale
  conversion : t.conversion = input.metadata.quoteToAccountConversionRate ∧ 0 < t.conversion
  volumes : t.minVolume ≤ t.maxVolume
  loss : 0 < t.lossPerVolume

theorem positionTerms_of {input : PositionRiskInput} {t : PositionTerms}
    (h : positionTerms input = .ok t) : TermsOf input t := by
  simp only [positionTerms, bind_ok, decimal_ok, require_ok, pure_ok] at h
  obtain ⟨equity, ⟨rfl, hequity⟩, available, ⟨rfl, havailable⟩, risk, ⟨rfl, hrisk⟩, maxRisk,
    ⟨rfl, -⟩, _, hpos, _, ⟨hriskPos, hle, hmax⟩, entry, ⟨rfl, hentry⟩, stop, ⟨rfl, -⟩, tick,
    ⟨rfl, -⟩, tickValue, ⟨rfl, htick⟩, minVolume, ⟨rfl, hmin⟩, maxVolume, ⟨rfl, hmaxVolume⟩, step,
    ⟨rfl, hstep⟩, contract, ⟨rfl, -⟩, scale, ⟨rfl, -⟩, _, hall, conversion, ⟨rfl, -⟩, _, hconv,
    _, -, _, hloss, rfl⟩ := h
  exact ⟨⟨rfl, hequity, hpos⟩, ⟨rfl, havailable⟩, ⟨rfl, hrisk, hriskPos, hle.trans hmax⟩,
    ⟨rfl, hentry⟩, ⟨rfl, htick, hall.2.1⟩, ⟨rfl, hmin, hall.2.2.1⟩, ⟨rfl, hmaxVolume⟩,
    ⟨rfl, hstep, hall.2.2.2.2.1⟩, ⟨rfl, hall.2.2.2.2.2.2⟩, ⟨rfl, hconv.1⟩, hconv.2, hloss⟩

/-! ### The grid -/

section

variable {input : PositionRiskInput} {t : PositionTerms} {k : ℕ}

theorem gridVolume_monotone (ht : TermsOf input t) : Monotone input.gridVolume := by
  intro j k h
  have hstep := ht.volumeStep.1 ▸ ht.volumeStep.2.2
  have hcast : (j : ℚ) ≤ k := by exact_mod_cast h
  exact add_le_add_right (mul_le_mul_of_nonneg_right hcast hstep.le) _

theorem gridVolume_zero : input.gridVolume 0 = input.metadata.minVolume := by
  rw [PositionRiskInput.gridVolume, Nat.cast_zero, zero_mul, add_zero]

theorem gridVolume_pos (ht : TermsOf input t) (k : ℕ) : 0 < input.gridVolume k := by
  have hmin := ht.minVolume.1 ▸ ht.minVolume.2.2
  have hle := gridVolume_monotone ht (Nat.zero_le k)
  rw [gridVolume_zero] at hle
  exact hmin.trans_le hle

/-- A volume of the grid up to the maximum is a decimal text, and so are its steps. -/
theorem gridVolume_text (ht : TermsOf input t) (h : input.gridVolume k ≤ input.metadata.maxVolume) :
    isDecimalText (input.gridVolume k) ∧ Fits 40 ((k : ℚ) * t.volumeStep) := by
  obtain ⟨hmaxEq, hmax⟩ := ht.maxVolume
  have hlt := (text_bounds hmax).2
  rw [hmaxEq] at hlt
  obtain ⟨a, -, ha⟩ := isDecimalText_iff.mp ht.minVolume.2.1
  obtain ⟨s, -, hs⟩ := isDecimalText_iff.mp ht.volumeStep.2.1
  have hunits : input.gridVolume k = ((a + k * s : ℕ) : ℚ) / 10 ^ 10 := by
    rw [PositionRiskInput.gridVolume, ← ht.minVolume.1, ← ht.volumeStep.1, ha, hs]
    push_cast
    ring
  have hbound : a + k * s < 10 ^ 26 := by
    have hvolume : ((a + k * s : ℕ) : ℚ) / 10 ^ 10 < 10 ^ 16 := hunits ▸ h.trans_lt hlt
    rw [div_lt_iff₀ (by norm_num)] at hvolume
    exact_mod_cast hvolume
  refine ⟨isDecimalText_iff.mpr ⟨_, hbound, hunits⟩, ?_⟩
  have hfits : Fits 40 (((k * s : ℕ) : ℚ) / 10 ^ 10) := fits_nat (by omega)
  rw [hs]
  convert hfits using 1
  push_cast
  ring

/-- Rounding does not change the volumes of the grid. -/
theorem volumeAt_grid (ht : TermsOf input t) (h : input.gridVolume k ≤ input.metadata.maxVolume) :
    t.volumeAt k = input.gridVolume k := by
  obtain ⟨htext, hsteps⟩ := gridVolume_text ht h
  rw [PositionTerms.volumeAt, Decimal.times, Decimal.precision, hsteps.truncate_eq, Decimal.plus,
    Decimal.precision, ht.minVolume.1, ht.volumeStep.1]
  exact (text_fits htext).truncate_eq

/-- The number of steps of a volume up to the maximum fits the digits. -/
theorem count_fits (ht : TermsOf input t) (h : input.gridVolume k ≤ input.metadata.maxVolume) :
    Fits 40 (k : ℚ) := by
  have hstep := ht.volumeStep.2.2
  have hk : (k : ℚ) * t.volumeStep ≤ 10 ^ 16 := by
    have hlt := (text_bounds ht.maxVolume.2).2
    have hmin := (text_bounds ht.minVolume.2.1).1
    rw [PositionRiskInput.gridVolume, ← ht.minVolume.1, ← ht.volumeStep.1, ← ht.maxVolume.1] at h
    linarith
  obtain ⟨s, -, hs⟩ := isDecimalText_iff.mp ht.volumeStep.2.1
  have hpos : 1 ≤ s := by
    rcases Nat.eq_zero_or_pos s with rfl | hpos
    · rw [hs] at hstep
      norm_num at hstep
    · exact hpos
  have hunits : ((k * s : ℕ) : ℚ) ≤ ((10 ^ 26 : ℕ) : ℚ) := by
    rw [hs, mul_div_assoc', div_le_iff₀ (by norm_num)] at hk
    push_cast
    linarith
  have hle : k * s ≤ 10 ^ 26 := by exact_mod_cast hunits
  have hfits : Fits 40 ((k : ℚ) / 10 ^ 0) := fits_nat (by nlinarith)
  rwa [pow_zero, div_one] at hfits

/-- A volume of the grid is within a limit exactly if the rounded number of steps says so. -/
theorem le_floor_iff (ht : TermsOf input t) (h : input.gridVolume k ≤ input.metadata.maxVolume)
    (x : Decimal) :
    (k : ℤ) ≤ ⌊(x.minus t.minVolume).div t.volumeStep⌋ ↔ input.gridVolume k ≤ x := by
  have hstep := ht.volumeStep.2.2
  rw [Int.le_floor, Int.cast_natCast, Decimal.div, Decimal.precision,
    (count_fits ht h).le_truncate_iff (by norm_num) (Nat.cast_nonneg k), le_div_iff₀ hstep,
    Decimal.minus, Decimal.precision,
    (gridVolume_text ht h).2.le_truncate_iff (by norm_num) (by positivity),
    PositionRiskInput.gridVolume, ht.minVolume.1, ht.volumeStep.1, le_sub_iff_add_le, add_comm]

/-- A volume of the grid is as many steps above the minimum as it was made of. -/
theorem stepsBelow_grid (ht : TermsOf input t)
    (h : input.gridVolume k ≤ input.metadata.maxVolume) : t.stepsBelow (input.gridVolume k) = k := by
  have hminus : (input.gridVolume k).minus t.minVolume = k * t.volumeStep := by
    rw [Decimal.minus, Decimal.precision, PositionRiskInput.gridVolume, ← ht.minVolume.1,
      ← ht.volumeStep.1, add_sub_cancel_left]
    exact (gridVolume_text ht h).2.truncate_eq
  have hdiv : Decimal.div ((k : ℚ) * t.volumeStep) t.volumeStep = k := by
    rw [Decimal.div, Decimal.precision, mul_div_cancel_right₀ _ ht.volumeStep.2.2.ne']
    exact (count_fits ht h).truncate_eq
  rw [PositionTerms.stepsBelow, hminus, hdiv, Nat.floor_natCast]

theorem times_mono {a b c : Decimal} (ha : 0 ≤ a) (hc : 0 ≤ c) (h : a ≤ b) :
    a.times c ≤ b.times c :=
  truncate_mono (by decide) (mul_nonneg ha hc) (mul_le_mul_of_nonneg_right h hc)

theorem plus_mono {a b c : Decimal} (hac : 0 ≤ a + c) (h : a ≤ b) : a.plus c ≤ b.plus c :=
  truncate_mono (by decide) hac (by linarith)

/-- The steps of a limit, as a number. -/
theorem aligned_steps (ht : TermsOf input t) {x : Decimal} (hx : t.minVolume ≤ x) :
    ∃ n : ℕ, ⌊(x.minus t.minVolume).div t.volumeStep⌋ = n ∧ t.aligned x = t.volumeAt n := by
  have hzero : (0 : ℤ) ≤ ⌊(x.minus t.minVolume).div t.volumeStep⌋ := by
    have h0 : input.gridVolume 0 ≤ input.metadata.maxVolume := by
      rw [gridVolume_zero, ← ht.minVolume.1, ← ht.maxVolume.1]
      exact ht.volumes
    exact (le_floor_iff ht h0 x).mpr (by rw [gridVolume_zero, ← ht.minVolume.1]; exact hx)
  obtain ⟨n, hn⟩ := Int.eq_ofNat_of_zero_le hzero
  refine ⟨n, hn, ?_⟩
  rw [PositionTerms.aligned, Decimal.floor, hn]
  rfl

/-- The lesser of a volume of the grid and an aligned limit is the largest volume within both. -/
theorem min_aligned (ht : TermsOf input t) {last : ℕ}
    (hlast : input.gridVolume last ≤ input.metadata.maxVolume) {x : Decimal}
    (hx : t.minVolume ≤ x) : ∃ n, min (input.gridVolume last) (t.aligned x) = input.gridVolume n ∧
      ∀ k, k ≤ n ↔ k ≤ last ∧ input.gridVolume k ≤ x := by
  obtain ⟨n, hn, haligned⟩ := aligned_steps ht hx
  have hwithin {k : ℕ} (hk : k ≤ last) : input.gridVolume k ≤ input.metadata.maxVolume :=
    (gridVolume_monotone ht hk).trans hlast
  have hiff {k : ℕ} (hk : k ≤ last) : k ≤ n ↔ input.gridVolume k ≤ x := by
    rw [← le_floor_iff ht (hwithin hk), hn]
    exact Int.ofNat_le.symm
  rw [haligned]
  rcases le_total n last with hle | hle
  · refine ⟨n, ?_, fun k => ⟨fun hk => ⟨hk.trans hle, (hiff (hk.trans hle)).mp hk⟩, ?_⟩⟩
    · rw [volumeAt_grid ht (hwithin hle)]
      exact min_eq_right (gridVolume_monotone ht hle)
    · rintro ⟨hk, hkx⟩
      exact (hiff hk).mpr hkx
  · refine ⟨last, min_eq_left ?_, fun k => ⟨fun hk => ⟨hk, (hiff hk).mp (hk.trans hle)⟩, And.left⟩⟩
    have hstep := ht.volumeStep.2.2.le
    have hmin := ht.minVolume.2.2.le
    have hcast : (last : ℚ) ≤ n := by exact_mod_cast hle
    have hsteps := times_mono (Nat.cast_nonneg last) hstep hcast
    have hnonneg : 0 ≤ (last : Decimal).times t.volumeStep :=
      Decimal.times_nonneg (mul_nonneg (Nat.cast_nonneg last) hstep)
    rw [← volumeAt_grid ht hlast, PositionTerms.volumeAt, PositionTerms.volumeAt]
    exact truncate_mono (by decide) (add_nonneg hmin hnonneg) (add_le_add_right hsteps _)

/-- The aligned maximum is the largest volume of the grid up to the maximum. -/
theorem maximumAligned_grid (ht : TermsOf input t) :
    ∃ last, t.maximumAligned = input.gridVolume last ∧
      ∀ k, k ≤ last ↔ input.gridVolume k ≤ input.metadata.maxVolume := by
  obtain ⟨n, hn, haligned⟩ := aligned_steps ht ht.volumes
  have hstep := ht.volumeStep.2.2
  have hdistance : 0 ≤ t.maxVolume - t.minVolume := sub_nonneg.mpr ht.volumes
  have hlast : input.gridVolume n ≤ input.metadata.maxVolume := by
    have hfloor : (n : ℚ) ≤ (t.maxVolume.minus t.minVolume).div t.volumeStep := by
      have h := Int.floor_le ((t.maxVolume.minus t.minVolume).div t.volumeStep)
      rwa [hn, Int.cast_natCast] at h
    have hminus := truncate_nonneg (p := Decimal.precision) hdistance
    have hle : (n : ℚ) ≤ (t.maxVolume - t.minVolume) / t.volumeStep :=
      calc (n : ℚ) ≤ (t.maxVolume.minus t.minVolume).div t.volumeStep := hfloor
        _ ≤ (t.maxVolume.minus t.minVolume) / t.volumeStep :=
          truncate_le (div_nonneg hminus hstep.le)
        _ ≤ (t.maxVolume - t.minVolume) / t.volumeStep :=
          div_le_div_of_nonneg_right (truncate_le hdistance) hstep.le
    rw [le_div_iff₀ hstep] at hle
    rw [PositionRiskInput.gridVolume, ← ht.minVolume.1, ← ht.volumeStep.1, ← ht.maxVolume.1]
    linarith
  refine ⟨n, ?_, fun k => ⟨fun hk => (gridVolume_monotone ht hk).trans hlast, fun hk => ?_⟩⟩
  · rw [PositionTerms.maximumAligned, haligned, volumeAt_grid ht hlast]
  · have hle := (le_floor_iff ht hk t.maxVolume).mpr (ht.maxVolume.1 ▸ hk)
    rw [hn] at hle
    exact Int.ofNat_le.mp hle

end

/-! ### Costs -/

theorem nonneg_div {a b : Decimal} (ha : 0 ≤ a) (hb : 0 ≤ b) : 0 ≤ a.div b :=
  truncate_nonneg (div_nonneg ha hb)

theorem nonneg_plus {a b : Decimal} (ha : 0 ≤ a) (hb : 0 ≤ b) : 0 ≤ a.plus b :=
  truncate_nonneg (add_nonneg ha hb)

theorem nonneg_times {a b : Decimal} (ha : 0 ≤ a) (hb : 0 ≤ b) : 0 ≤ a.times b :=
  truncate_nonneg (mul_nonneg ha hb)

/-- A positive decimal text is at least its smallest unit. -/
theorem unit_le {a : Decimal} (htext : isDecimalText a) (hpos : 0 < a) : 1 / 10 ^ 10 ≤ a := by
  obtain ⟨n, -, rfl⟩ := isDecimalText_iff.mp htext
  have hn : 1 ≤ n := by
    rcases Nat.eq_zero_or_pos n with rfl | hn
    · norm_num at hpos
    · exact hn
  have hcast : (1 : ℚ) ≤ n := by exact_mod_cast hn
  exact div_le_div_of_nonneg_right hcast (by norm_num)

theorem one_le_of_isInteger {a : Decimal} (hinteger : a.isInteger) (hpos : 0 < a) : 1 ≤ a := by
  rw [Decimal.isInteger, decide_eq_true_eq] at hinteger
  rw [← Rat.coe_int_num_of_den_eq_one hinteger]
  have hnum : 1 ≤ a.num := Rat.num_pos.mpr hpos
  exact_mod_cast hnum

theorem oneWayCommission_spec {metadata : SymbolMetadata} {price v r : Decimal}
    (h : oneWayCommission metadata price v = .ok r) : ∃ f : Decimal → Decimal,
      (∀ w, 0 < w → oneWayCommission metadata price w = .ok (f w)) ∧ (∀ w, 0 ≤ w → 0 ≤ f w) ∧
      (∀ w w', 0 ≤ w → w ≤ w' → f w ≤ f w') ∧ 0 < v := by
  simp only [oneWayCommission, bind_ok, decimal_ok, require_ok, pure_ok] at h
  obtain ⟨_, htype, _, hquote, scale, ⟨rfl, hscale⟩, conversion, ⟨rfl, hconversion⟩, rate,
    ⟨rfl, hrate⟩, _, ⟨hprice, hv, hscalePos, hconversionPos, hratePos⟩, minimum, hminimum, -⟩ := h
  have hnonneg {w : Decimal} (hw : 0 ≤ w) : 0 ≤ (((price.times w).times metadata.volumeScale).times
      metadata.commission.rate).div 1000000 := by
    have hvolume := nonneg_times (nonneg_times hprice.le hw) hscalePos.le
    exact nonneg_div (nonneg_times hvolume hratePos) (by norm_num)
  refine ⟨fun w => max (((((price.times w).times metadata.volumeScale).times
    metadata.commission.rate).div 1000000).times metadata.quoteToAccountConversionRate) minimum,
    fun w hw => ?_, fun w hw => ?_, fun w w' hw hle => ?_, hv⟩
  · simp only [oneWayCommission, bind_ok, decimal_ok, require_ok, pure_ok]
    exact ⟨(), htype, (), hquote, _, ⟨rfl, hscale⟩, _, ⟨rfl, hconversion⟩, _, ⟨rfl, hrate⟩, (),
      ⟨hprice, hw, hscalePos, hconversionPos, hratePos⟩, minimum, hminimum, rfl⟩
  · exact le_max_of_le_left (nonneg_times (hnonneg hw) hconversionPos.le)
  · refine max_le_max_right _ (times_mono (hnonneg hw) hconversionPos.le ?_)
    have hbase := nonneg_times hprice.le hw
    have hscaled := nonneg_times hbase hscalePos.le
    refine truncate_mono (by decide) (div_nonneg (nonneg_times hscaled hratePos) (by norm_num)) ?_
    refine div_le_div_of_nonneg_right ?_ (by norm_num)
    refine times_mono hscaled hratePos (times_mono hbase hscalePos.le ?_)
    exact truncate_mono (by decide) (mul_nonneg hprice.le hw)
      (mul_le_mul_of_nonneg_left hle hprice.le)

/-- The costs of a stop grow with the volume and are at least those of one point. -/
theorem stopCostReserve_spec {c : StopCostInput} {r : Decimal} (h : stopCostReserve c = .ok r) :
    ∃ f : Decimal → Decimal,
      (∀ w, isDecimalText w → 0 < w → stopCostReserve { c with volume := w } = .ok (f w)) ∧
      (∀ w w', 0 ≤ w → w ≤ w' → f w ≤ f w') ∧
      (∀ w, 1 / 10 ^ 10 ≤ w → 0 < c.metadata.tickValue → 1 / 10 ^ 20 ≤ f w) ∧
      isDecimalText c.volume ∧ 0 < c.volume := by
  simp only [stopCostReserve, bind_ok, decimal_ok, require_ok, pure_ok] at h
  obtain ⟨tick, ⟨rfl, htick⟩, points, ⟨rfl, hpoints⟩, _, ⟨hinteger, hpointsPos, htickPos⟩, entry,
    ⟨rfl, hentry⟩, stop, ⟨rfl, hstop⟩, volume, ⟨rfl, hvolume⟩, tickValue, ⟨rfl, htickValue⟩, feeRate,
    ⟨rfl, hfee⟩, commission, hcommission, -⟩ := h
  obtain ⟨g, hg, hgNonneg, hgMono, hvolumePos⟩ := oneWayCommission_spec hcommission
  have htickValueNonneg := (text_bounds htickValue).1
  have hfeeNonneg := (text_bounds hfee).1
  have hperPoint := nonneg_times hpointsPos.le htickValueNonneg
  -- the loss of a stop at the adverse price, for one unit of volume
  have hperVolume := nonneg_times (nonneg_plus
    (nonneg_div (abs_nonneg (c.entryPrice.minus c.stopLoss)) htickPos.le) hpointsPos.le)
    htickValueNonneg
  refine ⟨fun w => (((g w).times 2).plus
    ((c.adverseSlippagePoints.times c.metadata.tickValue).times w)).plus
    ((((((|c.entryPrice.minus c.stopLoss| : Decimal).div c.metadata.tickSize).plus
      c.adverseSlippagePoints).times c.metadata.tickValue).times w).times
      c.metadata.commission.pnlConversionFeeRate |>.div 100),
    fun w hw hwPos => ?_, fun w w' hw hle => ?_, fun w hw htickValuePos => ?_, hvolume, hvolumePos⟩
  · simp only [stopCostReserve, bind_ok, decimal_ok, require_ok, pure_ok]
    exact ⟨_, ⟨rfl, htick⟩, _, ⟨rfl, hpoints⟩, (), ⟨hinteger, hpointsPos, htickPos⟩, _,
      ⟨rfl, hentry⟩, _, ⟨rfl, hstop⟩, _, ⟨rfl, hw⟩, _, ⟨rfl, htickValue⟩, _, ⟨rfl, hfee⟩, _,
      hg w hwPos, rfl⟩
  · have htwo := nonneg_times (hgNonneg w hw) (by norm_num : (0 : ℚ) ≤ 2)
    have hpoint := nonneg_times hperPoint hw
    have hloss := nonneg_times hperVolume hw
    have hfees := nonneg_times hloss hfeeNonneg
    have hconversion := nonneg_div hfees (by norm_num : (0 : ℚ) ≤ 100)
    refine truncate_mono (by decide) (add_nonneg (nonneg_plus htwo hpoint) hconversion)
      (add_le_add ?_ ?_)
    · refine truncate_mono (by decide) (add_nonneg htwo hpoint) (add_le_add ?_ ?_)
      · exact times_mono (hgNonneg w hw) (by norm_num) (hgMono w w' hw hle)
      · exact truncate_mono (by decide) (mul_nonneg hperPoint hw)
          (mul_le_mul_of_nonneg_left hle hperPoint)
    · refine truncate_mono (by decide) (div_nonneg hfees (by norm_num)) ?_
      refine div_le_div_of_nonneg_right (times_mono hloss hfeeNonneg ?_) (by norm_num)
      exact truncate_mono (by decide) (mul_nonneg hperVolume hw)
        (mul_le_mul_of_nonneg_left hle hperVolume)
  · have hwNonneg : 0 ≤ w := le_trans (by norm_num) hw
    have htwo := nonneg_times (hgNonneg w hwNonneg) (by norm_num : (0 : ℚ) ≤ 2)
    have hfees := nonneg_times (nonneg_times hperVolume hwNonneg) hfeeNonneg
    have hconversion := nonneg_div hfees (by norm_num : (0 : ℚ) ≤ 100)
    have hcent : Fits 40 (1 / 10 ^ 20 : ℚ) := by
      have h : Fits 40 (((1 : ℕ) : ℚ) / 10 ^ 20) := fits_nat (by norm_num)
      simpa using h
    have hunit : Fits 40 (1 / 10 ^ 10 : ℚ) := by
      have h : Fits 40 (((1 : ℕ) : ℚ) / 10 ^ 10) := fits_nat (by norm_num)
      simpa using h
    have hone := one_le_of_isInteger hinteger hpointsPos
    have hvalue := unit_le htickValue htickValuePos
    have hpoint : 1 / 10 ^ 10 ≤ c.adverseSlippagePoints.times c.metadata.tickValue := by
      refine (hunit.le_truncate_iff (by decide) (by norm_num)).mpr ?_
      nlinarith
    have hpoints : 1 / 10 ^ 20 ≤
        (c.adverseSlippagePoints.times c.metadata.tickValue).times w := by
      refine (hcent.le_truncate_iff (by decide) (by norm_num)).mpr ?_
      have h := mul_le_mul hpoint hw (by norm_num) hperPoint
      calc (1 / 10 ^ 20 : ℚ) = 1 / 10 ^ 10 * (1 / 10 ^ 10) := by norm_num
        _ ≤ _ := h
    refine (hcent.le_truncate_iff (by decide) (by norm_num)).mpr ?_
    have hsum : (1 / 10 ^ 20 : ℚ) ≤ ((g w).times 2).plus
        ((c.adverseSlippagePoints.times c.metadata.tickValue).times w) := by
      refine (hcent.le_truncate_iff (by decide) (by norm_num)).mpr ?_
      linarith
    linarith

section

variable {input : PositionRiskInput} {t : PositionTerms}

/-- The loss with costs grows with the volume and exceeds the loss of the stop alone. -/
theorem totalLoss_spec (ht : TermsOf input t) {v l : Decimal} (h : totalLoss input t v = .ok l) :
    ∃ f : Decimal → Decimal,
      (∀ w, isDecimalText w → 0 < w → totalLoss input t w = .ok (f w)) ∧
      (∀ w w', 1 / 10 ^ 10 ≤ w → w ≤ w' → f w ≤ f w') ∧
      (∀ w, 1 / 10 ^ 10 ≤ w → ∃ costs, 1 / 10 ^ 20 ≤ costs ∧
        f w = (w.times t.lossPerVolume).plus costs) ∧ isDecimalText v ∧ 0 < v := by
  simp only [totalLoss, bind_ok, pure_ok] at h
  obtain ⟨reserve, hreserve, -⟩ := h
  obtain ⟨g, hg, hmono, hcosts, hv, hvPos⟩ := stopCostReserve_spec hreserve
  have htick : 0 < input.metadata.tickValue := ht.tickValue.1 ▸ ht.tickValue.2.2
  have hunit (w : Decimal) (hw : 1 / 10 ^ 10 ≤ w) := hcosts w hw htick
  refine ⟨fun w => (w.times t.lossPerVolume).plus (g w), fun w hw hwPos => ?_, fun w w' hw hle => ?_,
    fun w hw => ⟨g w, hunit w hw, rfl⟩, hv, hvPos⟩
  · simp only [totalLoss, bind_ok, pure_ok]
    exact ⟨g w, hg w hw hwPos, rfl⟩
  · have hwNonneg : 0 ≤ w := le_trans (by norm_num) hw
    have hcostsNonneg : 0 ≤ g w := le_trans (by norm_num) (hunit w hw)
    have hstop := nonneg_times hwNonneg ht.loss.le
    exact truncate_mono (by decide) (add_nonneg hstop hcostsNonneg)
      (add_le_add (times_mono hwNonneg ht.loss.le hle) (hmono w w' hwNonneg hle))

/-- The risk budget is exact, and has room for two more digits. -/
theorem riskBudget_exact (ht : TermsOf input t) :
    t.riskBudget = input.equity * input.baseRiskPercent / 100 ∧ Fits 40 t.riskBudget ∧
      Fits 40 (t.riskBudget + 1 / 10 ^ 20) ∧ 0 ≤ t.riskBudget := by
  obtain ⟨hequity, hequityText, -⟩ := ht.equity
  obtain ⟨hrisk, hriskText, -, hle⟩ := ht.baseRisk
  obtain ⟨n, hn, hnEq⟩ := isDecimalText_iff.mp hequityText
  obtain ⟨m, -, hmEq⟩ := isDecimalText_iff.mp hriskText
  have hm : m ≤ 5 * 10 ^ 10 := by
    rw [hmEq, div_le_iff₀ (by norm_num)] at hle
    exact_mod_cast hle
  have hproduct : n * m < 10 ^ 38 := by nlinarith
  have htimes : t.equity.times t.baseRisk = ((n * m : ℕ) : ℚ) / 10 ^ 20 := by
    have hfits : Fits 40 (((n * m : ℕ) : ℚ) / 10 ^ 20) := fits_nat (by omega)
    rw [Decimal.times, Decimal.precision, hnEq, hmEq, ← hfits.truncate_eq]
    congr 1
    push_cast
    ring
  have hbudget : t.riskBudget = ((n * m : ℕ) : ℚ) / 10 ^ 22 := by
    have hfits : Fits 40 (((n * m : ℕ) : ℚ) / 10 ^ 22) := fits_nat (by omega)
    rw [PositionTerms.riskBudget, htimes, Decimal.div, Decimal.precision, ← hfits.truncate_eq]
    congr 1
    ring
  refine ⟨?_, hbudget ▸ fits_nat (by omega), ?_, by rw [hbudget]; positivity⟩
  · rw [hbudget, ← hequity, ← hrisk, hnEq, hmEq]
    push_cast
    ring
  · have hfits : Fits 40 (((n * m + 100 : ℕ) : ℚ) / 10 ^ 22) := fits_nat (by omega)
    rw [hbudget]
    convert hfits using 1
    push_cast
    ring

/-- A volume whose loss is within the budget is not larger than the raw volume. -/
theorem le_rawVolume (ht : TermsOf input t) {v costs : Decimal} (hv : isDecimalText v)
    (hcosts : 1 / 10 ^ 20 ≤ costs)
    (hloss : (v.times t.lossPerVolume).plus costs ≤ t.riskBudget) : v ≤ t.rawVolume := by
  obtain ⟨-, hfits, hmore, hnonneg⟩ := riskBudget_exact ht
  rw [PositionTerms.rawVolume, Decimal.div, Decimal.precision,
    (text_fits hv).le_truncate_iff (by norm_num) (text_bounds hv).1, le_div_iff₀ ht.loss]
  by_contra hexceeds
  have hbudget : t.riskBudget ≤ v.times t.lossPerVolume :=
    (hfits.le_truncate_iff (by norm_num) hnonneg).mpr (not_le.mp hexceeds).le
  have htotal : t.riskBudget + 1 / 10 ^ 20 ≤ (v.times t.lossPerVolume).plus costs := by
    refine (hmore.le_truncate_iff (by norm_num) (by positivity)).mpr ?_
    linarith
  have hless : t.riskBudget < t.riskBudget + 1 / 10 ^ 20 := by norm_num
  exact absurd (hless.trans_le (htotal.trans hloss)) (lt_irrefl _)

/-! ### The stages -/

theorem notionalPerVolume_nonneg (ht : TermsOf input t) : 0 ≤ input.notionalPerVolume := by
  have hentry := (text_bounds (ht.entry.1 ▸ ht.entry.2)).1
  have hscale := (ht.volumeScale.1 ▸ ht.volumeScale.2).le
  exact mul_nonneg (mul_nonneg hentry hscale) (ht.conversion.1 ▸ ht.conversion.2).le

/-- What the notional limit leaves of the grid, if it leaves the minimum. -/
theorem notionalVolume_grid (ht : TermsOf input t) {limit : Decimal} (hlimit : isDecimalText limit)
    (hexact : (input.entryPrice.times input.metadata.volumeScale).times
      input.metadata.quoteToAccountConversionRate = input.notionalPerVolume)
    (hzero : input.entryPrice ≠ 0 ∨ limit ≠ 0) :
    (input.metadata.minVolume * input.notionalPerVolume ≤ limit → ∃ n,
      notionalVolume t limit = .ok (some (input.gridVolume n)) ∧
        ∀ k, k ≤ n ↔ input.gridVolume k ≤ input.metadata.maxVolume ∧
          input.gridVolume k * input.notionalPerVolume ≤ limit) ∧
    ∀ r, notionalVolume t limit = .ok r → input.metadata.minVolume * input.notionalPerVolume ≤ limit := by
  obtain ⟨last, hmaximum, hlast⟩ := maximumAligned_grid ht
  have hlimitNonneg := (text_bounds hlimit).1
  have hmin := ht.minVolume.2.1
  rw [notionalVolume, ht.entry.1, ht.volumeScale.1, ht.conversion.1, hexact]
  dsimp only
  rcases (notionalPerVolume_nonneg ht).eq_or_lt with hper | hper
  · have hentry : input.entryPrice = 0 := by
      have hscale := (ht.volumeScale.1 ▸ ht.volumeScale.2).ne'
      have hconversion := (ht.conversion.1 ▸ ht.conversion.2).ne'
      have hproduct := hper.symm
      rw [PositionRiskInput.notionalPerVolume] at hproduct
      simpa only [mul_eq_zero, hscale, hconversion, or_false] using hproduct
    have hne : limit ≠ 0 := hzero.resolve_left fun h => h hentry
    rw [← hper, if_pos rfl, if_neg hne]
    simp only [mul_zero, hlimitNonneg, and_true]
    exact ⟨fun _ => ⟨last, by rw [hmaximum], hlast⟩, fun _ _ => trivial⟩
  · have hle {v : Decimal} (hv : isDecimalText v) :
        v ≤ limit.div input.notionalPerVolume ↔ v * input.notionalPerVolume ≤ limit := by
      rw [Decimal.div, Decimal.precision, (text_fits hv).le_truncate_iff (by norm_num)
        (text_bounds hv).1, le_div_iff₀ hper]
    rw [if_neg hper.ne']
    refine ⟨fun hminimum => ?_, fun r hr => ?_⟩
    · rw [← ht.minVolume.1, ← hle hmin] at hminimum
      obtain ⟨n, hn, hiff⟩ := min_aligned ht ((hlast last).mp le_rfl) hminimum
      refine ⟨n, ?_, fun k => ?_⟩
      · rw [require_eq hminimum, ok_bind, hmaximum, min_comm, hn]
        rfl
      · rw [hiff, hlast]
        refine and_congr_right fun hk => ?_
        exact hle (gridVolume_text ht hk).1
    · simp only [bind_ok, require_ok, pure_ok] at hr
      obtain ⟨-, hminimum, -⟩ := hr
      rwa [← ht.minVolume.1, ← hle hmin]

/-- A volume of the grid is within the maximum, the raw volume and the notional limit. -/
structure WithinRisk (input : PositionRiskInput) (t : PositionTerms) (k : ℕ) : Prop where
  maximum : input.gridVolume k ≤ input.metadata.maxVolume
  raw : input.gridVolume k ≤ t.rawVolume
  notional : ∀ limit ∈ input.maxPositionNotional, input.gridVolume k * input.notionalPerVolume ≤ limit

theorem normalizedByRisk_grid (ht : TermsOf input t) (hvalid : input.Valid)
    (hfits : input.NotionalFits) :
    (WithinRisk input t 0 → ∃ n, normalizedByRisk input t = .ok (some (input.gridVolume n)) ∧
      ∀ k, k ≤ n ↔ WithinRisk input t k) ∧
    ∀ r, normalizedByRisk input t = .ok r → WithinRisk input t 0 := by
  obtain ⟨last, hmaximum, hlast⟩ := maximumAligned_grid ht
  have hminimum : input.gridVolume 0 ≤ input.metadata.maxVolume := by
    rw [gridVolume_zero, ← ht.minVolume.1, ← ht.maxVolume.1]
    exact ht.volumes
  refine ⟨fun hzero => ?_, fun r hr => ?_⟩
  · have hraw : t.minVolume ≤ t.rawVolume := by
      rw [ht.minVolume.1, ← gridVolume_zero]
      exact hzero.raw
    obtain ⟨n, hn, hiff⟩ := min_aligned ht ((hlast last).mp le_rfl) hraw
    have hnormalized : min (t.aligned t.rawVolume) t.maximumAligned = input.gridVolume n := by
      rw [hmaximum, min_comm, hn]
    rw [normalizedByRisk, require_eq hraw, ok_bind]
    dsimp only
    rw [hnormalized]
    cases hlimit : input.maxPositionNotional with
    | none =>
      refine ⟨n, rfl, fun k => ?_⟩
      rw [hiff, hlast]
      refine ⟨fun h => ⟨h.1, h.2, ?_⟩, fun h => ⟨h.maximum, h.raw⟩⟩
      rw [hlimit]
      intro limit hmem
      cases hmem
    | some limit =>
      have hmem : limit ∈ input.maxPositionNotional := hlimit
      have htext := hvalid.notional limit hmem
      have hnotional := hzero.notional limit hmem
      rw [gridVolume_zero] at hnotional
      obtain ⟨m, hm, hmiff⟩ :=
        (notionalVolume_grid ht htext (hfits limit hmem).1 (hfits limit hmem).2).1 hnotional
      refine ⟨min n m, ?_, fun k => ?_⟩
      · dsimp only
        rw [decimal_eq _ htext, ok_bind, hm, ok_bind, Option.map_some]
        congr 2
        exact ((gridVolume_monotone ht).map_min).symm
      · rw [le_min_iff, hiff, hlast, hmiff]
        refine ⟨fun h => ⟨h.1.1, h.1.2, ?_⟩, fun h =>
          ⟨⟨h.maximum, h.raw⟩, h.maximum, h.notional limit hmem⟩⟩
        rw [hlimit]
        rintro _ ⟨⟩
        exact h.2.2
  · simp only [normalizedByRisk, bind_ok, require_ok] at hr
    obtain ⟨-, hraw, hr⟩ := hr
    refine ⟨hminimum, by rw [gridVolume_zero, ← ht.minVolume.1]; exact hraw, ?_⟩
    intro limit hmem
    rw [show input.maxPositionNotional = some limit from hmem] at hr
    simp only [bind_ok, decimal_ok] at hr
    obtain ⟨_, ⟨rfl, htext⟩, notional, hnotional, -⟩ := hr
    rw [gridVolume_zero]
    exact (notionalVolume_grid ht htext (hfits limit hmem).1 (hfits limit hmem).2).2 _ hnotional

/-- A volume of the grid is within the margin limits. -/
structure WithinMargin (input : PositionRiskInput) (volume : Decimal) : Prop where
  available : volume * input.estimatedMarginPerVolume ≤ input.availableMargin
  usage : volume * input.estimatedMarginPerVolume + input.currentMargin ≤
    input.equity * input.maxMarginUsagePercent / 100

variable (input) in
/-- What `sizePosition` reads about margin, for a valid input. -/
def PositionRiskInput.margins : MarginTerms :=
  ⟨input.estimatedMarginPerVolume, input.currentMargin, input.maxMarginUsagePercent⟩

/-- The margin budget is exact. -/
theorem budget_exact (ht : TermsOf input t) (hvalid : input.Valid) :
    input.margins.budget t = min input.availableMargin
      (input.equity * input.maxMarginUsagePercent / 100 - input.currentMargin) := by
  obtain ⟨hequity, hequityText, -⟩ := ht.equity
  obtain ⟨hpercentText, -, hle⟩ := hvalid.usage
  obtain ⟨n, hn, hnEq⟩ := isDecimalText_iff.mp hequityText
  obtain ⟨m, -, hmEq⟩ := isDecimalText_iff.mp hpercentText
  obtain ⟨c, hc, hcEq⟩ := isDecimalText_iff.mp hvalid.current
  have hm : m ≤ 100 * 10 ^ 10 := by
    rw [hmEq, div_le_iff₀ (by norm_num)] at hle
    exact_mod_cast hle
  have hproduct : n * m < 10 ^ 38 + 1 := by nlinarith
  have htimes : t.equity.times input.maxMarginUsagePercent = ((n * m : ℕ) : ℚ) / 10 ^ 20 := by
    have hfits : Fits 40 (((n * m : ℕ) : ℚ) / 10 ^ 20) := fits_nat (by omega)
    rw [Decimal.times, Decimal.precision, hnEq, hmEq, ← hfits.truncate_eq]
    congr 1
    push_cast
    ring
  have hshare : (t.equity.times input.maxMarginUsagePercent).div 100 =
      ((n * m : ℕ) : ℚ) / 10 ^ 22 := by
    have hfits : Fits 40 (((n * m : ℕ) : ℚ) / 10 ^ 22) := fits_nat (by omega)
    rw [htimes, Decimal.div, Decimal.precision, ← hfits.truncate_eq]
    congr 1
    ring
  have hminus : ((t.equity.times input.maxMarginUsagePercent).div 100).minus input.currentMargin =
      ((n * m : ℕ) : ℚ) / 10 ^ 22 - c / 10 ^ 10 := by
    rw [hshare, Decimal.minus, hcEq]
    refine Decimal.exact (n * m - c * 10 ^ 12 : ℤ) 22 ?_ ?_
    · push_cast
      ring
    · rw [abs_lt]
      constructor <;> push_cast <;> nlinarith
  rw [MarginTerms.budget, PositionRiskInput.margins, ht.available.1]
  dsimp only
  rw [hminus, ← hequity, hnEq, hmEq, hcEq]
  congr 2
  push_cast
  ring

/-- The margin of a volume is within the budget exactly if it is within the limits. -/
theorem le_budget_iff (ht : TermsOf input t) (hvalid : input.Valid) (v : Decimal) :
    v * input.estimatedMarginPerVolume ≤ input.margins.budget t ↔ WithinMargin input v := by
  rw [budget_exact ht hvalid, le_min_iff, le_sub_iff_add_le]
  exact ⟨fun h => ⟨h.1, h.2⟩, fun h => ⟨h.available, h.usage⟩⟩

/-- A product of decimal texts that is no larger than a text is exact. -/
theorem times_eq {v p : Decimal} (hv : isDecimalText v) (hp : isDecimalText p)
    (hlt : v * p < 10 ^ 16) : v.times p = v * p := by
  obtain ⟨n, -, hnEq⟩ := isDecimalText_iff.mp hv
  obtain ⟨m, -, hmEq⟩ := isDecimalText_iff.mp hp
  have hunits : v * p = ((n * m : ℕ) : ℚ) / 10 ^ 20 := by
    rw [hnEq, hmEq]
    push_cast
    ring
  have hlt' : n * m < 10 ^ 40 := by
    rw [hunits, div_lt_iff₀ (by norm_num)] at hlt
    have hcast : ((n * m : ℕ) : ℚ) < ((10 ^ 40 : ℕ) : ℚ) := hlt.trans_le (by norm_num)
    exact_mod_cast hcast
  have hfits : Fits 40 (v * p) := hunits ▸ fits_nat hlt'
  exact hfits.truncate_eq

/-- A product of decimal texts compares with a decimal text as if it were not rounded. -/
theorem times_le_iff {v p b : Decimal} (hv : isDecimalText v) (hp : isDecimalText p)
    (hb : b < 10 ^ 16) : v.times p ≤ b ↔ v * p ≤ b := by
  rcases lt_or_ge (v * p) (10 ^ 16) with hlt | hge
  · rw [times_eq hv hp hlt]
  -- a product that does not fit exceeds every text
  · have hbig : Fits 40 (((10 ^ 16 : ℕ) : ℚ) / 10 ^ 0) := fits_nat (by norm_num)
    rw [pow_zero, div_one, Nat.cast_pow, Nat.cast_ofNat] at hbig
    have hexceeds : (10 : ℚ) ^ 16 ≤ v.times p :=
      (hbig.le_truncate_iff (by decide) (by norm_num)).mpr hge
    exact iff_of_false (not_le.mpr (hb.trans_le hexceeds)) (not_le.mpr (hb.trans_le hge))

theorem marginTerms_grid (ht : TermsOf input t) (hvalid : input.Valid) (m : MarginTerms) :
    marginTerms input t = .ok m ↔
      m = input.margins ∧ WithinMargin input (input.gridVolume 0) := by
  have hbudget : input.margins.budget t < 10 ^ 16 := by
    rw [budget_exact ht hvalid]
    exact (min_le_left _ _).trans_lt (text_bounds (ht.available.1 ▸ ht.available.2)).2
  have hminimum := times_le_iff ht.minVolume.2.1 hvalid.margin.1 hbudget
  rw [ht.minVolume.1, le_budget_iff ht hvalid, ← gridVolume_zero] at hminimum
  simp only [marginTerms, bind_ok, decimal_ok, require_ok, pure_ok]
  constructor
  · rintro ⟨_, ⟨rfl, -⟩, _, ⟨rfl, -⟩, _, ⟨rfl, -⟩, _, -, _, haffordable, rfl⟩
    rw [ht.minVolume.1, ← gridVolume_zero] at haffordable
    exact ⟨rfl, hminimum.mp haffordable⟩
  · rintro ⟨rfl, hwithin⟩
    refine ⟨_, ⟨rfl, hvalid.margin.1⟩, _, ⟨rfl, hvalid.current⟩, _, ⟨rfl, hvalid.usage.1⟩, (),
      ⟨hvalid.margin.2, (text_bounds hvalid.current).1, (text_bounds ht.available.2).1,
        hvalid.usage.2⟩, (), ?_, rfl⟩
    rw [ht.minVolume.1, ← gridVolume_zero]
    exact hminimum.mpr hwithin

/-- What the margin leaves of the volumes up to the last one. -/
theorem normalizedByMargin_grid (ht : TermsOf input t) (hvalid : input.Valid) {last : ℕ}
    (hlast : ∀ k, k ≤ last ↔ WithinRisk input t k)
    (hzero : WithinMargin input (input.gridVolume 0)) :
    ∃ n, normalizedByMargin t input.margins (some (input.gridVolume last)) =
      .ok (some (input.gridVolume n)) ∧
      ∀ k, k ≤ n ↔ WithinRisk input t k ∧ WithinMargin input (input.gridVolume k) := by
  have hwithin := (hlast last).mp le_rfl
  have hle {k : ℕ} (hk : input.gridVolume k ≤ input.metadata.maxVolume) :
      input.gridVolume k ≤ (input.margins.budget t).div input.estimatedMarginPerVolume ↔
        WithinMargin input (input.gridVolume k) := by
    have htext := (gridVolume_text ht hk).1
    rw [Decimal.div, Decimal.precision, (text_fits htext).le_truncate_iff (by norm_num)
      (text_bounds htext).1, le_div_iff₀ hvalid.margin.2, le_budget_iff ht hvalid]
  have hminimum : t.minVolume ≤
      (input.margins.budget t).div input.estimatedMarginPerVolume := by
    rw [ht.minVolume.1, ← gridVolume_zero]
    exact (hle ((hlast 0).mp (Nat.zero_le _)).maximum).mpr hzero
  obtain ⟨n, hn, hiff⟩ := min_aligned ht hwithin.maximum hminimum
  refine ⟨n, ?_, fun k => ?_⟩
  · have hnlast := ((hiff n).mp le_rfl).1
    have hsome : (some (input.gridVolume last)).map
        (min · (t.aligned ((input.margins.budget t).div input.margins.perVolume))) =
          some (input.gridVolume n) := congrArg some hn
    simp only [normalizedByMargin, bind_ok, require_ok, pure_ok, hsome]
    refine ⟨(), ?_, trivial⟩
    rintro _ ⟨⟩
    refine ⟨((hlast n).mp hnlast).raw, ?_⟩
    rw [ht.minVolume.1, ← gridVolume_zero]
    exact gridVolume_monotone ht (Nat.zero_le n)
  · rw [hiff, hlast]
    exact and_congr_right fun hk => hle hk.maximum

/-- The search for the last step that fits a test which only ever turns false. -/
theorem searchStep_spec {fits : ℕ → Except String Bool} {p : ℕ → Prop} {low high : ℕ}
    (htest : ∀ k, low ≤ k → k ≤ high → (fits k = .ok true ∧ p k) ∨ (fits k = .ok false ∧ ¬ p k))
    (hanti : ∀ j k, j ≤ k → p k → p j) (hle : low ≤ high) (hlow : p low) :
    ∃ n, searchStep fits low high = .ok n ∧ low ≤ n ∧ n ≤ high ∧ p n ∧
      ∀ k, k ≤ high → p k → k ≤ n := by
  fun_induction searchStep fits low high with
  | case1 low high hlt mid ihTrue ihFalse =>
    have hmid : low < mid ∧ mid ≤ high := by omega
    rcases htest mid hmid.1.le hmid.2 with ⟨hfits, hp⟩ | ⟨hfits, hp⟩
    · obtain ⟨n, hn, hlo, hhi, hspec⟩ :=
        ihTrue (fun k hk => htest k (hmid.1.le.trans hk)) hmid.2 hp
      rw [hfits, ok_bind, if_pos rfl]
      exact ⟨n, hn, hmid.1.le.trans hlo, hhi, hspec⟩
    · obtain ⟨n, hn, hlo, hhi, hpn, hspec⟩ :=
        ihFalse (fun k hk hk' => htest k hk (by omega)) (by omega) hlow
      rw [hfits, ok_bind, if_neg (by decide)]
      refine ⟨n, hn, hlo, by omega, hpn, fun k hk hpk => hspec k ?_ hpk⟩
      by_contra hlarge
      exact hp (hanti mid k (by omega) hpk)
  | case2 low high hnot =>
    obtain rfl : low = high := by omega
    exact ⟨low, rfl, le_rfl, le_rfl, hlow, fun k hk _ => hk⟩

/-- The checks on the volume that was chosen pass for a volume within the bounds. -/
theorem finalChecks_grid (ht : TermsOf input t) (hvalid : input.Valid) {v : Decimal} (hv : 0 < v)
    (hbounds : input.Bounds v) (htext : isDecimalText v) :
    finalChecks input t input.margins v (v.times input.estimatedMarginPerVolume) = .ok () := by
  have hequity := ht.equity.2.2
  have hcurrent := (text_bounds hvalid.current).1
  have hentry := (text_bounds (ht.entry.1 ▸ ht.entry.2)).1
  have hscale := (ht.volumeScale.1 ▸ ht.volumeScale.2).le
  have hconversion := (ht.conversion.1 ▸ ht.conversion.2).le
  have hmargin : 0 < v * input.estimatedMarginPerVolume := mul_pos hv hvalid.margin.2
  have havailable := text_bounds (ht.available.1 ▸ ht.available.2)
  have hexact := times_eq htext hvalid.margin.1 (hbounds.available.trans_lt havailable.2)
  have husage : (((v * input.estimatedMarginPerVolume : Decimal).plus input.margins.current).div
      t.equity).times 100 ≤ input.margins.percent := by
    change (((v * input.estimatedMarginPerVolume : Decimal).plus input.currentMargin).div
      t.equity).times 100 ≤ input.maxMarginUsagePercent
    have hplus := nonneg_plus hmargin.le hcurrent
    have hdiv := nonneg_div hplus hequity.le
    have hlimit := hbounds.usage
    rw [← ht.equity.1] at hlimit
    calc _ ≤ _ := Decimal.times_le (mul_nonneg hdiv (by norm_num))
      _ ≤ ((v * input.estimatedMarginPerVolume : Decimal).plus input.currentMargin) / t.equity *
          100 := mul_le_mul_of_nonneg_right (Decimal.div_le (div_nonneg hplus hequity.le))
            (by norm_num)
      _ ≤ (v * input.estimatedMarginPerVolume + input.currentMargin) / t.equity * 100 := by
        refine mul_le_mul_of_nonneg_right ?_ (by norm_num)
        exact div_le_div_of_nonneg_right (truncate_le (add_nonneg hmargin.le hcurrent)) hequity.le
      _ ≤ t.equity * input.maxMarginUsagePercent / 100 / t.equity * 100 := by
        refine mul_le_mul_of_nonneg_right ?_ (by norm_num)
        exact div_le_div_of_nonneg_right hlimit hequity.le
      _ = input.maxMarginUsagePercent := by
        field_simp
  rw [finalChecks, hexact, require_eq ⟨hmargin, ht.available.1 ▸ havailable.1⟩, ok_bind,
    require_eq (ht.available.1 ▸ hbounds.available), ok_bind, require_eq husage, ok_bind]
  cases hlimit : input.maxPositionNotional with
  | none => rfl
  | some limit =>
    have hmem : limit ∈ input.maxPositionNotional := hlimit
    dsimp only
    rw [decimal_eq _ (hvalid.notional limit hmem), ok_bind]
    refine require_eq (le_trans ?_ (hbounds.notional limit hmem))
    rw [ht.entry.1, ht.volumeScale.1, ht.conversion.1]
    have hfirst := nonneg_times hentry hv.le
    have hsecond := nonneg_times hfirst hscale
    calc _ ≤ _ := Decimal.times_le (mul_nonneg hsecond hconversion)
      _ ≤ (input.entryPrice.times v) * input.metadata.volumeScale *
          input.metadata.quoteToAccountConversionRate :=
        mul_le_mul_of_nonneg_right (Decimal.times_le (mul_nonneg hfirst hscale)) hconversion
      _ ≤ input.entryPrice * v * input.metadata.volumeScale *
          input.metadata.quoteToAccountConversionRate := by
        refine mul_le_mul_of_nonneg_right ?_ hconversion
        exact mul_le_mul_of_nonneg_right (Decimal.times_le (mul_nonneg hentry hv.le)) hscale
      _ = v * input.notionalPerVolume := by
        rw [PositionRiskInput.notionalPerVolume]
        ring

/-- The bounds, as the stages of the sizing see them. -/
theorem bounds_iff (hterms : positionTerms input = .ok t) {f : Decimal → Decimal}
    (hf : ∀ w, isDecimalText w → 0 < w → totalLoss input t w = .ok (f w))
    (hcosts : ∀ w, 1 / 10 ^ 10 ≤ w → ∃ costs, 1 / 10 ^ 20 ≤ costs ∧
      f w = (w.times t.lossPerVolume).plus costs) (k : ℕ) :
    input.Bounds (input.gridVolume k) ↔ WithinRisk input t k ∧
      WithinMargin input (input.gridVolume k) ∧ f (input.gridVolume k) ≤ t.riskBudget := by
  have ht := positionTerms_of hterms
  have hbudget := (riskBudget_exact ht).1
  have hpos := gridVolume_pos ht k
  have hloss (hmax : input.gridVolume k ≤ input.metadata.maxVolume) :
      lossWithCosts input (input.gridVolume k) = .ok (f (input.gridVolume k)) := by
    rw [lossWithCosts, hterms, ok_bind]
    exact hf _ (gridVolume_text ht hmax).1 hpos
  constructor
  · rintro ⟨hmax, ⟨loss, hok, hle⟩, havailable, husage, hnotional⟩
    have htext := (gridVolume_text ht hmax).1
    rw [hloss hmax] at hok
    cases hok
    rw [← hbudget] at hle
    obtain ⟨costs, hmore, hfEq⟩ := hcosts _ (unit_le htext hpos)
    refine ⟨⟨hmax, ?_, hnotional⟩, ⟨havailable, husage⟩, hle⟩
    exact le_rawVolume ht htext hmore (hfEq ▸ hle)
  · rintro ⟨⟨hmax, -, hnotional⟩, ⟨havailable, husage⟩, hle⟩
    exact ⟨hmax, ⟨_, hloss hmax, hbudget ▸ hle⟩, havailable, husage, hnotional⟩

/-- A smaller volume of the grid is within the bounds too. -/
theorem bounds_anti (hterms : positionTerms input = .ok t) (hvalid : input.Valid) {j k : ℕ}
    (hjk : j ≤ k) (h : input.Bounds (input.gridVolume k)) : input.Bounds (input.gridVolume j) := by
  have ht := positionTerms_of hterms
  have hle := gridVolume_monotone ht hjk
  have hmax := hle.trans h.maximum
  have hmargin := mul_le_mul_of_nonneg_right hle hvalid.margin.2.le
  obtain ⟨loss, hloss, hwithin⟩ := h.loss
  rw [lossWithCosts, hterms, ok_bind] at hloss
  obtain ⟨f, hf, hmono, -, htext, hpos⟩ := totalLoss_spec ht hloss
  rw [hf _ htext hpos] at hloss
  cases hloss
  have htextJ := (gridVolume_text ht hmax).1
  refine ⟨hmax, ⟨f (input.gridVolume j), ?_, ?_⟩, hmargin.trans h.available, ?_, fun limit hlimit => ?_⟩
  · rw [lossWithCosts, hterms, ok_bind]
    exact hf _ htextJ (gridVolume_pos ht j)
  · exact (hmono _ _ (unit_le htextJ (gridVolume_pos ht j)) hle).trans hwithin
  · linarith [h.usage]
  · exact (mul_le_mul_of_nonneg_right hle (notionalPerVolume_nonneg ht)).trans
      (h.notional limit hlimit)

/-- Where the sizing comes to a volume, the minimum is within the bounds. -/
theorem bounds_of_sizeVolume (hvalid : input.Valid) (hfits : input.NotionalFits)
    {decision : PositionRiskDecision} (h : sizeVolume input = .ok decision) :
    input.Bounds (input.gridVolume 0) := by
  simp only [sizeVolume, bind_ok, require_ok, pure_ok] at h
  obtain ⟨t, hterms, _, hrisk, m, hmargin, _, -, _, hcosted, -⟩ := h
  have ht := positionTerms_of hterms
  simp only [costedVolume, bind_ok, require_ok] at hcosted
  obtain ⟨loss, hloss, -, hwithin, -⟩ := hcosted
  obtain ⟨f, hf, -, hcosts, htext, hpos⟩ := totalLoss_spec ht hloss
  rw [hf _ htext hpos] at hloss
  cases hloss
  refine (bounds_iff hterms hf hcosts 0).mpr ⟨?_, ?_, ?_⟩
  · exact (normalizedByRisk_grid ht hvalid hfits).2 _ hrisk
  · exact ((marginTerms_grid ht hvalid m).mp hmargin).2
  · rw [gridVolume_zero, ← ht.minVolume.1]
    exact hwithin

/-- From a minimum within the bounds the sizing comes to the last such volume of the grid. -/
theorem sizeVolume_of_bounds (hvalid : input.Valid) (hfits : input.NotionalFits)
    (hzero : input.Bounds (input.gridVolume 0)) : ∃ n decision, sizeVolume input = .ok decision ∧
      decision.approved = true ∧ decision.normalizedVolume = some (input.gridVolume n) ∧
      input.Bounds (input.gridVolume n) ∧ ∀ k, input.Bounds (input.gridVolume k) → k ≤ n := by
  obtain ⟨t, hterms⟩ := hvalid.terms
  have ht := positionTerms_of hterms
  obtain ⟨loss, hloss, -⟩ := hzero.loss
  rw [lossWithCosts, hterms, ok_bind] at hloss
  obtain ⟨f, hf, -, hcosts, -, -⟩ := totalLoss_spec ht hloss
  have hiff := bounds_iff hterms hf hcosts
  obtain ⟨hrisk, hmargin, hfirst⟩ := (hiff 0).mp hzero
  obtain ⟨n1, hn1, hiff1⟩ := (normalizedByRisk_grid ht hvalid hfits).1 hrisk
  obtain ⟨n2, hn2, hiff2⟩ := normalizedByMargin_grid ht hvalid hiff1 hmargin
  have hmax {k : ℕ} (hk : k ≤ n2) := ((hiff2 k).mp hk).1.maximum
  have hvolume {k : ℕ} (hk : k ≤ n2) : totalLoss input t (t.volumeAt k) =
      .ok (f (input.gridVolume k)) := by
    rw [volumeAt_grid ht (hmax hk)]
    exact hf _ (gridVolume_text ht (hmax hk)).1 (gridVolume_pos ht k)
  have hwithin {k : ℕ} (hk : k ≤ n2) :
      f (input.gridVolume k) ≤ t.riskBudget ↔ input.Bounds (input.gridVolume k) := by
    obtain ⟨hriskK, hmarginK⟩ := (hiff2 k).mp hk
    exact ⟨fun h => (hiff k).mpr ⟨hriskK, hmarginK, h⟩, fun h => ((hiff k).mp h).2.2⟩
  have hsearch : ∃ n, searchStep (fun step => do
      return decide ((← totalLoss input t (t.volumeAt step)) ≤ t.riskBudget)) 0 n2 = .ok n ∧
      0 ≤ n ∧ n ≤ n2 ∧ input.Bounds (input.gridVolume n) ∧
      ∀ k, k ≤ n2 → input.Bounds (input.gridVolume k) → k ≤ n := by
    refine searchStep_spec (fun k _ hk => ?_) (fun j k hjk => bounds_anti hterms hvalid hjk)
      (Nat.zero_le _) hzero
    rw [hvolume hk, ok_bind]
    by_cases hfit : f (input.gridVolume k) ≤ t.riskBudget
    · exact .inl ⟨by rw [decide_eq_true hfit]; rfl, (hwithin hk).mp hfit⟩
    · exact .inr ⟨by rw [decide_eq_false hfit]; rfl, fun h => hfit ((hwithin hk).mpr h)⟩
  obtain ⟨n, hn, -, hle, hbounds, hlargest⟩ := hsearch
  have hminimum : totalLoss input t t.minVolume = .ok (f (input.gridVolume 0)) := by
    rw [ht.minVolume.1, ← gridVolume_zero]
    exact hf _ (gridVolume_text ht hrisk.maximum).1 (gridVolume_pos ht 0)
  have hcosted : costedVolume input t (some (input.gridVolume n2)) =
      .ok (input.gridVolume n) := by
    rw [costedVolume, hminimum, ok_bind, require_eq hfirst, ok_bind, Option.map_some,
      stepsBelow_grid ht (hmax le_rfl), Option.getD_some]
    dsimp only
    rw [hn, ok_bind, volumeAt_grid ht (hmax hle)]
    rfl
  have hlossN : totalLoss input t (input.gridVolume n) = .ok (f (input.gridVolume n)) := by
    have hat := hvolume hle
    rwa [volumeAt_grid ht (hmax hle)] at hat
  have hmargins := (marginTerms_grid ht hvalid input.margins).mpr ⟨rfl, hmargin⟩
  have hchecks := finalChecks_grid ht hvalid (gridVolume_pos ht n) hbounds
    (gridVolume_text ht hbounds.maximum).1
  have hsize : ∃ decision, sizeVolume input = .ok decision ∧ decision.approved = true ∧
      decision.normalizedVolume = some (input.gridVolume n) := by
    simp only [sizeVolume, bind_ok, require_ok, pure_ok]
    exact ⟨_, ⟨t, hterms, _, hn1, _, hmargins, _, hn2, _, hcosted, _, hlossN, (),
      (hwithin hle).mpr hbounds, (), hchecks, rfl⟩, rfl, rfl⟩
  obtain ⟨decision, hok, happroved, hvolumeEq⟩ := hsize
  refine ⟨n, decision, hok, happroved, hvolumeEq, hbounds, fun k hk => ?_⟩
  obtain ⟨hriskK, hmarginK, -⟩ := (hiff k).mp hk
  exact hlargest k ((hiff2 k).mpr ⟨hriskK, hmarginK⟩) hk

/-- A sizing that comes to a volume has found the account, the symbol and the costs valid. -/
theorem valid_of_sizeVolume {decision : PositionRiskDecision}
    (h : sizeVolume input = .ok decision) : input.Valid := by
  simp only [sizeVolume, bind_ok, require_ok, pure_ok] at h
  obtain ⟨t, hterms, _, hrisk, m, hmargin, _, -, _, hcosted, -⟩ := h
  have ht := positionTerms_of hterms
  simp only [marginTerms, bind_ok, decimal_ok, require_ok] at hmargin
  obtain ⟨_, ⟨rfl, hmarginText⟩, _, ⟨rfl, hcurrent⟩, _, ⟨rfl, husage⟩, _, hpositive, -⟩ := hmargin
  simp only [costedVolume, bind_ok] at hcosted
  obtain ⟨loss, hloss, -⟩ := hcosted
  refine ⟨⟨t, hterms⟩, ⟨hmarginText, hpositive.1⟩, hcurrent, ⟨husage, hpositive.2.2.2⟩, ?_,
    ⟨loss, ?_⟩⟩
  · intro limit hlimit
    simp only [normalizedByRisk, bind_ok, Option.mem_def.mp hlimit, decimal_ok] at hrisk
    obtain ⟨_, -, _, ⟨rfl, hlimitText⟩, -⟩ := hrisk
    exact hlimitText
  · rw [lossWithCosts, hterms, ok_bind, ← ht.minVolume.1]
    exact hloss

theorem sizeVolume_of_approved (happroved : (sizePosition input).approved) :
    ∃ decision, sizeVolume input = .ok decision := by
  cases hsize : sizeVolume input with
  | error reason =>
    rw [sizePosition, hsize] at happroved
    simp [rejectPosition] at happroved
  | ok decision => exact ⟨decision, rfl⟩

/-- Where the notional per volume fits the digits: an approved volume is on the grid and within
    every bound and the next volume of the grid is not, and for a valid account, symbol and stop
    with costs that can be computed a volume is approved if one of the grid is within every bound. -/
theorem sizePosition_exact (hfits : input.NotionalFits) :
    ((sizePosition input).approved → ∃ k : ℕ,
      (sizePosition input).normalizedVolume = some (input.gridVolume k) ∧
      input.Bounds (input.gridVolume k) ∧ ¬ input.Bounds (input.gridVolume (k + 1))) ∧
    (input.Valid → (∃ k : ℕ, input.Bounds (input.gridVolume k)) →
      (sizePosition input).approved) := by
  constructor
  · intro happroved
    obtain ⟨decision, hsize⟩ := sizeVolume_of_approved happroved
    have hvalid := valid_of_sizeVolume hsize
    obtain ⟨n, decision', hsize', -, hvolume, hbounds, hlargest⟩ :=
      sizeVolume_of_bounds hvalid hfits (bounds_of_sizeVolume hvalid hfits hsize)
    refine ⟨n, ?_, hbounds, fun hnext => absurd (hlargest _ hnext) (by omega)⟩
    rw [sizePosition, hsize']
    exact hvolume
  · rintro hvalid ⟨k, hk⟩
    obtain ⟨t, hterms⟩ := hvalid.terms
    obtain ⟨n, decision, hsize, happroved, -⟩ :=
      sizeVolume_of_bounds hvalid hfits (bounds_anti hterms hvalid (Nat.zero_le k) hk)
    rw [sizePosition, hsize]
    exact happroved

end

/-! ### Notional beyond forty digits -/

namespace GridSample

def metadata : SymbolMetadata where
  symbolId := "41"
  symbolName := "XAUUSD"
  digits := 2
  pipPosition := 1
  pipSize := 1 / 10
  tickSize := 1 / 100
  tickValue := 1 / 100
  baseAsset := "XAU"
  quoteAsset := "USD"
  accountAsset := "USD"
  quoteToAccountConversionRate := 1
  contractSize := 100
  volumeScale := 1
  minVolume := 1
  maxVolume := 1000
  volumeStep := 1
  minStopDistance := 1 / 100
  commission := ⟨.usdPerMillionUsd, 30, 0, .currency, "USD", 0⟩
  metadataTime := some 0

def leg : PositionRiskInput where
  equity := 10000
  availableMargin := 10000
  baseRiskPercent := 1
  maxRiskPercent := 1
  entryPrice := 2000
  stopLoss := 1998
  estimatedMarginPerVolume := 1
  currentMargin := 0
  maxMarginUsagePercent := 30
  maxPositionNotional := some 100000
  metadata := metadata

/-- The notional of one unit is `10 ^ 12 + 10 ^ -30`. -/
def wide : PositionRiskInput :=
  { leg with
    entryPrice := 100000000000001 / 10 ^ 10
    stopLoss := 99999900000001 / 10 ^ 10
    maxPositionNotional := some (10 ^ 12)
    metadata := { metadata with
      volumeScale := 2243061649 / 10 ^ 10
      quoteToAccountConversionRate := 4458192223320340849 / 10 ^ 10
      maxVolume := 1
      commission := ⟨.usdPerMillionUsd, 0, 0, .currency, "USD", 0⟩ } }

end GridSample

/-- Forty-five is the largest volume of the grid for a loss of two per unit with its costs. -/
theorem sizePosition_exact_leg : (sizePosition GridSample.leg).normalizedVolume =
      some (GridSample.leg.gridVolume 44) ∧
    GridSample.leg.Bounds (GridSample.leg.gridVolume 44) ∧
    ¬ GridSample.leg.Bounds (GridSample.leg.gridVolume 45) := by
  have hfits : GridSample.leg.NotionalFits := by
    rintro limit ⟨⟩
    exact ⟨by decide +kernel, .inl (by decide +kernel)⟩
  obtain ⟨k, hvolume, hbounds, hnext⟩ :=
    (sizePosition_exact hfits).1 (by decide +kernel)
  have hchosen : (sizePosition GridSample.leg).normalizedVolume = some 45 := by decide +kernel
  have hk : k = 44 := by
    rw [hchosen, Option.some_inj, PositionRiskInput.gridVolume] at hvolume
    norm_num [GridSample.leg, GridSample.metadata] at hvolume
    have hcast : (k : ℚ) = (44 : ℕ) := by
      push_cast
      linarith
    exact_mod_cast hcast
  subst hk
  exact ⟨hvolume, hbounds, hnext⟩

/-- A volume is approved whose notional exceeds the limit. -/
theorem wide_notional_approved : GridSample.wide.Valid ∧ (sizePosition GridSample.wide).approved ∧
    ¬ ∃ k, (sizePosition GridSample.wide).normalizedVolume = some (GridSample.wide.gridVolume k) ∧
      GridSample.wide.Bounds (GridSample.wide.gridVolume k) := by
  have happroved : (sizePosition GridSample.wide).approved := by decide +kernel
  obtain ⟨decision, hsize⟩ := sizeVolume_of_approved happroved
  refine ⟨valid_of_sizeVolume hsize, happroved, ?_⟩
  rintro ⟨k, hvolume, hbounds⟩
  have hchosen : (sizePosition GridSample.wide).normalizedVolume = some 1 := by decide +kernel
  rw [hchosen, Option.some_inj] at hvolume
  have hnotional := hbounds.notional (10 ^ 12) rfl
  rw [← hvolume] at hnotional
  norm_num [PositionRiskInput.notionalPerVolume, GridSample.wide, GridSample.leg] at hnotional

end ScalpingBot.Risk
