import ScalpingBot.Risk.TightPair

/-! When every approved evaluation stays within the percent that it reports: exactly when the percent
    is not cut between the sizing of the pair and its result. -/

namespace ScalpingBot.Risk

namespace OcoRiskEvaluatorOptions

/-- A configuration as the service sets it up: risk percents of at most five, a margin limit, a
    positive notional limit if any, and whole slippage points. -/
structure Operable (o : OcoRiskEvaluatorOptions) : Prop where
  base_le_max : o.baseRiskPercent ≤ o.maxRiskPercent
  max_text : isDecimalText o.maxRiskPercent
  max_le : o.maxRiskPercent ≤ 5
  usage_text : isDecimalText o.maxMarginUsagePercent
  usage_pos : 0 < o.maxMarginUsagePercent
  usage_le : o.maxMarginUsagePercent ≤ 100
  notional : ∀ limit ∈ o.maxPositionNotional, isDecimalText limit ∧ 0 < limit
  points : ∃ n : ℕ, 0 < n ∧ n ≤ 10 ^ 6 ∧ o.adverseSlippagePoints.getD 10 = n

variable {o : OcoRiskEvaluatorOptions} {n : ℕ} {risk : Decimal}

theorem multiplierFactor_le {multiplier : String} {factor : Decimal}
    (h : multiplierFactor multiplier = .ok factor) : 0 ≤ factor ∧ factor ≤ 1 := by
  rw [multiplierFactor.eq_def] at h
  split at h <;> cases h <;> norm_num

/-- The effective percent is positive and never above the base percent. -/
theorem effectiveRisk_le (h : o.effectiveRisk n = .ok risk) :
    0 < risk ∧ risk ≤ o.baseRiskPercent := by
  simp only [effectiveRisk, bind_ok, decimal_ok, require_ok, pure_ok] at h
  obtain ⟨multiplier, -, factor, hfactor, base, ⟨rfl, htext⟩, _, -, cap, -, _, hpos, rfl⟩ := h
  obtain ⟨k, -, hk⟩ := isDecimalText_iff.mp htext
  have hbase : 0 ≤ o.baseRiskPercent := by
    rw [hk]
    positivity
  obtain ⟨hnonneg, hle⟩ := multiplierFactor_le hfactor
  refine ⟨hpos, (min_le_left _ _).trans ?_⟩
  exact (Decimal.times_le (mul_nonneg hbase hnonneg)).trans (mul_le_of_le_one_right hbase hle)

theorem of_units_text {a : Decimal} (htext : isDecimalText a) (hpos : 0 < a) :
    ∃ n : ℕ, 0 < n ∧ n < 10 ^ 26 ∧ a = units n := by
  obtain ⟨n, hn, rfl⟩ := isDecimalText_iff.mp htext
  refine ⟨n, ?_, hn, rfl⟩
  by_contra hzero
  rw [Nat.eq_zero_of_not_pos hzero, Nat.cast_zero, zero_div] at hpos
  exact lt_irrefl 0 hpos

theorem le_of_units_le {m n : ℕ} (h : units m ≤ units n) : m ≤ n := by
  simp only [units] at h
  rw [div_le_div_iff_of_pos_right (by norm_num)] at h
  exact_mod_cast h

/-- A cut percent is exceeded: with the broker's margins and an account at hand, a pair is approved
    that may lose more than the result reports. -/
theorem exceeded_of_cut (ho : o.Operable) (hcut : ¬ o.NotCut) (host : Host) :
    ∃ marginEstimator input, (({ o with marginEstimator }).evaluate host input).approved ∧
      ¬ (({ o with marginEstimator }).evaluate host input).LossWithinReported := by
  simp only [NotCut, not_forall, not_le] at hcut
  obtain ⟨reserve, sized, reported, hreserve, hsized, hreported, hsizedText, htext, hlt⟩ := hcut
  obtain ⟨hreservePos, hreserveLe⟩ := effectiveRisk_le hreserve
  obtain ⟨hsizedPos, hsizedLe⟩ := effectiveRisk_le hsized
  obtain ⟨hreportedPos, -⟩ := effectiveRisk_le hreported
  obtain ⟨setup, -, hsetupLt, rfl⟩ := of_units_text hsizedText hsizedPos
  obtain ⟨usage, husagePos, -, husage⟩ := of_units_text ho.usage_text ho.usage_pos
  obtain ⟨points, hpointsPos, hpointsLe, hpoints⟩ := ho.points
  have hpercent : legPercent (units setup) = units (setup / 2) :=
    Tight.halve_units (hsetupLt.trans (by norm_num))
  have hsetupMax : units setup ≤ o.maxRiskPercent := hsizedLe.trans ho.base_le_max
  have hsetup : setup ≤ 5 * 10 ^ 10 := by
    refine le_of_units_le ((hsetupMax.trans ho.max_le).trans ?_)
    norm_num [units]
  have htwo : 2 ≤ setup := by
    by_contra hsmall
    have hzero : setup / 2 = 0 := Nat.div_eq_of_lt (not_le.mp hsmall)
    rw [hpercent, hzero] at hlt
    simp only [units, Nat.cast_zero, zero_div, mul_zero] at hlt
    exact absurd hlt (not_lt.mpr hreportedPos.le)
  have hequity : 0 ≤ ((100 * (1 + points) : ℕ) : ℚ) * reserve :=
    mul_nonneg (Nat.cast_nonneg _) hreservePos.le
  have hreserveBound : ((100 * (1 + points) : ℕ) : ℚ) * reserve / 100 ≤ 10 ^ 8 := by
    have hreserve5 : reserve ≤ 5 := (hreserveLe.trans ho.base_le_max).trans ho.max_le
    have hpoints' : (points : ℚ) ≤ 10 ^ 6 := by exact_mod_cast hpointsLe
    push_cast
    nlinarith [Nat.cast_nonneg (α := ℚ) points]
  obtain ⟨free, hfreeTwo, hfreeLt, hfree⟩ := freeMargin_eq hequity hreserveBound
  have husageLe : usage ≤ 10 ^ 12 := by
    refine le_of_units_le ((husage ▸ ho.usage_le : units usage ≤ 100).trans ?_)
    norm_num [units]
  let estimate : ℕ → String → OrderSide → Decimal → Except String Decimal :=
    fun _ _ _ _ => .ok (units 1)
  let z : Tight { o with marginEstimator := estimate } :=
    { setup, points, free, usage, two_le_setup := htwo, setup_le := hsetup,
      setup_le_max := hsetupMax, points_pos := hpointsPos, points_le := hpointsLe,
      two_le_free := hfreeTwo, free_lt := hfreeLt, usage_pos := husagePos, usage_le := husageLe,
      max_text := ho.max_text, max_le := ho.max_le, points_eq := hpoints, usage_eq := husage,
      notional := fun limit hlimit => of_units_text (ho.notional limit hlimit).1
        (ho.notional limit hlimit).2 }
  have hevaluate : ({ o with marginEstimator := estimate }).evaluate host z.input =
      z.evaluation host reported :=
    z.evaluate_eq
      (z.evaluatePair_eq (fun _ _ _ _ => rfl) hreserve hsized hreported htext hfree)
  refine ⟨estimate, z.input, ?_, ?_⟩
  · rw [hevaluate]
    rfl
  · rw [hevaluate]
    refine z.evaluation_exceeds htext ?_
    rwa [hpercent] at hlt

/-- Exactly when the reported percent covers what the approved legs may lose: for any configuration, a
    percent that is not cut is enough, and under one that can approve a pair it is also needed. A
    single leg is always covered. -/
theorem within_iff_notCut (o : OcoRiskEvaluatorOptions) (host : Host) :
    (o.NotCut → ∀ marginEstimator input, (({ o with marginEstimator }).evaluate host input).approved →
      (({ o with marginEstimator }).evaluate host input).LossWithinReported) ∧
    (o.Operable → (∀ marginEstimator input,
      (({ o with marginEstimator }).evaluate host input).approved →
      (({ o with marginEstimator }).evaluate host input).LossWithinReported) → o.NotCut) ∧
    ∀ input, input.selectedSide ≠ none → (o.evaluate host input).approved →
      (o.evaluate host input).LossWithinReported := by
  refine ⟨fun hcut _ input happroved => ?_, fun ho hall => ?_, fun input hside happroved => ?_⟩
  · exact evaluate_within happroved fun _ => hcut
  · by_contra hcut
    obtain ⟨marginEstimator, input, happroved, hexceeds⟩ := exceeded_of_cut ho hcut host
    exact hexceeds (hall marginEstimator input happroved)
  · exact evaluate_within happroved fun hnone => absurd hnone hside

end OcoRiskEvaluatorOptions

/-! ### A cut during the margin round trips -/

namespace Sample

def metadata : SymbolMetadata where
  symbolId := "41"
  symbolName := "XAUUSD"
  digits := 2
  pipPosition := 1
  pipSize := 1 / 10
  tickSize := 1 / 100
  tickValue := 1 / 100
  baseAsset := "XAU"
  quoteAsset := "USD"
  accountAsset := "USD"
  quoteToAccountConversionRate := 1
  contractSize := 100
  volumeScale := 1
  minVolume := 1
  maxVolume := 1000
  volumeStep := 1
  minStopDistance := 1 / 100
  commission := ⟨.usdPerMillionUsd, 30, 0, .currency, "USD", 0⟩
  metadataTime := some 0

def input : OcoEvaluationInput where
  response := {
    analysisId := "analysis"
    symbol := "XAUUSD"
    buyStop := ⟨2000, 1998, 2004, some 0⟩
    sellStop := ⟨1990, 1992, 1980, some 0⟩ }
  account := ⟨none, true, 10000, 10000, 10000, 0, 0, false, false, []⟩
  metadata := metadata

/-- The cap falls from one percent to a half after the sizing. -/
def options : OcoRiskEvaluatorOptions where
  marginEstimator := fun _ _ _ volume => .ok volume
  baseRiskPercent := 1
  maxRiskPercent := 1
  maxMarginUsagePercent := 30
  maxPositionNotional := none
  strategyVersion := "1"
  riskMultiplier := some fun _ => .ok "1"
  riskPercentCap := some fun n => .ok (if n < 2 then 1 else 1 / 2)

def host : Host := ⟨id, "group"⟩

end Sample

/-- Both legs together may lose 97.67 of an equity of 10000, and the result reports a quarter of a
    percent for each. -/
theorem cut_after_sizing : (Sample.options.evaluate Sample.host Sample.input).approved ∧
    ¬ (Sample.options.evaluate Sample.host Sample.input).LossWithinReported := by
  have hloss : (Sample.options.evaluate Sample.host Sample.input).modelledLoss =
      some (12208713 / 125000) := by decide +kernel
  have hequity : (Sample.options.evaluate Sample.host Sample.input).equity = some 10000 := by
    decide +kernel
  have hpercent : (Sample.options.evaluate Sample.host Sample.input).perLegRiskPercent =
      some (1 / 4) := by decide +kernel
  refine ⟨by decide +kernel, ?_⟩
  rintro ⟨loss, equity, percent, hloss', hequity', hpercent', hle⟩
  cases hloss.symm.trans hloss'
  cases hequity.symm.trans hequity'
  cases hpercent.symm.trans hpercent'
  norm_num at hle

end ScalpingBot.Risk
